import Intcode.Proofs.ChainHistory

/-!
# Chains with feedback

In a chain with feedback every amplifier reads what the one before it outputs, and the first one
reads the initial signal and then what the last one outputs. At any time one signal is in flight,
and the amplifier it is meant for is the next to be pulled; all the others have had everything that
is meant for them. So the amplifiers of a chain that comes to an end have made complete runs, each
on exactly the words that its predecessor output in its own complete run.

The signal goes round until an amplifier halts instead of passing it on. That need not be the first
one: the amplifiers before it have then output one word more than the others.
-/

set_option autoImplicit false

namespace Intcode.Chain

/-- The words meant for an amplifier in a ring of this size, by what each amplifier outputs. -/
def addressed (size : Nat) (signal : Int) (outputs : Nat → List Int) : Nat → List Int
  | 0 => signal :: outputs (size - 1)
  | index + 1 => outputs index

theorem due_after (size due : Nat) (inside : due < size) :
    (due + 1) % size = if due + 1 = size then 0 else due + 1 := by
  split
  case isTrue whole => rw [whole, Nat.mod_self]
  case isFalse part => exact Nat.mod_eq_of_lt (by omega)

theorem rounds_after (size due : Nat) (inside : due < size) :
    (due + 1) / size = if due + 1 = size then 1 else 0 := by
  split
  case isTrue whole => rw [whole, Nat.div_self (by omega)]
  case isFalse part => exact Nat.div_eq_of_lt (by omega)

/-- A word that is output is meant for the amplifier that is due after its speaker. -/
theorem addressed_output (size : Nat) (signal : Int) (events : Array Event) (due : Nat)
    (word : Int) (notices : List Notice) (inside : due < size) (index : Nat)
    (indexInside : index < size) :
    addressed size signal
        (spokenBy (events.push (.pulled due (.ok (some word)) notices))) index =
      addressed size signal (spokenBy events) index ++
        if index = (due + 1) % size then [word] else [] := by
  rw [due_after size due inside]
  cases index with
  | zero =>
      have last : size - 1 = due ↔ 0 = if due + 1 = size then 0 else due + 1 := by
        split <;> omega
      simp only [addressed, spoken_by_output, last, List.cons_append]
  | succ index =>
      have before : index = due ↔ index + 1 = if due + 1 = size then 0 else due + 1 := by
        split <;> omega
      simp only [addressed, spoken_by_output, before]

/-- A chain between two pulls, with a signal in flight to the amplifier that is `due`. The words
that have `arrived` at each amplifier are all that are meant for it but that signal, and each
amplifier that was started has run on its phase and the words that arrived. -/
structure Ring (program : Program) (phases : List Int) (signal : Int) (rounds due : Nat)
    (arrived : Nat → List Int) (state : State) : Prop where
  inside : due < phases.length
  inFlight : ∀ index, index < phases.length →
    addressed phases.length signal (spokenBy state.events) index =
      arrived index ++ if index = due then [state.signal] else []
  playing : ∀ index phase amplifier, phases[index]? = some phase →
    state.amplifiers[index]? = some amplifier →
      program.Plays (phase :: arrived index) (spokenBy state.events index) amplifier
  counts : ∀ index, index < phases.length →
    (spokenBy state.events index).length = rounds + if index < due then 1 else 0
  latest : (spoken state.events).getLastD signal = state.signal
  unclosed : closers state.events = []

section Passing

variable {program : Program} {phases : List Int} {signal : Int} {rounds due : Nat}
  {arrived : Nat → List Int} {state : State}

theorem Ring.arrived_count (ring : Ring program phases signal rounds due arrived state) :
    (arrived due).length = rounds := by
  have inside := ring.inside
  have whole := congrArg List.length (ring.inFlight due inside)
  rw [if_pos rfl, List.length_append, List.length_singleton] at whole
  cases due with
  | zero =>
      simp only [addressed, List.length_cons, ring.counts (phases.length - 1) (by omega)] at whole
      rw [if_neg (by omega)] at whole
      omega
  | succ index =>
      simp only [addressed, ring.counts index (by omega)] at whole
      rw [if_pos (by omega)] at whole
      omega

/-- The due amplifier takes the signal in flight and outputs the next one. -/
theorem Ring.pass (ring : Ring program phases signal rounds due arrived state)
    (amplifiers : Array Execution) (next : Execution) (word : Int) (notices : List Notice)
    (placed : amplifiers[due]? = some next)
    (others : ∀ index, index ≠ due → amplifiers[index]? = state.amplifiers[index]?)
    (plays : ∀ phase, phases[due]? = some phase →
      program.Plays (phase :: (arrived due ++ [state.signal]))
        (spokenBy state.events due ++ [word]) next) :
    Ring program phases signal (rounds + (due + 1) / phases.length)
      ((due + 1) % phases.length) (addressed phases.length signal (spokenBy state.events))
      (state.pass due amplifiers word notices) := by
  have inside := ring.inside
  refine ⟨Nat.mod_lt _ (by omega), ?_, ?_, ?_, ?_, ?_⟩
  · intro index indexInside
    exact addressed_output _ _ _ due word notices inside index indexInside
  · intro index phase amplifier phased present
    have indexInside := (List.getElem?_eq_some_iff.mp phased).1
    rw [ring.inFlight index indexInside, State.pass, spoken_by_output]
    by_cases own : index = due
    · subst own
      rw [if_pos rfl, if_pos rfl]
      rw [State.pass, placed] at present
      cases present
      exact plays phase phased
    · -- Nothing was in flight to the others, so all that is meant for them had arrived before.
      rw [if_neg own, if_neg own, List.append_nil, List.append_nil]
      refine ring.playing index phase amplifier phased ?_
      rw [← others index own]
      exact present
  · intro index indexInside
    have outputs : (if index = due then [word] else []).length = if index = due then 1 else 0 := by
      split <;> rfl
    rw [State.pass, spoken_by_output, List.length_append, ring.counts index indexInside, outputs,
      due_after phases.length due inside, rounds_after phases.length due inside]
    -- If the speaker is the last one, a round is complete and nobody is ahead any more.
    grind
  · simp [State.pass, spoken_push, Event.word?]
  · simp [State.pass, closers_push, Event.closer?, ring.unclosed]

/-- Starting the amplifiers is the first round. -/
theorem Ring.start (fuel index : Nat) (rest : List Int) (final : State)
    (ring : Ring program phases signal (index / phases.length) (index % phases.length) arrived
      state)
    (size : state.amplifiers.size = index) (within : index ≤ phases.length)
    (remaining : phases.drop index = rest)
    (started : startAll fuel program index rest state = (.ok (), final)) :
    ∃ arrived, Ring program phases signal 1 0 arrived final ∧
      final.amplifiers.size = phases.length := by
  induction rest generalizing index state arrived with
  | nil =>
      have whole : index = phases.length := by
        have := List.drop_eq_nil_iff.mp remaining
        omega
      have nonempty := ring.inside
      cases started
      rw [whole, Nat.mod_self, Nat.div_self (by omega)] at ring
      exact ⟨arrived, ring, size.trans whole⟩
  | cons phase rest ih =>
      have inside : index < phases.length := by
        have := congrArg List.length remaining
        simp only [List.length_drop, List.length_cons] at this
        omega
      have phased : phases[index]? = some phase := by
        rw [← List.head?_drop, remaining, List.head?_cons]
      rw [Nat.div_eq_of_lt inside, Nat.mod_eq_of_lt inside] at ring
      obtain ⟨amplifier, next, word, notices, loaded, pulls, later⟩ :=
        start_all_cons fuel index program phase rest state final started
      -- The first round has just come to this amplifier, which is yet to be heard of.
      have unreached : arrived index = [] := List.eq_nil_of_length_eq_zero ring.arrived_count
      have unheard : spokenBy state.events index = [] := by
        apply List.eq_nil_of_length_eq_zero
        rw [ring.counts index inside, if_neg (Nat.lt_irrefl _)]
      have passed := ring.pass (state.amplifiers.push next) next word notices
        (by rw [← size, Array.getElem?_push_size])
        (by
          intro other elsewhere
          rw [Array.getElem?_push, if_neg (by omega)])
        (by
          intro own samePhase
          rw [phased] at samePhase
          cases samePhase
          rw [unreached, unheard]
          exact (program.start_plays [phase, state.signal] amplifier loaded).speak pulls)
      rw [Nat.zero_add] at passed
      refine ih (index + 1) passed ?_ inside ?_ later
      · simp [State.pass, size]
      · rw [← List.tail_drop, remaining, List.tail_cons]

/-- The signal goes round until an amplifier halts instead of passing it on. -/
theorem Ring.circulate (fuel pulls : Nat) (final : State)
    (ring : Ring program phases signal rounds due arrived state)
    (full : state.amplifiers.size = phases.length) (begun : 1 ≤ rounds)
    (circulated : circulate fuel pulls due state = (.ok (), final)) :
    ∃ rounds due arrived before amplifier next notices,
      Ring program phases signal rounds due arrived before ∧
      before.amplifiers.size = phases.length ∧ 1 ≤ rounds ∧
      before.amplifiers[due]? = some amplifier ∧ Word.Fits before.signal ∧
      (amplifier.feed [before.signal]).Pulls (.ok none) next ∧
      final = before.close due (before.amplifiers.setIfInBounds due next) notices := by
  induction pulls generalizing rounds due arrived state with
  | zero => exact absurd circulated (by simp [Chain.circulate])
  | succ pulls ih =>
      have inside := ring.inside
      have present : state.amplifiers[due]? = some (state.amplifiers[due]) := by simp
      generalize state.amplifiers[due] = amplifier at present
      obtain ⟨fits, passed | closed⟩ :=
        circulate_step fuel pulls due state final amplifier present circulated
      · obtain ⟨next, word, notices, outputs, later⟩ := passed
        rw [full] at later
        refine ih (ring.pass _ next word notices ?_ ?_ ?_) ?_ (Nat.le_add_right_of_le begun) later
        · rw [Array.getElem?_setIfInBounds_self_of_lt (by omega)]
        · intro other elsewhere
          rw [Array.getElem?_setIfInBounds_ne (Ne.symm elsewhere)]
        · intro phase phased
          exact ((ring.playing due phase amplifier phased present).feed state.signal fits).speak
            outputs
        · simp [State.pass, full]
      · obtain ⟨next, notices, halts, rfl⟩ := closed
        exact ⟨rounds, due, arrived, state, amplifier, next, notices, ring, full, begun, present,
          fits, halts, rfl⟩

end Passing

/-! ## Chains that come to an end -/

/-- What a chain with feedback has come to when the amplifier `closer` ended it. -/
structure Closes (program : Program) (phases : List Int) (signal : Int) (rounds closer : Nat)
    (value : Int) (events : Array Event) : Prop where
  inside : closer < phases.length
  begun : 1 ≤ rounds
  closing : closers events = [closer]
  counts : ∀ index, index < phases.length →
    (spokenBy events index).length = rounds + if index < closer then 1 else 0
  latest : (spoken events).getLastD signal = value
  unanswered : (addressed phases.length signal (spokenBy events) closer).getLast? = some value
  complete : ∀ index phase, phases[index]? = some phase →
    program.Completes (phase :: addressed phases.length signal (spokenBy events) index)
      (spokenBy events index)

section Closing

variable {program : Program} {phases : List Int} {signal : Int} {rounds due : Nat}
  {arrived : Nat → List Int} {state : State}

theorem initial_ring (nonempty : phases ≠ []) :
    Ring program phases signal 0 0 (fun _ => []) { amplifiers := #[], signal, events := #[] } := by
  refine ⟨List.length_pos_iff.mpr nonempty, ?_, by simp, ?_, rfl, rfl⟩
  · intro index _
    cases index with
    | zero => rfl
    | succ index => rfl
  · intro index _
    rfl

theorem close_events (state : State) (index : Nat) (amplifiers : Array Execution)
    (notices : List Notice) :
    spoken (state.close index amplifiers notices).events = spoken state.events ∧
      spokenBy (state.close index amplifiers notices).events = spokenBy state.events ∧
      closers (state.close index amplifiers notices).events = closers state.events ++ [index] := by
  refine ⟨?_, ?_, ?_⟩
  · simp [State.close, spoken_push, Event.word?]
  · funext other
    simp [State.close, spoken_by_push, Event.word?]
  · simp [State.close, closers_push, Event.closer?]

/-- When every amplifier is found to have halted, each has made a complete run on all the words that
are meant for it: the one that ended the feedback has had the last signal too. -/
theorem Ring.complete (ring : Ring program phases signal rounds due arrived state)
    (full : state.amplifiers.size = phases.length) (amplifier next : Execution)
    (present : state.amplifiers[due]? = some amplifier) (fits : Word.Fits state.signal)
    (halts : (amplifier.feed [state.signal]).Pulls (.ok none) next)
    (halted : ∀ other ∈ (state.amplifiers.setIfInBounds due next).toList,
      ∃ after, other.Pulls (.ok none) after)
    (index : Nat) (phase : Int) (phased : phases[index]? = some phase) :
    program.Completes
      (phase :: addressed phases.length signal (spokenBy state.events) index)
      (spokenBy state.events index) := by
  have indexInside := (List.getElem?_eq_some_iff.mp phased).1
  rw [ring.inFlight index indexInside]
  by_cases own : index = due
  · subst own
    rw [if_pos rfl]
    exact ((ring.playing index phase amplifier phased present).feed state.signal fits).halt halts
  · rw [if_neg own, List.append_nil]
    have there : state.amplifiers[index]? = some (state.amplifiers[index]) := by simp
    have member : state.amplifiers[index] ∈ (state.amplifiers.setIfInBounds due next).toList := by
      rw [Array.mem_toList_iff, Array.mem_iff_getElem?]
      exact ⟨index, by rw [Array.getElem?_setIfInBounds_ne (Ne.symm own), there]⟩
    obtain ⟨after, pulls⟩ := halted _ member
    exact (ring.playing index phase _ phased there).halt pulls

theorem feedback_closes (fuel : Nat) (program : Program) (phases : List Int) (signal value : Int)
    (nonempty : phases ≠ [])
    (returned : (run fuel program phases signal true).result = .ok value) :
    ∃ rounds closer, Closes program phases signal rounds closer value
      (run fuel program phases signal true).events := by
  obtain ⟨started, final, settled, starting, circulating, settling, rfl, sameEvents⟩ :=
    run_feedback fuel program phases signal value returned
  have positive := List.length_pos_iff.mpr nonempty
  obtain ⟨_, startedRing, full⟩ := Ring.start fuel 0 phases started
    (by
      rw [Nat.zero_div, Nat.zero_mod]
      exact initial_ring nonempty)
    rfl (Nat.zero_le _) rfl starting
  obtain ⟨rounds, due, arrived, before, amplifier, next, notices, ring, full, begun, present, fits,
    halts, rfl⟩ := startedRing.circulate fuel fuel final full (Nat.le_refl 1) circulating
  obtain ⟨closedSpoken, closedSpokenBy, closedClosers⟩ :=
    close_events before due (before.amplifiers.setIfInBounds due next) notices
  obtain ⟨halted, sameSpoken, sameSpokenBy, sameClosers⟩ :=
    settle_halts fuel 0 _ _ settled settling
  rw [closedSpoken] at sameSpoken
  rw [closedSpokenBy] at sameSpokenBy
  rw [closedClosers, ring.unclosed, List.nil_append] at sameClosers
  refine ⟨rounds, due, ?_⟩
  rw [sameEvents]
  refine ⟨ring.inside, begun, sameClosers, ?_, ?_, ?_, ?_⟩
  · rw [sameSpokenBy]
    exact ring.counts
  · rw [sameSpoken]
    exact ring.latest
  · rw [sameSpokenBy, ring.inFlight due ring.inside, if_pos rfl, List.getLast?_concat]
    rfl
  · rw [sameSpokenBy]
    exact ring.complete full amplifier next present fits halts halted

end Closing

theorem spoken_by_subset (events : Array Event) (index : Nat) (word : Int)
    (member : word ∈ spokenBy events index) : word ∈ spoken events := by
  simp only [spokenBy, spoken, Array.toList_filter, List.mem_filterMap, List.mem_filter] at member ⊢
  obtain ⟨event, ⟨recorded, _⟩, output⟩ := member
  exact ⟨event, recorded, output⟩

/-- No signal of a chain with feedback is lost, doubled or put out of order. When the chain comes to
an end, each amplifier has output what a complete run of the program outputs that reads its phase
and then what its predecessor has output, and the value of the chain is the last word of all. -/
theorem feedback_loses_no_signal (fuel : Nat) (program : Program) (phases : List Int)
    (signal value : Int) (nonempty : phases ≠ [])
    (returned : (run fuel program phases signal true).result = .ok value) :
    (spoken (run fuel program phases signal true).events).getLast? = some value ∧
      ∀ index phase, phases[index]? = some phase →
        program.Completes
          (phase :: addressed phases.length signal
            (spokenBy (run fuel program phases signal true).events) index)
          (spokenBy (run fuel program phases signal true).events index) := by
  obtain ⟨rounds, closer, closes⟩ :=
    feedback_closes fuel program phases signal value nonempty returned
  refine ⟨?_, closes.complete⟩
  have positive := List.length_pos_iff.mpr nonempty
  have begun := closes.begun
  have first := closes.counts 0 positive
  generalize (run fuel program phases signal true).events = events at closes first
  have spoke : spokenBy events 0 ≠ [] := by
    apply List.ne_nil_of_length_pos
    omega
  obtain ⟨word, own⟩ := List.exists_mem_of_ne_nil _ spoke
  have heard := List.ne_nil_of_mem (spoken_by_subset events 0 word own)
  have latest := closes.latest
  rw [List.getLastD_eq_getLast?, List.getLast?_eq_some_getLast heard, Option.getD_some] at latest
  rw [List.getLast?_eq_some_getLast heard, latest]

/-- Passes on one signal with phase zero and two with any other phase, each raised by one. -/
def onceOrTwice : Program :=
  { words := [3, 22, 3, 23, 101, 1, 23, 23, 4, 23, 1006, 22, 21, 3, 23, 101, 1, 23, 23, 4, 23, 99,
      0, 0] }

/-- The second of two amplifiers halts when it is given a second signal, which it never reads. -/
theorem uneven_chain_loses_no_signal :
    (run 20 onceOrTwice [1, 0] 0 true).result = .ok 3 ∧
      onceOrTwice.Completes [1, 0, 2] [1, 3] ∧ onceOrTwice.Completes [0, 1, 3] [2] := by
  obtain ⟨_, complete⟩ := feedback_loses_no_signal 20 onceOrTwice [1, 0] 0 3 (by decide) rfl
  exact ⟨rfl, complete 0 1 rfl, complete 1 0 rfl⟩

/-- Where the feedback of a chain ends. Some amplifier halts instead of passing the signal on; those
before it have output one word more than it and those after it, so that all have output equally many
only if it is the first one. The value of the chain is the last output of its predecessor, which is
the last amplifier only in that case. -/
theorem feedback_ends_where_one_halts (fuel : Nat) (program : Program) (phases : List Int)
    (signal value : Int) (nonempty : phases ≠ [])
    (returned : (run fuel program phases signal true).result = .ok value) :
    ∃ rounds closer, 1 ≤ rounds ∧ closer < phases.length ∧
      closers (run fuel program phases signal true).events = [closer] ∧
      (∀ index, index < phases.length →
        (spokenBy (run fuel program phases signal true).events index).length =
          rounds + if index < closer then 1 else 0) ∧
      (spokenBy (run fuel program phases signal true).events
        ((closer + phases.length - 1) % phases.length)).getLast? = some value ∧
      (closer = 0 ↔ ∀ index, index < phases.length →
        (spokenBy (run fuel program phases signal true).events index).length =
          (spokenBy (run fuel program phases signal true).events
            (phases.length - 1)).length) := by
  obtain ⟨rounds, closer, closes⟩ :=
    feedback_closes fuel program phases signal value nonempty returned
  generalize (run fuel program phases signal true).events = events at closes ⊢
  have inside := closes.inside
  have begun := closes.begun
  have lastCount := closes.counts (phases.length - 1) (by omega)
  rw [if_neg (by omega)] at lastCount
  refine ⟨rounds, closer, begun, inside, closes.closing, closes.counts, ?_, ?_⟩
  · have unanswered := closes.unanswered
    cases closer with
    | zero =>
        rw [Nat.zero_add, Nat.mod_eq_of_lt (by omega)]
        have spoke : spokenBy events (phases.length - 1) ≠ [] := by
          apply List.ne_nil_of_length_pos
          omega
        rw [addressed, List.getLast?_cons_of_ne_nil spoke] at unanswered
        exact unanswered
    | succ index =>
        have predecessor : (index + 1 + phases.length - 1) % phases.length = index := by
          rw [show index + 1 + phases.length - 1 = index + phases.length by omega,
            Nat.add_mod_right, Nat.mod_eq_of_lt (by omega)]
        rw [predecessor]
        exact unanswered
  · constructor
    · rintro rfl index indexInside
      rw [closes.counts index indexInside, lastCount, if_neg (by omega)]
    · intro level
      have firstCount := level 0 (by omega)
      rw [closes.counts 0 (by omega), lastCount] at firstCount
      cases closer with
      | zero => rfl
      | succ index =>
          rw [if_pos (Nat.succ_pos index)] at firstCount
          omega

/-- The feedback need not end with the first amplifier, nor all amplifiers have output equally many
words, nor the value of the chain be what the last amplifier output last. -/
theorem second_amplifier_ends_feedback :
    (run 20 onceOrTwice [1, 0] 0 true).result = .ok 3 ∧
      closers (run 20 onceOrTwice [1, 0] 0 true).events = [1] ∧
      spokenBy (run 20 onceOrTwice [1, 0] 0 true).events 0 = [1, 3] ∧
      spokenBy (run 20 onceOrTwice [1, 0] 0 true).events 1 = [2] :=
  ⟨rfl, rfl, rfl, rfl⟩

theorem uneven_chain_ends_after_first :
    ∃ rounds, (run 20 onceOrTwice [1, 0] 0 true).result = .ok 3 ∧
      (spokenBy (run 20 onceOrTwice [1, 0] 0 true).events 0).length = rounds + 1 ∧
      (spokenBy (run 20 onceOrTwice [1, 0] 0 true).events 1).length = rounds ∧
      (spokenBy (run 20 onceOrTwice [1, 0] 0 true).events 0).getLast? = some 3 := by
  obtain ⟨rounds, closer, _, _, closing, counts, last, _⟩ :=
    feedback_ends_where_one_halts 20 onceOrTwice [1, 0] 0 3 (by decide) rfl
  have second : closers (run 20 onceOrTwice [1, 0] 0 true).events = [1] := rfl
  rw [second, List.cons.injEq] at closing
  obtain ⟨rfl, _⟩ := closing
  exact ⟨rounds, rfl, counts 0 (by decide), counts 1 (by decide), last⟩

end Intcode.Chain
