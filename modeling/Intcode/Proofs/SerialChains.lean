import Mathlib.Algebra.Group.Int.Defs
import Mathlib.Data.List.Basic
import Intcode.Proofs.ChainHistory

/-!
# Serial chains

A chain without feedback pulls once on every amplifier and then once more on each, to find it
halted. The pulls on different amplifiers take turns, but no amplifier notices the others, so the
chain comes to the same as complete runs of the program, one after the other, each with the output
of the one before. The error of a chain that fails is that of the first amplifier without an output,
or, if all have one, of the first that does not halt. An extra output is part of the error's text,
so one that is too long to be written fails for that.
-/

set_option autoImplicit false

namespace Intcode.Chain

/-- A chain without feedback comes to this end, given enough fuel. -/
def Ends (program : Program) (phases : List Int) (signal : Int) (outcome : Except Error Int) :
    Prop :=
  ∃ enough, ∀ fuel, enough ≤ fuel →
    (run fuel program phases signal false).result = outcome.mapError .failed

/-- Of a list's items, so many from the first one on are as said. -/
def Foremost {α : Type} (items : List α) (count : Nat) (holds : Nat → α → Prop) : Prop :=
  ∀ index item, index < count → items[index]? = some item → holds index item

section Statements

variable (program : Program) (phases : List Int) (signals : Nat → Int)

/-- The first amplifiers, as many as counted, output the signals of their successors. -/
def Opened (count : Nat) : Prop :=
  Foremost phases count fun index phase =>
    program.Opens [phase, signals index] (.ok (some (signals (index + 1))))

/-- The first amplifiers, as many as counted, halt after one output. -/
def Settled (count : Nat) : Prop :=
  Foremost phases count fun index phase => program.Resumes [phase, signals index] (.ok none)

/-- This is the error of the first amplifier that does not output a signal, the amplifiers being
numbered from the given number on. -/
def FailsToOpen (number : Nat) (error : Error) : Prop :=
  ∃ index phase outcome, phases[index]? = some phase ∧ Opened program phases signals index ∧
    program.Opens [phase, signals index] outcome ∧
    opening (number + index) phase outcome = .error error

/-- All amplifiers output signals, and this is the error of the first one that does not halt. -/
def FailsToSettle (error : Error) : Prop :=
  Opened program phases signals phases.length ∧
    ∃ index phase outcome, phases[index]? = some phase ∧ Settled program phases signals index ∧
      program.Resumes [phase, signals index] outcome ∧ settling index outcome = .error error

/-- Pulls on the first amplifiers output the signals of their successors and leave these
executions. -/
def Lineup (amplifiers : List Execution) : Prop :=
  ∀ index phase amplifier, phases[index]? = some phase → amplifiers[index]? = some amplifier →
    program.Voices [phase, signals index] (signals (index + 1)) amplifier

end Statements

theorem foremost_none {α : Type} (items : List α) (holds : Nat → α → Prop) :
    Foremost items 0 holds := by
  intro index item inside
  exact absurd inside (Nat.not_lt_zero index)

theorem foremost_cons_iff {α : Type} (item : α) (items : List α) (count : Nat)
    (holds : Nat → α → Prop) :
    Foremost (item :: items) (count + 1) holds ↔
      holds 0 item ∧ Foremost items count fun index => holds (index + 1) := by
  constructor
  · intro foremost
    refine ⟨foremost 0 item (by omega) rfl, ?_⟩
    intro index other inside present
    exact foremost (index + 1) other (by omega) present
  · rintro ⟨first, later⟩ index other inside present
    cases index with
    | zero =>
        cases present
        exact first
    | succ index => exact later index other (by omega) present

/-! ## Starting the amplifiers -/

/-- A signal and those that follow it. -/
def heard (signal : Int) (later : Nat → Int) : Nat → Int
  | 0 => signal
  | index + 1 => later index

section Starting

variable {program : Program} {phases : List Int} {signals : Nat → Int} {phase : Int}
  {next : Execution}

theorem Lineup.cons {amplifiers : List Execution}
    (voices : program.Voices [phase, signals 0] (signals 1) next)
    (lineup : Lineup program phases (fun index => signals (index + 1)) amplifiers) :
    Lineup program (phase :: phases) signals (next :: amplifiers) := by
  intro index own amplifier placed present
  cases index with
  | zero =>
      cases placed
      cases present
      exact voices
  | succ index => exact lineup index own amplifier placed present

theorem opened_cons_iff (count : Nat) :
    Opened program (phase :: phases) signals (count + 1) ↔
      (∃ next, program.Voices [phase, signals 0] (signals 1) next) ∧
        Opened program phases (fun index => signals (index + 1)) count := by
  rw [← program.opens_word_iff]
  exact foremost_cons_iff phase phases count _

theorem FailsToOpen.cons {number : Nat} {error : Error}
    (voices : program.Voices [phase, signals 0] (signals 1) next)
    (fails : FailsToOpen program phases (fun index => signals (index + 1)) (number + 1) error) :
    FailsToOpen program (phase :: phases) signals number error := by
  obtain ⟨index, own, outcome, placed, opened, opens, verdict⟩ := fails
  refine ⟨index + 1, own, outcome, placed, ?_, opens, ?_⟩
  · exact (opened_cons_iff index).mpr ⟨⟨next, voices⟩, opened⟩
  · rw [← Nat.add_assoc, Nat.add_right_comm]
    exact verdict

end Starting

/-- The amplifiers have been started, each with the signal of the one before. -/
structure Started (program : Program) (phases : List Int) (signals : Nat → Int)
    (amplifiers : List Execution) (state final : State) : Prop where
  lineup : Lineup program phases signals amplifiers
  signal : final.signal = signals amplifiers.length
  present : final.amplifiers.toList = state.amplifiers.toList ++ amplifiers

theorem Started.cons {program : Program} {phases : List Int} {signals : Nat → Int} {phase : Int}
    {next : Execution} {amplifiers : List Execution} {index : Nat} {word : Int}
    {notices : List Notice} {state final : State}
    (voices : program.Voices [phase, signals 0] (signals 1) next)
    (started : Started program phases (fun index => signals (index + 1)) amplifiers
      (state.pass index (state.amplifiers.push next) word notices) final) :
    Started program (phase :: phases) signals (next :: amplifiers) state final where
  lineup := started.lineup.cons voices
  signal := started.signal
  present := by
    rw [started.present]
    simp [State.pass]

theorem start_all_ends (fuel index : Nat) (program : Program) (phases : List Int)
    (state final : State) (result : Except Stop Unit)
    (starting : startAll fuel program index phases state = (result, final))
    (ended : result ≠ .error .outOfFuel) :
    ∃ signals, signals 0 = state.signal ∧
      ((∃ amplifiers, result = .ok () ∧ amplifiers.length = phases.length ∧
          Started program phases signals amplifiers state final) ∨
        ∃ error, result = .error (.failed error) ∧
          FailsToOpen program phases signals index error) := by
  induction phases generalizing index state with
  | nil =>
      cases starting
      refine ⟨fun _ => final.signal, rfl, .inl ⟨[], rfl, rfl, ?_, rfl, by simp⟩⟩
      intro position own amplifier placed
      exact absurd placed (by simp)
  | cons phase phases ih =>
      rcases start_all_turn _ _ _ _ _ _ _ _ starting ended with
        ⟨outcome, error, opens, verdict, failed⟩ | ⟨word, next, notices, voices, rest⟩
      · exact ⟨fun _ => state.signal, rfl, .inr ⟨error, failed, 0, phase, outcome, rfl,
          foremost_none _ _, opens, verdict⟩⟩
      · -- The signals are found from the last one back: those of the rest start with the new word.
        obtain ⟨later, begins, ends⟩ := ih _ _ rest
        have first : word = later 0 := begins.symm
        subst first
        refine ⟨heard state.signal later, rfl, ?_⟩
        rcases ends with ⟨amplifiers, done, counted, started⟩ | ⟨error, failed, fails⟩
        · exact .inl ⟨next :: amplifiers, done, by simp [counted], started.cons voices⟩
        · exact .inr ⟨error, failed, fails.cons voices⟩

/-- With enough fuel, an amplifier that outputs a word is started and leaves its place to the next
one. -/
theorem start_all_next {program : Program} {phase signal word : Int} {next : Execution}
    (voices : program.Voices [phase, signal] word next) :
    ∃ enough, ∀ fuel, enough ≤ fuel → ∀ index phases state, state.signal = signal →
      ∃ notices, startAll fuel program index (phase :: phases) state =
        startAll fuel program (index + 1) phases
          (state.pass index (state.amplifiers.push next) word notices) := by
  obtain ⟨execution, loaded, pulls⟩ := voices
  obtain ⟨enough, pulled⟩ := pulls.with_more
  refine ⟨enough, ?_⟩
  rintro fuel bound index phases state rfl
  obtain ⟨notices, pulledAt⟩ := pull_at_of_pull fuel index _ _ state _ (pulled fuel bound)
  refine ⟨notices, ?_⟩
  rw [startAll, loaded]
  simp only [pulledAt, Execution.inTime]
  rfl

theorem start_all_stops {program : Program} {index : Nat} {phase signal : Int} {error : Error}
    {outcome : Except Error (Option Int)} (opens : program.Opens [phase, signal] outcome)
    (verdict : opening index phase outcome = .error error) :
    ∃ enough, ∀ fuel, enough ≤ fuel → ∀ phases state, state.signal = signal →
      (startAll fuel program index (phase :: phases) state).1 = .error (.failed error) := by
  cases opens with
  | refused refusal loaded =>
      cases verdict
      refine ⟨0, ?_⟩
      rintro fuel _ phases state rfl
      rw [startAll, loaded]
  | pulled execution next outcome loaded pulls =>
      obtain ⟨enough, pulled⟩ := pulls.with_more
      refine ⟨enough, ?_⟩
      rintro fuel bound phases state rfl
      obtain ⟨notices, pulledAt⟩ := pull_at_of_pull fuel index _ _ state _ (pulled fuel bound)
      rw [startAll, loaded]
      cases outcome with
      | error own =>
          cases verdict
          simp only [pulledAt, Execution.inTime]
      | ok word =>
          cases word with
          | none =>
              cases verdict
              simp only [pulledAt, Execution.inTime]
              rw [silent_raised program index phase state.signal execution loaded]
          | some word => exact absurd verdict (by simp [opening])

theorem start_all_past (program : Program) (phases : List Int) (signals : Nat → Int) (count : Nat)
    (opened : Opened program phases signals count) (inside : count ≤ phases.length) :
    ∃ amplifiers enough, amplifiers.length = count ∧ ∀ fuel, enough ≤ fuel →
      ∀ index state, state.signal = signals 0 → ∃ after,
        Started program phases signals amplifiers state after ∧
        startAll fuel program index phases state =
          startAll fuel program (index + count) (phases.drop count) after := by
  induction count generalizing phases signals with
  | zero =>
      refine ⟨[], 0, rfl, ?_⟩
      intro fuel _ index state begins
      refine ⟨state, ⟨?_, begins, by simp⟩, rfl⟩
      intro position own amplifier _ present
      exact absurd present (by simp)
  | succ count ih =>
      cases phases with
      | nil => exact absurd inside (by simp)
      | cons phase phases =>
          obtain ⟨⟨next, voices⟩, later⟩ := (opened_cons_iff count).mp opened
          obtain ⟨enough, goesOn⟩ := start_all_next voices
          obtain ⟨amplifiers, enoughLater, counted, past⟩ :=
            ih phases _ later (by simpa using inside)
          -- Every pull needs its own fuel, and the chain has one for all: the greatest will do.
          refine ⟨next :: amplifiers, max enough enoughLater, by simp [counted], ?_⟩
          intro fuel bound index state begins
          obtain ⟨notices, same⟩ := goesOn fuel (by omega) index phases state begins
          obtain ⟨after, started, rest⟩ := past fuel (by omega) (index + 1)
            (state.pass index (state.amplifiers.push next) (signals 1) notices) rfl
          refine ⟨after, started.cons voices, ?_⟩
          rw [same, rest, Nat.add_right_comm, Nat.add_assoc, List.drop_succ_cons]

/-! ## Finding the amplifiers halted -/

/-- The first amplifiers, as many as counted, halt. -/
def Halted (amplifiers : List Execution) (count : Nat) : Prop :=
  Foremost amplifiers count fun _ amplifier => ∃ last, amplifier.Pulls (.ok none) last

/-- This is the error of the first amplifier that does not halt. -/
def Unsettled (amplifiers : List Execution) (number : Nat) (error : Error) : Prop :=
  ∃ index amplifier outcome last, amplifiers[index]? = some amplifier ∧ Halted amplifiers index ∧
    amplifier.Pulls outcome last ∧ settling (number + index) outcome = .error error

theorem Unsettled.cons {amplifier last : Execution} {amplifiers : List Execution} {number : Nat}
    {error : Error} (halts : amplifier.Pulls (.ok none) last)
    (unsettled : Unsettled amplifiers (number + 1) error) :
    Unsettled (amplifier :: amplifiers) number error := by
  obtain ⟨index, own, outcome, after, present, halted, pulls, verdict⟩ := unsettled
  refine ⟨index + 1, own, outcome, after, present, ?_, pulls, ?_⟩
  · exact (foremost_cons_iff _ _ _ _).mpr ⟨⟨last, halts⟩, halted⟩
  · rw [← Nat.add_assoc, Nat.add_right_comm]
    exact verdict

theorem settle_ends (fuel index : Nat) (amplifiers : List Execution) (state final : State)
    (result : Except Stop Unit) (settled : settle fuel index amplifiers state = (result, final))
    (ended : result ≠ .error .outOfFuel) :
    (result = .ok () ∧ Halted amplifiers amplifiers.length) ∨
      ∃ error, result = .error (.failed error) ∧ Unsettled amplifiers index error := by
  induction amplifiers generalizing index state with
  | nil =>
      cases settled
      exact .inl ⟨rfl, foremost_none _ _⟩
  | cons amplifier amplifiers ih =>
      rcases settle_turn _ _ _ _ _ _ _ settled ended with
        ⟨outcome, error, last, pulls, verdict, failed⟩ | ⟨last, notices, halts, rest⟩
      · exact .inr ⟨error, failed, 0, amplifier, outcome, last, rfl, foremost_none _ _, pulls,
          verdict⟩
      · rcases ih _ _ rest with ⟨done, halted⟩ | ⟨error, failed, unsettled⟩
        · exact .inl ⟨done, (foremost_cons_iff _ _ _ _).mpr ⟨⟨last, halts⟩, halted⟩⟩
        · exact .inr ⟨error, failed, unsettled.cons halts⟩

theorem settle_next {amplifier last : Execution} (halts : amplifier.Pulls (.ok none) last) :
    ∃ enough, ∀ fuel, enough ≤ fuel → ∀ index amplifiers state, ∃ after,
      settle fuel index (amplifier :: amplifiers) state =
        settle fuel (index + 1) amplifiers after := by
  obtain ⟨enough, pulled⟩ := halts.with_more
  refine ⟨enough, ?_⟩
  intro fuel bound index amplifiers state
  obtain ⟨notices, pulledAt⟩ := pull_at_of_pull fuel index _ _ state _ (pulled fuel bound)
  rw [settle, pulledAt]
  exact ⟨_, rfl⟩

theorem settle_stops {amplifier last : Execution} {index : Nat} {error : Error}
    {outcome : Except Error (Option Int)} (pulls : amplifier.Pulls outcome last)
    (verdict : settling index outcome = .error error) :
    ∃ enough, ∀ fuel, enough ≤ fuel → ∀ amplifiers state,
      (settle fuel index (amplifier :: amplifiers) state).1 = .error (.failed error) := by
  obtain ⟨enough, pulled⟩ := pulls.with_more
  refine ⟨enough, ?_⟩
  intro fuel bound amplifiers state
  obtain ⟨notices, pulledAt⟩ := pull_at_of_pull fuel index _ _ state _ (pulled fuel bound)
  rw [settle, pulledAt]
  cases outcome with
  | error own =>
      cases own with
      | starved pointer =>
          cases verdict
          rfl
      | _ =>
          cases verdict
          rfl
  | ok word =>
      cases word with
      | none => exact absurd verdict (by simp [settling])
      | some word =>
          rw [settling_word] at verdict
          cases verdict
          rfl

theorem settle_past (amplifiers : List Execution) (count : Nat)
    (halted : Halted amplifiers count) :
    ∃ enough, ∀ fuel, enough ≤ fuel → ∀ index state, ∃ after,
      settle fuel index amplifiers state =
        settle fuel (index + count) (amplifiers.drop count) after := by
  induction count generalizing amplifiers with
  | zero => exact ⟨0, fun _ _ _ state => ⟨state, rfl⟩⟩
  | succ count ih =>
      cases amplifiers with
      | nil => exact ⟨0, fun _ _ _ state => ⟨state, by simp [settle]⟩⟩
      | cons amplifier amplifiers =>
          obtain ⟨⟨last, halts⟩, later⟩ := (foremost_cons_iff _ _ _ _).mp halted
          obtain ⟨enough, goesOn⟩ := settle_next halts
          obtain ⟨enoughLater, past⟩ := ih amplifiers later
          refine ⟨max enough enoughLater, ?_⟩
          intro fuel bound index state
          obtain ⟨after, same⟩ := goesOn fuel (by omega) index amplifiers state
          obtain ⟨final, rest⟩ := past fuel (by omega) (index + 1) after
          refine ⟨final, ?_⟩
          rw [same, rest, Nat.add_right_comm, Nat.add_assoc, List.drop_succ_cons]

/-! ## The chain as a whole -/

/-- How a chain without feedback ends, told by its signals. -/
def Accounts (program : Program) (phases : List Int) (signals : Nat → Int) :
    Except Error Int → Prop
  | .ok value => signals phases.length = value ∧ Opened program phases signals phases.length ∧
      Settled program phases signals phases.length
  | .error error =>
      FailsToOpen program phases signals 0 error ∨ FailsToSettle program phases signals error

theorem present_in_both {α β : Type} {items : List α} {others : List β} {index : Nat} {item : α}
    (counted : items.length = others.length) (present : items[index]? = some item) :
    ∃ other, others[index]? = some other := by
  obtain ⟨inside, _⟩ := List.getElem?_eq_some_iff.mp present
  exact ⟨_, List.getElem?_eq_getElem (counted ▸ inside)⟩

section Lineup

variable {program : Program} {phases : List Int} {signals : Nat → Int}
  {amplifiers : List Execution} (lineup : Lineup program phases signals amplifiers)
  (counted : amplifiers.length = phases.length)

include lineup counted

theorem Lineup.opened : Opened program phases signals phases.length := by
  intro index phase _ placed
  obtain ⟨amplifier, present⟩ := present_in_both counted.symm placed
  exact (program.opens_word_iff _ _).mpr ⟨amplifier, lineup index phase amplifier placed present⟩

theorem Lineup.settled_iff (count : Nat) :
    Settled program phases signals count ↔ Halted amplifiers count := by
  constructor
  · intro settled index amplifier inside present
    obtain ⟨phase, placed⟩ := present_in_both counted present
    exact ((lineup index phase amplifier placed present).resumes_iff _).mp
      (settled index phase inside placed)
  · intro halted index phase inside placed
    obtain ⟨amplifier, present⟩ := present_in_both counted.symm placed
    exact ((lineup index phase amplifier placed present).resumes_iff _).mpr
      (halted index amplifier inside present)

theorem Lineup.fails_to_settle_iff (error : Error) :
    FailsToSettle program phases signals error ↔ Unsettled amplifiers 0 error := by
  constructor
  · rintro ⟨_, index, phase, outcome, placed, settled, resumes, verdict⟩
    obtain ⟨amplifier, present⟩ := present_in_both counted.symm placed
    obtain ⟨last, pulls⟩ :=
      ((lineup index phase amplifier placed present).resumes_iff outcome).mp resumes
    refine ⟨index, amplifier, outcome, last, present, (lineup.settled_iff counted index).mp settled,
      pulls, ?_⟩
    rw [Nat.zero_add]
    exact verdict
  · rintro ⟨index, amplifier, outcome, last, present, halted, pulls, verdict⟩
    obtain ⟨phase, placed⟩ := present_in_both counted present
    rw [Nat.zero_add] at verdict
    exact ⟨lineup.opened counted, index, phase, outcome, placed,
      (lineup.settled_iff counted index).mpr halted,
      ((lineup index phase amplifier placed present).resumes_iff outcome).mpr ⟨last, pulls⟩,
      verdict⟩

end Lineup

section Run

variable {fuel : Nat} {program : Program} {phases : List Int} {signal : Int} {state : State}

theorem run_unstarted {stop : Stop}
    (starting : startAll fuel program 0 phases { amplifiers := #[], signal, events := #[] } =
      (.error stop, state)) :
    (run fuel program phases signal false).result = .error stop := by
  unfold run
  rw [starting]

theorem run_started
    (starting : startAll fuel program 0 phases { amplifiers := #[], signal, events := #[] } =
      (.ok (), state)) :
    (run fuel program phases signal false).result =
      (settle fuel 0 state.amplifiers.toList state).1.map fun _ => state.signal := by
  unfold run
  rw [starting]
  simp only [Bool.false_eq_true, if_false]
  generalize settle fuel 0 state.amplifiers.toList state = settled
  obtain ⟨result, final⟩ := settled
  cases result <;> rfl

end Run

theorem Lineup.accounts {program : Program} {phases : List Int} {signals : Nat → Int}
    {amplifiers : List Execution} (lineup : Lineup program phases signals amplifiers)
    (counted : amplifiers.length = phases.length) (fuel : Nat) (state : State)
    (outcome : Except Error Int)
    (checked : ((settle fuel 0 amplifiers state).1.map fun _ => signals phases.length) =
      outcome.mapError .failed) :
    Accounts program phases signals outcome := by
  generalize checking : settle fuel 0 amplifiers state = settled at checked
  obtain ⟨result, final⟩ := settled
  have ended : result ≠ .error .outOfFuel := by
    rintro rfl
    exact ended_in_time outcome checked.symm
  rcases settle_ends _ _ _ _ _ _ checking ended with ⟨rfl, halted⟩ | ⟨error, rfl, unsettled⟩
  · cases outcome with
    | error error => cases checked
    | ok value =>
        rw [counted] at halted
        exact ⟨Except.ok.inj checked, lineup.opened counted,
          (lineup.settled_iff counted _).mpr halted⟩
  · cases outcome with
    | ok value => cases checked
    | error own =>
        cases checked
        exact .inr ((lineup.fails_to_settle_iff counted error).mpr unsettled)

theorem run_accounts (fuel : Nat) (program : Program) (phases : List Int) (signal : Int)
    (outcome : Except Error Int)
    (ran : (run fuel program phases signal false).result = outcome.mapError .failed) :
    ∃ signals, signals 0 = signal ∧ Accounts program phases signals outcome := by
  generalize starting : startAll fuel program 0 phases
    { amplifiers := #[], signal, events := #[] } = started
  obtain ⟨result, state⟩ := started
  have ended : result ≠ .error .outOfFuel := by
    rintro rfl
    exact ended_in_time outcome (ran.symm.trans (run_unstarted starting))
  obtain ⟨signals, begins, ⟨amplifiers, rfl, counted, started⟩ | ⟨error, rfl, fails⟩⟩ :=
    start_all_ends _ _ _ _ _ _ _ starting ended
  · refine ⟨signals, begins, ?_⟩
    rw [run_started starting, started.signal, counted, started.present, List.nil_append] at ran
    exact started.lineup.accounts counted fuel state outcome ran
  · refine ⟨signals, begins, ?_⟩
    rw [run_unstarted starting] at ran
    cases outcome with
    | ok value => cases ran
    | error own =>
        cases ran
        exact .inl fails

/-- With enough fuel, the amplifiers of a chain are all started. -/
theorem run_opened (program : Program) (phases : List Int) (signals : Nat → Int)
    (opened : Opened program phases signals phases.length) :
    ∃ amplifiers enough, amplifiers.length = phases.length ∧
      Lineup program phases signals amplifiers ∧ ∀ fuel, enough ≤ fuel → ∃ state,
        (run fuel program phases (signals 0) false).result =
          (settle fuel 0 amplifiers state).1.map fun _ => signals phases.length := by
  obtain ⟨amplifiers, enough, counted, past⟩ :=
    start_all_past program phases signals phases.length opened (Nat.le_refl _)
  refine ⟨amplifiers, enough, counted, ?_, ?_⟩
  · obtain ⟨_, started, _⟩ := past enough (Nat.le_refl _) 0 ⟨#[], signals 0, #[]⟩ rfl
    exact started.lineup
  · intro fuel bound
    obtain ⟨state, started, starting⟩ := past fuel bound 0 ⟨#[], signals 0, #[]⟩ rfl
    rw [List.drop_length, startAll] at starting
    refine ⟨state, ?_⟩
    rw [run_started starting, started.signal, counted, started.present, List.nil_append]

section Endings

variable {program : Program} {phases : List Int} {signals : Nat → Int} {error : Error}

theorem Settled.ends (settled : Settled program phases signals phases.length)
    (opened : Opened program phases signals phases.length) :
    Ends program phases (signals 0) (.ok (signals phases.length)) := by
  obtain ⟨amplifiers, enough, counted, lineup, ran⟩ := run_opened program phases signals opened
  obtain ⟨enoughSettling, past⟩ :=
    settle_past amplifiers _ ((lineup.settled_iff counted _).mp settled)
  refine ⟨max enough enoughSettling, ?_⟩
  intro fuel bound
  obtain ⟨state, same⟩ := ran fuel (by omega)
  obtain ⟨final, rest⟩ := past fuel (by omega) 0 state
  rw [same, rest, List.drop_eq_nil_of_le (by omega), settle]
  rfl

theorem FailsToOpen.ends (fails : FailsToOpen program phases signals 0 error) :
    Ends program phases (signals 0) (.error error) := by
  obtain ⟨index, phase, outcome, placed, opened, opens, verdict⟩ := fails
  obtain ⟨inside, here⟩ := List.getElem?_eq_some_iff.mp placed
  obtain ⟨amplifiers, enough, counted, past⟩ :=
    start_all_past program phases signals index opened (by omega)
  obtain ⟨enoughStopping, stops⟩ := start_all_stops opens verdict
  refine ⟨max enough enoughStopping, ?_⟩
  intro fuel bound
  obtain ⟨state, started, rest⟩ := past fuel (by omega) 0 ⟨#[], signals 0, #[]⟩ rfl
  have stopped := stops fuel (by omega) (phases.drop (index + 1)) state
    (by rw [started.signal, counted])
  rw [List.drop_eq_getElem_cons inside, here] at rest
  rw [← rest] at stopped
  exact run_unstarted (Prod.ext stopped rfl)

theorem FailsToSettle.ends (fails : FailsToSettle program phases signals error) :
    Ends program phases (signals 0) (.error error) := by
  obtain ⟨amplifiers, enough, counted, lineup, ran⟩ :=
    run_opened program phases signals fails.1
  obtain ⟨index, amplifier, outcome, last, present, halted, pulls, verdict⟩ :=
    (lineup.fails_to_settle_iff counted error).mp fails
  obtain ⟨inside, here⟩ := List.getElem?_eq_some_iff.mp present
  obtain ⟨enoughSettling, past⟩ := settle_past amplifiers index halted
  obtain ⟨enoughStopping, stops⟩ := settle_stops pulls verdict
  refine ⟨max enough (max enoughSettling enoughStopping), ?_⟩
  intro fuel bound
  obtain ⟨state, same⟩ := ran fuel (by omega)
  obtain ⟨after, rest⟩ := past fuel (by omega) 0 state
  rw [same, rest, List.drop_eq_getElem_cons inside, here, stops fuel (by omega)]
  rfl

end Endings

theorem ends_iff (program : Program) (phases : List Int) (signal : Int)
    (outcome : Except Error Int) :
    Ends program phases signal outcome ↔
      ∃ signals : Nat → Int, signals 0 = signal ∧ Accounts program phases signals outcome := by
  constructor
  · rintro ⟨fuel, ran⟩
    exact run_accounts fuel program phases signal outcome (ran fuel (Nat.le_refl _))
  · rintro ⟨signals, rfl, accounts⟩
    cases outcome with
    | ok value =>
        obtain ⟨rfl, opened, settled⟩ := accounts
        exact settled.ends opened
    | error error =>
        rcases accounts with fails | fails
        · exact fails.ends
        · exact fails.ends

/-- A chain comes to one end. -/
theorem Ends.unique {program : Program} {phases : List Int} {signal : Int}
    {outcome other : Except Error Int} (ends : Ends program phases signal outcome)
    (others : Ends program phases signal other) : outcome = other := by
  obtain ⟨enough, same⟩ := ends
  obtain ⟨more, sameOther⟩ := others
  have both := (same (max enough more) (by omega)).symm.trans
    (sameOther (max enough more) (by omega))
  cases outcome <;> cases other <;> cases both <;> rfl

/-- The amplifiers output their signals and halt exactly if each makes a complete run. -/
theorem completes_iff (program : Program) (phases : List Int) (signals : Nat → Int) :
    (Opened program phases signals phases.length ∧ Settled program phases signals phases.length) ↔
      ∀ index phase, phases[index]? = some phase →
        program.Completes [phase, signals index] [signals (index + 1)] := by
  constructor
  · rintro ⟨opened, settled⟩ index phase placed
    obtain ⟨inside, _⟩ := List.getElem?_eq_some_iff.mp placed
    obtain ⟨next, voices⟩ :=
      (program.opens_word_iff _ _).mp (opened index phase inside placed)
    obtain ⟨last, halts⟩ := (voices.resumes_iff _).mp (settled index phase inside placed)
    exact (program.completes_one_iff _ _).mpr ⟨next, last, voices, halts⟩
  · intro completes
    constructor
    · intro index phase _ placed
      obtain ⟨next, _, voices, _⟩ :=
        (program.completes_one_iff _ _).mp (completes index phase placed)
      exact (program.opens_word_iff _ _).mpr ⟨next, voices⟩
    · intro index phase _ placed
      obtain ⟨next, last, voices, halts⟩ :=
        (program.completes_one_iff _ _).mp (completes index phase placed)
      exact (voices.resumes_iff _).mpr ⟨last, halts⟩

/-- A chain without feedback returns what complete runs of the program give, each run with its phase
and the only output of the one before; with no phases it returns the signal it is given. It fails
with what became of the first amplifier that does not output a signal, or, if all of them do, of the
first one that does not halt next; an extra output is reported if it can be written. -/
theorem serial_chain_composes_runs (program : Program) (phases : List Int) (signal : Int) :
    (∀ value, Ends program phases signal (.ok value) ↔
      ∃ signals : Nat → Int, signals 0 = signal ∧ signals phases.length = value ∧
        ∀ index phase, phases[index]? = some phase →
          program.Completes [phase, signals index] [signals (index + 1)]) ∧
    ∀ error, Ends program phases signal (.error error) ↔
      ∃ signals : Nat → Int, signals 0 = signal ∧
        (FailsToOpen program phases signals 0 error ∨
          FailsToSettle program phases signals error) := by
  constructor
  · intro value
    rw [ends_iff]
    simp only [Accounts, completes_iff]
  · intro error
    exact ends_iff program phases signal (.error error)

/-- Outputs one and then a word of more digits than are written. -/
def outspoken : Program := { words := [3, 11, 3, 11, 104, 1, 104, 10 ^ 4300, 99] }

/-- The extra output is not reported as such, and neither is any other shortcoming of an amplifier.
-/
theorem long_extra_output_is_unwritable :
    outspoken.Resumes [0, 0] (.ok (some (10 ^ 4300))) ∧
      Ends outspoken [0] 0 (.error .unwritable) ∧
      ∀ index shortcoming, ¬ Ends outspoken [0] 0 (.error (.amplifier index shortcoming)) := by
  have ran : (run 9 outspoken [0] 0 false).result = .error (.failed .unwritable) := by
    decide +kernel
  have ends : Ends outspoken [0] 0 (.error .unwritable) :=
    (ends_iff _ _ _ _).mpr (run_accounts 9 outspoken [0] 0 _ ran)
  have voices : outspoken.Voices [0, 0] 1
      ((Execution.boot outspoken.words [0, 0] {}).pull 9).2 :=
    ⟨_, rfl, 9, Prod.ext (by decide +kernel) rfl⟩
  refine ⟨⟨1, _, _, voices, 9, Prod.ext (by decide +kernel) rfl⟩, ends, ?_⟩
  intro index shortcoming others
  cases ends.unique others

/-- Outputs its signal once with phase zero, not at all with phase two, and else twice. -/
def asOftenAsTold : Program :=
  { words := [3, 19, 3, 20, 108, 2, 19, 21, 1005, 21, 18, 4, 20, 1006, 19, 18, 4, 20, 99, 0, 0, 0] }

-- The first amplifier has more to output, but before that shows the second one has halted.
example : (run 20 asOftenAsTold [1, 2] 5 false).result =
    .error (.failed (.amplifier 1 (.silent 2))) := rfl

example : (run 20 asOftenAsTold [0, 1, 1] 5 false).result =
    .error (.failed (.amplifier 1 (.talking 5))) := rfl

end Intcode.Chain
