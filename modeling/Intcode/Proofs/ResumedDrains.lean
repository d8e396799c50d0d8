import Intcode.Proofs.RunEndings

/-!
# A drain after one that starved

A drain that finds the queue empty drops the words it has collected, but the execution it leaves
waits at the input instruction. Given more words there, a second drain ends as one drain would have
ended with these words preloaded, at whatever step that is, and gives what the dropped words leave
of its outputs. Both directions are shown, so that the one ends only if the other does.
-/

set_option autoImplicit false

namespace Intcode

namespace Execution

/-! ## Late words seen from before -/

theorem waiting_advance (fuel : Nat) (execution next : Execution) (pointer : Nat)
    (advanced : execution.advance fuel = (.error (.failed (.starved pointer)), next))
    (words : List Int) (more : Nat) (outcome : Except Stop (Option Int)) (last : Execution)
    (fed : (execution.feed words).advance more = (outcome, last))
    (ended : outcome ≠ .error .outOfFuel) : (next.feed words).advance more = (outcome, last) := by
  induction fuel generalizing execution more with
  | zero => cases advanced
  | succ fuel ih =>
      obtain ⟨more, rfl⟩ : ∃ rest, more = rest + 1 := by
        cases more with
        | zero =>
            cases fed
            exact absurd rfl ended
        | succ more => exact ⟨more, rfl⟩
      unfold advance at advanced
      split at advanced
      case h_1 after turned =>
        rw [advance, turn_feed execution after none words turned (by simp)] at fed
        have later := ih after advanced more fed
        -- What starved has made this turn already, so there is fuel to spare.
        exact advance_mono more (more + 1) _ last outcome later ended (Nat.le_succ more)
      case h_2 result after turned => cases advanced
      case h_3 error after turned =>
        cases advanced
        obtain ⟨_, _, sameTurn⟩ := starved_turn execution next pointer turned
        rw [advance] at fed ⊢
        rw [sameTurn words]
        exact fed

/-- What a pull would have done with words that were there in time, it does from where it starved
without them. -/
theorem waiting_pull (fuel : Nat) (execution next : Execution) (pointer : Nat)
    (pulled : execution.pull fuel = (.error (.failed (.starved pointer)), next))
    (words : List Int) (more : Nat) (outcome : Except Stop (Option Int)) (last : Execution)
    (fed : (execution.feed words).pull more = (outcome, last))
    (ended : outcome ≠ .error .outOfFuel) : (next.feed words).pull more = (outcome, last) := by
  obtain ⟨running, waiting⟩ := starved_running fuel execution next pointer pulled
  rw [running.pull] at pulled
  rw [(running.feed words).pull] at fed
  rw [(waiting.feed words).pull]
  exact waiting_advance fuel execution next pointer pulled words more outcome last fed ended

section Runs

variable {execution middle last : Execution} {words spoken : List Int}
  {result : Except Error Unit}

/-- From where a pull starved, runs with late words are those from before it with the same words. -/
theorem runs_waiting_iff {fuel pointer : Nat} {late : List Int}
    (pulled : execution.pull fuel = (.error (.failed (.starved pointer)), middle)) :
    (middle.feed late).Runs words result last ↔ (execution.feed late).Runs words result last := by
  constructor
  · exact Runs.resumed pulled
  · intro runs
    apply runs.of_pulls
    intro outcome next pulls
    obtain ⟨more, fed⟩ := pulls
    exact ⟨more, waiting_pull fuel execution middle pointer pulled late more _ next fed
      (pulled_in_time outcome)⟩

/-- The runs of an execution that has words to output first. -/
theorem Speaks.runs_iff (speaks : execution.Speaks spoken middle) :
    execution.Runs words result last ↔
      ∃ rest, words = spoken ++ rest ∧ middle.Runs rest result last := by
  induction speaks generalizing words with
  | silent execution => simp
  | word execution next middle word spoken pulls rest ih =>
      rw [pulls.runs_iff]
      simp only [ih, List.cons_append]
      constructor
      · rintro ⟨_, rfl, later, rfl, runs⟩
        exact ⟨later, rfl, runs⟩
      · rintro ⟨later, rfl, runs⟩
        exact ⟨spoken ++ later, rfl, later, rfl, runs⟩

end Runs

/-! ## The second drain -/

theorem verdict_starved (last : Execution) (ending : Except Error Unit) (pointer : Nat)
    (starves : last.verdict ending = .error (.starved pointer)) :
    ending = .error (.starved pointer) := by
  cases ending with
  | error error => exact starves
  | ok halted =>
      simp only [verdict] at starves
      split at starves <;> cases starves

/-- A drain that starves has output words, which it drops, and made a pull that starves. -/
theorem starved_drain (fuel : Nat) (execution next : Execution) (pointer : Nat)
    (drained : execution.drain fuel = (.error (.failed (.starved pointer)), next)) :
    ∃ middle, execution.Speaks (execution.emitted (.drain fuel)) middle ∧
      middle.Pulls (.error (.starved pointer)) next := by
  obtain ⟨result, runs, given⟩ := drain_emits fuel execution (by simp [drained])
  rw [drained] at runs given
  cases result with
  | ok halted => cases given
  | error error =>
      cases given
      obtain ⟨ending, ⟨middle, speaks, pulls⟩, judged⟩ := runs_iff.mp runs
      rw [verdict_starved next ending pointer judged.symm] at pulls
      exact ⟨middle, speaks, pulls⟩

theorem answer_append (spoken rest : List Int) (result : Except Error Unit) :
    answer (spoken ++ rest) result = (answer rest result).map (spoken ++ ·) := by
  cases result <;> rfl

/-- Drains from where a drain starved, given words there, and drains from where it began, given the
same words, end alike. The latter output what was dropped first. -/
theorem drains_waiting_iff {fuel pointer : Nat} {execution starved last : Execution}
    {late : List Int} {whole : Except Error (List Int)}
    (drained : execution.drain fuel = (.error (.failed (.starved pointer)), starved)) :
    (execution.feed late).Drains whole last ↔
      ∃ rest, (starved.feed late).Drains rest last ∧
        whole = rest.map (execution.emitted (.drain fuel) ++ ·) := by
  obtain ⟨middle, speaks, enough, pulled⟩ := starved_drain fuel execution starved pointer drained
  simp only [drains_iff, (speaks.feed late).runs_iff, ← runs_waiting_iff pulled]
  constructor
  · rintro ⟨_, result, ⟨rest, rfl, runs⟩, rfl⟩
    exact ⟨_, ⟨rest, result, runs, rfl⟩, answer_append _ rest result⟩
  · rintro ⟨_, ⟨rest, result, runs, rfl⟩, rfl⟩
    exact ⟨_, result, ⟨rest, rfl, runs⟩, (answer_append _ rest result).symm⟩

theorem Drains.relabel {execution last : Execution} {given : Except Error (List Int)}
    (drains : execution.Drains given last) (origin : Execution)
    (sameOptions : origin.options = execution.options) :
    (execution.relabel origin).Drains given (last.relabel origin) := by
  obtain ⟨words, result, runs, rfl⟩ := drains_iff.mp drains
  exact drains_iff.mpr ⟨words, result, runs.relabel origin sameOptions, rfl⟩

theorem Drains.unique {execution last other : Execution} {given another : Except Error (List Int)}
    (drains : execution.Drains given last) (again : execution.Drains another other) :
    given = another ∧ last = other := by
  obtain ⟨words, result, runs, rfl⟩ := drains_iff.mp drains
  obtain ⟨others, ending, runsAgain, rfl⟩ := drains_iff.mp again
  obtain ⟨rfl, rfl, rfl⟩ := runs.unique runsAgain
  exact ⟨rfl, rfl⟩

/-- A drain notices no image and no preloaded words, and leaves them as they are. -/
theorem drains_relabel_iff {execution last : Execution} {given : Except Error (List Int)}
    (origin : Execution) (sameOptions : origin.options = execution.options) :
    (execution.relabel origin).Drains given last ↔
      ∃ own, execution.Drains given own ∧ last = own.relabel origin := by
  constructor
  · intro drains
    have own : execution.Drains given (last.relabel execution) :=
      drains.relabel execution sameOptions.symm
    exact ⟨_, own, (drains.unique (own.relabel origin sameOptions)).2⟩
  · rintro ⟨own, drains, rfl⟩
    exact drains.relabel origin sameOptions

/-- A drain that starved, resumed with more words, ends if and only if the drain of an execution
with all the words preloaded does, with the same error or the same success and in the same state.
The outputs of the latter are the words that the first drain dropped and then those that the second
one gives. -/
theorem starved_drain_resumes_at_the_suffix (image first second : List Int) (options : Options)
    (fresh starved : Execution) (fuel pointer : Nat)
    (started : start image first options = .ok fresh)
    (drained : fresh.drain fuel = (.error (.failed (.starved pointer)), starved))
    (fits : ∀ word ∈ second, Word.Fits word) :
    ∃ fed reference,
      starved.pushAll second = .ok fed ∧
      start image (first ++ second) options = .ok reference ∧
      (∀ whole other, reference.Drains whole other ↔
        ∃ rest last, fed.Drains rest last ∧
          whole = rest.map (fresh.emitted (.drain fuel) ++ ·) ∧ other = last.relabel reference) ∧
      ∀ words rest other last, reference.Drains (.ok words) other → fed.Drains (.ok rest) last →
        rest = words.drop (fresh.emitted (.drain fuel)).length := by
  obtain ⟨same, firstFits⟩ := start_ok image first options fresh started
  have allFit : ∀ word ∈ first ++ second, Word.Fits word := by
    intro word member
    rcases List.mem_append.mp member with early | late
    · exact firstFits word early
    · exact fits word late
  obtain ⟨reference, booted⟩ : ∃ reference, reference = boot image (first ++ second) options :=
    ⟨_, rfl⟩
  have relabelled : (fresh.feed second).relabel reference = reference := by
    rw [same, booted]
    rfl
  have sameOptions : reference.options = (fresh.feed second).options := by
    rw [same, booted]
    rfl
  have ends : ∀ whole other, reference.Drains whole other ↔
      ∃ rest last, (starved.feed second).Drains rest last ∧
        whole = rest.map (fresh.emitted (.drain fuel) ++ ·) ∧ other = last.relabel reference := by
    intro whole other
    constructor
    · intro drains
      rw [← relabelled] at drains
      obtain ⟨last, early, rfl⟩ := (drains_relabel_iff reference sameOptions).mp drains
      obtain ⟨rest, late, rfl⟩ := (drains_waiting_iff drained).mp early
      exact ⟨rest, last, late, rfl, rfl⟩
    · rintro ⟨rest, last, late, rfl, rfl⟩
      have early := (drains_waiting_iff drained).mpr ⟨rest, late, rfl⟩
      have drains := early.relabel reference sameOptions
      rw [relabelled] at drains
      exact drains
  refine ⟨starved.feed second, reference, ?_, ?_, ends, ?_⟩
  · rw [pushAll, accept_inputs_of_fits second fits]
    rfl
  · rw [booted]
    exact start_of_fits image _ options allFit
  · intro words rest other last wholly later
    obtain ⟨given, after, drains, split, _⟩ := (ends _ other).mp wholly
    obtain ⟨rfl, _⟩ := later.unique drains
    cases split
    exact (List.drop_left ..).symm

/-- Two words are echoed, the second of which comes late: it is all that the second drain gives. -/
theorem late_word_is_drained_alone :
    (boot [3, 0, 4, 0, 3, 1, 4, 1, 99] [7] {}).emitted (.drain 9) = [7] ∧
      ∃ fed reference,
        ((boot [3, 0, 4, 0, 3, 1, 4, 1, 99] [7] {}).drain 9).2.pushAll [8] = .ok fed ∧
        start [3, 0, 4, 0, 3, 1, 4, 1, 99] [7, 8] {} = .ok reference ∧
        (∃ last, reference.Drains (.ok [7, 8]) last) ∧ ∃ last, fed.Drains (.ok [8]) last := by
  obtain ⟨fed, reference, pushed, started, ends, _⟩ := starved_drain_resumes_at_the_suffix
    [3, 0, 4, 0, 3, 1, 4, 1, 99] [7] [8] {} (boot [3, 0, 4, 0, 3, 1, 4, 1, 99] [7] {}) _ 9 4 rfl rfl
    (by decide)
  have drained : (reference.drain 9).1 = .ok [7, 8] := by
    rw [(start_ok _ _ _ reference started).1]
    rfl
  obtain ⟨words, result, runs, same⟩ := drain_answer_runs 9 reference (.ok [7, 8]) drained
  have drains : reference.Drains (.ok [7, 8]) (reference.drain 9).2 :=
    drains_iff.mpr ⟨words, result, runs, same⟩
  obtain ⟨rest, last, late, split, _⟩ := (ends _ _).mp drains
  refine ⟨rfl, fed, reference, pushed, started, ⟨_, drains⟩, last, ?_⟩
  cases rest with
  | error error => cases split
  | ok rest =>
      have dropped : [7] ++ [8] = [7] ++ rest := Except.ok.inj split
      rw [List.append_cancel_left dropped]
      exact late

end Execution

end Intcode
