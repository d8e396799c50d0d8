import Intcode.Proofs.RunEndings
import Intcode.Proofs.StepLimit
import Intcode.Proofs.TurnHistory

/-!
# With a step limit every run ends

Every turn that does not fail completes an instruction, whether the machine completes it in its step
or only when it is given the word it waits for. So a pull that makes a number of turns advances the
count of instructions by as many, a failing last turn apart, and the count never passes the limit. A
word that is output has cost an instruction too, so a drain gives at most as many words as the limit
leaves instructions.
-/

set_option autoImplicit false

namespace Intcode

namespace Execution

/-! ## Turns against instructions -/

/-- How many turns of a pull that ends so complete no instruction: the last one, if it fails. -/
def uncounted : Except Stop (Option Int) → Nat
  | .ok _ | .error .outOfFuel => 0
  | .error (.failed _) => 1

theorem uncounted_le_one (outcome : Except Stop (Option Int)) : uncounted outcome ≤ 1 := by
  unfold uncounted
  split <;> omega

theorem advance_turns (fuel : Nat) (execution : Execution) :
    execution.steps + (execution.advanceHistory fuel).length =
      (execution.advance fuel).2.steps + uncounted (execution.advance fuel).1 := by
  induction fuel generalizing execution with
  | zero => rfl
  | succ fuel ih =>
      generalize turned : execution.turn = result
      obtain ⟨outcome, next⟩ := result
      have counts := (turn_counts execution next outcome turned).1
      rw [advanceHistory, advance, turned]
      cases outcome with
      | none =>
          have later := ih next
          simp only [completed] at counts
          simp only [List.length_cons]
          omega
      | some ending =>
          cases ending with
          | ok result =>
              simp only [completed] at counts
              simp only [List.length_singleton, uncounted]
              omega
          | error error =>
              simp only [completed] at counts
              simp only [List.length_singleton, uncounted]
              omega

theorem advance_cut_off (fuel : Nat) (execution : Execution)
    (cut : (execution.advance fuel).1 = .error .outOfFuel) :
    (execution.advanceHistory fuel).length = fuel := by
  induction fuel generalizing execution with
  | zero => rfl
  | succ fuel ih =>
      generalize turned : execution.turn = result
      obtain ⟨outcome, next⟩ := result
      rw [advance, turned] at cut
      rw [advanceHistory, turned, List.length_cons]
      cases outcome with
      | none => exact congrArg (· + 1) (ih next cut)
      | some ending => cases ending <;> cases cut

theorem Running.pull_history {execution : Execution} (running : execution.Running) (fuel : Nat) :
    execution.pullHistory fuel = execution.advanceHistory fuel := by
  simp [pullHistory, running.faultless, running.unhalted]

theorem pull_history_settled (execution : Execution) (stopped : ¬ execution.Running) (fuel : Nat) :
    execution.pullHistory fuel = [] := by
  unfold pullHistory
  cases faulted : execution.fault with
  | some trap => rfl
  | none =>
      cases halted : execution.halted with
      | true => rfl
      | false => exact absurd ⟨faulted, halted⟩ stopped

/-- Every turn of a pull completes an instruction, unless it fails. -/
theorem pull_turns (fuel : Nat) (execution : Execution) :
    execution.steps + (execution.pullHistory fuel).length ≤
      (execution.pull fuel).2.steps + uncounted (execution.pull fuel).1 := by
  by_cases running : execution.Running
  · rw [running.pull, running.pull_history]
    exact Nat.le_of_eq (advance_turns fuel execution)
  · obtain ⟨outcome, _, settled⟩ := pull_settled execution running
    rw [pull_history_settled execution running, settled fuel execution rfl rfl]
    exact Nat.le_add_right _ _

/-- A pull is cut off only when it has made as many turns as it may. -/
theorem pull_cut_off (fuel : Nat) (execution : Execution)
    (cut : (execution.pull fuel).1 = .error .outOfFuel) :
    (execution.pullHistory fuel).length = fuel := by
  have running := running_of_pull fuel execution (by simp [cut]) (by simp [cut])
  rw [running.pull] at cut
  rw [running.pull_history]
  exact advance_cut_off fuel execution cut

theorem pull_counts (fuel : Nat) (execution : Execution) :
    execution.steps ≤ (execution.pull fuel).2.steps := by
  by_cases running : execution.Running
  · rw [running.pull]
    exact advance_counts fuel execution _ _ rfl
  · obtain ⟨outcome, _, settled⟩ := pull_settled execution running
    rw [settled fuel execution rfl rfl]

/-- A pull that gives a word has completed the instruction that outputs it. -/
theorem pull_word_counts (fuel : Nat) (execution next : Execution) (word : Int)
    (pulled : execution.pull fuel = (.ok (some word), next)) : execution.steps < next.steps := by
  have running := running_of_pull fuel execution (by simp [pulled]) (by simp [pulled])
  rw [running.pull] at pulled
  have turns := advance_turns fuel execution
  rw [pulled] at turns
  have turned : 0 < (execution.advanceHistory fuel).length := by
    cases fuel with
    | zero => cases pulled
    | succ fuel => exact Nat.succ_pos _
  simp only [uncounted] at turns
  omega

/-- Every word that a drain collects has cost at least one instruction. -/
theorem collect_counts (fuel : Nat) (execution : Execution) (outputs : Array Int) :
    execution.steps + (execution.collect fuel outputs).1.size ≤
      (execution.collect fuel outputs).2.2.steps + outputs.size := by
  induction fuel generalizing execution outputs with
  | zero => exact Nat.le_refl _
  | succ fuel ih =>
      have later := pull_counts fuel execution
      unfold collect
      split
      case h_1 word next pulled =>
        have counts := pull_word_counts fuel execution next word pulled
        have rest := ih next (outputs.push word)
        rw [Array.size_push] at rest
        omega
      case h_2 next pulled =>
        rw [pulled] at later
        exact Nat.add_le_add_right later _
      case h_3 stop next pulled =>
        rw [pulled] at later
        exact Nat.add_le_add_right later _

/-! ## Ends -/

section Limited

variable {limit : Nat} {execution : Execution}

theorem Limited.pulled (limited : Limited limit execution) (fuel : Nat) :
    Limited limit (execution.pull fuel).2 :=
  pull_keeps (limited_kept limit).turn fuel execution limited

theorem Limited.turn_count (limited : Limited limit execution) (fuel : Nat) :
    (execution.pullHistory fuel).length ≤ limit - execution.steps + 1 := by
  have turns := pull_turns fuel execution
  have within := (limited.pulled fuel).steps
  have last := uncounted_le_one (execution.pull fuel).1
  omega

theorem Limited.pull_ends (limited : Limited limit execution) (fuel : Nat)
    (enough : limit - execution.steps < fuel) :
    (execution.pull fuel).1 ≠ .error .outOfFuel := by
  intro cut
  have turns := pull_turns fuel execution
  have within := (limited.pulled fuel).steps
  rw [pull_cut_off fuel execution cut, cut, uncounted] at turns
  omega

theorem Limited.collect_ends (limited : Limited limit execution) (fuel : Nat)
    (outputs : Array Int) (enough : limit - execution.steps + 1 < fuel) :
    (execution.collect fuel outputs).2.1 ≠ some .outOfFuel := by
  induction fuel generalizing execution outputs with
  | zero => omega
  | succ fuel ih =>
      have ends := limited.pull_ends fuel (by omega)
      have later := limited.pulled fuel
      unfold collect
      generalize pulled : execution.pull fuel = result at ends later
      obtain ⟨outcome, next⟩ := result
      cases outcome with
      | error stop => simpa using ends
      | ok result =>
          cases result with
          | none => simp
          | some word =>
              -- The word has used up an instruction, so the rest ends with less fuel too.
              have nextLimited : Limited limit next := later
              have counts := pull_word_counts fuel execution next word pulled
              have within := nextLimited.steps
              exact ih nextLimited _ (by omega)

theorem Limited.drain_ends (limited : Limited limit execution) (fuel : Nat)
    (enough : limit - execution.steps + 1 < fuel) :
    (execution.drain fuel).1 ≠ .error .outOfFuel := by
  have ends := limited.collect_ends fuel #[] enough
  unfold drain
  split
  case h_1 outputs stop next collected =>
    rw [collected] at ends
    simpa using ends
  case h_2 outputs next collected => split <;> simp

theorem Limited.output_count (limited : Limited limit execution) (fuel : Nat) :
    (execution.emitted (.drain fuel)).length ≤ limit - execution.steps := by
  have counts := collect_counts fuel execution #[]
  have within := (collect_keeps (limited_kept limit).turn fuel execution #[] limited).steps
  simp only [emitted, Array.length_toList, Array.size_empty] at counts ⊢
  omega

/-- An execution that is within the limit and can only go on for as long as the limit lets it: no
pull makes more turns, and no drain outputs more words, than there are instructions left, one turn
that fails apart. -/
structure EndsWithin (limit : Nat) (execution : Execution) : Prop where
  steps : execution.steps ≤ limit
  turns : ∀ fuel, (execution.pullHistory fuel).length ≤ limit - execution.steps + 1
  turnSteps : ∀ fuel, ∀ turn ∈ execution.pullHistory fuel, turn.steps ≤ limit
  pull : ∃ outcome next, ∀ fuel, limit - execution.steps + 1 ≤ fuel →
    execution.pull fuel = (inTime outcome, next)
  outputs : ∀ fuel, (execution.emitted (.drain fuel)).length ≤ limit - execution.steps
  drain : ∃ (answer : Except Error (List Int)) (last : Execution),
    ∀ fuel, limit - execution.steps + 2 ≤ fuel →
      execution.drain fuel = (answer.mapError .failed, last)

theorem Limited.pulls (limited : Limited limit execution) :
    ∃ outcome next, ∀ fuel, limit - execution.steps + 1 ≤ fuel →
      execution.pull fuel = (inTime outcome, next) := by
  have ends := limited.pull_ends (limit - execution.steps + 1) (by omega)
  generalize pulled : execution.pull (limit - execution.steps + 1) = result at ends
  obtain ⟨outcome, next⟩ := result
  obtain ⟨ending, rfl⟩ : ∃ ending, outcome = inTime ending := by
    match outcome with
    | .ok result => exact ⟨.ok result, rfl⟩
    | .error (.failed error) => exact ⟨.error error, rfl⟩
    | .error .outOfFuel => exact absurd rfl ends
  refine ⟨ending, next, ?_⟩
  intro fuel enough
  exact pull_mono _ fuel execution next _ pulled (pulled_in_time ending) enough

theorem Limited.drains (limited : Limited limit execution) :
    ∃ (answer : Except Error (List Int)) (last : Execution),
      ∀ fuel, limit - execution.steps + 2 ≤ fuel →
        execution.drain fuel = (answer.mapError .failed, last) := by
  have runs (fuel : Nat) (enough : limit - execution.steps + 2 ≤ fuel) :=
    drain_runs fuel execution (limited.drain_ends fuel (by omega))
  obtain ⟨words, result, first, _⟩ := runs _ (Nat.le_refl _)
  refine ⟨answer words result, (execution.drain (limit - execution.steps + 2)).2, ?_⟩
  intro fuel enough
  obtain ⟨others, another, again, answered⟩ := runs fuel enough
  obtain ⟨rfl, rfl, last⟩ := first.unique again
  exact Prod.ext answered last.symm

theorem Limited.ends_within (limited : Limited limit execution) : EndsWithin limit execution where
  steps := limited.steps
  turns := limited.turn_count
  turnSteps := by
    intro fuel turn member
    exact ((pull_path fuel execution).keeps (limited_kept limit).turn limited turn member).steps
  pull := limited.pulls
  outputs := limited.output_count
  drain := limited.drains

end Limited

theorem boot_limited (image inputs : List Int) (options : Options) (limit : Nat)
    (limited : options.limit = some limit) : Limited limit (boot image inputs options) :=
  ⟨limited, limited, Nat.zero_le _, by simp [boot]⟩

end Execution

namespace Program

/-- With a step limit, complete runs end after at most as many words as the limit, and from whatever
state an execution has been brought to, pulls and drains end within what the limit leaves. -/
theorem limited_runs_end (program : Program) (options : Options) (limit : Nat)
    (limited : options.limit = some limit) :
    (∃ answer : Except Error (List Int), ∀ fuel, limit + 2 ≤ fuel →
      program.run fuel options = answer.mapError .failed) ∧
    ∀ fresh, program.start options = .ok fresh →
      (∀ fuel, (fresh.emitted (.drain fuel)).length ≤ limit) ∧
      ∀ requests, Execution.EndsWithin limit (fresh.session requests).2 := by
  have booted (fresh : Execution) (started : program.start options = .ok fresh) :
      Execution.Limited limit fresh ∧ fresh.steps = 0 := by
    rw [(Execution.start_ok _ _ options fresh started).1]
    exact ⟨Execution.boot_limited _ _ options limit limited, rfl⟩
  constructor
  · cases started : program.start options with
    | error error =>
        refine ⟨.error error, ?_⟩
        intro fuel _
        rw [run, started]
        rfl
    | ok fresh =>
        obtain ⟨freshLimited, unused⟩ := booted fresh started
        obtain ⟨answer, last, drained⟩ := freshLimited.drains
        refine ⟨answer, ?_⟩
        intro fuel enough
        rw [run, started]
        exact congrArg Prod.fst (drained fuel (by omega))
  · intro fresh started
    obtain ⟨freshLimited, unused⟩ := booted fresh started
    refine ⟨?_, ?_⟩
    · intro fuel
      have few := freshLimited.output_count fuel
      omega
    · intro requests
      exact (Execution.session_keeps (Execution.limited_kept limit) fresh requests
        freshLimited).ends_within

/-- An output in a loop without end: after three words the limit of five is used up. -/
theorem endless_output_is_cut_off :
    (∀ fuel, 7 ≤ fuel →
      (Program.mk [104, 7, 1106, 0, 0] []).run fuel { limit := some 5 } =
        .error (.failed (.trap ⟨2, .stepLimit 5⟩))) ∧
      (Execution.boot [104, 7, 1106, 0, 0] [] { limit := some 5 }).emitted (.drain 7) =
        [7, 7, 7] ∧
      Execution.EndsWithin 5
        ((Execution.boot [104, 7, 1106, 0, 0] [] { limit := some 5 }).session
          [.pull 1, .extend [3], .drain 9]).2 := by
  obtain ⟨⟨answer, answered⟩, ends⟩ :=
    limited_runs_end ⟨[104, 7, 1106, 0, 0], []⟩ { limit := some 5 } 5 rfl
  refine ⟨?_, by decide +kernel, (ends _ rfl).2 _⟩
  intro fuel enough
  rw [answered fuel enough, ← answered 7 (Nat.le_refl 7)]
  decide +kernel

end Program

end Intcode
