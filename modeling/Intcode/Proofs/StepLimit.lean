import Intcode.Proofs.Pulls

/-!
# A step limit only cuts a run short

An execution with a step limit is compared with the one without in the same state. Below the limit
their turns are the same; at the limit the first one fails before it looks at the instruction. An
instruction is counted when it is complete, so a word that is output, or a halt, may be the last
instruction the limit allows, while an error or an empty queue is met only with an instruction to
spare.
-/

set_option autoImplicit false

namespace Intcode

namespace Machine

def withLimit (machine : Machine) (limit : Option Nat) : Machine := { machine with limit }

theorem note_with_limit (machine : Machine) (limit : Option Nat) (instruction : Instruction) :
    (machine.withLimit limit).note instruction = (machine.note instruction).withLimit limit := by
  unfold note withLimit
  dsimp only
  split
  · split <;> rfl
  · rfl

theorem apply_with_limit (machine : Machine) (limit : Option Nat) (effect : Effect) :
    (machine.withLimit limit).apply effect = (machine.apply effect).withLimit limit := by
  cases effect <;> rfl

theorem supply_with_limit (machine : Machine) (limit : Option Nat) (target : Nat) (word : Int) :
    (machine.withLimit limit).supply target word =
      (machine.supply target word).withLimit limit := by
  rw [supply_eq, supply_eq, completed, completed]
  cases pending : machine.pending with
  | none => simp [withLimit, advance, pending]
  | some entry => simp [withLimit, advance, pending]

theorem fetch_below_limit (machine : Machine) (limit : Nat)
    (below : machine.registers.steps < limit) :
    (machine.withLimit (some limit)).fetch = (machine.withLimit none).fetch := by
  have unused : ¬ limit ≤ machine.registers.steps := by omega
  unfold fetch
  simp only [withLimit, Option.filter_some, unused, decide_false, Bool.false_eq_true, if_false]
  rfl


theorem step_at_limit (machine : Machine) (limit : Nat) (limited : machine.limit = some limit)
    (used : limit ≤ machine.registers.steps) :
    machine.step = (.error (.trap ⟨machine.registers.ip, .stepLimit limit⟩), machine) := by
  apply steps_step
  have stopped : machine.fetch = .error (.fault (.stepLimit limit)) := by
    unfold fetch
    simp only [limited, Option.filter_some, used, decide_true, if_true]
    rfl
  exact .unfetched _ stopped

theorem step_below_limit (machine next : Machine) (outcome : Except Error Event) (limit : Nat)
    (unlimited : machine.limit = none) (below : machine.registers.steps < limit)
    (stepped : machine.step = (outcome, next)) :
    (machine.withLimit (some limit)).step = (outcome, next.withLimit (some limit)) := by
  have sameFetch : (machine.withLimit (some limit)).fetch = machine.fetch := by
    rw [fetch_below_limit machine limit below]
    exact fetch_congr _ _ rfl rfl unlimited.symm
  have sameEffect (instruction : Instruction) :
      (machine.withLimit (some limit)).effect instruction = machine.effect instruction :=
    effect_congr _ _ _ rfl rfl
  apply steps_step
  cases step_steps machine next outcome stepped with
  | unfetched error fetched => exact .unfetched error (sameFetch.trans fetched)
  | unrecorded instruction fetched unrecordable =>
      exact .unrecorded instruction (sameFetch.trans fetched) unrecordable
  | faulted instruction fault fetched failed recordable =>
      rw [← note_with_limit]
      exact .faulted instruction fault (sameFetch.trans fetched)
        ((sameEffect instruction).trans failed) recordable
  | executed instruction effect fetched done recordable =>
      rw [← apply_with_limit, ← note_with_limit]
      exact .executed instruction effect (sameFetch.trans fetched)
        ((sameEffect instruction).trans done) recordable

/-- The number of instructions that a step completes. -/
def counted : Except Error Event → Nat
  | .ok .continued | .ok (.output _) | .ok .halted => 1
  | .ok (.needsInput _) | .error _ => 0

theorem step_counts (machine next : Machine) (outcome : Except Error Event)
    (stepped : machine.step = (outcome, next)) :
    next.registers.steps = machine.registers.steps + counted outcome ∧
      next.limit = machine.limit := by
  cases step_steps machine next outcome stepped with
  | unfetched error fetched => exact ⟨rfl, rfl⟩
  | unrecorded instruction fetched unrecordable => exact ⟨rfl, rfl⟩
  | faulted instruction fault fetched failed => simp [counted]
  | executed instruction effect fetched done =>
      cases effect <;> simp [apply, advance, Effect.event, counted]

theorem supply_limit (machine : Machine) (target : Nat) (word : Int) :
    (machine.supply target word).limit = machine.limit := by
  cases pending : machine.pending with
  | none => simp [supply_eq, completed, advance, pending]
  | some entry => simp [supply_eq, completed, advance, pending]

theorem unlimited_step_fault (machine next : Machine) (trap : Trap) (limit : Nat)
    (unlimited : machine.limit = none) (stepped : machine.step = (.error (.trap trap), next)) :
    trap.fault ≠ .stepLimit limit := by
  generalize reported : (Except.error (Error.trap trap) : Except Error Event) = outcome
    at stepped
  cases step_steps machine next outcome stepped with
  | unfetched error fetched =>
      rcases fetch_error machine error fetched with ⟨fault, rfl, limits⟩ | rfl | rfl
      · cases reported
        intro exceeded
        exact absurd (limits limit exceeded) (by simp [unlimited])
      · exact absurd reported (by simp [Error.locatedAt])
      · exact absurd reported (by simp [Error.locatedAt])
  | unrecorded => exact absurd reported (by simp)
  | faulted instruction fault fetched failed =>
      rcases report_cases machine.registers.ip fault with trapped | unwritable
      · rw [trapped] at reported
        cases reported
        rintro rfl
        exact (effect_fails machine instruction _ failed).operational
      · exact absurd reported (by simp [unwritable])
  | executed => exact absurd reported (by simp)

end Machine

namespace Execution

def steps (execution : Execution) : Nat := execution.machine.registers.steps

def withLimit (execution : Execution) (limit : Option Nat) : Execution :=
  { execution with
    options := { execution.options with limit }
    machine := execution.machine.withLimit limit }

/-- The fault of an execution that has used its limit up. -/
def exhaustion (execution : Execution) (limit : Nat) : Trap :=
  ⟨execution.machine.registers.ip, .stepLimit limit⟩

/-! ## Turns -/

theorem turn_at_limit (execution : Execution) (limit : Nat)
    (limited : execution.machine.limit = some limit) (used : limit ≤ execution.steps) :
    execution.turn =
      (some (.error (.trap (execution.exhaustion limit))),
        { execution with fault := some (execution.exhaustion limit) }) := by
  apply turns_turn
  exact .trapped _ _ (Machine.step_at_limit execution.machine limit limited used)

theorem turn_below_limit (execution next : Execution)
    (outcome : Option (Except Error (Option Int))) (limit : Nat)
    (unlimited : execution.machine.limit = none) (below : execution.steps < limit)
    (turned : execution.turn = (outcome, next)) :
    (execution.withLimit (some limit)).turn = (outcome, next.withLimit (some limit)) := by
  have same (report : Except Error Event) (machine : Machine)
      (step : execution.machine.step = (report, machine)) :
      (execution.withLimit (some limit)).machine.step =
        (report, machine.withLimit (some limit)) :=
    Machine.step_below_limit _ machine report limit unlimited below step
  apply turns_turn
  cases turn_turns execution next outcome turned with
  | trapped trap machine step => exact .trapped trap _ (same _ machine step)
  | failed error machine step untrapped => exact .failed error _ (same _ machine step) untrapped
  | continued machine step => exact .continued _ (same _ machine step)
  | output word machine step => exact .output word _ (same _ machine step)
  | halted machine step => exact .halted _ (same _ machine step)
  | starved target machine step empty => exact .starved target _ (same _ machine step) empty
  | fed target machine word queue step queued =>
      have fed := Turns.fed target _ word queue (same _ machine step) queued
      rw [Machine.supply_with_limit] at fed
      exact fed

/-- The number of instructions that a turn completes: one, unless it fails. -/
def completed : Option (Except Error (Option Int)) → Nat
  | none | some (.ok _) => 1
  | some (.error _) => 0

theorem turn_counts (execution next : Execution) (outcome : Option (Except Error (Option Int)))
    (turned : execution.turn = (outcome, next)) :
    next.steps = execution.steps + completed outcome ∧
      next.machine.limit = execution.machine.limit := by
  have counts (report : Except Error Event) (machine : Machine)
      (step : execution.machine.step = (report, machine)) :=
    Machine.step_counts _ machine report step
  cases turn_turns execution next outcome turned with
  | trapped trap machine step => exact counts _ machine step
  | failed error machine step => exact counts _ machine step
  | continued machine step => exact counts _ machine step
  | output word machine step => exact counts _ machine step
  | halted machine step => exact counts _ machine step
  | starved target machine step => exact counts _ machine step
  | fed target machine word queue step queued =>
      obtain ⟨steps, limit⟩ := counts _ machine step
      refine ⟨?_, (Machine.supply_limit _ _ _).trans limit⟩
      -- The step itself counts nothing; completing the input instruction does.
      simp only [Execution.steps, Machine.supply_registers, Machine.advance, steps]
      rfl

/-! ## Pulls -/

/-- Whether a limit lets a pull end so: with a result that uses it up, or with an error before. -/
def Allows (limit steps : Nat) : Except Error (Option Int) → Prop
  | .ok _ => steps ≤ limit
  | .error _ => steps < limit

theorem advance_counts (fuel : Nat) (execution next : Execution)
    (outcome : Except Stop (Option Int)) (advanced : execution.advance fuel = (outcome, next)) :
    execution.steps ≤ next.steps := by
  induction fuel generalizing execution with
  | zero =>
      cases advanced
      exact Nat.le_refl _
  | succ fuel ih =>
      unfold advance at advanced
      split at advanced
      case h_1 after turned =>
        have counts := (turn_counts execution after none turned).1
        have later := ih after advanced
        omega
      case h_2 result after turned =>
        cases advanced
        have counts := (turn_counts execution next _ turned).1
        omega
      case h_3 error after turned =>
        cases advanced
        have counts := (turn_counts execution next _ turned).1
        omega

theorem advance_below_limit (fuel : Nat) (execution next : Execution)
    (outcome : Except Error (Option Int)) (limit : Nat)
    (unlimited : execution.machine.limit = none)
    (advanced : execution.advance fuel = (inTime outcome, next))
    (allowed : Allows limit next.steps outcome) :
    (execution.withLimit (some limit)).advance fuel =
      (inTime outcome, next.withLimit (some limit)) := by
  induction fuel generalizing execution with
  | zero =>
      cases outcome <;> simp [advance, inTime] at advanced
  | succ fuel ih =>
      have within : next.steps ≤ limit := by
        cases outcome with
        | ok result => exact allowed
        | error error => exact Nat.le_of_lt allowed
      unfold advance at advanced ⊢
      split at advanced
      case h_1 after turned =>
        obtain ⟨counts, sameLimit⟩ := turn_counts execution after none turned
        have later := advance_counts fuel after next _ advanced
        simp only [completed] at counts
        rw [turn_below_limit execution after none limit unlimited (by omega) turned]
        exact ih after (sameLimit.trans unlimited) advanced
      case h_2 result after turned =>
        cases outcome with
        | error error => simp [inTime] at advanced
        | ok value =>
            cases advanced
            have counts := (turn_counts execution next _ turned).1
            simp only [completed] at counts
            rw [turn_below_limit execution next _ limit unlimited (by omega) turned]
            rfl
      case h_3 error after turned =>
        cases outcome with
        | ok value => simp [inTime] at advanced
        | error cause =>
            cases advanced
            have counts := (turn_counts execution next _ turned).1
            simp only [completed, Nat.add_zero] at counts
            rw [turn_below_limit execution next _ limit unlimited (counts ▸ allowed) turned]
            rfl

/-- When no end that the unlimited execution comes to is allowed, it goes on for as many turns as
the limit leaves, and there the limited one stops. -/
theorem advance_to_limit (spare : Nat) (execution : Execution) (limit : Nat)
    (unlimited : execution.machine.limit = none) (left : execution.steps + spare = limit)
    (refused : ∀ fuel outcome next,
      execution.advance fuel = (inTime outcome, next) →
        ¬ Allows limit next.steps outcome) :
    ∃ reached, execution.advance spare = (.error .outOfFuel, reached) ∧ reached.steps = limit ∧
      (execution.withLimit (some limit)).advance (spare + 1) =
        (.error (.failed (.trap (reached.exhaustion limit))),
          { reached.withLimit (some limit) with fault := some (reached.exhaustion limit) }) := by
  induction spare generalizing execution with
  | zero =>
      -- The limit is used up, and the next turn fails before it looks at the instruction.
      refine ⟨execution, rfl, left, ?_⟩
      have used : limit ≤ (execution.withLimit (some limit)).steps := Nat.le_of_eq left.symm
      rw [advance, turn_at_limit _ limit rfl used]
      rfl
  | succ spare ih =>
      generalize turned : execution.turn = result
      obtain ⟨outcome, next⟩ := result
      obtain ⟨counts, sameLimit⟩ := turn_counts execution next outcome turned
      have sameTurn := turn_below_limit execution next outcome limit unlimited (by omega) turned
      cases outcome with
      | none =>
          simp only [completed] at counts
          have onward (fuel : Nat) : execution.advance (fuel + 1) = next.advance fuel := by
            rw [advance, turned]
          obtain ⟨reached, advanced, used, stopped⟩ :=
            ih next (sameLimit.trans unlimited) (by omega) (by
              intro fuel outcome last advanced
              exact refused (fuel + 1) outcome last ((onward fuel).trans advanced))
          refine ⟨reached, (onward spare).trans advanced, used, ?_⟩
          rw [advance, sameTurn]
          exact stopped
      | some ending =>
          -- With a turn to spare, the limit allows any end.
          exfalso
          cases ending with
          | ok value =>
              refine refused 1 (.ok value) next ?_ ?_
              · rw [advance, turned]
                rfl
              · simp only [completed] at counts
                simp only [Allows]
                omega
          | error error =>
              refine refused 1 (.error error) next ?_ ?_
              · rw [advance, turned]
                rfl
              · simp only [completed] at counts
                simp only [Allows]
                omega

theorem Pulls.below_limit {execution next : Execution} {outcome : Except Error (Option Int)}
    (pulls : execution.Pulls outcome next) (limit : Nat)
    (unlimited : execution.machine.limit = none) (allowed : Allows limit next.steps outcome) :
    (execution.withLimit (some limit)).Pulls outcome (next.withLimit (some limit)) := by
  obtain ⟨fuel, pulled⟩ := pulls
  refine ⟨fuel, ?_⟩
  by_cases running : execution.Running
  · have limited : (execution.withLimit (some limit)).Running :=
      ⟨running.faultless, running.unhalted⟩
    rw [running.pull] at pulled
    rw [limited.pull]
    exact advance_below_limit fuel execution next outcome limit unlimited pulled allowed
  · obtain ⟨_, _, settled⟩ := pull_settled execution running
    rw [settled fuel execution rfl rfl, Prod.mk.injEq] at pulled
    obtain ⟨same, rfl⟩ := pulled
    rw [settled fuel (execution.withLimit (some limit)) rfl rfl, same]

/-! ## What a limit leaves possible -/

/-- What holds of every execution with a step limit. A fault at the limit is the limit's own, since
the limit is checked first. -/
structure Limited (limit : Nat) (execution : Execution) : Prop where
  options : execution.options.limit = some limit
  machine : execution.machine.limit = some limit
  steps : execution.steps ≤ limit
  fault : ∀ trap, execution.fault = some trap →
    execution.steps < limit ∨ trap.fault = .stepLimit limit

structure Unlimited (execution : Execution) : Prop where
  options : execution.options.limit = none
  machine : execution.machine.limit = none
  fault : ∀ trap, execution.fault = some trap → ∀ limit, trap.fault ≠ .stepLimit limit

/-- A fault is new with the turn that reports it. -/
theorem turn_fault (execution next : Execution) (outcome : Option (Except Error (Option Int)))
    (trap : Trap) (running : execution.Running) (turned : execution.turn = (outcome, next))
    (faulted : next.fault = some trap) :
    outcome = some (.error (.trap trap)) ∧
      ∃ machine, execution.machine.step = (.error (.trap trap), machine) := by
  have unfaulted : execution.fault ≠ some trap := by simp [running.faultless]
  cases turn_turns execution next outcome turned with
  | trapped cause machine step =>
      cases faulted
      exact ⟨rfl, machine, step⟩
  | _ => exact absurd faulted unfaulted

theorem turn_limited (limit : Nat) (execution : Execution) (running : execution.Running)
    (limited : Limited limit execution) : Limited limit execution.turn.2 := by
  by_cases used : limit ≤ execution.steps
  · rw [turn_at_limit execution limit limited.machine used]
    refine ⟨limited.options, limited.machine, limited.steps, ?_⟩
    intro trap faulted
    cases faulted
    exact .inr rfl
  · generalize turned : execution.turn = result
    obtain ⟨outcome, next⟩ := result
    obtain ⟨counts, sameLimit⟩ := turn_counts execution next outcome turned
    have atMostOne : completed outcome ≤ 1 := by
      unfold completed
      split <;> omega
    refine ⟨?_, sameLimit.trans limited.machine, ?_, ?_⟩
    · rw [turn_options execution next outcome turned]
      exact limited.options
    · dsimp only
      omega
    · intro trap faulted
      obtain ⟨rfl, _⟩ := turn_fault execution next outcome trap running turned faulted
      simp only [completed] at counts
      exact .inl (by dsimp only; omega)

theorem turn_unlimited (execution : Execution) (running : execution.Running)
    (unlimited : execution.Unlimited) : execution.turn.2.Unlimited := by
  generalize turned : execution.turn = result
  obtain ⟨outcome, next⟩ := result
  obtain ⟨_, sameLimit⟩ := turn_counts execution next outcome turned
  refine ⟨?_, sameLimit.trans unlimited.machine, ?_⟩
  · rw [turn_options execution next outcome turned]
    exact unlimited.options
  · intro trap faulted limit
    obtain ⟨_, machine, step⟩ := turn_fault execution next outcome trap running turned faulted
    exact Machine.unlimited_step_fault _ machine trap limit unlimited.machine step

theorem limited_kept (limit : Nat) : Kept (Limited limit) where
  turn := turn_limited limit
  feed := fun _ _ _ limited => ⟨limited.options, limited.machine, limited.steps, limited.fault⟩
  setTracing := fun _ _ limited => ⟨limited.options, limited.machine, limited.steps, limited.fault⟩
  forgetTrace := fun _ limited => ⟨limited.options, limited.machine, limited.steps, limited.fault⟩
  reset := by
    intro execution limited
    refine ⟨limited.options, limited.options, Nat.zero_le _, ?_⟩
    intro trap faulted
    exact absurd faulted (by simp [reset, boot])

theorem unlimited_kept : Kept Unlimited where
  turn := turn_unlimited
  feed := fun _ _ _ unlimited => ⟨unlimited.options, unlimited.machine, unlimited.fault⟩
  setTracing := fun _ _ unlimited => ⟨unlimited.options, unlimited.machine, unlimited.fault⟩
  forgetTrace := fun _ unlimited => ⟨unlimited.options, unlimited.machine, unlimited.fault⟩
  reset := by
    intro execution unlimited
    refine ⟨unlimited.options, unlimited.options, ?_⟩
    intro trap faulted
    exact absurd faulted (by simp [reset, boot])

/-- A pull that nothing allows to end is one of a running execution: a halted one has ended within
the limit, and the fault that the limited one would have at the limit is none that the other one
can have. -/
theorem running_of_refused (execution : Execution) (limit : Nat)
    (unlimited : execution.Unlimited) (limited : Limited limit (execution.withLimit (some limit)))
    (refused : ∀ outcome next, execution.Pulls outcome next →
      ¬ Allows limit next.steps outcome) : execution.Running := by
  cases faulted : execution.fault with
  | some trap =>
      exfalso
      refine refused (.error (.stopped trap)) execution ?_ ?_
      · exact ⟨0, pull_faulted 0 execution trap faulted⟩
      · exact (limited.fault trap faulted).resolve_right (unlimited.fault trap faulted limit)
  | none =>
      cases halted : execution.halted with
      | true =>
          exfalso
          refine refused (.ok none) execution ?_ ?_
          · exact ⟨0, pull_halted 0 execution faulted halted⟩
          · exact limited.steps
      | false => exact ⟨faulted, halted⟩

/-- Take an execution without a step limit and one with it, in the same state. The limited one has
not gone beyond its limit. If the limit allows the end that a pull on the unlimited one comes to, a
pull on the limited one comes to it too, and the states agree again. In every other case, a pull
that never ends included, the limited one exceeds its limit, in the state that the unlimited pull
was in when the number of instructions reached the limit. -/
theorem step_limit_only_truncates (image inputs : List Int) (options : Options) (limit : Nat)
    (unlimited limited : Execution)
    (unlimitedStarted : start image inputs { options with limit := none } = .ok unlimited)
    (limitedStarted : start image inputs { options with limit := some limit } = .ok limited)
    (requests others : List Request)
    (sameState : (limited.session others).2 =
      (unlimited.session requests).2.withLimit (some limit)) :
    (limited.session others).2.steps ≤ limit ∧
      (∀ outcome next, (unlimited.session requests).2.Pulls outcome next →
        Allows limit next.steps outcome →
          (limited.session others).2.Pulls outcome (next.withLimit (some limit))) ∧
      ((∀ outcome next, (unlimited.session requests).2.Pulls outcome next →
          ¬ Allows limit next.steps outcome) →
        ∃ reached,
          (unlimited.session requests).2.pull (limit - (unlimited.session requests).2.steps) =
            (.error .outOfFuel, reached) ∧
          reached.steps = limit ∧
          (limited.session others).2.Pulls (.error (.trap (reached.exhaustion limit)))
            { reached.withLimit (some limit) with
              fault := some (reached.exhaustion limit) }) := by
  have unlimitedHere : (unlimited.session requests).2.Unlimited := by
    apply session_keeps unlimited_kept
    rw [(start_ok image inputs _ unlimited unlimitedStarted).1]
    exact ⟨rfl, rfl, by simp [boot]⟩
  have limitedHere : Limited limit (limited.session others).2 := by
    apply session_keeps (limited_kept limit)
    rw [(start_ok image inputs _ limited limitedStarted).1]
    exact ⟨rfl, rfl, Nat.zero_le _, by simp [boot]⟩
  rw [sameState] at limitedHere ⊢
  generalize (unlimited.session requests).2 = here at unlimitedHere limitedHere ⊢
  refine ⟨limitedHere.steps, ?_, ?_⟩
  · intro outcome next pulls allowed
    exact pulls.below_limit limit unlimitedHere.machine allowed
  · intro refused
    have running := running_of_refused here limit unlimitedHere limitedHere refused
    have within : here.steps ≤ limit := limitedHere.steps
    have limitedRunning : (here.withLimit (some limit)).Running :=
      ⟨running.faultless, running.unhalted⟩
    obtain ⟨reached, advanced, used, stopped⟩ :=
      advance_to_limit (limit - here.steps) here limit unlimitedHere.machine (by omega) (by
        intro fuel outcome next ended
        exact refused outcome next ⟨fuel, (running.pull fuel).trans ended⟩)
    exact ⟨reached, (running.pull _).trans advanced, used, limit - here.steps + 1,
      (limitedRunning.pull _).trans stopped⟩

/-- An addition and then the output of its sum: the output is the second instruction, one too many
for a limit of one. -/
theorem output_beyond_the_limit :
    ∃ reached,
      (boot [1101, 20, 22, 5, 104, 0, 99] [] {}).pull 1 = (.error .outOfFuel, reached) ∧
        reached.machine.memory.get 5 = 42 ∧
        (boot [1101, 20, 22, 5, 104, 0, 99] [] { limit := some 1 }).Pulls
          (.error (.trap ⟨4, .stepLimit 1⟩))
          { reached.withLimit (some 1) with fault := some ⟨4, .stepLimit 1⟩ } := by
  have outputs : (boot [1101, 20, 22, 5, 104, 0, 99] [] {}).Pulls (.ok (some 42))
      ((boot [1101, 20, 22, 5, 104, 0, 99] [] {}).pull 9).2 := ⟨9, rfl⟩
  obtain ⟨_, _, truncated⟩ := step_limit_only_truncates [1101, 20, 22, 5, 104, 0, 99] [] {} 1
    (boot [1101, 20, 22, 5, 104, 0, 99] [] {})
    (boot [1101, 20, 22, 5, 104, 0, 99] [] { limit := some 1 }) rfl rfl [] [] rfl
  obtain ⟨reached, pulled, _, stopped⟩ := truncated (by
    intro outcome next pulls
    obtain ⟨rfl, rfl⟩ := outputs.unique pulls
    change ¬ 2 ≤ 1
    omega)
  have reachedBy : reached = ((boot [1101, 20, 22, 5, 104, 0, 99] [] {}).pull 1).2 :=
    (congrArg Prod.snd pulled).symm
  subst reachedBy
  exact ⟨_, rfl, rfl, stopped⟩

end Execution

end Intcode
