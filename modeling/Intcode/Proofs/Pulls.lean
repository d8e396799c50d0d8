import Intcode.Proofs.Sessions

/-!
# Pulls with more fuel, more input and a second try

Three facts about single pulls. A pull that ends within its bound ends in the same way within every
greater one. Words further back in the queue make no difference to a pull that does not starve. And
after a pull that starved, a second pull does what the first would have done with the words that
came in between: the input instruction at which the machine waits leaves nothing behind but the
trace entry it holds back, and trying it again writes the same entry.
-/

set_option autoImplicit false

namespace Intcode

namespace Machine

theorem step_never_starves (machine next : Machine) (pointer : Nat) :
    machine.step ≠ (.error (.starved pointer), next) := by
  intro stepped
  rcases step_error machine next _ stepped with ⟨_, same⟩ | ⟨same, _⟩ | same
  · exact absurd same (by simp)
  · exact absurd same (by simp)
  · exact absurd same (by simp)

/-- A machine that asks for input can be asked to step again, and asks for the same. -/
theorem step_again (machine next : Machine) (target : Nat)
    (stepped : machine.step = (.ok (.needsInput target), next)) :
    next.step = (.ok (.needsInput target), next) := by
  obtain ⟨instruction, fetched, recordable, done, rfl⟩ := request_waits machine next target stepped
  have input := awaits_input machine instruction target done
  have again : (machine.note instruction).Steps (.ok (.needsInput target))
      ((machine.note instruction).note instruction) :=
    .executed instruction (.await target) ((note_fetch _ _).trans fetched)
      ((note_effect _ _ _).trans done) ((note_recordable _ _ _).mpr recordable)
  rw [note_input_twice machine instruction input] at again
  exact steps_step _ _ _ again

end Machine

namespace Execution

/-! ## More fuel -/

theorem advance_mono (fuel more : Nat) (execution next : Execution)
    (outcome : Except Stop (Option Int)) (advanced : execution.advance fuel = (outcome, next))
    (ended : outcome ≠ .error .outOfFuel) (enough : fuel ≤ more) :
    execution.advance more = (outcome, next) := by
  induction fuel generalizing execution more with
  | zero =>
      simp only [advance, Prod.mk.injEq] at advanced
      exact absurd advanced.1.symm ended
  | succ fuel ih =>
      obtain ⟨more, rfl⟩ : ∃ rest, more = rest + 1 := ⟨more - 1, by omega⟩
      unfold advance at advanced ⊢
      split at advanced
      case h_1 after turned => exact ih more after advanced (by omega)
      case h_2 result after turned => exact advanced
      case h_3 error after turned => exact advanced

theorem pull_mono (fuel more : Nat) (execution next : Execution)
    (outcome : Except Stop (Option Int)) (pulled : execution.pull fuel = (outcome, next))
    (ended : outcome ≠ .error .outOfFuel) (enough : fuel ≤ more) :
    execution.pull more = (outcome, next) := by
  by_cases running : execution.Running
  · rw [running.pull] at pulled ⊢
    exact advance_mono fuel more execution next outcome pulled ended enough
  · obtain ⟨_, _, settled⟩ := pull_settled execution running
    rw [settled fuel execution rfl rfl] at pulled
    rw [settled more execution rfl rfl, pulled]

/-- A pull with enough fuel ends in this way. -/
def Pulls (execution : Execution) (outcome : Except Error (Option Int)) (next : Execution) : Prop :=
  ∃ fuel, execution.pull fuel = (inTime outcome, next)

theorem pulled_in_time (outcome : Except Error (Option Int)) :
    inTime outcome ≠ .error .outOfFuel := by
  cases outcome <;> simp [inTime]

theorem Pulls.with_more {execution next : Execution} {outcome : Except Error (Option Int)}
    (pulls : execution.Pulls outcome next) :
    ∃ enough, ∀ fuel, enough ≤ fuel →
      execution.pull fuel = (inTime outcome, next) := by
  obtain ⟨enough, pulled⟩ := pulls
  refine ⟨enough, ?_⟩
  intro fuel bound
  exact pull_mono enough fuel execution next _ pulled (pulled_in_time outcome) bound

theorem Pulls.unique {execution next other : Execution}
    {outcome another : Except Error (Option Int)} (pulls : execution.Pulls outcome next)
    (others : execution.Pulls another other) : outcome = another ∧ next = other := by
  obtain ⟨enough, pulled⟩ := pulls.with_more
  obtain ⟨enoughOthers, otherPulled⟩ := others.with_more
  have same := pulled (max enough enoughOthers) (by omega)
  rw [otherPulled (max enough enoughOthers) (by omega), Prod.mk.injEq] at same
  refine ⟨?_, same.2.symm⟩
  cases outcome <;> cases another <;> simp_all [inTime]

/-! ## More input -/

/-- The outcome of a pull that found the queue empty. -/
def Starved (outcome : Except Stop (Option Int)) : Prop :=
  ∃ pointer, outcome = .error (.failed (.starved pointer))

theorem turn_feed (execution next : Execution) (outcome : Option (Except Error (Option Int)))
    (words : List Int) (turned : execution.turn = (outcome, next))
    (supplied : ∀ pointer, outcome ≠ some (.error (.starved pointer))) :
    (execution.feed words).turn = (outcome, next.feed words) := by
  apply turns_turn
  cases turn_turns execution next outcome turned with
  | trapped trap machine step => exact .trapped trap machine step
  | failed error machine step untrapped => exact .failed error machine step untrapped
  | continued machine step => exact .continued machine step
  | output word machine step => exact .output word machine step
  | halted machine step => exact .halted machine step
  | starved target machine step empty => exact absurd rfl (supplied machine.registers.ip)
  | fed target machine word queue step queued =>
      refine .fed target machine word (queue ++ words) step ?_
      rw [feed, queued, List.cons_append]

theorem advance_feed (fuel : Nat) (execution next : Execution)
    (outcome : Except Stop (Option Int)) (words : List Int)
    (advanced : execution.advance fuel = (outcome, next)) (supplied : ¬ Starved outcome) :
    (execution.feed words).advance fuel = (outcome, next.feed words) := by
  induction fuel generalizing execution with
  | zero =>
      simp only [advance, Prod.mk.injEq] at advanced ⊢
      exact ⟨advanced.1, by rw [advanced.2]⟩
  | succ fuel ih =>
      unfold advance at advanced ⊢
      split at advanced
      case h_1 after turned =>
        rw [turn_feed execution after none words turned (by simp)]
        exact ih after advanced
      case h_2 result after turned =>
        rw [turn_feed execution after _ words turned (by simp)]
        cases advanced
        rfl
      case h_3 error after turned =>
        cases advanced
        rw [turn_feed execution next _ words turned]
        intro pointer same
        apply supplied
        exact ⟨pointer, by simpa using same⟩

theorem Running.feed {execution : Execution} (running : execution.Running) (words : List Int) :
    (execution.feed words).Running :=
  ⟨running.faultless, running.unhalted⟩

theorem pull_feed (fuel : Nat) (execution next : Execution) (outcome : Except Stop (Option Int))
    (words : List Int) (pulled : execution.pull fuel = (outcome, next))
    (supplied : ¬ Starved outcome) :
    (execution.feed words).pull fuel = (outcome, next.feed words) := by
  by_cases running : execution.Running
  · rw [running.pull] at pulled
    rw [(running.feed words).pull]
    exact advance_feed fuel execution next outcome words pulled supplied
  · obtain ⟨_, _, settled⟩ := pull_settled execution running
    rw [settled fuel execution rfl rfl] at pulled
    cases pulled
    exact settled fuel (execution.feed words) rfl rfl

/-! ## A second try -/

/-- The machine waits, with an empty queue: a turn from here is a turn from where it began. -/
theorem starved_turn (execution next : Execution) (pointer : Nat)
    (turned : execution.turn = (some (.error (.starved pointer)), next)) :
    next.fault = execution.fault ∧ next.halted = execution.halted ∧
      ∀ words, (next.feed words).turn = (execution.feed words).turn := by
  generalize reported : (some (Except.error (Error.starved pointer)) :
    Option (Except Error (Option Int))) = outcome at turned
  cases turn_turns execution next outcome turned with
  | starved target machine step empty =>
      refine ⟨rfl, rfl, ?_⟩
      intro words
      have again := Machine.step_again _ machine target step
      unfold turn
      simp only [feed, step, again]
  | failed error machine step untrapped =>
      cases reported
      exact absurd step (Machine.step_never_starves _ _ _)
  | _ => exact absurd reported (by simp)

theorem starved_advance (fuel : Nat) (execution next : Execution) (pointer : Nat)
    (advanced : execution.advance fuel = (.error (.failed (.starved pointer)), next)) :
    next.fault = execution.fault ∧ next.halted = execution.halted ∧
      ∀ words more outcome last, (next.feed words).advance more = (outcome, last) →
        outcome ≠ .error .outOfFuel →
          (execution.feed words).advance (fuel + more) = (outcome, last) := by
  induction fuel generalizing execution with
  | zero => exact absurd advanced (by simp [advance])
  | succ fuel ih =>
      unfold advance at advanced
      split at advanced
      case h_1 after turned =>
        obtain ⟨sameFault, sameHalted⟩ := unended_turn execution after turned
        obtain ⟨fault, halted, resumed⟩ := ih after advanced
        refine ⟨fault.trans sameFault, halted.trans sameHalted, ?_⟩
        intro words more outcome last again ended
        have fed := turn_feed execution after none words turned (by simp)
        rw [Nat.add_right_comm, advance, fed]
        exact resumed words more outcome last again ended
      case h_2 result after turned => exact absurd advanced (by simp)
      case h_3 error after turned =>
        cases advanced
        obtain ⟨fault, halted, sameTurn⟩ := starved_turn execution next pointer turned
        refine ⟨fault, halted, ?_⟩
        intro words more outcome last again ended
        -- Only the starved turn is made twice; the fuel of the first try is to spare.
        refine advance_mono more _ _ last outcome ?_ ended (by omega)
        cases more with
        | zero =>
            simp only [advance, Prod.mk.injEq] at again
            exact absurd again.1.symm ended
        | succ more =>
            rw [advance, sameTurn words] at again
            rw [advance]
            exact again

/-- An execution whose pull starves runs, and so does the one that this pull leaves. -/
theorem starved_running (fuel : Nat) (execution next : Execution) (pointer : Nat)
    (pulled : execution.pull fuel = (.error (.failed (.starved pointer)), next)) :
    execution.Running ∧ next.Running := by
  have running := running_of_pull fuel execution (by simp [pulled]) (by simp [pulled])
  rw [running.pull] at pulled
  obtain ⟨sameFault, sameHalted, _⟩ := starved_advance fuel execution next pointer pulled
  exact ⟨running, sameFault.trans running.faultless, sameHalted.trans running.unhalted⟩

/-- A second pull after one that starved, with whatever words came in between, does what the first
one would have done with them. -/
theorem starved_pull (fuel : Nat) (execution next : Execution) (pointer : Nat)
    (pulled : execution.pull fuel = (.error (.failed (.starved pointer)), next))
    (words : List Int) (more : Nat) (outcome : Except Stop (Option Int)) (last : Execution)
    (again : (next.feed words).pull more = (outcome, last)) (ended : outcome ≠ .error .outOfFuel) :
    (execution.feed words).pull (fuel + more) = (outcome, last) := by
  obtain ⟨running, waiting⟩ := starved_running fuel execution next pointer pulled
  rw [running.pull] at pulled
  rw [(waiting.feed words).pull] at again
  rw [(running.feed words).pull]
  obtain ⟨_, _, resumed⟩ := starved_advance fuel execution next pointer pulled
  exact resumed words more outcome last again ended

/-! ## What pulls do not notice -/

/-- A change that no turn of a good execution notices: with it or without it, turns end alike, and
the executions they leave are good again and differ by the change. -/
structure Unnoticed (Good : Execution → Prop) (change : Execution → Execution) : Prop where
  kept : ∀ execution, execution.Running → Good execution → Good execution.turn.2
  turn : ∀ execution next outcome, Good execution → execution.turn = (outcome, next) →
    (change execution).turn = (outcome, change next)
  fault : ∀ execution, (change execution).fault = execution.fault
  halted : ∀ execution, (change execution).halted = execution.halted

section Unnoticed

variable {Good : Execution → Prop} {change : Execution → Execution}
  (unnoticed : Unnoticed Good change)

include unnoticed

theorem Unnoticed.advance (fuel : Nat) (execution : Execution) (running : execution.Running)
    (good : Good execution) :
    (change execution).advance fuel =
      ((execution.advance fuel).1, change (execution.advance fuel).2) := by
  induction fuel generalizing execution with
  | zero => rfl
  | succ fuel ih =>
      generalize turned : execution.turn = result
      obtain ⟨outcome, next⟩ := result
      have nextGood := unnoticed.kept execution running good
      rw [turned] at nextGood
      simp only [Execution.advance, turned, unnoticed.turn execution next outcome good turned]
      cases outcome with
      | none => exact ih next (running.unended turned) nextGood
      | some result => cases result <;> rfl

theorem Unnoticed.pull (fuel : Nat) (execution : Execution) (good : Good execution) :
    (change execution).pull fuel = ((execution.pull fuel).1, change (execution.pull fuel).2) := by
  by_cases running : execution.Running
  · have changedRunning : (change execution).Running :=
      ⟨(unnoticed.fault execution).trans running.faultless,
        (unnoticed.halted execution).trans running.unhalted⟩
    rw [running.pull, changedRunning.pull]
    exact unnoticed.advance fuel execution running good
  · obtain ⟨_, _, settled⟩ := pull_settled execution running
    rw [settled fuel execution rfl rfl,
      settled fuel _ (unnoticed.fault execution) (unnoticed.halted execution)]

theorem Unnoticed.collect (fuel : Nat) (execution : Execution) (outputs : Array Int)
    (good : Good execution) :
    (change execution).collect fuel outputs =
      ((execution.collect fuel outputs).1, (execution.collect fuel outputs).2.1,
        change (execution.collect fuel outputs).2.2) := by
  induction fuel generalizing execution outputs with
  | zero => rfl
  | succ fuel ih =>
      have nextGood := pull_keeps unnoticed.kept fuel execution good
      simp only [Execution.collect, unnoticed.pull fuel execution good]
      generalize execution.pull fuel = result at nextGood
      obtain ⟨outcome, next⟩ := result
      cases outcome with
      | error stop => rfl
      | ok word =>
          cases word with
          | none => rfl
          | some word => exact ih next (outputs.push word) nextGood

end Unnoticed

/-! ## What only a reset reads -/

/-- The state of one execution with the image, the preloaded words and the options of another. -/
def relabel (execution origin : Execution) : Execution :=
  { origin with
    machine := execution.machine
    queue := execution.queue
    halted := execution.halted
    fault := execution.fault }

theorem turn_relabel (execution origin next : Execution)
    (outcome : Option (Except Error (Option Int))) (turned : execution.turn = (outcome, next)) :
    (execution.relabel origin).turn = (outcome, next.relabel origin) := by
  apply turns_turn
  cases turn_turns execution next outcome turned with
  | trapped trap machine step => exact .trapped trap machine step
  | failed error machine step untrapped => exact .failed error machine step untrapped
  | continued machine step => exact .continued machine step
  | output word machine step => exact .output word machine step
  | halted machine step => exact .halted machine step
  | starved target machine step empty => exact .starved target machine step empty
  | fed target machine word queue step queued => exact .fed target machine word queue step queued

theorem turn_options (execution next : Execution)
    (outcome : Option (Except Error (Option Int))) (turned : execution.turn = (outcome, next)) :
    next.options = execution.options := by
  have relabelled : execution.turn = (outcome, next.relabel execution) :=
    turn_relabel execution execution next outcome turned
  rw [turned, Prod.mk.injEq] at relabelled
  have labels : next.options = (next.relabel execution).options :=
    congrArg Execution.options relabelled.2
  exact labels

theorem relabel_unnoticed (origin : Execution) :
    Unnoticed (fun _ => True) fun execution => execution.relabel origin where
  kept := fun _ _ _ => trivial
  turn := by
    intro execution next outcome _ turned
    exact turn_relabel execution origin next outcome turned
  fault := fun _ => rfl
  halted := fun _ => rfl

theorem pull_relabel (fuel : Nat) (execution origin : Execution) :
    (execution.relabel origin).pull fuel =
      ((execution.pull fuel).1, (execution.pull fuel).2.relabel origin) :=
  (relabel_unnoticed origin).pull fuel execution trivial

/-- A pull leaves the image, the preloaded words and the options as they are. -/
theorem pull_labels (fuel : Nat) (execution : Execution) :
    (execution.pull fuel).2.relabel execution = (execution.pull fuel).2 :=
  (congrArg Prod.snd (pull_relabel fuel execution execution)).symm

end Execution

end Intcode
