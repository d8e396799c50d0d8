import Intcode.Machine

/-!
# Steps as plans

A handler looks at the machine and changes it in turns, and what it changed before it failed stays
changed. The plan of a step is kept apart from that: `fetch` and `effect` only look at the machine
and may fail, and `apply` changes it all at once and cannot fail. The two are shown to be equal, for
every machine, by going through the handlers; so no handler changes anything before its last check.
All that is proved of steps is proved of their plans.
-/

set_option autoImplicit false

namespace Intcode

/-- What an instruction does once its operands are known. -/
inductive Effect where
  | store (target : Nat) (value : Int)
  | await (target : Nat)
  | emit (word : Int)
  | jump (target : Nat)
  | pass
  | rebase (base : Int)
  | halt
  deriving DecidableEq, Repr

def Effect.event : Effect → Event
  | await target => .needsInput target
  | emit word => .output word
  | halt => .halted
  | store _ _ | jump _ | pass | rebase _ => .continued

/-- What a fault is reported as, with the address of its instruction. -/
def Fault.reportAt (pointer : Nat) (fault : Fault) : Error :=
  (Error.fault fault).raised.locatedAt pointer

namespace Machine

def jumpEffect (machine : Machine) (instruction : Instruction) (condition : Bool) :
    Except Fault Effect := do
  let check ← machine.value instruction 0
  let target ← machine.value instruction 1
  if (check != 0) = condition then
    if target < 0 then throw (.negativeJump target)
    return .jump target.toNat
  else return .pass

/-- What an instruction does in the present state. Operands are resolved in order, the result is
checked before the target, and the first failure is reported. -/
def effect (machine : Machine) (instruction : Instruction) : Except Fault Effect :=
  match instruction.op with
  | .add => do
      let lhs ← machine.value instruction 0
      let rhs ← machine.value instruction 1
      let sum ← checked .addition lhs rhs (lhs + rhs)
      return .store (← machine.target instruction 2) sum
  | .multiply => do
      let lhs ← machine.value instruction 0
      let rhs ← machine.value instruction 1
      let product ← checked .multiplication lhs rhs (lhs * rhs)
      return .store (← machine.target instruction 2) product
  | .input => return .await (← machine.target instruction 0)
  | .output => return .emit (← machine.value instruction 0)
  | .jumpIfTrue => machine.jumpEffect instruction true
  | .jumpIfFalse => machine.jumpEffect instruction false
  | .lessThan => do
      let lhs ← machine.value instruction 0
      let rhs ← machine.value instruction 1
      return .store (← machine.target instruction 2) (if lhs < rhs then 1 else 0)
  | .equals => do
      let lhs ← machine.value instruction 0
      let rhs ← machine.value instruction 1
      return .store (← machine.target instruction 2) (if lhs = rhs then 1 else 0)
  | .adjustBase => do
      let offset ← machine.value instruction 0
      let base := machine.registers.base
      return .rebase (← checked .baseAdjustment base offset (base + offset))
  | .halt => return .halt

/-- Counts an instruction and moves the pointer behind its `width` words. -/
def advance (machine : Machine) (width : Nat) : Machine :=
  { machine with
    registers :=
      { machine.registers with
        ip := machine.registers.ip + width
        steps := machine.registers.steps + 1 } }

/-- Carries an effect out. Waiting for input changes nothing and is not counted. -/
def apply (machine : Machine) : Effect → Machine
  | .store target value =>
      { machine.advance 4 with memory := machine.memory.set target value }
  | .await _ => machine
  | .emit _ => machine.advance 2
  | .jump target =>
      { machine with
        registers :=
          { machine.registers with ip := target, steps := machine.registers.steps + 1 } }
  | .pass => machine.advance 3
  | .rebase base =>
      let moved := machine.advance 2
      { moved with registers := { moved.registers with base } }
  | .halt => machine.advance 0

/-- The trace line of an instruction can be written, or none is asked for. -/
def Recordable (machine : Machine) (instruction : Instruction) : Prop :=
  machine.tracing = true → (machine.entry instruction).Legible

instance (machine : Machine) (instruction : Instruction) :
    Decidable (machine.Recordable instruction) :=
  inferInstanceAs (Decidable (_ → _))

/-- The machine with an instruction in its trace, if tracing is on. -/
def note (machine : Machine) (instruction : Instruction) : Machine :=
  if machine.tracing then
    if instruction.op = .input then
      { machine with pending := some (machine.entry instruction) }
    else { machine with trace := machine.trace.push (machine.entry instruction) }
  else machine

/-- The machine after an input instruction was completed. An entry that waited for it is in the
trace. -/
def completed (machine : Machine) (target : Nat) (word : Int) : Machine :=
  let fed := { machine.advance 2 with memory := machine.memory.set target word }
  match fed.pending with
  | none => fed
  | some entry => { fed with trace := fed.trace.push entry, pending := none }

/-- What a handler leaves of a machine and reports, if it follows a plan. An instruction that is
done is counted later, by the step. -/
def follow (machine : Machine) : Except Fault Effect → Except Error Event × Machine
  | .error fault => (.error (Error.fault fault).raised, machine)
  | .ok effect =>
      (.ok effect.event,
        match effect with
        | .store target value => (machine.store target value).moveBy 4
        | .await _ | .halt => machine
        | .emit _ => machine.moveBy 2
        | .jump target => machine.jumpTo target
        | .pass => machine.moveBy 3
        | .rebase base => (machine.rebase base).moveBy 2)

end Machine

namespace Action

section Runs

variable {Result Next : Type} (machine : Machine)

/-- The second action finds the machine as the first one leaves it. -/
theorem bind_on_ok (first : Action Result) (next : Result → Action Next) (result : Result)
    (changed : Machine) (done : first.on machine = (.ok result, changed)) :
    (first >>= next).on machine = (next result).on changed := by
  unfold on at done ⊢
  rw [ExceptT.run_bind, StateT.run_bind, done]
  rfl

theorem bind_on_error (first : Action Result) (next : Result → Action Next) (error : Error)
    (changed : Machine) (failed : first.on machine = (.error error, changed)) :
    (first >>= next).on machine = (.error error, changed) := by
  unfold on at failed ⊢
  rw [ExceptT.run_bind, StateT.run_bind, failed]
  rfl

theorem get_bind_on (next : Machine → Action Next) :
    ((get : Action Machine) >>= next).on machine = (next machine).on machine := rfl

theorem ask_on_ok (question : Machine → Except Fault Result) (answer : Result)
    (known : question machine = .ok answer) :
    (ask question).on machine = (.ok answer, machine) := by
  unfold ask
  rw [get_bind_on, known]
  rfl

theorem ask_on_error (question : Machine → Except Fault Result) (fault : Fault)
    (failed : question machine = .error fault) :
    (ask question).on machine = (.error (Error.fault fault).raised, machine) := by
  unfold ask
  rw [get_bind_on, failed]
  rfl

theorem located_on_ok (pointer : Nat) (action : Action Result) (result : Result)
    (changed : Machine) (done : action.on machine = (.ok result, changed)) :
    (located pointer action).on machine = (.ok result, changed) := by
  unfold located on at *
  rw [ExceptT.run_tryCatch, StateT.run_bind, done]
  rfl

theorem located_on_error (pointer : Nat) (action : Action Result) (error : Error)
    (changed : Machine) (failed : action.on machine = (.error error, changed)) :
    (located pointer action).on machine = (.error (error.locatedAt pointer), changed) := by
  unfold located on at *
  rw [ExceptT.run_tryCatch, StateT.run_bind, failed]
  rfl

end Runs

/-! ## Handlers and their plans -/

section Plans

variable {Result : Type} (machine : Machine)

/-- A question leaves the machine alone, so a handler that goes on as planned went as planned. -/
theorem ask_follows (question : Machine → Except Fault Result) (next : Result → Action Event)
    (plan : Result → Except Fault Effect)
    (same : ∀ answer, (next answer).on machine = machine.follow (plan answer)) :
    (ask question >>= next).on machine = machine.follow (question machine >>= plan) := by
  cases known : question machine with
  | error fault =>
      rw [bind_on_error _ _ _ _ _ (ask_on_error machine question fault known)]
      rfl
  | ok answer =>
      rw [bind_on_ok _ _ _ _ _ (ask_on_ok machine question answer known), same]
      rfl

theorem check_follows (computation : Computation) (lhs rhs result : Int) (next : Action Event)
    (plan : Int → Except Fault Effect) (same : next.on machine = machine.follow (plan result)) :
    (if ¬ Word.Fits result then do fail (.overflow computation lhs rhs); next
      else next : Action Event).on machine =
        machine.follow (Machine.checked computation lhs rhs result >>= plan) := by
  unfold Machine.checked
  by_cases fits : Word.Fits result
  · rw [if_neg (not_not_intro fits), if_pos fits]
    exact same
  · rw [if_pos fits, if_neg fits]
    rfl

variable (instruction : Instruction)

theorem store_result_follows (result : Int) :
    (storeResult instruction result).on machine =
      machine.follow (do return .store (← machine.target instruction 2) result) := by
  apply ask_follows
  intro target
  rfl

theorem compute_follows (computation : Computation) (operation : Int → Int → Int) :
    (compute computation operation instruction).on machine =
      machine.follow (do
        let lhs ← machine.value instruction 0
        let rhs ← machine.value instruction 1
        let result ← Machine.checked computation lhs rhs (operation lhs rhs)
        return .store (← machine.target instruction 2) result) := by
  apply ask_follows
  intro lhs
  apply ask_follows
  intro rhs
  apply check_follows machine computation lhs rhs (operation lhs rhs)
  exact store_result_follows machine instruction _

theorem compare_follows (holds : Int → Int → Bool) :
    (compare holds instruction).on machine =
      machine.follow (do
        let lhs ← machine.value instruction 0
        let rhs ← machine.value instruction 1
        return .store (← machine.target instruction 2) (if holds lhs rhs then 1 else 0)) := by
  apply ask_follows
  intro lhs
  apply ask_follows
  intro rhs
  exact store_result_follows machine instruction _

theorem jump_if_follows (condition : Bool) :
    (jumpIf condition instruction).on machine =
      machine.follow (machine.jumpEffect instruction condition) := by
  apply ask_follows
  intro check
  apply ask_follows
  intro target
  by_cases taken : (check != 0) = condition
  · rw [if_pos taken, if_pos taken]
    by_cases negative : target < 0
    · rw [if_pos negative, if_pos negative]
      rfl
    · rw [if_neg negative, if_neg negative]
      rfl
  · rw [if_neg taken, if_neg taken]
    rfl

theorem adjust_base_follows :
    (adjustBase instruction).on machine =
      machine.follow (do
        let offset ← machine.value instruction 0
        let base := machine.registers.base
        return .rebase (← Machine.checked .baseAdjustment base offset (base + offset))) := by
  apply ask_follows
  intro offset
  rw [get_bind_on]
  apply check_follows machine .baseAdjustment machine.registers.base offset
  rfl

theorem execute_follows :
    (execute instruction).on machine = machine.follow (machine.effect instruction) := by
  unfold execute Machine.effect
  cases instruction.op with
  | add => exact compute_follows machine instruction .addition (· + ·)
  | multiply => exact compute_follows machine instruction .multiplication (· * ·)
  | input => exact ask_follows machine _ _ _ fun _ => rfl
  | output => exact ask_follows machine _ _ _ fun _ => rfl
  | jumpIfTrue => exact jump_if_follows machine instruction true
  | jumpIfFalse => exact jump_if_follows machine instruction false
  | lessThan =>
      have follows := compare_follows machine instruction (· < ·)
      simpa using follows
  | equals =>
      have follows := compare_follows machine instruction (· = ·)
      simpa using follows
  | adjustBase => exact adjust_base_follows machine instruction
  | halt => rfl

theorem note_on (recordable : machine.Recordable instruction) :
    (note instruction).on machine = (.ok (), machine.note instruction) := by
  unfold note Machine.note
  rw [get_bind_on]
  cases tracing : machine.tracing with
  | false => rfl
  | true =>
      have legible := recordable tracing
      simp only [if_true]
      rw [if_neg (not_not_intro legible)]
      by_cases input : instruction.op = .input
      · rw [if_pos input, if_pos input]
        rfl
      · rw [if_neg input, if_neg input]
        rfl

theorem note_on_unrecordable (unrecordable : ¬ machine.Recordable instruction) :
    (note instruction).on machine = (.error .unwritable, machine) := by
  obtain ⟨tracing, illegible⟩ : machine.tracing = true ∧ ¬ (machine.entry instruction).Legible := by
    simpa [Machine.Recordable] using unrecordable
  unfold note
  rw [get_bind_on]
  simp only [tracing, if_true]
  rw [if_pos illegible]
  rfl

theorem cycle_on :
    cycle.on machine =
      match machine.fetch with
      | .error error => (.error error, machine)
      | .ok instruction =>
          if machine.Recordable instruction then
            (machine.note instruction).follow ((machine.note instruction).effect instruction)
          else (.error .unwritable, machine) := by
  have fetching : (liftExcept machine.fetch : Action Instruction).on machine =
      (machine.fetch, machine) := by
    cases machine.fetch <;> rfl
  unfold cycle
  rw [get_bind_on]
  cases fetched : machine.fetch with
  | error error =>
      rw [fetched] at fetching
      exact bind_on_error machine _ _ error machine fetching
  | ok instruction =>
      rw [fetched] at fetching
      rw [bind_on_ok machine _ _ instruction machine fetching]
      by_cases recordable : machine.Recordable instruction
      · simp only [if_pos recordable]
        rw [bind_on_ok _ _ _ _ _ (note_on machine instruction recordable)]
        exact execute_follows _ instruction
      · simp only [if_neg recordable]
        exact bind_on_error _ _ _ _ _ (note_on_unrecordable machine instruction recordable)

end Plans

end Action

namespace Machine

/-- An instruction that was carried out is counted, unless it waits. -/
theorem follow_count (machine : Machine) (effect : Effect) :
    (do if ¬ effect.event.isRequest then modify Machine.count
        return effect.event : Action Event).on (machine.follow (.ok effect)).2 =
      (.ok effect.event, machine.apply effect) := by
  cases effect <;> rfl

/-- A step goes as planned. What fails before anything is noted leaves the machine as it was; what
fails later leaves it with its note. -/
theorem step_eq (machine : Machine) :
    machine.step =
      match machine.fetch with
      | .error error => (.error (error.locatedAt machine.registers.ip), machine)
      | .ok instruction =>
          if machine.Recordable instruction then
            match (machine.note instruction).effect instruction with
            | .error fault =>
                (.error (fault.reportAt machine.registers.ip), machine.note instruction)
            | .ok effect => (.ok effect.event, (machine.note instruction).apply effect)
          else (.error .unwritable, machine) := by
  have cycled := Action.cycle_on machine
  unfold step Action.step
  rw [Action.get_bind_on]
  cases fetched : machine.fetch with
  | error error =>
      rw [fetched] at cycled
      exact Action.bind_on_error _ _ _ _ _ (Action.located_on_error _ _ _ _ _ cycled)
  | ok instruction =>
      rw [fetched] at cycled
      by_cases recordable : machine.Recordable instruction
      · simp only [if_pos recordable] at cycled ⊢
        cases done : (machine.note instruction).effect instruction with
        | error fault =>
            rw [done] at cycled
            exact Action.bind_on_error _ _ _ _ _ (Action.located_on_error _ _ _ _ _ cycled)
        | ok effect =>
            rw [done] at cycled
            rw [Action.bind_on_ok _ _ _ _ _ (Action.located_on_ok _ _ _ _ _ cycled)]
            exact follow_count (machine.note instruction) effect
      · simp only [if_neg recordable] at cycled ⊢
        exact Action.bind_on_error _ _ _ _ _ (Action.located_on_error _ _ _ _ _ cycled)

theorem provide_on (machine : Machine) (target : Nat) (word : Int) :
    (Action.provide target word).on machine = (.ok (), machine.completed target word) := by
  have natural : ¬ (target : Int) < 0 := by omega
  unfold Action.provide completed
  rw [if_neg natural, Int.toNat_natCast]
  obtain ⟨memory, registers, limit, tracing, trace, pending⟩ := machine
  cases pending <;> rfl

theorem supply_eq (machine : Machine) (target : Nat) (word : Int) :
    machine.supply target word = machine.completed target word :=
  congrArg Prod.snd (provide_on machine target word)

theorem supply_at_eq (machine : Machine) (target word : Int) :
    machine.supplyAt target word =
      if target < 0 then (.error (Error.fault (.negativeAddress target)).raised, machine)
      else (.ok (), machine.supply target.toNat word) := by
  by_cases negative : target < 0
  · rw [if_pos negative, supplyAt, Action.provide, if_pos negative]
    rfl
  · obtain ⟨address, rfl⟩ := Int.eq_ofNat_of_zero_le (Int.not_lt.mp negative)
    rw [if_neg negative, supplyAt, provide_on, Int.toNat_natCast, supply_eq]

end Machine

end Intcode
