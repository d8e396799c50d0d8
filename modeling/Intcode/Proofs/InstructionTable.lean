import Intcode.Proofs.Encoding
import Intcode.Proofs.FailingCalls

/-!
# Instructions keep to the table of operations

The table says of each operation how many words its instructions take and which parameter they
write. The handlers have the same numbers once more, one for each effect. The two agree in
every state that a machine can reach: a step changes no word but the one that the written parameter
names, only the operation made for it moves the relative base, and the pointer goes behind the
instruction unless the operation says otherwise. An array that grows over words of the map moves
them, but they read the same from where they are then.
-/

set_option autoImplicit false

namespace Intcode

theorem Instruction.decode_width (word : Int) (instruction : Instruction)
    (decoded : decode word = .ok instruction) : instruction.width = 1 + instruction.op.arity := by
  rw [width, ((decode_ok_iff word instruction).mp decoded).2.1]

theorem Memory.read_set_elsewhere (memory : Memory) (laidOut : memory.LaidOut) (target : Nat)
    (value address : Int) (elsewhere : address ≠ target) :
    (memory.set target value).read address = memory.read address := by
  unfold read
  by_cases negative : address < 0
  · rw [if_pos negative, if_pos negative]
  · have other : address.toNat ≠ target := by omega
    rw [if_neg negative, if_neg negative, get_set memory laidOut, if_neg (by simp [other])]

namespace Machine

/-! ## Memory stays laid out -/

/-- Whatever is asked of a machine, its memory is left alone or one word is set. -/
theorem perform_memory (room : Nat) (machine : Machine) (laidOut : machine.memory.LaidOut)
    (call : Call) :
    (machine.perform room call).2.memory = machine.memory ∨
      ∃ target value, (machine.perform room call).2.memory = machine.memory.set target value := by
  cases call with
  | step =>
      generalize stepped : machine.step = result
      obtain ⟨outcome, next⟩ := result
      simp only [perform, stepped]
      cases step_steps machine next outcome stepped with
      | unfetched error fetched => exact .inl rfl
      | unrecorded instruction fetched unrecordable => exact .inl rfl
      | faulted instruction fault fetched failed => exact .inl (note_memory _ _)
      | executed instruction effect fetched done =>
          cases effect with
          | store target value => exact .inr ⟨target, value, by simp [apply]⟩
          | _ => exact .inl (by simp [apply, advance])
  | supply target word =>
      by_cases negative : target < 0
      · exact .inl (by simp [perform, supply_at_eq, negative])
      · exact .inr ⟨target.toNat, word, by simp [perform, supply_at_eq, negative]⟩
  | write address value =>
      simp only [perform]
      cases written : machine.memory.write room address value with
      | error error => exact .inl rfl
      | ok memory =>
          have accepted := Memory.perform_accepted machine.memory memory laidOut
            (.write address value) written
          exact .inr ⟨address.toNat, value, accepted.2.1⟩
  | setTracing tracing => exact .inl rfl
  | forgetTrace => exact .inl rfl
  | rewind => exact .inl rfl

theorem Reachable.laid_out {image : List Int} {options : Options} {machine : Machine}
    (reachable : machine.Reachable image options) : machine.memory.LaidOut := by
  induction reachable with
  | boot => exact Memory.of_image_laid_out Memory.defaultGap image
  | perform room machine call reachable laidOut =>
      rcases perform_memory room machine laidOut call with same | ⟨target, value, set⟩
      · rw [same]
        exact laidOut
      · rw [set]
        exact Memory.set_laid_out _ laidOut target value

/-! ## What the instruction at the pointer does -/

/-- The instruction is a jump that is taken: its first parameter is as the operation wants it, and
its second one is this word. -/
def Jumps (machine : Machine) (instruction : Instruction) (target : Int) : Prop :=
  ∃ condition check, instruction.op = (if condition then .jumpIfTrue else .jumpIfFalse) ∧
    machine.value instruction 0 = .ok check ∧ machine.value instruction 1 = .ok target ∧
    (check != 0) = condition

/-- What an instruction is like that has this effect: the columns of the table that carrying the
effect out relies on, and the parameter that it comes from. -/
def Tabled (machine : Machine) (instruction : Instruction) : Effect → Prop
  | .store target _ =>
      instruction.op.arity = 3 ∧ instruction.op.writeIndex? = some 2 ∧
        machine.target instruction 2 = .ok target
  | .await target => instruction.op = .input ∧ machine.target instruction 0 = .ok target
  | .emit _ => instruction.op = .output
  | .jump target => machine.Jumps instruction target
  | .pass =>
      (instruction.op = .jumpIfTrue ∨ instruction.op = .jumpIfFalse) ∧
        ∀ target, ¬ machine.Jumps instruction target
  | .rebase _ => instruction.op = .adjustBase
  | .halt => instruction.op = .halt

theorem Jumps.op {machine : Machine} {instruction : Instruction} {target : Int}
    (jumps : machine.Jumps instruction target) :
    instruction.op = .jumpIfTrue ∨ instruction.op = .jumpIfFalse := by
  obtain ⟨condition, _, op, _⟩ := jumps
  cases condition with
  | true => exact .inl op
  | false => exact .inr op

theorem Jumps.unique {machine : Machine} {instruction : Instruction} {left right : Int}
    (jumps : machine.Jumps instruction left) (others : machine.Jumps instruction right) :
    left = right := by
  obtain ⟨_, _, _, _, second, _⟩ := jumps
  obtain ⟨_, _, _, _, otherSecond, _⟩ := others
  exact Except.ok.inj (second.symm.trans otherSecond)

theorem effect_tabled (machine : Machine) (instruction : Instruction) (effect : Effect)
    (done : machine.effect instruction = .ok effect) : machine.Tabled instruction effect := by
  cases effect_executes machine instruction effect done with
  | add lhs rhs target op first second fits third =>
      exact ⟨by rw [op]; rfl, by rw [op]; rfl, third⟩
  | multiply lhs rhs target op first second fits third =>
      exact ⟨by rw [op]; rfl, by rw [op]; rfl, third⟩
  | input target op first => exact ⟨op, first⟩
  | output word op first => exact op
  | jump condition check target op first second taken nonnegative =>
      refine ⟨condition, check, op, first, ?_, taken⟩
      rw [second, Int.toNat_of_nonneg nonnegative]
  | pass condition check target op first second missed =>
      refine ⟨by cases condition <;> simp [op], ?_⟩
      rintro other ⟨wanted, found, sameOp, sameFirst, _, taken⟩
      have sameCheck : found = check := Except.ok.inj (sameFirst.symm.trans first)
      have sameCondition : wanted = condition := by
        cases wanted <;> cases condition <;> simp [op] at sameOp ⊢
      rw [sameCheck, sameCondition] at taken
      exact missed taken
  | lessThan lhs rhs target op first second third =>
      exact ⟨by rw [op]; rfl, by rw [op]; rfl, third⟩
  | equals lhs rhs target op first second third =>
      exact ⟨by rw [op]; rfl, by rw [op]; rfl, third⟩
  | adjustBase offset op first fits => exact op
  | halt op => exact op

/-! ## Carrying it out -/

section Carrying

variable {machine : Machine} {instruction : Instruction} {effect : Effect}

theorem apply_read (laidOut : machine.memory.LaidOut) (address : Int)
    (elsewhere : ∀ target value, effect = .store target value → address ≠ target) :
    (machine.apply effect).memory.read address = machine.memory.read address := by
  cases effect with
  | store target value =>
      exact Memory.read_set_elsewhere _ laidOut target value address (elsewhere target value rfl)
  | _ => rfl

theorem Tabled.reads (tabled : machine.Tabled instruction effect)
    (laidOut : machine.memory.LaidOut)
    (unwritten : instruction.op.writeIndex? = none ∨ instruction.op = .input) (address : Int) :
    (machine.apply effect).memory.read address = machine.memory.read address := by
  apply apply_read laidOut
  rintro target value rfl
  obtain ⟨arity, writes, _⟩ := tabled
  rcases unwritten with none | input
  · exact absurd (none.symm.trans writes) (by simp)
  · exact absurd arity (by simp [input, Op.arity])

/-- The address of the written parameter is the one that is stored to or waited for. -/
theorem Tabled.target (tabled : machine.Tabled instruction effect) (index : Nat)
    (writes : instruction.op.writeIndex? = some index) :
    ∃ target, machine.target instruction index = .ok target ∧
      (∀ other value, effect = .store other value → other = target) ∧
      (instruction.op = .input → effect = .await target) := by
  cases effect with
  | store target value =>
      obtain ⟨arity, writesThird, third⟩ := tabled
      cases writes.symm.trans writesThird
      refine ⟨target, third, by simp, ?_⟩
      intro input
      exact absurd arity (by simp [input, Op.arity])
  | await target =>
      obtain ⟨op, first⟩ := tabled
      rw [op] at writes
      cases writes
      exact ⟨target, first, by simp, by simp⟩
  | emit word =>
      change instruction.op = .output at tabled
      exact absurd writes (by simp [tabled, Op.writeIndex?])
  | jump target =>
      rcases Jumps.op tabled with op | op
      · exact absurd writes (by simp [op, Op.writeIndex?])
      · exact absurd writes (by simp [op, Op.writeIndex?])
  | pass =>
      rcases tabled.1 with op | op
      · exact absurd writes (by simp [op, Op.writeIndex?])
      · exact absurd writes (by simp [op, Op.writeIndex?])
  | rebase base =>
      change instruction.op = .adjustBase at tabled
      exact absurd writes (by simp [tabled, Op.writeIndex?])
  | halt =>
      change instruction.op = .halt at tabled
      exact absurd writes (by simp [tabled, Op.writeIndex?])

theorem Tabled.base (tabled : machine.Tabled instruction effect)
    (fixed : instruction.op ≠ .adjustBase) :
    (machine.apply effect).registers.base = machine.registers.base := by
  cases effect with
  | rebase base => exact absurd tabled fixed
  | _ => rfl

/-- A jump that is taken leads to its second parameter. -/
theorem Tabled.jumps (tabled : machine.Tabled instruction effect) (target : Int)
    (jumps : machine.Jumps instruction target) :
    0 ≤ target ∧ ((machine.apply effect).registers.ip : Int) = target := by
  cases effect with
  | jump address =>
      have same : target = address := jumps.unique tabled
      rw [same]
      exact ⟨Int.natCast_nonneg address, rfl⟩
  | pass => exact absurd jumps (tabled.2 target)
  | store address value =>
      have arity := tabled.1
      rcases jumps.op with op | op
      · exact absurd arity (by simp [op, Op.arity])
      · exact absurd arity (by simp [op, Op.arity])
  | await address => rcases jumps.op with op | op <;> simp [Tabled, op] at tabled
  | emit word => rcases jumps.op with op | op <;> simp [Tabled, op] at tabled
  | rebase base => rcases jumps.op with op | op <;> simp [Tabled, op] at tabled
  | halt => rcases jumps.op with op | op <;> simp [Tabled, op] at tabled

/-- Halting and waiting leave the pointer where it is. -/
theorem Tabled.stays (tabled : machine.Tabled instruction effect)
    (staying : instruction.op = .halt ∨ instruction.op = .input) :
    (machine.apply effect).registers.ip = machine.registers.ip := by
  cases effect with
  | halt => rfl
  | await target => rfl
  | jump target =>
      rcases Jumps.op tabled with op | op
      · rcases staying with other | other <;> simp [op] at other
      · rcases staying with other | other <;> simp [op] at other
  | store target value => rcases staying with op | op <;> simp [Tabled, op, Op.arity] at tabled
  | emit word => rcases staying with op | op <;> simp [Tabled, op] at tabled
  | pass => rcases staying with op | op <;> simp [Tabled, op] at tabled
  | rebase base => rcases staying with op | op <;> simp [Tabled, op] at tabled

/-- In all other cases the pointer goes behind the instruction. -/
theorem Tabled.advances (tabled : machine.Tabled instruction effect)
    (width : instruction.width = 1 + instruction.op.arity)
    (halts : instruction.op ≠ .halt) (waits : instruction.op ≠ .input)
    (jumps : ∀ target, ¬ machine.Jumps instruction target) :
    (machine.apply effect).registers.ip = machine.registers.ip + instruction.width := by
  rw [width]
  cases effect with
  | store target value =>
      rw [tabled.1]
      rfl
  | await target => exact absurd tabled.1 waits
  | emit word =>
      rw [show instruction.op = .output from tabled]
      rfl
  | jump target => exact absurd tabled (jumps target)
  | pass =>
      rcases tabled.1 with op | op
      · rw [op]
        rfl
      · rw [op]
        rfl
  | rebase base =>
      rw [show instruction.op = .adjustBase from tabled]
      rfl
  | halt => exact absurd tabled halts

end Carrying

/-- Noting an instruction makes no difference to what carrying it out does. -/
theorem apply_noted (machine : Machine) (noted : Instruction) (effect : Effect) :
    ((machine.note noted).apply effect).memory = (machine.apply effect).memory ∧
      ((machine.note noted).apply effect).registers = (machine.apply effect).registers := by
  cases effect <;> simp [apply, advance]

/-- A step that succeeds keeps to the table of operations, whatever state the machine is in. It
reads the instruction whose word the pointer is at. Words change only at the address of the written
parameter, and not at all without such a parameter or while the instruction waits for its input; the
relative base changes only where the operation adjusts it. The pointer stays for a halt, and for an
input instruction until that is completed, goes to the second parameter of a jump that is taken,
which is not negative, and goes behind the words of the instruction otherwise. -/
theorem steps_keep_to_the_table (image : List Int) (options : Options) (before after : Machine)
    (event : Event) (reachable : before.Reachable image options)
    (stepped : before.step = (.ok event, after)) :
    ∃ instruction,
      Instruction.decode (before.memory.get before.registers.ip) = .ok instruction ∧
      instruction.width = 1 + instruction.op.arity ∧
      (instruction.op.writeIndex? = none ∨ instruction.op = .input →
        ∀ address, after.memory.read address = before.memory.read address) ∧
      (∀ index, instruction.op.writeIndex? = some index →
        ∃ target : Nat, before.target instruction index = .ok target ∧
          (∀ address : Int, address ≠ target →
            after.memory.read address = before.memory.read address) ∧
          (instruction.op = .input → event = .needsInput target ∧
            ∀ word, ∃ fed, after.supplyAt target word = (.ok (), fed) ∧
              fed.registers.base = before.registers.base ∧
              fed.registers.ip = before.registers.ip + instruction.width ∧
              ∀ address : Int, address ≠ target →
                fed.memory.read address = before.memory.read address)) ∧
      (instruction.op ≠ .adjustBase → after.registers.base = before.registers.base) ∧
      (instruction.op = .halt ∨ instruction.op = .input →
        after.registers.ip = before.registers.ip) ∧
      (∀ target, before.Jumps instruction target →
        0 ≤ target ∧ (after.registers.ip : Int) = target) ∧
      (instruction.op ≠ .halt → instruction.op ≠ .input →
        (∀ target, ¬ before.Jumps instruction target) →
          after.registers.ip = before.registers.ip + instruction.width) := by
  have laidOut := reachable.laid_out
  generalize reported : (Except.ok event : Except Error Event) = outcome at stepped
  cases step_steps before after outcome stepped with
  | unfetched error fetched => exact absurd reported (by simp)
  | unrecorded instruction fetched unrecordable => exact absurd reported (by simp)
  | faulted instruction fault fetched failed => exact absurd reported (by simp)
  | executed instruction effect fetched done =>
      have decoded := (fetch_ok before instruction fetched).1
      have width := Instruction.decode_width _ instruction decoded
      have tabled := effect_tabled before instruction effect done
      obtain ⟨sameMemory, sameRegisters⟩ := apply_noted before instruction effect
      rw [sameMemory, sameRegisters]
      refine ⟨instruction, decoded, width, ?_, ?_, tabled.base, tabled.stays, tabled.jumps,
        tabled.advances width⟩
      · intro unwritten address
        exact tabled.reads laidOut unwritten address
      · intro index writes
        obtain ⟨target, resolved, stores, awaits⟩ := tabled.target index writes
        refine ⟨target, resolved, ?_, ?_⟩
        · intro address elsewhere
          apply apply_read laidOut
          intro other value storing
          rw [stores other value storing]
          exact elsewhere
        · intro input
          cases awaits input
          cases reported
          refine ⟨rfl, ?_⟩
          intro word
          refine ⟨(before.note instruction).supply target word, ?_, ?_, ?_, ?_⟩
          · simp [supply_at_eq, apply]
          · simp [advance]
          · rw [supply_registers, width, input]
            simp [advance, Op.arity]
          · intro address elsewhere
            rw [supply_memory, note_memory]
            exact Memory.read_set_elsewhere _ laidOut target word address elsewhere

/-- The base is moved, and then a sum is stored far behind the image, at an offset from the base. -/
theorem relative_store_keeps_to_the_table :
    let before := (boot [109, 7, 21101, 20, 22, 70000, 99] {}).step.2
    before.step.1 = .ok .continued ∧ before.step.2.registers.ip = 6 ∧
      before.step.2.registers.base = 7 ∧
      ∀ address : Int, address ≠ 70007 →
        before.step.2.memory.read address = before.memory.read address := by
  intro before
  have reachable : before.Reachable [109, 7, 21101, 20, 22, 70000, 99] {} :=
    .perform 0 _ .step .boot
  have succeeds : before.step.1 = .ok .continued := by decide
  obtain ⟨instruction, decoded, _, _, writes, base, _, _, advances⟩ :=
    steps_keep_to_the_table _ _ before before.step.2 .continued reachable (Prod.ext succeeds rfl)
  have word : Instruction.decode (before.memory.get before.registers.ip) =
      .ok ⟨.add, [.immediate, .immediate, .relative], 21101⟩ := by decide
  cases word.symm.trans decoded
  obtain ⟨target, resolved, elsewhere, _⟩ := writes 2 rfl
  have address : before.target ⟨.add, [.immediate, .immediate, .relative], 21101⟩ 2 =
      .ok 70007 := by decide
  cases address.symm.trans resolved
  refine ⟨succeeds, ?_, base (by decide), elsewhere⟩
  apply advances (by decide) (by decide)
  intro target jumps
  exact absurd jumps.op (by decide)

end Machine

end Intcode
