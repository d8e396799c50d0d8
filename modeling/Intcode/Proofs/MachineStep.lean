import Intcode.Proofs.StepPlan

/-!
# What one machine step does

The rules of the machine as relations beside its functions: `Executes` has one rule for each way an
operation can work out, and `Steps` one for each way a step can end. Whatever holds of machines step
after step is proved by going through these rules, never by opening `step`.
-/

set_option autoImplicit false

namespace Intcode

/-- The faults of an instruction that was fetched: they come from its operands, its result or its
target. -/
def Fault.Operational : Fault → Prop
  | overflow _ _ _ | negativeAddress _ | negativeJump _ | writeToImmediate _ => True
  | undecodable _ | endOfMemory _ _ | stepLimit _ => False

/-- Whatever the fault, it is reported as such, unless its numbers cannot be written. -/
theorem Fault.raised_cases (fault : Fault) :
    (Error.fault fault).raised = .fault fault ∨ (Error.fault fault).raised = .unwritable := by
  unfold Error.raised
  split
  · exact .inl rfl
  · exact .inr rfl

theorem Instruction.refused_word (word : Int) (error : Error)
    (refused : decode word = .error error) :
    (∃ cause, error = .fault (.undecodable cause)) ∨ error = .unwritable := by
  unfold decode at refused
  cases read : ofWord word with
  | ok instruction =>
      rw [read] at refused
      cases refused
  | error cause =>
      rw [read] at refused
      cases refused
      rcases Fault.raised_cases (.undecodable cause) with same | same
      · exact .inl ⟨cause, same⟩
      · exact .inr same

namespace Machine

/-! ## Noting an instruction -/

/-- Only the trace and the entry that waits can change. -/
theorem note_eq (machine : Machine) (instruction : Instruction) :
    ∃ trace pending, machine.note instruction = { machine with trace, pending } := by
  unfold note
  split
  · split
    · exact ⟨machine.trace, some (machine.entry instruction), rfl⟩
    · exact ⟨machine.trace.push (machine.entry instruction), machine.pending, rfl⟩
  · exact ⟨machine.trace, machine.pending, rfl⟩

@[simp]
theorem note_memory (machine : Machine) (instruction : Instruction) :
    (machine.note instruction).memory = machine.memory := by
  obtain ⟨_, _, noted⟩ := note_eq machine instruction
  rw [noted]

@[simp]
theorem note_registers (machine : Machine) (instruction : Instruction) :
    (machine.note instruction).registers = machine.registers := by
  obtain ⟨_, _, noted⟩ := note_eq machine instruction
  rw [noted]

@[simp]
theorem note_limit (machine : Machine) (instruction : Instruction) :
    (machine.note instruction).limit = machine.limit := by
  obtain ⟨_, _, noted⟩ := note_eq machine instruction
  rw [noted]

@[simp]
theorem note_tracing (machine : Machine) (instruction : Instruction) :
    (machine.note instruction).tracing = machine.tracing := by
  obtain ⟨_, _, noted⟩ := note_eq machine instruction
  rw [noted]

/-- Two machines with the same memory and registers work every instruction out alike. -/
theorem effect_congr (left right : Machine) (instruction : Instruction)
    (memory : left.memory = right.memory) (registers : left.registers = right.registers) :
    left.effect instruction = right.effect instruction := by
  cases left
  cases right
  cases memory
  cases registers
  rfl

/-- Two machines with the same memory, registers and limit fetch the same instruction. -/
theorem fetch_congr (left right : Machine) (memory : left.memory = right.memory)
    (registers : left.registers = right.registers) (limit : left.limit = right.limit) :
    left.fetch = right.fetch := by
  cases left
  cases right
  cases memory
  cases registers
  cases limit
  rfl

@[simp]
theorem note_effect (machine : Machine) (noted instruction : Instruction) :
    (machine.note noted).effect instruction = machine.effect instruction :=
  effect_congr _ _ _ (by simp) (by simp)

@[simp]
theorem note_fetch (machine : Machine) (instruction : Instruction) :
    (machine.note instruction).fetch = machine.fetch :=
  fetch_congr _ _ (by simp) (by simp) (by simp)

@[simp]
theorem note_recordable (machine : Machine) (noted instruction : Instruction) :
    (machine.note noted).Recordable instruction ↔ machine.Recordable instruction := by
  unfold Recordable entry operand
  rw [note_tracing, note_memory, note_registers]

/-- An input instruction holds its entry back, so noting it a second time changes nothing. -/
theorem note_input_twice (machine : Machine) (instruction : Instruction)
    (input : instruction.op = .input) :
    (machine.note instruction).note instruction = machine.note instruction := by
  cases tracing : machine.tracing with
  | false => simp [note, tracing]
  | true => simp [note, tracing, input, entry, operand]

/-! ## Completing an input instruction -/

@[simp]
theorem supply_memory (machine : Machine) (target : Nat) (word : Int) :
    (machine.supply target word).memory = machine.memory.set target word := by
  cases pending : machine.pending with
  | none => simp [supply_eq, completed, advance, pending]
  | some entry => simp [supply_eq, completed, advance, pending]

@[simp]
theorem supply_registers (machine : Machine) (target : Nat) (word : Int) :
    (machine.supply target word).registers = (machine.advance 2).registers := by
  cases pending : machine.pending with
  | none => simp [supply_eq, completed, advance, pending]
  | some entry => simp [supply_eq, completed, advance, pending]

/-! ## Working an instruction out -/

/-- What an instruction does in the present state, one rule for each operation; the two jumps share
a rule for jumping and one for passing on. -/
inductive Executes (machine : Machine) (instruction : Instruction) : Effect → Prop
  | add (lhs rhs : Int) (target : Nat) (op : instruction.op = .add)
      (first : machine.value instruction 0 = .ok lhs)
      (second : machine.value instruction 1 = .ok rhs)
      (fits : Word.Fits (lhs + rhs))
      (third : machine.target instruction 2 = .ok target) :
      Executes machine instruction (.store target (lhs + rhs))
  | multiply (lhs rhs : Int) (target : Nat) (op : instruction.op = .multiply)
      (first : machine.value instruction 0 = .ok lhs)
      (second : machine.value instruction 1 = .ok rhs)
      (fits : Word.Fits (lhs * rhs))
      (third : machine.target instruction 2 = .ok target) :
      Executes machine instruction (.store target (lhs * rhs))
  | input (target : Nat) (op : instruction.op = .input)
      (first : machine.target instruction 0 = .ok target) :
      Executes machine instruction (.await target)
  | output (word : Int) (op : instruction.op = .output)
      (first : machine.value instruction 0 = .ok word) :
      Executes machine instruction (.emit word)
  | jump (condition : Bool) (check target : Int)
      (op : instruction.op = if condition then .jumpIfTrue else .jumpIfFalse)
      (first : machine.value instruction 0 = .ok check)
      (second : machine.value instruction 1 = .ok target)
      (taken : (check != 0) = condition) (nonnegative : 0 ≤ target) :
      Executes machine instruction (.jump target.toNat)
  | pass (condition : Bool) (check target : Int)
      (op : instruction.op = if condition then .jumpIfTrue else .jumpIfFalse)
      (first : machine.value instruction 0 = .ok check)
      (second : machine.value instruction 1 = .ok target)
      (missed : (check != 0) ≠ condition) :
      Executes machine instruction .pass
  | lessThan (lhs rhs : Int) (target : Nat) (op : instruction.op = .lessThan)
      (first : machine.value instruction 0 = .ok lhs)
      (second : machine.value instruction 1 = .ok rhs)
      (third : machine.target instruction 2 = .ok target) :
      Executes machine instruction (.store target (if lhs < rhs then 1 else 0))
  | equals (lhs rhs : Int) (target : Nat) (op : instruction.op = .equals)
      (first : machine.value instruction 0 = .ok lhs)
      (second : machine.value instruction 1 = .ok rhs)
      (third : machine.target instruction 2 = .ok target) :
      Executes machine instruction (.store target (if lhs = rhs then 1 else 0))
  | adjustBase (offset : Int) (op : instruction.op = .adjustBase)
      (first : machine.value instruction 0 = .ok offset)
      (fits : Word.Fits (machine.registers.base + offset)) :
      Executes machine instruction (.rebase (machine.registers.base + offset))
  | halt (op : instruction.op = .halt) : Executes machine instruction .halt

/-- A chain of computations that gives a result has one for each of its links. -/
theorem bind_ok {Failure First Result : Type} {first : Except Failure First}
    {next : First → Except Failure Result} {result : Result}
    (done : (first >>= next) = .ok result) :
    ∃ value, first = .ok value ∧ next value = .ok result := by
  cases first with
  | error failure => exact absurd done (by simp [bind, Except.bind])
  | ok value => exact ⟨value, rfl, done⟩

theorem checked_ok (computation : Computation) (lhs rhs result word : Int)
    (done : checked computation lhs rhs result = .ok word) :
    word = result ∧ Word.Fits result := by
  unfold checked at done
  split at done
  case isTrue fits => exact ⟨(Except.ok.inj done).symm, fits⟩
  case isFalse => exact absurd done (by simp)

/-- A jump is taken, to a word that is not negative, or passed over. -/
theorem jump_effect_cases (machine : Machine) (instruction : Instruction) (condition : Bool)
    (effect : Effect) (done : machine.jumpEffect instruction condition = .ok effect) :
    ∃ check target, machine.value instruction 0 = .ok check ∧
      machine.value instruction 1 = .ok target ∧
      ((check != 0) = condition ∧ 0 ≤ target ∧ effect = .jump target.toNat ∨
        (check != 0) ≠ condition ∧ effect = .pass) := by
  unfold jumpEffect at done
  obtain ⟨check, first, done⟩ := bind_ok done
  obtain ⟨target, second, done⟩ := bind_ok done
  refine ⟨check, target, first, second, ?_⟩
  by_cases taken : (check != 0) = condition
  · rw [if_pos taken] at done
    by_cases negative : target < 0
    · rw [if_pos negative] at done
      exact absurd done (by simp [throw, throwThe, MonadExceptOf.throw, bind, Except.bind])
    · rw [if_neg negative] at done
      exact .inl ⟨taken, Int.not_lt.mp negative, (Except.ok.inj done).symm⟩
  · rw [if_neg taken] at done
    exact .inr ⟨taken, (Except.ok.inj done).symm⟩

theorem jump_effect_executes (machine : Machine) (instruction : Instruction) (condition : Bool)
    (effect : Effect) (op : instruction.op = if condition then .jumpIfTrue else .jumpIfFalse)
    (done : machine.jumpEffect instruction condition = .ok effect) :
    machine.Executes instruction effect := by
  obtain ⟨check, target, first, second, ⟨taken, natural, rfl⟩ | ⟨missed, rfl⟩⟩ :=
    jump_effect_cases machine instruction condition effect done
  · exact .jump condition check target op first second taken natural
  · exact .pass condition check target op first second missed

theorem effect_executes (machine : Machine) (instruction : Instruction) (effect : Effect)
    (done : machine.effect instruction = .ok effect) : machine.Executes instruction effect := by
  unfold Machine.effect at done
  cases op : instruction.op with
  | add =>
      rw [op] at done
      obtain ⟨lhs, first, done⟩ := bind_ok done
      obtain ⟨rhs, second, done⟩ := bind_ok done
      obtain ⟨sum, inRange, done⟩ := bind_ok done
      obtain ⟨target, third, done⟩ := bind_ok done
      obtain ⟨same, fits⟩ := checked_ok _ _ _ _ _ inRange
      subst same
      cases done
      exact .add lhs rhs target op first second fits third
  | multiply =>
      rw [op] at done
      obtain ⟨lhs, first, done⟩ := bind_ok done
      obtain ⟨rhs, second, done⟩ := bind_ok done
      obtain ⟨product, inRange, done⟩ := bind_ok done
      obtain ⟨target, third, done⟩ := bind_ok done
      obtain ⟨same, fits⟩ := checked_ok _ _ _ _ _ inRange
      subst same
      cases done
      exact .multiply lhs rhs target op first second fits third
  | input =>
      rw [op] at done
      obtain ⟨target, first, done⟩ := bind_ok done
      cases done
      exact .input target op first
  | output =>
      rw [op] at done
      obtain ⟨word, first, done⟩ := bind_ok done
      cases done
      exact .output word op first
  | jumpIfTrue =>
      rw [op] at done
      exact jump_effect_executes machine instruction true effect op done
  | jumpIfFalse =>
      rw [op] at done
      exact jump_effect_executes machine instruction false effect op done
  | lessThan =>
      rw [op] at done
      obtain ⟨lhs, first, done⟩ := bind_ok done
      obtain ⟨rhs, second, done⟩ := bind_ok done
      obtain ⟨target, third, done⟩ := bind_ok done
      cases done
      exact .lessThan lhs rhs target op first second third
  | equals =>
      rw [op] at done
      obtain ⟨lhs, first, done⟩ := bind_ok done
      obtain ⟨rhs, second, done⟩ := bind_ok done
      obtain ⟨target, third, done⟩ := bind_ok done
      cases done
      exact .equals lhs rhs target op first second third
  | adjustBase =>
      rw [op] at done
      obtain ⟨offset, first, done⟩ := bind_ok done
      obtain ⟨base, inRange, done⟩ := bind_ok done
      obtain ⟨same, fits⟩ := checked_ok _ _ _ _ _ inRange
      subst same
      cases done
      exact .adjustBase offset op first fits
  | halt =>
      rw [op] at done
      cases done
      exact .halt op

/-- Only an input instruction waits for a word. -/
theorem awaits_input (machine : Machine) (instruction : Instruction) (target : Nat)
    (done : machine.effect instruction = .ok (.await target)) : instruction.op = .input := by
  cases effect_executes machine instruction _ done with
  | input _ op _ => exact op

/-! ## Failing -/

theorem report_cases (pointer : Nat) (fault : Fault) :
    fault.reportAt pointer = .trap ⟨pointer, fault⟩ ∨ fault.reportAt pointer = .unwritable := by
  unfold Fault.reportAt
  rcases fault.raised_cases with same | same
  · exact .inl (congrArg (Error.locatedAt pointer) same)
  · exact .inr (congrArg (Error.locatedAt pointer) same)

/-- How a fetch can end, one rule for each of its checks and one for the instruction it finds. -/
inductive Fetches (machine : Machine) : Except Error Instruction → Prop
  | limited (limit : Nat) (limited : machine.limit = some limit)
      (used : limit ≤ machine.registers.steps) :
      Fetches machine (.error (.fault (.stepLimit limit)))
  | tooLong (spare : ∀ limit, machine.limit = some limit → machine.registers.steps < limit)
      (long : Memory.countLimit < machine.memory.extent) : Fetches machine (.error .countTooLong)
  | outside (spare : ∀ limit, machine.limit = some limit → machine.registers.steps < limit)
      (counted : machine.memory.extent ≤ Memory.countLimit)
      (behind : machine.memory.extent ≤ machine.registers.ip) :
      Fetches machine
        (.error (Error.fault (.endOfMemory machine.registers.ip machine.memory.extent)).raised)
  | decoded (spare : ∀ limit, machine.limit = some limit → machine.registers.steps < limit)
      (counted : machine.memory.extent ≤ Memory.countLimit)
      (inside : machine.registers.ip < machine.memory.extent) :
      Fetches machine (Instruction.decode (machine.memory.get machine.registers.ip))

theorem fetch_fetches (machine : Machine) : machine.Fetches machine.fetch := by
  cases used : machine.limit.filter (· ≤ machine.registers.steps) with
  | some limit =>
      obtain ⟨limited, reached⟩ := Option.filter_eq_some_iff.mp used
      have stopped : machine.fetch = .error (.fault (.stepLimit limit)) := by
        unfold fetch
        simp only [used]
        rfl
      rw [stopped]
      exact .limited limit limited (of_decide_eq_true reached)
  | none =>
      have spare : ∀ limit, machine.limit = some limit → machine.registers.steps < limit := by
        intro limit limited
        have unused := Option.filter_eq_none_iff.mp used limit limited
        simpa using unused
      have going : machine.fetch =
          machine.memory.length >>= fun extent =>
            if extent ≤ machine.registers.ip then
              .error (Error.fault (.endOfMemory machine.registers.ip extent)).raised
            else Instruction.decode (machine.memory.get machine.registers.ip) := by
        unfold fetch
        simp only [used]
        cases machine.memory.length with
        | error error => rfl
        | ok extent =>
            change (if _ then _ else _) = (if _ then _ else _)
            split <;> rfl
      rw [going]
      by_cases long : Memory.countLimit < machine.memory.extent
      · rw [Memory.length, if_pos long]
        exact .tooLong spare long
      · have counted := Nat.not_lt.mp long
        rw [Memory.length, if_neg long]
        change machine.Fetches (if _ then _ else _)
        split
        case isTrue behind => exact .outside spare counted behind
        case isFalse inside => exact .decoded spare counted (Nat.not_le.mp inside)

theorem fetch_ok (machine : Machine) (instruction : Instruction)
    (fetched : machine.fetch = .ok instruction) :
    Instruction.decode (machine.memory.get machine.registers.ip) = .ok instruction ∧
      machine.registers.ip < machine.memory.extent ∧
      machine.memory.extent ≤ Memory.countLimit := by
  have fetches := fetch_fetches machine
  rw [fetched] at fetches
  generalize found : (Except.ok instruction : Except Error Instruction) = outcome at fetches
  cases fetches with
  | decoded spare counted inside => exact ⟨rfl, inside, counted⟩
  | _ => exact absurd found (by simp)

/-- A fetch fails with a fault of the instruction, or because memory is longer than a word can
count, or because the fault cannot be written. A limit that is exceeded is the machine's own. -/
theorem fetch_error (machine : Machine) (error : Error) (failed : machine.fetch = .error error) :
    (∃ fault, error = .fault fault ∧
      ∀ limit, fault = .stepLimit limit → machine.limit = some limit) ∨
      error = .countTooLong ∨ error = .unwritable := by
  have fetches := fetch_fetches machine
  rw [failed] at fetches
  generalize reported : (Except.error error : Except Error Instruction) = outcome at fetches
  cases fetches with
  | limited limit limited =>
      cases reported
      exact .inl ⟨_, rfl, fun other same => Fault.stepLimit.inj same ▸ limited⟩
  | tooLong => exact .inr (.inl (Except.error.inj reported))
  | outside =>
      rw [Except.error.inj reported]
      rcases Fault.raised_cases (.endOfMemory machine.registers.ip machine.memory.extent) with
        same | same
      · exact .inl ⟨_, same, fun limit other => absurd other (by simp)⟩
      · exact .inr (.inr same)
  | decoded =>
      rcases Instruction.refused_word _ error reported.symm with ⟨cause, rfl⟩ | rfl
      · exact .inl ⟨_, rfl, fun limit other => absurd other (by simp)⟩
      · exact .inr (.inr rfl)

theorem fetch_too_long_iff (machine : Machine) :
    machine.fetch = .error .countTooLong ↔
      Memory.countLimit < machine.memory.extent ∧
        ∀ limit, machine.limit = some limit → machine.registers.steps < limit := by
  have fetches := fetch_fetches machine
  generalize machine.fetch = outcome at fetches
  cases fetches with
  | limited limit limited used =>
      refine iff_of_false (by simp) ?_
      rintro ⟨_, spare⟩
      exact absurd (spare limit limited) (Nat.not_lt.mpr used)
  | tooLong spare long => exact iff_of_true rfl ⟨long, spare⟩
  | outside spare counted behind =>
      refine iff_of_false ?_ (fun long => absurd long.1 (Nat.not_lt.mpr counted))
      intro same
      rcases Fault.raised_cases (.endOfMemory machine.registers.ip machine.memory.extent) with
        raised | raised
      · exact absurd (raised.symm.trans (Except.error.inj same)) (by simp)
      · exact absurd (raised.symm.trans (Except.error.inj same)) (by simp)
  | decoded spare counted inside =>
      refine iff_of_false ?_ (fun long => absurd long.1 (Nat.not_lt.mpr counted))
      intro same
      rcases Instruction.refused_word _ _ same with ⟨cause, impossible⟩ | impossible
      · exact absurd impossible (by simp)
      · exact absurd impossible (by simp)

theorem bind_fails {Failure First Result : Type} {Cause : Failure → Prop}
    {first : Except Failure First} {next : First → Except Failure Result}
    (firstFails : ∀ failure, first = .error failure → Cause failure)
    (nextFails : ∀ value, first = .ok value →
      ∀ failure, next value = .error failure → Cause failure) :
    ∀ failure, (first >>= next) = .error failure → Cause failure := by
  intro failure failed
  cases first with
  | error cause =>
      have same : (Except.error cause : Except Failure Result) = .error failure := failed
      exact firstFails failure (congrArg Except.error (Except.error.inj same))
  | ok value => exact nextFails value rfl failure failed

/-- Whatever the mode, the value of a parameter is the word of some cell. -/
theorem value_is_cell (machine : Machine) (instruction : Instruction) (index : Nat) (word : Int)
    (done : machine.value instruction index = .ok word) :
    ∃ address, word = machine.memory.get address := by
  unfold value at done
  split at done
  · exact ⟨_, (Except.ok.inj done).symm⟩
  · cases address : natural (machine.operand index) with
    | error fault => simp [address, Except.map] at done
    | ok address' =>
        simp only [address, Except.map] at done
        exact ⟨_, (Except.ok.inj done).symm⟩
  · cases address : machine.relative (machine.operand index) with
    | error fault => simp [address, Except.map] at done
    | ok address' =>
        simp only [address, Except.map] at done
        exact ⟨_, (Except.ok.inj done).symm⟩

/-- A number that comes from memory, the relative base or the instruction word, or that was checked
to fit a word. -/
def Holds (machine : Machine) (instruction : Instruction) (number : Int) : Prop :=
  (∃ address, number = machine.memory.get address) ∨ number = machine.registers.base ∨
    number = instruction.word ∨ Word.Fits number

/-- A fault of an instruction that was fetched, and the numbers it is about. -/
structure Faults (machine : Machine) (instruction : Instruction) (fault : Fault) : Prop where
  operational : fault.Operational
  numbers : ∀ number ∈ fault.numbers, machine.Holds instruction number

section Faults

variable (machine : Machine) (instruction : Instruction)

theorem checked_fails (computation : Computation) (lhs rhs result : Int)
    (left : machine.Holds instruction lhs) (right : machine.Holds instruction rhs) (fault : Fault)
    (failed : checked computation lhs rhs result = .error fault) :
    machine.Faults instruction fault := by
  unfold checked at failed
  split at failed
  · exact absurd failed (by simp)
  · cases failed
    refine ⟨trivial, ?_⟩
    rintro number (_ | ⟨_, _ | ⟨_, impossible⟩⟩)
    · exact left
    · exact right
    · exact absurd impossible List.not_mem_nil

theorem natural_fails (address : Int) (held : machine.Holds instruction address) (fault : Fault)
    (failed : natural address = .error fault) : machine.Faults instruction fault := by
  unfold natural at failed
  split at failed
  · cases failed
    exact ⟨trivial, fun number member => List.mem_singleton.mp member ▸ held⟩
  · exact absurd failed (by simp)

theorem relative_fails (offset : Int) (held : machine.Holds instruction offset) :
    ∀ fault, machine.relative offset = .error fault → machine.Faults instruction fault := by
  apply bind_fails
  · exact checked_fails machine instruction _ _ _ _ held (.inr (.inl rfl))
  · intro address inRange
    obtain ⟨rfl, fits⟩ := checked_ok _ _ _ _ _ inRange
    exact natural_fails machine instruction _ (.inr (.inr (.inr fits)))

theorem target_fails (index : Nat) (fault : Fault)
    (failed : machine.target instruction index = .error fault) :
    machine.Faults instruction fault := by
  have held : machine.Holds instruction (machine.operand index) := .inl ⟨_, rfl⟩
  unfold target at failed
  dsimp only at failed
  split at failed
  · cases failed
    exact ⟨trivial, fun number member => .inr (.inr (.inl (List.mem_singleton.mp member)))⟩
  · exact natural_fails machine instruction _ held fault failed
  · exact relative_fails machine instruction _ held fault failed

theorem value_fails (index : Nat) (fault : Fault)
    (failed : machine.value instruction index = .error fault) :
    machine.Faults instruction fault := by
  have held : machine.Holds instruction (machine.operand index) := .inl ⟨_, rfl⟩
  unfold value at failed
  dsimp only at failed
  split at failed
  · exact absurd failed (by simp)
  · cases address : natural (machine.operand index) with
    | error cause =>
        rw [address] at failed
        cases failed
        exact natural_fails machine instruction _ held fault address
    | ok address' => simp [address, Except.map] at failed
  · cases address : machine.relative (machine.operand index) with
    | error cause =>
        rw [address] at failed
        cases failed
        exact relative_fails machine instruction _ held fault address
    | ok address' => simp [address, Except.map] at failed

theorem value_held (index : Nat) (word : Int) (done : machine.value instruction index = .ok word) :
    machine.Holds instruction word :=
  .inl (value_is_cell machine instruction index word done)

theorem jump_effect_fails (condition : Bool) :
    ∀ fault, machine.jumpEffect instruction condition = .error fault →
      machine.Faults instruction fault := by
  apply bind_fails (value_fails machine instruction 0)
  intro check _
  apply bind_fails (value_fails machine instruction 1)
  intro target second fault failed
  have held := value_held machine instruction 1 target second
  split at failed
  · split at failed
    · cases failed
      exact ⟨trivial, fun number member => List.mem_singleton.mp member ▸ held⟩
    · exact absurd failed (by simp [pure, Except.pure])
  · exact absurd failed (by simp [pure, Except.pure])

/-- A result that is known can only fail at its target. -/
theorem stored_fails (word : Int) :
    ∀ fault, (do return Effect.store (← machine.target instruction 2) word) = .error fault →
      machine.Faults instruction fault := by
  apply bind_fails (target_fails machine instruction 2)
  intro target _ fault impossible
  exact absurd impossible (by simp [pure, Except.pure])

theorem effect_fails (fault : Fault) (failed : machine.effect instruction = .error fault) :
    machine.Faults instruction fault := by
  have value := value_fails machine instruction
  have held := value_held machine instruction
  have store := stored_fails machine instruction
  have pure_ok : ∀ (effect : Effect) (fault : Fault),
      (pure effect : Except Fault Effect) = .error fault → machine.Faults instruction fault := by
    intro effect fault impossible
    exact absurd impossible (by simp [pure, Except.pure])
  unfold Machine.effect at failed
  revert fault
  cases instruction.op with
  | add =>
      apply bind_fails (value 0)
      intro lhs first
      apply bind_fails (value 1)
      intro rhs second
      apply bind_fails (checked_fails machine instruction _ _ _ _ (held 0 lhs first)
        (held 1 rhs second))
      exact fun sum _ => store sum
  | multiply =>
      apply bind_fails (value 0)
      intro lhs first
      apply bind_fails (value 1)
      intro rhs second
      apply bind_fails (checked_fails machine instruction _ _ _ _ (held 0 lhs first)
        (held 1 rhs second))
      exact fun product _ => store product
  | input =>
      exact bind_fails (target_fails machine instruction 0) fun address _ =>
        pure_ok (.await address)
  | output => exact bind_fails (value 0) fun word _ => pure_ok (.emit word)
  | jumpIfTrue => exact jump_effect_fails machine instruction true
  | jumpIfFalse => exact jump_effect_fails machine instruction false
  | lessThan =>
      apply bind_fails (value 0)
      intro lhs _
      apply bind_fails (value 1)
      exact fun rhs _ => store _
  | equals =>
      apply bind_fails (value 0)
      intro lhs _
      apply bind_fails (value 1)
      exact fun rhs _ => store _
  | adjustBase =>
      apply bind_fails (value 0)
      intro offset first
      apply bind_fails (checked_fails machine instruction _ _ _ _ (.inr (.inl rfl))
        (held 0 offset first))
      exact fun base _ => pure_ok (.rebase base)
  | halt => exact pure_ok .halt

end Faults

/-! ## Steps -/

/-- How a step can end: no instruction is fetched, or it cannot be noted, or it cannot be worked
out, or its effect is carried out. -/
inductive Steps (machine : Machine) : Except Error Event → Machine → Prop
  | unfetched (error : Error) (fetched : machine.fetch = .error error) :
      Steps machine (.error (error.locatedAt machine.registers.ip)) machine
  | unrecorded (instruction : Instruction) (fetched : machine.fetch = .ok instruction)
      (unrecordable : ¬ machine.Recordable instruction) :
      Steps machine (.error .unwritable) machine
  | faulted (instruction : Instruction) (fault : Fault)
      (fetched : machine.fetch = .ok instruction)
      (failed : machine.effect instruction = .error fault)
      (recordable : machine.Recordable instruction) :
      Steps machine (.error (fault.reportAt machine.registers.ip)) (machine.note instruction)
  | executed (instruction : Instruction) (effect : Effect)
      (fetched : machine.fetch = .ok instruction)
      (done : machine.effect instruction = .ok effect)
      (recordable : machine.Recordable instruction) :
      Steps machine (.ok effect.event) ((machine.note instruction).apply effect)

theorem step_steps (machine next : Machine) (outcome : Except Error Event)
    (stepped : machine.step = (outcome, next)) : machine.Steps outcome next := by
  rw [step_eq] at stepped
  cases fetched : machine.fetch with
  | error error =>
      simp only [fetched, Prod.mk.injEq] at stepped
      obtain ⟨rfl, rfl⟩ := stepped
      exact .unfetched error fetched
  | ok instruction =>
      simp only [fetched, note_effect] at stepped
      by_cases recordable : machine.Recordable instruction
      · rw [if_pos recordable] at stepped
        cases done : machine.effect instruction with
        | error fault =>
            simp only [done, Prod.mk.injEq] at stepped
            obtain ⟨rfl, rfl⟩ := stepped
            exact .faulted instruction fault fetched done recordable
        | ok effect =>
            simp only [done, Prod.mk.injEq] at stepped
            obtain ⟨rfl, rfl⟩ := stepped
            exact .executed instruction effect fetched done recordable
      · rw [if_neg recordable] at stepped
        cases stepped
        exact .unrecorded instruction fetched recordable

theorem steps_step (machine next : Machine) (outcome : Except Error Event)
    (steps : machine.Steps outcome next) : machine.step = (outcome, next) := by
  rw [step_eq]
  cases steps with
  | unfetched error fetched => rw [fetched]
  | unrecorded instruction fetched unrecordable => simp only [fetched, if_neg unrecordable]
  | faulted instruction fault fetched failed recordable =>
      simp only [fetched, if_pos recordable, note_effect, failed]
  | executed instruction effect fetched done recordable =>
      simp only [fetched, if_pos recordable, note_effect, done]

/-- A machine that asks for a word is at an input instruction, and has done no more than to note it.
-/
theorem request_waits (machine next : Machine) (target : Nat)
    (stepped : machine.step = (.ok (.needsInput target), next)) :
    ∃ instruction, machine.fetch = .ok instruction ∧ machine.Recordable instruction ∧
      machine.effect instruction = .ok (.await target) ∧ next = machine.note instruction := by
  generalize reported : (Except.ok (Event.needsInput target) : Except Error Event) = outcome
    at stepped
  cases step_steps machine next outcome stepped with
  | unfetched => exact absurd reported (by simp)
  | unrecorded => exact absurd reported (by simp)
  | faulted => exact absurd reported (by simp)
  | executed instruction effect fetched done recordable =>
      cases effect with
      | await waiting =>
          cases reported
          exact ⟨instruction, fetched, recordable, done, rfl⟩
      | _ => exact absurd reported (by simp [Effect.event])

/-- A step fails in the instruction at the pointer, or because memory is too long to be counted, or
because a number cannot be written. -/
theorem step_error (machine next : Machine) (error : Error)
    (stepped : machine.step = (.error error, next)) :
    (∃ fault, error = .trap ⟨machine.registers.ip, fault⟩) ∨
      (error = .countTooLong ∧ machine.fetch = .error .countTooLong) ∨ error = .unwritable := by
  generalize reported : (Except.error error : Except Error Event) = outcome at stepped
  cases step_steps machine next outcome stepped with
  | unfetched cause fetched =>
      cases reported
      rcases fetch_error machine cause fetched with ⟨fault, rfl, _⟩ | rfl | rfl
      · exact .inl ⟨fault, rfl⟩
      · exact .inr (.inl ⟨rfl, fetched⟩)
      · exact .inr (.inr rfl)
  | unrecorded instruction fetched unrecordable =>
      cases reported
      exact .inr (.inr rfl)
  | faulted instruction fault fetched failed =>
      cases reported
      rcases report_cases machine.registers.ip fault with trap | unwritable
      · exact .inl ⟨fault, trap⟩
      · exact .inr (.inr unwritable)
  | executed => exact absurd reported (by simp)

end Machine

end Intcode
