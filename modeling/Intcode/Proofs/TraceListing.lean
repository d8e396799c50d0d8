import Intcode.Proofs.InstructionTable
import Intcode.Proofs.LinearSweep
import Intcode.Proofs.TraceAccount

/-!
# The trace shows what a listing shows

A step that is traced reads the words of its instruction one by one from memory, array or map; a
listing takes them from one list of all words up to the extent and has its own rule for what lies
behind. In every state that a machine can reach the two see the same instruction with the same
operands at the pointer, as far as there is room for a list of all words. Where an operand has too
many digits to be written there is neither a trace line nor a first line of the listing.
-/

set_option autoImplicit false

namespace Intcode

namespace Memory

/-- In the list of all words, an address holds what is read there; behind the list that is zero. -/
theorem word_at_address (memory : Memory) (laidOut : memory.LaidOut) (address : Nat) :
    (Listing.wordAt? memory.words.toList address).getD 0 = memory.get address := by
  rw [Listing.word_at_natural _ _ (by omega), Int.toNat_natCast, Array.getElem?_toList]
  by_cases inside : address < memory.extent
  · rw [words_get memory laidOut address inside]
    rfl
  · have beyond := Nat.not_lt.mp inside
    rw [get_beyond memory laidOut address beyond,
      Array.getElem?_eq_none (by rw [words_size memory laidOut]; exact beyond)]
    rfl

end Memory

namespace Machine

theorem operands_at_pointer (machine : Machine) (laidOut : machine.memory.LaidOut) (count : Nat) :
    Listing.operandsAt machine.memory.words.toList (machine.registers.ip + 1) count =
      (List.range count).map machine.operand := by
  unfold Listing.operandsAt
  apply List.map_congr_left
  intro index _
  have address : (machine.registers.ip : Int) + 1 + index =
      (machine.registers.ip + 1 + index : Nat) := by omega
  rw [address, Memory.word_at_address machine.memory laidOut]
  rfl

/-- The line of the instruction that is fetched. -/
def lineAtPointer (machine : Machine) (instruction : Instruction) : Listing.Line :=
  ⟨machine.registers.ip, .code instruction (machine.entry instruction).operands⟩

section Pointer

variable (machine : Machine) (laidOut : machine.memory.LaidOut) (instruction : Instruction)
  (fetched : machine.fetch = .ok instruction)

include laidOut fetched

/-- The words from the pointer on begin with the one that is fetched. -/
theorem words_at_pointer :
    ∃ rest, machine.memory.words.toList.drop machine.registers.ip =
        machine.memory.get machine.registers.ip :: rest ∧
      Listing.operands instruction.modes.length rest = (machine.entry instruction).operands := by
  obtain ⟨_, inside, _⟩ := fetch_ok machine instruction fetched
  have here := Memory.words_get machine.memory laidOut machine.registers.ip inside
  rw [← Array.getElem?_toList] at here
  obtain ⟨before, same⟩ := List.getElem?_eq_some_iff.mp here
  have ahead := Listing.ahead_natural machine.memory.words.toList machine.registers.ip (by omega)
  rw [Int.toNat_natCast, List.drop_eq_getElem_cons before, same] at ahead
  refine ⟨_, by rw [List.drop_eq_getElem_cons before, same], ?_⟩
  exact ((ahead.drop 1).operands instruction.modes.length).trans
    (operands_at_pointer machine laidOut instruction.modes.length)

/-- A listing of memory from the pointer on begins with the instruction that is fetched, if its
operands can be written, and otherwise does not begin. -/
theorem listing_at_pointer :
    ((machine.entry instruction).Legible →
      (Listing.output machine.memory.words.toList machine.registers.ip).lines.head? =
        some (machine.lineAtPointer instruction)) ∧
      (¬ (machine.entry instruction).Legible →
        Listing.output machine.memory.words.toList machine.registers.ip =
          .failed .unwritable) := by
  obtain ⟨rest, split, operands⟩ := words_at_pointer machine laidOut instruction fetched
  have decoded := (fetch_ok machine instruction fetched).1
  have swept : Listing.output machine.memory.words.toList machine.registers.ip =
      Listing.sweep machine.registers.ip (machine.memory.get machine.registers.ip :: rest) := by
    rw [Listing.output, if_pos (by omega), Int.toNat_natCast, split]
  have first : Listing.lineAt machine.registers.ip (machine.memory.get machine.registers.ip) rest =
      if (machine.entry instruction).Legible then .ok (machine.lineAtPointer instruction)
      else .error .unwritable := by
    rw [Listing.lineAt, decoded]
    dsimp only
    rw [operands]
    rfl
  rw [swept]
  constructor
  · intro legible
    rw [if_pos legible] at first
    exact Listing.sweep_first _ _ _ _ first
  · intro illegible
    rw [if_neg illegible] at first
    exact Listing.sweep_blocked _ _ _ _ first

end Pointer

theorem step_notes_entry (machine : Machine) (instruction : Instruction)
    (tracing : machine.tracing = true) (fetched : machine.fetch = .ok instruction)
    (recordable : machine.Recordable instruction) :
    if instruction.op = .input then
      machine.step.2.pending = some (machine.entry instruction) ∧
        machine.step.2.trace = machine.trace
    else
      machine.step.2.trace = machine.trace.push (machine.entry instruction) := by
  have onlyOne : ∀ other, machine.fetch = .ok other → machine.Recordable other := by
    intro other same
    cases fetched.symm.trans same
    exact recordable
  obtain ⟨_, added, held⟩ := step_trace machine tracing onlyOne
  rw [notes, fetched] at added
  dsimp only at added
  split
  case isTrue input =>
    rw [if_pos input, List.append_nil, Array.toList_inj] at added
    exact ⟨held instruction fetched input, added⟩
  case isFalse other =>
    rw [if_neg other, ← Array.toList_push, Array.toList_inj] at added
    exact added

/-- With the trace on, a step that fetches an instruction whose operands can be written forms one
entry, which is held back for an input instruction and recorded otherwise. In every state that a
machine can reach, its line is the pointer, the text of the first line of a listing of a copy of
memory from the pointer on, and the registers, whatever room the copy is made in. Where an operand
cannot be written, the step fails for that, and so does the listing before its first line. A copy is
refused only if there is no room for the zeros behind the array. -/
theorem trace_shows_the_listing (image : List Int) (options : Options) (machine : Machine)
    (reachable : machine.Reachable image options) (tracing : machine.tracing = true)
    (instruction : Instruction) (fetched : machine.fetch = .ok instruction) :
    ((∀ operand ∈ (List.range instruction.modes.length).map machine.operand,
        Text.Writable operand) →
      ∃ entry line,
        (if instruction.op = .input then
          machine.step.2.pending = some entry ∧ machine.step.2.trace = machine.trace
        else machine.step.2.trace = machine.trace.push entry) ∧
        entry.text = Text.zeroPadded 6 machine.registers.ip ++ ": " ++
          Text.padRight 32 line.text ++
          " IP=" ++ Text.padRight 6 (Text.decimal machine.registers.ip) ++
          " RB=" ++ Text.padRight 6 (Text.decimal machine.registers.base) ++
          " STEPS=" ++ Text.decimal machine.registers.steps ∧
        line.address = (machine.registers.ip : Int) ∧
        ∀ room words, machine.memory.snapshot room = .ok words →
          (Listing.output words.toList machine.registers.ip).lines.head? = some line) ∧
      ((∃ operand ∈ (List.range instruction.modes.length).map machine.operand,
          ¬ Text.Writable operand) →
        machine.step = (.error .unwritable, machine) ∧
          ∀ room words, machine.memory.snapshot room = .ok words →
            Listing.output words.toList machine.registers.ip = .failed .unwritable) ∧
      ∀ room, machine.memory.snapshot room =
        if machine.memory.extent - machine.memory.dense.size ≤ min room Memory.pieceLimit
        then .ok machine.memory.words else .error .noRoom := by
  have counted := (fetch_ok machine instruction fetched).2.2
  have copies (room : Nat) := Memory.snapshot_of_counted room machine.memory counted
  have copied (room : Nat) (words : Array Int) (copy : machine.memory.snapshot room = .ok words) :
      words = machine.memory.words := by
    rw [copies room] at copy
    split at copy
    · exact (Except.ok.inj copy).symm
    · exact absurd copy (by simp)
  obtain ⟨shown, blocked⟩ := listing_at_pointer machine reachable.laid_out instruction fetched
  refine ⟨?_, ?_, copies⟩
  · intro legible
    refine ⟨machine.entry instruction, machine.lineAtPointer instruction,
      step_notes_entry machine instruction tracing fetched (fun _ => legible),
      machine.entry_text instruction, rfl, ?_⟩
    intro room words copy
    rw [copied room words copy]
    exact shown legible
  · rintro ⟨operand, member, long⟩
    have illegible : ¬ (machine.entry instruction).Legible := fun legible =>
      long (legible operand member)
    refine ⟨?_, ?_⟩
    · apply steps_step
      exact .unrecorded instruction fetched fun recordable => illegible (recordable tracing)
    · intro room words copy
      rw [copied room words copy]
      exact blocked illegible

/-- The program stores an output instruction far behind its image and jumps there. The operand of
that instruction lies behind all that was ever written. -/
theorem far_output_is_listed :
    let machine := (boot [1101, 20, 84, 70000, 1105, 1, 70000] { trace := true }).step.2.step.2
    machine.memory.extent = 70001 ∧
      (machine.step.2.trace.back?.map TraceEntry.text =
        some "070000: OUT  #0                          IP=70000  RB=0      STEPS=2") ∧
      ∃ entry line words, machine.step.2.trace = machine.trace.push entry ∧
        entry.text = Text.zeroPadded 6 70000 ++ ": " ++ Text.padRight 32 line.text ++
          " IP=" ++ Text.padRight 6 (Text.decimal 70000) ++
          " RB=" ++ Text.padRight 6 (Text.decimal 0) ++ " STEPS=" ++ Text.decimal 2 ∧
        machine.memory.snapshot 69994 = .ok words ∧
        (Listing.output words.toList 70000).lines.head? = some line := by
  intro machine
  have reachable : machine.Reachable [1101, 20, 84, 70000, 1105, 1, 70000] { trace := true } :=
    .perform 0 _ .step (.perform 0 _ .step .boot)
  have fetched : machine.fetch = .ok ⟨.output, [.immediate], 104⟩ := by decide
  obtain ⟨written, _, copies⟩ :=
    trace_shows_the_listing _ _ machine reachable (by decide) _ fetched
  obtain ⟨entry, line, noted, text, _, listed⟩ := written (by decide)
  have copied : machine.memory.snapshot 69994 = .ok machine.memory.words := by
    rw [copies 69994, if_pos (by decide)]
  exact ⟨by decide, by decide +kernel, entry, line, _, noted, text, copied, listed _ _ copied⟩

/-- The program stores a word so far behind its image that there is no room for a copy of all words,
and goes on with its last instruction. -/
theorem far_store_leaves_no_copy :
    let machine := (boot [1101, 1, 1, 4611686018427387904, 99] { trace := true }).step.2
    machine.Reachable [1101, 1, 1, 4611686018427387904, 99] { trace := true } ∧
      machine.tracing = true ∧ machine.fetch = .ok ⟨.halt, [], 99⟩ ∧
      ∀ room words, machine.memory.snapshot room ≠ .ok words := by
  intro machine
  refine ⟨.perform 0 _ .step .boot, by decide, by decide, ?_⟩
  intro room words
  have counted : machine.memory.extent ≤ Memory.countLimit := by decide
  have far : Memory.pieceLimit < machine.memory.extent - machine.memory.dense.size := by decide
  rw [Memory.snapshot_of_counted room machine.memory counted, if_neg (by omega)]
  simp

end Machine

end Intcode
