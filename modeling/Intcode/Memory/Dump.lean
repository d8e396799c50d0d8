import Intcode.Memory

/-!
# Memory dumps

A dump shows a stretch of memory in rows: the address of the row's first word in six digits, then
the words, each right-aligned in six columns. There is no dump with a number that has too many
digits to be written.
-/

set_option autoImplicit false

namespace Intcode.Memory

/-- How many multiples of `step` lie from zero up to, and not including, `length`; with a negative
step, down to it. -/
def rowCount (length step : Int) : Nat :=
  if 0 < step then ((length + step - 1) / step).toNat else ((-length - step - 1) / (-step)).toNat

/-- One row of `count` words, if all its numbers can be written. -/
def dumpRow (memory : Memory) (address : Int) (count : Nat) : Except Error String :=
  let words := (List.range count).map fun (index : Nat) => memory.get (address + index).toNat
  if Text.Writable address ∧ ∀ word ∈ words, Text.Writable word then
    .ok (Text.zeroPadded 6 address ++ "  " ++
      Text.joined " " (words.map fun word => Text.padLeft 6 (Text.decimal word)))
  else .error .unwritable

/-- The rows of `length` words from `start`, or of all words from `start` to the extent. A negative
start is refused unless no word is to be shown. -/
def dump (memory : Memory) (start : Int) (length? : Option Int) (perRow : Int) :
    Except Error String :=
  let length := length?.getD (max (memory.extent - start) 0)
  if perRow = 0 then .error .emptyRows
  else if start < 0 ∧ 0 < length ∧ 0 < perRow then
    .error (Error.fault (.negativeAddress start)).raised
  else do
    let rows ← (List.range (rowCount length perRow)).mapM fun (index : Nat) =>
      let offset := perRow * index
      memory.dumpRow (start + offset) (min perRow (length - offset)).toNat
    return Text.joined "\n" rows

end Intcode.Memory
