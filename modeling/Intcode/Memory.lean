import Std.Data.TreeMap.Basic
import Intcode.Error

/-!
# Memory

Word-addressed memory that starts at address zero and has no end: what was never written reads as
zero. The image, and what is written close behind it, lies in an array; a word written further than
`gap` behind the array goes to a map keyed by address, and moves into the array once the array grows
over it. The extent is one more than the highest address that the image holds or that was written.
-/

set_option autoImplicit false

namespace Intcode

structure Memory where
  dense : Array Int
  sparse : Std.TreeMap Nat Int
  imageSize : Nat
  extent : Nat
  /-- How far behind the array a write still extends it. -/
  gap : Int

namespace Memory

def defaultGap : Int := 65536

/-- The greatest number of words that a word can count. -/
def countLimit : Nat := 9223372036854775807

/-- The greatest number of words that one piece can have, however much room there is. -/
def pieceLimit : Nat := 1152921504606846975

def ofImageWithGap (gap : Int) (image : List Int) : Memory :=
  { dense := image.toArray
    sparse := ∅
    imageSize := image.length
    extent := image.length
    gap }

def ofImage (image : List Int) : Memory := ofImageWithGap defaultGap image

/-- The word at an address. -/
def get (memory : Memory) (address : Nat) : Int :=
  if inside : address < memory.dense.size then memory.dense[address]
  else memory.sparse.getD address 0

/-- Whether a new piece of so many words can be made where there is room for `room` words. -/
def reserve (room count : Nat) : Except Error Unit :=
  if countLimit < count then .error .countTooLong
  else if min room pieceLimit < count then .error .noRoom
  else .ok ()

/-- Whether a write at an address extends the array. -/
def Grows (memory : Memory) (address : Nat) : Prop :=
  memory.dense.size ≤ address ∧ (address : Int) - memory.dense.size < memory.gap

instance (memory : Memory) (address : Nat) : Decidable (memory.Grows address) :=
  inferInstanceAs (Decidable (_ ∧ _))

/-- Extends the array with zeros and then `value` at `address`, and moves the words of the map that
the array now covers into it. A word that the map already held at `address` itself moves too and
takes the place of `value`. -/
def grow (memory : Memory) (address : Nat) (value : Int) : Memory :=
  let grown := (memory.dense ++ Array.replicate (address - memory.dense.size) 0).push value
  { memory with
    dense := memory.sparse.foldl (fun dense key word => dense.setIfInBounds key word) grown
    sparse := memory.sparse.filter fun key _ => address < key }

/-- Writes a word and brings the extent up to its address. -/
def set (memory : Memory) (address : Nat) (value : Int) : Memory :=
  let written :=
    if address < memory.dense.size then
      { memory with dense := memory.dense.setIfInBounds address value }
    else if memory.Grows address then memory.grow address value
    else { memory with sparse := memory.sparse.insert address value }
  { written with extent := max written.extent (address + 1) }

/-- Reads at any integer; negative addresses are refused. -/
def read (memory : Memory) (address : Int) : Except Error Int :=
  if address < 0 then .error (Error.fault (.negativeAddress address)).raised
  else .ok (memory.get address.toNat)

/-- Writes at any integer; negative addresses are refused, and so is growth for which there is no
room. The room is what the host has left, so it is a parameter; no write asks for more than the
gap. -/
def write (room : Nat) (memory : Memory) (address value : Int) : Except Error Memory :=
  if address < 0 then .error (Error.fault (.negativeAddress address)).raised
  else if memory.Grows address.toNat then do
    reserve room (address.toNat - memory.dense.size + 1)
    return memory.set address.toNat value
  else .ok (memory.set address.toNat value)

/-- Replaces a word of the image; addresses outside the image are refused. -/
def patch (memory : Memory) (address value : Int) : Except Error Memory :=
  if address < 0 ∨ (memory.imageSize : Int) ≤ address then
    .error (Error.outsideImage address memory.imageSize).raised
  else .ok { memory with dense := memory.dense.setIfInBounds address.toNat value }

/-- The extent, unless it is more than a word can count. -/
def length (memory : Memory) : Except Error Nat :=
  if countLimit < memory.extent then .error .countTooLong else .ok memory.extent

/-- All words up to the extent: the array, filled up with zeros, and the words of the map laid over
them. -/
def words (memory : Memory) : Array Int :=
  if memory.dense.size < memory.extent then
    memory.sparse.foldl (fun words address word => words.setIfInBounds address word)
      (memory.dense ++ Array.replicate (memory.extent - memory.dense.size) 0)
  else memory.dense

/-- A copy of all words, if there is room for those behind the array. -/
def snapshot (room : Nat) (memory : Memory) : Except Error (Array Int) := do
  reserve room (memory.extent - memory.dense.size)
  return memory.words

end Memory

end Intcode
