import Intcode.Text.Quoted
import Intcode.Text.Decimal

/-!
# Text from bytes

UTF-8 is decoded strictly: overlong forms, surrogates and code points above U+10FFFF are refused.
A refusal names the bytes that form the longest beginning of a character before the decoding breaks
off, and why it does.
-/

set_option autoImplicit false

namespace Intcode.Text.Utf8

inductive Reason where
  | invalidStart
  | invalidContinuation
  | unexpectedEnd
  deriving DecidableEq, Repr

def Reason.text : Reason → String
  | .invalidStart => "invalid start byte"
  | .invalidContinuation => "invalid continuation byte"
  | .unexpectedEnd => "unexpected end of data"

/-- Bytes that are not UTF-8: the offset and value of the first of them, and their number. -/
structure Fault where
  offset : Nat
  byte : UInt8
  count : Nat
  reason : Reason
  deriving DecidableEq, Repr

def Fault.message (fault : Fault) : String :=
  let place :=
    if fault.count ≤ 1 then
      "byte 0x" ++ String.ofList (hexadecimal 2 fault.byte.toNat) ++ " in position " ++
        decimal fault.offset
    else
      "bytes in position " ++ decimal fault.offset ++ "-" ++
        decimal (fault.offset + fault.count - 1 : Nat)
  "'utf-8' codec can't decode " ++ place ++ ": " ++ fault.reason.text

/-- What the first byte of a character says: its share of the code point, the number of bytes that
follow, and the range of the first of those. -/
structure Lead where
  bits : Nat
  tails : Nat
  low : Nat
  high : Nat

def lead? (byte : Nat) : Option Lead :=
  if byte < 0x80 then some ⟨byte, 0, 0x80, 0xBF⟩
  else if byte < 0xC2 then none
  else if byte < 0xE0 then some ⟨byte - 0xC0, 1, 0x80, 0xBF⟩
  else if byte = 0xE0 then some ⟨0, 2, 0xA0, 0xBF⟩
  else if byte = 0xED then some ⟨0xD, 2, 0x80, 0x9F⟩
  else if byte < 0xF0 then some ⟨byte - 0xE0, 2, 0x80, 0xBF⟩
  else if byte = 0xF0 then some ⟨0, 3, 0x90, 0xBF⟩
  else if byte < 0xF4 then some ⟨byte - 0xF0, 3, 0x80, 0xBF⟩
  else if byte = 0xF4 then some ⟨4, 3, 0x80, 0x8F⟩
  else none

/-- The code point after `count` more continuation bytes, the first of which lies between `low` and
`high`; otherwise the reason and the number of bytes taken before it. -/
def continued : (count low high taken value : Nat) → List UInt8 → Except (Reason × Nat) Nat
  | 0, _, _, _, value, _ => .ok value
  | _ + 1, _, _, taken, _, [] => .error (.unexpectedEnd, taken)
  | count + 1, low, high, taken, value, byte :: rest =>
      if low ≤ byte.toNat ∧ byte.toNat ≤ high then
        continued count 0x80 0xBF (taken + 1) (value * 64 + (byte.toNat - 0x80)) rest
      else .error (.invalidContinuation, taken)

def decodeFrom (offset : Nat) (done : List Char) (bytes : List UInt8) :
    Except Fault (List Char) :=
  match bytes with
  | [] => .ok done.reverse
  | byte :: rest =>
      match lead? byte.toNat with
      | none => .error ⟨offset, byte, 1, .invalidStart⟩
      | some lead =>
          match continued lead.tails lead.low lead.high 1 lead.bits rest with
          | .error (reason, taken) => .error ⟨offset, byte, taken, reason⟩
          | .ok value =>
              decodeFrom (offset + 1 + lead.tails) (Char.ofNat value :: done)
                (rest.drop lead.tails)
termination_by bytes.length
decreasing_by simp only [List.length_cons, List.length_drop]; omega

def decode (bytes : List UInt8) : Except Fault (List Char) := decodeFrom 0 [] bytes

end Intcode.Text.Utf8
