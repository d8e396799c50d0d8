/-!
# Decimal text of integers, and columns

Integers are written in base ten with a leading minus sign when negative and no leading zeros.
A column is text brought to a least width: numbers in a zero-filled column keep their sign in
front of the zeros. Text that is wider than its column stays whole.
-/

set_option autoImplicit false

namespace Intcode.Text

/-- The shortest decimal text of an integer. -/
def decimal (value : Int) : String :=
  if value < 0 then "-" ++ value.natAbs.repr else value.natAbs.repr

/-- The most digits that are read or written. -/
def digitLimit : Nat := 4300

/-- The integers of at most so many digits. -/
def Writable (value : Int) : Prop := value.natAbs < Nat.pow 10 digitLimit

theorem lt_power_of_short {value : Nat} (short : value < 18446744073709551616) (digits : Nat)
    (enough : 20 ≤ digits) : value < Nat.pow 10 digits := by
  have low : 18446744073709551616 ≤ 10 ^ 20 := by decide
  have high : 10 ^ 20 ≤ 10 ^ digits := Nat.pow_le_pow_right (by decide) enough
  exact Nat.lt_of_lt_of_le short (Nat.le_trans low high)

theorem writable_of_short {value : Int} (short : value.natAbs < 18446744073709551616) :
    Writable value :=
  lt_power_of_short short digitLimit (by decide)

theorem Writable.of_le {value longer : Int} (shorter : value.natAbs ≤ longer.natAbs)
    (writable : Writable longer) : Writable value :=
  Nat.lt_of_le_of_lt shorter writable

-- Short numbers are found writable without working out the limit.
instance (value : Int) : Decidable (Writable value) :=
  if short : value.natAbs < 18446744073709551616 then .isTrue (writable_of_short short)
  else Nat.decLt value.natAbs (Nat.pow 10 digitLimit)

/-- Decimal text that always shows its sign; zero is positive. -/
def signedDecimal (value : Int) : String :=
  if value < 0 then decimal value else "+" ++ decimal value

def repeated (count : Nat) (symbol : Char) : String :=
  String.ofList (List.replicate count symbol)

/-- Text set against the left edge of a column. -/
def padRight (width : Nat) (text : String) : String :=
  text ++ repeated (width - text.length) ' '

/-- Text set against the right edge of a column. -/
def padLeft (width : Nat) (text : String) : String :=
  repeated (width - text.length) ' ' ++ text

/-- Decimal text filled with zeros between the sign and the digits; the width counts the sign. -/
def zeroPadded (width : Nat) (value : Int) : String :=
  let sign := if value < 0 then "-" else ""
  let digits := value.natAbs.repr
  sign ++ repeated (width - sign.length - digits.length) '0' ++ digits

/-- Texts one after the other with a separator between neighbours. -/
def joined (separator : String) (texts : List String) : String :=
  separator.intercalate texts

end Intcode.Text
