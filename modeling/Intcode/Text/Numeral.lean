import Intcode.Text.Blank
import Intcode.Text.Decimal
import Intcode.Text.Digit

/-!
# Reading integers

Two readers of decimal integers. The plain one takes an optional sign and ASCII digits and nothing
else. The lenient one also takes surrounding blanks, single underscores between digits, and the
decimal digits of every script. Neither converts a numeral of more than `digitLimit` digits, leading
zeros counted.
-/

set_option autoImplicit false

namespace Intcode.Text

/-- A sign and the decimal digits after it, the most significant first. -/
structure Numeral where
  negative : Bool
  digits : List Char
  deriving DecidableEq, Repr

namespace Numeral

/-- Whether a text starts with a minus sign, and the text behind its sign. -/
def splitSign : List Char → Bool × List Char
  | '-' :: rest => (true, rest)
  | '+' :: rest => (false, rest)
  | rest => (false, rest)

/-- An optional sign followed by one or more ASCII digits. -/
def plain? (text : List Char) : Option Numeral :=
  let (negative, digits) := splitSign text
  if !digits.isEmpty && digits.all Char.isDigit then some ⟨negative, digits⟩ else none

def value (numeral : Numeral) : Int :=
  let magnitude : Int := Nat.ofDigitChars 10 numeral.digits 0
  if numeral.negative then -magnitude else magnitude

/-- The ASCII form of a character inside a lenient numeral: digits of all scripts become ASCII
digits and blanks beyond ASCII become spaces. -/
def foldSymbol? (symbol : Char) : Option Char :=
  if symbol.toNat < 0x7F then some symbol
  else if isBlank symbol then some ' '
  else (digitValue? symbol).map Nat.digitChar

/-- The blanks that may surround a lenient numeral, after folding. -/
def isMargin (symbol : Char) : Bool :=
  symbol = ' ' || (0x09 ≤ symbol.toNat && symbol.toNat ≤ 0x0D)

/-- A plain numeral in digits of any script, with single underscores allowed between digits and
blanks around it. -/
def lenient? (text : List Char) : Option Numeral := do
  let folded ← text.mapM foldSymbol?
  let (negative, body) := splitSign (trimBy isMargin folded)
  let groups := pieces '_' body
  if groups.all fun group => !group.isEmpty && group.all Char.isDigit then
    some ⟨negative, groups.flatten⟩
  else none

end Numeral

/-- The integer a lenient numeral of at most `digitLimit` digits stands for. -/
def integer? (text : List Char) : Option Int := do
  let numeral ← Numeral.lenient? text
  if numeral.digits.length ≤ digitLimit then some numeral.value else none

end Intcode.Text
