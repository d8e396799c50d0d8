import Intcode.Program
import Intcode.Text.Numeral

/-!
# Program text

Program text is a list of decimal words separated by commas, with blanks allowed around each word.
The first piece that is no word decides the error.
-/

set_option autoImplicit false

namespace Intcode.Program

/-- Reads one piece of program text. The digit limit is checked before the range. -/
def readWord (index : Nat) (token : List Char) : Except Error Int :=
  match Text.Numeral.plain? token with
  | none => .error (.malformedWord (String.ofList token) index)
  | some numeral =>
      if Text.digitLimit < numeral.digits.length then
        .error (.tooManyDigits numeral.digits.length)
      else if Word.Fits numeral.value then .ok numeral.value
      else .error (.malformedWord (String.ofList token) index)

/-- The pieces of a program text, without the blanks around them. -/
def tokens (text : List Char) : List (List Char) :=
  (Text.pieces ',' (Text.trim text)).map Text.trim

def parse (text : String) : Except Error (List Int) :=
  (tokens text.toList).zipIdx.mapM fun (token, index) => readWord index token

def ofText (text : String) : Except Error Program :=
  (parse text).map fun words => { words }

end Intcode.Program
