import Intcode.Text.Decimal
import Intcode.Text.Numeral
import Intcode.Text.Quoted

/-!
# Values on the command line

Patches are written `ADDR=VALUE`, word lists as integers separated by commas. Integers are read
leniently and without a bound on their size.
-/

set_option autoImplicit false

namespace Intcode.Command

/-- A text that is not the value it should be. -/
inductive ValueFault where
  /-- A patch without an equals sign. -/
  | noEquals (text : String)
  | patchNumbers (text : String)
  | wordList (text : String)
  | number (text : String)
  deriving DecidableEq, Repr

def ValueFault.message : ValueFault → String
  | noEquals text => "expected ADDR=VALUE, got " ++ Text.quoted text
  | patchNumbers text => "expected integers in " ++ Text.quoted text
  | wordList text => "expected comma-separated integers, got " ++ Text.quoted text
  | number text => "invalid int value: " ++ Text.quoted text

structure Patch where
  address : Int
  value : Int
  deriving DecidableEq, Repr

/-- The text before the first equals sign and the text after it. -/
def splitEquals (text : List Char) : Option (List Char × List Char) :=
  match text.span (· ≠ '=') with
  | (before, _ :: after) => some (before, after)
  | (_, []) => none

def Patch.ofText (text : String) : Except ValueFault Patch :=
  match splitEquals text.toList with
  | none => .error (.noEquals text)
  | some (address, value) =>
      match Text.integer? address, Text.integer? value with
      | some address, some value => .ok ⟨address, value⟩
      | _, _ => .error (.patchNumbers text)

/-- Integers separated by commas; pieces that hold only blanks are left out. -/
def wordsOfText (text : String) : Except ValueFault (List Int) :=
  let items := (Text.pieces ',' text.toList).filter fun piece => !piece.all Text.isBlank
  match items.mapM Text.integer? with
  | some words => .ok words
  | none => .error (.wordList text)

def numberOfText (text : String) : Except ValueFault Int :=
  match Text.integer? text.toList with
  | some value => .ok value
  | none => .error (.number text)

end Intcode.Command
