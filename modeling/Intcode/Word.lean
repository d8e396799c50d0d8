import Intcode.Text.Decimal

/-!
# Machine words

A word is an integer. Memory images may hold any integer at all; everything the machine computes
itself, and every input it accepts, is checked to fit a signed 64-bit word and is refused, never
wrapped, when it does not.
-/

set_option autoImplicit false

namespace Intcode

abbrev Word := Int

namespace Word

def bits : Nat := 64

def least : Int := -9223372036854775808

def greatest : Int := 9223372036854775807

/-- The integers a signed 64-bit word can hold. -/
def Fits (value : Int) : Prop := least ≤ value ∧ value ≤ greatest

instance (value : Int) : Decidable (Fits value) :=
  inferInstanceAs (Decidable (least ≤ value ∧ value ≤ greatest))

/-- Whatever fits a word can be written. -/
theorem Fits.writable {value : Int} (fits : Fits value) : Text.Writable value := by
  obtain ⟨low, high⟩ := fits
  unfold least at low
  unfold greatest at high
  exact Text.writable_of_short (by omega)

end Word

end Intcode
