/-!
# Blank characters

The blank characters are the space separators, the line and paragraph separators, and the control
characters that separate lines, pages, files, groups, records or units. The zero-width space and
the byte-order mark are not blank.
-/

set_option autoImplicit false

namespace Intcode.Text

/-- Inclusive ranges of the code points of blank characters. -/
def blankRanges : List (Nat × Nat) :=
  [(0x09, 0x0D), (0x1C, 0x20), (0x85, 0x85), (0xA0, 0xA0), (0x1680, 0x1680), (0x2000, 0x200A),
    (0x2028, 0x2029), (0x202F, 0x202F), (0x205F, 0x205F), (0x3000, 0x3000)]

/-- Whether a code point lies in one of some inclusive ranges. -/
def inRanges (ranges : List (Nat × Nat)) (symbol : Char) : Bool :=
  ranges.any fun range => range.1 ≤ symbol.toNat && symbol.toNat ≤ range.2

def isBlank (symbol : Char) : Bool := inRanges blankRanges symbol

/-- Text without the symbols at either end that a predicate holds of. -/
def trimBy (drop : Char → Bool) (text : List Char) : List Char :=
  ((text.dropWhile drop).reverse.dropWhile drop).reverse

/-- Text without the blanks at either end. -/
def trim (text : List Char) : List Char := trimBy isBlank text

/-- The pieces of a text between occurrences of a separator: one more piece than separators, and
none of them holds one. -/
def pieces (separator : Char) (text : List Char) : List (List Char) :=
  text.foldr
    (fun symbol done =>
      if symbol = separator then [] :: done
      else match done with
        | piece :: others => (symbol :: piece) :: others
        | [] => [[symbol]])
    [[]]

end Intcode.Text
