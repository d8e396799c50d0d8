import Intcode.Text.Printable

/-!
# Quoted text

Messages show foreign text between quotes, with everything that would not show plainly written as
an escape. Single quotes are used unless the text holds a single quote and no double quote.
-/

set_option autoImplicit false

namespace Intcode.Text

def singleQuote : Char := '\x27'

def doubleQuote : Char := '\x22'

/-- The lower-case hexadecimal digits of a number, filled with zeros to a width. -/
def hexadecimal (width value : Nat) : List Char :=
  let digits := Nat.toDigits 16 value
  List.replicate (width - digits.length) '0' ++ digits

/-- One character of a quoted text. The backslash and the quote in use are escaped, tabs and line
ends have names, and what is not printable is given by its code point in the shortest of three
widths. -/
def quotedSymbol (quote symbol : Char) : List Char :=
  if symbol = quote ∨ symbol = '\\' then ['\\', symbol]
  else if symbol = '\t' then ['\\', 't']
  else if symbol = '\n' then ['\\', 'n']
  else if symbol = '\r' then ['\\', 'r']
  else if isPrintable symbol then [symbol]
  else if symbol.toNat < 0x100 then '\\' :: 'x' :: hexadecimal 2 symbol.toNat
  else if symbol.toNat < 0x10000 then '\\' :: 'u' :: hexadecimal 4 symbol.toNat
  else '\\' :: 'U' :: hexadecimal 8 symbol.toNat

/-- The quote that surrounds a text. -/
def quoteFor (text : List Char) : Char :=
  if text.contains singleQuote && !text.contains doubleQuote then doubleQuote else singleQuote

def quoted (text : String) : String :=
  let quote := quoteFor text.toList
  String.ofList (quote :: text.toList.flatMap (quotedSymbol quote) ++ [quote])

end Intcode.Text
