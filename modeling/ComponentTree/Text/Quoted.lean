import ComponentTree.Text.CodePoint
import ComponentTree.Text.Digits
import ComponentTree.Text.Printable

/-!
# Quoted text

The way a text is shown inside the description of a node or of a value: between single quotes, or
between double quotes when it holds a single quote and no double one, with backslash escapes for the
backslash, the quote in use and every code point that is not printable.
-/

namespace ComponentTree.Text

/-- The shortest of the three numeric escapes that has room for the number of a code point. -/
def numericEscape (n : Nat) : List Char :=
  if n < 0x100 then '\\' :: 'x' :: hexDigits 2 n
  else if n < 0x10000 then '\\' :: 'u' :: hexDigits 4 n
  else '\\' :: 'U' :: hexDigits 8 n

/-- One character between quotes of the given kind. -/
def quoteChar (quote c : Char) : List Char :=
  if c = quote || c = '\\' then ['\\', c]
  else if c = '\t' then ['\\', 't']
  else if c = '\n' then ['\\', 'n']
  else if c = '\r' then ['\\', 'r']
  else if isPrintable c then [c]
  else numericEscape c.toNat

/-- One code point between quotes. No half is printable. -/
def quotePoint (quote : Char) : CodePoint → List Char
  | .char c => quoteChar quote c
  | .half n => numericEscape (CodePoint.half n).number

def quoteFor (text : Points) : Char :=
  if text.contains (.char '\'') && !text.contains (.char '"') then '"' else '\''

/-- A text between quotes. -/
def quoted (text : Points) : List Char :=
  let quote := quoteFor text
  quote :: text.flatMap (quotePoint quote) ++ [quote]

end ComponentTree.Text
