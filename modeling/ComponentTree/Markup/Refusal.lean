import ComponentTree.Decimal.Basic
import ComponentTree.Text.Quoted

/-!
# Texts that are no HTML

Nearly every text can be read as HTML. The exceptions are marked sections of kinds that do not
exist, and characters whose numbers are written with too many digits.
-/

namespace ComponentTree.Markup

/-- Why a text is refused. -/
inductive Refusal where
  /-- A marked section of a kind that does not exist, with the name of the kind as it is written. -/
  | unknownSection (name : List Char)
  /-- A marked section that starts with no name, with the text there. -/
  | unnamedSection (start : List Char)
  /-- A number of a character with too many decimal digits. -/
  | tooManyDigits (count : Nat)
  deriving DecidableEq, Repr

namespace Refusal

/-- The most decimal digits that a number may have, zeros at its start included. -/
def maxDigits : Nat := 4300

/-- The report of a text that cannot be cut into tokens. -/
def rejected (reason : String) : String :=
  "The markup you provided was rejected by the parser. Trying a different parser or a different "
    ++ "encoding may help.\n\nOriginal exception(s) from parser:\n AssertionError: " ++ reason

def message : Refusal → String
  | .unknownSection name =>
    rejected ("unknown status keyword " ++ String.ofList (Text.quoted (.ofChars name))
      ++ " in marked section")
  | .unnamedSection start =>
    rejected ("expected name token at " ++ String.ofList (Text.quoted (.ofChars start)))
  | .tooManyDigits count =>
    "Exceeds the limit (" ++ String.ofList (integerText maxDigits)
      ++ " digits) for integer string conversion: value has " ++ String.ofList (integerText count)
      ++ " digits; use sys.set_int_max_str_digits() to increase the limit"

end Refusal

end ComponentTree.Markup
