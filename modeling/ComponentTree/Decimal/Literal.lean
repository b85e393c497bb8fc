import ComponentTree.Decimal.Binary64

/-!
# Number literals

A literal is an optional minus sign, an integer part without superfluous zeros, an optional fraction
and an optional exponent. One without fraction and exponent denotes an integer.
-/

namespace ComponentTree

/-- A number literal, taken apart. -/
structure NumberLiteral where
  negative : Bool
  /-- The digits before the point. -/
  whole : List Char
  /-- The digits after the point, none if there is no point. -/
  fraction : List Char
  /-- The exponent, with its sign, if one is written. -/
  exponent : Option Int

namespace NumberLiteral

def isInteger (l : NumberLiteral) : Bool := l.fraction.isEmpty && l.exponent.isNone

/-- The value of a literal without fraction and exponent. -/
def toInt (l : NumberLiteral) : Int :=
  if l.negative then - (digitsValue l.whole : Int) else digitsValue l.whole

def decimal (l : NumberLiteral) : Decimal :=
  .ofDigits (l.whole ++ l.fraction) (l.whole.length + l.exponent.getD 0)

/-- The floating point number nearest to the literal. -/
def toBinary64 (l : NumberLiteral) : Binary64 := .ofDecimal l.negative l.decimal

/-- The integer part at the start of a text, without a superfluous zero, and what follows. -/
def scanWhole : List Char → Option (List Char × List Char)
  | [] => none
  | '0' :: rest => some (['0'], rest)
  | d :: rest =>
    if d.isDigit then some (d :: rest.takeWhile Char.isDigit, rest.dropWhile Char.isDigit)
    else none

/-- The digits after a point; a point without digits behind it is not part of the literal. -/
def scanFraction : List Char → List Char × List Char
  | '.' :: d :: rest =>
    if d.isDigit then (d :: rest.takeWhile Char.isDigit, rest.dropWhile Char.isDigit)
    else ([], '.' :: d :: rest)
  | cs => ([], cs)

/-- The digits of an exponent after its mark and sign. -/
def scanExponentDigits (negative : Bool) : List Char → Option (Int × List Char)
  | d :: rest =>
    if d.isDigit then
      let value := digitsValue (d :: rest.takeWhile Char.isDigit)
      some (if negative then - (value : Int) else value, rest.dropWhile Char.isDigit)
    else none
  | [] => none

/-- An exponent; a mark that is not followed by digits is not part of the literal. -/
def scanExponent (cs : List Char) : Option Int × List Char :=
  let found :=
    match cs with
    | m :: '-' :: rest => if m = 'e' || m = 'E' then scanExponentDigits true rest else none
    | m :: '+' :: rest => if m = 'e' || m = 'E' then scanExponentDigits false rest else none
    | m :: rest => if m = 'e' || m = 'E' then scanExponentDigits false rest else none
    | [] => none
  match found with
  | some (exponent, rest) => (some exponent, rest)
  | none => (none, cs)

/-- The longest literal at the start of a text, and what follows it. -/
def scan (cs : List Char) : Option (NumberLiteral × List Char) :=
  let (negative, cs) :=
    match cs with
    | '-' :: rest => (true, rest)
    | _ => (false, cs)
  (scanWhole cs).map fun (whole, rest) =>
    let (fraction, rest) := scanFraction rest
    let (exponent, rest) := scanExponent rest
    (⟨negative, whole, fraction, exponent⟩, rest)

end NumberLiteral

end ComponentTree
