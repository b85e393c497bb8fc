import ComponentTree.Markup.Entity
import ComponentTree.Markup.Refusal
import ComponentTree.Text.Digits

/-!
# Character references

A reference names a character or gives its number. Texts and attribute values follow different
rules: in a text an unknown name loses its semicolon, and a number is taken nearly as it is; in a
value an old name may be cut out of a longer one, and numbers that stand for no character are
mended.
-/

namespace ComponentTree.Markup

open Text

/-- The character that stands for what cannot be shown. -/
def replacement : Char := Char.ofNat 0xFFFD

/-- What the numbers from 128 to 159 are taken for. -/
def westernPoints : List Nat :=
  [0x20AC, 0x81, 0x201A, 0x192, 0x201E, 0x2026, 0x2020, 0x2021, 0x2C6, 0x2030, 0x160, 0x2039,
   0x152, 0x8D, 0x17D, 0x8F, 0x90, 0x2018, 0x2019, 0x201C, 0x201D, 0x2022, 0x2013, 0x2014,
   0x2DC, 0x2122, 0x161, 0x203A, 0x153, 0x9D, 0x17E, 0x178]

/-- The code point that a number from 128 to 159 is taken for. Other numbers stand for
themselves. -/
def westernPoint (n : Nat) : Nat :=
  if 0x80 ≤ n then (westernPoints[n - 0x80]?).getD n else n

/-- The character with a number, or the replacement character. -/
def characterAt (n : Nat) : Char := if n.isValidChar then Char.ofNat n else replacement

/-- The number that decimal digits denote, unless there are too many of them. -/
def decimalNumber (digits : List Char) : Except Refusal Nat :=
  if Refusal.maxDigits < digits.length then .error (.tooManyDigits digits.length)
  else .ok (numberOf 10 digits)

/-- The number after the mark of a numeric reference, and what follows its digits. -/
def scanNumber : List Char → Option (Except Refusal Nat × List Char)
  | 'x' :: rest => hexadecimal rest
  | 'X' :: rest => hexadecimal rest
  | cs =>
    let digits := cs.takeWhile Char.isDigit
    if digits.isEmpty then none else some (decimalNumber digits, cs.dropWhile Char.isDigit)
where
  /-- A hexadecimal number. -/
  hexadecimal (cs : List Char) : Option (Except Refusal Nat × List Char) :=
    let digits := cs.takeWhile isHexDigit
    if digits.isEmpty then none else some (.ok (numberOf 16 digits), cs.dropWhile isHexDigit)

/-- A text without a semicolon at its start. -/
def skipSemicolon : List Char → List Char
  | ';' :: rest => rest
  | cs => cs

/-! ### References in texts -/

/-- The text of a number in a text. Zero is no character. -/
def numberText (n : Nat) : List Char :=
  if n = 0 then [replacement] else [characterAt (westernPoint n)]

/-- The text of a name in a text; an unknown one is left as it is, without its semicolon. -/
def nameText (name : List Char) : List Char := (entity? name).getD ('&' :: name)

def isNameChar (c : Char) : Bool := c.isAlphanum || c == '-' || c == '.'

/-- A numeric reference in a text, after its mark. It has to be followed by a character that is no
hexadecimal digit. -/
def scanTextNumber (cs : List Char) : Option (Except Refusal (List Char) × List Char) :=
  match scanNumber cs with
  | some (n, c :: rest) =>
    if isHexDigit c then none else some (n.map numberText, skipSemicolon (c :: rest))
  | _ => none

/-- A named reference in a text, after its ampersand. It has to be followed by a character that is
neither a letter nor a digit; at the end of the text the name is cut back for that. -/
def scanTextName (cs : List Char) : Option (List Char × List Char) :=
  let name := cs.takeWhile isNameChar
  match cs.dropWhile isNameChar with
  | c :: rest => some (nameText name, skipSemicolon (c :: rest))
  | [] =>
    match name.reverse.dropWhile Char.isAlphanum with
    | [] => none
    | mark :: before =>
      some (nameText before.reverse, mark :: (name.reverse.takeWhile Char.isAlphanum).reverse)

/-! ### References in attribute values -/

/-- Whether a number stands for no character in a value: a control other than the usual blanks, or
one of the points that are set aside. -/
def isUnassignable (n : Nat) : Bool :=
  (1 ≤ n && n ≤ 8) || n == 0xB || (0xE ≤ n && n ≤ 0x1F) || (0x7F ≤ n && n ≤ 0x9F)
    || (0xFDD0 ≤ n && n ≤ 0xFDEF) || n % 0x10000 == 0xFFFE || n % 0x10000 == 0xFFFF

/-- The text of a number in a value. -/
def numberValue (n : Nat) : List Char :=
  if n = 0 then [replacement]
  else if 0x80 ≤ n && n ≤ 0x9F then [Char.ofNat (westernPoint n)]
  else if !n.isValidChar then [replacement]
  else if isUnassignable n then []
  else [Char.ofNat n]

/-- A character that can be part of a name in a value. -/
def isValueNameChar (c : Char) : Bool := !"\t\n\x0c <&#;".toList.contains c

/-- The text of a name in a value that stands unclosed: its longest part, of at least two
characters, that is an old name, and the rest as it is. -/
def unclosedText (name : List Char) : Nat → Option (List Char)
  | 0 => none
  | 1 => none
  | length + 2 =>
    match unclosedEntity? (name.take (length + 2)) with
    | some text => some (text ++ name.drop (length + 2))
    | none => unclosedText name (length + 1)

/-- A reference in a value, after its ampersand. -/
def scanValueReference : List Char → Option (Except Refusal (List Char) × List Char)
  | '#' :: cs => (scanNumber cs).map fun (n, rest) => (n.map numberValue, skipSemicolon rest)
  | cs =>
    let name := (cs.take 32).takeWhile isValueNameChar
    if name.isEmpty then none
    else
      match cs.drop name.length with
      | ';' :: rest =>
        match entity? name with
        | some text => some (.ok text, rest)
        | none =>
          some (.ok ((unclosedText name name.length).elim ('&' :: name ++ [';']) (· ++ [';'])),
            rest)
      | rest => some (.ok ((unclosedText name name.length).getD ('&' :: name)), rest)

/-- A value with its references replaced. -/
def resolveValue (cs : List Char) : Except Refusal (List Char) :=
  match cs with
  | [] => .ok []
  | '&' :: rest =>
    match scanValueReference rest with
    | some (text, after) =>
      if _h : after.length ≤ rest.length then do return (← text) ++ (← resolveValue after)
      else text
    | none => do return '&' :: (← resolveValue rest)
  | c :: rest => do return c :: (← resolveValue rest)
termination_by cs.length

end ComponentTree.Markup
