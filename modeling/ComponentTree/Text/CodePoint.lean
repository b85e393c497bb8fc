/-!
# Texts as rows of code points

A string is a row of characters. Not every text is one: of the two halves by which some encodings spell a
character, one can stand by itself in a text, for instance if a number escape names it. Such a half is a
code point, but no character.
-/

namespace ComponentTree

/-- A character, or half of one, which is told by its distance from the first half. -/
inductive CodePoint where
  | char (c : Char)
  | half (n : Fin 0x800)
  deriving DecidableEq, Repr

namespace CodePoint

instance : Coe Char CodePoint := ⟨.char⟩

/-- The number of the first half. -/
def firstHalf : Nat := 0xD800

def number : CodePoint → Nat
  | .char c => c.toNat
  | .half n => firstHalf + n

/-- The code point with a number. -/
def ofNumber (n : Nat) : CodePoint :=
  if h : firstHalf ≤ n ∧ n - firstHalf < 0x800 then .half ⟨n - firstHalf, h.2⟩
  else .char (Char.ofNat n)

def isHalf : CodePoint → Bool
  | .char _ => false
  | .half _ => true

/-- Whether a code point is a character of a kind. -/
def is (kind : Char → Bool) : CodePoint → Bool
  | .char c => kind c
  | .half _ => false

end CodePoint

/-- A text as a row of code points. -/
abbrev Points := List CodePoint

namespace Points

def ofChars (cs : List Char) : Points := cs.map .char

def ofString (s : String) : Points := ofChars s.toList

instance : Coe String Points := ⟨ofString⟩

/-- The characters that a text starts with. -/
def leadingChars : Points → List Char
  | .char c :: rest => c :: leadingChars rest
  | _ => []

/-- The string that a text is, unless there are halves in it. -/
def string? (text : Points) : Option String :=
  if text.any CodePoint.isHalf then none else some (String.ofList text.leadingChars)

end Points

/-- A text with halves in it. -/
structure BrokenText where
  points : Points
  broken : points.string? = none
  deriving DecidableEq, Repr

end ComponentTree
