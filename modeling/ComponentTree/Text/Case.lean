import ComponentTree.Text.CaseContext
import ComponentTree.Text.CaseMap

/-!
# Changing the case of a text

Lower case depends on the neighbours at one place only: a capital sigma becomes the final sigma at
the end of a word. All else is mapped character by character.
-/

namespace ComponentTree.Text

/-- Whether the part of a text nearest to some place, read away from it, has a cased character
before all that are neither cased nor ignorable. -/
def casedNext (cs : List Char) : Bool :=
  match cs.dropWhile isCaseIgnorable with
  | [] => false
  | c :: _ => isCased c

/-- A capital sigma is final when a cased character precedes it and none follows. `before` is read
backwards, from the sigma to the start of the text. -/
def isFinalSigma (before after : List Char) : Bool := casedNext before && !casedNext after

/-- The lower case of a character between its neighbours. -/
def lowerBetween (before : List Char) (c : Char) (after : List Char) : List Char :=
  if c = 'Σ' then [if isFinalSigma before after then 'ς' else 'σ'] else lowerMap.apply c

/-- The lower case of a text that follows `before`, which is read backwards. -/
def lowerAfter (before : List Char) : List Char → List Char
  | [] => []
  | c :: after => lowerBetween before c after ++ lowerAfter (c :: before) after

def lower (cs : List Char) : List Char := lowerAfter [] cs

def upper (cs : List Char) : List Char := cs.flatMap upperMap.apply

/-- The first character in title case, the others in lower case. -/
def capitalize : List Char → List Char
  | [] => []
  | c :: rest => titleMap.apply c ++ lowerAfter [c] rest

end ComponentTree.Text

namespace ComponentTree

/-- The spelling under which tags, attribute names and registered tags are compared. -/
def lowercase (s : String) : String := String.ofList (Text.lower s.toList)

def uppercase (s : String) : String := String.ofList (Text.upper s.toList)

end ComponentTree
