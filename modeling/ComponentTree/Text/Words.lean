import ComponentTree.Text.Alphanumeric
import ComponentTree.Text.Case
import ComponentTree.Text.Pieces

/-!
# Names made of words

A word is a longest run of letters and digits. `pascalCase` writes the words of a text one after
the other, each capitalised; `camelCase` is the same with the first character in lower case.
-/

namespace ComponentTree.Text

/-- The words of a text: its longest runs of letters and digits. -/
def words (cs : List Char) : List (List Char) := pieces (! isAlphanumeric ·) cs

/-- The words of a text, each capitalised, without what stood between them. -/
def pascal (cs : List Char) : List Char := (words cs).flatMap capitalize

/-- Lower case for the first character by itself, the rest unchanged. -/
def lowerFirst : List Char → List Char
  | [] => []
  | c :: rest => lower [c] ++ rest

/-- The words of a text joined, each capitalised but the very first character in lower case. -/
def camel (cs : List Char) : List Char := lowerFirst (pascal cs)

end ComponentTree.Text

namespace ComponentTree

/-- The PascalCase name made of the words of a text. -/
def pascalCase (s : String) : String := String.ofList (Text.pascal s.toList)

/-- The camelCase name made of the words of a text. -/
def camelCase (s : String) : String := String.ofList (Text.camel s.toList)

end ComponentTree
