import ComponentTree.Decimal.Basic
import ComponentTree.Decimal.Shortest
import ComponentTree.Text.Quoted
import ComponentTree.Value.Basic

/-!
# Values as text

`Value.points` is the text of a value where a text is wanted: texts stand for themselves. Inside a
sequence or a map, texts are quoted; that form is `Value.describe`. Where only a string will do, a text
that is none is quoted as well (`Value.display`).
-/

namespace ComponentTree.Value

def commaSeparated (texts : List String) : String := ", ".intercalate texts

/-- A tuple of described items; a single item is followed by a comma. -/
def describeTuple : List String → String
  | [item] => "(" ++ item ++ ",)"
  | items => "(" ++ commaSeparated items ++ ")"

mutual
/-- The description of a value, with quoted texts. -/
def describe : Value → String
  | .null => "None"
  | .bool b => if b then "True" else "False"
  | .int n => String.ofList (integerText n)
  | .float x => String.ofList (x.text Binary64.plainLayout)
  | .str s => String.ofList (Text.quoted s)
  | .broken text => String.ofList (Text.quoted text.points)
  | .list items => "[" ++ commaSeparated (describeItems items) ++ "]"
  | .tuple items => describeTuple (describeItems items)
  | .dict _ entries => "\x7b" ++ commaSeparated (describeEntries entries) ++ "\x7d"
  | .element type props children =>
    "VElement(type=" ++ describe type
      ++ ", props=mappingproxy(\x7b" ++ commaSeparated (describeEntries props)
      ++ "\x7d), children=" ++ describeTuple (describeItems children) ++ ")"
  | .fragment => "Fragment"
  | .component c => c.text

def describeItems : List Value → List String
  | [] => []
  | item :: items => describe item :: describeItems items

def describeEntries : List (Value × Value) → List String
  | [] => []
  | (key, value) :: entries => (describe key ++ ": " ++ describe value) :: describeEntries entries
end

/-- The text of a value where a string is wanted. -/
def display : Value → String
  | .str s => s
  | other => other.describe

/-- The text of a value where any text will do. -/
def points : Value → Points
  | .broken text => text.points
  | other => other.display

end ComponentTree.Value
