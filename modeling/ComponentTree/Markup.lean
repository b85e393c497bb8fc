import ComponentTree.Value.Basic

/-!
# Parsed markup

The tree that a parser makes of an HTML text: elements, texts, and nodes of other kinds that only
keep texts apart.
-/

namespace ComponentTree

/-- A parsed markup tree. Attributes keep the spelling of their names and can hold any value. -/
inductive Markup where
  /-- A whole document. -/
  | document (content : List Markup)
  | element (name : String) (attributes : List (String × Value)) (content : List Markup)
  | text (s : String)
  /-- A comment, document type, marked section or processing instruction, with its text. -/
  | other (text : Option String)
  deriving Inhabited

namespace Markup

/-- The nodes directly inside a node. -/
def content : Markup → List Markup
  | .document content => content
  | .element _ _ content => content
  | .text _ => []
  | .other _ => []

mutual
/-- The number of nodes on the longest way down. -/
def height : Markup → Nat
  | .document content => heightOfAll content + 1
  | .element _ _ content => heightOfAll content + 1
  | .text _ => 1
  | .other _ => 1

def heightOfAll : List Markup → Nat
  | [] => 0
  | m :: rest => max (height m) (heightOfAll rest)
end

mutual
/-- A tree with the values of all attributes changed. -/
def mapValues (f : Value → Value) : Markup → Markup
  | .document content => .document (mapValuesOfAll f content)
  | .element name attributes content =>
    .element name (attributes.map fun (attr, value) => (attr, f value)) (mapValuesOfAll f content)
  | .text s => .text s
  | .other s => .other s

/-- Trees with the values of all attributes changed. -/
def mapValuesOfAll (f : Value → Value) : List Markup → List Markup
  | [] => []
  | m :: rest => mapValues f m :: mapValuesOfAll f rest
end

end Markup

end ComponentTree
