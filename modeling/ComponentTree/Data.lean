import ComponentTree.Assoc
import ComponentTree.Json.Writer
import ComponentTree.Value.Display

/-!
# Descriptors as data

Data is what can be written as JSON: maps with texts for keys, lists, texts, numbers, truth values
and null. A descriptor tree becomes data by writing each element as a map of its type, its props and
its children, each sequence as a list, and everything that is no data as its text.
-/

namespace ComponentTree.Value

/-- The name of the fragment type in data. -/
def fragmentName : String := "#fragment"

/-- The name of an element type: a tag or the name of a component, or else its text. -/
def typeName : Value → Points
  | .fragment => fragmentName
  | .component c =>
    match c.name with
    | some name => if name.isEmpty then c.text else name
    | none => c.text
  | other => other.points

mutual
/-- A value as data. -/
def toData : Value → Value
  | .null => .null
  | .bool b => .bool b
  | .int n => .int n
  | .float x => .float x
  | .str s => .str s
  | .broken text => .broken text
  | .list items => .list (toDataItems items)
  | .tuple items => .list (toDataItems items)
  | .dict _ entries => dataMap (toDataEntries entries)
  | .element type props children =>
    .dict none [(.str "type", .ofPoints type.typeName), (.str "props", dataMap (toDataEntries props)),
      (.str "children", .list (toDataItems children))]
  | .fragment => .str Value.fragment.display
  | .component c => .str c.text

/-- Items as data. -/
def toDataItems : List Value → List Value
  | [] => []
  | item :: items => toData item :: toDataItems items

/-- Entries as data under the texts of their keys. -/
def toDataEntries : List (Value × Value) → List (Points × Value)
  | [] => []
  | (key, value) :: entries => (key.points, toData value) :: toDataEntries entries

/-- The map of named values. A repeated name keeps its first place and takes its last value. -/
def dataMap (entries : List (Points × Value)) : Value :=
  .dict none ((Assoc.ofPairs entries).map fun (name, value) => (.ofPoints name, value))
end

mutual
/-- How deep lists and maps are nested in a value. -/
def nesting : Value → Nat
  | .list items => nestingOfItems items + 1
  | .tuple items => nestingOfItems items + 1
  | .dict _ entries => nestingOfEntries entries + 1
  | _ => 0

/-- The greatest nesting of the items. -/
def nestingOfItems : List Value → Nat
  | [] => 0
  | item :: items => max (nesting item) (nestingOfItems items)

/-- The greatest nesting of the values of entries. -/
def nestingOfEntries : List (Value × Value) → Nat
  | [] => 0
  | (_, value) :: entries => max (nesting value) (nestingOfEntries entries)
end

end ComponentTree.Value

namespace ComponentTree

/-- The indentation that is used unless another one is asked for. -/
def defaultIndent : Json.Indent := .spaces 2

/-- The JSON text of a descriptor tree. -/
def generate (indent : Json.Indent) (descriptor : Value) : Points :=
  Json.text indent descriptor.toData

end ComponentTree
