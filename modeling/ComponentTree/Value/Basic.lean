import ComponentTree.Decimal.Binary64
import ComponentTree.Text.CodePoint

/-!
# Values

What attributes, props and children of a component tree can hold: scalars, sequences, maps,
elements, and the two kinds of element types that are no tag names, the fragment marker and
components.
-/

namespace ComponentTree

/-- A component of the host framework. Nothing is known of it but how it is shown, and that it is
the same as another one exactly if their serial numbers are. -/
structure Component where
  serial : Nat
  /-- How the component describes itself. -/
  text : String
  /-- The name of the component, if it has one. -/
  name : Option String
  /-- Whether the component counts as absent when it is tested. -/
  falsy : Bool
  deriving DecidableEq, Repr

/-- A value. Maps and props are lists of pairs with distinct keys, whose order counts. -/
inductive Value where
  | null
  | bool (b : Bool)
  | int (n : Int)
  | float (x : Binary64)
  | str (s : String)
  /-- A text that is no string. -/
  | broken (text : BrokenText)
  | list (items : List Value)
  | tuple (items : List Value)
  /-- A map. Maps with one mark are a single map that is seen at several places; a map without a
  mark is seen at one place only. -/
  | dict (mark : Option Nat) (entries : List (Value × Value))
  /-- An element descriptor: what to render, with which props and children. -/
  | element (type : Value) (props : List (Value × Value)) (children : List Value)
  /-- The type of an element that only groups its children. -/
  | fragment
  | component (c : Component)
  deriving Inhabited

/-- Props and other maps of values. -/
abbrev Entries := List (Value × Value)

namespace Value

/-- Whether a value counts as present when it is tested: null, zero, false and everything empty do
not. An element and the fragment marker always do. -/
def truthy : Value → Bool
  | .null => false
  | .bool b => b
  | .int n => n != 0
  | .float x => !x.isZero
  | .str s => !s.isEmpty
  | .broken _ => true
  | .list items => !items.isEmpty
  | .tuple items => !items.isEmpty
  | .dict _ entries => !entries.isEmpty
  | .element .. => true
  | .fragment => true
  | .component c => !c.falsy

/-- The first of two values if it is truthy, else the second. -/
def orElse (first second : Value) : Value := if first.truthy then first else second

/-- A string, or null for none. -/
def ofString? : Option String → Value
  | some s => .str s
  | none => .null

/-- A text as a value. -/
def ofPoints (text : Points) : Value :=
  match h : text.string? with
  | some s => .str s
  | none => .broken ⟨text, h⟩

/-- The values that a value holds one after another: the items of a sequence, the characters of a
text, the keys of a map. Other values hold none, not even an empty run. -/
def items? : Value → Option (List Value)
  | .list items => some items
  | .tuple items => some items
  | .str s => some (s.toList.map fun c => .str (String.singleton c))
  | .broken text => some (text.points.map fun point => ofPoints [point])
  | .dict _ entries => some (entries.map (·.1))
  | _ => none

/-- Neither null nor the empty string, the two values that are never a child. -/
def isChild : Value → Bool
  | .null => false
  | .str s => !s.isEmpty
  | _ => true

end Value

end ComponentTree
