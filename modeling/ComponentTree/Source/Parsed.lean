import ComponentTree.Markup
import ComponentTree.Source
import ComponentTree.Text.Case
import ComponentTree.Value.Kind

/-!
# Parsed markup as a source

A parsed document is a finished tree. A node of it is looked at through a *view*: a place in the
tree, together with what the view remembers of how it was reached. A view that was reached from
another one through its children has that very view as its parent. A view opened directly at some
place finds its parent in the tree, and if it was opened as a fragment it has no parent at all.
-/

namespace ComponentTree

namespace Markup

/-- The kind of a node. -/
def kind : Markup → NodeKind
  | .document _ => .fragment
  | .element .. => .element
  | .text _ => .text
  | .other _ => .other

end Markup

/-- A place in a parsed tree: the node there and its ancestors, the nearest one first. -/
structure Place where
  node : Markup
  above : List Markup

namespace Place

def top (root : Markup) : Place := ⟨root, []⟩

def children (p : Place) : List Place := p.node.content.map fun m => ⟨m, p.node :: p.above⟩

def parent? (p : Place) : Option Place :=
  match p.above with
  | [] => none
  | m :: above => some ⟨m, above⟩

/-- A place with the values of all attributes changed. -/
def mapValues (f : Value → Value) (p : Place) : Place :=
  ⟨p.node.mapValues f, p.above.map (·.mapValues f)⟩

/-- The place reached by going down along child positions. -/
def follow? (p : Place) : List Nat → Option Place
  | [] => some p
  | i :: path => p.children[i]?.bind (follow? · path)

end Place

/-- A view of a place: how many steps down it lies from the view that was opened directly, and
whether that one was opened as a fragment. -/
structure View where
  place : Place
  steps : Nat
  openedAsFragment : Bool

namespace View

/-- A place as what it is. -/
def wrap (p : Place) : View := ⟨p, 0, false⟩

/-- The content of a place as a fragment. -/
def fragment (p : Place) : View := ⟨p, 0, true⟩

/-- Whether this very view was opened as a fragment. -/
def isFragment (v : View) : Bool := v.openedAsFragment && v.steps == 0

/-- The kind of a view. -/
def kind (v : View) : NodeKind := if v.isFragment then .fragment else v.place.node.kind

def name (v : View) : String :=
  match v.kind, v.place.node with
  | .element, .element name _ _ => name
  | kind, _ => kind.nodeName

/-- The text of the node, if it has one. -/
def text (v : View) : Option String :=
  match v.place.node with
  | .text s => some s
  | .other s => s
  | _ => none

/-- The attributes, for elements only. -/
def attributes (v : View) : List (String × Value) :=
  match v.kind, v.place.node with
  | .element, .element _ attributes _ => attributes
  | _, _ => []

/-- The texts of tokens, the first of which is at the given position. -/
def tokenTexts (position : Nat) : List Value → Except Fault (List String)
  | [] => .ok []
  | .str s :: tokens => do return s :: (← tokenTexts (position + 1) tokens)
  | other :: _ => .error (.noToken position other.kindName)

/-- The value of an attribute as one value: a list of tokens is joined by single spaces. -/
def joined : Value → Except Fault Value
  | .list tokens => do return .str (" ".intercalate (← tokenTexts 0 tokens))
  | .tuple tokens => do return .str (" ".intercalate (← tokenTexts 0 tokens))
  | other => .ok other

/-- The names of the attributes in lower case. -/
def attributeNames (v : View) : List String := v.attributes.map fun a => lowercase a.1

/-- The value of the first attribute whose name differs in case only. -/
def attributeValue (v : View) (name : String) : Except Fault Value :=
  match v.attributes.find? fun a => lowercase a.1 == lowercase name with
  | some a => joined a.2
  | none => .ok .null

def children (v : View) : List View :=
  v.place.children.map fun p => ⟨p, v.steps + 1, v.openedAsFragment⟩

/-- The view this one was reached from, or else the surrounding place. -/
def parent (v : View) : Option View :=
  match v.steps with
  | steps + 1 => v.place.parent?.map fun p => ⟨p, steps, v.openedAsFragment⟩
  | 0 => if v.openedAsFragment then none else v.place.parent?.map wrap

/-- Parsed trees as a source. -/
def source : Source View where
  kind := kind
  name := name
  text := text
  attributeNames := attributeNames
  attributeValue := attributeValue
  children := children
  parent := parent
  levels := fun v => v.place.node.height

end View

end ComponentTree
