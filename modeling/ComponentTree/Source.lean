import ComponentTree.Fault
import ComponentTree.Value.Basic

/-!
# Sources of markup

The conversion reads markup trees through a small interface, so it does not depend on how a tree is
kept. Everything here only looks; nothing changes the tree.
-/

namespace ComponentTree

/-- The kinds of nodes of a markup tree. -/
inductive NodeKind where
  | element
  | text
  | comment
  | fragment
  /-- A node that has no meaning for the conversion, such as a document type. -/
  | other
  deriving DecidableEq, Repr

/-- The customary number of a kind. -/
def NodeKind.number : NodeKind → Nat
  | .element => 1
  | .text => 3
  | .comment => 8
  | .fragment => 11
  | .other => 0

/-- The customary name of a kind. -/
def NodeKind.label : NodeKind → String
  | .element => "ELEMENT"
  | .text => "TEXT"
  | .comment => "COMMENT"
  | .fragment => "DOCUMENT_FRAGMENT"
  | .other => "OTHER"

/-- The name of the nodes of a kind, if they are no elements. -/
def NodeKind.nodeName : NodeKind → String
  | .element => ""
  | .text => "#text"
  | .comment => "#comment"
  | .fragment => "#document-fragment"
  | .other => "#other"

/-- How a tree with nodes of type `ν` is read. -/
structure Source (ν : Type) where
  kind : ν → NodeKind
  /-- The name of a node, for an element its tag as it was spelled. -/
  name : ν → String
  /-- The text of a node, if it has one. -/
  text : ν → Option String
  /-- The names of the attributes of an element, in lower case. -/
  attributeNames : ν → List String
  /-- The value of an attribute under any spelling of its name, null if there is none. -/
  attributeValue : ν → String → Except Fault Value
  children : ν → List ν
  parent : ν → Option ν
  /-- A number of levels that suffices below a node, unless it lies below itself. -/
  levels : ν → Nat

end ComponentTree
