import ComponentTree.Assoc
import ComponentTree.Source.Parsed
import ComponentTree.Text.Quoted
import ComponentTree.Value.Display
import ComponentTree.Value.Sharing

/-!
# Trees built by hand

Nodes that are built by hand live in a store and are known by their place in it. A node keeps its
children and its parent separately: adopting a child sets the parent of the child, and nothing takes
a child away from a node that adopted it before. So a node can be listed several times, under
several nodes, and even below itself. A node can also adopt a view of parsed markup, which keeps the
parent that it has there.
-/

namespace ComponentTree

/-- The place of a node in its store. -/
abbrev NodeId := Nat

/-- A node of a tree that may be partly built by hand and partly parsed. The views that someone
holds are told apart by marks: a view has its own mark, and after it those of the views it was
reached from. A view that nobody holds has the mark zero. -/
inductive Node where
  | stored (id : NodeId)
  | parsed (view : View) (marks : List Nat)

namespace Node

/-- A view with a mark of its own. -/
def hold (view : View) (mark : Nat) : Node := .parsed view [mark]

/-- Gives a view that nobody held a mark of its own. -/
def mark (mark : Nat) : Node → Node
  | .parsed view [] => .parsed view [mark]
  | .parsed view (0 :: marks) => .parsed view (mark :: marks)
  | other => other

/-- A node after writes to shared maps. Only parsed markup can hold maps. -/
def afterAll (writes : List Write) : Node → Node
  | .stored id => .stored id
  | .parsed view marks =>
    .parsed { view with place := view.place.mapValues (·.afterAll writes) } marks

/-- Whether two nodes are one and the same. -/
def same : Node → Node → Bool
  | .stored a, .stored b => a == b
  | .parsed _ a, .parsed _ b => a.head? == b.head?
  | _, _ => false

end Node

/-- What a node built by hand is. The names of attributes are in lower case. -/
inductive NodeContent where
  | element (tag : String) (attributes : List (String × String))
  | fragment
  | text (value : Option String)
  | comment (value : Option String)

namespace NodeContent

/-- The attribute map that a list of names and values makes. Names that differ in case only are one
name: the first gives the place, the last the value. -/
def attributesOf (pairs : List (String × String)) : List (String × String) :=
  Assoc.ofPairs (pairs.map fun (name, value) => (lowercase name, value))

/-- An element with a tag and attributes, as they are spelled. -/
def ofElement (tag : String) (attributes : List (String × String)) : NodeContent :=
  .element tag (attributesOf attributes)

/-- What an element keeps of values of any kind: their texts. -/
def keptTexts (given : List (String × Value)) : List (String × String) :=
  given.map fun (name, value) => (name, value.display)

/-- An element with a tag and attributes that are given with values of any kind. -/
def ofValues (tag : String) (given : List (String × Value)) : NodeContent :=
  .ofElement tag (keptTexts given)

def kind : NodeContent → NodeKind
  | .element .. => .element
  | .fragment => .fragment
  | .text _ => .text
  | .comment _ => .comment

def name : NodeContent → String
  | .element tag _ => tag
  | other => other.kind.nodeName

def value : NodeContent → Option String
  | .text value => value
  | .comment value => value
  | _ => none

def attributes : NodeContent → List (String × String)
  | .element _ attributes => attributes
  | _ => []

/-- The value of an attribute under any spelling of its name. -/
def attribute? (content : NodeContent) (name : String) : Option String :=
  Assoc.get? (lowercase name) content.attributes

/-- An element with an attribute set to the text of a value; other nodes have none. -/
def setAttribute (name : String) (value : Value) : NodeContent → NodeContent
  | .element tag attributes => .element tag (Assoc.set (lowercase name) value.display attributes)
  | other => other

def setTag (tag : String) : NodeContent → NodeContent
  | .element _ attributes => .element tag attributes
  | other => other

def setValue (value : Option String) : NodeContent → NodeContent
  | .text _ => .text value
  | .comment _ => .comment value
  | other => other

end NodeContent

/-- The plan of a tree. Attributes are listed as they are spelled. -/
inductive Draft where
  | element (tag : String) (attributes : List (String × String)) (children : List Draft)
  | fragment (children : List Draft)
  | text (value : Option String)
  | comment (value : Option String)
  /-- Parsed markup that is adopted as it is, under a mark. -/
  | view (view : View) (mark : Nat)

/-- A node in a store. -/
structure StoredNode where
  content : NodeContent
  parent : Option NodeId
  children : List Node

/-- The nodes built so far. -/
structure NodeStore where
  nodes : Array StoredNode

namespace NodeStore

def empty : NodeStore := ⟨#[]⟩

/-- A node that is not in the store reads as an empty fragment. -/
def get (s : NodeStore) (id : NodeId) : StoredNode :=
  s.nodes[id]?.getD ⟨.fragment, none, []⟩

def update (s : NodeStore) (id : NodeId) (change : StoredNode → StoredNode) : NodeStore :=
  ⟨s.nodes.modify id change⟩

/-- Makes a node the parent of a child. Parsed nodes keep theirs. -/
def setParent (s : NodeStore) (parent : NodeId) : Node → NodeStore
  | .stored child => s.update child fun node => { node with parent := some parent }
  | .parsed _ _ => s

/-- Adds a node with its children, and tells its place. -/
def add (s : NodeStore) (content : NodeContent) (children : List Node) : NodeId × NodeStore :=
  let id := s.nodes.size
  (id, children.foldl (fun s child => s.setParent id child)
    ⟨s.nodes.push ⟨content, none, children⟩⟩)

/-- Adds a child after the children that a node has. -/
def append (s : NodeStore) (parent : NodeId) (child : Node) : NodeStore :=
  (s.setParent parent child).update parent fun node =>
    { node with children := node.children ++ [child] }

/-- The store after writes to shared maps. -/
def afterAll (writes : List Write) (s : NodeStore) : NodeStore :=
  ⟨s.nodes.map fun node => { node with children := node.children.map (·.afterAll writes) }⟩

mutual
/-- Builds a tree from the bottom up, and tells its top. -/
def build (s : NodeStore) : Draft → Node × NodeStore
  | .element tag attributes children =>
    let (children, s) := buildAll s children
    let (id, s) := s.add (.ofElement tag attributes) children
    (.stored id, s)
  | .fragment children =>
    let (children, s) := buildAll s children
    let (id, s) := s.add .fragment children
    (.stored id, s)
  | .text value =>
    let (id, s) := s.add (.text value) []
    (.stored id, s)
  | .comment value =>
    let (id, s) := s.add (.comment value) []
    (.stored id, s)
  | .view view mark => (.hold view mark, s)

def buildAll (s : NodeStore) : List Draft → List Node × NodeStore
  | [] => ([], s)
  | draft :: drafts =>
    let (node, s) := build s draft
    let (nodes, s) := buildAll s drafts
    (node :: nodes, s)
end

/-- The store with the content of one node changed. Parsed markup is left as it is. -/
def updateContent (s : NodeStore) (node : Node) (change : NodeContent → NodeContent) :
    NodeStore :=
  match node with
  | .stored id => s.update id fun node => { node with content := change node.content }
  | .parsed _ _ => s

/-- The store with a child added to a node. None for parsed markup, which adopts nothing. -/
def append? (s : NodeStore) (parent child : Node) : Option NodeStore :=
  match parent with
  | .stored id => some (s.append id child)
  | .parsed _ _ => none

/-- The store with an attribute of a node set. None for what is no element built by hand. -/
def setAttribute? (s : NodeStore) (node : Node) (name : String) (value : Value) : Option NodeStore :=
  match node with
  | .stored id =>
    if (s.get id).content.kind = .element then
      some (s.updateContent node (.setAttribute name value))
    else none
  | .parsed _ _ => none

/-- The height of a parsed child; stored children are counted by the store. -/
def parsedHeight : Node → Nat
  | .stored _ => 0
  | .parsed view _ => view.place.node.height

/-- A bound on the levels below any stored node from which no node can be reached twice on one way
down: all stored nodes, and the highest parsed tree below them. -/
def levels (s : NodeStore) : Nat :=
  s.nodes.size + s.nodes.foldl
    (fun highest node => node.children.foldl (fun h child => max h (parsedHeight child)) highest) 0

/-- Trees built by hand as a source. -/
def source (s : NodeStore) : Source Node where
  kind
    | .stored id => (s.get id).content.kind
    | .parsed view _ => view.kind
  name
    | .stored id => (s.get id).content.name
    | .parsed view _ => view.name
  text
    | .stored id => (s.get id).content.value
    | .parsed view _ => view.text
  attributeNames
    | .stored id => (s.get id).content.attributes.map (·.1)
    | .parsed view _ => view.attributeNames
  attributeValue
    | .stored id => fun name => .ok (.ofString? ((s.get id).content.attribute? name))
    | .parsed view _ => view.attributeValue
  children
    | .stored id => (s.get id).children
    | .parsed view marks => view.children.map fun child => .parsed child (0 :: marks)
  parent
    | .stored id => (s.get id).parent.map .stored
    | .parsed view marks => view.parent.map fun parent => .parsed parent marks.tail
  levels
    | .stored _ => s.levels
    | .parsed view _ => view.place.node.height

/-- The description of an element, a text or a view of parsed markup. -/
def describe? (s : NodeStore) : Node → Option String
  | .parsed view _ => some ("SoupNode(" ++ (Value.str view.name).describe ++ ")")
  | .stored id =>
    let node := s.get id
    match node.content with
    | .element tag attributes =>
      some ("ElementNode(" ++ (Value.str tag).describe ++ ", "
        ++ (Value.dict none (attributes.map fun (n, v) => (.str n, .str v))).describe ++ ", "
        ++ String.ofList (integerText node.children.length) ++ " children)")
    | .text value => some ("TextNode(" ++ (Value.ofString? value).describe ++ ")")
    | _ => none

end NodeStore

end ComponentTree
