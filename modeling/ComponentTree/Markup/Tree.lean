import ComponentTree.Markup.Library
import ComponentTree.Markup.Token
import ComponentTree.Text.Pieces

/-!
# The tree of an HTML text

Tokens are put together without any knowledge of which elements may stand where: an element ends at
its end tag, at the end tag of an element around it, or at the end of the text. Only void elements
and those that are closed in their start tag end at once. Texts that touch are one text,
and a text of nothing but blanks shrinks to one.
-/

namespace ComponentTree.Markup

/-- The elements that have no content. -/
def voidElements : List String :=
  ["area", "base", "br", "col", "embed", "hr", "img", "input", "keygen", "link", "menuitem", "meta",
   "param", "source", "track", "wbr", "basefont", "bgsound", "command", "frame", "image", "isindex",
   "nextid", "spacer"]

/-- The elements whose blanks are kept. -/
def preservedElements : List String := ["pre", "textarea"]

/-- Whether the value of an attribute is a list of tokens. -/
def isTokenList (element attr : String) : Bool :=
  ["class", "accesskey", "dropzone"].contains attr
    || [("a", "rel"), ("a", "rev"), ("link", "rel"), ("link", "rev"), ("td", "headers"),
        ("th", "headers"), ("form", "accept-charset"), ("object", "archive"),
        ("area", "rel"), ("icon", "sizes"), ("iframe", "sandbox"), ("output", "for")].contains
        (element, attr)

def tokenList (value : String) : Value :=
  .list ((Text.pieces Text.isBlank value.toList).map fun token => .str (String.ofList token))

/-- An element that is not closed yet. The nodes inside it are kept backwards. -/
structure OpenElement where
  name : String
  attributes : List (String × Value)
  content : List Markup

/-- A tree in the making. -/
structure Builder where
  /-- The open elements, the innermost first. -/
  openElements : List OpenElement
  /-- The finished nodes outside of all open elements, backwards. -/
  roots : List Markup
  /-- The text that has come since the last node, backwards by pieces. -/
  pending : List (List Char)
  /-- The void elements whose end tag would be superfluous. -/
  closedVoids : List String

namespace Builder

def start : Builder := ⟨[], [], [], []⟩

def addNode (node : Markup) (b : Builder) : Builder :=
  match b.openElements with
  | [] => { b with roots := node :: b.roots }
  | e :: rest => { b with openElements := { e with content := node :: e.content } :: rest }

/-- The one blank that a blank text shrinks to, unless it is kept as it is. -/
def shrink (b : Builder) (cs : List Char) : List Char :=
  if cs.all Text.isPlainBlank
      && !b.openElements.any fun e => preservedElements.contains e.name then
    if cs.contains '\n' then ['\n'] else [' ']
  else cs

/-- Makes a node of the pending text, if there is any. -/
def flush (b : Builder) : Builder :=
  if b.pending.isEmpty then b
  else
    let cs := b.shrink b.pending.reverse.flatten
    { b with pending := [] }.addNode (.text (String.ofList cs))

def openElement (name : String) (attributes : List (String × Value)) (b : Builder) : Builder :=
  { b.flush with openElements := ⟨name, attributes, []⟩ :: b.flush.openElements }

def closeInnermost (b : Builder) : Builder :=
  match b.openElements with
  | [] => b
  | e :: rest =>
    { b with openElements := rest }.addNode (.element e.name e.attributes e.content.reverse)

/-- Closes elements from the inside on, up to the nearest one with a name. -/
def closeUpTo (name : String) : List OpenElement → Builder → Builder
  | [], b => b
  | e :: rest, b => if e.name = name then b.closeInnermost else closeUpTo name rest b.closeInnermost

/-- Closes the nearest open element with a name, and all inside it; without one nothing happens. -/
def closeElement (name : String) (b : Builder) : Builder :=
  let b := b.flush
  if b.openElements.any fun e => e.name = name then closeUpTo name b.openElements b else b

/-- An end tag. The one that a void element has made superfluous is passed over. -/
def endTag (name : String) (b : Builder) : Builder :=
  if b.closedVoids.contains name then { b with closedVoids := b.closedVoids.erase name }
  else b.closeElement name

/-- Takes one token in. `splitTokens` tells whether lists of tokens are split. -/
def add (splitTokens : Bool) (b : Builder) : Token → Builder
  | .text cs => if cs.isEmpty then b else { b with pending := cs :: b.pending }
  | .other cs =>
    let b := b.flush
    b.addNode (.other (some (String.ofList (b.shrink cs))))
  | .closing name => b.endTag name
  | .opening name attributes closed =>
    let b := b.openElement name <| attributes.map fun (attr, value) =>
      (attr, if splitTokens && isTokenList name attr then tokenList value else .str value)
    -- such a tag ends its own element, also where an end tag of that name would be superfluous
    if closed then b.closeElement name
    else if voidElements.contains name then
      { b.closeElement name with closedVoids := name :: b.closedVoids }
    else b

/-- Closes all that is open. -/
def finish (b : Builder) : List Markup :=
  let b := b.flush
  (b.openElements.foldl (fun b _ => b.closeInnermost) b).roots.reverse

end Builder

/-- The document that an HTML text makes. -/
def parse (splitTokens : Bool) (html : String) : Except Refusal Markup := do
  return .document ((← tokens html).foldl (Builder.add splitTokens) Builder.start).finish

/-! ### Templates -/

/-- Whether a node is a template with an identifier. -/
def isTemplate (id : String) : Markup → Bool
  | .element name attributes _ =>
    name == "template" && (Assoc.get? "id" attributes).any fun
      | .str value => value == id
      | _ => false
  | _ => false

mutual
/-- The first node, in document order, that is a template with an identifier. -/
def findTemplate? (id : String) (above : List Markup) : Markup → Option Place
  | .document content => findTemplateAmong? id (.document content :: above) content
  | .element name attributes content =>
    let node := Markup.element name attributes content
    if isTemplate id node then some ⟨node, above⟩
    else findTemplateAmong? id (node :: above) content
  | .text _ => none
  | .other _ => none

def findTemplateAmong? (id : String) (above : List Markup) : List Markup → Option Place
  | [] => none
  | node :: rest =>
    match findTemplate? id above node with
    | some place => some place
    | none => findTemplateAmong? id above rest
end

/-- The library that the program comes with. -/
def library : Library where
  parse := parse false
  findTemplate? := fun id document => findTemplate? id [] document

end ComponentTree.Markup
