import ComponentTree.Conversion
import ComponentTree.Data
import ComponentTree.Descriptor
import ComponentTree.Log
import ComponentTree.Markup.Library
import ComponentTree.Props.Standard
import ComponentTree.Source.Memory

/-!
# Converters

A converter is set up once for a set of components and then used for any number of trees. It keeps
the components under their tags in lower case, and reports what it does.
-/

namespace ComponentTree

/-- A converter of trees with nodes of type `ν`. -/
structure Converter (ν : Type) where
  /-- Builds the descriptor of a type with props and children. -/
  build : Value → Value → List Value → Except Fault Value
  /-- The type of fragments. -/
  fragment : Value
  /-- The components by their tags in lower case. -/
  components : List (String × Value)
  /-- The props strategy, if there is one. -/
  props : Option (PropsStrategy ν)
  /-- The deepest nesting allowed, if there is a limit. -/
  limit : Option Int

/-- The outcome of a conversion, the steps that led to it, the writes to shared maps in them and the
reports made on the way. -/
structure Reported (ν : Type) where
  outcome : Except Fault Value
  steps : List (Step ν)
  writes : List Write
  log : List LogRecord

/-- A conversion with the given collaborators. -/
def Reported.ofHost {ν : Type} (source : Source ν) (host : Host ν) (limit : Option Int)
    (node : ν) : Reported ν :=
  let run := ComponentTree.convert source host limit node
  ⟨run.settled, run.steps, run.writes, Log.ofSteps source run.steps⟩

/-- Why no conversion of an HTML text is begun. The faults of a conversion itself, those of its
collaborators among them, are none of these. -/
inductive HtmlFault where
  /-- The text is refused as HTML. -/
  | refused (refusal : Markup.Refusal)
  /-- The document has no template with the given identifier. -/
  | templateNotFound (id : String)
  deriving DecidableEq, Repr

/-- The text that there is no template with an identifier. -/
def HtmlFault.templateNotFoundText (id : String) : String :=
  "No <template> element with id '" ++ id ++ "'"

def HtmlFault.message : HtmlFault → String
  | .refused refusal => refusal.message
  | .templateNotFound id => templateNotFoundText id

namespace Converter

variable {ν : Type}

/-- The components by their tags in lower case. Of tags that differ in case only the last one gives
the component, in the place of the first. -/
def register (components : List (String × Value)) : List (String × Value) :=
  Assoc.ofPairs (components.map fun (tag, component) => (lowercase tag, component))

/-- A converter that makes plain element values. -/
def plain (components : List (String × Value)) (props : Option (PropsStrategy ν)) :
    Converter ν where
  build := describeElement
  fragment := .fragment
  components := register components
  props := props
  limit := some defaultLimit

/-- The collaborators of the conversions that a converter does. -/
def host (c : Converter ν) : Host ν where
  build := c.build
  fragment := c.fragment
  component := fun tag => .ok ((Assoc.get? tag c.components).getD .null)
  props := c.props

/-- The report with which a conversion starts. -/
def announcement (c : Converter ν) (source : Source ν) (node : ν) : LogRecord :=
  ⟨.debug, Log.converter,
    "Converting " ++ source.name node ++ " with "
      ++ String.ofList (integerText c.components.length) ++ " registered components"⟩

/-- Converts an element or fragment; any other node gives null. -/
def convert (c : Converter ν) (source : Source ν) (node : ν) : Reported ν :=
  let reported := Reported.ofHost source c.host c.limit node
  { reported with log := c.announcement source node :: reported.log }

/-- Converts a place of a parsed document, or its content as a fragment. -/
def convertPlace (c : Converter View) (place : Place) (asFragment : Bool) : Reported View :=
  c.convert View.source (if asFragment then .fragment place else .wrap place)

/-! ### HTML texts -/

/-- The part of a document that is to be converted: all of it, or the content of the first template
with an identifier. -/
def selectTemplate (library : Markup.Library) (document : Markup) :
    Option String → Except HtmlFault View
  | none => .ok (.wrap (.top document))
  | some id =>
    match library.findTemplate? id document with
    | some place => .ok (.fragment place)
    | none => .error (.templateNotFound id)

/-- Parses an HTML text and converts it, or the content of the template that is asked for. What keeps
the conversion from being begun is told apart from what it comes to. -/
def convertHtml (library : Markup.Library) (c : Converter View) (html : String)
    (template : Option String) : Except HtmlFault (Reported View) := do
  let document ← (library.parse html).mapError .refused
  let view ← selectTemplate library document template
  return c.convert View.source view

end Converter

/-- Registers each tag as a component that is named by its words in PascalCase. -/
def componentsOfTags (tags : List String) : List (String × String) :=
  Assoc.ofPairs (tags.map fun tag => (lowercase tag, pascalCase tag))

end ComponentTree
