import ComponentTree.Assoc
import ComponentTree.Conversion.Step
import ComponentTree.Text.Case
import ComponentTree.Value.Display
import ComponentTree.Value.Equality
import ComponentTree.Value.Kind

/-!
# From markup to component trees

An element becomes the descriptor of its component, or of its tag if no component is registered for
it; a fragment becomes a descriptor of the fragment type. Attributes become props. A child element
that names a slot is not a positional child of a component: its descriptor goes into the slots,
which end up in the props of the component. The slot attribute has then done its work and is not
passed on to the child's own props.
-/

namespace ComponentTree

/-- How the props of an element are made of its attributes and slots. -/
structure PropsStrategy (ν : Type) where
  make : List (String × Value) → Entries → PropsContext ν → Except Fault Value
  /-- The writes to shared maps that making the props brings about, in order. -/
  writes : List (String × Value) → Entries → PropsContext ν → List Write := fun _ _ _ => []

/-- The collaborators of a conversion. -/
structure Host (ν : Type) where
  /-- Builds the descriptor of a type with props and children. -/
  build : Value → Value → List Value → Except Fault Value
  /-- The type of fragments. -/
  fragment : Value
  /-- What is registered for a tag in lower case, null if nothing is. -/
  component : String → Except Fault Value
  /-- The props strategy, if there is one; without one the slots are set over the attributes. -/
  props : Option (PropsStrategy ν)

/-- The attribute that names a slot. -/
def slotAttribute : String := "slot"

namespace Conversion

variable {ν : Type}

/-- An element whose children are being converted. -/
structure Owner (ν : Type) where
  element : ν
  /-- What is registered for its tag. -/
  component : Value

/-- Where the result of a child goes. -/
inductive Placement where
  | slot (name value : Value)
  | child (value : Value)

/-- The result of a child as a positional child, unless it is null or empty text. -/
def positional (value : Value) : Option Placement :=
  if value.isChild then some (.child value) else none

/-- The slots, in the order in which their names first came, each with the last result. -/
def slotsOf (placements : List Placement) : Entries :=
  Assoc.ofPairs <| placements.filterMap fun
    | .slot name value => some (name, value)
    | .child _ => none

def childrenOf (placements : List Placement) : List Value :=
  placements.filterMap fun
    | .slot .. => none
    | .child value => some value

/-- Looks a tag up on behalf of a node. -/
def lookup (host : Host ν) (node : ν) (tag : String) : Course ν Value :=
  .step (.lookup node tag) (host.component tag)

/-- The tag of an element in lower case. -/
def tagOf (source : Source ν) (element : ν) : String := lowercase (source.name element)

/-- The attributes of an element, by their names in lower case. -/
def attributesOf (source : Source ν) (node : ν) : Except Fault (List (String × Value)) := do
  let pairs ← (source.attributeNames node).mapM fun name => do
    return (name, ← source.attributeValue node name)
  return Assoc.ofPairs pairs

/-- The outcome of routing a child into a slot. The slot has to be a value that can be a key. -/
def routed (slot value : Value) : Except Fault (Option Placement) :=
  match slot.keyObstacle? with
  | some obstacle => .error (.noKey obstacle.kindName)
  | none => .ok (some (.slot slot value))

/-- Converts one child of a node and decides where its result goes. Texts give themselves, and
nodes that are neither texts nor elements nothing. What names the slot is read before the child is
converted and used as it is afterwards. -/
def placeChild (source : Source ν) (convert : ν → Course ν Value) (owner : Option (Owner ν))
    (child : ν) : Course ν (Option Placement) :=
  match source.kind child with
  | .text => .done (positional (.ofString? (source.text child)))
  | .element => do
    let slot ← .ofExcept (source.attributeValue child slotAttribute)
    let value ← convert child
    let slot ← .current slot
    match owner with
    | some owner =>
      if owner.component.truthy && slot.truthy then
        .step (.route owner.element child slot) (routed slot value)
      else return positional value
    | none => return positional value
  | _ => .done none

/-- Whether the parent of an element is an element for which a component is registered. -/
def parentIsComponent (source : Source ν) (host : Host ν) (node : ν) : Course ν Bool :=
  match source.parent node with
  | none => .done false
  | some parent =>
    match source.kind parent with
    | .element => do
      let component ← lookup host node (tagOf source parent)
      return component.truthy
    | _ => .done false

/-- The attributes that are passed on: all, without the slot attribute if it was used to route the
element. -/
def passedAttributes (source : Source ν) (host : Host ν) (node : ν)
    (attributes : List (String × Value)) : Course ν (List (String × Value)) := do
  let slot ← .current ((Assoc.get? slotAttribute attributes).getD .null)
  if slot.truthy then
    let routed ← parentIsComponent source host node
    return if routed then Assoc.erase slotAttribute attributes else attributes
  else return attributes

/-- The props without a strategy: the attributes, with the slots set over them. -/
def mergedProps (attributes : List (String × Value)) (slots : Entries) : Value :=
  .dict none (Assoc.setAll (attributes.map fun (name, value) => (.str name, value)) slots)

def elementProps (host : Host ν) (call : PropsCall ν) : Course ν Value :=
  match host.props with
  | some strategy => fun earlier =>
    let call := call.afterAll earlier
    ⟨strategy.make call.attributes call.slots call.context, [.props call],
      strategy.writes call.attributes call.slots call.context⟩
  | none => .done (mergedProps call.attributes call.slots)

/-- Builds a descriptor. The builder finds the shared maps in what it is given as the writes so far have
left them. -/
def build (host : Host ν) (node : ν) (type props : Value) (children : List Value) :
    Course ν Value := fun earlier =>
  let type := type.afterAll earlier
  let props := props.afterAll earlier
  let children := children.map (·.afterAll earlier)
  ⟨host.build type props children, [.build node type props children], []⟩

/-- Converts a node that may be nested some more levels deep. When none is left the node is beyond
the limit, whatever its kind. -/
def visit (source : Source ν) (host : Host ν) (beyond : Fault) : Nat → ν → Course ν Value
  | 0, node => .step (.enter node) (.error beyond)
  | levels + 1, node => do
    Course.step (.enter node) (.ok ())
    match source.kind node with
    | .element => do
      let tag := tagOf source node
      let component ← lookup host node tag
      let attributes ← .ofExcept (attributesOf source node)
      let placements ← Course.forEach
        (placeChild source (visit source host beyond levels) (some ⟨node, component⟩))
        (source.children node)
      let placed := placements.filterMap id
      let attributes ← passedAttributes source host node attributes
      let props ← elementProps host ⟨attributes, slotsOf placed, ⟨tag, component, node⟩⟩
      build host node (component.orElse (.str tag)) props (childrenOf placed)
    | .fragment => do
      let placements ← Course.forEach
        (placeChild source (visit source host beyond levels) none) (source.children node)
      let placed := placements.filterMap id
      build host node (host.fragment.orElse .null) (mergedProps [] (slotsOf placed))
        (childrenOf placed)
    | _ => return .null

end Conversion

/-- The limit that is used unless another one is asked for. -/
def defaultLimit : Int := 500

/-- Converts an element or fragment; any other node gives null. The start node is at depth zero, and
no element may lie deeper than the limit. -/
def convert {ν : Type} (source : Source ν) (host : Host ν) (limit : Option Int) (node : ν) :
    Run ν Value :=
  match limit with
  | some limit => Conversion.visit source host (.tooDeep limit) (limit + 1).toNat node []
  | none => Conversion.visit source host .endless (source.levels node) node []

end ComponentTree
