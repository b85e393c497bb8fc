import ComponentTree.Assoc
import ComponentTree.Fault
import ComponentTree.Value.Equality
import ComponentTree.Value.Kind

/-!
# Element descriptors

The builder that is used when the host framework brings none: it makes plain element values. Props
are a map, or else pairs that make one.
-/

namespace ComponentTree

namespace Props

/-- The key and value that an item at a position is: the two values that it holds. -/
def pairOf (position : Nat) (item : Value) : Except PropsDefect (Value × Value) :=
  match item.items? with
  | some [key, value] => .ok (key, value)
  | some parts => .error (.wrongLength position parts.length)
  | none => .error (.noPair position)

/-- Sets the pairs that items are, the first of which is at the given position. -/
def setPairs (position : Nat) (props : Entries) : List Value → Except Fault Entries
  | [] => .ok props
  | item :: items => do
    let (key, value) ← (pairOf position item).mapError Fault.noProps
    match key.keyObstacle? with
    | some obstacle => .error (.noKey obstacle.kindName)
    | none => setPairs (position + 1) (Assoc.set key value props) items

/-- The entries that a value holds: those of a map, or pairs that make one. -/
def entriesOf (v : Value) : Except Fault Entries :=
  match v, v.items? with
  | .dict _ entries, _ => .ok entries
  | _, some items => setPairs 0 [] items
  | other, none => .error (.noProps (.noEntries other.kindName))

/-- The props that a value stands for. Whatever counts as absent stands for none. -/
def ofValue (v : Value) : Except Fault Entries :=
  if v.truthy then entriesOf v else .ok []

end Props

/-- A descriptor of a type with props and children. -/
def describeElement (type props : Value) (children : List Value) : Except Fault Value := do
  return .element type (← Props.ofValue props) children

/-- A descriptor of a type with the props and the children that two values hold. Here no value
stands for absent props: one that cannot hold entries is refused, and so is one that cannot hold
children. -/
def assembleElement (type props children : Value) : Except Fault Value := do
  let entries ← Props.entriesOf props
  match children.items? with
  | some items => return .element type entries items
  | none => .error (.noChildren children.kindName)

/-! ### Elements are not changed -/

/-- Why a value is not changed in place. -/
inductive ChangeFault where
  /-- The props of an element are shown, but cannot be set. -/
  | readOnlyProps
  /-- The fields of an element are set once and for all, and no others can be added. -/
  | frozenField (name : String)
  /-- A value of the given kind has no attribute with the name. -/
  | noAttribute (kind name : String)
  deriving DecidableEq, Repr

def ChangeFault.message : ChangeFault → String
  | .readOnlyProps => "'mappingproxy' object does not support item assignment"
  | .frozenField name => "cannot assign to field '" ++ name ++ "'"
  | .noAttribute kind name => "'" ++ kind ++ "' object has no attribute '" ++ name ++ "'"

/-- Why a prop of a value cannot be set in place. There is no value of which it can. -/
def Value.propFault : Value → ChangeFault
  | .element .. => .readOnlyProps
  | other => .noAttribute other.kindName "props"

/-- Why a field of a value cannot be set in place. There is no value of which it can. -/
def Value.fieldFault (name : String) : Value → ChangeFault
  | .element .. => .frozenField name
  | other => .noAttribute other.kindName name

/-- The size of a descriptor tree along the children, props left aside. -/
structure TreeStats where
  /-- The greatest nesting, one for the root. -/
  depth : Nat
  elements : Nat
  /-- The type of the first element at the greatest depth. -/
  deepest : Value

mutual
/-- The statistics of a tree; what is no element counts nothing. -/
def Value.stats : Value → TreeStats
  | .element type _ children =>
    let below := Value.statsOfAll children
    if below.depth = 0 then ⟨1, 1, type⟩
    else ⟨below.depth + 1, below.elements + 1, below.deepest⟩
  | _ => ⟨0, 0, .null⟩

def Value.statsOfAll : List Value → TreeStats
  | [] => ⟨0, 0, .null⟩
  | value :: rest =>
    let first := value.stats
    let others := Value.statsOfAll rest
    let elements := first.elements + others.elements
    if first.depth < others.depth then { others with elements } else { first with elements }
end

end ComponentTree
