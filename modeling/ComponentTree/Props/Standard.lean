import ComponentTree.Conversion
import ComponentTree.Json.Reader
import ComponentTree.Path
import ComponentTree.Props.Names
import ComponentTree.Text.Words

/-!
# The standard props strategy

The attributes of a component are renamed, by the table or else to camelCase, and values that are
JSON texts are decoded. The slots are then set at the dotted paths that their names are. The
attributes of a plain element are only renamed by the table, and it takes no slots.
-/

namespace ComponentTree

/-- A way to set a value in props under the name of a slot. -/
structure SlotSetter where
  set : Value → Value → Entries → Entries
  /-- The write to a shared map that setting the value is, if it is one. -/
  write? : Value → Value → Entries → Option Write := fun _ _ _ => none
  /-- Why a value cannot be the name of a slot. -/
  refuse? : Value → Option Fault := fun _ => none

namespace SlotSetter

/-- Sets a value at the dotted path that the name is. What is no string is no path. -/
def byPath : SlotSetter where
  set
    | .str path => Path.set path
    | name => Assoc.set name
  write?
    | .str path => Path.write? path
    | _ => fun _ _ => none
  refuse?
    | .str _ => none
    | name => some (.noPath name.kindName)

/-- Sets a value under the name as it stands. -/
def byName : SlotSetter where
  set := Assoc.set

/-- Leaves values out. -/
def ignoring : SlotSetter where
  set := fun _ _ props => props

end SlotSetter

/-- The parts of the standard strategy that a host can exchange. -/
structure PropsHelpers where
  camelCase : String → String := ComponentTree.camelCase
  slots : SlotSetter := .byPath
  /-- Replaces the names of a map. -/
  mapNames : (String → String) → List (String × Value) → List (String × Value) :=
    fun rename => Assoc.mapKeys fun _ name => rename name
  /-- Replaces the values of a map. -/
  mapValues : (Value → Value) → List (String × Value) → List (String × Value) :=
    fun change => Assoc.mapValues fun value _ => change value

namespace Props

/-- The entry of a table for a name, if it is not empty. -/
def tableName? (table : List (String × String)) (name : String) : Option String :=
  (Assoc.get? name table).filter (! ·.isEmpty)

/-- The prop name of an attribute of a component. -/
def componentName (helpers : PropsHelpers) (names : PropNames) (attr : String) : String :=
  (tableName? names.component attr).getD (helpers.camelCase attr)

/-- The prop name of an attribute of a plain element, its own name unless the table has another. -/
def elementName (names : PropNames) (attr : String) : String :=
  (tableName? names.element attr).getD attr

def ofNamed (values : List (String × Value)) : Entries :=
  values.map fun (name, value) => (.str name, value)

/-- The props of a component before its slots are set. -/
def ofAttributes (helpers : PropsHelpers) (names : PropNames)
    (attributes : List (String × Value)) : Entries :=
  let renamed := helpers.mapNames (componentName helpers names) attributes
  ofNamed (helpers.mapValues Value.decoded renamed)

/-- Sets slots in props, one after the other. -/
def setSlots (setter : SlotSetter) (props slots : Entries) : Entries :=
  slots.foldl (fun props (name, value) => setter.set name value props) props

/-- The writes that setting slots in props brings about. Each slot finds the maps as those before it
have left them. -/
def slotWrites (setter : SlotSetter) (props slots : Entries) : List Write :=
  (slots.foldl (fun (props, writes) (name, value) =>
    let value := value.afterAll writes
    match setter.write? name value props with
    | none => (setter.set name value props, writes)
    | some write => (Value.entriesAfter write (setter.set name value props), writes ++ [write]))
    (props, ([] : List Write))).2

/-- The first reason why one of the slots cannot be set. -/
def slotRefusal? (setter : SlotSetter) (slots : Entries) : Option Fault :=
  slots.findSome? fun (name, _) => setter.refuse? name

def ofComponent (helpers : PropsHelpers) (names : PropNames) (attributes : List (String × Value))
    (slots : Entries) : Entries :=
  setSlots helpers.slots (ofAttributes helpers names attributes) slots

def ofElement (helpers : PropsHelpers) (names : PropNames) (attributes : List (String × Value)) :
    Entries :=
  ofNamed (helpers.mapNames (elementName names) attributes)

end Props

/-- The props made of attributes and slots for what is registered for the element. -/
def standardProps (helpers : PropsHelpers) (names : PropNames) (component : Value)
    (attributes : List (String × Value)) (slots : Entries) : Entries :=
  if component.truthy then Props.ofComponent helpers names attributes slots
  else Props.ofElement helpers names attributes

/-- The standard strategy with the given tables and helpers. -/
def standardStrategy {ν : Type} (helpers : PropsHelpers) (names : PropNames) :
    PropsStrategy ν where
  make attributes slots context :=
    match if context.component.truthy then Props.slotRefusal? helpers.slots slots else none with
    | some fault => .error fault
    | none => .ok (.dict none (standardProps helpers names context.component attributes slots))
  writes attributes slots context :=
    if context.component.truthy then
      Props.slotWrites helpers.slots (Props.ofAttributes helpers names attributes)
        (slots.takeWhile fun (name, _) => (helpers.slots.refuse? name).isNone)
    else []

end ComponentTree
