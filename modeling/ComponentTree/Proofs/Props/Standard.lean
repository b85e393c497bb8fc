import ComponentTree.Props.Standard
import ComponentTree.Proofs.Conversion.Visit
import ComponentTree.Proofs.Json.Reader
import ComponentTree.Proofs.Value.Nest
import Mathlib.Data.List.TakeWhile

/-!
# The props of the standard strategy

Attributes are texts, so the props that they make are data (`isData_ofAttributes`), and data is a
nest. Slots are set in it at the rows that their names are (`setSlots_named`), which gives a nest
again if the slots hold nests. Then nothing shared is ever on the way, and the strategy writes
nothing (`slotWrites_named`).
-/

namespace ComponentTree

open ComponentTree.Path
open Value (named Nest)

/-- Texts are nests, whatever is asked of leaves, as long as texts are leaves of that kind. -/
theorem Texts.nest {attributes : List (String × Value)} {leaf : Value → Prop} (h : Texts attributes)
    (hleaf : ∀ text, leaf (.ofString? text)) : ∀ pair ∈ attributes, Nest leaf pair.2 := by
  intro pair hpair
  obtain ⟨text, htext⟩ := h pair hpair
  rw [htext]
  refine .leaf ?_ (hleaf text)
  cases text <;> simp [Value.ofString?]

theorem Value.proper_ofString? (text : Option String) : (Value.ofString? text).Proper := by
  cases text <;> trivial

namespace Props

variable {leaf : Value → Prop} {slots : List (String × Value)} {props : Entries}

/-! ## Props made of attributes -/

theorem mapKeys_names_nodup (rename : Value → String → String) (attributes : List (String × Value)) :
    ((Assoc.mapKeys rename attributes).map Prod.fst).Nodup := Assoc.nodup_keys_ofPairs _

theorem texts_mapKeys {attributes : List (String × Value)} (h : Texts attributes)
    (rename : Value → String → String) : Texts (Assoc.mapKeys rename attributes) := by
  intro pair hpair
  obtain ⟨⟨name, value⟩, hpair', rfl⟩ := List.mem_map.mp (Assoc.mem_ofPairs hpair)
  exact h (name, value) hpair'

/-- Texts are decoded to data. -/
theorem isData_decoded_ofString? (text : Option String) :
    (Value.decoded (.ofString? text)).IsData := by
  cases text with
  | none => exact .null
  | some s => exact Json.isData_decoded_str s

/-- **The attributes of a component become data.** -/
theorem isData_ofAttributes {attributes : List (String × Value)} (h : Texts attributes)
    (names : PropNames) : (Value.dict none (ofAttributes {} names attributes)).IsData := by
  let renamed := Assoc.mapKeys (fun _ name => componentName {} names name) attributes
  have hrenamed : Texts renamed := texts_mapKeys h _
  have hnames : ((Assoc.mapValues (fun value _ => value.decoded) renamed).map Prod.fst).Nodup := by
    rw [Assoc.keys_mapValues Value.decoded]
    exact mapKeys_names_nodup _ attributes
  apply Value.isData_named hnames
  intro pair hpair
  obtain ⟨⟨name, value⟩, hpair', rfl⟩ := List.mem_map.mp hpair
  obtain ⟨text, htext⟩ := hrenamed _ hpair'
  show value.decoded.IsData
  rw [show value = _ from htext]
  exact isData_decoded_ofString? text

theorem nest_ofAttributes {attributes : List (String × Value)} (h : Texts attributes)
    (names : PropNames) : Nest Value.Proper (.dict none (ofAttributes {} names attributes)) :=
  (isData_ofAttributes h names).nest

/-- The attributes of a plain element become a map of texts. -/
theorem nest_ofElement {attributes : List (String × Value)} (h : Texts attributes)
    (hleaf : ∀ text, leaf (.ofString? text)) (names : PropNames) :
    Nest leaf (.dict none (ofElement {} names attributes)) := by
  let renamed := Assoc.mapKeys (fun _ name => elementName names name) attributes
  have hrenamed : Texts renamed := texts_mapKeys h _
  have hnames : (renamed.map Prod.fst).Nodup := mapKeys_names_nodup _ attributes
  exact .named hnames (hrenamed.nest hleaf)

/-! ## Setting slots -/

/-- The rows at whose ends slots are set, with their values. -/
def rowsOf (slots : List (String × Value)) : List (List String × Value) :=
  slots.map fun (name, value) => (keys name, value)

theorem setSlots_named (slots : List (String × Value)) (props : Entries) :
    setSlots .byPath props (named slots) = assignAll (rowsOf slots) props := by
  induction slots generalizing props with
  | nil => rfl
  | cons slot slots ih =>
    show setSlots .byPath (Path.set slot.1 slot.2 props) (named slots) = _
    rw [ih, set_eq_assign]
    rfl

theorem slotRefusal?_named (slots : List (String × Value)) :
    slotRefusal? .byPath (named slots) = none := by
  rw [slotRefusal?, List.findSome?_eq_none_iff]
  intro slot hslot
  obtain ⟨pair, -, rfl⟩ := List.mem_map.mp hslot
  rfl

/-- Slots bring about no write if at each of them its path does not. -/
theorem slotWrites_cons {name : String} {value : Value} (h : Path.write? name value props = none) :
    slotWrites .byPath props (named ((name, value) :: slots)) =
      slotWrites .byPath (Path.set name value props) (named slots) := by
  have hset : SlotSetter.byPath.write? (.str name) (value.afterAll []) props = none := h
  rw [slotWrites, named, List.map_cons, List.foldl_cons]
  simp only [hset]
  rfl

/-- **Slots that are set in a nest write nothing.** -/
theorem slotWrites_named (hprops : Nest leaf (.dict none props))
    (hslots : ∀ slot ∈ slots, Nest leaf slot.2) :
    slotWrites .byPath props (named slots) = [] := by
  induction slots generalizing props with
  | nil => rfl
  | cons slot slots ih =>
    have hwrite : Path.write? slot.1 slot.2 props = none := by
      rw [write?_eq]
      exact hprops.assignWrite?_eq_none ..
    rw [slotWrites_cons hwrite]
    apply ih
    · rw [set_eq_assign]
      exact hprops.assign _ (hslots slot List.mem_cons_self)
    · exact fun slot hslot => hslots slot (List.mem_cons_of_mem _ hslot)

theorem nest_assignAll {rows : List (List String × Value)} (hprops : Nest leaf (.dict none props))
    (hrows : ∀ row ∈ rows, Nest leaf row.2) : Nest leaf (.dict none (assignAll rows props)) := by
  induction rows generalizing props with
  | nil => exact hprops
  | cons row rows ih =>
    exact ih (hprops.assign row.1 (hrows row List.mem_cons_self))
      fun row hrow => hrows row (List.mem_cons_of_mem _ hrow)

end Props

/-! ## The strategy -/

section Strategy

variable {ν : Type} {names : PropNames} {attributes slots : List (String × Value)}
variable {context : PropsContext ν} {leaf : Value → Prop}

/-- The props of a component: its attributes, with the slots set in them. -/
theorem standardStrategy_make_component (h : context.component.truthy = true) :
    (standardStrategy {} names).make attributes (named slots) context =
      .ok (.dict none (assignAll (Props.rowsOf slots) (Props.ofAttributes {} names attributes))) := by
  have hrefusal : Props.slotRefusal? ({} : PropsHelpers).slots (named slots) = none :=
    Props.slotRefusal?_named slots
  simp only [standardStrategy, h, if_true, hrefusal, standardProps, ← Props.setSlots_named]
  rfl

/-- The props of a plain element: its attributes, whatever the slots are. -/
theorem standardStrategy_make_element (h : context.component.truthy = false) (slots : Entries) :
    (standardStrategy {} names).make attributes slots context =
      .ok (.dict none (Props.ofElement {} names attributes)) := by
  simp only [standardStrategy, h, Bool.false_eq_true, if_false, standardProps]

/-- No slot is left out of what is looked through for writes. -/
theorem standardStrategy_writes_component (h : context.component.truthy = true) :
    (standardStrategy {} names).writes attributes (named slots) context =
      Props.slotWrites .byPath (Props.ofAttributes {} names attributes) (named slots) := by
  have hnamed : (named slots).takeWhile (fun slot => (SlotSetter.byPath.refuse? slot.1).isNone) =
      named slots := by
    rw [List.takeWhile_eq_self_iff]
    intro slot hslot
    obtain ⟨pair, -, rfl⟩ := List.mem_map.mp hslot
    rfl
  show (if context.component.truthy = true then Props.slotWrites .byPath _
    ((named slots).takeWhile fun slot => (SlotSetter.byPath.refuse? slot.1).isNone) else []) = _
  rw [if_pos h, hnamed]

theorem standardStrategy_writes_element (h : context.component.truthy = false) (slots : Entries) :
    (standardStrategy {} names).writes attributes slots context = [] := by
  simp only [standardStrategy, h, Bool.false_eq_true, if_false]

theorem standardStrategy_writes_eq_nil (hattributes : Texts attributes)
    (hslots : ∀ slot ∈ slots, Nest leaf slot.2) :
    (standardStrategy {} names).writes attributes (named slots) context = [] := by
  cases h : context.component.truthy with
  | false => exact standardStrategy_writes_element h _
  | true =>
    rw [standardStrategy_writes_component h]
    have hprops : Nest (fun _ => True) (.dict none (Props.ofAttributes {} names attributes)) :=
      (Props.nest_ofAttributes hattributes names).mono fun _ _ => trivial
    exact Props.slotWrites_named hprops fun slot hslot => (hslots slot hslot).mono fun _ _ => trivial

end Strategy

end ComponentTree
