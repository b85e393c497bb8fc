import ComponentTree.Converter
import ComponentTree.Proofs.Assoc
import ComponentTree.Proofs.Source.Sketch
import ComponentTree.Proofs.Value.Equality
import Mathlib.Data.List.Nodup

/-!
# Descriptors that markup can express

Markup has tags where a descriptor has types, and it has no props but attributes, which are texts.
A registry of components gives a tag to each component. An element in a prop of a component can be
written as a child that names the prop as its slot. What can be written with these means is
*expressible* (`Expressible`), and `sketch` writes it.

A conversion sets the props that are texts before those that are slots, so it does not give back the
order in which the two are mixed. `arranged` is a descriptor in the order that comes back, and it is
like the descriptor (`alike_arranged`), because the order of props does not count.
-/

namespace ComponentTree

/-! ## Registries -/

/-- Components by their tags. All tags are in lower case and no two are the same; no component counts
as absent, is a text, or is like another one. -/
structure Registry where
  components : List (String × Value)
  lower : ∀ c ∈ components, lowercase c.1 = c.1
  nodup : (components.map Prod.fst).Nodup
  distinct : components.Pairwise fun a b => (a.2 == b.2) = false
  proper : ∀ c ∈ components, c.2.Proper
  truthy : ∀ c ∈ components, c.2.truthy = true
  noText : ∀ c ∈ components, ∀ text, c.2 ≠ .str text

namespace Registry

variable {r : Registry} {tag : String} {type : Value}

/-- The collaborators of a converter that makes plain element values. -/
def host {ν : Type} (r : Registry) : Host ν := (Converter.plain r.components none).host

/-- What a converter finds for a tag, null if nothing is registered. -/
def lookup (r : Registry) (tag : String) : Value :=
  (Assoc.get? tag (Converter.register r.components)).getD .null

/-- Tags that are in lower case already are registered as they are. -/
theorem register_components (r : Registry) : Converter.register r.components = r.components := by
  have hlower : ∀ c ∈ r.components, (lowercase c.1, c.2) = id c :=
    fun c hc => Prod.ext (r.lower c hc) rfl
  have hsame := (List.map_congr_left hlower).trans (List.map_id _)
  exact (congrArg Assoc.ofPairs hsame).trans (Assoc.ofPairs_of_nodup r.nodup)

/-- The type is a component of the registry. -/
def IsComponent (r : Registry) (type : Value) : Prop := ∃ tag, (tag, type) ∈ r.components

/-- The type is a tag in lower case for which nothing is registered. -/
def IsPlain (r : Registry) (type : Value) : Prop :=
  ∃ tag, type = .str tag ∧ lowercase tag = tag ∧ tag ∉ r.components.map Prod.fst

/-- The tag of a type: a tag itself, or the tag under which a component is registered. -/
def tagOf (r : Registry) : Value → String
  | .str tag => tag
  | type => ((r.components.find? fun c => c.2 == type).map Prod.fst).getD ""

theorem find?_component (h : (tag, type) ∈ r.components) :
    (r.components.find? fun c => c.2 == type) = some (tag, type) := by
  have hself : (type == type) = true := Value.alike_self type (r.proper _ h)
  have hdistinct := r.distinct
  generalize r.components = components at h hdistinct
  induction components with
  | nil => cases h
  | cons c components ih =>
    obtain ⟨hc, hrest⟩ := List.pairwise_cons.mp hdistinct
    rcases List.mem_cons.mp h with rfl | h
    · rw [List.find?_cons, hself]
    · rw [List.find?_cons, hc _ h]
      exact ih h hrest

theorem tagOf_component (h : (tag, type) ∈ r.components) : r.tagOf type = tag := by
  unfold tagOf
  split
  · next text => exact absurd rfl (r.noText _ h text)
  · rw [find?_component h]
    rfl

theorem lookup_of_isComponent (h : r.IsComponent type) : r.lookup (r.tagOf type) = type := by
  obtain ⟨tag, h⟩ := h
  rw [tagOf_component h, lookup, register_components, Assoc.get?_of_mem r.nodup h]
  rfl

theorem truthy_of_isComponent (h : r.IsComponent type) : type.truthy = true := by
  obtain ⟨tag, h⟩ := h
  exact r.truthy _ h

theorem lookup_of_isPlain (h : r.IsPlain type) : r.lookup (r.tagOf type) = .null := by
  obtain ⟨tag, rfl, -, hfree⟩ := h
  have hnone : Assoc.get? tag r.components = none := by
    refine Assoc.get?_eq_none fun c hc => beq_false_of_ne ?_
    rintro rfl
    exact hfree (List.mem_map_of_mem hc)
  rw [tagOf, lookup, register_components, hnone]
  rfl

theorem lowercase_tagOf (h : r.IsComponent type ∨ r.IsPlain type) :
    lowercase (r.tagOf type) = r.tagOf type := by
  rcases h with ⟨tag, h⟩ | ⟨tag, rfl, hlower, -⟩
  · rw [tagOf_component h]
    exact r.lower (tag, type) h
  · rw [tagOf, hlower]

theorem truthy_lookup_iff (h : r.IsComponent type ∨ r.IsPlain type) :
    (r.lookup (r.tagOf type)).truthy = true ↔ r.IsComponent type := by
  rcases h with h | h
  · rw [lookup_of_isComponent h]
    exact iff_of_true (truthy_of_isComponent h) h
  · rw [lookup_of_isPlain h]
    obtain ⟨tag, rfl, -, -⟩ := h
    refine iff_of_false Bool.false_ne_true ?_
    rintro ⟨tag', hmem⟩
    exact r.noText _ hmem tag rfl

/-- The type of a descriptor comes back from its tag. -/
theorem lookup_orElse (h : r.IsComponent type ∨ r.IsPlain type) :
    (r.lookup (r.tagOf type)).orElse (.str (r.tagOf type)) = type := by
  rcases h with h | h
  · rw [lookup_of_isComponent h, Value.orElse, if_pos (truthy_of_isComponent h)]
  · rw [lookup_of_isPlain h]
    obtain ⟨tag, rfl, -, -⟩ := h
    rfl

end Registry

/-! ## Descriptors as markup -/

namespace Value

def isElement : Value → Bool
  | .element .. => true
  | _ => false

def props : Value → Entries
  | .element _ props _ => props
  | _ => []

def asText : Value → String
  | .str text => text
  | _ => ""

end Value

namespace Descriptor

/-- A prop that is a text, with its name. -/
def text? : Value × Value → Option (String × String)
  | (.str name, .str text) => some (name, text)
  | _ => none

/-- The props that are texts, with their names. -/
def texts (props : Entries) : List (String × String) := props.filterMap text?

def ofTexts (texts : List (String × String)) : Entries :=
  texts.map fun (name, text) => (.str name, .str text)

mutual
/-- What markup can express: elements of a component or a plain tag, with texts as props under names
in lower case, and with texts and expressible elements as children. Only a component may have
elements in props, under any names that are not empty. A text in the prop `slot` would be in the way
where an element is written as a child of a component: it must be empty, and in a prop of the
component there must be none. -/
def Expressible (r : Registry) : Value → Prop
  | .element type props children =>
    (r.IsComponent type ∨ r.IsPlain type) ∧ (props.map Prod.fst).Nodup ∧
      PropsExpressible r type props ∧ ChildrenExpressible r type children
  | _ => False

/-- The same for the props of an element of a type. -/
def PropsExpressible (r : Registry) (type : Value) : List (Value × Value) → Prop
  | [] => True
  | (key, value) :: props =>
    (∃ name, key = .str name ∧
      ((lowercase name = name ∧ ∃ text, value = .str text) ∨
        (r.IsComponent type ∧ name ≠ "" ∧ Expressible r value ∧
          ∀ text, (.str slotAttribute, .str text) ∉ value.props))) ∧
      PropsExpressible r type props

/-- The same for the children of an element of a type. -/
def ChildrenExpressible (r : Registry) (type : Value) : List Value → Prop
  | [] => True
  | child :: children =>
    ((∃ text, child = .str text ∧ text ≠ "") ∨
      (Expressible r child ∧ (r.IsComponent type →
        ∀ text, (.str slotAttribute, .str text) ∈ child.props → text = ""))) ∧
      ChildrenExpressible r type children
end

/-- The attributes that a descriptor is written with: its text props, and the slot it is to go to. -/
def attributes (slot : Option String) (props : Entries) : List (String × String) :=
  texts props ++ slot.toList.map fun name => (slotAttribute, name)

mutual
/-- A descriptor written as markup, with a slot attribute if it is to go into a slot. -/
def sketch (r : Registry) (slot : Option String) : Value → Sketch
  | .element type props children =>
    .element (r.tagOf type)
      ((attributes slot props).map fun (name, text) => (name, .whole text))
      (slotSketches r props ++ childSketches r children)
  | other => .text other.asText

/-- The elements in props, each as a child for its slot. -/
def slotSketches (r : Registry) : List (Value × Value) → List Sketch
  | [] => []
  | (key, value) :: props =>
    if value.isElement then sketch r (some key.asText) value :: slotSketches r props
    else slotSketches r props

/-- The children, each as a child without a slot. -/
def childSketches (r : Registry) : List Value → List Sketch
  | [] => []
  | child :: children => sketch r none child :: childSketches r children
end

mutual
/-- A descriptor with the text props of every element before its other props. -/
def arranged : Value → Value
  | .element type props children =>
    .element type (ofTexts (texts props) ++ slotProps props) (arrangedAll children)
  | other => other

def slotProps : List (Value × Value) → List (Value × Value)
  | [] => []
  | (key, value) :: props =>
    if value.isElement then (key, arranged value) :: slotProps props else slotProps props

def arrangedAll : List Value → List Value
  | [] => []
  | child :: children => arranged child :: arrangedAll children
end

/-! ## The props of an expressible descriptor -/

variable {r : Registry} {type : Value} {props : Entries}

theorem text?_eq_some_iff {entry : Value × Value} {name text : String} :
    text? entry = some (name, text) ↔ entry = (.str name, .str text) := by
  obtain ⟨key, value⟩ := entry
  unfold text?
  split
  · next h => cases h; simp
  · next h =>
    refine iff_of_false (by simp) ?_
    rintro heq
    cases heq
    exact h _ _ rfl

theorem mem_texts {name text : String} :
    (name, text) ∈ texts props ↔ (.str name, .str text) ∈ props := by
  simp only [texts, List.mem_filterMap, text?_eq_some_iff, exists_eq_right]

theorem Expressible.exists_element {d : Value} (h : Expressible r d) :
    ∃ type props children, d = .element type props children := by
  cases d with
  | element type props children => exact ⟨type, props, children, rfl⟩
  | _ => simp only [Expressible] at h

theorem Expressible.isElement {d : Value} (h : Expressible r d) : d.isElement = true := by
  obtain ⟨type, props, children, rfl⟩ := h.exists_element
  rfl

theorem texts_cons_element {key value : Value} (h : value.isElement = true) (props : Entries) :
    texts ((key, value) :: props) = texts props := by
  have hnone : text? (key, value) = none := by
    unfold text?
    split
    · next heq => cases heq; cases h
    · rfl
  rw [texts, List.filterMap_cons_none hnone, texts]

/-- Sorting the props does not change which keys there are. -/
theorem keys_perm : ∀ {props : Entries}, PropsExpressible r type props →
    ((ofTexts (texts props) ++ slotProps props).map Prod.fst).Perm (props.map Prod.fst)
  | [], _ => .nil
  | (key, value) :: props, h => by
    rw [PropsExpressible] at h
    obtain ⟨⟨name, rfl, hvalue⟩, hrest⟩ := h
    have ih := keys_perm hrest
    rcases hvalue with ⟨-, text, rfl⟩ | ⟨-, -, hvalue, -⟩
    · exact ih.cons (.str name)
    · rw [texts_cons_element hvalue.isElement, slotProps, if_pos hvalue.isElement, List.map_append,
        List.map_cons, List.map_cons]
      rw [List.map_append] at ih
      exact List.perm_middle.trans (ih.cons _)

theorem lower_of_mem_texts : ∀ {props : Entries}, PropsExpressible r type props →
    ∀ a ∈ texts props, lowercase a.1 = a.1
  | [], _, a, ha => by cases ha
  | (key, value) :: props, h, a, ha => by
    rw [PropsExpressible] at h
    obtain ⟨⟨name, rfl, hvalue⟩, hrest⟩ := h
    rcases hvalue with ⟨hlower, text, rfl⟩ | ⟨-, -, hvalue, -⟩
    · rcases List.mem_cons.mp ha with rfl | ha
      · exact hlower
      · exact lower_of_mem_texts hrest a ha
    · rw [texts_cons_element hvalue.isElement] at ha
      exact lower_of_mem_texts hrest a ha

theorem names_texts_sublist (props : Entries) :
    ((texts props).map fun a => Value.str a.1).Sublist (props.map Prod.fst) := by
  induction props with
  | nil => exact .slnil
  | cons entry props ih =>
    rw [texts, List.filterMap_cons]
    split
    · exact ih.cons _
    · next a heq =>
      obtain ⟨name, text⟩ := a
      rw [text?_eq_some_iff] at heq
      rw [heq]
      exact ih.cons_cons _

theorem nodup_names_texts (h : (props.map Prod.fst).Nodup) :
    ((texts props).map Prod.fst).Nodup := by
  have hnodup : (((texts props).map Prod.fst).map Value.str).Nodup := by
    rw [List.map_map]
    exact h.sublist (names_texts_sublist props)
  exact hnodup.of_map _

/-! ## Arranging changes nothing -/

/-- The keys of the arranged props are texts, and no two are the same. -/
theorem keys_arranged (hp : PropsExpressible r type props) (hn : (props.map Prod.fst).Nodup) :
    (ofTexts (texts props) ++ slotProps props).Pairwise fun a b =>
      Value.alike a.1 b.1 = false ∧ Value.alike b.1 a.1 = false := by
  have hnodup := (keys_perm hp).nodup_iff.mpr hn
  -- keys that are texts are alike only if they are the same
  have htext : ∀ {props : Entries}, PropsExpressible r type props →
      ∀ key ∈ props.map Prod.fst, ∃ name, key = .str name := by
    intro props
    induction props with
    | nil => intro _ key hk; cases hk
    | cons entry props ih =>
      intro h key hk
      rw [PropsExpressible] at h
      obtain ⟨⟨name, hname, -⟩, hrest⟩ := h
      rcases List.mem_cons.mp hk with rfl | hk
      · exact ⟨name, hname⟩
      · exact ih hrest key hk
  have hkeys : ∀ e ∈ ofTexts (texts props) ++ slotProps props, ∃ name, e.1 = .str name :=
    fun e he => htext hp _ ((keys_perm hp).mem_iff.mp (List.mem_map_of_mem he))
  refine (List.pairwise_map.mp hnodup).imp_of_mem fun {a b} ha hb hne => ?_
  obtain ⟨name, hname⟩ := hkeys a ha
  obtain ⟨name', hname'⟩ := hkeys b hb
  rw [hname, hname'] at hne ⊢
  have hne' : name ≠ name' := fun heq => hne (congrArg _ heq)
  exact ⟨beq_false_of_ne hne', beq_false_of_ne hne'.symm⟩

theorem alike_type (h : r.IsComponent type ∨ r.IsPlain type) : Value.alike type type = true := by
  rcases h with ⟨tag, h⟩ | ⟨tag, rfl, -⟩
  · exact Value.alike_self type (r.proper _ h)
  · exact Value.alike_self _ trivial

mutual
/-- **An expressible descriptor is like itself with its props arranged.** -/
theorem alike_arranged : ∀ d : Value, Expressible r d → Value.alike d (arranged d) = true
  | d, hd => by
    cases d with
    | element type props children =>
      rw [Expressible] at hd
      obtain ⟨htype, hnodup, hprops, hchildren⟩ := hd
      have hlength : props.length = (ofTexts (texts props) ++ slotProps props).length := by
        have hperm := (keys_perm hprops).length_eq
        rw [List.length_map, List.length_map] at hperm
        exact hperm.symm
      -- each prop is looked up among the arranged ones, where its key stands once
      have hdistinct : Value.DistinctKeys (ofTexts (texts props) ++ slotProps props) :=
        (keys_arranged hprops hnodup).imp fun h => h.2
      rw [arranged, Value.alike, alike_type htype, ← hlength, beq_self_eq_true,
        alikeEntries_arranged hdistinct props hprops fun e he => he,
        alikeItems_arranged children hchildren]
      rfl
    | _ => simp only [Expressible] at hd

theorem alikeEntries_arranged {type : Value} {all : Entries} (hall : Value.DistinctKeys all) :
    ∀ props : Entries, PropsExpressible r type props →
      (∀ e ∈ ofTexts (texts props) ++ slotProps props, e ∈ all) →
      Value.alikeEntries props all = true
  | [], _, _ => rfl
  | (key, value) :: props, h, hmem => by
    rw [PropsExpressible] at h
    obtain ⟨⟨name, rfl, hvalue⟩, hrest⟩ := h
    rcases hvalue with ⟨-, text, rfl⟩ | ⟨-, -, hvalue, -⟩
    · have hfound := Value.find?_of_mem hall (hmem (.str name, .str text) List.mem_cons_self)
        (Value.alike_self _ trivial)
      rw [Value.alikeEntries, hfound, Option.elim, Value.alike_self (.str text) trivial, Bool.true_and]
      exact alikeEntries_arranged hall props hrest fun e he => hmem e (List.mem_cons_of_mem _ he)
    · rw [texts_cons_element hvalue.isElement, slotProps, if_pos hvalue.isElement] at hmem
      have hfound := Value.find?_of_mem hall (hmem (.str name, arranged value) (by simp))
        (Value.alike_self _ trivial)
      rw [Value.alikeEntries, hfound, Option.elim, alike_arranged value hvalue, Bool.true_and]
      refine alikeEntries_arranged hall props hrest fun e he => hmem e ?_
      rw [List.mem_append] at he ⊢
      exact he.imp_right (List.mem_cons_of_mem _)

theorem alikeItems_arranged {type : Value} : ∀ children : List Value,
    ChildrenExpressible r type children →
      Value.alikeItems children (arrangedAll children) = true
  | [], _ => rfl
  | child :: children, h => by
    rw [ChildrenExpressible] at h
    obtain ⟨hchild, hrest⟩ := h
    have hlike : Value.alike child (arranged child) = true := by
      rcases hchild with ⟨text, rfl, -⟩ | ⟨hchild, -⟩
      · exact Value.alike_self _ trivial
      · exact alike_arranged child hchild
    rw [arrangedAll, Value.alikeItems, hlike, alikeItems_arranged children hrest]
    rfl
end

/-- Where a descriptor equals itself at all, it equals itself with its props arranged. -/
theorem equal_arranged {d : Value} (hd : Expressible r d) (h : d.equal d = true) :
    d.equal (arranged d) = true := by
  have hlike := alike_arranged d hd
  obtain ⟨type, props, children, rfl⟩ := hd.exists_element
  rw [arranged, Value.alike] at hlike
  rw [arranged]
  simp only [Value.equal, Bool.and_eq_true] at h hlike ⊢
  exact ⟨⟨⟨h.1.1.1, hlike.1.1.2⟩, hlike.1.2⟩, hlike.2⟩

/-! ## What is written is well named -/

variable {slot : Option String}

theorem lower_of_mem_attributes (hp : PropsExpressible r type props) :
    ∀ a ∈ attributes slot props, lowercase a.1 = a.1 := by
  intro a ha
  rcases List.mem_append.mp ha with ha | ha
  · exact lower_of_mem_texts hp a ha
  · obtain ⟨name, -, rfl⟩ := List.mem_map.mp ha
    show lowercase slotAttribute = slotAttribute
    decide

theorem names_written (hp : PropsExpressible r type props) :
    (((attributes slot props).map fun (name, text) => (name, AttributeText.whole text)).map
      fun a => lowercase a.1) = (attributes slot props).map Prod.fst := by
  rw [List.map_map]
  refine List.map_congr_left fun a ha => ?_
  have hlower := lower_of_mem_attributes hp a ha
  obtain ⟨name, text⟩ := a
  exact hlower

/-- The slot attribute does not clash with a text if there is none in the prop `slot`. -/
theorem nodup_names_attributes (h : (props.map Prod.fst).Nodup)
    (hslot : slot.isSome → ∀ text, (.str slotAttribute, .str text) ∉ props) :
    ((attributes slot props).map Prod.fst).Nodup := by
  rw [attributes, List.map_append]
  cases slot with
  | none => simpa using nodup_names_texts h
  | some name =>
    refine List.nodup_append.mpr ⟨nodup_names_texts h, List.nodup_singleton _, ?_⟩
    rintro _ ha _ hb rfl
    rw [Option.toList_some, List.map_singleton, List.map_singleton, List.mem_singleton] at hb
    obtain ⟨⟨name', text⟩, hmem, rfl⟩ := List.mem_map.mp ha
    obtain rfl : name' = slotAttribute := hb
    exact hslot rfl text (mem_texts.mp hmem)

theorem allWellNamed_append : ∀ {ts us : List Sketch}, Sketch.AllWellNamed ts →
    Sketch.AllWellNamed us → Sketch.AllWellNamed (ts ++ us)
  | [], _, _, hus => hus
  | _ :: _, _, hts, hus => ⟨hts.1, allWellNamed_append hts.2 hus⟩

mutual
theorem sketch_wellNamed : ∀ (d : Value) (slot : Option String), Expressible r d →
    (slot.isSome → ∀ text, (.str slotAttribute, .str text) ∉ d.props) → (sketch r slot d).WellNamed
  | d, slot, hd, hslot => by
    cases d with
    | element type props children =>
      rw [Expressible] at hd
      obtain ⟨-, hnodup, hprops, hchildren⟩ := hd
      rw [sketch, Sketch.WellNamed, names_written hprops]
      exact ⟨nodup_names_attributes hnodup hslot,
        allWellNamed_append (slotSketches_wellNamed props hprops)
          (childSketches_wellNamed children hchildren)⟩
    | _ => simp only [Expressible] at hd

theorem slotSketches_wellNamed : ∀ {type : Value} (props : Entries), PropsExpressible r type props →
    Sketch.AllWellNamed (slotSketches r props)
  | _, [], _ => trivial
  | _, (key, value) :: props, h => by
    rw [PropsExpressible] at h
    obtain ⟨⟨name, rfl, hvalue⟩, hrest⟩ := h
    rcases hvalue with ⟨-, text, rfl⟩ | ⟨-, -, hvalue, hslot⟩
    · exact slotSketches_wellNamed props hrest
    · rw [slotSketches, if_pos hvalue.isElement]
      exact ⟨sketch_wellNamed value _ hvalue fun _ => hslot, slotSketches_wellNamed props hrest⟩

theorem childSketches_wellNamed : ∀ {type : Value} (children : List Value),
    ChildrenExpressible r type children → Sketch.AllWellNamed (childSketches r children)
  | _, [], _ => trivial
  | _, child :: children, h => by
    rw [ChildrenExpressible] at h
    obtain ⟨hchild, hrest⟩ := h
    refine ⟨?_, childSketches_wellNamed children hrest⟩
    rcases hchild with ⟨text, rfl, -⟩ | ⟨hchild, -⟩
    · exact trivial
    · exact sketch_wellNamed child none hchild fun hnone => by cases hnone
end

end Descriptor

end ComponentTree
