import ComponentTree.Proofs.Conversion.Kept
import ComponentTree.Proofs.Data
import ComponentTree.Proofs.Source.Interchange

/-!
# Conversion and translation

A translation takes what one builder makes to what another one makes (`Translates`). Converting with
the second builder is then converting with the first one and translating the result
(`convert_translated`): it does not matter whether a descriptor is translated once it is complete, or
each element as it is built.

The two conversions run in step. They end with the same fault, or the second gives what the first one
gives under a change (`Course.InStep`), which passes through sequencing and through one course for each
item. So the module follows the parts of a visit: where a child goes, what an element gathers, what is
built of it.
-/

namespace ComponentTree

open Value (named)

variable {ν α β γ δ : Type}

/-! ## Courses in step -/

namespace Course

/-- With nothing written before, both courses end with one fault, or the second gives what the first
one gives under a change. What is given is of a certain kind. -/
inductive InStep (kind : α → Prop) (change : α → β) (c : Course ν α) (d : Course ν β) : Prop
  | stops {fault : Fault} : c.Stops fault → d.Stops fault → InStep kind change c d
  | gives {a : α} : c.Gives a → d.Gives (change a) → kind a → InStep kind change c d

variable {kind : α → Prop} {kind' : γ → Prop} {change : α → β} {change' : γ → δ}

theorem InStep.bind {c : Course ν α} {d : Course ν β} {f : α → Course ν γ} {g : β → Course ν δ}
    (h : c.InStep kind change d)
    (hf : ∀ a, kind a → (f a).InStep kind' change' (g (change a))) :
    (c >>= f).InStep kind' change' (d >>= g) := by
  cases h with
  | stops hc hd => exact .stops (hc.bind f) (hd.bind g)
  | @gives a hc hd ha =>
    cases hf a ha with
    | stops hc' hd' => exact .stops (hc.bind_stops hc') (hd.bind_stops hd')
    | gives hc' hd' hb => exact .gives (hc.bind hc') (hd.bind hd') hb

theorem inStep_pure {a : α} (ha : kind a) :
    (pure a : Course ν α).InStep kind change (pure (change a)) :=
  .gives (gives_pure a) (gives_pure (change a)) ha

/-- Steps are in step if their outcomes are. -/
theorem inStep_step {s t : Step ν} {outcome : Except Fault α} {outcome' : Except Fault β}
    (h : outcome' = outcome.map change) (hkind : ∀ a, outcome = .ok a → kind a) :
    (step s outcome).InStep kind change (step t outcome') := by
  subst h
  cases outcome with
  | error fault => exact .stops rfl rfl
  | ok a => exact .gives (gives_step s a) (gives_step t (change a)) (hkind a rfl)

theorem InStep.forEach {f : γ → Course ν α} {g : γ → Course ν β} :
    ∀ {l : List γ}, (∀ a ∈ l, (f a).InStep kind change (g a)) →
      (Course.forEach f l).InStep (∀ b ∈ ·, kind b) (List.map change) (Course.forEach g l)
  | [], _ => .gives (gives_pure []) (gives_pure []) (by simp)
  | a :: l, h => by
    rw [forEach_cons, forEach_cons]
    refine (h a List.mem_cons_self).bind fun b hb => ?_
    have hrest := InStep.forEach (l := l) fun c hc => h c (List.mem_cons_of_mem a hc)
    refine hrest.bind fun bs hbs => ?_
    refine .gives (gives_pure (b :: bs)) (gives_pure _) ?_
    simpa using ⟨hb, hbs⟩

theorem InStep.settled {kind : Value → Prop} {f : Value → Value} {c d : Course ν Value}
    (h : c.InStep kind f d) : (d.run []).settled = (c.run []).settled.map f := by
  cases h with
  | stops hc hd =>
    rw [hc.settled, hd.settled]
    rfl
  | gives hc hd _ =>
    rw [hc.settled, hd.settled]
    rfl

end Course

/-! ## Translations -/

/-- Collaborators with a builder and a registry, and without a props strategy. -/
def Host.merging (build : Value → Value → List Value → Except Fault Value)
    (component : String → Except Fault Value) (fragmentType : Value) : Host ν where
  build := build
  fragment := fragmentType
  component := component
  props := none

variable {build₁ build₂ : Value → Value → List Value → Except Fault Value} {f : Value → Value}

/-- Whether a builder can give a value. -/
def Returned (build : Value → Value → List Value → Except Fault Value) (r : Value) : Prop :=
  ∃ type props children, build type props children = .ok r

/-- What a builder is given as a child or as a prop: a text, or something that it gave itself. -/
def Given (build : Value → Value → List Value → Except Fault Value) (v : Value) : Prop :=
  (∃ text, v = .str text) ∨ Returned build v

/-- A function that takes what one builder makes to what another one makes of translated props and
children. Texts and null it leaves alone, and it makes nothing else null or empty. -/
structure Translates (build₁ build₂ : Value → Value → List Value → Except Fault Value)
    (f : Value → Value) : Prop where
  text : ∀ text, f (.str text) = .str text
  null : f .null = .null
  kept : ∀ r, Returned build₁ r → f r = .null ∨ f r = .str "" → r = .null ∨ r = .str ""
  commutes : ∀ (type : Value) (pairs : List (String × Value)) (children : List Value),
    (pairs.map Prod.fst).Nodup → (∀ pair ∈ pairs, Given build₁ pair.2) →
    (∀ child ∈ children, Given build₁ child) →
    build₂ type (.dict none (named (Assoc.mapValues (fun v _ => f v) pairs))) (children.map f) =
      (build₁ type (.dict none (named pairs)) children).map f

theorem Value.isChild_eq_false {v : Value} : v.isChild = false ↔ v = .null ∨ v = .str "" := by
  cases v <;> simp [isChild]

theorem Translates.isChild {v : Value} (h : Translates build₁ build₂ f) (hv : Given build₁ v) :
    (f v).isChild = v.isChild := by
  rcases hv with ⟨text, rfl⟩ | hr
  · rw [h.text]
  · rw [Bool.eq_iff_iff, ← not_iff_not, Bool.not_eq_true, Bool.not_eq_true,
      Value.isChild_eq_false, Value.isChild_eq_false]
    constructor
    · exact h.kept v hr
    · rintro (rfl | rfl)
      · exact .inl h.null
      · exact .inr (h.text "")

theorem Translates.ofString? (h : Translates build₁ build₂ f) (text : Option String) :
    f (.ofString? text) = .ofString? text := by
  cases text with
  | none => exact h.null
  | some text => exact h.text text

/-- A translation leaves texts under names alone. -/
theorem Translates.mapValues_texts {attributes : List (String × Value)}
    (h : Translates build₁ build₂ f)
    (hattributes : ∀ pair ∈ attributes, ∃ text, pair.2 = .str text) :
    Assoc.mapValues (fun v _ => f v) attributes = attributes := by
  have hsame : ∀ pair ∈ attributes, (pair.1, f pair.2) = id pair := by
    rintro ⟨name, value⟩ hpair
    obtain ⟨text, rfl⟩ := hattributes _ hpair
    rw [h.text]
    rfl
  exact (List.map_congr_left hsame).trans (List.map_id attributes)

/-- Every attribute that is listed in a part of a source is a text. -/
def Source.Worded (source : Source ν) (part : ν → Prop) : Prop :=
  ∀ {a}, part a → ∀ name ∈ source.attributeNames a,
    ∃ text, source.attributeValue a name = .ok (.str text)

namespace Conversion

/-! ## Placements -/

namespace Placement

/-- A placement of another value at the same place. -/
def change (f : Value → Value) : Placement → Placement
  | .slot name value => .slot name (f value)
  | .child value => .child (f value)

/-- A placement of a value of some kind, under a text if it fills a slot. -/
def Holds (p : Value → Prop) : Placement → Prop
  | .slot name value => (∃ text, name = .str text) ∧ p value
  | .child value => p value

/-- Where a child goes, if anywhere, a value of some kind is placed. -/
def AllHold (p : Value → Prop) (placement : Option Placement) : Prop :=
  ∀ q ∈ placement, q.Holds p

end Placement

theorem childrenOf_change (placed : List Placement) :
    childrenOf (placed.map (.change f)) = (childrenOf placed).map f := by
  induction placed with
  | nil => rfl
  | cons placement placed ih =>
    rw [childrenOf] at ih ⊢
    cases placement <;> simpa [childrenOf, Placement.change] using ih

theorem holds_childrenOf {p : Value → Prop} {placed : List Placement}
    (h : ∀ placement ∈ placed, placement.Holds p) : ∀ v ∈ childrenOf placed, p v := by
  intro v hv
  obtain ⟨placement, hplacement, hchild⟩ := List.mem_filterMap.mp hv
  cases placement with
  | slot => cases hchild
  | child value =>
    cases hchild
    exact h _ hplacement

/-- The slots that placements under texts fill, and those that they fill once they are changed. -/
theorem exists_slots {p : Value → Prop} {placed : List Placement}
    (h : ∀ placement ∈ placed, placement.Holds p) :
    ∃ slots : List (String × Value), slotsOf placed = named slots ∧ (∀ slot ∈ slots, p slot.2) ∧
      ∀ f : Value → Value, slotsOf (placed.map (.change f)) =
        named (Assoc.mapValues (fun v _ => f v) slots) := by
  -- before they are made a map, the slots are pairs with texts for names
  have hpairs : ∃ pairs : List (String × Value), placed.filterMap slotEntry? = named pairs ∧
      (∀ pair ∈ pairs, p pair.2) ∧ ∀ f : Value → Value,
        (placed.map (.change f)).filterMap slotEntry? =
          named (Assoc.mapValues (fun v _ => f v) pairs) := by
    induction placed with
    | nil => exact ⟨[], rfl, by simp, fun _ => rfl⟩
    | cons placement placed ih =>
      obtain ⟨pairs, hnamed, hp, hchange⟩ := ih fun q hq => h q (List.mem_cons_of_mem _ hq)
      cases placement with
      | child value => exact ⟨pairs, hnamed, hp, hchange⟩
      | slot name value =>
        obtain ⟨⟨text, rfl⟩, hvalue⟩ := h (.slot name value) List.mem_cons_self
        refine ⟨(text, value) :: pairs, ?_, ?_, fun f => ?_⟩
        · exact congrArg (_ :: ·) hnamed
        · exact List.forall_mem_cons.mpr ⟨hvalue, hp⟩
        · exact congrArg (_ :: ·) (hchange f)
  obtain ⟨pairs, hnamed, hp, hchange⟩ := hpairs
  have hof : ∀ pairs : List (String × Value), Assoc.ofPairs (named pairs) = named (Assoc.ofPairs pairs) :=
    fun pairs => Value.setAll_named [] pairs
  refine ⟨Assoc.ofPairs pairs, ?_, fun slot hslot => hp slot (Assoc.mem_ofPairs hslot), fun f => ?_⟩
  · rw [← hof, ← hnamed]
    rfl
  · rw [← Assoc.ofPairs_mapValues f, ← hof, ← hchange f]
    rfl

/-! ## What becomes of a child -/

variable {source : Source ν} {component : String → Except Fault Value} {fragmentType : Value}
variable {beyond : Fault} {levels : Nat} {node : ν} {part : ν → Prop}

theorem placedAs_change {v : Value} (h : Translates build₁ build₂ f) (hv : Given build₁ v)
    (slot : Option String) :
    placedAs slot (f v) = (placedAs slot v).map (.change f) ∧
      Placement.AllHold (Given build₁) (placedAs slot v) := by
  cases slot with
  | some name =>
    refine ⟨rfl, ?_⟩
    rintro placement ⟨⟩
    exact ⟨⟨name, rfl⟩, hv⟩
  | none =>
    rw [placedAs, placedAs, positional, positional, h.isChild hv]
    split
    · refine ⟨rfl, ?_⟩
      rintro placement ⟨⟩
      exact hv
    · exact ⟨rfl, by rintro placement ⟨⟩⟩

/-- A child goes to the same place in both conversions, if an element gives what is in step. -/
theorem placeChild_inStep {convert₁ convert₂ : ν → Course ν Value} (h : Translates build₁ build₂ f)
    (owner : Option (Owner ν))
    (hslot : ∃ text, source.attributeValue node slotAttribute = .ok (.ofString? text))
    (hconvert : source.kind node = .element →
      (convert₁ node).InStep (Returned build₁) f (convert₂ node)) :
    (placeChild source convert₁ owner node).InStep
      (Placement.AllHold (Given build₁)) (Option.map (.change f))
      (placeChild source convert₂ owner node) := by
  by_cases he : source.kind node = .element
  · obtain ⟨text, hslot⟩ := hslot
    rw [placeChild_element he, placeChild_element he, hslot, Course.ofExcept_ok, Course.pure_bind,
      Course.pure_bind]
    refine (hconvert he).bind fun v hv => ?_
    rw [Course.current_ofString?, Course.pure_bind, Course.pure_bind]
    obtain ⟨hchange, hholds⟩ := placedAs_change h (.inr hv) (routedTo source (isOwned owner) node)
    have hgives := settle_gives owner he hslot (f v)
    rw [hchange] at hgives
    exact .gives (settle_gives owner he hslot v) hgives hholds
  · by_cases ht : source.kind node = .text
    · rw [placeChild_text ht, placeChild_text ht]
      cases htext : source.text node with
      | none => exact Course.inStep_pure (by rintro placement ⟨⟩)
      | some text =>
        obtain ⟨hchange, hholds⟩ := placedAs_change h (.inl ⟨text, rfl⟩) none
        have hplaced : (pure (placedAs none (.str text)) : Course ν (Option Placement)).InStep
            (Placement.AllHold (Given build₁)) (Option.map (Placement.change f))
            (pure ((placedAs none (.str text)).map (Placement.change f))) := Course.inStep_pure hholds
        rwa [← hchange, h.text] at hplaced
    · rw [placeChild_other ht he, placeChild_other ht he]
      exact Course.inStep_pure (by rintro placement ⟨⟩)

/-! ## What becomes of an element -/

theorem lookup_inStep (node : ν) (tag : String) :
    (lookup (.merging build₁ component fragmentType) node tag).InStep (fun _ => True) id
      (lookup (.merging build₂ component fragmentType) node tag) :=
  Course.inStep_step (by simp [Host.merging]) fun _ _ => trivial

/-- The attributes of an element: texts, with distinct names. -/
structure Strings (attributes : List (String × Value)) : Prop where
  strings : ∀ pair ∈ attributes, ∃ text, pair.2 = .str text
  nodup : (attributes.map Prod.fst).Nodup

theorem Strings.texts {attributes : List (String × Value)} (h : Strings attributes) :
    Texts attributes := by
  intro pair hpair
  obtain ⟨text, htext⟩ := h.strings pair hpair
  exact ⟨some text, htext⟩

theorem strings_attributesOf {attributes : List (String × Value)} (hw : source.Worded part)
    (hp : part node) (h : attributesOf source node = .ok attributes) : Strings attributes := by
  refine ⟨fun pair hpair => ?_, nodup_keys_attributesOf h⟩
  obtain ⟨pairs, rfl, hnames, hvalues⟩ := exists_pairs_of_attributesOf h
  have hmem := Assoc.mem_ofPairs hpair
  obtain ⟨text, htext⟩ := hw hp pair.1 (hnames ▸ List.mem_map_of_mem hmem)
  exact ⟨text, Except.ok.inj ((hvalues pair hmem).symm.trans htext)⟩

theorem Strings.erase {attributes : List (String × Value)} (h : Strings attributes) (name : String) :
    Strings (Assoc.erase name attributes) where
  strings pair hpair := h.strings pair ((Assoc.erase_sublist name attributes).subset hpair)
  nodup := h.nodup.sublist ((Assoc.erase_sublist name attributes).map Prod.fst)

theorem passedAttributes_inStep {attributes : List (String × Value)} (h : Strings attributes) :
    (passedAttributes source (.merging build₁ component fragmentType) node attributes).InStep
      Strings id
      (passedAttributes source (.merging build₂ component fragmentType) node attributes) := by
  have hparent : (parentIsComponent source (.merging build₁ component fragmentType) node).InStep
      (fun _ => True) id
      (parentIsComponent source (.merging build₂ component fragmentType) node) := by
    rw [parentIsComponent_eq, parentIsComponent_eq]
    cases parentTag? source node with
    | none => exact Course.inStep_pure trivial
    | some tag => exact (lookup_inStep node tag).bind fun _ _ => Course.inStep_pure trivial
  obtain ⟨text, htext⟩ := h.texts.getD_eq_ofString? slotAttribute
  rw [passedAttributes, passedAttributes, htext, Course.current_ofString?, Course.pure_bind,
    Course.pure_bind]
  cases (Value.ofString? text).truthy with
  | false => exact Course.inStep_pure h
  | true =>
    refine hparent.bind fun routed _ => ?_
    cases routed with
    | false => exact Course.inStep_pure h
    | true => exact Course.inStep_pure (h.erase slotAttribute)

/-- What an element brings once the results of its children are changed. -/
def Gathered.change (f : Value → Value) (gathered : Gathered) : Gathered :=
  { gathered with placed := gathered.placed.map (.change f) }

/-- What an element brings to a conversion: texts for attributes, and what a builder is given. -/
structure Gathered.Fits (build : Value → Value → List Value → Except Fault Value)
    (gathered : Gathered) : Prop where
  attributes : Strings gathered.attributes
  placed : ∀ placement ∈ gathered.placed, placement.Holds (Given build)

theorem holds_placed {p : Value → Prop} {placements : List (Option Placement)}
    (h : ∀ placement ∈ placements, Placement.AllHold p placement) :
    ∀ placement ∈ placements.filterMap id, placement.Holds p := by
  intro placement hplacement
  obtain ⟨placed, hplaced, heq⟩ := List.mem_filterMap.mp hplacement
  exact h placed hplaced placement heq

theorem filterMap_change (placements : List (Option Placement)) :
    (placements.map (Option.map (.change f))).filterMap id =
      (placements.filterMap id).map (Placement.change f) := by
  rw [List.filterMap_map, List.map_filterMap]
  rfl

theorem gather_inStep (hr : source.Readable part) (hw : source.Worded part) (hp : part node)
    (hchildren : ∀ owner,
      (placeChildren source (.merging build₁ component fragmentType) beyond levels owner
        (source.children node)).InStep
          (∀ placement ∈ ·, Placement.AllHold (Given build₁) placement)
          (List.map (Option.map (Placement.change f)))
          (placeChildren source (.merging build₂ component fragmentType) beyond levels owner
            (source.children node))) :
    (gather source (.merging build₁ component fragmentType) beyond levels node).InStep
      (Gathered.Fits build₁) (.change f)
      (gather source (.merging build₂ component fragmentType) beyond levels node) := by
  obtain ⟨attributes, hattributes⟩ := attributesOf_ok (hr.attributeText hp)
  have hstrings := strings_attributesOf hw hp hattributes
  rw [gather, gather, hattributes]
  refine (lookup_inStep node _).bind fun found _ => ?_
  rw [Course.ofExcept_ok, Course.pure_bind, Course.pure_bind]
  refine (hchildren (some ⟨node, found⟩)).bind fun placements hplacements => ?_
  refine (passedAttributes_inStep hstrings).bind fun passed hpassed => ?_
  rw [filterMap_change]
  exact .gives (Course.gives_pure _) (Course.gives_pure _) ⟨hpassed, holds_placed hplacements⟩

/-- A builder is given the translated props and children by the second conversion. -/
theorem build_merged {attributes : List (String × Value)} {placed : List Placement}
    (h : Translates build₁ build₂ f) (type : Value) (hattributes : Strings attributes)
    (hplaced : ∀ placement ∈ placed, placement.Holds (Given build₁)) :
    build₂ type (mergedProps attributes (slotsOf (placed.map (.change f))))
        (childrenOf (placed.map (.change f))) =
      (build₁ type (mergedProps attributes (slotsOf placed)) (childrenOf placed)).map f := by
  obtain ⟨slots, hslots, hgiven, hchange⟩ := exists_slots hplaced
  have hmerged : ∀ slots : List (String × Value), mergedProps attributes (named slots) =
      .dict none (named (Assoc.setAll attributes slots)) :=
    fun slots => congrArg (Value.dict none) (Value.setAll_named attributes slots)
  have hset : Assoc.setAll attributes (Assoc.mapValues (fun v _ => f v) slots) =
      Assoc.mapValues (fun v _ => f v) (Assoc.setAll attributes slots) := by
    rw [← Assoc.setAll_mapValues f, h.mapValues_texts hattributes.strings]
  rw [hslots, hchange, childrenOf_change, hmerged, hmerged, hset]
  refine h.commutes type _ _ (Assoc.nodup_keys_setAll hattributes.nodup) ?_ (holds_childrenOf hplaced)
  intro pair hpair
  rcases Assoc.mem_setAll hpair with hpair | hpair
  · exact hgiven pair hpair
  · exact .inl (hattributes.strings pair hpair)

theorem build_inStep {type props props' : Value} {children children' : List Value} (node : ν)
    (h : build₂ type props' children' = (build₁ type props children).map f) :
    (build (.merging build₁ component fragmentType) node type props children).InStep
      (Returned build₁) f
      (build (.merging build₂ component fragmentType) node type props' children') := by
  cases hr : build₁ type props children with
  | error fault =>
    rw [hr] at h
    exact .stops (build_stops hr) (build_stops h)
  | ok value =>
    rw [hr] at h
    exact .gives (build_gives hr) (build_gives h) ⟨type, props, children, hr⟩

/-- Without a strategy an element is built of its attributes and slots at once. -/
theorem assemble_merging (gathered : Gathered) :
    assemble source (.merging build₁ component fragmentType) node gathered =
      build (.merging build₁ component fragmentType) node
        (gathered.component.orElse (.str (tagOf source node)))
        (mergedProps gathered.attributes (slotsOf gathered.placed)) (childrenOf gathered.placed) :=
  Course.pure_bind _ _

theorem assemble_inStep {gathered : Gathered} (h : Translates build₁ build₂ f)
    (hfits : gathered.Fits build₁) :
    (assemble source (.merging build₁ component fragmentType) node gathered).InStep
      (Returned build₁) f
      (assemble source (.merging build₂ component fragmentType) node (gathered.change f)) := by
  rw [assemble_merging, assemble_merging]
  exact build_inStep node (build_merged h _ hfits.attributes hfits.placed)

theorem assembleFragment_inStep {placements : List (Option Placement)}
    (h : Translates build₁ build₂ f)
    (hplacements : ∀ placement ∈ placements, Placement.AllHold (Given build₁) placement) :
    (assembleFragment (.merging build₁ component fragmentType) node placements).InStep
      (Returned build₁) f
      (assembleFragment (.merging build₂ component fragmentType) node
        (placements.map (Option.map (.change f)))) := by
  rw [assembleFragment, assembleFragment, filterMap_change]
  exact build_inStep node (build_merged h _ ⟨by simp, by simp⟩ (holds_placed hplacements))

/-- **Visits with a builder and with a translated one are in step.** -/
theorem visit_inStep (h : Translates build₁ build₂ f) (hr : source.Readable part)
    (hw : source.Worded part) (hp : part node) (ho : source.Opened node) :
    (visit source (.merging build₁ component fragmentType) beyond levels node).InStep
      (Returned build₁) f
      (visit source (.merging build₂ component fragmentType) beyond levels node) := by
  induction levels generalizing node with
  | zero => exact .stops rfl rfl
  | succ levels ih =>
    -- the owner is a value that was looked up, and in both conversions the same one
    have hchildren : ∀ owner,
        (placeChildren source (.merging build₁ component fragmentType) beyond levels owner
          (source.children node)).InStep
            (∀ placement ∈ ·, Placement.AllHold (Given build₁) placement)
            (List.map (Option.map (Placement.change f)))
            (placeChildren source (.merging build₂ component fragmentType) beyond levels owner
              (source.children node)) :=
      fun owner => Course.InStep.forEach fun child hchild => placeChild_inStep h owner
        (hr.attributeText (hr.children hp hchild) slotAttribute)
        fun he => ih (hr.children hp hchild) (.inl he)
    have henter : (Course.step (.enter node) (.ok ()) : Course ν Unit).InStep (fun _ => True) id
        (Course.step (.enter node) (.ok ())) := Course.inStep_step rfl fun _ _ => trivial
    rcases ho with he | hf
    · rw [visit_element he, visit_element he]
      refine henter.bind fun _ _ => ?_
      exact (gather_inStep hr hw hp hchildren).bind fun gathered hfits => assemble_inStep h hfits
    · rw [visit_fragment hf, visit_fragment hf]
      refine henter.bind fun _ _ => ?_
      exact (hchildren none).bind fun placements => assembleFragment_inStep h

end Conversion

section Translated

open Conversion

variable {source : Source ν} {part : ν → Prop} {root : ν}

/-- Builds data directly: a map of the name of the type, the props and the children. -/
def describeData (type props : Value) (children : List Value) : Except Fault Value :=
  .ok (.dict none [(.str "type", .ofPoints type.typeName), (.str "props", props),
    (.str "children", .list children)])

/-- Data is a translation of descriptors. -/
theorem translates_toData : Translates describeElement describeData Value.toData where
  text _ := rfl
  null := rfl
  kept := by
    rintro r ⟨type, props, children, hr⟩ hempty
    rw [describeElement] at hr
    cases hprops : Props.ofValue props with
    | error fault => rw [hprops] at hr; cases hr
    | ok entries =>
      rw [hprops] at hr
      cases hr
      rw [Value.toData] at hempty
      simp at hempty
  commutes type pairs children hnames _ _ := by
    rw [describeElement_dict, Except.map, Value.toData_element_named hnames]
    rfl

theorem settled_merging (h : Translates build₁ build₂ f) (hr : source.Readable part)
    (hw : source.Worded part) (hroot : part root) (component : String → Except Fault Value)
    (fragmentType : Value) (limit : Option Int) :
    (convert source (.merging build₂ component fragmentType) limit root).settled =
      (convert source (.merging build₁ component fragmentType) limit root).settled.map f := by
  rw [convert_eq_visit, convert_eq_visit]
  by_cases ho : source.Opened root
  · exact (visit_inStep h hr hw hroot ho).settled
  · -- any other start node gives null, if there is a level for it
    have he := fun he => ho (.inl he)
    have hf := fun hf => ho (.inr hf)
    cases levelsWithin source limit root with
    | zero => rfl
    | succ levels =>
      rw [visit_other he hf, visit_other he hf]
      exact congrArg Except.ok h.null.symm

/-- **Converting commutes with translating.** Where the attributes are texts, and without a props
strategy, a conversion with a builder gives the translation of what it gives with another one, or both
end with the same fault: whatever is registered, whatever the limit is, and whatever fails of looking up
and building. In particular building data at once gives the data of the descriptor. -/
theorem convert_translated (hr : source.Readable part) (hw : source.Worded part) (hroot : part root)
    (component : String → Except Fault Value) (fragmentType : Value) (limit : Option Int) :
    (∀ build₁ build₂ f, Translates build₁ build₂ f →
      (convert source (.merging build₂ component fragmentType) limit root).settled =
        (convert source (.merging build₁ component fragmentType) limit root).settled.map f) ∧
      (convert source (.merging describeElement component fragmentType) limit root).settled.map
          Value.toData =
        (convert source (.merging describeData component fragmentType) limit root).settled :=
  ⟨fun _ _ _ h => settled_merging h hr hw hroot component fragmentType limit,
    (settled_merging translates_toData hr hw hroot component fragmentType limit).symm⟩

/-- A card with an attribute and a child in a slot. -/
def namedCard : Markup := .element "x-card" [("id", .str "1")] [slotted "title" "Hello"]

/-- The views in the card. -/
def InNamedCard (v : View) : Prop :=
  v = .wrap (.top namedCard) ∨ v = (View.wrap (.top namedCard)).below (slotted "title" "Hello") ∨
    v = ((View.wrap (.top namedCard)).below (slotted "title" "Hello")).below (.text "Hello")

theorem namedCard_worded : View.source.Worded InNamedCard := by
  rintro v (rfl | rfl | rfl) name hname
  · obtain rfl : name = "id" := List.mem_singleton.mp hname
    exact ⟨"1", rfl⟩
  · obtain rfl : name = "slot" := List.mem_singleton.mp hname
    exact ⟨"title", rfl⟩
  · cases hname

theorem namedCard_readable : View.source.Readable InNamedCard where
  children := by
    rintro v c (rfl | rfl | rfl) hc
    · exact .inr (.inl (List.mem_singleton.mp hc))
    · exact .inr (.inr (List.mem_singleton.mp hc))
    · cases hc
  attributeText := by
    have htextual : namedCard.Textual := by
      refine ⟨fun a ha => ?_, slotted_textual _ _, trivial⟩
      rw [List.mem_singleton.mp ha]
      exact ⟨some "1", rfl⟩
    intro v hv
    have hnode : v.place.node.Textual := by
      rcases hv with rfl | rfl | rfl
      · exact htextual
      · exact slotted_textual _ _
      · trivial
    exact View.readable_of_textual hnode v .refl

theorem convert_translated_namedCard :
    View.source.Readable InNamedCard ∧ View.source.Worded InNamedCard ∧
      InNamedCard (.wrap (.top namedCard)) ∧
      (convert View.source (.merging describeData (fun tag => .ok (cardTypes tag)) .fragment) none
        (.wrap (.top namedCard))).settled =
          .ok (.dict none [(.str "type", .str "Card"),
            (.str "props", .dict none [(.str "id", .str "1"),
              (.str "title", .dict none [(.str "type", .str "b"), (.str "props", .dict none []),
                (.str "children", .list [.str "Hello"])])]),
            (.str "children", .list [])]) := by
  obtain ⟨-, hdata⟩ := convert_translated namedCard_readable namedCard_worded (.inl rfl)
    (fun tag => .ok (cardTypes tag)) .fragment none
  exact ⟨namedCard_readable, namedCard_worded, .inl rfl, by rw [← hdata]; rfl⟩

end Translated

end ComponentTree
