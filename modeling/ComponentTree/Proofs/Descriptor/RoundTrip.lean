import ComponentTree.Proofs.Converter
import ComponentTree.Proofs.Descriptor.Expressible
import ComponentTree.Proofs.Source.Interchange

/-!
# Descriptors come back from markup

A descriptor that markup can express is written as markup by `Descriptor.sketch`. Converting what
was written gives the descriptor back, with its props arranged (`convert_sketch`).

The visits are followed on the parsed tree, where a view says by itself what its parent is. What a
visit has to know of its parent is only whether it is a component: `Fits` says that the slot
attribute with which an element was written, or the text in its prop `slot`, is right below that
parent. Then the slot attribute is dropped exactly where it was written in addition.
-/

namespace ComponentTree

open Conversion

variable {ν : Type} {r : Registry} {beyond : Fault} {levels : Nat}

/-! ## Courses that return -/

/-- Whether something truthy is registered for the tag of a parent. -/
def Registry.owns (r : Registry) (parentTag : Option String) : Bool :=
  parentTag.any fun tag => (r.lookup tag).truthy

theorem parentIsComponent_gives (source : Source ν) (node : ν) :
    (parentIsComponent source r.host node).Gives (r.owns (parentTag? source node)) := by
  rw [parentIsComponent_eq]
  cases parentTag? source node with
  | none => exact Course.gives_pure _
  | some tag => exact (Course.gives_step _ _).bind (Course.gives_pure _)

/-- The slot attribute is dropped if it is not empty and the parent owns its children. -/
theorem passedAttributes_gives {source : Source ν} {node : ν} {attributes : List (String × Value)}
    {text : Option String} (h : (Assoc.get? slotAttribute attributes).getD .null = .ofString? text) :
    (passedAttributes source r.host node attributes).Gives
      (if (Value.ofString? text).truthy && r.owns (parentTag? source node) then
        Assoc.erase slotAttribute attributes else attributes) := by
  rw [passedAttributes, h, Course.current_ofString?, Course.pure_bind]
  cases (Value.ofString? text).truthy with
  | false => exact Course.gives_pure _
  | true => exact (parentIsComponent_gives source node).bind (Course.gives_pure _)

theorem placeChild_gives {source : Source ν} {convert : ν → Course ν Value} {owner : Owner ν}
    {child : ν} {text : Option String} {value : Value} (hk : source.kind child = .element)
    (hslot : source.attributeValue child slotAttribute = .ok (.ofString? text))
    (hc : (convert child).Gives value) :
    (placeChild source convert (some owner) child).Gives
      (if owner.component.truthy && (Value.ofString? text).truthy then
        some (.slot (.ofString? text) value) else positional value) := by
  rw [placeChild_element hk, hslot, Course.ofExcept_ok, Course.pure_bind]
  refine hc.bind ?_
  rw [Course.current_ofString?, Course.pure_bind, settle]
  split
  · cases text <;> exact Course.gives_step _ _
  · exact Course.gives_pure _

namespace Descriptor

/-! ## Attributes as they are written -/

def written (attrs : List (String × String)) : List (String × Value) :=
  attrs.map fun (name, text) => (name, .str text)

theorem markup_sketch (slot : Option String) (type : Value) (props : Entries)
    (children : List Value) :
    (sketch r slot (.element type props children)).markup =
      .element (r.tagOf type) (written (attributes slot props))
        (Sketch.markupAll (slotSketches r props ++ childSketches r children)) := by
  rw [sketch, Sketch.markup, List.map_map]
  rfl

section Written

variable {attrs : List (String × String)} {tag : String} {content : List Markup} {v : View}

theorem get?_written (key : String) (attrs : List (String × String)) :
    (Assoc.get? key (written attrs)).getD .null = .ofString? (Assoc.get? key attrs) := by
  induction attrs with
  | nil => rfl
  | cons a attrs ih =>
    rw [written, List.map_cons, Assoc.get?, Assoc.get?]
    split
    · rfl
    · exact ih

/-- The view shows a node, and not only the content of it. -/
def Shows (v : View) (m : Markup) : Prop := v.openedAsFragment = false ∧ v.place.node = m

theorem Shows.below (h : v.openedAsFragment = false) (m : Markup) : Shows (v.below m) m := ⟨h, rfl⟩

theorem Shows.kind {m : Markup} (h : Shows v m) : View.source.kind v = m.kind := by
  obtain ⟨hopen, rfl⟩ := h
  show View.kind v = _
  rw [View.kind, View.isFragment, hopen]
  rfl

theorem Shows.attributes (h : Shows v (.element tag (written attrs) content)) :
    v.attributes = written attrs := by
  have hk : v.kind = .element := h.kind
  rw [View.attributes, hk, h.2]

theorem Shows.tagOf_eq (h : Shows v (.element tag (written attrs) content)) :
    tagOf View.source v = lowercase tag := by
  have hk : v.kind = .element := h.kind
  have hname : View.source.name v = tag := by
    show View.name v = tag
    rw [View.name, hk, h.2]
  rw [tagOf, hname]

theorem attributeValue_written (h : Shows v (.element tag (written attrs) content))
    (hlower : ∀ a ∈ attrs, lowercase a.1 = a.1) {name : String} (hname : lowercase name = name) :
    View.source.attributeValue v name = .ok (.ofString? (Assoc.get? name attrs)) := by
  show View.attributeValue v name = _
  rw [View.attributeValue, hname, h.attributes]
  clear h
  induction attrs with
  | nil => rfl
  | cons a attrs ih =>
    have ha : lowercase a.1 = a.1 := hlower a List.mem_cons_self
    rw [written, List.map_cons, List.find?_cons, Assoc.get?]
    dsimp only
    rw [ha]
    cases a.1 == name with
    | true => rfl
    | false => exact ih fun b hb => hlower b (List.mem_cons_of_mem _ hb)

theorem attributesOf_written (h : Shows v (.element tag (written attrs) content))
    (hlower : ∀ a ∈ attrs, lowercase a.1 = a.1) (hnodup : (attrs.map Prod.fst).Nodup) :
    attributesOf View.source v = .ok (written attrs) := by
  have hkeys : (written attrs).map Prod.fst = attrs.map Prod.fst := by
    rw [written, List.map_map]
    rfl
  have hself : Assoc.ofPairs (written attrs) = written attrs :=
    Assoc.ofPairs_of_nodup (hkeys ▸ hnodup)
  have hnames : View.source.attributeNames v = (written attrs).map Prod.fst := by
    show View.attributeNames v = _
    rw [View.attributeNames, h.attributes, hkeys, written, List.map_map]
    refine List.map_congr_left fun a ha => ?_
    obtain ⟨name, text⟩ := a
    exact hlower (name, text) ha
  have hvalues : ∀ p ∈ written attrs, View.source.attributeValue v p.1 = .ok p.2 := by
    intro p hp
    obtain ⟨⟨name, text⟩, ha, rfl⟩ := List.mem_map.mp hp
    rw [attributeValue_written h hlower (hlower (name, text) ha), Assoc.get?_of_mem hnodup ha]
    rfl
  have hpairs := attributesOf_of_pairs hnames hvalues
  rw [hself] at hpairs
  exact hpairs

end Written

/-! ## One element -/

variable {slot : Option String} {type : Value} {props : Entries} {children : List Value}

/-- An element that is written with a slot is a child of a component and has no other text in its
prop `slot`. One that is written without a slot, as a child of a component, names none. -/
def Fits (r : Registry) (slot : Option String) (d : Value) (parentTag : Option String) : Prop :=
  match slot with
  | some name => name ≠ "" ∧ r.owns parentTag = true ∧
      ∀ text, (.str slotAttribute, .str text) ∉ d.props
  | none => r.owns parentTag = true → ∀ text, (.str slotAttribute, .str text) ∈ d.props → text = ""

theorem truthy_str {text : String} : (Value.str text).truthy = true ↔ text ≠ "" := by
  simp [Value.truthy]

theorem get?_slot (hnodup : (props.map Prod.fst).Nodup) {name : String}
    (hnone : ∀ text, (.str slotAttribute, .str text) ∉ props) :
    Assoc.get? slotAttribute (attributes (some name) props) = some name :=
  Assoc.get?_of_mem (nodup_names_attributes hnodup fun _ => hnone)
    (List.mem_append_right _ List.mem_cons_self)

/-- Without a slot to go to, an element that is owned names none. -/
theorem owned_and_slot_eq_false {owned : Bool}
    (h : owned = true → ∀ text, (.str slotAttribute, .str text) ∈ props → text = "") :
    (owned && (Value.ofString? (Assoc.get? slotAttribute (attributes none props))).truthy) =
      false := by
  have hattrs : attributes none props = texts props := List.append_nil _
  rw [hattrs]
  cases hget : Assoc.get? slotAttribute (texts props) with
  | none => exact Bool.and_false _
  | some text =>
    rw [Bool.and_eq_false_iff]
    by_contra hno
    rw [not_or, Bool.not_eq_false, Bool.not_eq_false] at hno
    have hmem := mem_texts.mp (Assoc.mem_of_get? hget)
    exact truthy_str.mp hno.2 (h hno.1 text hmem)

/-- Of the attributes that were written only the texts are handed on. -/
theorem passedAttributes_written {source : Source ν} {node : ν}
    (hnodup : (props.map Prod.fst).Nodup)
    (hfits : Fits r slot (.element type props children) (parentTag? source node)) :
    (passedAttributes source r.host node (written (attributes slot props))).Gives
      (written (texts props)) := by
  have h : (passedAttributes source r.host node (written (attributes slot props))).Gives _ :=
    passedAttributes_gives (get?_written slotAttribute (attributes slot props))
  cases slot with
  | some name =>
    obtain ⟨hne, howns, hnone⟩ := hfits
    -- the slot attribute was written last and under a name that no text has, so erasing undoes it
    have hfree : slotAttribute ∉ (written (texts props)).map Prod.fst := by
      intro hm
      obtain ⟨_, hm, heq⟩ := List.mem_map.mp hm
      obtain ⟨⟨name', text⟩, htext, rfl⟩ := List.mem_map.mp hm
      obtain rfl : name' = slotAttribute := heq
      exact hnone text (mem_texts.mp htext)
    have herase : Assoc.erase slotAttribute (written (attributes (some name) props)) =
        written (texts props) := by
      rw [attributes, written, List.map_append]
      exact Assoc.erase_append_self hfree
    have htruthy : (Value.ofString? (some name)).truthy = true := truthy_str.mpr hne
    rw [get?_slot hnodup hnone, howns, Bool.and_true, if_pos htruthy, herase] at h
    exact h
  | none =>
    have hattrs : attributes none props = texts props := List.append_nil _
    have hfits : r.owns (parentTag? source node) = true →
        ∀ text, (.str slotAttribute, .str text) ∈ props → text = "" := hfits
    rw [Bool.and_comm, owned_and_slot_eq_false hfits, if_neg Bool.false_ne_true, hattrs] at h
    rw [hattrs]
    exact h

/-- Where the results of the children of an element go. -/
def placements (props : Entries) (children : List Value) : List (Option Placement) :=
  ((slotProps props).map fun (name, value) => some (.slot name value)) ++
    (arrangedAll children).map fun value => some (.child value)

theorem slotsOf_placements (hp : PropsExpressible r type props)
    (hn : (props.map Prod.fst).Nodup) :
    slotsOf ((placements props children).filterMap id) = slotProps props := by
  have hslots : slotsOf ((placements props children).filterMap id) =
      Assoc.ofPairs (slotProps props) := by
    simp [slotsOf, placements, List.filterMap_append, List.filterMap_map]
  rw [hslots]
  have hkeys := (List.pairwise_append.mp (keys_arranged hp hn)).2.1
  exact Assoc.ofPairs_eq_self (hkeys.imp fun h => h.1)

theorem childrenOf_placements :
    childrenOf ((placements props children).filterMap id) = arrangedAll children := by
  simp [placements, childrenOf, List.filterMap_append, List.filterMap_map]

theorem mergedProps_written (hp : PropsExpressible r type props)
    (hn : (props.map Prod.fst).Nodup) :
    mergedProps (written (texts props)) (slotProps props) =
      .dict none (ofTexts (texts props) ++ slotProps props) := by
  have hkeys := (keys_arranged hp hn).imp fun h => h.1
  rw [mergedProps, written, List.map_map]
  exact congrArg (Value.dict none) (Assoc.setAll_eq_append hkeys)

theorem assemble_written {source : Source ν} {node : ν} (htype : r.IsComponent type ∨ r.IsPlain type)
    (hp : PropsExpressible r type props) (hn : (props.map Prod.fst).Nodup)
    (htag : tagOf source node = r.tagOf type) :
    (assemble source r.host node ⟨r.lookup (r.tagOf type), written (texts props),
      (placements props children).filterMap id⟩).Gives
        (arranged (.element type props children)) := by
  rw [assemble, htag, slotsOf_placements hp hn, childrenOf_placements]
  refine Course.Gives.bind (Course.gives_pure _) (build_gives ?_)
  show describeElement ((r.lookup (r.tagOf type)).orElse (.str (r.tagOf type)))
    (mergedProps (written (texts props)) (slotProps props)) (arrangedAll children) = _
  rw [Registry.lookup_orElse htype, mergedProps_written hp hn, describeElement_dict, arranged]

/-! ## All elements -/

section Below

variable {v : View} {d : Value}

theorem parentTag?_below (hk : View.source.kind v = .element) (m : Markup) :
    parentTag? View.source (v.below m) = some (tagOf View.source v) := by
  have hparent : View.source.parent (v.below m) = some v := rfl
  rw [parentTag?_of_parent hparent, if_pos hk]

theorem markupAll_append (ts us : List Sketch) :
    Sketch.markupAll (ts ++ us) = Sketch.markupAll ts ++ Sketch.markupAll us := by
  induction ts with
  | nil => rfl
  | cons t ts ih => rw [List.cons_append, Sketch.markupAll, Sketch.markupAll, ih, List.cons_append]

theorem heightOfAll_append (ms ns : List Markup) :
    Markup.heightOfAll (ms ++ ns) = max (Markup.heightOfAll ms) (Markup.heightOfAll ns) := by
  induction ms with
  | nil => simp [Markup.heightOfAll]
  | cons m ms ih => rw [List.cons_append, Markup.heightOfAll, Markup.heightOfAll, ih, Nat.max_assoc]

theorem kind_sketch (hd : Expressible r d) (hv : Shows v (sketch r slot d).markup) :
    View.source.kind v = .element := by
  obtain ⟨type, props, children, rfl⟩ := hd.exists_element
  rw [markup_sketch] at hv
  exact hv.kind

theorem attributeValue_sketch (hd : Expressible r d) (hv : Shows v (sketch r slot d).markup) :
    View.source.attributeValue v slotAttribute =
      .ok (.ofString? (Assoc.get? slotAttribute (attributes slot d.props))) := by
  obtain ⟨type, props, children, rfl⟩ := hd.exists_element
  rw [Expressible] at hd
  rw [markup_sketch] at hv
  have hslot : lowercase slotAttribute = slotAttribute := by decide
  exact attributeValue_written hv (lower_of_mem_attributes hd.2.2.1) hslot

/-- The children of a view are placed so, if so many levels are left for them. -/
def Places (r : Registry) (beyond : Fault) (levels : Nat) (owner : Owner View) (ts : List Sketch)
    (placed : List (Option Placement)) : Prop :=
  List.Forall₂ (fun c p =>
      (placeChild View.source (visit View.source r.host beyond levels) (some owner) c).Gives p)
    ((Sketch.markupAll ts).map owner.element.below) placed

/-- An element of a type that takes children, with what was found for its tag. -/
structure Hosts (r : Registry) (type : Value) (owner : Owner View) : Prop where
  typed : r.IsComponent type ∨ r.IsPlain type
  component : owner.component = r.lookup (r.tagOf type)
  opened : owner.element.openedAsFragment = false
  kind : View.source.kind owner.element = .element
  tag : tagOf View.source owner.element = r.tagOf type

theorem Hosts.owns_iff {owner : Owner View} (h : Hosts r type owner) (m : Markup) :
    r.owns (parentTag? View.source (owner.element.below m)) = true ↔ r.IsComponent type := by
  rw [parentTag?_below h.kind, h.tag]
  exact Registry.truthy_lookup_iff h.typed

theorem Hosts.truthy_iff {owner : Owner View} (h : Hosts r type owner) :
    owner.component.truthy = true ↔ r.IsComponent type := by
  rw [h.component]
  exact Registry.truthy_lookup_iff h.typed

/-- An element in a prop of a component is placed in the slot with the name of the prop. -/
theorem placeChild_slot {owner : Owner View} {name : String} (ho : Hosts r type owner)
    (hcomponent : r.IsComponent type) (hne : name ≠ "") (hd : Expressible r d)
    (hnone : ∀ text, (.str slotAttribute, .str text) ∉ d.props)
    (hvisit : (visit View.source r.host beyond levels
      (owner.element.below (sketch r (some name) d).markup)).Gives (arranged d)) :
    (placeChild View.source (visit View.source r.host beyond levels) (some owner)
      (owner.element.below (sketch r (some name) d).markup)).Gives
        (some (.slot (.str name) (arranged d))) := by
  have hv := Shows.below ho.opened (sketch r (some name) d).markup
  have hnodup : (d.props.map Prod.fst).Nodup := by
    obtain ⟨type, props, children, rfl⟩ := hd.exists_element
    rw [Expressible] at hd
    exact hd.2.1
  have hslot := attributeValue_sketch hd hv
  rw [get?_slot hnodup hnone] at hslot
  have h : (placeChild View.source _ (some owner) _).Gives _ :=
    placeChild_gives (kind_sketch hd hv) hslot hvisit
  have hname : (Value.ofString? (some name)).truthy = true := truthy_str.mpr hne
  rw [ho.truthy_iff.mpr hcomponent, hname] at h
  exact h

theorem placeChild_written_text {owner : Owner View} {convert : View → Course View Value}
    {text : String} (ho : owner.element.openedAsFragment = false) (hne : text ≠ "") :
    (placeChild View.source convert (some owner)
      (owner.element.below (sketch r none (.str text)).markup)).Gives
        (some (.child (arranged (.str text)))) := by
  have hk : View.source.kind (owner.element.below (.text text)) = .text :=
    (Shows.below ho (.text text)).kind
  have hplace : positional (.str text) = some (.child (.str text)) := by
    rw [positional, if_pos (show (Value.str text).isChild = true from truthy_str.mpr hne)]
  have h : (placeChild View.source convert (some owner) (owner.element.below (.text text))).Gives
      (positional (.str text)) := by
    rw [placeChild_text hk]
    exact Course.gives_pure _
  rw [hplace] at h
  exact h

/-- An element among the children is placed there, unless a component would take it for a slot. -/
theorem placeChild_child {owner : Owner View} (ho : Hosts r type owner) (hd : Expressible r d)
    (hempty : r.IsComponent type →
      ∀ text, (.str slotAttribute, .str text) ∈ d.props → text = "")
    (hvisit : (visit View.source r.host beyond levels
      (owner.element.below (sketch r none d).markup)).Gives (arranged d)) :
    (placeChild View.source (visit View.source r.host beyond levels) (some owner)
      (owner.element.below (sketch r none d).markup)).Gives (some (.child (arranged d))) := by
  have hv := Shows.below ho.opened (sketch r none d).markup
  have h : (placeChild View.source _ (some owner) _).Gives _ :=
    placeChild_gives (kind_sketch hd hv) (attributeValue_sketch hd hv) hvisit
  have hcond := owned_and_slot_eq_false fun howned => hempty (ho.truthy_iff.mp howned)
  have hplace : positional (arranged d) = some (.child (arranged d)) := by
    obtain ⟨type, props, children, rfl⟩ := hd.exists_element
    rw [arranged]
    rfl
  rw [hcond, if_neg Bool.false_ne_true, hplace] at h
  exact h

end Below

mutual
/-- **The visit of what was written for a descriptor gives the descriptor, arranged.** -/
theorem visit_sketch : ∀ (d : Value) (slot : Option String) (v : View) (levels : Nat),
    Expressible r d → Shows v (sketch r slot d).markup →
      Fits r slot d (parentTag? View.source v) → (sketch r slot d).markup.height ≤ levels →
      (visit View.source r.host beyond levels v).Gives (arranged d)
  | d, slot, v, levels, hd, hv, hfits, hlevels => by
    cases d with
    | element type props children =>
      rw [Expressible] at hd
      obtain ⟨htype, hnodup, hprops, hchildren⟩ := hd
      rw [markup_sketch] at hv hlevels
      rw [Markup.height, markupAll_append, heightOfAll_append] at hlevels
      obtain ⟨levels, rfl⟩ : ∃ k, levels = k + 1 := ⟨levels - 1, by omega⟩
      have hk : View.source.kind v = .element := hv.kind
      have htag : tagOf View.source v = r.tagOf type := by
        rw [hv.tagOf_eq, Registry.lowercase_tagOf htype]
      have ho : Hosts r type ⟨v, r.lookup (r.tagOf type)⟩ := ⟨htype, rfl, hv.1, hk, htag⟩
      have hattributes := attributesOf_written hv (lower_of_mem_attributes hprops)
        (nodup_names_attributes hnodup fun hslot => by
          cases slot with
          | none => cases hslot
          | some name => exact hfits.2.2)
      -- one level was for the element itself, the others are for what is below it
      have hslots := placeChild_slots props ⟨v, r.lookup (r.tagOf type)⟩ levels hprops ho (by omega)
      have hchilds := placeChild_children children ⟨v, r.lookup (r.tagOf type)⟩ levels hchildren ho
        (by omega)
      have hplaced : (placeChildren View.source r.host beyond levels
          (some ⟨v, r.lookup (r.tagOf type)⟩) (View.source.children v)).Gives
            (placements props children) := by
        refine Course.forEach_gives_of_forall₂ ?_
        show List.Forall₂ _ v.children _
        rw [View.children_eq, hv.2]
        show List.Forall₂ _ ((Sketch.markupAll (_ ++ _)).map _) _
        rw [markupAll_append, List.map_append]
        exact List.rel_append hslots hchilds
      rw [visit_element hk]
      refine (Course.gives_step _ ()).bind (Course.Gives.bind ?_
        (assemble_written htype hprops hnodup htag))
      -- `gather` in the order of its calls: component, attributes, children, attributes to hand on
      rw [gather, htag, hattributes, Course.ofExcept_ok]
      refine Course.Gives.bind (Course.gives_step _ (r.lookup (r.tagOf type))) ?_
      rw [Course.pure_bind]
      exact hplaced.bind ((passedAttributes_written hnodup hfits).bind (Course.gives_pure _))
    | _ => simp only [Expressible] at hd

theorem placeChild_slots {type : Value} : ∀ (props : Entries) (owner : Owner View) (levels : Nat),
    PropsExpressible r type props → Hosts r type owner →
      Markup.heightOfAll (Sketch.markupAll (slotSketches r props)) ≤ levels →
      Places r beyond levels owner (slotSketches r props)
        ((slotProps props).map fun (name, value) => some (.slot name value))
  | [], _, _, _, _, _ => .nil
  | (key, value) :: props, owner, levels, h, ho, hlevels => by
    rw [PropsExpressible] at h
    obtain ⟨⟨name, rfl, hvalue⟩, hrest⟩ := h
    rcases hvalue with ⟨-, text, rfl⟩ | ⟨hcomponent, hne, hvalue, hnone⟩
    · -- a text is an attribute and no child
      exact placeChild_slots props owner levels hrest ho hlevels
    · rw [slotSketches, if_pos hvalue.isElement, Sketch.markupAll, Markup.heightOfAll] at hlevels
      rw [slotSketches, if_pos hvalue.isElement, slotProps, if_pos hvalue.isElement]
      have hfits : Fits r (some name) value (parentTag? View.source
          (owner.element.below (sketch r (some name) value).markup)) :=
        ⟨hne, (ho.owns_iff _).mpr hcomponent, hnone⟩
      have hvisit := visit_sketch value (some name) _ levels hvalue (Shows.below ho.opened _) hfits
        (Nat.le_trans (Nat.le_max_left ..) hlevels)
      exact .cons (placeChild_slot ho hcomponent hne hvalue hnone hvisit)
        (placeChild_slots props owner levels hrest ho (by omega))

theorem placeChild_children {type : Value} : ∀ (children : List Value) (owner : Owner View)
    (levels : Nat), ChildrenExpressible r type children → Hosts r type owner →
      Markup.heightOfAll (Sketch.markupAll (childSketches r children)) ≤ levels →
      Places r beyond levels owner (childSketches r children)
        ((arrangedAll children).map fun value => some (.child value))
  | [], _, _, _, _, _ => .nil
  | child :: children, owner, levels, h, ho, hlevels => by
    rw [ChildrenExpressible] at h
    obtain ⟨hchild, hrest⟩ := h
    rw [childSketches, Sketch.markupAll, Markup.heightOfAll] at hlevels
    refine .cons ?_ (placeChild_children children owner levels hrest ho (by omega))
    rcases hchild with ⟨text, rfl, hne⟩ | ⟨hchild, hempty⟩
    · exact placeChild_written_text ho.opened hne
    · have hfits : Fits r none child (parentTag? View.source
          (owner.element.below (sketch r none child).markup)) :=
        fun howns => hempty ((ho.owns_iff _).mp howns)
      have hvisit := visit_sketch child none _ levels hchild (Shows.below ho.opened _) hfits
        (by omega)
      exact placeChild_child ho hchild hempty hvisit
end

end Descriptor

/-- **Every descriptor that markup can express comes back unchanged.** What is written for it as
markup and built by hand, in whatever store, is converted without a limit to the descriptor with its
props arranged, and that is like the descriptor. It equals it too, unless the descriptor has a
component for its type that does not equal itself. -/
theorem convert_sketch (r : Registry) {d : Value} (hd : Descriptor.Expressible r d)
    (s : NodeStore) :
    let built := s.build (Descriptor.sketch r none d).draft
    (convert built.2.source r.host none built.1).settled = .ok (Descriptor.arranged d) ∧
      (d == Descriptor.arranged d) = true ∧
      (d.equal d = true → d.equal (Descriptor.arranged d) = true) := by
  have hnames : (Descriptor.sketch r none d).WellNamed :=
    Descriptor.sketch_wellNamed d none hd fun hnone => by cases hnone
  obtain ⟨id, s', hbuild, hmirrors, hheight⟩ :=
    NodeStore.exists_mirrors (.single (Descriptor.sketch r none d)) hnames s
  have hsame : (convert s'.source r.host none (.stored id)).forget =
      (convert View.source r.host none (.wrap (.top (Descriptor.sketch r none d).markup))).forget :=
    hmirrors.convert_eq (Nat.le_trans hheight (Nat.le_add_right ..)) r.host none
  -- Nothing owns the top, so nothing that it names can be taken for a slot.
  have hvisit : (visit View.source r.host .endless (Descriptor.sketch r none d).markup.height
      (.wrap (.top (Descriptor.sketch r none d).markup))).Gives (Descriptor.arranged d) :=
    Descriptor.visit_sketch d none _ _ hd ⟨rfl, rfl⟩ (fun howns => by cases howns) (Nat.le_refl _)
  obtain ⟨hok, hwrites⟩ := hvisit
  have houtcome : (convert s'.source r.host none (.stored id)).outcome =
      .ok (Descriptor.arranged d) := (congrArg Run.outcome hsame).trans hok
  have hnone : (convert s'.source r.host none (.stored id)).writes = [] :=
    (congrArg Run.writes hsame).trans hwrites
  have hbuild' : s.build (Descriptor.sketch r none d).draft = (.stored id, s') := hbuild
  refine ⟨?_, Descriptor.alike_arranged d hd, Descriptor.equal_arranged hd⟩
  rw [hbuild', Run.settled, houtcome, hnone]
  rfl

def cardRegistry : Registry where
  components :=
    [("x-card", .component ⟨0, "Card", none, false⟩), ("x-badge", .component ⟨1, "Badge", none, false⟩)]
  lower := by decide
  nodup := by decide
  distinct := .cons (by simp; rfl) (List.pairwise_singleton ..)
  proper := by simp [Value.Proper]
  truthy := by simp [Value.truthy]
  noText := by simp

/-- A card with a badge in a prop, and in the badge a card. The child of the outer card names an
empty slot. -/
def nestedCards : Value :=
  .element (.component ⟨0, "Card", none, false⟩)
    [(.str "Corner", .element (.component ⟨1, "Badge", none, false⟩)
        [(.str "icon", .element (.component ⟨0, "Card", none, false⟩) [] [])] [.str "new"]),
      (.str "id", .str "7")]
    [.element (.str "p") [(.str "slot", .str "")] [.str "Hello"]]

theorem convert_sketch_nestedCards :
    Descriptor.Expressible cardRegistry nestedCards ∧
      let built := NodeStore.empty.build (Descriptor.sketch cardRegistry none nestedCards).draft
      (convert built.2.source cardRegistry.host none built.1).settled =
          .ok (Descriptor.arranged nestedCards) ∧
        nestedCards.equal (Descriptor.arranged nestedCards) = true := by
  have hcard : cardRegistry.IsComponent (.component ⟨0, "Card", none, false⟩) :=
    ⟨"x-card", List.mem_cons_self⟩
  have hbadge : cardRegistry.IsComponent (.component ⟨1, "Badge", none, false⟩) :=
    ⟨"x-badge", List.mem_cons_of_mem _ List.mem_cons_self⟩
  have hplain : cardRegistry.IsPlain (.str "p") := ⟨"p", rfl, by decide, by decide⟩
  have hicon : Descriptor.Expressible cardRegistry
      (.element (.component ⟨0, "Card", none, false⟩) [] []) :=
    ⟨.inl hcard, List.nodup_nil, trivial, trivial⟩
  have hcorner : Descriptor.Expressible cardRegistry
      (.element (.component ⟨1, "Badge", none, false⟩)
        [(.str "icon", .element (.component ⟨0, "Card", none, false⟩) [] [])] [.str "new"]) :=
    ⟨.inl hbadge, by simp,
      ⟨⟨"icon", rfl, .inr ⟨hbadge, by decide, hicon, by simp [Value.props]⟩⟩, trivial⟩,
      ⟨.inl ⟨"new", rfl, by decide⟩, trivial⟩⟩
  have hchild : Descriptor.Expressible cardRegistry
      (.element (.str "p") [(.str "slot", .str "")] [.str "Hello"]) :=
    ⟨.inr hplain, by simp, ⟨⟨"slot", rfl, .inl ⟨by decide, "", rfl⟩⟩, trivial⟩,
      ⟨.inl ⟨"Hello", rfl, by decide⟩, trivial⟩⟩
  have hd : Descriptor.Expressible cardRegistry nestedCards :=
    ⟨.inl hcard, by simp,
      ⟨⟨"Corner", rfl, .inr ⟨hcard, by decide, hcorner, by simp [Value.props]⟩⟩,
        ⟨"id", rfl, .inl ⟨by decide, "7", rfl⟩⟩, trivial⟩,
      ⟨.inr ⟨hchild, by simp [Value.props]⟩, trivial⟩⟩
  obtain ⟨hconvert, -, hequal⟩ := convert_sketch cardRegistry hd .empty
  exact ⟨hd, hconvert, hequal rfl⟩

end ComponentTree
