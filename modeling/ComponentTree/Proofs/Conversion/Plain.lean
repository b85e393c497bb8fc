import ComponentTree.Proofs.Converter
import ComponentTree.Proofs.Conversion.Depth
import ComponentTree.Proofs.Conversion.Reached
import ComponentTree.Proofs.Props.Standard

/-!
# Conversions to plain element values

`Host.plain` makes plain element values, with the standard strategy for its tables of names or
without a strategy. Where attributes are texts its conversions are as simple as they look: nothing is
ever written, so what a child gives does not depend on what was converted before it, and a visit
either gives a value or ends with the fault beyond its levels (`visit_settles`).

`describe` is the descriptor of an element as a function of what its children give
(`visit_gives_describe`). What is proved of slots and props is proved of it, without a course.
-/

namespace ComponentTree

open ComponentTree.Path
open Value (named Nest)

variable {ν : Type}

/-- The collaborators that make plain element values, with what is registered for every tag. The
props are made by the standard strategy for the given names, or without a strategy if there are
none. -/
def Host.plain (registered : String → Value) (fragmentType : Value) (names : Option PropNames) :
    Host ν where
  build := describeElement
  fragment := fragmentType
  component tag := .ok (registered tag)
  props := names.map (standardStrategy {})

/-- Plain converters, with a strategy or without, have such collaborators. -/
theorem Converter.host_plain (components : List (String × Value)) (names : Option PropNames) :
    (Converter.plain components (names.map (standardStrategy {})) : Converter ν).host =
      .plain (fun tag => (Assoc.get? tag (register components)).getD .null) .fragment names := rfl

namespace Conversion

variable {source : Source ν} {registered : String → Value} {fragmentType : Value}
variable {names : Option PropNames} {beyond : Fault} {levels : Nat} {node : ν}

/-! ## Slots -/

/-- The slot that an element names, if it does. -/
def slotName? (source : Source ν) (node : ν) : Option String :=
  if source.kind node = .element then
    match source.attributeValue node slotAttribute with
    | .ok (.str name) => if name.isEmpty then none else some name
    | _ => none
  else none

theorem kind_of_slotName? {name : String} (h : slotName? source node = some name) :
    source.kind node = .element := by
  rw [slotName?] at h
  split at h
  · assumption
  · cases h

/-- Whether the children of a node can go into slots. -/
def owns (source : Source ν) (registered : String → Value) (node : ν) : Bool :=
  source.kind node = .element && (registered (tagOf source node)).truthy

/-- The slot that a child is routed to, if any: one that it names, of a component. -/
def routedTo (source : Source ν) (owned : Bool) (child : ν) : Option String :=
  if owned then slotName? source child else none

/-- Where the result of a child goes. -/
def placementOf (source : Source ν) (owned : Bool) (result : ν → Value) (child : ν) :
    Option Placement :=
  match source.kind child with
  | .text => positional (.ofString? (source.text child))
  | .element =>
    match routedTo source owned child with
    | some name => some (.slot (.str name) (result child))
    | none => positional (result child)
  | _ => none

/-- The results of the children that are routed, each with its slot, in document order. -/
def routedPairs (source : Source ν) (owned : Bool) (result : ν → Value) (children : List ν) :
    List (String × Value) :=
  children.filterMap fun child => (routedTo source owned child).map (·, result child)

/-- The values that are placed among the children. -/
def positionals (source : Source ν) (owned : Bool) (result : ν → Value) (children : List ν) :
    List Value :=
  childrenOf ((children.map (placementOf source owned result)).filterMap id)

/-- The slot that a placement fills, with its value. -/
def slotEntry? : Placement → Option (Value × Value)
  | .slot name value => some (name, value)
  | .child _ => none

theorem slotEntry?_positional (value : Value) : (positional value).bind slotEntry? = none := by
  rw [positional]
  split <;> rfl

/-- The slots of an element hold what was routed. -/
theorem slotsOf_placementOf (owned : Bool) (result : ν → Value) (children : List ν) :
    slotsOf ((children.map (placementOf source owned result)).filterMap id) =
      named (Assoc.ofPairs (routedPairs source owned result children)) := by
  rw [slotsOf, Assoc.ofPairs, Assoc.ofPairs, ← Value.setAll_named, named, named, routedPairs,
    List.filterMap_map, List.filterMap_filterMap, List.map_filterMap]
  congr 1
  apply List.filterMap_congr
  intro child _
  show (placementOf source owned result child).bind slotEntry? = _
  unfold placementOf
  cases hk : source.kind child with
  | text =>
    have hnone : routedTo source owned child = none := by simp [routedTo, slotName?, hk]
    rw [hnone]
    exact slotEntry?_positional _
  | element =>
    cases routedTo source owned child with
    | none => exact slotEntry?_positional _
    | some name => rfl
  | _ =>
    have hnone : routedTo source owned child = none := by simp [routedTo, slotName?, hk]
    rw [hnone]
    rfl

/-! ## Attributes and props -/

/-- The attributes that are passed on, for an element whose parent has the given tag. -/
def passedOf (registered : String → Value) (parentTag : Option String)
    (attributes : List (String × Value)) : List (String × Value) :=
  if ((Assoc.get? slotAttribute attributes).getD .null).truthy &&
      parentTag.any fun tag => (registered tag).truthy then
    Assoc.erase slotAttribute attributes
  else attributes

theorem passedAttributes_gives (attributes : List (String × Value)) :
    (passedAttributes source (.plain registered fragmentType names) node attributes).Gives
      (passedOf registered (parentTag? source node) attributes) := by
  have hcurrent : (Course.current ((Assoc.get? slotAttribute attributes).getD .null) :
      Course ν Value).Gives ((Assoc.get? slotAttribute attributes).getD .null) := ⟨rfl, rfl⟩
  have hparent : (parentIsComponent source (.plain registered fragmentType names) node).Gives
      ((parentTag? source node).any fun tag => (registered tag).truthy) := by
    rw [parentIsComponent_eq]
    cases parentTag? source node with
    | none => exact Course.gives_pure _
    | some tag => exact (Course.gives_step _ _).bind (Course.gives_pure _)
  refine hcurrent.bind ?_
  rw [passedOf]
  cases ((Assoc.get? slotAttribute attributes).getD .null).truthy with
  | false => exact Course.gives_pure _
  | true => exact hparent.bind (Course.gives_pure _)

/-- The attributes that are passed on are some of the attributes. -/
theorem passedOf_sublist (registered : String → Value) (parentTag : Option String)
    (attributes : List (String × Value)) :
    (passedOf registered parentTag attributes).Sublist attributes := by
  rw [passedOf]
  split
  · exact Assoc.erase_sublist _ _
  · exact List.Sublist.refl _

/-- The props of an element with a component, attributes and slots. -/
def plainProps (names : Option PropNames) (component : Value)
    (attributes slots : List (String × Value)) : Entries :=
  match names with
  | none => named (Assoc.setAll attributes slots)
  | some names =>
    if component.truthy then assignAll (Props.rowsOf slots) (Props.ofAttributes {} names attributes)
    else Props.ofElement {} names attributes

variable {attributes slots : List (String × Value)} {leaf : Value → Prop}

theorem elementProps_gives (hattributes : Texts attributes)
    (hslots : ∀ slot ∈ slots, Nest leaf slot.2) (context : PropsContext ν) :
    (elementProps (.plain registered fragmentType names) ⟨attributes, named slots, context⟩).Gives
      (.dict none (plainProps names context.component attributes slots)) := by
  cases names with
  | none =>
    exact ⟨congrArg (fun entries => Except.ok (Value.dict none entries))
      (Value.setAll_named attributes slots), rfl⟩
  | some names =>
    have hcall : PropsCall.afterAll [] ⟨attributes, named slots, context⟩ =
        ⟨attributes, named slots, context⟩ := by
      rw [PropsCall.afterAll]
      congr 1
      exact List.map_id _
    refine ⟨?_, ?_⟩
    · show (standardStrategy {} names).make _ _ _ = _
      rw [hcall]
      cases h : context.component.truthy with
      | true =>
        rw [standardStrategy_make_component h, plainProps, if_pos h]
      | false =>
        rw [standardStrategy_make_element h, plainProps, if_neg (by simp [h])]
    · show (standardStrategy {} names).writes _ _ _ = _
      rw [hcall]
      exact standardStrategy_writes_eq_nil hattributes hslots

/-- The props are a nest if texts are leaves, and attributes that are decoded make a nest. -/
theorem nest_plainProps_of (component : Value) (hattributes : Texts attributes)
    (hnames : (attributes.map Prod.fst).Nodup) (hleaf : ∀ text, leaf (.ofString? text))
    (hdecoded : ∀ names, Nest leaf (.dict none (Props.ofAttributes {} names attributes)))
    (hslots : ∀ slot ∈ slots, Nest leaf slot.2) :
    Nest leaf (.dict none (plainProps names component attributes slots)) := by
  cases names with
  | none =>
    apply Nest.named (Assoc.nodup_keys_setAll hnames)
    intro pair hpair
    rcases Assoc.mem_setAll hpair with hpair | hpair
    · exact hslots pair hpair
    · exact hattributes.nest hleaf pair hpair
  | some names =>
    rw [plainProps]
    split
    · refine Props.nest_assignAll (hdecoded names) ?_
      intro row hrow
      obtain ⟨slot, hslot, rfl⟩ := List.mem_map.mp hrow
      exact hslots slot hslot
    · exact Props.nest_ofElement hattributes hleaf names

theorem nest_plainProps (component : Value) (hattributes : Texts attributes)
    (hnames : (attributes.map Prod.fst).Nodup)
    (hleaf : ∀ v : Value, v.Proper → leaf v) (hslots : ∀ slot ∈ slots, Nest leaf slot.2) :
    Nest leaf (.dict none (plainProps names component attributes slots)) :=
  nest_plainProps_of component hattributes hnames (fun text => hleaf _ (Value.proper_ofString? text))
    (fun names => (Props.nest_ofAttributes hattributes names).mono hleaf) hslots

/-! ## The descriptor of an element -/

/-- The descriptor of an element with some attributes, when its children give these results. -/
def describe (source : Source ν) (registered : String → Value) (names : Option PropNames) (node : ν)
    (attributes : List (String × Value)) (result : ν → Value) : Value :=
  let component := registered (tagOf source node)
  let children := source.children node
  .element (component.orElse (.str (tagOf source node)))
    (plainProps names component (passedOf registered (parentTag? source node) attributes)
      (Assoc.ofPairs (routedPairs source component.truthy result children)))
    (positionals source component.truthy result children)

/-- The slot attribute of an element is a text, and names a slot if that is not empty. -/
theorem slotName?_of_text {text : Option String} (he : source.kind node = .element)
    (h : source.attributeValue node slotAttribute = .ok (.ofString? text)) :
    slotName? source node = text.filter (! ·.isEmpty) := by
  rw [slotName?, if_pos he, h]
  cases text with
  | none => rfl
  | some name =>
    show (if name.isEmpty then none else some name) = _
    cases hname : name.isEmpty <;> simp [Option.filter, hname]

/-- Whether a component is registered for the owner of children. -/
def isOwned (owner : Option (Owner ν)) : Bool := owner.any (·.component.truthy)

/-- Where a value goes for a slot, or without one. -/
def placedAs (slot : Option String) (value : Value) : Option Placement :=
  match slot with
  | some name => some (.slot (.str name) value)
  | none => positional value

/-- The result of an element is put where the element is routed to, in a single step if that is a
slot. -/
theorem settle_of_text {text : Option String} (owner : Option (Owner ν))
    (he : source.kind node = .element)
    (hslot : source.attributeValue node slotAttribute = .ok (.ofString? text)) (value : Value) :
    settle owner node (.ofString? text) value =
        pure (placedAs (routedTo source (isOwned owner) node) value) ∨
      ∃ element slot, settle owner node (.ofString? text) value =
        Course.step (.route element node slot)
          (.ok (placedAs (routedTo source (isOwned owner) node) value)) := by
  rw [routedTo, slotName?_of_text he hslot]
  cases owner with
  | none => exact .inl rfl
  | some owner =>
    unfold settle isOwned
    dsimp only [Option.any_some]
    by_cases howned : owner.component.truthy = true
    · -- a slot is named by a text that is not empty, which is a text that is truthy
      simp only [howned, Bool.true_and, if_true]
      cases text with
      | none => exact .inl rfl
      | some name =>
        have htruthy : (Value.ofString? (some name)).truthy = ! name.isEmpty := rfl
        rw [htruthy]
        cases hname : name.isEmpty with
        | true => simp [Option.filter, hname, placedAs]
        | false =>
          rw [Option.filter, hname]
          exact .inr ⟨_, _, rfl⟩
    · simp only [howned, Bool.false_and, Bool.false_eq_true, if_false]
      exact .inl rfl

theorem settle_gives {text : Option String} (owner : Option (Owner ν))
    (he : source.kind node = .element)
    (hslot : source.attributeValue node slotAttribute = .ok (.ofString? text)) (value : Value) :
    (settle owner node (.ofString? text) value).Gives
      (placedAs (routedTo source (isOwned owner) node) value) := by
  rcases settle_of_text owner he hslot value with h | ⟨_, _, h⟩
  · rw [h]
    exact Course.gives_pure _
  · rw [h]
    exact Course.gives_step _ _

theorem placeChild_gives {convert : ν → Course ν Value} (owner : Option (Owner ν))
    (result : ν → Value)
    (hslot : ∃ text, source.attributeValue node slotAttribute = .ok (.ofString? text))
    (hresult : source.kind node = .element → (convert node).Gives (result node)) :
    (placeChild source convert owner node).Gives (placementOf source (isOwned owner) result node) := by
  by_cases ht : source.kind node = .text
  · rw [placeChild_text ht, placementOf, ht]
    exact Course.gives_pure _
  · by_cases he : source.kind node = .element
    · obtain ⟨text, hslot⟩ := hslot
      have hplacement : placementOf source (isOwned owner) result node =
          placedAs (routedTo source (isOwned owner) node) (result node) := by
        rw [placementOf, he]
        rfl
      rw [placeChild_element he, hslot, Course.ofExcept_ok, Course.pure_bind, hplacement]
      refine (hresult he).bind ?_
      rw [Course.current_ofString?, Course.pure_bind]
      exact settle_gives owner he hslot (result node)
    · have hnone : placementOf source (isOwned owner) result node = none := by
        rw [placementOf]
        cases hk : source.kind node <;> simp_all
      rw [placeChild_other ht he, hnone]
      exact Course.gives_pure _

theorem placeChild_stops {convert : ν → Course ν Value} (owner : Option (Owner ν)) {fault : Fault}
    (hslot : ∃ text, source.attributeValue node slotAttribute = .ok (.ofString? text))
    (he : source.kind node = .element) (h : (convert node).Stops fault) :
    (placeChild source convert owner node).Stops fault := by
  obtain ⟨text, hslot⟩ := hslot
  rw [placeChild_element he, hslot, Course.ofExcept_ok, Course.pure_bind]
  exact h.bind _

/-- Values that are no maps. -/
def NoMap (v : Value) : Prop := ∀ mark entries, v ≠ .dict mark entries

theorem kind_of_routedTo {owned : Bool} {name : String}
    (h : routedTo source owned node = some name) : source.kind node = .element := by
  rw [routedTo] at h
  split at h
  · exact kind_of_slotName? h
  · cases h

theorem routedPairs_nest {result : ν → Value} {owned : Bool} {children : List ν}
    (h : ∀ child ∈ children, source.kind child = .element →
      NoMap (result child) ∧ leaf (result child)) :
    ∀ slot ∈ Assoc.ofPairs (routedPairs source owned result children), Nest leaf slot.2 := by
  intro slot hslot
  obtain ⟨child, hchild, heq⟩ := List.mem_filterMap.mp (Assoc.mem_ofPairs hslot)
  obtain ⟨name, hname, rfl⟩ := Option.map_eq_some_iff.mp heq
  obtain ⟨hmap, hleaf⟩ := h child hchild (kind_of_routedTo hname)
  exact .leaf hmap hleaf

/-- What an element brings to its descriptor, if its children give results. -/
theorem gather_gives {part : ν → Prop} {result : ν → Value} (hr : source.Readable part) (hp : part node)
    (hattributes : attributesOf source node = .ok attributes)
    (hresult : ∀ child ∈ source.children node, source.kind child = .element →
      (visit source (.plain registered fragmentType names) beyond levels child).Gives
        (result child)) :
    (gather source (.plain registered fragmentType names) beyond levels node).Gives
      ⟨registered (tagOf source node), passedOf registered (parentTag? source node) attributes,
        ((source.children node).map
          (placementOf source (registered (tagOf source node)).truthy result)).filterMap id⟩ := by
  have hplaced : (placeChildren source (.plain registered fragmentType names) beyond levels
      (some ⟨node, registered (tagOf source node)⟩) (source.children node)).Gives
      ((source.children node).map
        (placementOf source (registered (tagOf source node)).truthy result)) :=
    Course.forEach_gives fun child hchild => placeChild_gives (some ⟨node, _⟩) result
      (hr.attributeText (hr.children hp hchild) slotAttribute) (hresult child hchild)
  rw [gather, hattributes]
  refine (Course.gives_step _ _).bind ((Course.gives_pure _).bind (hplaced.bind ?_))
  exact (passedAttributes_gives attributes).bind (Course.gives_pure _)

/-- **An element gives its descriptor**, if its children give results that are no maps. -/
theorem visit_gives_describe {part : ν → Prop} {result : ν → Value} (hr : source.Readable part)
    (hp : part node) (he : source.kind node = .element)
    (hattributes : attributesOf source node = .ok attributes)
    (hresult : ∀ child ∈ source.children node, source.kind child = .element →
      (visit source (.plain registered fragmentType names) beyond levels child).Gives
        (result child) ∧ NoMap (result child)) :
    (visit source (.plain registered fragmentType names) beyond (levels + 1) node).Gives
      (describe source registered names node attributes result) := by
  have htexts := texts_attributesOf hr hp hattributes
  have hpassed : Texts (passedOf registered (parentTag? source node) attributes) :=
    fun pair hpair => htexts pair ((passedOf_sublist ..).subset hpair)
  have hslots : ∀ slot ∈ Assoc.ofPairs (routedPairs source
      (registered (tagOf source node)).truthy result (source.children node)),
      Nest (fun _ => True) slot.2 :=
    routedPairs_nest fun child hchild hk => ⟨(hresult child hchild hk).2, trivial⟩
  rw [visit_element he]
  refine (Course.gives_step _ _).bind
    ((gather_gives hr hp hattributes fun child hchild hk => (hresult child hchild hk).1).bind ?_)
  rw [assemble]
  dsimp only
  rw [slotsOf_placementOf]
  exact (elementProps_gives hpassed hslots _).bind (build_gives (describeElement_dict _ _ _ _))

/-! ## What a visit comes to -/

/-- The types of elements and fragments are proper values. -/
def ProperTypes (registered : String → Value) (fragmentType : Value) : Prop :=
  (∀ tag, (registered tag).Proper) ∧ fragmentType.Proper

theorem proper_orElse {v w : Value} (hv : v.Proper) (hw : w.Proper) : (v.orElse w).Proper := by
  rw [Value.orElse]
  split
  · exact hv
  · exact hw

/-- The values among the children are texts and results. -/
theorem mem_positionals {result : ν → Value} {owned : Bool} {children : List ν} {v : Value}
    (h : v ∈ positionals source owned result children) :
    (∃ text, v = .ofString? text) ∨
      ∃ child ∈ children, source.kind child = .element ∧ v = result child := by
  obtain ⟨placement, hplacement, hv⟩ := List.mem_filterMap.mp h
  obtain ⟨placed, hplaced, rfl⟩ := List.mem_filterMap.mp hplacement
  obtain ⟨child, hchild, hplaced⟩ := List.mem_map.mp hplaced
  have hpositional : ∀ value, some placement = positional value → v = value := by
    intro value heq
    rw [positional] at heq
    split at heq
    · cases heq
      exact (Option.some.inj hv).symm
    · cases heq
  rw [placementOf] at hplaced
  cases hk : source.kind child with
  | text =>
    simp only [hk] at hplaced
    exact .inl ⟨_, hpositional _ hplaced.symm⟩
  | element =>
    simp only [hk] at hplaced
    split at hplaced
    · cases hplaced
      cases hv
    · exact .inr ⟨child, hchild, hk, hpositional _ hplaced.symm⟩
  | _ =>
    simp only [hk] at hplaced
    cases hplaced

theorem allProper_positionals {result : ν → Value} {owned : Bool} {children : List ν}
    (h : ∀ child ∈ children, source.kind child = .element → (result child).Proper) :
    Value.AllProper (positionals source owned result children) := by
  rw [Value.allProper_iff]
  intro v hv
  rcases mem_positionals hv with ⟨text, rfl⟩ | ⟨child, hchild, hk, rfl⟩
  · exact Value.proper_ofString? text
  · exact h child hchild hk

theorem proper_describe {result : ν → Value} (hregistered : ∀ tag, (registered tag).Proper)
    (hattributes : Texts attributes) (hnames : (attributes.map Prod.fst).Nodup)
    (hresult : ∀ child ∈ source.children node, source.kind child = .element →
      NoMap (result child) ∧ (result child).Proper) :
    (describe source registered names node attributes result).Proper := by
  have hpassed := passedOf_sublist registered (parentTag? source node) attributes
  have htexts : Texts (passedOf registered (parentTag? source node) attributes) :=
    fun pair hpair => hattributes pair (hpassed.subset hpair)
  have hprops : (Value.dict none (plainProps names (registered (tagOf source node))
      (passedOf registered (parentTag? source node) attributes)
      (Assoc.ofPairs (routedPairs source (registered (tagOf source node)).truthy result
        (source.children node))))).Proper :=
    (nest_plainProps _ htexts (hnames.sublist (hpassed.map Prod.fst)) (fun v hv => hv)
      (routedPairs_nest hresult)).proper
  refine ⟨proper_orElse (hregistered _) (Value.proper_str _), hprops, ?_⟩
  exact allProper_positionals fun child hchild hk => (hresult child hchild hk).2

/-- What a visit gives is no map, and it is proper if the types are. -/
def Sound (registered : String → Value) (fragmentType v : Value) : Prop :=
  NoMap v ∧ (ProperTypes registered fragmentType → v.Proper)

/-- The fragment of what its children give. -/
theorem visit_gives_fragment {part : ν → Prop} {result : ν → Value} (hr : source.Readable part)
    (hp : part node) (hf : source.kind node = .fragment)
    (hresult : ∀ child ∈ source.children node, source.kind child = .element →
      (visit source (.plain registered fragmentType names) beyond levels child).Gives
        (result child)) :
    (visit source (.plain registered fragmentType names) beyond (levels + 1) node).Gives
      (.element (fragmentType.orElse .null) []
        (positionals source false result (source.children node))) := by
  have hplaced : (placeChildren source (.plain registered fragmentType names) beyond levels none
      (source.children node)).Gives
      ((source.children node).map (placementOf source false result)) :=
    Course.forEach_gives fun child hchild => placeChild_gives none result
      (hr.attributeText (hr.children hp hchild) slotAttribute) (hresult child hchild)
  have hslots : slotsOf (((source.children node).map
      (placementOf source false result)).filterMap id) = [] := by
    rw [slotsOf_placementOf]
    simp [routedPairs, routedTo, Assoc.ofPairs, Assoc.setAll]
  rw [visit_fragment hf]
  refine (Course.gives_step _ _).bind (hplaced.bind ?_)
  rw [assembleFragment, hslots]
  exact build_gives (describeElement_dict _ _ _ _)

/-- Children that each give something or stop either all give their results, or the first that stops
ends them all. -/
theorem placeChildren_settles (registered : String → Value) (fragmentType : Value)
    (names : Option PropNames) (beyond : Fault) (levels : Nat) (children : List ν)
    (hslot : ∀ child ∈ children,
      ∃ text, source.attributeValue child slotAttribute = .ok (.ofString? text))
    (hsettles : ∀ child ∈ children,
      (∃ value, (visit source (.plain registered fragmentType names) beyond levels child).Gives
        value ∧ Sound registered fragmentType value) ∨
      (visit source (.plain registered fragmentType names) beyond levels child).Stops beyond) :
    (∃ result : ν → Value,
      (∀ child ∈ children, source.kind child = .element →
        (visit source (.plain registered fragmentType names) beyond levels child).Gives
          (result child) ∧ Sound registered fragmentType (result child)) ∧
      ∀ owner, (placeChildren source (.plain registered fragmentType names) beyond levels owner
        children).Gives (children.map (placementOf source (isOwned owner) result))) ∨
    ∀ owner, (placeChildren source (.plain registered fragmentType names) beyond levels owner
      children).Stops beyond := by
  by_cases hall : ∀ child, child ∈ children → source.kind child = .element →
      ∃ value, (visit source (.plain registered fragmentType names) beyond levels child).Gives
        value ∧ Sound registered fragmentType value
  · choose! result hresult using hall
    exact .inl ⟨result, hresult, fun owner => Course.forEach_gives fun child hchild =>
      placeChild_gives owner result (hslot child hchild) fun hk => (hresult child hchild hk).1⟩
  · simp only [not_forall] at hall
    obtain ⟨child, hchild, hk, hno⟩ := hall
    refine .inr fun owner => Course.forEach_stops (fun other hother => ?_) ⟨child, hchild,
      placeChild_stops owner (hslot child hchild) hk ((hsettles child hchild).resolve_left hno)⟩
    by_cases hk' : source.kind other = .element
    · rcases hsettles other hother with ⟨value, hvalue, -⟩ | hstop
      · exact .inl ⟨_, placeChild_gives owner (fun _ => value) (hslot other hother)
          fun _ => hvalue⟩
      · exact .inr (placeChild_stops owner (hslot other hother) hk' hstop)
    · exact .inl ⟨_, placeChild_gives owner (fun _ => .null) (hslot other hother)
        fun hk => absurd hk hk'⟩

/-- An element gives its descriptor, unless a child stops. -/
theorem element_settles {part : ν → Prop} (hr : source.Readable part) (hp : part node)
    (he : source.kind node = .element)
    (hsettles : ∀ child ∈ source.children node,
      (∃ value, (visit source (.plain registered fragmentType names) beyond levels child).Gives
        value ∧ Sound registered fragmentType value) ∨
      (visit source (.plain registered fragmentType names) beyond levels child).Stops beyond) :
    (∃ attributes result, attributesOf source node = .ok attributes ∧
      (∀ child ∈ source.children node, source.kind child = .element →
        (visit source (.plain registered fragmentType names) beyond levels child).Gives
          (result child) ∧ Sound registered fragmentType (result child)) ∧
      (visit source (.plain registered fragmentType names) beyond (levels + 1) node).Gives
        (describe source registered names node attributes result)) ∨
    (visit source (.plain registered fragmentType names) beyond (levels + 1) node).Stops beyond := by
  obtain ⟨attributes, hattributes⟩ := attributesOf_ok (hr.attributeText hp)
  rcases placeChildren_settles registered fragmentType names beyond levels (source.children node)
    (fun child hchild => hr.attributeText (hr.children hp hchild) slotAttribute) hsettles with
    ⟨result, hresult, -⟩ | hstops
  · exact .inl ⟨attributes, result, hattributes, hresult,
      visit_gives_describe hr hp he hattributes fun child hchild hk =>
        ⟨(hresult child hchild hk).1, (hresult child hchild hk).2.1⟩⟩
  · right
    rw [visit_element he]
    refine (Course.gives_step _ _).bind_stops (Course.Stops.bind ?_ _)
    rw [gather, hattributes]
    exact (Course.gives_step _ _).bind_stops ((Course.gives_pure _).bind_stops ((hstops _).bind _))

/-- A fragment gives what its children make of it, unless a child stops. -/
theorem fragment_settles {part : ν → Prop} (hr : source.Readable part) (hp : part node)
    (hf : source.kind node = .fragment)
    (hsettles : ∀ child ∈ source.children node,
      (∃ value, (visit source (.plain registered fragmentType names) beyond levels child).Gives
        value ∧ Sound registered fragmentType value) ∨
      (visit source (.plain registered fragmentType names) beyond levels child).Stops beyond) :
    (∃ result, (∀ child ∈ source.children node, source.kind child = .element →
        (visit source (.plain registered fragmentType names) beyond levels child).Gives
          (result child) ∧ Sound registered fragmentType (result child)) ∧
      (visit source (.plain registered fragmentType names) beyond (levels + 1) node).Gives
        (.element (fragmentType.orElse .null) []
          (positionals source false result (source.children node)))) ∨
    (visit source (.plain registered fragmentType names) beyond (levels + 1) node).Stops beyond := by
  rcases placeChildren_settles registered fragmentType names beyond levels (source.children node)
    (fun child hchild => hr.attributeText (hr.children hp hchild) slotAttribute) hsettles with
    ⟨result, hresult, -⟩ | hstops
  · exact .inl ⟨result, hresult, visit_gives_fragment hr hp hf fun child hchild hk =>
      (hresult child hchild hk).1⟩
  · right
    rw [visit_fragment hf]
    exact (Course.gives_step _ _).bind_stops ((hstops none).bind _)

/-- **A visit gives a value, or it ends with the fault beyond its levels.** -/
theorem plain_settles {part : ν → Prop} (hr : source.Readable part) (hp : part node) :
    (∃ value, (visit source (.plain registered fragmentType names) beyond levels node).Gives value ∧
        Sound registered fragmentType value) ∨
      (visit source (.plain registered fragmentType names) beyond levels node).Stops beyond := by
  induction levels generalizing node with
  | zero => exact .inr rfl
  | succ levels ih =>
    have hchild := fun child hchild => ih (hr.children hp (b := child) hchild)
    by_cases he : source.kind node = .element
    · rcases element_settles hr hp he hchild with ⟨attributes, result, hattributes, hresult, hgives⟩ | hs
      · refine .inl ⟨_, hgives, by simp [NoMap, describe], fun htypes => ?_⟩
        exact proper_describe htypes.1 (texts_attributesOf hr hp hattributes)
          (nodup_keys_attributesOf hattributes) fun child hchild hk =>
            ⟨(hresult child hchild hk).2.1, (hresult child hchild hk).2.2 htypes⟩
      · exact .inr hs
    · by_cases hf : source.kind node = .fragment
      · rcases fragment_settles hr hp hf hchild with ⟨result, hresult, hgives⟩ | hs
        · refine .inl ⟨_, hgives, by simp [NoMap], fun htypes => ?_⟩
          refine ⟨proper_orElse htypes.2 trivial, ⟨.nil, trivial⟩, ?_⟩
          exact allProper_positionals fun child hchild hk => (hresult child hchild hk).2.2 htypes
        · exact .inr hs
      · refine .inl ⟨.null, ?_, by simp [NoMap], fun _ => trivial⟩
        rw [visit_other he hf]
        exact (Course.gives_step _ _).bind (Course.gives_pure _)

/-- What an element gives is its descriptor, made of what its children give. -/
theorem exists_describe {part : ν → Prop} {d : Value} (hr : source.Readable part) (hp : part node)
    (he : source.kind node = .element)
    (h : ((visit source (.plain registered fragmentType names) beyond levels node).run []).outcome =
      .ok d) :
    ∃ below attributes result, levels = below + 1 ∧ attributesOf source node = .ok attributes ∧
      (∀ child ∈ source.children node, source.kind child = .element →
        (visit source (.plain registered fragmentType names) beyond below child).Gives
          (result child) ∧ Sound registered fragmentType (result child)) ∧
      d = describe source registered names node attributes result := by
  cases levels with
  | zero => cases h
  | succ below =>
    rcases element_settles hr hp he fun child hchild => plain_settles hr (hr.children hp hchild) with
      ⟨attributes, result, hattributes, hresult, hgives⟩ | hstops
    · exact ⟨below, attributes, result, rfl, hattributes, hresult,
        Except.ok.inj (h.symm.trans hgives.1)⟩
    · rw [Course.Stops, h] at hstops
      cases hstops

/-- What a fragment gives is made of what its children give. -/
theorem exists_fragment {part : ν → Prop} {d : Value} (hr : source.Readable part) (hp : part node)
    (hf : source.kind node = .fragment)
    (h : ((visit source (.plain registered fragmentType names) beyond levels node).run []).outcome =
      .ok d) :
    ∃ below result, levels = below + 1 ∧
      (∀ child ∈ source.children node, source.kind child = .element →
        (visit source (.plain registered fragmentType names) beyond below child).Gives
          (result child) ∧ Sound registered fragmentType (result child)) ∧
      d = .element (fragmentType.orElse .null) []
        (positionals source false result (source.children node)) := by
  cases levels with
  | zero => cases h
  | succ below =>
    rcases fragment_settles hr hp hf fun child hchild => plain_settles hr (hr.children hp hchild) with
      ⟨result, hresult, hgives⟩ | hstops
    · exact ⟨below, result, rfl, hresult, Except.ok.inj (h.symm.trans hgives.1)⟩
    · rw [Course.Stops, h] at hstops
      cases hstops

/-- Children of which none stops write nothing. -/
theorem placeChildren_gives_of_ok {part : ν → Prop} (hr : source.Readable part) {children : List ν}
    {owner : Option (Owner ν)} {placements : List (Option Placement)}
    (hpart : ∀ child ∈ children, part child)
    (h : ((placeChildren source (.plain registered fragmentType names) beyond levels owner
      children).run []).outcome = .ok placements) :
    (placeChildren source (.plain registered fragmentType names) beyond levels owner
      children).Gives placements := by
  refine ⟨h, ?_⟩
  rcases placeChildren_settles registered fragmentType names beyond levels children
    (fun child hchild => hr.attributeText (hpart child hchild) slotAttribute)
    (fun child hchild => plain_settles hr (hpart child hchild)) with ⟨result, -, hgives⟩ | hstops
  · exact (hgives owner).2
  · have hstop := hstops owner
    rw [Course.Stops, h] at hstop
    cases hstop

/-! ## Reached visits -/

/-- Before no visit of such a conversion anything was written. -/
theorem earlier_eq_nil {part : ν → Prop} (hr : source.Readable part) {start v : Visit ν}
    (hp : part start.node) (hstart : start.earlier = [])
    (h : Reached source (.plain registered fragmentType names) beyond start v) :
    part v.node ∧ v.earlier = [] := by
  induction h with
  | start => exact ⟨hp, hstart⟩
  | child _ ht ih =>
    obtain ⟨hpart, hearlier⟩ := ih
    cases ht with
    | @intro node child before after levels earlier owner placements slot hopens hch hbefore hk hslot =>
      obtain rfl : earlier = [] := hearlier
      have hmem : ∀ other ∈ before ++ child :: after, part other :=
        fun other hother => hr.children hpart (hch ▸ hother)
      have hpartBefore : ∀ other ∈ before, part other :=
        fun other hother => hmem other (List.mem_append_left _ hother)
      have hgives := placeChildren_gives_of_ok hr hpartBefore hbefore
      exact ⟨hmem child (by simp), hgives.2⟩

end Conversion

end ComponentTree
