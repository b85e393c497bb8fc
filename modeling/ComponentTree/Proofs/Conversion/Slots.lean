import ComponentTree.Converter
import ComponentTree.Proofs.Conversion.Reached
import ComponentTree.Proofs.Source.View

/-!
# Routing and dropping the slot attribute agree

Whether a child is routed into a slot is decided in the loop of its parent, from the component that
was looked up for the parent. Whether the slot attribute is dropped from what the child hands on is
decided later and from below, by asking the child for its parent and looking that up once more.

In a tree in which every child reports the node that lists it as its parent, both decisions are the
same at every visit of a conversion (`slot_routed_iff_dropped`). From above the decision rests on
`Opens`, from below on `source.parent`; `IsComponent` of the parent is what both come to.

What the children of a node come to is told child by child in `Collected`: a result is set among the slots
or added to the children, as the slot attribute was dropped or not. That these slots and children, and the
attributes handed on, are what the collaborators are called with is `Uses`.
-/

namespace ComponentTree

variable {ν : Type}

/-! ## Trees whose parts agree -/

/-- A part of a source that is closed under children and tells a consistent story: children report
the node that lists them as their parent, what names a slot is a text, and an attribute that names a
slot is listed among the attributes. -/
structure Source.Coherent (source : Source ν) (part : ν → Prop) : Prop where
  children : ∀ {a b}, part a → b ∈ source.children a → part b
  parent : ∀ {a b}, part a → b ∈ source.children a → source.parent b = some a
  slotText : ∀ {a slot}, part a → source.attributeValue a slotAttribute = .ok slot →
    ∃ text, slot = .ofString? text
  slotListed : ∀ {a slot}, part a → source.attributeValue a slotAttribute = .ok slot →
    slot.truthy = true → slotAttribute ∈ source.attributeNames a

/-- Parsed markup is coherent wherever attributes are texts. -/
theorem View.coherent : View.source.Coherent View.Readable where
  children := fun ha hb => ha.of_mem_children hb
  parent := fun _ hb => View.parent_of_mem_children hb
  slotText := by
    intro a slot ha hs
    obtain ⟨text, ht⟩ := ha a .refl slotAttribute
    rw [show View.source.attributeValue a slotAttribute = a.attributeValue slotAttribute from rfl,
      ht] at hs
    exact ⟨text, (Except.ok.inj hs).symm⟩
  slotListed := by
    intro a slot _ hs ht
    change a.attributeValue slotAttribute = .ok slot at hs
    unfold View.attributeValue at hs
    split at hs
    · next found hfound =>
      have hname := List.find?_some hfound
      rw [beq_iff_eq, show lowercase slotAttribute = slotAttribute by decide] at hname
      exact List.mem_map.mpr ⟨found, List.mem_of_find?_eq_some hfound, hname⟩
    · cases hs
      cases ht

/-- Nodes built by hand are coherent wherever children report the node that lists them. Nodes may
be shared and moved, so it does take this, but nothing more. -/
theorem NodeStore.coherent {s : NodeStore} {part : Node → Prop}
    (hclosed : ∀ {a b}, part a → b ∈ s.source.children a → part b)
    (hparent : ∀ {a b}, part a → b ∈ s.source.children a → s.source.parent b = some a)
    (hview : ∀ {view marks}, part (.parsed view marks) → view.Readable) :
    s.source.Coherent part where
  children := hclosed
  parent := hparent
  slotText := by
    intro a slot ha hs
    cases a with
    | stored id => exact ⟨_, (Except.ok.inj hs).symm⟩
    | parsed view marks => exact View.coherent.slotText (hview ha) hs
  slotListed := by
    intro a slot ha hs ht
    cases a with
    | stored id =>
      have hs : slot = .ofString? ((s.get id).content.attribute? slotAttribute) :=
        (Except.ok.inj hs).symm
      rw [NodeContent.attribute?, show lowercase slotAttribute = slotAttribute by decide] at hs
      cases hget : Assoc.get? slotAttribute (s.get id).content.attributes with
      | none =>
        rw [hs, hget] at ht
        cases ht
      | some text => exact List.mem_map.mpr ⟨_, Assoc.mem_of_get? hget, rfl⟩
    | parsed view marks => exact View.coherent.slotListed (hview ha) hs ht

namespace Conversion

variable {source : Source ν} {host : Host ν} {beyond : Fault} {node : ν} {earlier : List Write}
variable {part : ν → Prop} {attributes all : List (String × Value)}

/-- The node has a slot attribute that is not empty. -/
def NamesSlot (source : Source ν) (node : ν) : Prop :=
  ∃ slot, source.attributeValue node slotAttribute = .ok slot ∧ slot.truthy = true

/-- The node is an element for which a component is registered. -/
def IsComponent (source : Source ν) (host : Host ν) (node : ν) : Prop :=
  source.kind node = .element ∧
    ∃ component, host.component (tagOf source node) = .ok component ∧ component.truthy = true

/-! ## The two decisions -/

/-- The attributes that an element hands on to its props. -/
inductive HandsOn (source : Source ν) (host : Host ν) (beyond : Fault) :
    Visit ν → List (String × Value) → Prop
  | intro {node : ν} {levels : Nat} {earlier : List Write} {gathered : Gathered} :
      source.kind node = .element →
      ((gather source host beyond levels node).run earlier).outcome = .ok gathered →
      HandsOn source host beyond ⟨node, levels + 1, earlier⟩ gathered.attributes

/-- The attributes that an element hands on lack the slot attribute, although it names a slot. -/
def Dropped (source : Source ν) (node : ν) (attributes : List (String × Value)) : Prop :=
  NamesSlot source node ∧ Assoc.get? slotAttribute attributes = none

/-- An element hands on all its attributes, without the slot attribute exactly if it names a slot
and belongs to a component. -/
structure HandsOnUnless (source : Source ν) (node : ν) (attributes : List (String × Value))
    (owned : Prop) : Prop where
  dropped_iff : Dropped source node attributes ↔ NamesSlot source node ∧ owned
  rest : Dropped source node attributes →
    ∃ all, attributesOf source node = .ok all ∧ attributes = Assoc.erase slotAttribute all
  complete : ¬ Dropped source node attributes → attributesOf source node = .ok attributes

/-- Where an element child puts its result, when it is its turn. -/
def Visit.placement (source : Source ν) (host : Host ν) (beyond : Fault) (owner : Option (Owner ν))
    (c : Visit ν) : Except Fault (Option Placement) :=
  ((placeChild source (visit source host beyond c.levels) owner c.node).run c.earlier).outcome

/-- The result of a child is stored in the slots of its parent, under the slot that it names. -/
def Routed (source : Source ν) (host : Host ν) (beyond : Fault) (owner : Option (Owner ν))
    (c : Visit ν) (value : Value) : Prop :=
  ∃ slot, source.attributeValue c.node slotAttribute = .ok slot ∧ slot.truthy = true ∧
    c.placement source host beyond owner = .ok (some (.slot slot value))

/-! ## From below -/

/-- What is held under the slot attribute is a text, and not an empty one exactly if the node names a
slot. -/
theorem exists_slotText (hc : source.Coherent part) (hn : part node)
    (h : attributesOf source node = .ok all) :
    ∃ text, (Assoc.get? slotAttribute all).getD .null = .ofString? text ∧
      ((Value.ofString? text).truthy = true ↔ NamesSlot source node) := by
  by_cases hm : slotAttribute ∈ source.attributeNames node
  · obtain ⟨value, hv, hget⟩ := get?_attributesOf h hm
    obtain ⟨text, rfl⟩ := hc.slotText hn hv
    refine ⟨text, by rw [hget]; rfl, fun ht => ⟨_, hv, ht⟩, ?_⟩
    rintro ⟨slot, hs, ht⟩
    rw [hv] at hs
    cases hs
    exact ht
  · have hget := get?_attributesOf_of_not_mem h hm
    refine ⟨none, by rw [hget]; rfl, fun ht => ?_, ?_⟩
    · cases ht
    · rintro ⟨slot, hs, ht⟩
      exact absurd (hc.slotListed hn hs ht) hm

theorem parentIsComponent_ok {b : Bool}
    (h : ((parentIsComponent source host node).run earlier).outcome = .ok b) :
    b = true ↔ ∃ q, source.parent node = some q ∧ IsComponent source host q := by
  unfold parentIsComponent at h
  cases hp : source.parent node with
  | none =>
    rw [hp] at h
    cases h
    simp
  | some q =>
    rw [hp] at h
    simp only [Option.some.injEq, exists_eq_left', IsComponent]
    by_cases hk : source.kind q = .element
    · simp only [hk] at h
      obtain ⟨component, hcomp, hb⟩ := Course.outcome_bind_ok h
      have hcomp : host.component (tagOf source q) = .ok component := hcomp
      cases hb
      simp [hk, hcomp]
    · have hb : b = false := by
        cases hk' : source.kind q <;> simp only [hk'] at h hk <;> first | contradiction | (cases h; rfl)
      simp [hb, hk]

theorem passedAttributes_ok (hc : source.Coherent part) (hn : part node)
    (hall : attributesOf source node = .ok all)
    (h : ((passedAttributes source host node all).run earlier).outcome = .ok attributes) :
    HandsOnUnless source node attributes
      (∃ q, source.parent node = some q ∧ IsComponent source host q) := by
  obtain ⟨text, hheld, htruthy⟩ := exists_slotText hc hn hall
  -- whatever names a slot is listed, so as long as nothing is erased nothing is dropped
  have hkept : ¬ Dropped source node all := by
    rintro ⟨hnames, hnone⟩
    rw [hnone] at hheld
    rw [← htruthy, ← hheld] at hnames
    cases hnames
  rw [passedAttributes, hheld, Course.current_ofString?, Course.pure_bind] at h
  split at h
  · next ht =>
    have hnames := htruthy.mp ht
    obtain ⟨b, hb, h⟩ := Course.outcome_bind_ok h
    have howned := parentIsComponent_ok hb
    cases b with
    | true =>
      cases h
      have hdropped : Dropped source node (Assoc.erase slotAttribute all) :=
        ⟨hnames, Assoc.get?_erase_self (nodup_keys_attributesOf hall)⟩
      exact ⟨iff_of_true hdropped ⟨hnames, howned.mp rfl⟩, fun _ => ⟨all, hall, rfl⟩,
        fun hno => absurd hdropped hno⟩
    | false =>
      cases h
      exact ⟨iff_of_false hkept fun ho => Bool.false_ne_true (howned.mpr ho.2),
        fun hd => absurd hd hkept, fun _ => hall⟩
  · next ht =>
    cases h
    exact ⟨iff_of_false hkept fun ho => ht (htruthy.mpr ho.1), fun hd => absurd hd hkept,
      fun _ => hall⟩

theorem HandsOn.unless {v : Visit ν} (hc : source.Coherent part) (hn : part v.node)
    (h : HandsOn source host beyond v attributes) :
    HandsOnUnless source v.node attributes
      (∃ q, source.parent v.node = some q ∧ IsComponent source host q) := by
  obtain ⟨-, h⟩ := h
  obtain ⟨component, -, h⟩ := Course.outcome_bind_ok h
  obtain ⟨all, hall, h⟩ := Course.outcome_bind_ok h
  obtain ⟨placements, -, h⟩ := Course.outcome_bind_ok h
  obtain ⟨attributes, hpass, h⟩ := Course.outcome_bind_ok h
  cases h
  exact passedAttributes_ok hc hn hall hpass

/-! ## From above -/

theorem Opens.isComponent_iff {owner : Option (Owner ν)} (h : Opens source host node owner) :
    IsComponent source host node ↔ ∃ o, owner = some o ∧ o.component.truthy = true := by
  cases h with
  | element he hcomp _ => simp [IsComponent, he, hcomp]
  | fragment hf => simp [IsComponent, hf]

/-- A child that names a slot of a component goes there, any other one to the children. -/
theorem placement_eq {v c : Visit ν} {owner : Option (Owner ν)} {value : Value}
    (hc : source.Coherent part) (hn : part c.node) (ht : Turn source host beyond v owner c)
    (hvalue : (c.run source host beyond).outcome = .ok value) :
    (NamesSlot source c.node ∧ IsComponent source host v.node →
      Routed source host beyond owner c value) ∧
    (¬ (NamesSlot source c.node ∧ IsComponent source host v.node) →
      c.placement source host beyond owner = .ok (positional value)) := by
  obtain ⟨hopens, -, -, he, hslot⟩ := ht
  obtain ⟨text, rfl⟩ := hc.slotText hn hslot
  have hnames : NamesSlot source _ ↔ (Value.ofString? text).truthy = true :=
    ⟨fun ⟨s, hs, hst⟩ => by rw [hslot] at hs; cases hs; exact hst, fun hst => ⟨_, hslot, hst⟩⟩
  rw [hopens.isComponent_iff, hnames]
  unfold Routed Visit.placement
  dsimp only
  rw [placeChild_element he, hslot, Course.ofExcept_ok, Course.pure_bind, Course.run_bind_ok hvalue,
    Course.current_ofString?, Course.pure_bind]
  cases owner with
  | none => simp [settle]
  | some o =>
    simp only [Option.some.injEq, exists_eq_left']
    constructor
    · rintro ⟨hst, hot⟩
      refine ⟨_, rfl, hst, ?_⟩
      cases text with
      | none => cases hst
      | some s =>
        have hst : (Value.str s).truthy = true := hst
        simp [settle, hot, hst, routed, Value.ofString?, Value.keyObstacle?]
    · intro hno
      -- one of the two conditions of the loop fails
      have hcond : (o.component.truthy && (Value.ofString? text).truthy) = false := by
        rw [Bool.and_eq_false_iff]
        by_contra hboth
        simp only [not_or, Bool.not_eq_false] at hboth
        exact hno ⟨hboth.2, hboth.1⟩
      simp [settle, hcond]

/-! ## Both decisions agree -/

theorem Turn.mem_children {v c : Visit ν} {owner : Option (Owner ν)}
    (h : Turn source host beyond v owner c) : c.node ∈ source.children v.node := by
  obtain ⟨-, hch, -, -, -⟩ := h
  rw [hch]
  simp

theorem Reached.mem_part {start v : Visit ν} (hc : source.Coherent part) (hs : part start.node)
    (h : Reached source host beyond start v) : part v.node := by
  induction h with
  | start => exact hs
  | child _ ht ih => exact hc.children ih ht.mem_children

/-- Whoever gives a result has handed on some attributes before. -/
theorem exists_handsOn {v c : Visit ν} {owner : Option (Owner ν)} {value : Value}
    (ht : Turn source host beyond v owner c)
    (hvalue : (c.run source host beyond).outcome = .ok value) :
    ∃ attributes, HandsOn source host beyond c attributes := by
  obtain ⟨node, levels, earlier⟩ := c
  have he : source.kind node = .element := by
    obtain ⟨-, -, -, he, -⟩ := ht
    exact he
  cases levels with
  | zero => cases hvalue
  | succ levels =>
    rw [Visit.run, visit_element he] at hvalue
    obtain ⟨_, -, h⟩ := Course.outcome_bind_ok hvalue
    obtain ⟨gathered, hg, -⟩ := Course.outcome_bind_ok h
    rw [Course.run_step, List.append_nil] at hg
    exact ⟨_, .intro he hg⟩

/-! ## What reaches the collaborators -/

/-- The value as a positional child, which null and empty text are not. -/
def kept : Value → List Value
  | .null => []
  | .str text => if text = "" then [] else [.str text]
  | value => [value]

/-- What the children of a node come to, one after the other: the slots in which results are stored and
the positional children. -/
inductive Collected (source : Source ν) (host : Host ν) (beyond : Fault) (p : Visit ν) :
    List ν → Entries → List Value → Prop
  | nil : Collected source host beyond p [] [] []
  | slot {before : List ν} {slots : Entries} {children : List Value} {owner : Option (Owner ν)}
      {c : Visit ν} {attributes : List (String × Value)} {name : String} {value : Value} :
      Collected source host beyond p before slots children → Turn source host beyond p owner c →
      HandsOn source host beyond c attributes → Dropped source c.node attributes →
      source.attributeValue c.node slotAttribute = .ok (.str name) →
      (c.run source host beyond).outcome = .ok value →
      Collected source host beyond p (before ++ [c.node]) (Assoc.set (.str name) value slots) children
  | element {before : List ν} {slots : Entries} {children : List Value} {owner : Option (Owner ν)}
      {c : Visit ν} {attributes : List (String × Value)} {value : Value} :
      Collected source host beyond p before slots children → Turn source host beyond p owner c →
      HandsOn source host beyond c attributes → ¬ Dropped source c.node attributes →
      (c.run source host beyond).outcome = .ok value →
      Collected source host beyond p (before ++ [c.node]) slots (children ++ kept value)
  | text {before : List ν} {slots : Entries} {children : List Value} {child : ν} :
      Collected source host beyond p before slots children → source.kind child = .text →
      Collected source host beyond p (before ++ [child]) slots
        (children ++ kept (.ofString? (source.text child)))
  | other {before : List ν} {slots : Entries} {children : List Value} {child : ν} :
      Collected source host beyond p before slots children → source.kind child ≠ .text →
      source.kind child ≠ .element → Collected source host beyond p (before ++ [child]) slots children

/-- The children of a node have all been placed, and it hands on attributes. A fragment has none. -/
inductive Completed (source : Source ν) (host : Host ν) (beyond : Fault) :
    Visit ν → List (String × Value) → Prop
  | element {p : Visit ν} {attributes : List (String × Value)} :
      HandsOn source host beyond p attributes → Completed source host beyond p attributes
  | fragment {node : ν} {levels : Nat} {earlier : List Write} {placements : List (Option Placement)} :
      source.kind node = .fragment →
      ((placeChildren source host beyond levels none (source.children node)).run earlier).outcome =
        .ok placements →
      Completed source host beyond ⟨node, levels + 1, earlier⟩ []

/-- The calls with which a visit ends. The props strategy is given attributes and slots, and what it
makes goes to the builder together with the children; without a strategy, and for a fragment, the slots
are set over the attributes. All finds the shared maps as the writes before have left them. -/
inductive Uses (source : Source ν) (host : Host ν) (beyond : Fault) (p : Visit ν)
    (attributes : List (String × Value)) (slots : Entries) (children : List Value) : Prop
  | merged {before : List (Step ν)} {type : Value} {writes : List Write} :
      host.props = none ∨ source.kind p.node = .fragment →
      (p.run source host beyond).steps = before ++ [.build p.node type
        ((Value.dict none (Assoc.setAll (attributes.map fun entry => (.str entry.1, entry.2))
          slots)).afterAll writes) (children.map (·.afterAll writes))] →
      Uses source host beyond p attributes slots children
  | made {before : List (Step ν)} {type component props : Value} {writes : List Write}
      {strategy : PropsStrategy ν} {call : PropsCall ν} :
      host.props = some strategy →
      call = PropsCall.afterAll writes
        ⟨attributes, slots, ⟨tagOf source p.node, component, p.node⟩⟩ →
      strategy.make call.attributes call.slots call.context = .ok props →
      (p.run source host beyond).steps = before ++ [.props call, .build p.node type
        (props.afterAll (writes ++ strategy.writes call.attributes call.slots call.context))
        (children.map (·.afterAll
          (writes ++ strategy.writes call.attributes call.slots call.context)))] →
      Uses source host beyond p attributes slots children
  | refused {before : List (Step ν)} {component : Value} {writes : List Write}
      {strategy : PropsStrategy ν} {call : PropsCall ν} {fault : Fault} :
      host.props = some strategy →
      call = PropsCall.afterAll writes
        ⟨attributes, slots, ⟨tagOf source p.node, component, p.node⟩⟩ →
      strategy.make call.attributes call.slots call.context = .error fault →
      (p.run source host beyond).steps = before ++ [.props call] →
      Uses source host beyond p attributes slots children

theorem filterMap_id_singleton (placement : Option Placement) :
    [placement].filterMap id = placement.toList := by cases placement <;> rfl

theorem childrenOf_positional (placed : List Placement) (value : Value) :
    childrenOf (placed ++ (positional value).toList) = childrenOf placed ++ kept value := by
  rw [childrenOf, List.filterMap_append]
  congr 1
  unfold positional Value.isChild kept
  cases value with
  | str text => by_cases htext : text = "" <;> simp [htext]
  | _ => rfl

theorem slotsOf_positional (placed : List Placement) (value : Value) :
    slotsOf (placed ++ (positional value).toList) = slotsOf placed := by
  rw [slotsOf, slotsOf, List.filterMap_append]
  cases hplaced : positional value with
  | none => simp
  | some placement =>
    cases placement with
    | slot name v => exact absurd hplaced positional_ne_slot
    | child v => simp

theorem slotsOf_append_slot (placed : List Placement) (name value : Value) :
    slotsOf (placed ++ [.slot name value]) = Assoc.set name value (slotsOf placed) := by
  rw [slotsOf, List.filterMap_append]
  exact Assoc.setAll_append ..

theorem childrenOf_append_slot (placed : List Placement) (name value : Value) :
    childrenOf (placed ++ [.slot name value]) = childrenOf placed := by
  simp [childrenOf]

theorem HandsOn.unless_of_parent {c : Visit ν} {q : ν} (hc : source.Coherent part)
    (hn : part c.node) (hparent : source.parent c.node = some q)
    (h : HandsOn source host beyond c attributes) :
    HandsOnUnless source c.node attributes (IsComponent source host q) := by
  simpa [hparent] using h.unless hc hn

/-- What names a slot is a text. -/
theorem exists_str_of_namesSlot {slot : Value} (hc : source.Coherent part) (hn : part node)
    (hslot : source.attributeValue node slotAttribute = .ok slot) (h : NamesSlot source node) :
    ∃ name, slot = .str name := by
  obtain ⟨text, rfl⟩ := hc.slotText hn hslot
  cases text with
  | none =>
    obtain ⟨_, hs, ht⟩ := h
    rw [hslot] at hs
    cases hs
    cases ht
  | some name => exact ⟨name, rfl⟩

/-- A child that is an element adds an entry to the slots or a value to the children. -/
theorem Collected.append_element {owner : Option (Owner ν)} {levels : Nat} {before after : List ν}
    {child : ν} {placed : List (Option Placement)} {placement : Option Placement}
    (hc : source.Coherent part) (hn : part node) (ho : Opens source host node owner)
    (hchildren : source.children node = before ++ child :: after) (he : source.kind child = .element)
    (hplaced : ((placeChildren source host beyond levels owner before).run earlier).outcome =
      .ok placed)
    (hplacement : ((placeChild source (visit source host beyond levels) owner child).run
      (earlier ++ ((placeChildren source host beyond levels owner before).run earlier).writes)).outcome =
        .ok placement)
    (hbefore : Collected source host beyond ⟨node, levels + 1, earlier⟩ before
      (slotsOf (placed.filterMap id)) (childrenOf (placed.filterMap id))) :
    Collected source host beyond ⟨node, levels + 1, earlier⟩ (before ++ [child])
      (slotsOf (placed.filterMap id ++ placement.toList))
      (childrenOf (placed.filterMap id ++ placement.toList)) := by
  have hmem : child ∈ source.children node := by simp [hchildren]
  have hpart := hc.children hn hmem
  have hplacement' := hplacement
  rw [placeChild_element he] at hplacement
  obtain ⟨slot, hslot, hplacement⟩ := Course.outcome_bind_ok hplacement
  obtain ⟨value, hvalue, -⟩ := Course.outcome_bind_ok hplacement
  rw [Course.run_ofExcept, List.append_nil] at hvalue
  have hturn : Turn source host beyond ⟨node, levels + 1, earlier⟩ owner
      ⟨child, levels,
        earlier ++ ((placeChildren source host beyond levels owner before).run earlier).writes⟩ :=
    .intro ho hchildren hplaced he hslot
  obtain ⟨attributes, hands⟩ := exists_handsOn hturn hvalue
  have hdropped := (hands.unless_of_parent hc hpart (hc.parent hn hmem)).dropped_iff
  obtain ⟨hrouted, hchild⟩ := placement_eq hc hpart hturn hvalue
  by_cases hboth : NamesSlot source child ∧ IsComponent source host node
  · obtain ⟨_, hname, -, hput⟩ := hrouted hboth
    obtain ⟨name, rfl⟩ := exists_str_of_namesSlot hc hpart hname hboth.1
    obtain rfl := Except.ok.inj (hplacement'.symm.trans hput)
    rw [Option.toList_some, slotsOf_append_slot, childrenOf_append_slot]
    exact .slot hbefore hturn hands (hdropped.mpr hboth) hname hvalue
  · obtain rfl := Except.ok.inj (hplacement'.symm.trans (hchild hboth))
    rw [slotsOf_positional, childrenOf_positional]
    exact .element hbefore hturn hands (mt hdropped.mp hboth) hvalue

/-- **What the children were placed as is what they come to.** -/
theorem collected_of_placeChildren {owner : Option (Owner ν)} {levels : Nat}
    (hc : source.Coherent part) (hn : part node) (ho : Opens source host node owner)
    {before after : List ν} {placements : List (Option Placement)}
    (hchildren : source.children node = before ++ after)
    (h : ((placeChildren source host beyond levels owner before).run earlier).outcome =
      .ok placements) :
    Collected source host beyond ⟨node, levels + 1, earlier⟩ before
      (slotsOf (placements.filterMap id)) (childrenOf (placements.filterMap id)) := by
  -- from the last child on, since a turn comes after those of the children before it
  induction before using List.reverseRecOn generalizing placements after with
  | nil =>
    cases h
    exact .nil
  | append_singleton before child ih =>
    rw [placeChildren, Course.forEach_append_singleton] at h
    obtain ⟨placed, hplaced, h⟩ := Course.outcome_bind_ok h
    obtain ⟨placement, hplacement, h⟩ := Course.outcome_bind_ok h
    cases h
    rw [List.append_assoc] at hchildren
    have hbefore := ih hchildren hplaced
    rw [List.filterMap_append, filterMap_id_singleton]
    by_cases ht : source.kind child = .text
    · rw [placeChild_text ht] at hplacement
      cases hplacement
      rw [slotsOf_positional, childrenOf_positional]
      exact .text hbefore ht
    · by_cases he : source.kind child = .element
      · exact .append_element hc hn ho hchildren he hplaced hplacement hbefore
      · rw [placeChild_other ht he] at hplacement
        cases hplacement
        simpa using Collected.other hbefore ht he

/-- An element hands on what it brings, and the slots and children that its own children come to. -/
theorem uses_of_gathered {levels : Nat} {gathered : Gathered} (he : source.kind node = .element)
    (hg : ((gather source host beyond levels node).run earlier).outcome = .ok gathered) :
    Uses source host beyond ⟨node, levels + 1, earlier⟩ gathered.attributes
      (slotsOf gathered.placed) (childrenOf gathered.placed) := by
  let writes := earlier ++ ((gather source host beyond levels node).run earlier).writes
  let context : PropsContext ν := ⟨tagOf source node, gathered.component, node⟩
  let call := PropsCall.afterAll writes ⟨gathered.attributes, slotsOf gathered.placed, context⟩
  have hsteps : (Visit.run source host beyond ⟨node, levels + 1, earlier⟩).steps =
      (.enter node :: ((gather source host beyond levels node).run earlier).steps) ++
        ((assemble source host node gathered).run writes).steps := by
    have henter : ((Course.step (.enter node) (.ok ()) : Course ν Unit).run earlier).outcome =
        .ok () := rfl
    rw [Visit.run, visit_element he, Course.run_bind_ok henter, Course.run_step, List.append_nil,
      Course.run_bind_ok hg]
    rfl
  let type := gathered.component.orElse (.str (tagOf source node))
  have hbuild : ∀ (props : Value) (later : List Write),
      ((build host node type props (childrenOf gathered.placed)).run later).steps =
        [.build node (type.afterAll later) (props.afterAll later)
          ((childrenOf gathered.placed).map (·.afterAll later))] := fun _ _ => rfl
  cases hs : host.props with
  | none =>
    rw [assemble, elementProps_of_none hs, pure_bind, hbuild] at hsteps
    exact .merged (.inl hs) hsteps
  | some strategy =>
    have hprops : (elementProps host ⟨gathered.attributes, slotsOf gathered.placed, context⟩).run
        writes = ⟨strategy.make call.attributes call.slots call.context, [.props call],
          strategy.writes call.attributes call.slots call.context⟩ := by
      rw [elementProps, hs]
      rfl
    cases hmade : strategy.make call.attributes call.slots call.context with
    | error fault =>
      rw [hmade] at hprops
      rw [assemble, Course.run_bind_error (congrArg Run.outcome hprops), hprops] at hsteps
      exact .refused hs rfl hmade hsteps
    | ok props =>
      rw [hmade] at hprops
      rw [assemble, Course.run_bind_ok (congrArg Run.outcome hprops), hprops, hbuild] at hsteps
      exact .made hs rfl hmade hsteps

theorem uses_of_placed {levels : Nat} {placements : List (Option Placement)}
    (hf : source.kind node = .fragment)
    (h : ((placeChildren source host beyond levels none (source.children node)).run earlier).outcome =
      .ok placements) :
    Uses source host beyond ⟨node, levels + 1, earlier⟩ [] (slotsOf (placements.filterMap id))
      (childrenOf (placements.filterMap id)) := by
  have henter : ((Course.step (.enter node) (.ok ()) : Course ν Unit).run earlier).outcome =
      .ok () := rfl
  have hsteps : (Visit.run source host beyond ⟨node, levels + 1, earlier⟩).steps =
      (.enter node :: ((placeChildren source host beyond levels none (source.children node)).run
        earlier).steps) ++ ((assembleFragment host node placements).run (earlier ++
          ((placeChildren source host beyond levels none (source.children node)).run
            earlier).writes)).steps := by
    rw [Visit.run, visit_fragment hf, Course.run_bind_ok henter, Course.run_step, List.append_nil,
      Course.run_bind_ok h]
    rfl
  rw [assembleFragment, run_build] at hsteps
  exact .merged (.inr hf) hsteps

/-- **What reaches the collaborators for a node is what its children come to.** -/
theorem Completed.exists_collected {p : Visit ν} (hc : source.Coherent part) (hn : part p.node)
    (h : Completed source host beyond p attributes) :
    ∃ slots children, Collected source host beyond p (source.children p.node) slots children ∧
      Uses source host beyond p attributes slots children := by
  cases h with
  | element hands =>
    obtain ⟨he, hg⟩ := hands
    have huses := uses_of_gathered he hg
    obtain ⟨component, hcomponent, hg⟩ := Course.outcome_bind_ok hg
    obtain ⟨all, hall, hg⟩ := Course.outcome_bind_ok hg
    obtain ⟨placements, hplacements, hg⟩ := Course.outcome_bind_ok hg
    obtain ⟨passed, -, hg⟩ := Course.outcome_bind_ok hg
    cases hg
    have hcollected := collected_of_placeChildren hc hn (.element he hcomponent hall)
      (List.append_nil _).symm (by simpa [lookup] using hplacements)
    exact ⟨_, _, hcollected, huses⟩
  | fragment hf hplacements =>
    have hcollected := collected_of_placeChildren hc hn (.fragment hf) (List.append_nil _).symm
      hplacements
    exact ⟨_, _, hcollected, uses_of_placed hf hplacements⟩

end Conversion

section Agreement

open Conversion

variable {source : Source ν} {part : ν → Prop} {root : ν}

/-- **Routing and dropping the slot attribute agree.** In a conversion that starts inside a coherent
part of a tree, take any visit of an element child `c`, below the visit of its parent `p`. It hands
on all its attributes, without the slot attribute exactly if it names a slot and `p` is a component.
Exactly then its result goes into the slots of `p` under the slot it names, and else it becomes a
positional child unless it is null or empty text. So each node comes to the slots and children that
`Collected` tells, and these and the attributes are what its props strategy and builder are called with.
The start node, which nothing routes, loses its slot attribute exactly if it names a slot and its parent
is a component. -/
theorem slot_routed_iff_dropped (hc : source.Coherent part) (hroot : part root) (host : Host ν)
    (limit : Option Int) :
    (∀ n, .enter n ∈ (convert source host limit root).steps ↔
      ∃ v, Reached source host (faultBeyond limit) (.first source limit root) v ∧ v.node = n) ∧
    (∀ p owner c, Reached source host (faultBeyond limit) (.first source limit root) p →
      Turn source host (faultBeyond limit) p owner c →
        (∀ attributes, HandsOn source host (faultBeyond limit) c attributes →
          HandsOnUnless source c.node attributes (IsComponent source host p.node)) ∧
        ∀ value, (c.run source host (faultBeyond limit)).outcome = .ok value →
          ∃ attributes, HandsOn source host (faultBeyond limit) c attributes ∧
            (Routed source host (faultBeyond limit) owner c value ↔
              Dropped source c.node attributes) ∧
            (¬ Dropped source c.node attributes →
              c.placement source host (faultBeyond limit) owner = .ok (positional value))) ∧
    (∀ p attributes, Reached source host (faultBeyond limit) (.first source limit root) p →
      Completed source host (faultBeyond limit) p attributes →
        ∃ slots children,
          Collected source host (faultBeyond limit) p (source.children p.node) slots children ∧
          Uses source host (faultBeyond limit) p attributes slots children) ∧
    ∀ attributes, HandsOn source host (faultBeyond limit) (.first source limit root) attributes →
      HandsOnUnless source root attributes
        (∃ q, source.parent root = some q ∧ IsComponent source host q) := by
  refine ⟨fun n => ?_, fun p owner c hp ht => ?_,
    fun p attributes hp h => h.exists_collected hc (hp.mem_part hc hroot),
    fun attributes h => h.unless hc hroot⟩
  · rw [convert_eq_visit]
    show .enter n ∈ (Visit.run source host _ (Visit.first source limit root)).steps ↔ _
    exact enter_mem_steps_iff
  · -- The tree is coherent at `c`, so the parent that `c` asks is the node that lists it.
    have hpart := hp.mem_part hc hroot
    have hcpart := hc.children hpart ht.mem_children
    have hparent := hc.parent hpart ht.mem_children
    have hunless : ∀ attributes, HandsOn source host (faultBeyond limit) c attributes →
        HandsOnUnless source c.node attributes (IsComponent source host p.node) :=
      fun attributes h => h.unless_of_parent hc hcpart hparent
    refine ⟨hunless, fun value hvalue => ?_⟩
    obtain ⟨attributes, hands⟩ := exists_handsOn ht hvalue
    obtain ⟨hslot, hchild⟩ := placement_eq hc hcpart ht hvalue
    have hdropped := (hunless attributes hands).dropped_iff
    refine ⟨attributes, hands, ⟨?_, fun h => hslot (hdropped.mp h)⟩, fun h =>
      hchild (mt hdropped.mpr h)⟩
    rintro ⟨slot, -, -, hplaced⟩
    by_contra hno
    -- then `c` would be a positional child, and not in a slot
    rw [hchild (mt hdropped.mpr hno), positional] at hplaced
    split at hplaced <;> cases hplaced

/-- A card with a title for one of its slots. -/
def titledCard : Markup :=
  .element "x-card" [] [.element "b" [("slot", .str "title")] [.text "Hello"]]

def cardHost : Host View :=
  (Converter.plain [("x-card", .component ⟨0, "Card", none, false⟩)] none).host

theorem titledCard_textual : titledCard.Textual := by
  refine ⟨by simp, ⟨fun a ha => ?_, trivial, trivial⟩, trivial⟩
  rw [List.mem_singleton.mp ha]
  exact ⟨some "title", rfl⟩

theorem slot_routed_titledCard :
    titledCard.Textual ∧ ∃ owner c value attributes slots children,
      Turn View.source cardHost .endless (.first View.source none (.wrap (.top titledCard))) owner c ∧
      (c.run View.source cardHost .endless).outcome = .ok value ∧
      Routed View.source cardHost .endless owner c value ∧
      HandsOn View.source cardHost .endless c attributes ∧
      Dropped View.source c.node attributes ∧
      Collected View.source cardHost .endless (.first View.source none (.wrap (.top titledCard)))
        [c.node] slots children ∧
      Uses View.source cardHost .endless (.first View.source none (.wrap (.top titledCard))) []
        slots children := by
  refine ⟨titledCard_textual, ?_⟩
  have hreadable : (View.wrap (.top titledCard)).Readable :=
    View.readable_of_textual titledCard_textual
  obtain ⟨-, hvisits, hcompleted, -⟩ :=
    slot_routed_iff_dropped View.coherent hreadable cardHost none
  have hturn : Turn View.source cardHost .endless
      (.first View.source none (.wrap (.top titledCard))) (some ⟨_, _⟩) ⟨_, _, _⟩ :=
    .intro (.element rfl rfl rfl) (show _ = [] ++ _ :: [] from rfl) rfl rfl rfl
  obtain ⟨-, hvalues⟩ := hvisits _ _ _ .start hturn
  have hresult := hvalues (.element (.str "b") [] [.str "Hello"])
  obtain ⟨attributes, hands, hiff, -⟩ := hresult rfl
  have hrouted := hiff.mp ⟨_, rfl, rfl, rfl⟩
  have htop : HandsOn View.source cardHost .endless
      (.first View.source none (.wrap (.top titledCard))) [] :=
    @HandsOn.intro _ _ _ _ _ _ _ ⟨_, [], _⟩ rfl rfl
  obtain ⟨slots, children, hcollected, huses⟩ := hcompleted _ _ .start (.element htop)
  exact ⟨_, _, _, attributes, slots, children, hturn, rfl, hiff.mpr hrouted, hands, hrouted,
    hcollected, huses⟩

end Agreement

end ComponentTree
