import ComponentTree.Conversion
import ComponentTree.Proofs.Assoc
import ComponentTree.Proofs.Course

/-!
# One visit of a conversion

`Conversion.visit` does for an element two things: it *gathers* what the element brings (its
component, the attributes that are passed on, where its children went), and it *assembles* the
descriptor from that. A fragment only gathers its children. The equations here cut a visit at these
places, so later proofs need not open `visit` again.
-/

namespace ComponentTree

/-- Every attribute is a text, or absent. -/
def Texts (attributes : List (String × Value)) : Prop :=
  ∀ pair ∈ attributes, ∃ text, pair.2 = .ofString? text

theorem Texts.getD_eq_ofString? {attributes : List (String × Value)} (h : Texts attributes)
    (name : String) : ∃ text, (Assoc.get? name attributes).getD .null = .ofString? text := by
  cases hget : Assoc.get? name attributes with
  | none => exact ⟨none, rfl⟩
  | some value => exact h _ (Assoc.mem_of_get? hget)

namespace Conversion

variable {ν : Type} {source : Source ν} {host : Host ν} {beyond : Fault} {levels : Nat} {node : ν}

/-- What an element brings to its descriptor. -/
structure Gathered where
  /-- What is registered for its tag. -/
  component : Value
  /-- The attributes that are handed on to the props. -/
  attributes : List (String × Value)
  /-- Where the results of the children went, in document order. -/
  placed : List Placement

/-- The conversion of the children of a node, with so many levels left for them. -/
def placeChildren (source : Source ν) (host : Host ν) (beyond : Fault) (levels : Nat)
    (owner : Option (Owner ν)) (children : List ν) : Course ν (List (Option Placement)) :=
  Course.forEach (placeChild source (visit source host beyond levels) owner) children

def gather (source : Source ν) (host : Host ν) (beyond : Fault) (levels : Nat) (element : ν) :
    Course ν Gathered := do
  let component ← lookup host element (tagOf source element)
  let attributes ← .ofExcept (attributesOf source element)
  let placements ←
    placeChildren source host beyond levels (some ⟨element, component⟩) (source.children element)
  let attributes ← passedAttributes source host element attributes
  return ⟨component, attributes, placements.filterMap id⟩

/-- Makes the descriptor of an element from what it brings. -/
def assemble (source : Source ν) (host : Host ν) (element : ν) (gathered : Gathered) :
    Course ν Value := do
  let tag := tagOf source element
  let props ← elementProps host
    ⟨gathered.attributes, slotsOf gathered.placed, ⟨tag, gathered.component, element⟩⟩
  build host element (gathered.component.orElse (.str tag)) props (childrenOf gathered.placed)

/-- Makes the descriptor of a fragment from where the results of its children went. -/
def assembleFragment (host : Host ν) (node : ν) (placements : List (Option Placement)) :
    Course ν Value :=
  let placed := placements.filterMap id
  build host node (host.fragment.orElse .null) (mergedProps [] (slotsOf placed)) (childrenOf placed)

/-! ## The equations of a visit -/

theorem visit_zero :
    visit source host beyond 0 node = Course.step (.enter node) (.error beyond) := rfl

theorem visit_element (h : source.kind node = .element) :
    visit source host beyond (levels + 1) node =
      Course.step (.enter node) (.ok ()) >>= fun _ =>
        gather source host beyond levels node >>= assemble source host node := by
  rw [visit]
  simp only [h, gather, assemble, placeChildren, bind_assoc, pure_bind]

theorem visit_fragment (h : source.kind node = .fragment) :
    visit source host beyond (levels + 1) node =
      Course.step (.enter node) (.ok ()) >>= fun _ =>
        placeChildren source host beyond levels none (source.children node) >>=
          assembleFragment host node := by
  rw [visit]
  simp only [h]
  rfl

theorem visit_other (he : source.kind node ≠ .element) (hf : source.kind node ≠ .fragment) :
    visit source host beyond (levels + 1) node =
      Course.step (.enter node) (.ok ()) >>= fun _ => pure .null := by
  rw [visit]
  cases h : source.kind node with
  | element => exact absurd h he
  | fragment => exact absurd h hf
  | text => rfl
  | comment => rfl
  | other => rfl

/-! ## The equations of placing a child -/

theorem placeChild_text {convert : ν → Course ν Value} {owner : Option (Owner ν)}
    (h : source.kind node = .text) :
    placeChild source convert owner node = pure (positional (.ofString? (source.text node))) := by
  rw [placeChild, h]
  rfl

/-- Where the result of an element child goes, once it is known. -/
def settle (owner : Option (Owner ν)) (child : ν) (slot value : Value) :
    Course ν (Option Placement) :=
  match owner with
  | some owner =>
    if owner.component.truthy && slot.truthy then
      .step (.route owner.element child slot) (routed slot value)
    else pure (positional value)
  | none => pure (positional value)

theorem placeChild_element {convert : ν → Course ν Value} {owner : Option (Owner ν)}
    (h : source.kind node = .element) :
    placeChild source convert owner node =
      Course.ofExcept (source.attributeValue node slotAttribute) >>= fun slot =>
        convert node >>= fun value =>
          Course.current slot >>= fun slot => settle owner node slot value := by
  rw [placeChild, h]
  cases owner <;> rfl

theorem placeChild_other {convert : ν → Course ν Value} {owner : Option (Owner ν)}
    (ht : source.kind node ≠ .text) (he : source.kind node ≠ .element) :
    placeChild source convert owner node = pure none := by
  rw [placeChild]
  cases h : source.kind node with
  | text => exact absurd h ht
  | element => exact absurd h he
  | fragment => rfl
  | comment => rfl
  | other => rfl

theorem positional_ne_slot {name value v : Value} :
    positional v ≠ some (.slot name value) := by
  unfold positional
  split <;> simp

/-! ## The attributes of an element -/

/-- The attributes are those that the source lists, each with the value that it tells. -/
theorem exists_pairs_of_attributesOf {attributes : List (String × Value)}
    (h : attributesOf source node = .ok attributes) :
    ∃ pairs : List (String × Value), attributes = Assoc.ofPairs pairs ∧
      pairs.map Prod.fst = source.attributeNames node ∧
      ∀ p ∈ pairs, source.attributeValue node p.1 = .ok p.2 := by
  -- `mapM` stops at the first value that is refused; here none is
  have hm : ∀ (names : List String) (pairs : List (String × Value)),
      (names.mapM fun name => do return (name, ← source.attributeValue node name)) =
        (.ok pairs : Except Fault _) →
      pairs.map Prod.fst = names ∧ ∀ p ∈ pairs, source.attributeValue node p.1 = .ok p.2 := by
    intro names
    induction names with
    | nil =>
      intro pairs hp
      cases hp
      exact ⟨rfl, by simp⟩
    | cons name names ih =>
      intro pairs hp
      rw [List.mapM_cons] at hp
      cases hv : source.attributeValue node name with
      | error fault => rw [hv] at hp; cases hp
      | ok value =>
        cases hr : (names.mapM fun name => do return (name, ← source.attributeValue node name) :
            Except Fault (List (String × Value))) with
        | error fault => rw [hv, hr] at hp; cases hp
        | ok rest =>
          rw [hv, hr] at hp
          cases hp
          obtain ⟨hnames, hvalues⟩ := ih rest hr
          refine ⟨by rw [List.map_cons, hnames], fun p hp => ?_⟩
          rcases List.mem_cons.mp hp with rfl | hp
          · exact hv
          · exact hvalues p hp
  rw [attributesOf] at h
  cases hp : (source.attributeNames node).mapM (fun name => do
      return (name, ← source.attributeValue node name) : String → Except Fault (String × Value)) with
  | error fault => rw [hp] at h; cases h
  | ok pairs =>
    rw [hp] at h
    cases h
    exact ⟨pairs, rfl, hm _ pairs hp⟩

theorem attributesOf_of_pairs {pairs : List (String × Value)}
    (hnames : source.attributeNames node = pairs.map Prod.fst)
    (hvalues : ∀ p ∈ pairs, source.attributeValue node p.1 = .ok p.2) :
    attributesOf source node = .ok (Assoc.ofPairs pairs) := by
  have hm : ∀ pairs : List (String × Value),
      (∀ p ∈ pairs, source.attributeValue node p.1 = .ok p.2) →
      ((pairs.map Prod.fst).mapM fun name => do return (name, ← source.attributeValue node name)) =
        (.ok pairs : Except Fault _) := by
    intro pairs
    induction pairs with
    | nil => intro _; rfl
    | cons p pairs ih =>
      intro hp
      rw [List.map_cons, List.mapM_cons, hp p List.mem_cons_self,
        ih fun q hq => hp q (List.mem_cons_of_mem _ hq)]
      rfl
  rw [attributesOf, hnames, hm pairs hvalues]
  rfl

theorem get?_attributesOf {attributes : List (String × Value)} {name : String}
    (h : attributesOf source node = .ok attributes) (hn : name ∈ source.attributeNames node) :
    ∃ value, source.attributeValue node name = .ok value ∧
      Assoc.get? name attributes = some value := by
  obtain ⟨pairs, rfl, hnames, hvalues⟩ := exists_pairs_of_attributesOf h
  rw [← hnames] at hn
  obtain ⟨p, hp, rfl⟩ := List.mem_map.mp hn
  refine ⟨p.2, hvalues p hp, Assoc.get?_setAll (fun v hv => ?_) (.inl hn)⟩
  -- a name that is listed twice is told the same value both times
  have heq := (hvalues _ hv).symm.trans (hvalues p hp)
  exact Except.ok.inj heq

theorem get?_attributesOf_of_not_mem {attributes : List (String × Value)} {name : String}
    (h : attributesOf source node = .ok attributes) (hn : name ∉ source.attributeNames node) :
    Assoc.get? name attributes = none := by
  obtain ⟨pairs, rfl, hnames, -⟩ := exists_pairs_of_attributesOf h
  rw [← hnames] at hn
  exact Assoc.get?_setAll_of_not_mem hn

theorem nodup_keys_attributesOf {attributes : List (String × Value)}
    (h : attributesOf source node = .ok attributes) : (attributes.map Prod.fst).Nodup := by
  obtain ⟨pairs, rfl, -, -⟩ := exists_pairs_of_attributesOf h
  exact Assoc.nodup_keys_ofPairs pairs

/-- The attributes that are passed on are some of the attributes, or all. -/
theorem passedAttributes_sublist {attributes passed : List (String × Value)} {earlier : List Write}
    (h : ((passedAttributes source host node attributes).run earlier).outcome = .ok passed) :
    passed.Sublist attributes := by
  unfold passedAttributes at h
  obtain ⟨slot, -, h⟩ := Course.outcome_bind_ok h
  split at h
  · obtain ⟨routed, -, h⟩ := Course.outcome_bind_ok h
    cases h
    split
    · exact Assoc.erase_sublist ..
    · exact List.Sublist.refl _
  · cases h
    exact List.Sublist.refl _

/-! ## The tag of the parent -/

/-- The tag of the parent of a node, if that is an element. -/
def parentTag? (source : Source ν) (node : ν) : Option String :=
  (source.parent node).bind fun parent =>
    if source.kind parent = .element then some (tagOf source parent) else none

theorem parentTag?_of_parent {parent : ν} (h : source.parent node = some parent) :
    parentTag? source node =
      if source.kind parent = .element then some (tagOf source parent) else none := by
  rw [parentTag?, h, Option.bind_some]

/-- Of the parent, only its tag matters for whether it is a component. -/
theorem parentIsComponent_eq :
    parentIsComponent source host node =
      match parentTag? source node with
      | some tag => lookup host node tag >>= fun component => pure component.truthy
      | none => pure false := by
  rw [parentIsComponent, parentTag?]
  cases source.parent node with
  | none => rfl
  | some parent =>
    simp only [Option.bind_some]
    cases source.kind parent <;> rfl

/-! ## Building a descriptor -/

theorem elementProps_of_none (h : host.props = none) (call : PropsCall ν) :
    elementProps host call = pure (mergedProps call.attributes call.slots) := by
  rw [elementProps, h]
  rfl

@[simp] theorem run_build (type props : Value) (children : List Value) (earlier : List Write) :
    (build host node type props children).run earlier =
      ⟨host.build (type.afterAll earlier) (props.afterAll earlier)
        (children.map (·.afterAll earlier)),
        [.build node (type.afterAll earlier) (props.afterAll earlier)
          (children.map (·.afterAll earlier))], []⟩ := rfl

/-- With nothing written before, the builder is given what there is. -/
theorem run_build_nil (type props : Value) (children : List Value) :
    (build host node type props children).run [] =
      ⟨host.build type props children, [.build node type props children], []⟩ := by
  simp

theorem build_gives {type props value : Value} {children : List Value}
    (h : host.build type props children = .ok value) :
    (build host node type props children).Gives value := by
  rw [Course.Gives, run_build_nil]
  exact ⟨h, rfl⟩

theorem build_stops {type props : Value} {children : List Value} {fault : Fault}
    (h : host.build type props children = .error fault) :
    (build host node type props children).Stops fault := by
  rw [Course.Stops, run_build_nil]
  exact h

end Conversion

/-! ## The first visit -/

def Conversion.levelsWithin {ν : Type} (source : Source ν) (limit : Option Int) (node : ν) : Nat :=
  match limit with
  | some limit => (limit + 1).toNat
  | none => source.levels node

/-- The fault with which a conversion ends when no level is left. -/
def Conversion.faultBeyond : Option Int → Fault
  | some limit => .tooDeep limit
  | none => .endless

/-- A conversion is the visit of its start node, before which nothing was written. -/
theorem convert_eq_visit {ν : Type} (source : Source ν) (host : Host ν) (limit : Option Int)
    (node : ν) :
    convert source host limit node =
      (Conversion.visit source host (Conversion.faultBeyond limit)
        (Conversion.levelsWithin source limit node) node).run [] := by
  cases limit <;> rfl

end ComponentTree
