import ComponentTree.Proofs.Conversion.Kept
import ComponentTree.Proofs.Source.Interchange

/-!
# The calls of a conversion

With collaborators that never fail, a conversion calls them for one node after the other, each after
the nodes below it: the order of `Source.postorder`. `Visit.calls` is what is called for one of them,
told by what its children gave at their turns (`Visit.turns`).

The props strategy may write to shared maps, so a turn is told by the writes before it as well as by
its node. `Course.Makes` says all of a course that this takes: what it gives, what it calls and what it
writes. It passes through sequencing, and so through each part of a visit.
-/

namespace ComponentTree

open Value (named)

variable {ν α β : Type}

/-! ## The order of the calls -/

namespace Source

variable {source : Source ν} {levels : Nat} {node n : ν}

/-- A node and the elements below it within so many levels, each after those below it and siblings in
document order. -/
def postorder (source : Source ν) : Nat → ν → List ν
  | 0, _ => []
  | levels + 1, node =>
    ((source.children node).flatMap fun child =>
      if source.kind child = .element then source.postorder levels child else []) ++ [node]

/-- **The listing is complete**: it has what can be reached from the node through elements. -/
theorem mem_postorder_iff (h : source.EndsWithin levels node) :
    n ∈ source.postorder levels node ↔ Relation.ReflTransGen source.Below node n := by
  induction levels generalizing node with
  | zero => exact h.elim
  | succ levels ih =>
    rw [postorder, List.mem_append, List.mem_flatMap, List.mem_singleton,
      Relation.ReflTransGen.cases_head_iff]
    constructor
    · rintro (⟨child, hchild, hn⟩ | rfl)
      · by_cases he : source.kind child = .element
        · rw [if_pos he] at hn
          exact .inr ⟨child, ⟨hchild, he⟩, (ih (h child ⟨hchild, he⟩)).mp hn⟩
        · rw [if_neg he] at hn
          cases hn
      · exact .inl rfl
    · rintro (rfl | ⟨child, ⟨hchild, he⟩, hn⟩)
      · exact .inr rfl
      · refine .inl ⟨child, hchild, ?_⟩
        rw [if_pos he]
        exact (ih (h child ⟨hchild, he⟩)).mpr hn

end Source

/-! ## Steps that are calls -/

/-- Whether a step calls the props strategy or the builder. -/
def Step.isCall : Step ν → Bool
  | .props _ => true
  | .build .. => true
  | _ => false

def Run.calls (run : Run ν α) : List (Step ν) := run.steps.filter Step.isCall

/-- The node that a step calls the builder for. -/
def Step.builtFor? : Step ν → Option ν
  | .build node .. => some node
  | _ => none

/-- The nodes that the builder is called for, in order. -/
def Run.built (run : Run ν α) : List ν := run.steps.filterMap Step.builtFor?

theorem Run.built_eq (run : Run ν α) : run.built = run.calls.filterMap Step.builtFor? := by
  rw [built, calls, List.filterMap_filter]
  apply List.filterMap_congr
  intro s _
  cases s <;> rfl

/-- Each call of the props strategy comes directly before the builder is called for its element. -/
inductive Step.Paired : List (Step ν) → Prop
  | nil : Paired []
  | other {s : Step ν} {rest : List (Step ν)} :
      (∀ call, s ≠ .props call) → Paired rest → Paired (s :: rest)
  | pair {call : PropsCall ν} {type props : Value} {children : List Value} {rest : List (Step ν)} :
      Paired rest → Paired (.props call :: .build call.context.element type props children :: rest)

theorem Step.Paired.append {steps steps' : List (Step ν)} (h : Step.Paired steps)
    (h' : Step.Paired steps') : Step.Paired (steps ++ steps') := by
  induction h with
  | nil => exact h'
  | other hs _ ih => exact .other hs ih
  | pair _ ih => exact .pair ih

namespace Course

/-- What a course comes to after earlier writes: it gives a value, makes calls and writes. -/
structure Makes (c : Course ν α) (earlier : List Write) (a : α) (calls : List (Step ν))
    (writes : List Write) : Prop where
  outcome : (c.run earlier).outcome = .ok a
  calls_eq : (c.run earlier).calls = calls
  writes_eq : (c.run earlier).writes = writes
  paired : Step.Paired (c.run earlier).steps

variable {earlier writes writes' : List Write} {calls calls' : List (Step ν)} {a : α} {b : β}

theorem Makes.bind {c : Course ν α} {f : α → Course ν β} (hc : c.Makes earlier a calls writes)
    (hf : (f a).Makes (earlier ++ writes) b calls' writes') :
    (c >>= f).Makes earlier b (calls ++ calls') (writes ++ writes') := by
  have hrun := run_bind_ok (f := f) hc.outcome
  rw [hc.writes_eq] at hrun
  constructor
  case outcome => rw [hrun, hf.outcome]
  case calls_eq => rw [hrun, ← hc.calls_eq, ← hf.calls_eq]; exact List.filter_append ..
  case writes_eq => rw [hrun, hf.writes_eq]
  case paired => rw [hrun]; exact hc.paired.append hf.paired

theorem makes_pure (a : α) (earlier : List Write) :
    (pure a : Course ν α).Makes earlier a [] [] := ⟨rfl, rfl, rfl, .nil⟩

/-- A step that is no call. -/
theorem makes_step {s : Step ν} (hs : s.isCall = false) (a : α) (earlier : List Write) :
    (step s (.ok a) : Course ν α).Makes earlier a [] [] := by
  refine ⟨rfl, ?_, rfl, .other ?_ .nil⟩
  · simp [Run.calls, hs]
  · rintro call rfl
    cases hs

/-- What comes after goes without calls and writes. -/
theorem Makes.bind_left {c : Course ν α} {f : α → Course ν β} (hc : c.Makes earlier a calls writes)
    (hf : (f a).Makes (earlier ++ writes) b [] []) : (c >>= f).Makes earlier b calls writes := by
  have hbind := hc.bind hf
  rwa [List.append_nil, List.append_nil] at hbind

/-- What comes before goes without calls and writes. -/
theorem Makes.bind_right {c : Course ν α} {f : α → Course ν β} (hc : c.Makes earlier a [] [])
    (hf : (f a).Makes earlier b calls writes) : (c >>= f).Makes earlier b calls writes := by
  have hbind : (c >>= f).Makes earlier b ([] ++ calls) ([] ++ writes) :=
    hc.bind (by rwa [List.append_nil])
  exact hbind

end Course

/-- What a host finds for a tag, null where it fails. -/
def Host.answer (host : Host ν) (tag : String) : Value :=
  match host.component tag with
  | .ok component => component
  | .error _ => .null

theorem Host.NeverFails.component_eq {host : Host ν} (hh : host.NeverFails) (tag : String) :
    host.component tag = .ok (host.answer tag) := by
  obtain ⟨component, h⟩ := hh.component tag
  rw [Host.answer, h]

/-- What a strategy makes for a call, null where it fails. -/
def PropsStrategy.answer (strategy : PropsStrategy ν) (call : PropsCall ν) : Value :=
  match strategy.make call.attributes call.slots call.context with
  | .ok props => props
  | .error _ => .null

/-- What a strategy writes in a call. -/
def PropsStrategy.adds (strategy : PropsStrategy ν) (call : PropsCall ν) : List Write :=
  strategy.writes call.attributes call.slots call.context

namespace Conversion

variable {source : Source ν} {host : Host ν} {beyond : Fault} {levels : Nat} {node : ν}
variable {part : ν → Prop} {earlier : List Write}

/-! ## The turns of children -/

namespace Visit

/-- What a child gives at its turn. -/
def gives (source : Source ν) (host : Host ν) (beyond : Fault) (turn : Visit ν) : Value :=
  match source.kind turn.node with
  | .text => .ofString? (source.text turn.node)
  | .element =>
    match (turn.run source host beyond).outcome with
    | .ok value => value
    | .error _ => .null
  | _ => .null

/-- What is written at the turn of a child. -/
def adds (source : Source ν) (host : Host ν) (beyond : Fault) (turn : Visit ν) : List Write :=
  if source.kind turn.node = .element then (turn.run source host beyond).writes else []

end Visit

/-- The turns of children, one after the other. -/
def turnsOf (source : Source ν) (host : Host ν) (beyond : Fault) (levels : Nat) :
    List Write → List ν → List (Visit ν)
  | _, [] => []
  | earlier, child :: rest =>
    let turn : Visit ν := ⟨child, levels, earlier⟩
    turn :: turnsOf source host beyond levels (earlier ++ turn.adds source host beyond) rest

/-- A visit and those of the elements below, in the order in which they end. -/
def visitsFrom (source : Source ν) (host : Host ν) (beyond : Fault) :
    Nat → ν → List Write → List (Visit ν)
  | 0, _, _ => []
  | levels + 1, node, earlier =>
    ((turnsOf source host beyond levels earlier (source.children node)).flatMap fun turn =>
      if source.kind turn.node = .element then
        visitsFrom source host beyond levels turn.node turn.earlier
      else []) ++ [⟨node, levels + 1, earlier⟩]

/-! ## The calls for one node -/

namespace Visit

variable (source : Source ν) (host : Host ν) (beyond : Fault) (v : Visit ν)

def turns : List (Visit ν) :=
  turnsOf source host beyond (v.levels - 1) v.earlier (source.children v.node)

/-- The slot of the node that a child goes to at its turn, if any. -/
def slotOf (turn : Visit ν) : Option String :=
  routedTo source (owns source host.answer v.node) turn.node

/-- The results that go into slots, in document order. -/
def routedResults : List (String × Value) :=
  (v.turns source host beyond).filterMap fun turn =>
    (v.slotOf source host turn).map (·, turn.gives source host beyond)

/-- The slots, in the order in which they first come up, each with the last result for it. -/
def slots : List (String × Value) :=
  ((v.routedResults source host beyond).map Prod.fst).eraseDups.filterMap fun name =>
    (Assoc.get? name (v.routedResults source host beyond).reverse).map (name, ·)

/-- The results that become children, in document order: all others, without null and empty texts. -/
def arguments : List Value :=
  (((v.turns source host beyond).filter fun turn => (v.slotOf source host turn).isNone).map
    fun turn => turn.gives source host beyond).filter Value.isChild

/-- The attributes that are handed on. -/
def attributes : List (String × Value) :=
  match attributesOf source v.node with
  | .ok attributes => passedOf host.answer (parentTag? source v.node) attributes
  | .error _ => []

/-- What was written up to the end of the last turn. -/
def late : List Write :=
  v.earlier ++ (v.turns source host beyond).flatMap (adds source host beyond)

/-- What the props strategy is called with. It finds the shared maps as all that was written up to then
has left them. -/
def propsCall : PropsCall ν :=
  PropsCall.afterAll (v.late source host beyond)
    ⟨v.attributes source host, named (v.slots source host beyond),
      ⟨tagOf source v.node, host.answer (tagOf source v.node), v.node⟩⟩

/-- The props of an element: what the strategy makes, or without one, the attributes with the slots set
over them. -/
def props : Value :=
  match host.props with
  | some strategy => strategy.answer (v.propsCall source host beyond)
  | none => mergedProps (v.attributes source host) (named (v.slots source host beyond))

/-- What was written up to the call of the builder. The props strategy comes before it. -/
def latest : List Write :=
  v.late source host beyond ++
    if source.kind v.node = .element then
      (host.props.map fun strategy => strategy.adds (v.propsCall source host beyond)).getD []
    else []

/-- The call of the builder for the node. It finds the shared maps as all that was written up to then
has left them. -/
def buildCall (type props : Value) : Step ν :=
  .build v.node (type.afterAll (v.latest source host beyond))
    (props.afterAll (v.latest source host beyond))
    ((v.arguments source host beyond).map (·.afterAll (v.latest source host beyond)))

/-- The type of an element: what is registered for its tag, or else the tag. -/
def type (source : Source ν) (host : Host ν) (v : Visit ν) : Value :=
  (host.answer (tagOf source v.node)).orElse (.str (tagOf source v.node))

/-- What is called for the node of a visit. -/
def calls : List (Step ν) :=
  match source.kind v.node with
  | .element =>
    (if host.props.isSome then [.props (v.propsCall source host beyond)] else []) ++
      [v.buildCall source host beyond (v.type source host) (v.props source host beyond)]
  | .fragment => [v.buildCall source host beyond (host.fragment.orElse .null) (.dict none [])]
  | _ => []

/-- The last call for the node is one of the builder, and it gives the value. -/
def Builds (value : Value) : Prop :=
  ∃ type props children,
    (v.calls source host beyond).getLast? = some (.build v.node type props children) ∧
      host.build type props children = .ok value

end Visit

/-! ## What the children of a node come to -/

section Children

variable (source : Source ν) (host : Host ν) (beyond : Fault)

/-- Where what a child gives at its turn goes. -/
def Visit.placed (owned : Bool) (turn : Visit ν) : Option Placement :=
  placedAs (routedTo source owned turn.node) (turn.gives source host beyond)

/-- The calls for the elements among children, and for those below them. -/
def callsAt (turn : Visit ν) : List (Step ν) :=
  if source.kind turn.node = .element then
    (visitsFrom source host beyond turn.levels turn.node turn.earlier).flatMap
      (Visit.calls source host beyond)
  else []

/-- What an element brings. -/
def Visit.gathered (v : Visit ν) : Gathered where
  component := host.answer (tagOf source v.node)
  attributes := v.attributes source host
  placed := ((v.turns source host beyond).map
    (Visit.placed source host beyond (owns source host.answer v.node))).filterMap id

end Children

theorem map_node_turnsOf (children : List ν) :
    (turnsOf source host beyond levels earlier children).map Visit.node = children := by
  induction children generalizing earlier with
  | nil => rfl
  | cons child rest ih => rw [turnsOf, List.map_cons, ih]

theorem mem_turnsOf {children : List ν} {turn : Visit ν}
    (h : turn ∈ turnsOf source host beyond levels earlier children) :
    turn.node ∈ children ∧ turn.levels = levels := by
  induction children generalizing earlier with
  | nil => cases h
  | cons child rest ih =>
    rcases List.mem_cons.mp h with rfl | h
    · exact ⟨List.mem_cons_self, rfl⟩
    · exact (ih h).imp_left (List.mem_cons_of_mem _)

theorem slotsOf_placed (owned : Bool) (turns : List (Visit ν)) :
    slotsOf ((turns.map (Visit.placed source host beyond owned)).filterMap id) =
      named (Assoc.ofPairs (turns.filterMap fun turn =>
        (routedTo source owned turn.node).map (·, turn.gives source host beyond))) := by
  rw [slotsOf, Assoc.ofPairs, Assoc.ofPairs, ← Value.setAll_named, named, named,
    List.filterMap_map, List.filterMap_filterMap, List.map_filterMap]
  congr 1
  apply List.filterMap_congr
  intro turn _
  show (turn.placed source host beyond owned).bind slotEntry? = _
  rw [Visit.placed]
  cases routedTo source owned turn.node with
  | none => exact slotEntry?_positional _
  | some name => rfl

theorem childrenOf_placed (owned : Bool) (turns : List (Visit ν)) :
    childrenOf ((turns.map (Visit.placed source host beyond owned)).filterMap id) =
      ((turns.filter fun turn => (routedTo source owned turn.node).isNone).map
        fun turn => turn.gives source host beyond).filter Value.isChild := by
  induction turns with
  | nil => rfl
  | cons turn turns ih =>
    rw [childrenOf] at ih ⊢
    cases h : routedTo source owned turn.node with
    | some name => simpa [Visit.placed, placedAs, h] using ih
    | none =>
      cases hc : (turn.gives source host beyond).isChild <;>
        simpa [Visit.placed, placedAs, positional, h, hc] using ih

/-- The slots of an element are those of its visit. -/
theorem slotsOf_turns (v : Visit ν) :
    slotsOf (((v.turns source host beyond).map
      (Visit.placed source host beyond (owns source host.answer v.node))).filterMap id) =
      named (v.slots source host beyond) := by
  rw [slotsOf_placed, Assoc.ofPairs_eq_lasts]
  rfl

/-! ## What the parts of a visit make -/

/-- What a child gives is placed, and nothing is called or written but for the elements in it. -/
theorem placeChild_makes (turn : Visit ν) (owner : Option (Owner ν))
    (hslot : ∃ text, source.attributeValue turn.node slotAttribute = .ok (.ofString? text))
    (hvisit : source.kind turn.node = .element →
      (visit source host beyond turn.levels turn.node).Makes turn.earlier
        (turn.gives source host beyond) (callsAt source host beyond turn)
        (turn.adds source host beyond)) :
    (placeChild source (visit source host beyond turn.levels) owner turn.node).Makes turn.earlier
      (turn.placed source host beyond (isOwned owner)) (callsAt source host beyond turn)
      (turn.adds source host beyond) := by
  by_cases he : source.kind turn.node = .element
  · obtain ⟨text, hslot⟩ := hslot
    rw [placeChild_element he, hslot, Course.ofExcept_ok, Course.pure_bind]
    refine (hvisit he).bind_left ?_
    rw [Course.current_ofString?, Course.pure_bind]
    rcases settle_of_text owner he hslot (turn.gives source host beyond) with h | ⟨_, _, h⟩
    · rw [h]
      exact Course.makes_pure _ _
    · rw [h]
      exact Course.makes_step rfl _ _
  · have hrouted : routedTo source (isOwned owner) turn.node = none := by
      simp [routedTo, slotName?, he]
    have hplaced : turn.placed source host beyond (isOwned owner) =
        positional (turn.gives source host beyond) := by rw [Visit.placed, hrouted, placedAs]
    rw [hplaced, callsAt, if_neg he, Visit.adds, if_neg he]
    by_cases ht : source.kind turn.node = .text
    · rw [placeChild_text ht, Visit.gives, ht]
      exact Course.makes_pure _ _
    · rw [placeChild_other ht he]
      have hgives : turn.gives source host beyond = .null := by
        rw [Visit.gives]
        cases hk : source.kind turn.node <;> simp_all
      rw [hgives]
      exact Course.makes_pure _ _

/-- Children are placed one after the other, each after what was written at the turns before. -/
theorem placeChildren_makes {children : List ν} (owner : Option (Owner ν))
    (hslot : ∀ child ∈ children,
      ∃ text, source.attributeValue child slotAttribute = .ok (.ofString? text))
    (hvisit : ∀ turn : Visit ν, turn.levels = levels → turn.node ∈ children →
      source.kind turn.node = .element →
      (visit source host beyond turn.levels turn.node).Makes turn.earlier
        (turn.gives source host beyond) (callsAt source host beyond turn)
        (turn.adds source host beyond)) :
    let turns := turnsOf source host beyond levels earlier children
    (placeChildren source host beyond levels owner children).Makes earlier
      (turns.map (Visit.placed source host beyond (isOwned owner)))
      (turns.flatMap (callsAt source host beyond)) (turns.flatMap (Visit.adds source host beyond)) := by
  induction children generalizing earlier with
  | nil => exact Course.makes_pure _ _
  | cons child rest ih =>
    intro turns
    let turn : Visit ν := ⟨child, levels, earlier⟩
    have hchild := placeChild_makes turn owner (hslot child List.mem_cons_self)
      (hvisit turn rfl List.mem_cons_self)
    have hrest := @ih (earlier ++ turn.adds source host beyond)
      (fun other hother => hslot other (List.mem_cons_of_mem _ hother))
      (fun other hlevels hother => hvisit other hlevels (List.mem_cons_of_mem _ hother))
    exact hchild.bind (hrest.bind_left (Course.makes_pure _ _))

theorem lookup_makes (hh : host.NeverFails) (node : ν) (tag : String) :
    (lookup host node tag).Makes earlier (host.answer tag) [] [] := by
  rw [lookup, hh.component_eq tag]
  exact Course.makes_step rfl _ _

/-- Attributes that are texts are passed on after a lookup at most. -/
theorem passedAttributes_makes {attributes : List (String × Value)} (hh : host.NeverFails)
    (hattributes : Texts attributes) :
    (passedAttributes source host node attributes).Makes earlier
      (passedOf host.answer (parentTag? source node) attributes) [] [] := by
  have hparent : (parentIsComponent source host node).Makes earlier
      ((parentTag? source node).any fun tag => (host.answer tag).truthy) [] [] := by
    rw [parentIsComponent_eq]
    cases parentTag? source node with
    | none => exact Course.makes_pure _ _
    | some tag => exact (lookup_makes hh node tag).bind_right (Course.makes_pure _ _)
  obtain ⟨text, htext⟩ := hattributes.getD_eq_ofString? slotAttribute
  rw [passedAttributes, passedOf, htext, Course.current_ofString?, Course.pure_bind]
  cases (Value.ofString? text).truthy with
  | false => exact Course.makes_pure _ _
  | true => exact hparent.bind_right (Course.makes_pure _ _)

theorem gather_makes {part : ν → Prop} {v : Visit ν} (hh : host.NeverFails)
    (hr : source.Readable part) (hp : part v.node) (he : source.kind v.node = .element)
    (hplaced : ∀ owner, (placeChildren source host beyond (v.levels - 1) owner
      (source.children v.node)).Makes v.earlier
        ((v.turns source host beyond).map (Visit.placed source host beyond (isOwned owner)))
        ((v.turns source host beyond).flatMap (callsAt source host beyond))
        ((v.turns source host beyond).flatMap (Visit.adds source host beyond))) :
    (gather source host beyond (v.levels - 1) v.node).Makes v.earlier
      (v.gathered source host beyond) ((v.turns source host beyond).flatMap (callsAt source host beyond))
      ((v.turns source host beyond).flatMap (Visit.adds source host beyond)) := by
  obtain ⟨attributes, hattributes⟩ := attributesOf_ok (hr.attributeText hp)
  have hpassed := @passedAttributes_makes ν source host v.node
    (v.late source host beyond) attributes hh (texts_attributesOf hr hp hattributes)
  have howner := hplaced (some ⟨v.node, host.answer (tagOf source v.node)⟩)
  have howns : owns source host.answer v.node = (host.answer (tagOf source v.node)).truthy := by
    simp [owns, he]
  rw [gather, hattributes, Visit.gathered, Visit.attributes, hattributes, howns]
  refine (lookup_makes hh _ _).bind_right (Course.Makes.bind_right (Course.makes_pure _ _) ?_)
  exact howner.bind_left (hpassed.bind_right (Course.makes_pure _ _))

theorem build_makes {type props value : Value} {children : List Value} {earlier : List Write}
    (h : host.build (type.afterAll earlier) (props.afterAll earlier)
      (children.map (·.afterAll earlier)) = .ok value) (node : ν) :
    (build host node type props children).Makes earlier value
      [.build node (type.afterAll earlier) (props.afterAll earlier)
        (children.map (·.afterAll earlier))] [] :=
  ⟨h, rfl, rfl, .other (by simp) .nil⟩

/-- A strategy is called directly before the builder, which comes after what the strategy writes. -/
theorem elementProps_build_makes {strategy : PropsStrategy ν} {call : PropsCall ν}
    {type props value : Value} {children : List Value} {writes : List Write}
    (hs : host.props = some strategy)
    (hprops : strategy.make (call.afterAll earlier).attributes (call.afterAll earlier).slots
      (call.afterAll earlier).context = .ok props)
    (hwrites : strategy.adds (call.afterAll earlier) = writes)
    (hvalue : host.build (type.afterAll (earlier ++ writes)) (props.afterAll (earlier ++ writes))
      (children.map (·.afterAll (earlier ++ writes))) = .ok value) :
    (elementProps host call >>= fun props =>
        build host call.context.element type props children).Makes earlier value
      [.props (call.afterAll earlier),
        .build call.context.element (type.afterAll (earlier ++ writes))
          (props.afterAll (earlier ++ writes))
          (children.map (·.afterAll (earlier ++ writes)))] writes := by
  have hrun : (elementProps host call).run earlier =
      ⟨.ok props, [.props (call.afterAll earlier)], writes⟩ := by
    rw [elementProps, hs, ← hprops, ← hwrites]
    rfl
  have hok : ((elementProps host call).run earlier).outcome = .ok props := by rw [hrun]
  refine ⟨?_, ?_, ?_, ?_⟩
  · rw [Course.run_bind_ok hok, hrun]
    exact hvalue
  · rw [Run.calls, Course.run_bind_ok hok, hrun]
    rfl
  · rw [Course.run_bind_ok hok, hrun]
    exact List.append_nil _
  · rw [Course.run_bind_ok hok, hrun]
    exact @Step.Paired.pair ν (call.afterAll earlier) _ _ _ [] .nil

theorem Visit.latest_of_strategy {v : Visit ν} {strategy : PropsStrategy ν}
    (he : source.kind v.node = .element) (hs : host.props = some strategy) :
    v.latest source host beyond =
      v.late source host beyond ++ strategy.adds (v.propsCall source host beyond) := by
  rw [Visit.latest, if_pos he, hs, Option.map_some, Option.getD_some]

theorem Visit.latest_of_none {v : Visit ν} (hs : host.props = none) :
    v.latest source host beyond = v.late source host beyond := by
  rw [Visit.latest, hs, Option.map_none, Option.getD_none, ite_self, List.append_nil]

theorem Visit.latest_of_fragment {v : Visit ν} (hf : source.kind v.node = .fragment) :
    v.latest source host beyond = v.late source host beyond := by
  rw [Visit.latest, hf, if_neg (by simp), List.append_nil]

theorem Visit.calls_of_strategy {v : Visit ν} {strategy : PropsStrategy ν}
    (he : source.kind v.node = .element) (hs : host.props = some strategy) :
    v.calls source host beyond = [.props (v.propsCall source host beyond),
      v.buildCall source host beyond (v.type source host)
        (strategy.answer (v.propsCall source host beyond))] := by
  rw [Visit.calls, Visit.props, he, hs]
  rfl

theorem Visit.calls_of_none {v : Visit ν} (he : source.kind v.node = .element)
    (hs : host.props = none) :
    v.calls source host beyond = [v.buildCall source host beyond (v.type source host)
      (mergedProps (v.attributes source host) (named (v.slots source host beyond)))] := by
  rw [Visit.calls, Visit.props, he, hs]
  rfl

/-- The props strategy is called for an element, if there is one, and then the builder. -/
theorem assemble_makes (hh : host.NeverFails) (v : Visit ν) (he : source.kind v.node = .element)
    (hregular : (v.gathered source host beyond).Regular host (tagOf source v.node)) :
    ∃ value writes, v.Builds source host beyond value ∧
      (assemble source host v.node (v.gathered source host beyond)).Makes
        (v.late source host beyond) value (v.calls source host beyond) writes := by
  have hchildren : childrenOf (v.gathered source host beyond).placed =
      v.arguments source host beyond := childrenOf_placed _ _
  have hslots : slotsOf (v.gathered source host beyond).placed =
      named (v.slots source host beyond) := slotsOf_turns v
  have hcall : PropsCall.Possible ⟨v.attributes source host, named (v.slots source host beyond),
      ⟨tagOf source v.node, host.answer (tagOf source v.node), v.node⟩⟩ host :=
    ⟨hregular.attributes, hslots ▸ hregular.slots, hregular.component⟩
  rw [assemble, hchildren, hslots]
  cases hs : host.props with
  | none =>
    unfold Visit.Builds
    rw [Visit.calls_of_none he hs, Visit.buildCall, Visit.latest_of_none hs]
    have hmakes : host.Makes (mergedProps (v.attributes source host)
        (named (v.slots source host beyond))) := .merged hcall.attributes hcall.slots
    obtain ⟨value, hvalue⟩ := hh.build ((v.type source host).afterAll (v.late source host beyond)) _
      ((v.arguments source host beyond).map (·.afterAll (v.late source host beyond)))
      (hmakes.afterAll (v.late source host beyond))
    refine ⟨value, [], ⟨_, _, _, rfl, hvalue⟩, ?_⟩
    rw [elementProps_of_none hs, pure_bind]
    exact build_makes hvalue v.node
  | some strategy =>
    unfold Visit.Builds
    rw [Visit.calls_of_strategy he hs, Visit.buildCall, Visit.latest_of_strategy he hs]
    have hpossible := hcall.afterAll (v.late source host beyond)
    obtain ⟨props, hprops⟩ := hh.props strategy hs _ hpossible
    have hanswer : strategy.answer (v.propsCall source host beyond) = props := by
      unfold PropsStrategy.answer Visit.propsCall
      rw [hprops]
    rw [hanswer]
    let writes := v.late source host beyond ++ strategy.adds (v.propsCall source host beyond)
    have hmakes : host.Makes (props.afterAll writes) :=
      (Host.Makes.strategy hs hpossible hprops).afterAll writes
    obtain ⟨value, hvalue⟩ := hh.build ((v.type source host).afterAll writes) _
      ((v.arguments source host beyond).map (·.afterAll writes)) hmakes
    exact ⟨value, _, ⟨_, _, _, rfl, hvalue⟩, elementProps_build_makes hs hprops rfl hvalue⟩

/-! ## The calls of a visit -/

theorem calls_visitsFrom (node : ν) (levels : Nat) (earlier : List Write) :
    (visitsFrom source host beyond (levels + 1) node earlier).flatMap (Visit.calls source host beyond) =
      (turnsOf source host beyond levels earlier (source.children node)).flatMap
          (callsAt source host beyond) ++
        Visit.calls source host beyond ⟨node, levels + 1, earlier⟩ := by
  rw [visitsFrom, List.flatMap_append, List.flatMap_assoc, List.flatMap_singleton]
  congr 1
  apply List.flatMap_congr
  intro turn hturn
  rw [callsAt, (mem_turnsOf hturn).2]
  split <;> rfl

/-- What an element child makes is what it gives and adds at its turn. -/
theorem Visit.makes_gives {turn : Visit ν} {value : Value} {calls : List (Step ν)}
    {writes : List Write} (he : source.kind turn.node = .element)
    (h : (visit source host beyond turn.levels turn.node).Makes turn.earlier value calls writes) :
    (visit source host beyond turn.levels turn.node).Makes turn.earlier
      (turn.gives source host beyond) calls (turn.adds source host beyond) := by
  have hgives : turn.gives source host beyond = value := by
    rw [Visit.gives, he, Visit.run]
    simp only [h.outcome]
  have hadds : turn.adds source host beyond = writes := by
    rw [Visit.adds, if_pos he, Visit.run, h.writes_eq]
  rwa [hgives, hadds]

theorem enter_makes (node : ν) (earlier : List Write) :
    (Course.step (.enter node) (.ok ()) : Course ν Unit).Makes earlier () [] [] :=
  Course.makes_step rfl _ _

/-- A fragment calls the builder once its children are placed. -/
theorem assembleFragment_makes (hh : host.NeverFails) (v : Visit ν)
    (hf : source.kind v.node = .fragment) :
    ∃ value, v.Builds source host beyond value ∧
      (assembleFragment host v.node ((v.turns source host beyond).map
        (Visit.placed source host beyond false))).Makes (v.late source host beyond) value
          (v.calls source host beyond) [] := by
  have howns : owns source host.answer v.node = false := by simp [owns, hf]
  have hslots : slotsOf (((v.turns source host beyond).map
      (Visit.placed source host beyond false)).filterMap id) = [] := by
    rw [slotsOf_placed]
    simp [routedTo, Assoc.ofPairs, Assoc.setAll]
  have harguments : childrenOf (((v.turns source host beyond).map
      (Visit.placed source host beyond false)).filterMap id) = v.arguments source host beyond := by
    rw [childrenOf_placed, Visit.arguments]
    unfold Visit.slotOf
    rw [howns]
  let late := v.late source host beyond
  have hmakes : host.Makes (.dict none []) :=
    @Host.Makes.merged ν host [] [] (by simp [Texts]) (by simp [TextKeys])
  obtain ⟨value, hvalue⟩ := hh.build ((host.fragment.orElse .null).afterAll late)
    ((Value.dict none []).afterAll late)
    ((v.arguments source host beyond).map (·.afterAll late)) (hmakes.afterAll late)
  rw [assembleFragment, hslots, harguments]
  unfold Visit.Builds Visit.calls Visit.buildCall
  rw [hf, Visit.latest_of_fragment hf]
  exact ⟨value, ⟨_, _, _, rfl, hvalue⟩, build_makes hvalue v.node⟩

/-- **A visit makes the calls for the visits below it, and then those for its own node.** -/
theorem visit_makes {part : ν → Prop} (hh : host.NeverFails) (hr : source.Readable part)
    (hp : part node) (ho : source.Opened node) (hends : source.EndsWithin levels node) :
    ∃ value writes, Visit.Builds source host beyond ⟨node, levels, earlier⟩ value ∧
      (visit source host beyond levels node).Makes earlier value
        ((visitsFrom source host beyond levels node earlier).flatMap
          (Visit.calls source host beyond)) writes := by
  induction levels generalizing node earlier with
  | zero => exact hends.elim
  | succ levels ih =>
    let v : Visit ν := ⟨node, levels + 1, earlier⟩
    -- a child may be visited after other writes, so the induction is for any earlier ones
    have hchildren : ∀ owner, (placeChildren source host beyond levels owner
        (source.children node)).Makes earlier
          ((v.turns source host beyond).map (Visit.placed source host beyond (isOwned owner)))
          ((v.turns source host beyond).flatMap (callsAt source host beyond))
          ((v.turns source host beyond).flatMap (Visit.adds source host beyond)) := by
      intro owner
      refine placeChildren_makes owner
        (fun child hchild => hr.attributeText (hr.children hp hchild) slotAttribute) ?_
      rintro ⟨child, _, earlier'⟩ rfl hchild he
      obtain ⟨value, writes, -, hmakes⟩ :=
        @ih child earlier' (hr.children hp hchild) (.inl he) (hends child ⟨hchild, he⟩)
      have hturn := @Visit.makes_gives ν source host beyond ⟨child, _, earlier'⟩ _ _ _ he hmakes
      rwa [callsAt, if_pos he]
    rw [calls_visitsFrom]
    rcases ho with he | hf
    · have hgather := @gather_makes ν source host beyond part v hh hr hp he hchildren
      obtain ⟨value, writes, hbuilds, hassemble⟩ :=
        assemble_makes hh v he (regular_of_gather hr hp hgather.outcome)
      have hmakes := hgather.bind hassemble
      rw [visit_element he]
      exact ⟨value, _, hbuilds, (enter_makes node earlier).bind_right hmakes⟩
    · obtain ⟨value, hbuilds, hassemble⟩ := @assembleFragment_makes ν source host beyond hh v hf
      have hmakes := (hchildren none).bind hassemble
      rw [visit_fragment hf]
      exact ⟨value, _, hbuilds, (enter_makes node earlier).bind_right hmakes⟩

/-! ## The visits below a visit -/

theorem map_node_visitsFrom :
    (visitsFrom source host beyond levels node earlier).map Visit.node =
      source.postorder levels node := by
  induction levels generalizing node earlier with
  | zero => rfl
  | succ levels ih =>
    have hbelow : ∀ turn : Visit ν,
        (if source.kind turn.node = .element then
          visitsFrom source host beyond levels turn.node turn.earlier else []).map Visit.node =
        if source.kind turn.node = .element then source.postorder levels turn.node else [] := by
      intro turn
      split
      · exact ih
      · rfl
    rw [visitsFrom, List.map_append, List.map_flatMap]
    simp only [hbelow, List.map_singleton]
    rw [Source.postorder, ← @map_node_turnsOf ν source host beyond levels earlier
      (source.children node), List.flatMap_map]
    simp only [map_node_turnsOf]

/-- The visits are those of elements, and of the node where they start. -/
theorem mem_visitsFrom {part : ν → Prop} {v : Visit ν} (hr : source.Readable part) (hp : part node)
    (ho : source.Opened node) (hends : source.EndsWithin levels node)
    (h : v ∈ visitsFrom source host beyond levels node earlier) :
    part v.node ∧ source.Opened v.node ∧ source.EndsWithin v.levels v.node := by
  induction levels generalizing node earlier with
  | zero => cases h
  | succ levels ih =>
    rw [visitsFrom, List.mem_append, List.mem_flatMap, List.mem_singleton] at h
    rcases h with ⟨turn, hturn, h⟩ | rfl
    · have hchild := (mem_turnsOf hturn).1
      split at h
      · next he => exact ih (hr.children hp hchild) (.inl he) (hends _ ⟨hchild, he⟩) h
      · cases h
    · exact ⟨hp, ho, hends⟩

/-- For the node of a visit the builder is called once. -/
theorem Visit.builtFor_calls {v : Visit ν} (ho : source.Opened v.node) :
    (v.calls source host beyond).filterMap Step.builtFor? = [v.node] := by
  rcases ho with he | hf
  · rw [Visit.calls, he]
    cases host.props <;> rfl
  · rw [Visit.calls, hf]
    rfl

end Conversion

section Postorder

open Conversion

variable {source : Source ν} {host : Host ν} {part : ν → Prop} {root : ν} {limit : Option Int}

/-- **The collaborators are called for one node after the other, in post-order.** Take collaborators
that never fail, and a limit that the tree stays within. A start node that is neither an element nor a
fragment gives null, and nothing is called. For any other one there is a visit for each node that can
be reached through elements, in the order of `Source.postorder`, and the calls are those of the visits
one after the other: for each the builder once, and for an element directly before it the props
strategy, if there is one (`Visit.calls`). The value of a visit is what the builder gave. -/
theorem calls_in_postorder (hh : host.NeverFails) (hr : source.Readable part) (hroot : part root)
    (hlimit : source.Suffices (levelsWithin source limit root) root) :
    let run := convert source host limit root
    let visits := visitsFrom source host (faultBeyond limit) (levelsWithin source limit root) root []
    let order := source.postorder (levelsWithin source limit root) root
    (¬ source.Opened root → run.outcome = .ok .null ∧ run.calls = []) ∧
      (source.Opened root →
        run.calls = visits.flatMap (Visit.calls source host (faultBeyond limit)) ∧
        Step.Paired run.steps ∧ run.built = order ∧ visits.map Visit.node = order ∧
        (∀ n, n ∈ order ↔ Relation.ReflTransGen source.Below root n) ∧
        ∀ v ∈ visits, ∃ value, (v.run source host (faultBeyond limit)).outcome = .ok value ∧
          v.Builds source host (faultBeyond limit) value) := by
  intro run visits order
  have hrun : run = (visit source host (faultBeyond limit) (levelsWithin source limit root)
      root).run [] := convert_eq_visit source host limit root
  constructor
  case left =>
    intro hclosed
    have he := fun he => hclosed (.inl he)
    have hf := fun hf => hclosed (.inr hf)
    obtain ⟨levels, hlevels⟩ := Nat.exists_eq_add_of_le' hlimit.1
    rw [hrun, hlevels, visit_other he hf]
    exact ⟨rfl, rfl⟩
  case right =>
    intro hopened
    have hends := hlimit.2 hopened
    obtain ⟨_, _, -, hmakes⟩ := @visit_makes ν source host (faultBeyond limit) _ root [] part hh hr
      hroot hopened hends
    have hnodes : visits.map Visit.node = order := map_node_visitsFrom
    have hcalls : run.calls = visits.flatMap (Visit.calls source host (faultBeyond limit)) := by
      rw [hrun, hmakes.calls_eq]
    have hvisits : ∀ v ∈ visits,
        part v.node ∧ source.Opened v.node ∧ source.EndsWithin v.levels v.node :=
      fun v hv => mem_visitsFrom hr hroot hopened hends hv
    refine ⟨hcalls, hrun ▸ hmakes.paired, ?_, hnodes, fun n => Source.mem_postorder_iff hends, ?_⟩
    · calc run.built
          = visits.flatMap fun v =>
              (Visit.calls source host (faultBeyond limit) v).filterMap Step.builtFor? := by
            rw [Run.built_eq, hcalls, List.filterMap_flatMap]
        _ = visits.flatMap fun v => [v.node] :=
            List.flatMap_congr fun v hv => Visit.builtFor_calls (hvisits v hv).2.1
        _ = order := by rw [← hnodes, List.map_eq_flatMap]
    · intro v hv
      obtain ⟨hpart, hopen, hend⟩ := hvisits v hv
      obtain ⟨value, _, hbuilds, hmakes⟩ := visit_makes hh hr hpart hopen hend
      exact ⟨value, hmakes.outcome, hbuilds⟩

/-- A card with two children that name the same slot, and one that names none. -/
def crowdedCard : Markup :=
  .element "x-card" [] [slotted "a" "1", .element "i" [] [], slotted "a" "2"]

/-- Collaborators that give null for `i`, and make props the standard way. -/
def sparseHost : Host View where
  build
    | .str "i", _, _ => .ok .null
    | type, props, children => .ok (.list [type, props, .list children])
  fragment := .fragment
  component tag := .ok (cardTypes tag)
  props := some (standardStrategy {} .strict)

theorem calls_in_postorder_crowdedCard :
    sparseHost.NeverFails ∧ (View.wrap (.top crowdedCard)).Readable ∧
      View.source.Suffices (levelsWithin View.source (some 9) (.wrap (.top crowdedCard)))
        (.wrap (.top crowdedCard)) ∧
      ((convert View.source sparseHost (some 9) (.wrap (.top crowdedCard))).built.map
        View.source.name) = ["b", "i", "b", "x-card"] := by
  have htextual : crowdedCard.Textual :=
    ⟨by simp, slotted_textual _ _, ⟨by simp, trivial⟩, slotted_textual _ _, trivial⟩
  have hreadable : (View.wrap (.top crowdedCard)).Readable := View.readable_of_textual htextual
  have hnever : sparseHost.NeverFails := by
    refine ⟨fun tag => ⟨_, rfl⟩, ?_, fun type props children _ => ?_⟩
    · rintro strategy ⟨rfl⟩ call hcall
      obtain ⟨mark, entries, hmade⟩ := standardStrategy_makesMaps .strict call hcall.attributes hcall.slots
      exact ⟨_, hmade⟩
    · unfold sparseHost
      dsimp only
      split <;> exact ⟨_, rfl⟩
  have hlimit : View.source.Suffices (levelsWithin View.source (some 9) (.wrap (.top crowdedCard)))
      (.wrap (.top crowdedCard)) := ⟨by decide, fun _ => (View.endsWithin_height _).mono (by decide)⟩
  obtain ⟨-, hopened⟩ := calls_in_postorder hnever View.readable hreadable hlimit
  obtain ⟨-, -, hbuilt, -⟩ := hopened (.inl rfl)
  exact ⟨hnever, hreadable, hlimit, by rw [hbuilt]; rfl⟩

end Postorder

end ComponentTree
