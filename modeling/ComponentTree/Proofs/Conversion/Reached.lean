import ComponentTree.Proofs.Conversion.Visit

/-!
# The visits of a conversion

A conversion visits its start node, and from the visit of a node the element children of that node,
one after the other. A visit is told by its node, by the levels that are left for it and by the
writes that were made before it, since a props strategy may have changed what the visit will see.

`Conversion.Reached` says which visits there are without looking at the steps of a run. They are
exactly the visits of which the steps tell (`Conversion.enter_mem_steps_iff`), so what is proved of
every reached visit holds of everything that a conversion goes into.
-/

namespace ComponentTree

variable {ν α β : Type}

/-! ## The steps of courses in a row -/

namespace Course

theorem mem_steps_bind {c : Course ν α} {f : α → Course ν β} {earlier : List Write} {s : Step ν} :
    s ∈ ((c >>= f).run earlier).steps ↔
      s ∈ (c.run earlier).steps ∨ ∃ a, (c.run earlier).outcome = .ok a ∧
        s ∈ ((f a).run (earlier ++ (c.run earlier).writes)).steps := by
  cases h : (c.run earlier).outcome with
  | error fault => simp [run_bind_error h]
  | ok a => simp [run_bind_ok h]

/-- A step of one course for each item is a step of the course for some item, after those for the
items before it gave something. -/
theorem mem_steps_forEach {f : α → Course ν β} {l : List α} {earlier : List Write} {s : Step ν} :
    s ∈ ((forEach f l).run earlier).steps ↔
      ∃ before a after bs, l = before ++ a :: after ∧
        ((forEach f before).run earlier).outcome = .ok bs ∧
        s ∈ ((f a).run (earlier ++ ((forEach f before).run earlier).writes)).steps := by
  induction l generalizing earlier with
  | nil => simp
  | cons a l ih =>
    rw [forEach_cons, mem_steps_bind]
    constructor
    · rintro (h | ⟨b, hb, h⟩)
      · exact ⟨[], a, l, [], rfl, rfl, by simpa using h⟩
      · rw [mem_steps_bind] at h
        rcases h with h | ⟨bs, -, h⟩
        · obtain ⟨before, a', after, bs, rfl, hbs, h⟩ := ih.mp h
          refine ⟨a :: before, a', after, b :: bs, rfl, ?_, ?_⟩
          · rw [forEach_cons, run_bind_ok hb, run_bind_ok hbs, run_pure]
          · rw [forEach_cons, run_bind_ok hb, run_bind_ok hbs, run_pure]
            simpa using h
        · simp at h
    · rintro ⟨before, a', after, bs, hl, hbs, h⟩
      cases before with
      | nil =>
        -- the item is the first one
        obtain ⟨rfl, rfl⟩ := List.cons.inj hl
        exact .inl (by simpa using h)
      | cons a₀ before =>
        obtain ⟨rfl, rfl⟩ := List.cons.inj hl
        rw [forEach_cons] at hbs h
        obtain ⟨b, hb, hrest⟩ := outcome_bind_ok hbs
        obtain ⟨bs', hbs', -⟩ := outcome_bind_ok hrest
        refine .inr ⟨b, hb, mem_steps_bind.mpr (.inl (ih.mpr ⟨before, a', after, bs', rfl, hbs', ?_⟩))⟩
        rw [run_bind_ok hb, run_bind_ok hbs'] at h
        simpa using h

end Course

namespace Conversion

variable {source : Source ν} {host : Host ν} {beyond : Fault} {levels : Nat} {node n : ν}
variable {earlier : List Write}

/-! ## Visits -/

/-- A node that a conversion comes to, with the levels that are left and the writes before. -/
structure Visit (ν : Type) where
  node : ν
  levels : Nat
  earlier : List Write

def Visit.first (source : Source ν) (limit : Option Int) (node : ν) : Visit ν :=
  ⟨node, levelsWithin source limit node, []⟩

def Visit.run (source : Source ν) (host : Host ν) (beyond : Fault) (v : Visit ν) : Run ν Value :=
  (visit source host beyond v.levels v.node).run v.earlier

/-- As whose owner a node takes the results of its children: an element as itself, with what was
found for its tag, and a fragment as nobody. -/
inductive Opens (source : Source ν) (host : Host ν) : ν → Option (Owner ν) → Prop
  | element {node : ν} {component : Value} {attributes : List (String × Value)} :
      source.kind node = .element → host.component (tagOf source node) = .ok component →
      attributesOf source node = .ok attributes → Opens source host node (some ⟨node, component⟩)
  | fragment {node : ν} : source.kind node = .fragment → Opens source host node none

/-- The turn of an element child: those listed before it were placed, so their writes come before
it, and what names its slot was read. -/
inductive Turn (source : Source ν) (host : Host ν) (beyond : Fault) :
    Visit ν → Option (Owner ν) → Visit ν → Prop
  | intro {node child : ν} {before after : List ν} {levels : Nat} {earlier : List Write}
      {owner : Option (Owner ν)} {placements : List (Option Placement)} {slot : Value} :
      Opens source host node owner → source.children node = before ++ child :: after →
      ((placeChildren source host beyond levels owner before).run earlier).outcome =
        .ok placements →
      source.kind child = .element → source.attributeValue child slotAttribute = .ok slot →
      Turn source host beyond ⟨node, levels + 1, earlier⟩ owner
        ⟨child, levels,
          earlier ++ ((placeChildren source host beyond levels owner before).run earlier).writes⟩

/-- The visits of the conversion that starts with a visit. -/
inductive Reached (source : Source ν) (host : Host ν) (beyond : Fault) (start : Visit ν) :
    Visit ν → Prop
  | start : Reached source host beyond start start
  | child {v c : Visit ν} {owner : Option (Owner ν)} :
      Reached source host beyond start v → Turn source host beyond v owner c →
      Reached source host beyond start c

theorem Reached.of_turn {v c w : Visit ν} {owner : Option (Owner ν)}
    (ht : Turn source host beyond v owner c) (hw : Reached source host beyond c w) :
    Reached source host beyond v w := by
  induction hw with
  | start => exact .child .start ht
  | child _ hturn ih => exact .child ih hturn

/-! ## Where a conversion goes in -/

theorem enter_not_mem_settle {owner : Option (Owner ν)} {child : ν} {slot value : Value} :
    .enter n ∉ ((settle owner child slot value).run earlier).steps := by
  cases owner with
  | none => simp [settle]
  | some owner =>
    unfold settle
    dsimp only
    split <;> simp

theorem enter_not_mem_passedAttributes {attributes : List (String × Value)} :
    .enter n ∉ ((passedAttributes source host node attributes).run earlier).steps := by
  have hp : .enter n ∉ ((parentIsComponent source host node).run earlier).steps := by
    rw [parentIsComponent_eq]
    cases parentTag? source node with
    | none => simp
    | some tag =>
      rw [Course.mem_steps_bind]
      simp [lookup]
  unfold passedAttributes
  rw [Course.mem_steps_bind]
  rintro (h | ⟨slot, -, h⟩)
  · simp at h
  · simp only [Course.run_current, List.append_nil] at h
    split at h
    · rcases Course.mem_steps_bind.mp h with h | ⟨_, -, h⟩
      · exact hp h
      · simp at h
    · simp at h

theorem enter_not_mem_assemble {gathered : Gathered} :
    .enter n ∉ ((assemble source host node gathered).run earlier).steps := by
  unfold assemble elementProps
  rw [Course.mem_steps_bind]
  rintro (h | ⟨props, -, h⟩)
  · cases hp : host.props with
    | none => simp [hp] at h
    | some strategy => simp [hp, Course.run] at h
  · simp at h

theorem enter_mem_placeChild {convert : ν → Course ν Value} {owner : Option (Owner ν)} {child : ν} :
    .enter n ∈ ((placeChild source convert owner child).run earlier).steps ↔
      source.kind child = .element ∧
        (∃ slot, source.attributeValue child slotAttribute = .ok slot) ∧
        .enter n ∈ ((convert child).run earlier).steps := by
  by_cases ht : source.kind child = .text
  · rw [placeChild_text ht]
    simp [ht]
  · by_cases he : source.kind child = .element
    · rw [placeChild_element he]
      simp [Course.mem_steps_bind, enter_not_mem_settle, he]
    · rw [placeChild_other ht he]
      simp [he]

/-- A visit goes into its node and into what its children go into. -/
theorem enter_mem_visit :
    .enter n ∈ ((visit source host beyond (levels + 1) node).run earlier).steps ↔
      n = node ∨ ∃ owner, Opens source host node owner ∧
        .enter n ∈ ((placeChildren source host beyond levels owner
          (source.children node)).run earlier).steps := by
  by_cases he : source.kind node = .element
  · rw [visit_element he]
    simp only [Course.mem_steps_bind, Course.run_step, gather, lookup, Course.run_ofExcept,
      enter_not_mem_passedAttributes, enter_not_mem_assemble, Course.run_pure]
    simp only [List.mem_singleton, Step.enter.injEq, List.append_nil,
      true_and, exists_const, reduceCtorEq, List.not_mem_nil, and_false, exists_false, or_false,
      false_or]
    constructor
    · rintro (h | ⟨component, hc, attributes, ha, h⟩)
      · exact .inl h
      · exact .inr ⟨_, .element he hc ha, h⟩
    · rintro (h | ⟨owner, ho, h⟩)
      · exact .inl h
      · cases ho with
        | element _ hc ha => exact .inr ⟨_, hc, _, ha, h⟩
        | fragment hf => rw [he] at hf; cases hf
  · by_cases hf : source.kind node = .fragment
    · rw [visit_fragment hf]
      simp only [Course.mem_steps_bind, Course.run_step, assembleFragment, run_build,
        List.mem_singleton, Step.enter.injEq, List.append_nil, true_and, exists_const,
        reduceCtorEq, and_false, or_false]
      constructor
      · rintro (h | h)
        · exact .inl h
        · exact .inr ⟨none, .fragment hf, h⟩
      · rintro (h | ⟨owner, ho, h⟩)
        · exact .inl h
        · cases ho with
          | element he' => exact absurd he' he
          | fragment => exact .inr h
    · rw [visit_other he hf]
      simp only [Course.mem_steps_bind, Course.run_step, Course.run_pure]
      constructor
      · rintro (h | ⟨_, -, h⟩)
        · exact .inl (by simpa using h)
        · cases h
      · rintro (h | ⟨owner, ho, -⟩)
        · exact .inl (by simpa using h)
        · cases ho with
          | element he' => exact absurd he' he
          | fragment hf' => exact absurd hf' hf

theorem Turn.enter_mem {v c : Visit ν} {owner : Option (Owner ν)}
    (ht : Turn source host beyond v owner c) (h : .enter n ∈ (c.run source host beyond).steps) :
    .enter n ∈ (v.run source host beyond).steps := by
  obtain ⟨ho, hch, hbefore, he, hslot⟩ := ht
  refine enter_mem_visit.mpr (.inr ⟨owner, ho, ?_⟩)
  rw [hch]
  refine Course.mem_steps_forEach.mpr ⟨_, _, _, _, rfl, hbefore, ?_⟩
  exact enter_mem_placeChild.mpr ⟨he, ⟨_, hslot⟩, h⟩

/-- **The nodes that a conversion goes into are those of the visits that are reached.** -/
theorem enter_mem_steps_iff {start : Visit ν} :
    .enter n ∈ (start.run source host beyond).steps ↔
      ∃ v, Reached source host beyond start v ∧ v.node = n := by
  constructor
  · obtain ⟨node, levels, earlier⟩ := start
    intro h
    induction levels generalizing node earlier with
    | zero =>
      have hn : n = node := by simpa [Visit.run, visit_zero] using h
      exact ⟨_, .start, hn.symm⟩
    | succ levels ih =>
      rcases enter_mem_visit.mp h with rfl | ⟨owner, ho, h⟩
      · exact ⟨_, .start, rfl⟩
      · obtain ⟨before, child, after, placements, hch, hbefore, h⟩ := Course.mem_steps_forEach.mp h
        obtain ⟨he, ⟨slot, hslot⟩, h⟩ := enter_mem_placeChild.mp h
        obtain ⟨v, hv, hn⟩ := ih child _ h
        exact ⟨v, hv.of_turn (.intro ho hch hbefore he hslot), hn⟩
  · rintro ⟨v, hv, rfl⟩
    -- a visit goes into its own node, and the way there only adds steps around it
    have hself : .enter v.node ∈ (v.run source host beyond).steps := by
      obtain ⟨node, levels, earlier⟩ := v
      cases levels with
      | zero => simp [Visit.run, visit_zero]
      | succ levels => exact enter_mem_visit.mpr (.inl rfl)
    generalize v.node = n at hself
    induction hv with
    | start => exact hself
    | child _ ht ih => exact ih (ht.enter_mem hself)

end Conversion

end ComponentTree
