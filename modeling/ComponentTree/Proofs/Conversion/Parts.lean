import ComponentTree.Proofs.Conversion.Reached
import ComponentTree.Proofs.Conversion.Slots
import ComponentTree.Proofs.Source.Alike
import ComponentTree.Proofs.Source.Interchange

/-!
# Converting a part

A part of a document can be converted by itself, as the view that the conversion of the whole document
takes of it, or within that conversion. It comes to the same each time (`convert_part`).

That the part is converted within the whole is `Course.Within`: its run follows what was written
before, and its steps and writes are among those of the whole. A conversion that gives a result goes
into all of its elements (`Conversion.exists_turn`), and the last step for a node is the call of the
builder, so what the builder gives there is what the part comes to.
-/

namespace ComponentTree

variable {ν α β γ : Type}

/-! ## Courses within others -/

namespace Course

/-- One course runs as a part of another: it finds what was written before it, what it does is done by
the other, and it succeeds if the other does. -/
structure Within (inner : Course ν β) (later : List Write) (outer : Course ν α)
    (earlier : List Write) : Prop where
  writes : ∃ before, later = earlier ++ before ∧
    before ++ (inner.run later).writes <+: (outer.run earlier).writes
  steps : (inner.run later).steps ⊆ (outer.run earlier).steps
  succeeds : (∃ a, (outer.run earlier).outcome = .ok a) → ∃ b, (inner.run later).outcome = .ok b

variable {c : Course ν α} {d : Course ν β} {e : Course ν γ} {f : α → Course ν β}
variable {earlier later latest : List Write}

theorem Within.refl (c : Course ν α) (earlier : List Write) : c.Within earlier c earlier :=
  ⟨⟨[], (List.append_nil _).symm, List.prefix_refl _⟩, List.Subset.refl _, id⟩

theorem Within.trans (h : e.Within latest d later) (h' : d.Within later c earlier) :
    e.Within latest c earlier where
  writes := by
    obtain ⟨before, rfl, hwrites⟩ := h'.writes
    obtain ⟨between, rfl, hwrites'⟩ := h.writes
    refine ⟨before ++ between, by rw [List.append_assoc], ?_⟩
    rw [List.append_assoc]
    exact ((List.prefix_append_right_inj before).mpr hwrites').trans hwrites
  steps := List.Subset.trans h.steps h'.steps
  succeeds hok := h.succeeds (h'.succeeds hok)

/-- The first of two courses in a row runs within both. -/
theorem within_bind_left : c.Within earlier (c >>= f) earlier := by
  refine ⟨⟨[], (List.append_nil _).symm, ?_⟩, fun s hs => mem_steps_bind.mpr (.inl hs), ?_⟩
  · cases hc : (c.run earlier).outcome with
    | error fault => rw [run_bind_error hc]; exact List.prefix_refl _
    | ok a => rw [run_bind_ok hc]; exact List.prefix_append _ _
  · rintro ⟨b, hb⟩
    obtain ⟨a, ha, -⟩ := outcome_bind_ok hb
    exact ⟨a, ha⟩

/-- The second of two courses in a row runs within both, after the writes of the first. -/
theorem within_bind_right {a : α} (hc : (c.run earlier).outcome = .ok a) :
    (f a).Within (earlier ++ (c.run earlier).writes) (c >>= f) earlier where
  writes := ⟨_, rfl, by simp [run_bind_ok hc]⟩
  steps s hs := mem_steps_bind.mpr (.inr ⟨a, hc, hs⟩)
  succeeds := by
    rintro ⟨b, hb⟩
    rw [run_bind_ok hc] at hb
    exact ⟨b, hb⟩

/-- The second of two courses in a row, if the first writes nothing. -/
theorem within_bind_of_quiet {a : α} (hc : (c.run earlier).outcome = .ok a)
    (hw : (c.run earlier).writes = []) : (f a).Within earlier (c >>= f) earlier := by
  have h := within_bind_right (f := f) hc
  rwa [hw, List.append_nil] at h

theorem within_bind_step {s : Step ν} {a : α} :
    (f a).Within earlier (step s (.ok a) >>= f) earlier := within_bind_of_quiet rfl rfl

/-- The course for one item runs within that for all, after the writes for the items before it. -/
theorem within_forEach {g : γ → Course ν β} {before after : List γ} {item : γ} {bs : List β}
    (hbefore : ((forEach g before).run earlier).outcome = .ok bs) :
    (g item).Within (earlier ++ ((forEach g before).run earlier).writes)
      (forEach g (before ++ item :: after)) earlier := by
  induction before generalizing earlier bs with
  | nil =>
    rw [forEach_nil, run_pure, List.append_nil, List.nil_append, forEach_cons]
    exact within_bind_left
  | cons first before ih =>
    rw [forEach_cons] at hbefore ⊢
    obtain ⟨b, hb, hrest⟩ := outcome_bind_ok hbefore
    obtain ⟨bs', hbs', -⟩ := outcome_bind_ok hrest
    rw [List.cons_append, forEach_cons, run_bind_ok hb, run_bind_ok hbs', run_pure]
    simp only [List.append_nil, ← List.append_assoc]
    refine Within.trans ?_ (within_bind_right hb)
    exact (ih hbs').trans within_bind_left

/-- If the course for all items succeeds, then so does that for the items before one of them, and then
the one for that item. -/
theorem outcome_forEach_append {g : γ → Course ν β} {before after : List γ} {item : γ} {bs : List β}
    (h : ((forEach g (before ++ item :: after)).run earlier).outcome = .ok bs) :
    ∃ bs', ((forEach g before).run earlier).outcome = .ok bs' ∧
      ∃ b, ((g item).run (earlier ++ ((forEach g before).run earlier).writes)).outcome = .ok b := by
  suffices hbefore : ∃ bs', ((forEach g before).run earlier).outcome = .ok bs' by
    obtain ⟨bs', hbs'⟩ := hbefore
    exact ⟨bs', hbs', (within_forEach hbs').succeeds ⟨bs, h⟩⟩
  induction before generalizing earlier bs with
  | nil => exact ⟨[], rfl⟩
  | cons first before ih =>
    rw [List.cons_append, forEach_cons] at h
    obtain ⟨b, hb, hrest⟩ := outcome_bind_ok h
    obtain ⟨bs₁, hbs₁, -⟩ := outcome_bind_ok hrest
    obtain ⟨bs₂, hbs₂⟩ := ih hbs₁
    refine ⟨b :: bs₂, ?_⟩
    rw [forEach_cons, run_bind_ok hb, run_bind_ok hbs₂, run_pure]

end Course

namespace Conversion

open Course

variable {source : Source ν} {host : Host ν} {beyond : Fault} {levels : Nat} {node n : ν}
variable {earlier : List Write}

/-! ## Visits within others -/

theorem within_placeChild {convert : ν → Course ν Value} {owner : Option (Owner ν)} {child : ν}
    {slot : Value} (he : source.kind child = .element)
    (hslot : source.attributeValue child slotAttribute = .ok slot) :
    (convert child).Within earlier (placeChild source convert owner child) earlier := by
  rw [placeChild_element he, hslot, ofExcept_ok, Course.pure_bind]
  exact within_bind_left

/-- The children of a node are placed within its visit. -/
theorem within_visit {owner : Option (Owner ν)} (ho : Opens source host node owner) :
    (placeChildren source host beyond levels owner (source.children node)).Within earlier
      (visit source host beyond (levels + 1) node) earlier := by
  cases ho with
  | @element component attributes he hcomponent hattributes =>
    have hgather : (placeChildren source host beyond levels (some ⟨node, component⟩)
        (source.children node)).Within earlier (gather source host beyond levels node) earlier := by
      rw [gather, lookup, hcomponent, hattributes]
      refine Within.trans ?_ within_bind_step
      refine Within.trans ?_ (within_bind_of_quiet rfl rfl)
      exact within_bind_left
    rw [visit_element he]
    refine Within.trans ?_ within_bind_step
    exact hgather.trans within_bind_left
  | fragment hf =>
    rw [visit_fragment hf]
    refine Within.trans ?_ within_bind_step
    exact within_bind_left

/-- The course of a visit. -/
def Visit.course (source : Source ν) (host : Host ν) (beyond : Fault) (v : Visit ν) :
    Course ν Value := visit source host beyond v.levels v.node

theorem Turn.within {v c : Visit ν} {owner : Option (Owner ν)}
    (h : Turn source host beyond v owner c) :
    (c.course source host beyond).Within c.earlier (v.course source host beyond) v.earlier := by
  cases h with
  | @intro node child before after levels earlier _ placements slot ho hchildren hbefore he hslot =>
    have hplaced : (placeChild source (visit source host beyond levels) owner child).Within
        (earlier ++ ((placeChildren source host beyond levels owner before).run earlier).writes)
        (placeChildren source host beyond levels owner (source.children node)) earlier := by
      rw [hchildren]
      exact within_forEach hbefore
    exact ((within_placeChild he hslot).trans hplaced).trans (within_visit ho)

theorem Reached.within {start v : Visit ν} (h : Reached source host beyond start v) :
    (v.course source host beyond).Within v.earlier (start.course source host beyond)
      start.earlier := by
  induction h with
  | start => exact .refl _ _
  | child _ hturn ih => exact hturn.within.trans ih

/-! ## What the builder gives -/

theorem build_mem_assemble {gathered : Gathered} {type props : Value} {children : List Value}
    (h : .build n type props children ∈ ((assemble source host node gathered).run earlier).steps) :
    n = node ∧ ((assemble source host node gathered).run earlier).outcome =
      host.build type props children := by
  unfold assemble at h ⊢
  rw [mem_steps_bind] at h
  rcases h with h | ⟨made, hmade, h⟩
  · -- the strategy is called at most
    unfold elementProps at h
    cases hp : host.props with
    | none => simp [hp] at h
    | some strategy => simp [hp, Course.run] at h
  · rw [run_bind_ok hmade]
    simp only [run_build, List.mem_singleton, Step.build.injEq] at h ⊢
    obtain ⟨rfl, rfl, rfl, rfl⟩ := h
    exact ⟨rfl, rfl⟩

/-- Passing on the attributes takes a lookup at most. -/
theorem mem_steps_passedAttributes {attributes : List (String × Value)} {s : Step ν}
    (h : s ∈ ((passedAttributes source host node attributes).run earlier).steps) :
    ∃ tag, s = .lookup node tag := by
  have hparent : ∀ {later}, s ∈ ((parentIsComponent source host node).run later).steps →
      ∃ tag, s = .lookup node tag := by
    intro later hs
    rw [parentIsComponent_eq] at hs
    cases hp : parentTag? source node with
    | none => simp [hp] at hs
    | some tag =>
      simp only [hp, lookup, mem_steps_bind, run_step, run_pure, List.mem_singleton, List.not_mem_nil,
        and_false, exists_false, or_false] at hs
      exact ⟨tag, hs⟩
  unfold passedAttributes at h
  rcases mem_steps_bind.mp h with h | ⟨slot, -, h⟩
  · simp at h
  · split at h
    · rcases mem_steps_bind.mp h with h | ⟨_, -, h⟩
      · exact hparent h
      · simp at h
    · simp at h

/-- Settling where a result goes takes a step of routing at most. -/
theorem mem_steps_settle {owner : Option (Owner ν)} {child : ν} {slot value : Value} {s : Step ν}
    (h : s ∈ ((settle owner child slot value).run earlier).steps) :
    ∃ element, s = .route element child slot := by
  cases owner with
  | none => simp [settle] at h
  | some owner =>
    unfold settle at h
    dsimp only at h
    split at h
    · exact ⟨owner.element, by simpa using h⟩
    · simp at h

section Build

variable {type props : Value} {children : List Value}

theorem build_mem_placeChild {convert : ν → Course ν Value} {owner : Option (Owner ν)} {child : ν}
    (h : .build n type props children ∈
      ((placeChild source convert owner child).run earlier).steps) :
    source.kind child = .element ∧ (∃ slot, source.attributeValue child slotAttribute = .ok slot) ∧
      .build n type props children ∈ ((convert child).run earlier).steps := by
  by_cases ht : source.kind child = .text
  · simp [placeChild_text ht] at h
  · by_cases he : source.kind child = .element
    · rw [placeChild_element he] at h
      rcases mem_steps_bind.mp h with h | ⟨slot, hslot, h⟩
      · simp at h
      · rw [run_ofExcept, List.append_nil] at h
        refine ⟨he, ⟨slot, hslot⟩, ?_⟩
        rcases mem_steps_bind.mp h with h | ⟨value, -, h⟩
        · exact h
        · rcases mem_steps_bind.mp h with h | ⟨_, -, h⟩
          · simp at h
          · obtain ⟨_, hroute⟩ := mem_steps_settle h
            cases hroute
    · simp [placeChild_other ht he] at h

theorem build_mem_gather
    (h : .build n type props children ∈ ((gather source host beyond levels node).run earlier).steps) :
    ∃ component attributes, host.component (tagOf source node) = .ok component ∧
      attributesOf source node = .ok attributes ∧ .build n type props children ∈
        ((placeChildren source host beyond levels (some ⟨node, component⟩)
          (source.children node)).run earlier).steps := by
  unfold gather at h
  rcases mem_steps_bind.mp h with h | ⟨component, hcomponent, h⟩
  · simp [lookup] at h
  · rcases mem_steps_bind.mp h with h | ⟨attributes, hattributes, h⟩
    · simp at h
    · rcases mem_steps_bind.mp h with h | ⟨placements, -, h⟩
      · exact ⟨component, attributes, hcomponent, hattributes, by simpa [lookup] using h⟩
      · rcases mem_steps_bind.mp h with h | ⟨_, -, h⟩
        · obtain ⟨tag, hlookup⟩ := mem_steps_passedAttributes h
          cases hlookup
        · simp at h

/-- The builder is called for the node of a visit at its end, or within the visit of a child. -/
theorem build_mem_visit
    (h : .build n type props children ∈
      ((visit source host beyond (levels + 1) node).run earlier).steps) :
    (n = node ∧ ((visit source host beyond (levels + 1) node).run earlier).outcome =
        host.build type props children) ∨
      ∃ owner, Opens source host node owner ∧ .build n type props children ∈
        ((placeChildren source host beyond levels owner (source.children node)).run earlier).steps := by
  have henter : ((Course.step (.enter node) (.ok ()) : Course ν Unit).run earlier).outcome =
      .ok () := rfl
  by_cases he : source.kind node = .element
  · rw [visit_element he, run_bind_ok henter, run_step, List.append_nil] at h ⊢
    rcases List.mem_append.mp h with h | h
    · simp at h
    · rcases mem_steps_bind.mp h with h | ⟨gathered, hgathered, h⟩
      · obtain ⟨component, attributes, hcomponent, hattributes, h⟩ := build_mem_gather h
        exact .inr ⟨_, .element he hcomponent hattributes, h⟩
      · obtain ⟨hn, houtcome⟩ := build_mem_assemble h
        exact .inl ⟨hn, by rw [run_bind_ok hgathered, houtcome]⟩
  · by_cases hf : source.kind node = .fragment
    · rw [visit_fragment hf, run_bind_ok henter, run_step, List.append_nil] at h ⊢
      rcases List.mem_append.mp h with h | h
      · simp at h
      · rcases mem_steps_bind.mp h with h | ⟨placements, hplacements, h⟩
        · exact .inr ⟨none, .fragment hf, h⟩
        · simp only [assembleFragment, run_build, List.mem_singleton, Step.build.injEq] at h
          obtain ⟨rfl, rfl, rfl, rfl⟩ := h
          exact .inl ⟨rfl, by rw [run_bind_ok hplacements]; rfl⟩
    · rw [visit_other he hf, run_bind_ok henter] at h
      simp at h

/-- **The builder gives, for a node, what some visit of that node comes to.** -/
theorem exists_reached_of_build {start : Visit ν}
    (h : .build n type props children ∈ (start.run source host beyond).steps) :
    ∃ v, Reached source host beyond start v ∧ v.node = n ∧
      (v.run source host beyond).outcome = host.build type props children := by
  obtain ⟨node, levels, earlier⟩ := start
  induction levels generalizing node earlier with
  | zero => simp [Visit.run, visit_zero] at h
  | succ levels ih =>
    rcases build_mem_visit h with ⟨rfl, houtcome⟩ | ⟨owner, ho, h⟩
    · exact ⟨_, .start, rfl, houtcome⟩
    · obtain ⟨before, child, after, placements, hch, hbefore, h⟩ := mem_steps_forEach.mp h
      obtain ⟨he, ⟨slot, hslot⟩, h⟩ := build_mem_placeChild h
      obtain ⟨v, hv, hn, houtcome⟩ := ih child _ h
      exact ⟨v, hv.of_turn (.intro ho hch hbefore he hslot), hn, houtcome⟩

end Build

/-! ## Where a conversion that gives a result goes in -/

theorem exists_build_of_assemble {gathered : Gathered} {value : Value}
    (h : ((assemble source host node gathered).run earlier).outcome = .ok value) :
    ∃ type props children, .build node type props children ∈
      ((assemble source host node gathered).run earlier).steps := by
  obtain ⟨made, hmade, -⟩ := outcome_bind_ok h
  exact ⟨_, _, _, mem_steps_bind.mpr (.inr ⟨made, hmade, List.mem_singleton_self _⟩)⟩

/-- A visit that gives a result has called the builder for its node. -/
theorem exists_build_of_ok {value : Value} (ho : source.Opened node)
    (h : ((visit source host beyond levels node).run earlier).outcome = .ok value) :
    ∃ type props children, .build node type props children ∈
      ((visit source host beyond levels node).run earlier).steps := by
  cases levels with
  | zero => cases h
  | succ levels =>
    rcases ho with he | hf
    · rw [visit_element he] at h ⊢
      obtain ⟨_, henter, h⟩ := outcome_bind_ok h
      obtain ⟨gathered, hgathered, h⟩ := outcome_bind_ok h
      obtain ⟨type, props, children, hbuild⟩ := exists_build_of_assemble h
      exact ⟨type, props, children, mem_steps_bind.mpr
        (.inr ⟨_, henter, mem_steps_bind.mpr (.inr ⟨gathered, hgathered, hbuild⟩)⟩)⟩
    · rw [visit_fragment hf] at h ⊢
      obtain ⟨_, henter, h⟩ := outcome_bind_ok h
      obtain ⟨placements, hplacements, -⟩ := outcome_bind_ok h
      exact ⟨_, _, _, mem_steps_bind.mpr (.inr ⟨_, henter,
        mem_steps_bind.mpr (.inr ⟨placements, hplacements, List.mem_singleton_self _⟩)⟩)⟩

/-- A visit that gives a result has placed the children of its node. -/
theorem exists_placed_of_ok {value : Value} (ho : source.Opened node)
    (h : ((visit source host beyond (levels + 1) node).run earlier).outcome = .ok value) :
    ∃ owner placements, Opens source host node owner ∧
      ((placeChildren source host beyond levels owner (source.children node)).run earlier).outcome =
        .ok placements := by
  rcases ho with he | hf
  · rw [visit_element he] at h
    obtain ⟨_, henter, h⟩ := outcome_bind_ok h
    obtain ⟨gathered, hgathered, -⟩ := outcome_bind_ok h
    obtain ⟨component, hcomponent, h⟩ := outcome_bind_ok hgathered
    obtain ⟨attributes, hattributes, h⟩ := outcome_bind_ok h
    obtain ⟨placements, hplacements, -⟩ := outcome_bind_ok h
    exact ⟨_, placements, .element he hcomponent hattributes, by simpa [lookup] using hplacements⟩
  · rw [visit_fragment hf] at h
    obtain ⟨_, henter, h⟩ := outcome_bind_ok h
    obtain ⟨placements, hplacements, -⟩ := outcome_bind_ok h
    exact ⟨none, placements, .fragment hf, by simpa using hplacements⟩

/-- **A visit that gives a result goes into each element child**, and gets a result there. -/
theorem exists_turn {v : Visit ν} {child : ν} (ho : source.Opened v.node)
    (hok : ∃ value, (v.run source host beyond).outcome = .ok value)
    (hchild : child ∈ source.children v.node) (he : source.kind child = .element) :
    ∃ owner c, Turn source host beyond v owner c ∧ c.node = child ∧
      ∃ value, (c.run source host beyond).outcome = .ok value := by
  obtain ⟨node, levels, earlier⟩ := v
  obtain ⟨value, hvalue⟩ := hok
  cases levels with
  | zero => cases hvalue
  | succ levels =>
    obtain ⟨owner, placements, hopens, hplacements⟩ := exists_placed_of_ok ho hvalue
    obtain ⟨before, after, hch⟩ := List.append_of_mem hchild
    rw [hch] at hplacements
    obtain ⟨placed, hbefore, result, hresult⟩ := outcome_forEach_append hplacements
    rw [placeChild_element he] at hresult
    obtain ⟨slot, hslot, -⟩ := outcome_bind_ok hresult
    have hturn : Turn source host beyond ⟨node, levels + 1, earlier⟩ owner ⟨child, levels, _⟩ :=
      .intro hopens hch hbefore he hslot
    exact ⟨owner, _, hturn, rfl, hturn.within.succeeds ⟨value, hvalue⟩⟩

end Conversion

/-! ## Parts of parsed documents -/

namespace View

open Conversion

/-- The view reached by going down along child positions. -/
def follow? (v : View) : List Nat → Option View
  | [] => some v
  | i :: path => v.children[i]?.bind (follow? · path)

/-- A view goes down as its place does, and counts the steps. -/
theorem follow?_eq (v : View) (path : List Nat) :
    v.follow? path =
      (v.place.follow? path).map fun p => ⟨p, v.steps + path.length, v.openedAsFragment⟩ := by
  induction path generalizing v with
  | nil => rfl
  | cons i path ih =>
    rw [follow?, Place.follow?, children, List.getElem?_map]
    cases v.place.children[i]? with
    | none => rfl
    | some p =>
      rw [Option.map_some, Option.bind_some, Option.bind_some, ih, List.length_cons]
      simp only [Nat.add_assoc, Nat.add_comm 1]

/-- A view finds the same node around it, whether it was reached from there or opened at its place. -/
theorem exists_parent_wrap {v c : View} (hv : v.openedAsFragment = false) (h : c ∈ v.children) :
    ∃ q, (wrap c.place).parent = some q ∧ q.place = v.place ∧ q.kind = v.kind ∧ q.name = v.name := by
  obtain ⟨m, -, rfl⟩ := mem_children.mp h
  have hkind : (wrap v.place).kind = v.kind := by
    rw [kind_of_whole hv, kind_of_whole rfl]
    rfl
  refine ⟨wrap v.place, rfl, rfl, hkind, ?_⟩
  rw [name, name, hkind]
  rfl

theorem parentTag?_of_whole (p : Place) (steps steps' : Nat) :
    parentTag? source ⟨p, steps, false⟩ = parentTag? source ⟨p, steps', false⟩ := by
  obtain ⟨node, above⟩ := p
  cases above <;> cases steps <;> cases steps' <;> rfl

/-- However a view was reached, it reads as the view that is opened at its place. -/
theorem alike_wrap (p : Place) (steps : Nat) : Alike ⟨p, steps, false⟩ (wrap p) :=
  alike_of_lowered rfl rfl (parentTag?_of_whole p steps 0)

end View

section Parts

open Conversion

variable {host : Host View} {beyond : Fault}

/-- The levels that are left for a reached visit suffice for what lies below. -/
theorem Conversion.Reached.height_le {start v : Visit View}
    (h : Reached View.source host beyond start v)
    (hstart : start.node.place.node.height ≤ start.levels) :
    v.node.place.node.height ≤ v.levels := by
  induction h with
  | start => exact hstart
  | child _ hturn ih =>
    cases hturn with
    | intro _ hchildren =>
      have hlt := View.height_lt_of_mem_children
        (show _ ∈ View.source.children _ from hchildren ▸ List.mem_append_right _ List.mem_cons_self)
      exact Nat.le_of_lt_succ (Nat.lt_of_lt_of_le hlt ih)

/-- A reached visit comes to what the place of its node comes to by itself, after the same writes. -/
theorem Conversion.Reached.outcome_eq {host : Host Unit} {start v : Visit View} {place : Place}
    {steps : Nat} (h : Reached View.source host.regardless .endless start v)
    (hstart : start.node.place.node.height ≤ start.levels)
    (hnode : v.node = ⟨place, steps, false⟩) :
    (v.run View.source host.regardless .endless).outcome =
      ((visit View.source host.regardless .endless place.node.height (.wrap place)).run
        v.earlier).outcome := by
  have hheight := h.height_le hstart
  obtain ⟨node, levels, earlier⟩ := v
  dsimp only at hnode hheight
  subst hnode
  have hends := View.endsWithin_height ⟨place, steps, false⟩
  have hlevels : visit View.source host.regardless .endless levels ⟨place, steps, false⟩ =
      visit View.source host.regardless .endless place.node.height ⟨place, steps, false⟩ :=
    visit_eq_of_suffices _
      ⟨Nat.le_trans place.node.one_le_height hheight, fun _ => hends.mono hheight⟩
      ⟨place.node.one_le_height, fun _ => hends⟩
  have halike := View.alike_readAlike.visit host .endless place.node.height
    (View.alike_wrap place steps)
  rw [Visit.run, hlevels]
  exact congrArg (fun course => (course.run earlier).outcome) halike

/-- A conversion that gives a result goes down every way that leads through elements only. -/
theorem exists_reached_of_follow {path : List Nat} {start : Visit View} {w : View}
    (ho : View.source.Opened start.node)
    (hok : ∃ value, (start.run View.source host beyond).outcome = .ok value)
    (hw : start.node.follow? path = some w)
    (helements : ∀ front u, front <+: path → front ≠ [] → start.node.follow? front = some u →
      u.kind = .element) :
    ∃ v, Reached View.source host beyond start v ∧ v.node = w ∧ View.source.Opened v.node ∧
      ∃ value, (v.run View.source host beyond).outcome = .ok value := by
  induction path generalizing start with
  | nil => exact ⟨start, .start, Option.some.inj hw, ho, hok⟩
  | cons i path ih =>
    obtain ⟨u, hu, hw⟩ := Option.bind_eq_some_iff.mp hw
    have he : u.kind = .element := by
      refine helements [i] u (by simp) (by simp) ?_
      rw [View.follow?, hu]
      rfl
    obtain ⟨owner, c, hturn, rfl, hcok⟩ := exists_turn ho hok (List.mem_of_getElem? hu) he
    obtain ⟨v, hv, hvw, hvo, hvok⟩ := ih (.inl he) hcok hw fun front u' hfront hne hu' =>
      helements (i :: front) u' (List.cons_prefix_cons.mpr ⟨rfl, hfront⟩) (by simp) (by
        rw [View.follow?, hu]
        exact hu')
    exact ⟨v, hv.of_turn hturn, hvw, hvo, hvok⟩

/-- What the builder gives for a place is what the place comes to by itself, after the writes that were
made before. -/
theorem exists_earlier_of_build {host : Host Unit} {start : Visit View} {place : Place} {steps : Nat}
    {type props : Value} {children : List Value}
    (hheight : start.node.place.node.height ≤ start.levels) (hfirst : start.earlier = [])
    (hbuild : .build ⟨place, steps, false⟩ type props children ∈
      (start.run View.source host.regardless .endless).steps) :
    ∃ earlier, earlier <+: (start.run View.source host.regardless .endless).writes ∧
      host.build type props children =
        ((visit View.source host.regardless .endless place.node.height (.wrap place)).run
          earlier).outcome := by
  obtain ⟨v, hv, hnode, houtcome⟩ := exists_reached_of_build hbuild
  obtain ⟨earlier, hearlier, hprefix⟩ := hv.within.writes
  refine ⟨v.earlier, ?_, houtcome.symm.trans (hv.outcome_eq hheight hnode)⟩
  rw [hearlier, hfirst, List.nil_append]
  exact (List.prefix_append earlier _).trans hprefix

/-- **A part comes to the same by itself and within the whole.** Take any part of a document and
collaborators that do not look at the element, and convert without a limit. The part as it is opened
directly and as it is reached from the document come to the same, by the same calls. What the builder
gives for it while the whole is converted is what it comes to after what the conversion wrote before,
so it is the same again if nothing was written; and the builder is called for it, if the whole gives a
result and only elements lie on the way. Every view that is reached has the one it was taken from as
its parent, which is the same node as the parent of the view that is opened directly. -/
theorem convert_part (document : Markup) (host : Host Unit) {path : List Nat} {part : Place}
    (hpart : (Place.top document).follow? path = some part) :
    let whole := convert View.source host.regardless none (.wrap (.top document))
    let alone := convert View.source host.regardless none (.wrap part)
    let reached : View := ⟨part, path.length, false⟩
    (View.wrap (.top document)).follow? path = some reached ∧
    (convert View.source host.regardless none reached).forget = alone.forget ∧
    (∀ type props children, .build reached type props children ∈ whole.steps →
      (∃ earlier, earlier <+: whole.writes ∧ host.build type props children =
        ((visit View.source host.regardless .endless part.node.height (.wrap part)).run
          earlier).outcome) ∧
      (whole.writes = [] → host.build type props children = alone.outcome)) ∧
    (View.source.Opened (.wrap (.top document)) → (∃ value, whole.outcome = .ok value) →
      (∀ front p, front <+: path → front ≠ [] → (Place.top document).follow? front = some p →
        p.node.kind = .element) →
      ∃ type props children, .build reached type props children ∈ whole.steps) ∧
    ∀ child ∈ reached.children,
      child.parent = some reached ∧
      (∀ (s : NodeStore) (marks : List Nat) (node : Node),
        node ∈ s.source.children (.parsed reached marks) →
          s.source.parent node = some (.parsed reached marks)) ∧
      ∃ q, (View.wrap child.place).parent = some q ∧ q.place = reached.place ∧
        q.kind = reached.kind ∧ q.name = reached.name := by
  intro whole alone reached
  have hreached : (View.wrap (.top document)).follow? path = some reached := by
    have hsteps : (View.wrap (.top document)).steps + path.length = path.length := Nat.zero_add _
    rw [View.follow?_eq, show (View.wrap (.top document)).place = .top document from rfl, hpart,
      hsteps]
    rfl
  let start : Visit View := .first View.source none (.wrap (.top document))
  have hstart : start.run View.source host.regardless .endless = whole := rfl
  refine ⟨hreached, (View.alike_wrap part path.length).convert_eq host none, ?_, ?_, ?_⟩
  · intro type props children hbuild
    have hearlier := @exists_earlier_of_build host start part path.length _ _ _ (Nat.le_refl _) rfl hbuild
    obtain ⟨earlier, hbefore, hgives⟩ := hearlier
    refine ⟨⟨earlier, hbefore, hgives⟩, fun hquiet => ?_⟩
    rw [hstart, hquiet, List.prefix_nil] at hbefore
    rw [hbefore] at hgives
    exact hgives
  · intro ho hok helements
    have hkinds : ∀ front u, front <+: path → front ≠ [] →
        (View.wrap (.top document)).follow? front = some u → u.kind = .element := by
      intro front u hfront hne hu
      rw [View.follow?_eq] at hu
      obtain ⟨p, hp, rfl⟩ := Option.map_eq_some_iff.mp hu
      exact helements front p hfront hne hp
    rw [← hstart] at hok
    obtain ⟨v, hv, hnode, hopened, value, hvalue⟩ := exists_reached_of_follow ho hok hreached hkinds
    obtain ⟨type, props, children, hbuild⟩ := exists_build_of_ok hopened hvalue
    exact ⟨type, props, children, hv.within.steps (hnode ▸ hbuild)⟩
  · intro child hchild
    refine ⟨View.parent_of_mem_children hchild, fun s marks node hnode => ?_,
      View.exists_parent_wrap rfl hchild⟩
    obtain ⟨c, hc, rfl⟩ := List.mem_map.mp hnode
    show c.parent.map _ = _
    rw [View.parent_of_mem_children hc]
    rfl

/-- A document in which a card sets an entry of what its first slot holds, and a paragraph follows. -/
def sharingDocument : Markup :=
  .document [
    .element "x-card" [] [.element "x" [("slot", .str "a")] [], .element "y" [("slot", .str "a.k")] []],
    .element "p" [] [.element "x" [] []]]

def sharingParagraph : Place := ⟨.element "p" [] [.element "x" [] []], [sharingDocument]⟩

/-- Collaborators that give one and the same map for every `x`. -/
def sharingHost : Host Unit where
  build
    | .str "x", _, _ => .ok (.dict (some 0) [])
    | .str "y", _, _ => .ok (.int 5)
    | type, props, children => describeElement type props children
  fragment := .fragment
  component tag := .ok (if tag = "x-card" then .component ⟨0, "Card", none, false⟩ else .null)
  props := some (standardStrategy {} .strict)

/-- A map that is shared with an earlier part of the document shows in the paragraph what was written
there, and by itself the paragraph shows the map as it was. -/
theorem sharingParagraph_differs :
    let whole := convert View.source sharingHost.regardless none (.wrap (.top sharingDocument))
    let alone := convert View.source sharingHost.regardless none (.wrap sharingParagraph)
    (Place.top sharingDocument).follow? [1] = some sharingParagraph ∧
      (∃ type props children,
        .build ⟨sharingParagraph, 1, false⟩ type props children ∈ whole.steps ∧
        (sharingHost.build type props children).map (·.afterAll whole.writes) =
          .ok (.element (.str "p") [] [.dict (some 0) [(.str "k", .int 5)]])) ∧
      alone.settled = .ok (.element (.str "p") [] [.dict (some 0) []]) := by
  intro whole alone
  refine ⟨rfl, ⟨.str "p", .dict none [], [.dict (some 0) [(.str "k", .int 5)]], ?_, ?_⟩, ?_⟩
  · have hstep : whole.steps.reverse[1]? = some (.build ⟨sharingParagraph, 1, false⟩ (.str "p")
        (.dict none []) [.dict (some 0) [(.str "k", .int 5)]]) := by with_unfolding_all rfl
    exact List.mem_reverse.mp (List.mem_of_getElem? hstep)
  · with_unfolding_all rfl
  · with_unfolding_all rfl

/-- The title of a card in a document. -/
def titlePlace : Place :=
  ⟨.element "b" [("slot", .str "title")] [.text "Hello"], [titledCard, .document [titledCard]]⟩

def plainCards : Host Unit :=
  (Converter.plain [("x-card", .component ⟨0, "Card", none, false⟩)] none).host

theorem convert_part_titlePlace :
    (Place.top (.document [titledCard])).follow? [0, 0] = some titlePlace ∧
      ∃ type props children,
        .build ⟨titlePlace, 2, false⟩ type props children ∈
          (convert View.source plainCards.regardless none
            (.wrap (.top (.document [titledCard])))).steps ∧
        plainCards.build type props children =
          (convert View.source plainCards.regardless none (.wrap titlePlace)).outcome ∧
        (convert View.source plainCards.regardless none (.wrap titlePlace)).outcome =
          .ok (.element (.str "b") [] [.str "Hello"]) := by
  have hpart : (Place.top (.document [titledCard])).follow? [0, 0] = some titlePlace := rfl
  obtain ⟨-, -, hgives, hcalled, -⟩ := convert_part (.document [titledCard]) plainCards hpart
  have helements : ∀ front p, front <+: [0, 0] → front ≠ [] →
      (Place.top (.document [titledCard])).follow? front = some p → p.node.kind = .element := by
    intro front p hfront hne hp
    rcases List.prefix_cons_iff.mp hfront with rfl | ⟨rest, rfl, hrest⟩
    · exact absurd rfl hne
    · rcases List.prefix_cons_iff.mp hrest with rfl | ⟨last, rfl, hlast⟩
      · exact Option.some.inj hp ▸ rfl
      · cases List.prefix_nil.mp hlast
        exact Option.some.inj hp ▸ rfl
  obtain ⟨type, props, children, hbuild⟩ := hcalled (.inr rfl) ⟨_, rfl⟩ helements
  exact ⟨hpart, type, props, children, hbuild, (hgives _ _ _ hbuild).2 rfl, rfl⟩

end Parts

end ComponentTree
