import ComponentTree.Proofs.Conversion.Kept
import ComponentTree.Proofs.Source.Interchange

/-!
# The first failure of a conversion

What a conversion is to do, and in which order, is told by the tree alone. `schedule` lists it as
*stages*: each node is entered before its children and left after them, and only the collaborators
decide how a stage ends.

A run *accords* with a schedule if its steps carry out the stages one after the other, either all of
them, or those up to the first that fails, with whose fault the run then ends (`Run.Accords`). Courses
in a row accord with their schedules in a row, whatever the first of them gives
(`Course.CarriesOut.bind`), so each part of a visit can be followed by itself.
-/

namespace ComponentTree

variable {ν α β : Type}

/-! ## Stages -/

/-- What is to be done for a node. -/
inductive Stage (ν : Type) where
  /-- Its depth is checked. -/
  | enter (node : ν) (depth : Nat)
  /-- A tag is looked up: its own, or that of its parent. -/
  | lookup (node : ν) (tag : String)
  | props (node : ν)
  | build (node : ν)

/-- The check of a depth. -/
def checkDepth (limit : Option Int) (depth : Nat) : Except Fault Unit :=
  match limit with
  | some limit => if limit < depth then .error (.tooDeep limit) else .ok ()
  | none => .ok ()

/-- How a stage ends that a step carries out: as the check of the depth or the call of the collaborator
does. -/
inductive Stage.Ends (host : Host ν) (limit : Option Int) :
    Stage ν → Step ν → Except Fault Unit → Prop
  | enter {node : ν} {depth : Nat} :
      Ends host limit (.enter node depth) (.enter node) (checkDepth limit depth)
  | lookup {node : ν} {tag : String} :
      Ends host limit (.lookup node tag) (.lookup node tag)
        ((host.component tag).map fun _ => ())
  | props {node : ν} {strategy : PropsStrategy ν} {call : PropsCall ν} :
      host.props = some strategy → call.context.element = node →
      Ends host limit (.props node) (.props call)
        ((strategy.make call.attributes call.slots call.context).map fun _ => ())
  | build {node : ν} {type props : Value} {children : List Value} :
      Ends host limit (.build node) (.build node type props children)
        ((host.build type props children).map fun _ => ())

/-- Steps carry out stages one by one, and none of them fails. -/
def Stage.AllPass (host : Host ν) (limit : Option Int) : List (Stage ν) → List (Step ν) → Prop :=
  List.Forall₂ fun stage step => stage.Ends host limit step (.ok ())

/-- How a stage ends is told by the step that carries it out. -/
theorem Stage.Ends.unique {host : Host ν} {limit : Option Int} {stage : Stage ν} {step : Step ν}
    {outcome outcome' : Except Fault Unit} (h : stage.Ends host limit step outcome)
    (h' : stage.Ends host limit step outcome') : outcome = outcome' := by
  cases h with
  | enter => cases h'; rfl
  | lookup => cases h'; rfl
  | build => cases h'; rfl
  | props hs _ =>
    cases h' with
    | props hs' _ =>
      cases hs.symm.trans hs'
      rfl

/-- Whether a step can end a run. Putting a result into a slot cannot, since slots are texts. -/
def Step.canFail : Step ν → Bool
  | .route .. => false
  | _ => true

/-- The steps that carry out stages. -/
def Run.checked (run : Run ν α) : List (Step ν) := run.steps.filter Step.canFail

/-- A run carries out a plan: all of it, or up to the first stage that fails, which gives the fault of
the run and is the last thing that it does. -/
inductive Run.Accords (host : Host ν) (limit : Option Int) (plan : List (Stage ν))
    (run : Run ν α) : Prop
  | finished {a : α} : run.outcome = .ok a → Stage.AllPass host limit plan run.checked →
      Accords host limit plan run
  | failed {fault : Fault} {before after : List (Stage ν)} {stage : Stage ν}
      {passed : List (Step ν)} {last : Step ν} :
      run.outcome = .error fault → plan = before ++ stage :: after →
      run.checked = passed ++ [last] → Stage.AllPass host limit before passed →
      stage.Ends host limit last (.error fault) → Accords host limit plan run

theorem Run.Accords.finished_iff {host : Host ν} {limit : Option Int} {plan : List (Stage ν)}
    {run : Run ν α} (h : run.Accords host limit plan) :
    (∃ a, run.outcome = .ok a) ↔ Stage.AllPass host limit plan run.checked := by
  cases h with
  | finished hok hpass => exact iff_of_true ⟨_, hok⟩ hpass
  | @failed fault before after stage passed last herror hplan hsteps hpass hends =>
    refine iff_of_false (fun ⟨a, hok⟩ => ?_) fun hall => ?_
    · rw [herror] at hok
      cases hok
    · -- then the last step would both pass and fail
      rw [hplan, hsteps] at hall
      have hlast := List.forall₂_drop before.length hall
      rw [List.drop_left, hpass.length_eq, List.drop_left] at hlast
      cases hlast with
      | cons hpassed _ => cases hends.unique hpassed

/-! ## Courses that carry out plans -/

namespace Course

variable {host : Host ν} {limit : Option Int} {plan rest : List (Stage ν)}

/-- The course carries out a plan, whatever was written before. -/
def CarriesOut (host : Host ν) (limit : Option Int) (plan : List (Stage ν)) (c : Course ν α) :
    Prop :=
  ∀ earlier, (c.run earlier).Accords host limit plan

/-- **Courses in a row carry out their plans in a row.** -/
theorem CarriesOut.bind {c : Course ν α} {f : α → Course ν β}
    (hc : c.CarriesOut host limit plan) (hf : ∀ a, (f a).CarriesOut host limit rest) :
    (c >>= f).CarriesOut host limit (plan ++ rest) := by
  intro earlier
  cases hc earlier with
  | @finished a hok hpass =>
    have hrun := run_bind_ok (f := f) hok
    have hchecked : ((c >>= f).run earlier).checked = (c.run earlier).checked ++
        ((f a).run (earlier ++ (c.run earlier).writes)).checked := by
      rw [hrun]
      exact List.filter_append ..
    cases hf a (earlier ++ (c.run earlier).writes) with
    | finished hok' hpass' =>
      refine .finished (by rw [hrun, hok']) ?_
      rw [hchecked]
      exact List.rel_append hpass hpass'
    | @failed fault before after stage passed last herror hplan hsteps hpass' hends =>
      -- the second course fails after all of the first one has passed
      have hbefore : plan ++ rest = (plan ++ before) ++ stage :: after := by
        rw [hplan, List.append_assoc]
      refine .failed (by rw [hrun, herror]) hbefore ?_ (List.rel_append hpass hpass') hends
      rw [hchecked, hsteps, List.append_assoc]
  | @failed fault before after stage passed last herror hplan hsteps hpass hends =>
    have hrun := run_bind_error (f := f) herror
    have hafter : plan ++ rest = before ++ stage :: (after ++ rest) := by
      rw [hplan, List.append_assoc, List.cons_append]
    refine .failed (by rw [hrun]) hafter ?_ hpass hends
    rw [← hsteps, hrun]
    rfl

theorem carriesOut_pure (a : α) : (pure a : Course ν α).CarriesOut host limit [] :=
  fun _ => .finished rfl .nil

theorem CarriesOut.forEach {f : α → Course ν β} {plan : α → List (Stage ν)} :
    ∀ {l : List α}, (∀ a ∈ l, (f a).CarriesOut host limit (plan a)) →
      (Course.forEach f l).CarriesOut host limit (l.flatMap plan)
  | [], _ => carriesOut_pure []
  | a :: l, h => by
    rw [forEach_cons, List.flatMap_cons]
    refine (h a List.mem_cons_self).bind fun b => ?_
    have hrest := CarriesOut.forEach (l := l) fun c hc => h c (List.mem_cons_of_mem a hc)
    simpa using hrest.bind fun bs => carriesOut_pure (b :: bs)

/-- A single step carries out a stage if it ends as the stage does. -/
theorem carriesOut_step {stage : Stage ν} {s : Step ν} {outcome : Except Fault α}
    (hs : s.canFail = true) (h : stage.Ends host limit s (outcome.map fun _ => ())) :
    (Course.step s outcome).CarriesOut host limit [stage] := by
  intro earlier
  have hchecked : ((Course.step s outcome).run earlier).checked = [s] := by
    rw [Run.checked, run_step]
    simp [hs]
  cases outcome with
  | ok a =>
    refine .finished rfl ?_
    rw [hchecked]
    exact .cons h .nil
  | error fault =>
    have hplan : [stage] = [] ++ stage :: [] := rfl
    exact .failed rfl hplan hchecked .nil h

end Course

/-! ## The schedule of a conversion -/

namespace Conversion

variable {source : Source ν} {host : Host ν} {limit : Option Int} {node : ν} {part : ν → Prop}
variable {levels : Nat}

/-- The element has a slot attribute that is not empty. -/
def listsSlot (source : Source ν) (node : ν) : Bool :=
  (source.attributeNames node).contains slotAttribute && (slotName? source node).isSome

/-- An element in a slot asks whether its parent is a component, if that is an element. -/
def askParent (source : Source ν) (node : ν) : List (Stage ν) :=
  if listsSlot source node then ((parentTag? source node).map (.lookup node)).toList else []

/-- What is to be done for a node at some depth, with a props strategy or without one, and for the
elements of so many levels from there on. -/
def schedule (source : Source ν) (strategy : Bool) : Nat → Nat → ν → List (Stage ν)
  | 0, _, _ => []
  | levels + 1, depth, node =>
    let below := (source.children node).flatMap fun child =>
      if source.kind child = .element then schedule source strategy levels (depth + 1) child else []
    .enter node depth ::
      match source.kind node with
      | .element =>
        .lookup node (tagOf source node) :: below ++ askParent source node ++
          (if strategy then [.props node] else []) ++ [.build node]
      | .fragment => below ++ [.build node]
      | _ => []

/-! ## The stages of one visit -/

theorem lookup_carriesOut (node : ν) (tag : String) :
    (lookup host node tag).CarriesOut host limit [.lookup node tag] :=
  Course.carriesOut_step rfl .lookup

theorem build_carriesOut (node : ν) (type props : Value) (children : List Value) :
    (build host node type props children).CarriesOut host limit [.build node] := by
  intro earlier
  let step := Course.step (.build node (type.afterAll earlier) (props.afterAll earlier)
    (children.map (·.afterAll earlier))) (host.build (type.afterAll earlier)
      (props.afterAll earlier) (children.map (·.afterAll earlier)))
  have hstep : step.CarriesOut host limit [.build node] := Course.carriesOut_step rfl .build
  exact hstep earlier

theorem elementProps_carriesOut (call : PropsCall ν) :
    (elementProps host call).CarriesOut host limit
      (if host.props.isSome then [.props call.context.element] else []) := by
  cases hs : host.props with
  | none =>
    rw [elementProps, hs]
    exact Course.carriesOut_pure _
  | some strategy =>
    intro earlier
    -- the call that is made has the values as the writes so far have left them
    have hends : (Stage.props call.context.element).Ends host limit (.props (call.afterAll earlier))
        ((strategy.make (call.afterAll earlier).attributes (call.afterAll earlier).slots
          (call.afterAll earlier).context).map fun _ => ()) :=
      @Stage.Ends.props ν host limit _ strategy (call.afterAll earlier) hs rfl
    have hrun : (elementProps host call).run earlier =
        ⟨strategy.make (call.afterAll earlier).attributes (call.afterAll earlier).slots
            (call.afterAll earlier).context, [.props (call.afterAll earlier)],
          strategy.writes (call.afterAll earlier).attributes (call.afterAll earlier).slots
            (call.afterAll earlier).context⟩ := by
      rw [elementProps, hs]
      rfl
    rw [Option.isSome_some, if_pos rfl, hrun]
    cases hmake : strategy.make (call.afterAll earlier).attributes (call.afterAll earlier).slots
        (call.afterAll earlier).context with
    | ok props =>
      rw [hmake] at hends
      exact .finished rfl (.cons hends .nil)
    | error fault =>
      rw [hmake] at hends
      have hplan : [Stage.props call.context.element] =
          [] ++ Stage.props call.context.element :: [] := rfl
      exact .failed rfl hplan rfl .nil hends

theorem assemble_carriesOut (source : Source ν) (node : ν) (gathered : Gathered) :
    (assemble source host node gathered).CarriesOut host limit
      ((if host.props.isSome then [.props node] else []) ++ [.build node]) := by
  let call : PropsCall ν := ⟨gathered.attributes, slotsOf gathered.placed,
    ⟨tagOf source node, gathered.component, node⟩⟩
  exact (elementProps_carriesOut call).bind fun _ => build_carriesOut _ _ _ _

/-- What stands under the slot attribute is truthy exactly if the element lists a slot. -/
theorem truthy_slot_iff {attributes : List (String × Value)} (hr : source.Readable part)
    (hp : part node) (he : source.kind node = .element)
    (h : attributesOf source node = .ok attributes) :
    ∃ text, (Assoc.get? slotAttribute attributes).getD .null = .ofString? text ∧
      (Value.ofString? text).truthy = listsSlot source node := by
  obtain ⟨text, htext⟩ := hr.attributeText hp slotAttribute
  have hslot := slotName?_of_text he htext
  by_cases hlisted : slotAttribute ∈ source.attributeNames node
  · obtain ⟨value, hvalue, hget⟩ := get?_attributesOf h hlisted
    obtain rfl : value = .ofString? text := Except.ok.inj (hvalue.symm.trans htext)
    refine ⟨text, by rw [hget]; rfl, ?_⟩
    rw [listsSlot, hslot, List.contains_iff_mem.mpr hlisted, Bool.true_and]
    cases text with
    | none => rfl
    | some name =>
      have htruthy : (Value.ofString? (some name)).truthy = ! name.isEmpty := rfl
      rw [htruthy]
      cases hname : name.isEmpty <;> simp [Option.filter, hname]
  · have hfree : (source.attributeNames node).contains slotAttribute = false := by
      simpa using hlisted
    refine ⟨none, by rw [get?_attributesOf_of_not_mem h hlisted]; rfl, ?_⟩
    rw [listsSlot, hfree]
    rfl

theorem passedAttributes_carriesOut {attributes : List (String × Value)} (hr : source.Readable part)
    (hp : part node) (he : source.kind node = .element)
    (h : attributesOf source node = .ok attributes) :
    (passedAttributes source host node attributes).CarriesOut host limit
      (askParent source node) := by
  obtain ⟨text, htext, htruthy⟩ := truthy_slot_iff hr hp he h
  rw [passedAttributes, htext, Course.current_ofString?, Course.pure_bind, htruthy, askParent]
  cases listsSlot source node with
  | false => exact Course.carriesOut_pure _
  | true =>
    rw [if_pos rfl, if_pos rfl, parentIsComponent_eq]
    cases parentTag? source node with
    | none => exact Course.carriesOut_pure _
    | some tag =>
      have hlookup := @lookup_carriesOut ν host limit node tag
      exact (hlookup.bind fun _ => Course.carriesOut_pure _).bind fun _ => Course.carriesOut_pure _

theorem gather_carriesOut {attributes : List (String × Value)} {beyond : Fault}
    {below : List (Stage ν)} (hr : source.Readable part) (hp : part node)
    (he : source.kind node = .element) (h : attributesOf source node = .ok attributes)
    (hbelow : ∀ owner, (placeChildren source host beyond levels owner
      (source.children node)).CarriesOut host limit below) :
    (gather source host beyond levels node).CarriesOut host limit
      (.lookup node (tagOf source node) :: (below ++ askParent source node)) := by
  have hcourse := (@lookup_carriesOut ν host limit node (tagOf source node)).bind
    fun component => (hbelow (some ⟨node, component⟩)).bind fun placements =>
      (passedAttributes_carriesOut hr hp he h).bind fun attributes =>
        Course.carriesOut_pure (Gathered.mk component attributes (placements.filterMap id))
  rw [gather, h]
  simpa using hcourse

/-- What is done for a child: for an element all that is scheduled, and nothing for any other
node. -/
theorem placeChild_carriesOut {convert : ν → Course ν Value} {plan : List (Stage ν)}
    (owner : Option (Owner ν))
    (hslot : ∃ text, source.attributeValue node slotAttribute = .ok (.ofString? text))
    (hconvert : source.kind node = .element → (convert node).CarriesOut host limit plan) :
    (placeChild source convert owner node).CarriesOut host limit
      (if source.kind node = .element then plan else []) := by
  by_cases he : source.kind node = .element
  · obtain ⟨text, hslot⟩ := hslot
    rw [placeChild_element he, hslot, Course.ofExcept_ok, Course.pure_bind, if_pos he]
    -- routing the result is no stage, and cannot fail
    have hsettle : ∀ value, (Course.current (.ofString? text) >>= fun slot =>
        settle owner node slot value).CarriesOut host limit [] := by
      intro value
      rw [Course.current_ofString?, Course.pure_bind]
      cases owner with
      | none => exact Course.carriesOut_pure _
      | some owner =>
        unfold settle
        dsimp only
        split
        · intro earlier
          cases text <;> exact .finished rfl .nil
        · exact Course.carriesOut_pure _
    simpa using (hconvert he).bind hsettle
  · rw [if_neg he]
    by_cases ht : source.kind node = .text
    · rw [placeChild_text ht]
      exact Course.carriesOut_pure _
    · rw [placeChild_other ht he]
      exact Course.carriesOut_pure _

/-! ## The stages of a conversion -/

/-- So many levels are left at a depth: those down to the limit, or without a limit, enough. -/
def LevelsLeft (source : Source ν) (limit : Option Int) (depth levels : Nat) (node : ν) : Prop :=
  match limit with
  | some limit => levels = (limit + 1).toNat - depth
  | none => source.EndsWithin levels node

theorem LevelsLeft.check_zero {depth : Nat} (h : LevelsLeft source limit depth 0 node) :
    checkDepth limit depth = .error (faultBeyond limit) := by
  cases limit with
  | none => exact h.elim
  | some m =>
    have hzero : 0 = (m + 1).toNat - depth := h
    rw [checkDepth, if_pos (by omega)]
    rfl

theorem LevelsLeft.check_succ {depth : Nat} (h : LevelsLeft source limit depth (levels + 1) node) :
    checkDepth limit depth = .ok () := by
  cases limit with
  | none => rfl
  | some m =>
    have hleft : levels + 1 = (m + 1).toNat - depth := h
    rw [checkDepth, if_neg (by omega)]

theorem LevelsLeft.below {depth : Nat} {child : ν}
    (h : LevelsLeft source limit depth (levels + 1) node) (hchild : source.Below node child) :
    LevelsLeft source limit (depth + 1) levels child := by
  cases limit with
  | none => exact h child hchild
  | some m =>
    have hleft : levels + 1 = (m + 1).toNat - depth := h
    show levels = (m + 1).toNat - (depth + 1)
    omega

theorem enter_carriesOut {depth : Nat} (h : LevelsLeft source limit depth (levels + 1) node) :
    (Course.step (.enter node) (.ok ()) : Course ν Unit).CarriesOut host limit
      [.enter node depth] := by
  apply Course.carriesOut_step rfl
  have hends : (Stage.enter node depth).Ends host limit (.enter node) (checkDepth limit depth) :=
    .enter
  rwa [h.check_succ] at hends

/-- **A visit carries out the schedule of its node.** The induction is on the levels of the tree; the
levels that the limit leaves may be fewer, and then a node is entered in vain. -/
theorem visit_carriesOut {height depth : Nat} (hr : source.Readable part) (hp : part node)
    (hfinite : source.EndsWithin height node) (hleft : LevelsLeft source limit depth levels node) :
    (visit source host (faultBeyond limit) levels node).CarriesOut host limit
      (schedule source host.props.isSome height depth node) := by
  induction height generalizing node depth levels with
  | zero => exact hfinite.elim
  | succ height ih =>
    cases levels with
    | zero =>
      intro earlier
      have hends : (Stage.enter node depth).Ends host limit (.enter node) (checkDepth limit depth) :=
        .enter
      rw [hleft.check_zero] at hends
      rw [schedule]
      exact .failed rfl (List.nil_append _).symm rfl .nil hends
    | succ levels =>
      have hchildren : ∀ owner, (placeChildren source host (faultBeyond limit) levels owner
          (source.children node)).CarriesOut host limit
          ((source.children node).flatMap fun child => if source.kind child = .element then
            schedule source host.props.isSome height (depth + 1) child else []) := by
        intro owner
        apply Course.CarriesOut.forEach
        intro child hchild
        have hpart := hr.children hp hchild
        apply placeChild_carriesOut owner (hr.attributeText hpart slotAttribute)
        intro he
        exact ih hpart (hfinite child ⟨hchild, he⟩) (hleft.below ⟨hchild, he⟩)
      by_cases he : source.kind node = .element
      · obtain ⟨attributes, hattributes⟩ := attributesOf_ok (hr.attributeText hp)
        have hgather := gather_carriesOut hr hp he hattributes hchildren
        have hvisit := (enter_carriesOut hleft).bind fun _ =>
          hgather.bind fun gathered => assemble_carriesOut source node gathered
        rw [visit_element he, schedule, he]
        simpa using hvisit
      · by_cases hf : source.kind node = .fragment
        · rw [visit_fragment hf, schedule, hf]
          exact (enter_carriesOut hleft).bind fun _ => (hchildren none).bind fun _ =>
            build_carriesOut _ _ _ _
        · rw [visit_other he hf, schedule]
          have hplan : Course.CarriesOut host limit [.enter node depth] _ :=
            (enter_carriesOut hleft).bind fun _ => Course.carriesOut_pure Value.null
          cases hk : source.kind node with
          | element => exact absurd hk he
          | fragment => exact absurd hk hf
          | _ => exact hplan

end Conversion

section FirstFailure

open Conversion

variable {source : Source ν} {part : ν → Prop} {root : ν}

/-- **The first failure ends a conversion, and nothing else does.** Whatever the collaborators do, and
under any limit, the conversion of a finite tree gives a result exactly if it carries out its whole
schedule and no stage fails. Otherwise it carries out the schedule up to the first stage that fails,
stops there, and ends with the very fault of that stage. -/
theorem convert_ends_with_first_failure (hr : source.Readable part) (hroot : part root)
    (hfinite : source.EndsWithin (source.levels root) root) (host : Host ν) (limit : Option Int) :
    let run := convert source host limit root
    let plan := schedule source host.props.isSome (source.levels root) 0 root
    ((∃ value, run.outcome = .ok value) ↔ Stage.AllPass host limit plan run.checked) ∧
      ∀ fault, run.outcome = .error fault → ∃ before stage after passed last,
        plan = before ++ stage :: after ∧ run.checked = passed ++ [last] ∧
        Stage.AllPass host limit before passed ∧ stage.Ends host limit last (.error fault) := by
  intro run plan
  have hleft : LevelsLeft source limit 0 (levelsWithin source limit root) root := by
    cases limit with
    | none => exact hfinite
    | some limit => rfl
  have haccords : run.Accords host limit plan := by
    rw [show run = _ from convert_eq_visit source host limit root]
    exact visit_carriesOut hr hroot hfinite hleft []
  refine ⟨haccords.finished_iff, fun fault hfault => ?_⟩
  cases haccords with
  | finished hok =>
    rw [hfault] at hok
    cases hok
  | @failed fault' before after stage passed last herror hplan hsteps hpass hends =>
    cases Except.error.inj (hfault.symm.trans herror)
    exact ⟨before, stage, after, passed, last, hplan, hsteps, hpass, hends⟩

/-- A card with two elements inside. -/
def pairCard : Markup :=
  .element "x-card" [] [.element "b" [("slot", .str "title")] [.text "Hello"], .element "i" [] []]

/-- Collaborators that refuse to build the first one, and do not know the tag of the second one. -/
def fussyHost : Host View where
  build
    | .str "b", _, _ => .error (.collaborator "no b is built")
    | type, props, children => describeElement type props children
  fragment := .fragment
  component tag := if tag = "i" then .error (.collaborator "i is unknown") else .ok (cardTypes tag)
  props := none

theorem convert_ends_with_first_failure_pairCard :
    (View.wrap (.top pairCard)).Readable ∧
      View.source.EndsWithin (View.source.levels (.wrap (.top pairCard))) (.wrap (.top pairCard)) ∧
      (convert View.source fussyHost none (.wrap (.top pairCard))).outcome =
        .error (.collaborator "no b is built") ∧
      ∃ before stage after passed last,
        schedule View.source false 3 0 (.wrap (.top pairCard)) = before ++ stage :: after ∧
        (convert View.source fussyHost none (.wrap (.top pairCard))).checked = passed ++ [last] ∧
        Stage.AllPass fussyHost none before passed ∧
        stage.Ends fussyHost none last (.error (.collaborator "no b is built")) := by
  have htextual : pairCard.Textual := by
    refine ⟨by simp, ⟨fun a ha => ?_, trivial, trivial⟩, ⟨by simp, trivial⟩, trivial⟩
    rw [List.mem_singleton.mp ha]
    exact ⟨some "title", rfl⟩
  have hreadable : (View.wrap (.top pairCard)).Readable := View.readable_of_textual htextual
  have hfinite := View.endsWithin_height (.wrap (.top pairCard))
  obtain ⟨-, hfails⟩ :=
    convert_ends_with_first_failure View.readable hreadable hfinite fussyHost none
  exact ⟨hreadable, hfinite, rfl, hfails _ rfl⟩

end FirstFailure

end ComponentTree
