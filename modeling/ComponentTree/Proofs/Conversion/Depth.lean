import ComponentTree.Proofs.Conversion.Visit
import Mathlib.Data.List.Chain
import Mathlib.Data.List.Nodup

/-!
# How deep a conversion goes

Only elements take a conversion one level down: `Source.Below a b` says that `b` is an element listed
among the children of `a`. `Source.EndsWithin k a` says that no way down from `a` takes `k` such
steps. It is said by recursion on `k` and not on a tree, because nodes may lie below themselves; a
walk of `k` steps is what refutes it (`not_endsWithin_iff`).

* `Conversion.visit_eq_of_suffices`: levels beyond those that are needed change nothing, and neither
  does the fault with which a visit would end without them.
* `Conversion.visit_of_suffices`, `Conversion.visit_of_not_suffices`: collaborators that never fail
  leave the depth as the only reason why a conversion can fail.
-/

namespace ComponentTree

variable {ν : Type}

namespace Source

variable {source : Source ν} {a b : ν} {k k' : Nat}

/-- One level down: to an element among the children. -/
def Below (source : Source ν) (a b : ν) : Prop :=
  b ∈ source.children a ∧ source.kind b = .element

/-- No way down takes `k` steps. -/
def EndsWithin (source : Source ν) : Nat → ν → Prop
  | 0, _ => False
  | k + 1, a => ∀ b, source.Below a b → source.EndsWithin k b

theorem EndsWithin.mono (h : source.EndsWithin k a) (hk : k ≤ k') : source.EndsWithin k' a := by
  induction k generalizing a k' with
  | zero => exact h.elim
  | succ k ih =>
    obtain ⟨j, rfl⟩ : ∃ j, k' = j + 1 := ⟨k' - 1, by omega⟩
    intro b hb
    exact ih (h b hb) (by omega)

/-- Where every step down lowers some height, no way down is longer than the height. -/
theorem endsWithin_of_height (part : ν → Prop) (height : ν → Nat)
    (hpos : ∀ {a}, part a → 0 < height a)
    (hdown : ∀ {a b}, part a → source.Below a b → part b ∧ height b < height a)
    (ha : part a) (hk : height a ≤ k) : source.EndsWithin k a := by
  induction k generalizing a with
  | zero => exact absurd (hpos ha) (Nat.not_lt.mpr hk)
  | succ k ih =>
    intro b hab
    obtain ⟨hb, hlt⟩ := hdown ha hab
    exact ih hb (by omega)

/-- If some levels suffice but `n` do not, then somewhere from `n` on one more makes the difference. -/
theorem EndsWithin.exists_need {n : Nat} (h : source.EndsWithin k a)
    (hn : ¬ source.EndsWithin n a) :
    ∃ j, n ≤ j ∧ source.EndsWithin (j + 1) a ∧ ¬ source.EndsWithin j a := by
  induction k with
  | zero => exact h.elim
  | succ k ih =>
    by_cases hk : source.EndsWithin k a
    · exact ih hk
    · refine ⟨k, ?_, h, hk⟩
      by_contra hlt
      exact hn (h.mono (by omega))

/-- A way down either ends or is a walk with one element after the other. -/
theorem not_endsWithin_iff :
    ¬ source.EndsWithin k a ↔
      ∃ walk : List ν, walk.length = k ∧ (a :: walk).IsChain source.Below := by
  induction k generalizing a with
  | zero =>
    refine ⟨fun _ => ⟨[], rfl, List.isChain_singleton a⟩, fun _ h => h⟩
  | succ k ih =>
    constructor
    · intro h
      obtain ⟨b, hb⟩ := not_forall.mp h
      obtain ⟨hab, hnb⟩ := Classical.not_imp.mp hb
      obtain ⟨walk, rfl, hchain⟩ := ih.mp hnb
      exact ⟨b :: walk, rfl, List.isChain_cons_cons.mpr ⟨hab, hchain⟩⟩
    · rintro ⟨walk, hlen, hchain⟩ h
      cases walk with
      | nil => cases hlen
      | cons b walk =>
        obtain ⟨hab, hchain⟩ := List.isChain_cons_cons.mp hchain
        exact ih.mpr ⟨walk, Nat.succ.inj hlen, hchain⟩ (h b hab)

/-- From a node that needs exactly `base + k + 1` levels there is a walk of `k` steps on which the
need falls by one at each step. So no node comes twice on it, and none needs `base` levels only. -/
theorem exists_nodup_walk {base : Nat} (h : source.EndsWithin (base + k + 1) a)
    (hn : ¬ source.EndsWithin (base + k) a) :
    ∃ walk : List ν, walk.length = k ∧ (a :: walk).IsChain source.Below ∧ (a :: walk).Nodup ∧
      (∀ b ∈ a :: walk, ¬ source.EndsWithin base b) ∧
      ∀ b ∈ a :: walk, source.EndsWithin (base + k + 1) b := by
  induction k generalizing a with
  | zero =>
    exact ⟨[], rfl, List.isChain_singleton a, List.nodup_singleton a, by simpa using hn,
      by simpa using h⟩
  | succ k ih =>
    obtain ⟨b, hb⟩ := not_forall.mp hn
    obtain ⟨hab, hnb⟩ := Classical.not_imp.mp hb
    obtain ⟨walk, rfl, hchain, hnd, hbase, hends⟩ := ih (h b hab) hnb
    -- `a` needs more levels than any node of the walk below it, so it is none of them
    refine ⟨b :: walk, rfl, List.isChain_cons_cons.mpr ⟨hab, hchain⟩,
      List.nodup_cons.mpr ⟨fun hm => hn (hends a hm), hnd⟩, ?_, ?_⟩
    · intro c hc
      rcases List.mem_cons.mp hc with rfl | hc
      · exact fun hb => hn (hb.mono (by omega))
      · exact hbase c hc
    · intro c hc
      rcases List.mem_cons.mp hc with rfl | hc
      · exact h
      · exact (hends c hc).mono (by omega)

/-- The nodes that a conversion goes into. -/
def Opened (source : Source ν) (a : ν) : Prop :=
  source.kind a = .element ∨ source.kind a = .fragment

/-- So many levels are enough to convert a node: one for itself, and the others for the way down if
it is opened. -/
def Suffices (source : Source ν) (levels : Nat) (a : ν) : Prop :=
  1 ≤ levels ∧ (source.Opened a → source.EndsWithin levels a)

theorem not_suffices_iff :
    ¬ source.Suffices (k + 1) a ↔
      source.Opened a ∧
        ∃ walk : List ν, walk.length = k + 1 ∧ (a :: walk).IsChain source.Below := by
  rw [← not_endsWithin_iff, ← Classical.not_imp]
  exact not_congr (and_iff_right (Nat.le_add_left ..))

theorem Suffices.mono (h : source.Suffices k a) (hk : k ≤ k') : source.Suffices k' a :=
  ⟨Nat.le_trans h.1 hk, fun ho => (h.2 ho).mono hk⟩

end Source

namespace Conversion

variable {source : Source ν} {host : Host ν} {beyond : Fault} {levels : Nat} {node : ν}

/-! ## Levels that are not needed -/

theorem placeChild_congr {convert convert' : ν → Course ν Value} {owner : Option (Owner ν)}
    (h : source.kind node = .element → convert node = convert' node) :
    placeChild source convert owner node = placeChild source convert' owner node := by
  by_cases ht : source.kind node = .text
  · rw [placeChild_text ht, placeChild_text ht]
  · by_cases he : source.kind node = .element
    · rw [placeChild_element he, placeChild_element he, h he]
    · rw [placeChild_other ht he, placeChild_other ht he]

theorem visit_eq_of_endsWithin {more : Nat} (beyond' : Fault)
    (h : source.EndsWithin levels node) (hle : levels ≤ more) :
    visit source host beyond' more node = visit source host beyond levels node := by
  induction levels generalizing node more with
  | zero => exact h.elim
  | succ levels ih =>
    obtain ⟨m, rfl⟩ : ∃ m, more = m + 1 := ⟨more - 1, by omega⟩
    have hplace : ∀ owner,
        placeChildren source host beyond' m owner (source.children node) =
          placeChildren source host beyond levels owner (source.children node) := by
      intro owner
      refine Course.forEach_congr fun child hc => placeChild_congr fun he => ?_
      exact ih (h child ⟨hc, he⟩) (by omega)
    by_cases he : source.kind node = .element
    · rw [visit_element he, visit_element he]
      simp only [gather, hplace]
    · by_cases hf : source.kind node = .fragment
      · rw [visit_fragment hf, visit_fragment hf, hplace]
      · rw [visit_other he hf, visit_other he hf]

/-- **Any levels that suffice give the same visit**, whatever fault lies beyond them. -/
theorem visit_eq_of_suffices {levels' : Nat} (beyond' : Fault) (h : source.Suffices levels node)
    (h' : source.Suffices levels' node) :
    visit source host beyond levels node = visit source host beyond' levels' node := by
  by_cases ho : source.Opened node
  · -- whichever are more, those beyond the smaller number are not needed
    rcases Nat.le_total levels levels' with hle | hle
    · exact (visit_eq_of_endsWithin beyond' (h.2 ho) hle).symm
    · exact visit_eq_of_endsWithin beyond (h'.2 ho) hle
  · have he := fun he => ho (.inl he)
    have hf := fun hf => ho (.inr hf)
    obtain ⟨j, rfl⟩ := Nat.exists_eq_add_of_le' h.1
    obtain ⟨j', rfl⟩ := Nat.exists_eq_add_of_le' h'.1
    rw [visit_other he hf, visit_other he hf]

end Conversion

/-! ## Collaborators that never fail -/

/-- Slots as a conversion fills them, each under a text. -/
def TextKeys (slots : Entries) : Prop := ∀ entry ∈ slots, ∃ name, entry.1 = .str name

/-- A call of the props strategy that a conversion can make: the attributes are texts, or absent, the
slots have texts as names, and what is told to be registered for the tag is registered for it. -/
structure PropsCall.Possible (call : PropsCall ν) (host : Host ν) : Prop where
  attributes : Texts call.attributes
  slots : TextKeys call.slots
  component : host.component call.context.tag = .ok call.context.component

theorem TextKeys.afterAll {slots : Entries} (h : TextKeys slots) (earlier : List Write) :
    TextKeys (Value.entriesAfterAll earlier slots) := by
  intro entry hentry
  have hkey : entry.1 ∈ slots.map Prod.fst := by
    rw [← Value.keys_entriesAfterAll earlier slots]
    exact List.mem_map_of_mem hentry
  obtain ⟨entry', hentry', heq⟩ := List.mem_map.mp hkey
  rw [← heq]
  exact h entry' hentry'

theorem Texts.afterAll {attributes : List (String × Value)} (h : Texts attributes)
    (earlier : List Write) :
    Texts (attributes.map fun (name, value) => (name, value.afterAll earlier)) := by
  intro pair hpair
  obtain ⟨⟨name, value⟩, hpair', rfl⟩ := List.mem_map.mp hpair
  obtain ⟨text, rfl⟩ := h _ hpair'
  exact ⟨text, Value.afterAll_ofString? ..⟩

theorem PropsCall.Possible.afterAll {call : PropsCall ν} {host : Host ν} (h : call.Possible host)
    (earlier : List Write) : (call.afterAll earlier).Possible host :=
  ⟨h.attributes.afterAll earlier, h.slots.afterAll earlier, h.component⟩

/-- The props that a conversion can come to: merged ones and those of the strategy, also as a later
write leaves them. -/
inductive Host.Makes (host : Host ν) : Value → Prop
  | merged {attributes : List (String × Value)} {slots : Entries} :
      Texts attributes → TextKeys slots → host.Makes (Conversion.mergedProps attributes slots)
  | strategy {strategy : PropsStrategy ν} {call : PropsCall ν} {props : Value} :
      host.props = some strategy → call.Possible host →
      strategy.make call.attributes call.slots call.context = .ok props → host.Makes props
  | after {props : Value} (w : Write) : host.Makes props → host.Makes (props.after w)

theorem Host.Makes.afterAll {host : Host ν} {props : Value} (h : host.Makes props)
    (writes : List Write) : host.Makes (props.afterAll writes) := by
  induction writes generalizing props with
  | nil => exact h
  | cons w writes ih => exact ih (h.after w)

/-- Collaborators of which no call fails that a conversion can make. -/
structure Host.NeverFails (host : Host ν) : Prop where
  component : ∀ tag, ∃ value, host.component tag = .ok value
  props : ∀ strategy, host.props = some strategy → ∀ call : PropsCall ν, call.Possible host →
    ∃ value, strategy.make call.attributes call.slots call.context = .ok value
  build : ∀ type props children, host.Makes props →
    ∃ value, host.build type props children = .ok value

/-- A part of a source that is closed under children and in which every attribute is a text, or
absent. -/
structure Source.Readable (source : Source ν) (part : ν → Prop) : Prop where
  children : ∀ {a b}, part a → b ∈ source.children a → part b
  attributeText : ∀ {a}, part a → ∀ name,
    ∃ text, source.attributeValue a name = .ok (.ofString? text)

namespace Conversion

variable {source : Source ν} {host : Host ν} {beyond : Fault} {levels : Nat} {node : ν}

theorem step_succeeds {α : Type} {step : Step ν} {outcome : Except Fault α}
    (h : ∃ a, outcome = .ok a) : (Course.step step outcome).Succeeds := fun _ => h

theorem settle_succeeds (owner : Option (Owner ν)) (text : Option String) (value : Value) :
    (settle owner node (.ofString? text) value).Succeeds := by
  cases owner with
  | none => exact Course.succeeds_pure _
  | some owner =>
    unfold settle
    dsimp only
    split
    · cases text <;> exact step_succeeds ⟨_, rfl⟩
    · exact Course.succeeds_pure _

theorem attributesOf_ok (h : ∀ name, ∃ text, source.attributeValue node name = .ok (.ofString? text)) :
    ∃ attributes, attributesOf source node = .ok attributes := by
  choose text htext using h
  let pairs := (source.attributeNames node).map fun name => (name, Value.ofString? (text name))
  have hnames : source.attributeNames node = pairs.map Prod.fst := by
    rw [List.map_map]
    exact (List.map_id _).symm
  refine ⟨_, attributesOf_of_pairs hnames fun p hp => ?_⟩
  obtain ⟨name, -, rfl⟩ := List.mem_map.mp hp
  exact htext name

theorem passedAttributes_succeeds (hh : host.NeverFails) (attributes : List (String × Value)) :
    (passedAttributes source host node attributes).Succeeds := by
  unfold passedAttributes
  refine Course.Succeeds.bind (fun _ => ⟨_, rfl⟩) fun slot => ?_
  split
  · refine Course.Succeeds.bind ?_ fun _ => Course.succeeds_pure _
    rw [parentIsComponent_eq]
    cases parentTag? source node with
    | none => exact Course.succeeds_pure _
    | some tag =>
      exact (step_succeeds (hh.component tag)).bind fun _ => Course.succeeds_pure _
  · exact Course.succeeds_pure _

/-! ## What an element brings -/

theorem texts_attributesOf {part : ν → Prop} (hr : source.Readable part) (hp : part node)
    (h : attributesOf source node = .ok attributes) : Texts attributes := by
  obtain ⟨pairs, rfl, -, hvalues⟩ := exists_pairs_of_attributesOf h
  intro pair hpair
  obtain ⟨text, htext⟩ := hr.attributeText hp pair.1
  exact ⟨text, Except.ok.inj ((hvalues pair (Assoc.mem_ofPairs hpair)).symm.trans htext)⟩

/-- Of what an element brings, the attributes are texts and the slots have texts as names. -/
structure Gathered.Regular (host : Host ν) (tag : String) (gathered : Gathered) : Prop where
  component : host.component tag = .ok gathered.component
  attributes : Texts gathered.attributes
  slots : TextKeys (slotsOf gathered.placed)

theorem exists_slot_of_mem_slotsOf {placed : List Placement} {entry : Value × Value}
    (h : entry ∈ slotsOf placed) : ∃ value, .slot entry.1 value ∈ placed := by
  obtain ⟨pair, hpair, heq⟩ := List.mem_map.mp (Assoc.mem_keys_of_mem_ofPairs (List.mem_map_of_mem h))
  obtain ⟨placement, hplacement, hsome⟩ := List.mem_filterMap.mp hpair
  cases placement with
  | slot name value =>
    cases hsome
    exact ⟨value, heq ▸ hplacement⟩
  | child value => cases hsome

/-- A child whose attributes are texts is put into a slot under a text. -/
theorem exists_str_of_placeChild {convert : ν → Course ν Value} {owner : Option (Owner ν)}
    {name value : Value} {earlier : List Write}
    (ha : ∃ text, source.attributeValue node slotAttribute = .ok (.ofString? text))
    (h : ((placeChild source convert owner node).run earlier).outcome = .ok (some (.slot name value))) :
    ∃ text, name = .str text := by
  by_cases ht : source.kind node = .text
  · rw [placeChild_text ht] at h
    exact absurd (Except.ok.inj h) positional_ne_slot
  · by_cases he : source.kind node = .element
    · obtain ⟨text, ha⟩ := ha
      rw [placeChild_element he, ha, Course.ofExcept_ok, Course.pure_bind] at h
      obtain ⟨given, -, h⟩ := Course.outcome_bind_ok h
      rw [Course.current_ofString?, Course.pure_bind] at h
      -- only an owner takes slots, and only under what names one
      cases owner with
      | none => exact absurd (Except.ok.inj h) positional_ne_slot
      | some owner =>
        unfold settle at h
        dsimp only at h
        split at h
        · cases text with
          | none =>
            next hcond => simp [Value.ofString?, Value.truthy] at hcond
          | some text =>
            cases h
            exact ⟨text, rfl⟩
        · exact absurd (Except.ok.inj h) positional_ne_slot
    · rw [placeChild_other ht he] at h
      cases h

theorem textKeys_of_placeChildren {owner : Option (Owner ν)} {children : List ν}
    {placements : List (Option Placement)} {earlier : List Write}
    (ha : ∀ child ∈ children,
      ∃ text, source.attributeValue child slotAttribute = .ok (.ofString? text))
    (h : ((placeChildren source host beyond levels owner children).run earlier).outcome =
      .ok placements) :
    TextKeys (slotsOf (placements.filterMap id)) := by
  intro entry hentry
  obtain ⟨value, hvalue⟩ := exists_slot_of_mem_slotsOf hentry
  obtain ⟨placement, hplacement, hsome⟩ := List.mem_filterMap.mp hvalue
  obtain rfl : placement = some (.slot entry.1 value) := hsome
  obtain ⟨child, hchild, _, hplaced⟩ := Course.exists_of_mem_forEach h hplacement
  exact exists_str_of_placeChild (ha child hchild) hplaced

theorem regular_of_gather {part : ν → Prop} {gathered : Gathered} {earlier : List Write}
    (hr : source.Readable part) (hp : part node)
    (h : ((gather source host beyond levels node).run earlier).outcome = .ok gathered) :
    gathered.Regular host (tagOf source node) := by
  obtain ⟨component, hcomponent, h⟩ := Course.outcome_bind_ok h
  obtain ⟨attributes, hattributes, h⟩ := Course.outcome_bind_ok h
  obtain ⟨placements, hplacements, h⟩ := Course.outcome_bind_ok h
  obtain ⟨passed, hpassed, h⟩ := Course.outcome_bind_ok h
  cases h
  refine ⟨hcomponent, fun pair hpair => ?_, ?_⟩
  · exact texts_attributesOf hr hp hattributes pair ((passedAttributes_sublist hpassed).subset hpair)
  · exact textKeys_of_placeChildren
      (fun child hchild => hr.attributeText (hr.children hp hchild) slotAttribute) hplacements

/-! ## Making the descriptor -/

theorem elementProps_makes (hh : host.NeverFails) {call : PropsCall ν} (hcall : call.Possible host)
    (earlier : List Write) :
    ∃ props, ((elementProps host call).run earlier).outcome = .ok props ∧ host.Makes props := by
  unfold elementProps
  cases h : host.props with
  | none => exact ⟨_, rfl, .merged hcall.attributes hcall.slots⟩
  | some strategy =>
    have hpossible := hcall.afterAll earlier
    obtain ⟨props, hprops⟩ := hh.props strategy h _ hpossible
    exact ⟨props, hprops, .strategy h hpossible hprops⟩

theorem build_succeeds (hh : host.NeverFails) {type props : Value} {children : List Value}
    (hprops : host.Makes props) : (build host node type props children).Succeeds :=
  fun earlier => hh.build _ _ _ (hprops.afterAll earlier)

theorem assemble_succeeds (hh : host.NeverFails) {gathered : Gathered}
    (hregular : gathered.Regular host (tagOf source node)) :
    (assemble source host node gathered).Succeeds := by
  have hcall : PropsCall.Possible ⟨gathered.attributes, slotsOf gathered.placed,
      ⟨tagOf source node, gathered.component, node⟩⟩ host :=
    ⟨hregular.attributes, hregular.slots, hregular.component⟩
  exact Course.Succeeds.bind_of (elementProps_makes hh hcall) fun _ hmakes => build_succeeds hh hmakes

theorem assembleFragment_succeeds (hh : host.NeverFails) {placements : List (Option Placement)}
    (hslots : TextKeys (slotsOf (placements.filterMap id))) :
    (assembleFragment host node placements).Succeeds :=
  build_succeeds hh (.merged (by simp [Texts]) hslots)

/-! ## The course of a visit -/

theorem placeChild_succeeds {convert : ν → Course ν Value} (owner : Option (Owner ν))
    (ha : ∃ text, source.attributeValue node slotAttribute = .ok (.ofString? text))
    (hc : source.kind node = .element → (convert node).Succeeds) :
    (placeChild source convert owner node).Succeeds := by
  by_cases ht : source.kind node = .text
  · rw [placeChild_text ht]
    exact Course.succeeds_pure _
  · by_cases he : source.kind node = .element
    · obtain ⟨text, ha⟩ := ha
      rw [placeChild_element he, ha, Course.ofExcept_ok, Course.pure_bind]
      refine (hc he).bind fun value => ?_
      rw [Course.current_ofString?, Course.pure_bind]
      exact settle_succeeds owner text value
    · rw [placeChild_other ht he]
      exact Course.succeeds_pure _

theorem placeChild_fails {convert : ν → Course ν Value} (owner : Option (Owner ν))
    (ha : ∃ text, source.attributeValue node slotAttribute = .ok (.ofString? text))
    (he : source.kind node = .element) (hc : (convert node).Fails beyond) :
    (placeChild source convert owner node).Fails beyond := by
  obtain ⟨text, ha⟩ := ha
  rw [placeChild_element he, ha, Course.ofExcept_ok, Course.pure_bind]
  exact hc.bind _

/-- A visit in which the children can be placed succeeds. -/
theorem visit_succeeds {part : ν → Prop} (hh : host.NeverFails) (hr : source.Readable part)
    (hp : part node)
    (hplace : ∀ owner,
      (placeChildren source host beyond levels owner (source.children node)).Succeeds) :
    (visit source host beyond (levels + 1) node).Succeeds := by
  have henter : (Course.step (.enter node) (.ok ()) : Course ν Unit).Succeeds := step_succeeds ⟨(), rfl⟩
  by_cases he : source.kind node = .element
  · obtain ⟨attributes, hattributes⟩ := attributesOf_ok (hr.attributeText hp)
    have hgather : (gather source host beyond levels node).Succeeds := by
      rw [gather, hattributes]
      refine (step_succeeds (hh.component _)).bind fun component => ?_
      exact (Course.succeeds_pure _).bind fun _ => (hplace _).bind fun _ =>
        (passedAttributes_succeeds hh _).bind fun _ => Course.succeeds_pure _
    rw [visit_element he]
    exact henter.bind fun _ => hgather.bind_of_ok fun gathered _ hok =>
      assemble_succeeds hh (regular_of_gather hr hp hok)
  · by_cases hf : source.kind node = .fragment
    · rw [visit_fragment hf]
      exact henter.bind fun _ => (hplace none).bind_of_ok fun placements _ hok =>
        assembleFragment_succeeds hh (textKeys_of_placeChildren
          (fun child hchild => hr.attributeText (hr.children hp hchild) slotAttribute) hok)
    · rw [visit_other he hf]
      exact henter.bind fun _ => Course.succeeds_pure _

/-- A visit in which the children are placed at all fails with them. -/
theorem visit_fails {part : ν → Prop} (hh : host.NeverFails) (hr : source.Readable part)
    (hp : part node) (ho : source.Opened node)
    (hplace : ∀ owner,
      (placeChildren source host beyond levels owner (source.children node)).Fails beyond) :
    (visit source host beyond (levels + 1) node).Fails beyond := by
  have henter : (Course.step (.enter node) (.ok ()) : Course ν Unit).Succeeds := step_succeeds ⟨(), rfl⟩
  rcases ho with he | hf
  · obtain ⟨attributes, hattributes⟩ := attributesOf_ok (hr.attributeText hp)
    rw [visit_element he]
    refine henter.bind_fails fun _ => Course.Fails.bind ?_ _
    rw [gather, hattributes]
    refine (step_succeeds (hh.component _)).bind_fails fun component => ?_
    exact (Course.succeeds_pure _).bind_fails fun _ => (hplace _).bind _
  · rw [visit_fragment hf]
    exact henter.bind_fails fun _ => (hplace none).bind _

/-- The two halves need each other: a child that fails ends the loop only if those before it
succeed. -/
theorem visit_settles {part : ν → Prop} (hh : host.NeverFails) (hr : source.Readable part)
    (hp : part node) :
    (source.EndsWithin levels node → (visit source host beyond levels node).Succeeds) ∧
      (¬ source.EndsWithin levels node →
        source.Opened node → (visit source host beyond levels node).Fails beyond) := by
  induction levels generalizing node with
  | zero => exact ⟨fun h => h.elim, fun _ _ _ => rfl⟩
  | succ levels ih =>
    have hattr : ∀ child ∈ source.children node,
        ∃ text, source.attributeValue child slotAttribute = .ok (.ofString? text) :=
      fun child hc => hr.attributeText (hr.children hp hc) slotAttribute
    have hsucc : ∀ owner, ∀ child ∈ source.children node,
        (source.kind child = .element → source.EndsWithin levels child) →
        (placeChild source (visit source host beyond levels) owner child).Succeeds :=
      fun owner child hc hends => placeChild_succeeds owner (hattr child hc) fun he =>
        (ih (hr.children hp hc)).1 (hends he)
    have hfail : ∀ owner, ∀ child ∈ source.children node,
        source.kind child = .element → ¬ source.EndsWithin levels child →
        (placeChild source (visit source host beyond levels) owner child).Fails beyond :=
      fun owner child hc he hends =>
        placeChild_fails owner (hattr child hc) he ((ih (hr.children hp hc)).2 hends (.inl he))
    constructor
    · intro hends
      exact visit_succeeds hh hr hp fun owner => Course.forEach_succeeds fun child hc =>
        hsucc owner child hc fun he => hends child ⟨hc, he⟩
    · intro hends ho
      refine visit_fails hh hr hp ho fun owner => ?_
      obtain ⟨child, hchild⟩ := not_forall.mp hends
      obtain ⟨⟨hc, he⟩, hn⟩ := Classical.not_imp.mp hchild
      refine Course.forEach_fails (fun other ho => ?_) ⟨child, hc, hfail owner child hc he hn⟩
      -- every child either succeeds or fails with the same fault, so the first that fails decides
      by_cases hother : source.kind other = .element → source.EndsWithin levels other
      · exact .inl (hsucc owner other ho hother)
      · obtain ⟨he', hn'⟩ := Classical.not_imp.mp hother
        exact .inr (hfail owner other ho he' hn')

/-- **With collaborators that never fail, a visit succeeds if the levels suffice**, and ends with the
fault that lies beyond them if they do not. -/
theorem visit_of_suffices {part : ν → Prop} (hh : host.NeverFails) (hr : source.Readable part)
    (hp : part node) (h : source.Suffices levels node) :
    (visit source host beyond levels node).Succeeds := by
  by_cases ho : source.Opened node
  · exact (visit_settles hh hr hp).1 (h.2 ho)
  · obtain ⟨j, rfl⟩ := Nat.exists_eq_add_of_le' h.1
    rw [visit_other (fun he => ho (.inl he)) (fun hf => ho (.inr hf))]
    exact (step_succeeds ⟨(), rfl⟩).bind fun _ => Course.succeeds_pure _

theorem visit_of_not_suffices {part : ν → Prop} (hh : host.NeverFails) (hr : source.Readable part)
    (hp : part node) (h1 : 1 ≤ levels) (h : ¬ source.Suffices levels node) :
    (visit source host beyond levels node).Fails beyond := by
  obtain ⟨ho, hn⟩ := Classical.not_imp.mp fun himp => h ⟨h1, himp⟩
  exact (visit_settles hh hr hp).2 hn ho

end Conversion

end ComponentTree
