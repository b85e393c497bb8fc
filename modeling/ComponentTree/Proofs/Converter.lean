import ComponentTree.Converter
import ComponentTree.Proofs.Conversion.Depth
import ComponentTree.Proofs.Conversion.Simulation

/-!
# Converters

The plain builder fails only with faults of the props: it refuses those that are no map and make none.
The props of a conversion are a map without a strategy and with the standard one, so a converter that
makes plain element values never fails.

What a converter gives can be compared across trees, if it does not look at the elements
(`Reported.Agrees`).
-/

namespace ComponentTree

/-- The props of a descriptor are the entries of the map that it is made with. -/
@[simp] theorem describeElement_dict (type : Value) (mark : Option Nat) (entries : Entries)
    (children : List Value) :
    describeElement type (.dict mark entries) children = .ok (.element type entries children) := by
  cases entries <;> rfl

/-- Props are refused for their shape, or for a key among them. -/
def Fault.RefusesProps (fault : Fault) : Prop :=
  (∃ defect, fault = .noProps defect) ∨ ∃ kind, fault = .noKey kind

theorem refusesProps_of_setPairs {position : Nat} {props : Entries} {items : List Value}
    {fault : Fault} (h : Props.setPairs position props items = .error fault) :
    fault.RefusesProps := by
  induction items generalizing position props with
  | nil => cases h
  | cons item items ih =>
    rw [Props.setPairs] at h
    cases hpair : Props.pairOf position item with
    | error defect =>
      rw [hpair] at h
      cases h
      exact .inl ⟨defect, rfl⟩
    | ok pair =>
      rw [hpair] at h
      dsimp only [Except.mapError, bind, Except.bind] at h
      split at h
      · cases h
        exact .inr ⟨_, rfl⟩
      · exact ih h

/-- The plain builder fails only with faults of the props. -/
theorem refusesProps_of_describeElement {type props : Value} {children : List Value} {fault : Fault}
    (h : describeElement type props children = .error fault) : fault.RefusesProps := by
  have hprops : Props.ofValue props = .error fault := by
    unfold describeElement at h
    cases hp : Props.ofValue props with
    | error fault' =>
      rw [hp] at h
      cases h
      rfl
    | ok entries =>
      rw [hp] at h
      cases h
  unfold Props.ofValue Props.entriesOf at hprops
  split at hprops
  · split at hprops
    · cases hprops
    · exact refusesProps_of_setPairs hprops
    · cases hprops
      exact .inl ⟨_, rfl⟩
  · cases hprops

/-- A strategy that makes a map in every call that a conversion can make. -/
def PropsStrategy.MakesMaps {ν : Type} (strategy : PropsStrategy ν) : Prop :=
  ∀ call : PropsCall ν, Texts call.attributes → TextKeys call.slots →
    ∃ mark entries, strategy.make call.attributes call.slots call.context = .ok (.dict mark entries)

theorem Host.Makes.exists_dict {ν : Type} {host : Host ν} {props : Value}
    (hmaps : ∀ strategy, host.props = some strategy → strategy.MakesMaps) (h : host.Makes props) :
    ∃ mark entries, props = .dict mark entries := by
  induction h with
  | merged => exact ⟨none, _, rfl⟩
  | @strategy strategy call props hstrategy hcall hmake =>
    obtain ⟨mark, entries, hmade⟩ := hmaps strategy hstrategy call hcall.attributes hcall.slots
    exact ⟨mark, entries, Except.ok.inj (hmake.symm.trans hmade)⟩
  | after w _ ih =>
    obtain ⟨mark, entries, rfl⟩ := ih
    exact ⟨mark, _, rfl⟩

/-- Of a plain converter whose strategy makes maps, or that has none, no call fails. -/
theorem Converter.plain_neverFails {ν : Type} (components : List (String × Value))
    {props : Option (PropsStrategy ν)} (hmaps : ∀ strategy, props = some strategy → strategy.MakesMaps) :
    (plain components props).host.NeverFails where
  component := fun _ => ⟨_, rfl⟩
  props := by
    intro strategy hstrategy call hcall
    obtain ⟨mark, entries, hmade⟩ := hmaps strategy hstrategy call hcall.attributes hcall.slots
    exact ⟨_, hmade⟩
  build := by
    intro type props children hmakes
    obtain ⟨mark, entries, rfl⟩ := hmakes.exists_dict hmaps
    exact ⟨_, describeElement_dict ..⟩

/-- The standard strategy makes a map, since no text is refused as the name of a slot. -/
theorem standardStrategy_makesMaps {ν : Type} (names : PropNames) :
    (standardStrategy {} names : PropsStrategy ν).MakesMaps := by
  intro call _ hslots
  have hrefusal : Props.slotRefusal? SlotSetter.byPath call.slots = none := by
    rw [Props.slotRefusal?, List.findSome?_eq_none_iff]
    rintro ⟨key, value⟩ hslot
    obtain ⟨name, rfl⟩ := hslots _ hslot
    rfl
  refine ⟨none, standardProps {} names call.context.component call.attributes call.slots, ?_⟩
  unfold standardStrategy
  dsimp only
  rw [hrefusal, ite_self]

/-! ## Converting different trees -/

section Regardless

variable {ν μ : Type}

/-- A converter that does not look at the element, for trees of any kind. -/
def Converter.regardless (c : Converter Unit) : Converter ν where
  build := c.build
  fragment := c.fragment
  components := c.components
  props := c.props.map .regardless
  limit := c.limit

/-- Two conversions came to the same: by the same calls, but for the nodes, and with the same writes
they gave the same result or fault. The reports may spell tags differently. -/
structure Reported.Agrees (r : Reported ν) (r' : Reported μ) : Prop where
  outcome : r.outcome = r'.outcome
  steps : r.steps.map Step.forget = r'.steps.map Step.forget
  writes : r.writes = r'.writes

variable {source : Source ν} {source' : Source μ} {a : ν} {b : μ}
variable {limit limit' : Option Int}

theorem Reported.agrees_of_forget {host : Host ν} {host' : Host μ}
    (h : (ComponentTree.convert source host limit a).forget =
      (ComponentTree.convert source' host' limit' b).forget) :
    (Reported.ofHost source host limit a).Agrees (Reported.ofHost source' host' limit' b) where
  outcome := by
    obtain ⟨houtcome, -, hwrites⟩ := Run.mk.inj h
    show Run.settled _ = Run.settled _
    rw [Run.settled, Run.settled, houtcome, hwrites]
  steps := congrArg Run.steps h
  writes := congrArg Run.writes h

/-- What a converter itself reports is not compared. -/
theorem Converter.agrees_of_forget {c : Converter ν} {c' : Converter μ}
    (h : (ComponentTree.convert source c.host c.limit a).forget =
      (ComponentTree.convert source' c'.host c'.limit b).forget) :
    (c.convert source a).Agrees (c'.convert source' b) := by
  obtain ⟨houtcome, hsteps, hwrites⟩ := Reported.agrees_of_forget h
  exact ⟨houtcome, hsteps, hwrites⟩

end Regardless

end ComponentTree
