import ComponentTree.Proofs.Conversion.Visit

/-!
# Trees that read alike

A conversion sees of a tree only what its source tells: kinds, texts, tags, attributes, the slot,
the children, and of the parent whether it is an element and with which tag. If two trees agree in
all that, node by node, they are converted alike: by the same calls of the collaborators, with the
same writes, to the same outcome (`ReadAlike.visit`).

The collaborators have to be the same for both trees, so they must not look at the element itself.
`Host.regardless` makes of a host that is told no element one for any tree.
-/

namespace ComponentTree

variable {ν μ : Type}

/-! ## Hosts that do not look at the element -/

/-- A strategy that does not look at the element. -/
def PropsStrategy.regardless (strategy : PropsStrategy Unit) : PropsStrategy ν where
  make attributes slots context := strategy.make attributes slots context.forget
  writes attributes slots context := strategy.writes attributes slots context.forget

/-- Collaborators that do not look at the element. -/
def Host.regardless (host : Host Unit) : Host ν where
  build := host.build
  fragment := host.fragment
  component := host.component
  props := host.props.map .regardless

def Conversion.Owner.forget (owner : Conversion.Owner ν) : Conversion.Owner Unit :=
  ⟨(), owner.component⟩

namespace Conversion

@[simp] theorem forget_lookup (host : Host Unit) (node : ν) (tag : String) :
    (lookup host.regardless node tag).forget = lookup host () tag := rfl

@[simp] theorem forget_build (host : Host Unit) (node : ν) (type props : Value)
    (children : List Value) :
    (build host.regardless node type props children).forget = build host () type props children :=
  rfl

@[simp] theorem forget_settle (owner : Option (Owner ν)) (child : ν) (slot value : Value) :
    (settle owner child slot value).forget = settle (owner.map Owner.forget) () slot value := by
  cases owner with
  | none => rfl
  | some owner =>
    simp only [settle, Option.map_some, Owner.forget]
    split <;> rfl

@[simp] theorem forget_elementProps (host : Host Unit) (call : PropsCall ν) :
    (elementProps host.regardless call).forget = elementProps host call.forget := by
  cases h : host.props with
  | none => simp only [elementProps, Host.regardless, h, Option.map_none]; rfl
  | some strategy => simp only [elementProps, Host.regardless, h, Option.map_some]; rfl

end Conversion

/-! ## The simulation -/

/-- Whatever is in one of two related lists is related to something in the other. -/
theorem exists_related {rel : ν → μ → Prop} {as : List ν} {bs : List μ} {a : ν}
    (h : List.Forall₂ rel as bs) (ha : a ∈ as) : ∃ b ∈ bs, rel a b := by
  induction h with
  | nil => cases ha
  | cons hab _ ih =>
    rcases List.mem_cons.mp ha with rfl | ha
    · exact ⟨_, List.mem_cons_self, hab⟩
    · obtain ⟨b, hb, hab⟩ := ih ha
      exact ⟨b, List.mem_cons_of_mem _ hb, hab⟩

/-- What the conversion makes of a kind: a comment is as good as any node without meaning. -/
def NodeKind.role : NodeKind → NodeKind
  | .comment => .other
  | kind => kind

/-- Related nodes of two trees tell the conversion the same. -/
structure ReadAlike (source : Source ν) (source' : Source μ) (rel : ν → μ → Prop) : Prop where
  role : ∀ {a b}, rel a b → (source.kind a).role = (source'.kind b).role
  text : ∀ {a b}, rel a b → source.kind a = .text → source.text a = source'.text b
  tag : ∀ {a b}, rel a b → source.kind a = .element →
    Conversion.tagOf source a = Conversion.tagOf source' b
  attributes : ∀ {a b}, rel a b → source.kind a = .element →
    Conversion.attributesOf source a = Conversion.attributesOf source' b
  slot : ∀ {a b}, rel a b → source.kind a = .element →
    source.attributeValue a slotAttribute = source'.attributeValue b slotAttribute
  children : ∀ {a b}, rel a b → List.Forall₂ rel (source.children a) (source'.children b)
  parent : ∀ {a b}, rel a b → Conversion.parentTag? source a = Conversion.parentTag? source' b

namespace NodeKind

variable {k k' : NodeKind}

theorem eq_element_iff_of_role (h : k.role = k'.role) : k = .element ↔ k' = .element := by
  cases k <;> cases k' <;> simp_all [role]

theorem eq_text_iff_of_role (h : k.role = k'.role) : k = .text ↔ k' = .text := by
  cases k <;> cases k' <;> simp_all [role]

theorem eq_fragment_iff_of_role (h : k.role = k'.role) : k = .fragment ↔ k' = .fragment := by
  cases k <;> cases k' <;> simp_all [role]

end NodeKind

namespace ReadAlike

open Conversion

variable {source : Source ν} {source' : Source μ} {rel : ν → μ → Prop} {a : ν} {b : μ}
variable (h : ReadAlike source source' rel)

include h

theorem kind_element (hab : rel a b) : source.kind a = .element ↔ source'.kind b = .element :=
  NodeKind.eq_element_iff_of_role (h.role hab)

theorem kind_text (hab : rel a b) : source.kind a = .text ↔ source'.kind b = .text :=
  NodeKind.eq_text_iff_of_role (h.role hab)

theorem kind_fragment (hab : rel a b) : source.kind a = .fragment ↔ source'.kind b = .fragment :=
  NodeKind.eq_fragment_iff_of_role (h.role hab)

theorem symm : ReadAlike source' source fun b a => rel a b where
  role hab := (h.role hab).symm
  text hab ht := (h.text hab ((h.kind_text hab).mpr ht)).symm
  tag hab he := (h.tag hab ((h.kind_element hab).mpr he)).symm
  attributes hab he := (h.attributes hab ((h.kind_element hab).mpr he)).symm
  slot hab he := (h.slot hab ((h.kind_element hab).mpr he)).symm
  children hab := (h.children hab).flip
  parent hab := (h.parent hab).symm

theorem forget_passedAttributes (hab : rel a b) (host : Host Unit)
    (attributes : List (String × Value)) :
    (passedAttributes source host.regardless a attributes).forget =
      (passedAttributes source' host.regardless b attributes).forget := by
  have hp : (parentIsComponent source host.regardless a).forget =
      (parentIsComponent source' host.regardless b).forget := by
    rw [parentIsComponent_eq, parentIsComponent_eq, h.parent hab]
    cases parentTag? source' b with
    | none => rfl
    | some tag => simp only [Course.forget_bind, forget_lookup, Course.forget_pure]
  simp only [passedAttributes, Course.forget_bind, Course.forget_current]
  congr 1
  funext slot
  split
  · simp only [Course.forget_bind, hp, Course.forget_pure]
  · rfl

theorem forget_placeChild (hab : rel a b) {convert : ν → Course ν Value}
    {convert' : μ → Course μ Value} (hc : (convert a).forget = (convert' b).forget)
    {owner : Option (Owner ν)} {owner' : Option (Owner μ)}
    (ho : owner.map Owner.forget = owner'.map Owner.forget) :
    (placeChild source convert owner a).forget = (placeChild source' convert' owner' b).forget := by
  by_cases ht : source.kind a = .text
  · rw [placeChild_text ht, placeChild_text ((h.kind_text hab).mp ht), h.text hab ht]
    rfl
  · have ht' := fun hb => ht ((h.kind_text hab).mpr hb)
    by_cases he : source.kind a = .element
    · rw [placeChild_element he, placeChild_element ((h.kind_element hab).mp he), h.slot hab he]
      simp only [Course.forget_bind, Course.forget_ofExcept, Course.forget_current, forget_settle,
        hc, ho]
    · have he' := fun hb => he ((h.kind_element hab).mpr hb)
      rw [placeChild_other ht he, placeChild_other ht' he']
      rfl

/-- **Nodes that read alike are converted alike.** The induction is on the levels that are left;
one level suffices for the nodes themselves, and the others are for their children. -/
theorem visit (host : Host Unit) (beyond : Fault) (levels : Nat) (hab : rel a b) :
    (visit source host.regardless beyond levels a).forget =
      (visit source' host.regardless beyond levels b).forget := by
  induction levels generalizing a b with
  | zero => rfl
  | succ levels ih =>
    -- the owners differ in their elements only, which a forgotten course does not show
    have hplace : ∀ (owner : Option (Owner ν)) (owner' : Option (Owner μ)),
        owner.map Owner.forget = owner'.map Owner.forget →
        (placeChildren source host.regardless beyond levels owner (source.children a)).forget =
          (placeChildren source' host.regardless beyond levels owner'
            (source'.children b)).forget := by
      intro owner owner' ho
      exact Course.forget_forEach ((h.children hab).imp fun c d hcd =>
        h.forget_placeChild hcd (ih hcd) ho)
    by_cases he : source.kind a = .element
    · rw [visit_element he, visit_element ((h.kind_element hab).mp he)]
      simp only [gather, assemble, Course.forget_bind, Course.forget_step, forget_lookup,
        Course.forget_ofExcept, Course.forget_pure, forget_elementProps, forget_build,
        h.tag hab he, h.attributes hab he, h.forget_passedAttributes hab,
        hplace (some ⟨a, _⟩) (some ⟨b, _⟩) rfl]
      rfl
    · have he' := fun hb => he ((h.kind_element hab).mpr hb)
      by_cases hf : source.kind a = .fragment
      · rw [visit_fragment hf, visit_fragment ((h.kind_fragment hab).mp hf)]
        simp only [Course.forget_bind, Course.forget_step, hplace none none rfl, assembleFragment,
          forget_build]
        rfl
      · have hf' := fun hb => hf ((h.kind_fragment hab).mpr hb)
        rw [visit_other he hf, visit_other he' hf']
        rfl

end ReadAlike

end ComponentTree
