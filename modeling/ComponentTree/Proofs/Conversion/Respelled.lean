import ComponentTree.Proofs.Source.Adoption
import ComponentTree.Proofs.Source.Alike
import ComponentTree.Proofs.Source.Interchange

/-!
# Spelling does not matter

Tags and attribute names are put into lower case at many places: when components are registered, when
a tag is looked up, on behalf of the node itself or of the node around it, when an element is built by
hand, when attributes are listed and when one of them is looked up. No spelling gets past all of them
(`convert_respelled`).

For trees built by hand, `NodeStore.Respelling` says of two stores that related nodes hold the same,
up to spelling, and that their links lead to related nodes. It leaves open how the stores were built,
and in which order. Stores that were built by the same calls are one case
(`NodeStore.BuiltAlike.respelling`).
-/

namespace ComponentTree

open Conversion

/-! ## Content -/

/-- What two nodes hold differs in the spelling of tags and attribute names only. The attributes are
those that the nodes were given. -/
inductive NodeContent.Respelled : NodeContent → NodeContent → Prop
  | element {tag tag' : String} {attributes attributes' : List (String × String)} :
      lowercase tag = lowercase tag' → lowerNames attributes = lowerNames attributes' →
      Respelled (.ofElement tag attributes) (.ofElement tag' attributes')
  | fragment : Respelled .fragment .fragment
  | text (value : Option String) : Respelled (.text value) (.text value)
  | comment (value : Option String) : Respelled (.comment value) (.comment value)

namespace NodeContent.Respelled

variable {c c' : NodeContent}

theorem kind (h : c.Respelled c') : c.kind = c'.kind := by
  cases h <;> rfl

theorem value (h : c.Respelled c') : c.value = c'.value := by
  cases h <;> rfl

theorem tag (h : c.Respelled c') : lowercase c.name = lowercase c'.name := by
  cases h with
  | element htag _ => exact htag
  | fragment => rfl
  | text value => rfl
  | comment value => rfl

/-- The names of attributes are put into lower case when an element is built. -/
theorem attributes (h : c.Respelled c') : c.attributes = c'.attributes := by
  cases h with
  | element _ hattributes => exact congrArg Assoc.ofPairs hattributes
  | fragment => rfl
  | text value => rfl
  | comment value => rfl

end NodeContent.Respelled

/-- Related parents with the same kind and tag are told apart by nobody. -/
theorem Conversion.parentTag?_congr {ν μ : Type} {source : Source ν} {source' : Source μ}
    {rel : ν → μ → Prop} {a : ν} {b : μ} (h : Option.Rel rel (source.parent a) (source'.parent b))
    (hkind : ∀ {p q}, rel p q → source.kind p = source'.kind q)
    (htag : ∀ {p q}, rel p q → source.kind p = .element → tagOf source p = tagOf source' q) :
    parentTag? source a = parentTag? source' b := by
  rw [parentTag?, parentTag?]
  generalize source.parent a = p, source'.parent b = q at h
  cases h with
  | none => rfl
  | some hpq =>
    rw [Option.bind_some, Option.bind_some, ← hkind hpq]
    split
    · next hk => rw [htag hpq hk]
    · rfl

/-! ## Parsed trees -/

namespace View

variable {v w : View}

/-- Views at the same place of two trees that differ in spelling only. -/
structure Respelled (v w : View) : Prop where
  node : v.place.node.lowered = w.place.node.lowered
  above : v.place.above.map Markup.lowered = w.place.above.map Markup.lowered
  steps : v.steps = w.steps
  openedAsFragment : v.openedAsFragment = w.openedAsFragment

theorem Respelled.isFragment (h : Respelled v w) : v.isFragment = w.isFragment := by
  rw [View.isFragment, View.isFragment, h.steps, h.openedAsFragment]

theorem Respelled.parent (h : Respelled v w) : Option.Rel Respelled v.parent w.parent := by
  obtain ⟨⟨m, above⟩, steps, opened⟩ := v
  obtain ⟨⟨m', above'⟩, steps', opened'⟩ := w
  obtain ⟨-, habove, hsteps, hopened⟩ := h
  dsimp only at habove hsteps hopened
  subst hsteps hopened
  cases above with
  | nil =>
    rw [List.map_eq_nil_iff.mp habove.symm]
    cases steps <;> cases opened <;> exact .none
  | cons p above =>
    obtain ⟨q, above', rfl, hq, habove'⟩ := List.map_eq_cons_iff.mp habove.symm
    cases steps with
    | zero =>
      cases opened with
      | true => exact .none
      | false => exact .some ⟨hq.symm, habove'.symm, rfl, rfl⟩
    | succ steps => exact .some ⟨hq.symm, habove'.symm, rfl, rfl⟩

theorem Respelled.alike (h : Respelled v w) : Alike v w := by
  have hkind : ∀ {p q}, Respelled p q → source.kind p = source.kind q :=
    fun hpq => kind_congr hpq.node hpq.isFragment
  refine alike_of_lowered h.node h.isFragment (parentTag?_congr h.parent hkind fun hpq hk => ?_)
  exact (element_congr hpq.node hk ((hkind hpq).symm.trans hk)).1

end View

/-! ## Trees built by hand -/

/-- Nodes that are related, or parsed markup that reads alike. -/
inductive Node.Respelled (rel : NodeId → NodeId → Prop) : Node → Node → Prop
  | stored {a b : NodeId} : rel a b → Respelled rel (.stored a) (.stored b)
  | parsed {v w : View} {marks marks' : List Nat} :
      v.Alike w → Respelled rel (.parsed v marks) (.parsed w marks')

namespace NodeStore

variable {s s' : NodeStore} {rel : NodeId → NodeId → Prop}

/-- Related nodes differ in spelling only, and so do the trees that they belong to. -/
structure Respelling (s s' : NodeStore) (rel : NodeId → NodeId → Prop) : Prop where
  content : ∀ {a b}, rel a b → (s.get a).content.Respelled (s'.get b).content
  children : ∀ {a b}, rel a b →
    List.Forall₂ (Node.Respelled rel) (s.get a).children (s'.get b).children
  parent : ∀ {a b}, rel a b → Option.Rel rel (s.get a).parent (s'.get b).parent

theorem parentTag?_parsed (v : View) (marks : List Nat) :
    parentTag? s.source (.parsed v marks) = parentTag? View.source v := by
  show ((v.parent.map fun parent => Node.parsed parent marks.tail).bind _) = v.parent.bind _
  cases v.parent <;> rfl

theorem Respelling.parentTag? (h : s.Respelling s' rel) {a b : NodeId} (hab : rel a b) :
    Conversion.parentTag? s.source (.stored a) = Conversion.parentTag? s'.source (.stored b) := by
  have hparent : Option.Rel (Node.Respelled rel) (s.source.parent (.stored a))
      (s'.source.parent (.stored b)) := by
    show Option.Rel _ ((s.get a).parent.map Node.stored) ((s'.get b).parent.map Node.stored)
    have hrel := h.parent hab
    generalize (s.get a).parent = p, (s'.get b).parent = q at hrel
    cases hrel with
    | none => exact .none
    | some hpq => exact .some (.stored hpq)
  refine parentTag?_congr hparent (fun hpq => ?_) fun hpq hk => ?_
  · cases hpq with
    | stored hpq => exact (h.content hpq).kind
    | parsed hpq => exact hpq.kind
  · cases hpq with
    | stored hpq => exact (h.content hpq).tag
    | parsed hpq => exact hpq.tag hk

/-- Stores that differ in spelling only read alike. -/
theorem Respelling.readAlike (h : s.Respelling s' rel) :
    ReadAlike s.source s'.source (Node.Respelled rel) where
  role := by
    rintro _ _ (hab | hvw)
    · exact congrArg NodeKind.role (h.content hab).kind
    · exact congrArg NodeKind.role hvw.kind
  text := by
    rintro _ _ (hab | hvw) ht
    · exact (h.content hab).value
    · exact hvw.text ht
  tag := by
    rintro _ _ (hab | hvw) hk
    · exact (h.content hab).tag
    · exact hvw.tag hk
  attributes := by
    rintro _ _ (hab | hvw) hk
    · simp only [Conversion.attributesOf, source, NodeContent.attribute?, (h.content hab).attributes]
    · exact View.alike_readAlike.attributes hvw hk
  slot := by
    rintro _ _ (hab | hvw) hk
    · simp only [source, NodeContent.attribute?, (h.content hab).attributes]
    · exact View.alike_readAlike.slot hvw hk
  children := by
    rintro _ _ (hab | @⟨v, w, marks, marks', hvw⟩)
    · exact h.children hab
    · show List.Forall₂ _ (v.children.map _) (w.children.map _)
      rw [List.forall₂_map_left_iff, List.forall₂_map_right_iff]
      exact (View.alike_readAlike.children hvw).imp fun _ _ hcd => .parsed hcd
  parent := by
    rintro _ _ (hab | hvw)
    · exact h.parentTag? hab
    · rw [parentTag?_parsed, parentTag?_parsed]
      exact hvw.parentTag

/-- Nodes of trees that differ in spelling only are converted alike; without a limit the trees have
to have a bottom. -/
theorem Respelling.convert_eq (h : s.Respelling s' rel) (hs : s.Built) (hs' : s'.Built)
    {a b : Node} (hab : Node.Respelled rel a b) (ha : s.Holds a) (hb : s'.Holds b)
    (host : Host Unit) {limit : Option Int} (hends : limit = none → ∃ k, s.source.EndsWithin k a) :
    (convert s.source host.regardless limit a).forget =
      (convert s'.source host.regardless limit b).forget := by
  rw [convert_eq_visit, convert_eq_visit, ← Course.run_forget, ← Course.run_forget]
  cases limit with
  | some m => exact congrArg (·.run []) (h.readAlike.visit host _ _ hab)
  | none =>
    obtain ⟨k, hk⟩ := hends rfl
    -- the stores may count different numbers of levels, but both suffice
    have hsuffices : s.source.Suffices (k + 1) a :=
      ⟨Nat.le_add_left .., fun _ => hk.mono (Nat.le_succ k)⟩
    have hsuffices' : s'.source.Suffices (k + 1) b :=
      ⟨Nat.le_add_left .., fun _ => (h.readAlike.symm.endsWithin hab hk).mono (Nat.le_succ k)⟩
    rw [Conversion.faultBeyond, levelsWithin, levelsWithin,
      visit_eq_of_suffices .endless (suffices_levels hs ha hsuffices) hsuffices,
      visit_eq_of_suffices .endless (suffices_levels hs' hb hsuffices') hsuffices',
      h.readAlike.visit host _ _ hab]

/-! ### Stores built by the same calls -/

/-- Stores that were built by the same calls, but for spelling. -/
inductive BuiltAlike : NodeStore → NodeStore → Prop
  | empty : BuiltAlike .empty .empty
  | add {s s' : NodeStore} {content content' : NodeContent} {children : List Node} :
      BuiltAlike s s' → content.Respelled content' → (∀ c ∈ children, s.Holds c) →
      BuiltAlike (s.add content children).2 (s'.add content' children).2
  | append {s s' : NodeStore} {parent : NodeId} {child : Node} :
      BuiltAlike s s' → parent < s.nodes.size → s.Holds child →
      BuiltAlike (s.append parent child) (s'.append parent child)

theorem BuiltAlike.size (h : s.BuiltAlike s') : s.nodes.size = s'.nodes.size := by
  induction h with
  | empty => rfl
  | add _ _ _ ih => rw [size_add, size_add, ih]
  | append _ _ _ ih => rw [size_append, size_append, ih]

theorem BuiltAlike.built (h : s.BuiltAlike s') : s.Built ∧ s'.Built := by
  induction h with
  | empty => exact ⟨.empty, .empty⟩
  | add h _ hheld ih =>
    exact ⟨.add _ ih.1 hheld, .add _ ih.2 fun c hc => (hheld c hc).mono (Nat.le_of_eq h.size)⟩
  | append h hparent hheld ih =>
    exact ⟨.append ih.1 hparent hheld,
      .append ih.2 (h.size ▸ hparent) (hheld.mono (Nat.le_of_eq h.size))⟩

/-- The same calls make the same links, whatever the spelling. -/
theorem BuiltAlike.links (h : s.BuiltAlike s') (id : NodeId) :
    (s.get id).content.Respelled (s'.get id).content ∧
      (s.get id).children = (s'.get id).children ∧ (s.get id).parent = (s'.get id).parent := by
  induction h with
  | empty =>
    rw [get_of_size_le (Nat.zero_le _)]
    exact ⟨.fragment, rfl, rfl⟩
  | @add s s' content content' children h hcontent hheld ih =>
    obtain ⟨hold, hchildren, hparent⟩ := ih
    have hheld' : .stored id ∈ children → id < s'.nodes.size :=
      fun hm => h.size ▸ hheld (.stored id) hm
    refine ⟨?_, ?_, ?_⟩
    · rw [content_add, content_add, h.size]
      split
      · exact hcontent
      · exact hold
    · rw [children_add, children_add, h.size, hchildren]
    · rw [parent_add content (hheld (.stored id)), parent_add content' hheld', h.size, hparent]
  | @append s s' parent child h _ hheld ih =>
    obtain ⟨hold, hchildren, hparent⟩ := ih
    have hheld' : Node.stored id ∈ [child] → id < s.nodes.size := fun hm =>
      show s.Holds (.stored id) from List.mem_singleton.mp hm ▸ hheld
    refine ⟨?_, ?_, ?_⟩
    · rw [content_append, content_append]
      exact hold
    · rw [children_append, children_append, h.size, hchildren]
    · rw [parent_append, parent_append, parent_adopt hheld', parent_adopt (h.size ▸ hheld'), hparent]

theorem BuiltAlike.respelling (h : s.BuiltAlike s') : s.Respelling s' (· = ·) where
  content := by
    rintro id _ rfl
    exact (h.links id).1
  children := by
    rintro id _ rfl
    rw [(h.links id).2.1]
    refine List.forall₂_same.mpr fun child _ => ?_
    cases child with
    | stored child => exact .stored rfl
    | parsed view marks => exact .parsed (View.alike_of_lowered rfl rfl rfl)
  parent := by
    rintro id _ rfl
    rw [(h.links id).2.2]
    cases (s'.get id).parent with
    | none => exact .none
    | some p => exact .some rfl

end NodeStore

/-! ## Components and converters -/

/-- A converter that is set up for components, for trees of any kind. -/
def Converter.knowing {ν : Type} (c : Converter Unit) (components : List (String × Value)) :
    Converter ν :=
  { c with components := register components : Converter Unit }.regardless

/-- Components that are the same under their tags in lower case make the same host. -/
theorem Converter.host_knowing {ν : Type} {components components' : List (String × Value)}
    (h : ∀ tag, Assoc.get? tag (register components) = Assoc.get? tag (register components'))
    (c : Converter Unit) :
    (c.knowing components : Converter ν).host = (c.knowing components').host := by
  simp only [knowing, regardless, host, h]

/-- **Spelling does not matter.** Take two sets of components that are the same under their tags in
lower case, and a converter that does not look at the element. Nodes of hand-built trees, or of parsed
trees, that differ in the spelling of tags and attribute names only are converted by the same calls to
the same result or fault; and so is any node if the tags in lower case are looked up right away. Trees
with a bottom need no limit for that, and with a limit they need no bottom. -/
theorem convert_respelled (c : Converter Unit) {components components' : List (String × Value)}
    (hcomponents : ∀ tag, Assoc.get? tag (Converter.register components) =
      Assoc.get? tag (Converter.register components')) :
    (∀ (s s' : NodeStore) (rel : NodeId → NodeId → Prop) (a b : NodeId),
      s.Built → s'.Built → s.Respelling s' rel → rel a b →
      a < s.nodes.size → b < s'.nodes.size →
      (c.limit = none → ∃ k, s.source.EndsWithin k (.stored a)) →
      ((c.knowing components).convert s.source (.stored a)).Agrees
        ((c.knowing components').convert s'.source (.stored b))) ∧
    (∀ v w : View, v.Respelled w →
      ((c.knowing components).convert View.source v).Agrees
        ((c.knowing components').convert View.source w)) ∧
    (∀ {ν : Type} (source : Source ν) (node : ν),
      ((c.knowing components).convert source node).Agrees
        (Reported.ofHost source
          ⟨c.build, c.fragment,
            fun tag => .ok ((Assoc.get? tag (Converter.register components')).getD .null),
            c.props.map .regardless⟩ c.limit node)) := by
  let host : Host Unit := { c with components := Converter.register components' : Converter Unit }.host
  refine ⟨fun s s' rel a b hs hs' hrel hab ha hb hends => Converter.agrees_of_forget ?_,
    fun v w hvw => Converter.agrees_of_forget ?_, fun source node => ?_⟩
  · rw [Converter.host_knowing hcomponents]
    exact hrel.convert_eq hs hs' (.stored hab) ha hb host hends
  · rw [Converter.host_knowing hcomponents]
    exact hvw.alike.convert_eq host c.limit
  · have hagrees : (Reported.ofHost source (c.knowing components).host c.limit node).Agrees
        (Reported.ofHost source (c.knowing components').host c.limit node) := by
      rw [Converter.host_knowing hcomponents]
      exact ⟨rfl, rfl, rfl⟩
    exact ⟨hagrees.outcome, hagrees.steps, hagrees.writes⟩

/-- A card with a title, in whatever spelling. -/
def spelledCard (card title slot : String) : NodeStore :=
  ((NodeStore.empty.add (.ofElement title [(slot, "Name")]) []).2.add (.ofElement card [])
    [.stored 0]).2

def spelledMarkup (card title slot : String) : Markup :=
  .element card [] [.element title [(slot, .str "Name")] []]

theorem spelledCard_builtAlike :
    (spelledCard "X-CARD" "B" "SLOT").BuiltAlike (spelledCard "x-card" "b" "slot") := by
  have htitle : (NodeStore.empty.add (.ofElement "B" [("SLOT", "Name")]) []).2.BuiltAlike
      (NodeStore.empty.add (.ofElement "b" [("slot", "Name")]) []).2 :=
    .add .empty (.element (by decide) (by decide)) (by simp)
  exact .add htitle (.element (by decide) rfl) fun c hc => List.mem_singleton.mp hc ▸ Nat.one_pos

theorem spelledMarkup_respelled :
    (View.wrap (.top (spelledMarkup "X-CARD" "B" "SLOT"))).Respelled
      (.wrap (.top (spelledMarkup "x-card" "b" "slot"))) := by
  have hcard : lowercase "X-CARD" = lowercase "x-card" := by decide
  have htitle : lowercase "B" = lowercase "b" := by decide
  have hslot : lowercase "SLOT" = lowercase "slot" := by decide
  refine ⟨?_, rfl, rfl, rfl⟩
  simp only [View.wrap, Place.top, spelledMarkup, Markup.lowered, Markup.loweredAll, lowerNames,
    List.map_cons, List.map_nil, hcard, htitle, hslot]

/-- Of two spellings of one tag the last one counts. -/
theorem register_spelled (card : Value) :
    Converter.register [("X-Card", card)] =
      Converter.register [("x-CARD", .null), ("x-card", card)] := by
  have h₁ : lowercase "X-Card" = "x-card" := by decide
  have h₂ : lowercase "x-CARD" = "x-card" := by decide
  have h₃ : lowercase "x-card" = "x-card" := by decide
  simp [Converter.register, Assoc.ofPairs, Assoc.setAll, Assoc.set, h₁, h₂, h₃]

/-- A converter that knows of no components yet, uses the standard strategy and has no limit. -/
def unlimitedConverter : Converter Unit :=
  { Converter.plain [] (some (standardStrategy {} .strict)) with limit := none }

theorem convert_respelled_spelledCard :
    let card : Value := .component ⟨0, "Card", none, false⟩
    ((unlimitedConverter.knowing [("X-Card", card)]).convert
        (spelledCard "X-CARD" "B" "SLOT").source (.stored 1)).Agrees
      ((unlimitedConverter.knowing [("x-CARD", .null), ("x-card", card)]).convert
        (spelledCard "x-card" "b" "slot").source (.stored 1)) ∧
    ((unlimitedConverter.knowing [("X-Card", card)]).convert View.source
        (.wrap (.top (spelledMarkup "X-CARD" "B" "SLOT")))).Agrees
      ((unlimitedConverter.knowing [("x-CARD", .null), ("x-card", card)]).convert View.source
        (.wrap (.top (spelledMarkup "x-card" "b" "slot")))) := by
  intro card
  have hbuilt := spelledCard_builtAlike.built
  have hends : (spelledCard "X-CARD" "B" "SLOT").source.EndsWithin 2 (.stored 1) := by
    rintro child ⟨hchild, -⟩
    rw [List.mem_singleton.mp hchild]
    rintro grandchild ⟨hgrandchild, -⟩
    cases hgrandchild
  obtain ⟨hstored, hparsed, -⟩ := convert_respelled unlimitedConverter
    fun tag => congrArg (Assoc.get? tag) (register_spelled card)
  exact ⟨hstored _ _ _ 1 1 hbuilt.1 hbuilt.2 spelledCard_builtAlike.respelling rfl Nat.one_lt_two
    Nat.one_lt_two fun _ => ⟨2, hends⟩, hparsed _ _ spelledMarkup_respelled⟩

example :
    ((unlimitedConverter.knowing [("X-Card", .component ⟨0, "Card", none, false⟩)]).convert
      (spelledCard "X-CARD" "B" "SLOT").source (.stored 1)).outcome =
        .ok (.element (.component ⟨0, "Card", none, false⟩)
          [(.str "Name", .element (.str "b") [] [])] []) := by
  rfl

end ComponentTree
