import ComponentTree.Converter
import ComponentTree.Proofs.Conversion.Depth
import ComponentTree.Proofs.Conversion.Simulation
import ComponentTree.Proofs.Source.Sketch
import ComponentTree.Proofs.Source.View

/-!
# Hand-built and parsed trees are interchangeable

The two kinds of trees tell a conversion the same about one sketch, though they come to it in
different ways: a hand-built element looks an attribute up in a map with names in lower case, a
parsed one searches its list and joins tokens; a hand-built node has stored its parent, a view
remembers where it came from. So they are converted alike (`convert_build_eq_convert_markup`).

Of the parent only its tag is compared. It is the one thing that a node does not tell on its own, so
`Mirrors` carries it from a node to its children.
-/

namespace ComponentTree

/-! ## Whole trees -/

/-- A whole tree: one root, or a list of roots below a fragment or document. -/
inductive Outline where
  | single (root : Sketch)
  | roots (roots : List Sketch)

namespace Outline

/-- The plan for building a tree by hand. -/
def draft : Outline → Draft
  | single root => root.draft
  | roots ts => .fragment (Sketch.draftAll ts)

def markup : Outline → Markup
  | single root => root.markup
  | roots ts => .document (Sketch.markupAll ts)

/-- No element has two attributes whose names differ in case only. -/
def WellNamed : Outline → Prop
  | single root => root.WellNamed
  | roots ts => Sketch.AllWellNamed ts

end Outline

namespace NodeStore

open Conversion

variable {s : NodeStore} {id : NodeId} {above : List Markup} {steps : Nat}
variable {tag : String} {attributes : List (String × AttributeText)} {children : List Sketch}

/-! ## Attributes -/

/-- Names that differ in more than case make a map that lists them as they come. -/
theorem attributesOf_written (h : (attributes.map fun a => lowercase a.1).Nodup) :
    NodeContent.attributesOf (attributes.map fun (name, held) => (name, held.joined)) =
      attributes.map fun (name, held) => (lowercase name, held.joined) := by
  rw [NodeContent.attributesOf, List.map_map]
  refine Assoc.ofPairs_eq_self (List.pairwise_map.mpr ?_)
  exact (List.pairwise_map.mp h).imp fun hne => beq_false_of_ne hne

/-- Searching the list comes to the same as looking up in the map. -/
theorem get?_written (key : String) (attributes : List (String × AttributeText)) :
    Assoc.get? key (attributes.map fun (name, held) => (lowercase name, held.joined)) =
      (attributes.find? fun a => lowercase a.1 == key).map (·.2.joined) := by
  induction attributes with
  | nil => rfl
  | cons a attributes ih =>
    rw [List.map_cons, Assoc.get?, List.find?_cons]
    cases lowercase a.1 == key with
    | true => rfl
    | false => exact ih

theorem joined_parsed (held : AttributeText) : View.joined held.parsed = .ok (.str held.joined) := by
  cases held with
  | whole text => rfl
  | tokens parts =>
    have htexts : ∀ (parts : List String) (position : Nat),
        View.tokenTexts position (parts.map .str) = .ok parts := by
      intro parts
      induction parts with
      | nil => intro position; rfl
      | cons part parts ih => intro position; rw [List.map_cons, View.tokenTexts, ih]; rfl
    rw [AttributeText.parsed, View.joined, htexts]
    rfl

theorem attributes_markup (tag : String) (children : List Sketch) :
    View.attributes ⟨⟨(Sketch.element tag attributes children).markup, above⟩, steps, false⟩ =
      attributes.map fun a => (a.1, a.2.parsed) := rfl

theorem attributeNames_stored (hn : (attributes.map fun a => lowercase a.1).Nodup)
    (h : s.Stands (.element tag attributes children) id) :
    s.source.attributeNames (.stored id) =
      View.source.attributeNames
        ⟨⟨(Sketch.element tag attributes children).markup, above⟩, steps, false⟩ := by
  rw [Stands] at h
  show (s.get id).content.attributes.map Prod.fst = View.attributeNames _
  rw [h.1, View.attributeNames, attributes_markup, NodeContent.ofElement, NodeContent.attributes,
    attributesOf_written hn, List.map_map, List.map_map]
  rfl

theorem attributeValue_stored (hn : (attributes.map fun a => lowercase a.1).Nodup)
    (h : s.Stands (.element tag attributes children) id) (name : String) :
    s.source.attributeValue (.stored id) name =
      View.source.attributeValue
        ⟨⟨(Sketch.element tag attributes children).markup, above⟩, steps, false⟩ name := by
  rw [Stands] at h
  show Except.ok (Value.ofString? ((s.get id).content.attribute? name)) = View.attributeValue _ name
  -- a map with names in lower case on the left, a search by lowered names on the right
  rw [h.1, NodeContent.attribute?, NodeContent.ofElement, NodeContent.attributes,
    attributesOf_written hn, get?_written, View.attributeValue, attributes_markup, List.find?_map]
  have hsame : ((fun a : String × Value => lowercase a.1 == lowercase name) ∘
      fun a : String × AttributeText => (a.1, a.2.parsed)) =
      fun a => lowercase a.1 == lowercase name := rfl
  rw [hsame]
  cases attributes.find? fun a => lowercase a.1 == lowercase name with
  | none => rfl
  | some a => exact (joined_parsed a.2).symm

/-! ## The same node in both trees -/

/-- A node that stands for a sketch, or for roots, and the view of the same place, below parents
with the same tag. -/
inductive Mirrors (s : NodeStore) : Node → View → Prop
  | tree {t : Sketch} {id : NodeId} {above : List Markup} {steps : Nat} :
      s.Stands t id → t.WellNamed →
      parentTag? s.source (.stored id) = parentTag? View.source ⟨⟨t.markup, above⟩, steps, false⟩ →
      Mirrors s (.stored id) ⟨⟨t.markup, above⟩, steps, false⟩
  | roots {ts : List Sketch} {id : NodeId} {above : List Markup} {steps : Nat} :
      (s.get id).content = .fragment → s.StandAll id ts (s.get id).children →
      Sketch.AllWellNamed ts →
      parentTag? s.source (.stored id) =
        parentTag? View.source ⟨⟨.document (Sketch.markupAll ts), above⟩, steps, false⟩ →
      Mirrors s (.stored id) ⟨⟨.document (Sketch.markupAll ts), above⟩, steps, false⟩

/-- The children of a node mirror those of its view. Each of them has the node itself as its parent,
so its tag is compared once for all of them. -/
theorem mirrors_of_standAll {parent : NodeId} {m : Markup}
    (htag : ∀ c : NodeId, (s.get c).parent = some parent → ∀ w : View,
      w.parent = some ⟨⟨m, above⟩, steps, false⟩ →
        parentTag? s.source (.stored c) = parentTag? View.source w) :
    ∀ {ts : List Sketch} {nodes : List Node}, s.StandAll parent ts nodes → Sketch.AllWellNamed ts →
      List.Forall₂ s.Mirrors nodes
        ((Sketch.markupAll ts).map (View.below ⟨⟨m, above⟩, steps, false⟩))
  | [], nodes, h, _ => by
    rw [StandAll] at h
    rw [h]
    exact .nil
  | t :: ts, nodes, h, hn => by
    rw [StandAll] at h
    obtain ⟨child, rest, rfl, hparent, hchild, hrest⟩ := h
    refine .cons ?_ (mirrors_of_standAll htag hrest hn.2)
    exact .tree hchild hn.1 (htag child hparent _ rfl)

/-- Children of nodes that read alike have parents with the same tag. -/
theorem parentTag?_children {parent child : NodeId} {v w : View}
    (hkind : s.source.kind (.stored parent) = .element ↔ View.source.kind v = .element)
    (htag : s.source.kind (.stored parent) = .element →
      tagOf s.source (.stored parent) = tagOf View.source v)
    (hparent : (s.get child).parent = some parent) (hw : w.parent = some v) :
    parentTag? s.source (.stored child) = parentTag? View.source w := by
  have hstored : s.source.parent (.stored child) = some (.stored parent) := by
    show (s.get child).parent.map Node.stored = _
    rw [hparent]
    rfl
  have hview : View.source.parent w = some v := hw
  rw [parentTag?_of_parent hstored, parentTag?_of_parent hview]
  by_cases hk : s.source.kind (.stored parent) = .element
  · rw [if_pos hk, if_pos (hkind.mp hk), htag hk]
  · rw [if_neg hk, if_neg fun hv => hk (hkind.mpr hv)]

theorem kind_stored {content : NodeContent} (h : (s.get id).content = content) :
    s.source.kind (.stored id) = content.kind := congrArg NodeContent.kind h

theorem Mirrors.exists_element {a : Node} {v : View} (h : s.Mirrors a v)
    (hk : s.source.kind a = .element) :
    ∃ tag attributes children id above steps, a = .stored id ∧
      v = ⟨⟨(Sketch.element tag attributes children).markup, above⟩, steps, false⟩ ∧
      s.Stands (.element tag attributes children) id ∧
      (attributes.map fun a => lowercase a.1).Nodup := by
  rcases h with ⟨hs, hn, -⟩ | ⟨hs, -, -, -⟩
  · next t id above steps =>
    cases t with
    | element tag attributes children =>
      exact ⟨tag, attributes, children, id, above, steps, rfl, rfl, hs, hn.1⟩
    | text text => rw [kind_stored hs.content] at hk; cases hk
    | comment text => rw [kind_stored hs.content] at hk; cases hk
  · rw [kind_stored hs] at hk
    cases hk

theorem Mirrors.role_eq {a : Node} {v : View} (h : s.Mirrors a v) :
    (s.source.kind a).role = (View.source.kind v).role := by
  rcases h with ⟨hs, -, -⟩ | ⟨hs, -, -, -⟩
  · next t _ _ _ =>
    rw [kind_stored hs.content]
    cases t <;> rfl
  · rw [kind_stored hs]
    rfl

theorem Mirrors.text_eq {a : Node} {v : View} (h : s.Mirrors a v) :
    s.source.text a = View.source.text v := by
  rcases h with ⟨hs, -, -⟩ | ⟨hs, -, -, -⟩
  · next t _ _ _ =>
    refine (congrArg NodeContent.value hs.content).trans ?_
    cases t <;> rfl
  · exact congrArg NodeContent.value hs

theorem Mirrors.tagOf_eq {a : Node} {v : View} (h : s.Mirrors a v) (hk : s.source.kind a = .element) :
    tagOf s.source a = tagOf View.source v := by
  obtain ⟨tag, attributes, children, id, above, steps, rfl, rfl, hs, -⟩ := h.exists_element hk
  rw [Stands] at hs
  have hname : s.source.name (.stored id) = tag := congrArg NodeContent.name hs.1
  rw [tagOf, tagOf, hname]
  congr 1

theorem Mirrors.attributeValue_eq {a : Node} {v : View} (h : s.Mirrors a v)
    (hk : s.source.kind a = .element) (name : String) :
    s.source.attributeValue a name = View.source.attributeValue v name := by
  obtain ⟨tag, attributes, children, id, above, steps, rfl, rfl, hs, hn⟩ := h.exists_element hk
  exact attributeValue_stored hn hs name

theorem Mirrors.attributesOf_eq {a : Node} {v : View} (h : s.Mirrors a v)
    (hk : s.source.kind a = .element) : attributesOf s.source a = attributesOf View.source v := by
  have hvalue := h.attributeValue_eq hk
  obtain ⟨tag, attributes, children, id, above, steps, rfl, rfl, hs, hn⟩ := h.exists_element hk
  have hnames : s.source.attributeNames (.stored id) = View.source.attributeNames
      ⟨⟨(Sketch.element tag attributes children).markup, above⟩, steps, false⟩ :=
    attributeNames_stored hn hs
  unfold attributesOf
  simp only [hnames, hvalue]

theorem Mirrors.forall₂_children {a : Node} {v : View} (h : s.Mirrors a v) :
    List.Forall₂ s.Mirrors (s.source.children a) (View.source.children v) := by
  have hkind := NodeKind.eq_element_iff_of_role h.role_eq
  have htag := h.tagOf_eq
  rw [show View.source.children v = v.children from rfl, View.children_eq]
  rcases h with ⟨hs, hn, -⟩ | ⟨-, hs, hn, -⟩
  · next t id above steps =>
    show List.Forall₂ s.Mirrors (s.get id).children _
    cases t with
    | element tag attributes children =>
      rw [Stands] at hs
      exact mirrors_of_standAll (fun c hc w hw => parentTag?_children hkind htag hc hw) hs.2 hn.2
    | text text =>
      rw [Stands] at hs
      rw [hs.2]
      exact .nil
    | comment text =>
      rw [Stands] at hs
      rw [hs.2]
      exact .nil
  · exact mirrors_of_standAll (fun c hc w hw => parentTag?_children hkind htag hc hw) hs hn

/-- **A hand-built and a parsed tree of one sketch read alike.** -/
theorem readAlike (s : NodeStore) : ReadAlike s.source View.source s.Mirrors where
  role := Mirrors.role_eq
  text := fun h _ => h.text_eq
  tag := Mirrors.tagOf_eq
  attributes := Mirrors.attributesOf_eq
  slot := fun h hk => h.attributeValue_eq hk slotAttribute
  children := Mirrors.forall₂_children
  parent := by
    rintro _ _ (⟨-, -, hp⟩ | ⟨-, -, -, hp⟩)
    · exact hp
    · exact hp

end NodeStore

/-! ## Converting both -/

theorem ReadAlike.endsWithin {ν μ : Type} {source : Source ν} {source' : Source μ}
    {rel : ν → μ → Prop} {a : ν} {b : μ} {k : Nat} (h : ReadAlike source source' rel)
    (hab : rel a b) (hb : source'.EndsWithin k b) : source.EndsWithin k a := by
  induction k generalizing a b with
  | zero => exact hb
  | succ k ih =>
    rintro c ⟨hc, he⟩
    obtain ⟨d, hd, hrel⟩ := exists_related (h.children hab) hc
    exact ih hrel (hb d ⟨hd, (h.kind_element hrel).mp he⟩)

theorem View.endsWithin_height (v : View) : View.source.EndsWithin v.place.node.height v :=
  Source.endsWithin_of_height (fun _ => True) (fun v => v.place.node.height)
    (fun {v} _ => v.place.node.one_le_height)
    (fun _ hab => ⟨trivial, View.height_lt_of_mem_children hab.1⟩) trivial (Nat.le_refl _)

namespace NodeStore

variable {s : NodeStore} {node : Node} {v : View}

/-- Nodes that mirror each other are converted alike, also without a limit if the store counts
levels enough for the height of the view. -/
theorem Mirrors.convert_eq (h : s.Mirrors node v)
    (hlevels : v.place.node.height ≤ s.source.levels node) (host : Host Unit)
    (limit : Option Int) :
    (convert s.source host.regardless limit node).forget =
      (convert View.source host.regardless limit v).forget := by
  have halike := s.readAlike
  rw [convert_eq_visit, convert_eq_visit, ← Course.run_forget, ← Course.run_forget]
  cases limit with
  | some m => exact congrArg (·.run []) (halike.visit host _ _ h)
  | none =>
    -- both levels suffice, though the store counts its nodes and the view its height
    have hpos := v.place.node.one_le_height
    have hends := halike.endsWithin h v.endsWithin_height
    have hsuffices : s.source.Suffices v.place.node.height node := ⟨hpos, fun _ => hends⟩
    have hmore : Conversion.visit s.source host.regardless .endless (s.source.levels node) node =
        Conversion.visit s.source host.regardless .endless v.place.node.height node :=
      Conversion.visit_eq_of_suffices _ (hsuffices.mono hlevels) hsuffices
    rw [Conversion.faultBeyond, Conversion.levelsWithin, hmore]
    exact congrArg (·.run []) (halike.visit host _ _ h)

theorem parentTag?_top {id : NodeId} (h : (s.get id).parent = none) (m : Markup) :
    Conversion.parentTag? s.source (.stored id) =
      Conversion.parentTag? View.source (.wrap (.top m)) := by
  have hstored : s.source.parent (.stored id) = none := congrArg (Option.map Node.stored) h
  rw [Conversion.parentTag?, hstored]
  rfl

theorem exists_mirrors (o : Outline) (ho : o.WellNamed) (s : NodeStore) :
    ∃ id s', s.build o.draft = (.stored id, s') ∧
      s'.Mirrors (.stored id) (.wrap (.top o.markup)) ∧ o.markup.height ≤ s'.nodes.size := by
  cases o with
  | single root =>
    obtain ⟨id, s', hbuild, hstand, hgrown, hheight⟩ := exists_stands root s
    have hroot := (hgrown.fresh id List.mem_cons_self).2.2
    exact ⟨id, s', hbuild, .tree hstand ho (parentTag?_top hroot _),
      Nat.le_trans (Nat.le_add_left ..) hheight⟩
  | roots ts =>
    obtain ⟨ids, s₁, hbuild, hstand, hgrown, hheight⟩ := exists_standAll ts s
    have hadd := hgrown.add .fragment
    have hroot := (hadd.fresh _ List.mem_cons_self).2.2
    refine ⟨s₁.nodes.size, (s₁.add .fragment (ids.map .stored)).2, ?_, ?_, ?_⟩
    · rw [Outline.draft, build, hbuild]
      rfl
    · refine .roots ?_ ?_ ho (parentTag?_top hroot _)
      · rw [content_add, if_pos rfl]
      · rw [children_add, if_pos rfl]
        exact hgrown.standAll_add .fragment hstand
    · rw [size_add, Outline.markup, Markup.height]
      omega

end NodeStore

/-! ## The props strategies -/

/-- The standard strategy does not look at the element, whatever its tables and helpers. -/
theorem standardStrategy_regardless {ν : Type} (helpers : PropsHelpers) (names : PropNames) :
    (standardStrategy helpers names : PropsStrategy ν) =
      (standardStrategy helpers names).regardless := rfl

/-- **A hand-built tree and a parsed one are interchangeable.** Take any tree in which no element has
two attributes whose names differ in case only, and collaborators that do not look at the element.
Built by hand, in whatever store, and parsed, it is converted under any limit by the same calls, to
the same result or fault, with the same writes. -/
theorem convert_build_eq_convert_markup (o : Outline) (ho : o.WellNamed) (s : NodeStore)
    (host : Host Unit) (limit : Option Int) :
    let built := s.build o.draft
    (convert built.2.source host.regardless limit built.1).forget =
      (convert View.source host.regardless limit (.wrap (.top o.markup))).forget := by
  obtain ⟨id, s', hbuild, hmirrors, hheight⟩ := NodeStore.exists_mirrors o ho s
  dsimp only
  rw [hbuild]
  exact hmirrors.convert_eq (Nat.le_trans hheight (Nat.le_add_right ..)) host limit

/-- A card with tokens, a title for a slot, and a comment. -/
def cardOutline : Outline :=
  .roots [.element "X-Card" [("CLASS", .tokens ["wide", "dark"]), ("id", .whole "7")]
    [.element "b" [("slot", .whole "title")] [.text "Hello"], .comment "end of title"]]

/-- Collaborators that know of cards and use the standard strategy. -/
def standardCards (ν : Type) : Host ν :=
  (Converter.plain [("x-card", .component ⟨0, "Card", none, false⟩)]
    (some (standardStrategy {} .strict))).host

theorem convert_build_eq_convert_markup_card :
    cardOutline.WellNamed ∧
      (convert (NodeStore.empty.build cardOutline.draft).2.source (standardCards Node) none
          (NodeStore.empty.build cardOutline.draft).1).forget =
        (convert View.source (standardCards View) none (.wrap (.top cardOutline.markup))).forget := by
  have hnames : cardOutline.WellNamed :=
    ⟨⟨by decide, ⟨by decide, trivial, trivial⟩, trivial, trivial⟩, trivial⟩
  exact ⟨hnames,
    convert_build_eq_convert_markup cardOutline hnames .empty (standardCards Unit) none⟩

end ComponentTree
