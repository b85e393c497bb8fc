import ComponentTree.Markup.Library
import ComponentTree.Proofs.Assoc
import ComponentTree.Proofs.Source.Interchange
import Mathlib.Data.List.Lex

/-!
# What is relied on in a library that reads HTML

Of the documents that a library makes it is relied on that they are well formed (`Markup.Assembled`):
elements have names that begin with a letter, no two attributes of an element have the same name, and
there are no documents inside of documents. Of its search it is relied on that it finds the first
template in document order (`Markup.FirstTemplate`). No more is known of a library (`Library.Lawful`).

The nodes of a document are told apart by the way that leads to them, the positions of the children to
take. Document order is the lexicographic order of these ways: an element stands before all that is
inside it, and that before all that follows the element.

What is assembled so, a sketch can hold. So every parsed tree can be built by hand too
(`Library.Lawful.exists_sketches`).
-/

namespace ComponentTree.Markup

/-! ## Templates -/

/-- A template with an identifier. -/
def IsTemplate (id : String) (m : Markup) : Prop :=
  ∃ attributes content, m = .element "template" attributes content ∧
    Assoc.get? "id" attributes = some (.str id)

/-- Some place of the tree holds a template with the identifier. -/
def HasTemplate (id : String) (root : Markup) : Prop :=
  ∃ path p, (Place.top root).follow? path = some p ∧ p.node.IsTemplate id

/-- The place holds a template with the identifier, and no place before it does. -/
structure FirstTemplate (id : String) (root : Markup) (path : List Nat) (p : Place) : Prop where
  reached : (Place.top root).follow? path = some p
  isTemplate : p.node.IsTemplate id
  first : ∀ path' < path, ∀ q, (Place.top root).follow? path' = some q → ¬ q.node.IsTemplate id

section Templates

variable {id : String} {m root : Markup} {path path' : List Nat} {p p' : Place}

theorem IsTemplate.kind (h : m.IsTemplate id) : m.kind = .element := by
  obtain ⟨_, _, rfl, -⟩ := h
  rfl

/-- There is at most one first template. -/
theorem FirstTemplate.unique (h : FirstTemplate id root path p)
    (h' : FirstTemplate id root path' p') : p = p' := by
  rcases lt_trichotomy path path' with hlt | rfl | hlt
  · exact absurd h.isTemplate (h'.first path hlt p h.reached)
  · exact Option.some.inj (h.reached.symm.trans h'.reached)
  · exact absurd h'.isTemplate (h.first path' hlt p' h'.reached)

end Templates

/-! ## Nodes that sketches can hold -/

/-- The node is what some sketch looks like when it is parsed. -/
def Drawn (m : Markup) : Prop := ∃ t : Sketch, t.WellNamed ∧ t.markup = m

/-- The attributes are what those of a sketch look like when they are parsed. -/
def DrawnAttributes (attributes : List (String × Value)) : Prop :=
  ∃ held : List (String × AttributeText), (held.map fun a => lowercase a.1).Nodup ∧
    (held.map fun (name, value) => (name, value.parsed)) = attributes

theorem exists_sketches {ms : List Markup} (h : ∀ m ∈ ms, Drawn m) :
    ∃ ts, Sketch.AllWellNamed ts ∧ Sketch.markupAll ts = ms := by
  induction ms with
  | nil => exact ⟨[], trivial, rfl⟩
  | cons m ms ih =>
    obtain ⟨⟨t, ht, rfl⟩, hms⟩ := List.forall_mem_cons.mp h
    obtain ⟨ts, hts, rfl⟩ := ih hms
    exact ⟨t :: ts, ⟨ht, hts⟩, rfl⟩

theorem drawn_element {name : String} {attributes : List (String × Value)} {content : List Markup}
    (ha : DrawnAttributes attributes) (hc : ∀ m ∈ content, Drawn m) :
    Drawn (.element name attributes content) := by
  obtain ⟨held, hnames, rfl⟩ := ha
  obtain ⟨ts, hts, rfl⟩ := exists_sketches hc
  exact ⟨.element name held ts, ⟨hnames, hts⟩, rfl⟩

theorem drawn_text (s : String) : Drawn (.text s) := ⟨.text s, trivial, rfl⟩

theorem drawn_other (s : String) : Drawn (.other (some s)) := ⟨.comment s, trivial, rfl⟩

/-- What passes from a node to all that is inside it, passes on along every way down. -/
theorem holds_of_follow? (property : Markup → Prop) {root p : Place} {path : List Nat}
    (hinside : ∀ m, property m → ∀ m' ∈ m.content, property m') (hp : root.follow? path = some p)
    (h : property root.node) : property p.node := by
  induction path generalizing root with
  | nil => cases hp; exact h
  | cons i path ih =>
    obtain ⟨child, hchild, hp⟩ := Option.bind_eq_some_iff.mp hp
    obtain ⟨m, hm, rfl⟩ := List.mem_map.mp (List.mem_of_getElem? hchild)
    exact ih hp (hinside _ h m hm)

mutual
theorem textual_markup : ∀ t : Sketch, t.markup.Textual
  | .element _ attributes children => by
    refine ⟨fun a ha => ?_, textualAll_markupAll children⟩
    obtain ⟨held, -, rfl⟩ := List.mem_map.mp ha
    exact ⟨some held.2.joined, NodeStore.joined_parsed held.2⟩
  | .text _ => trivial
  | .comment _ => trivial

/-- All attributes of sketches are texts, or lists of texts. -/
theorem textualAll_markupAll : ∀ ts : List Sketch, TextualAll (Sketch.markupAll ts)
  | [] => trivial
  | t :: ts => ⟨textual_markup t, textualAll_markupAll ts⟩
end

/-! ## Well-formed documents -/

/-- The name begins with a small letter of ASCII, as the names of parsed elements do. -/
def IsTag (name : String) : Prop := ∃ c ∈ name.toList.head?, c.isLower = true

/-- A node that can be put together of tokens. The names of elements come from start tags, and so do
their attributes; documents do not stand inside of others. -/
inductive Assembled : Markup → Prop
  | element {name : String} {attributes : List (String × Value)} {content : List Markup} :
      IsTag name → DrawnAttributes attributes → (∀ m ∈ content, Assembled m) →
      Assembled (.element name attributes content)
  | text (s : String) : Assembled (.text s)
  | other (s : String) : Assembled (.other (some s))

theorem Assembled.drawn {m : Markup} (h : Assembled m) : Drawn m := by
  induction h with
  | element _ hattributes _ ih => exact drawn_element hattributes ih
  | text s => exact drawn_text s
  | other s => exact drawn_other s

theorem Assembled.of_mem_content {m m' : Markup} (hm : Assembled m) (h : m' ∈ m.content) :
    Assembled m' := by
  cases hm with
  | element _ _ hcontent => exact hcontent m' h
  | text s => cases h
  | other s => cases h

/-! ## Libraries -/

/-- What is relied on in a library. -/
structure Library.Lawful (library : Library) : Prop where
  /-- What is parsed is a document of well-formed nodes. -/
  parsed : ∀ {html document}, library.parse html = .ok document →
    ∃ content, document = .document content ∧ ∀ m ∈ content, Assembled m
  /-- What is found in it is the first template in document order. -/
  found : ∀ {html document}, library.parse html = .ok document → ∀ {id p},
    library.findTemplate? id document = some p ↔ ∃ path, FirstTemplate id document path p

namespace Library.Lawful

variable {library : Library} {html id : String} {document : Markup} {path : List Nat} {p : Place}

theorem findTemplate?_of_first (h : library.Lawful) (hparse : library.parse html = .ok document)
    (hfirst : FirstTemplate id document path p) : library.findTemplate? id document = some p :=
  (h.found hparse).mpr ⟨path, hfirst⟩

theorem findTemplate?_of_not_hasTemplate (h : library.Lawful)
    (hparse : library.parse html = .ok document) (hnone : ¬ HasTemplate id document) :
    library.findTemplate? id document = none := by
  rw [Option.eq_none_iff_forall_ne_some]
  intro p hp
  obtain ⟨path, hfirst⟩ := (h.found hparse).mp hp
  exact hnone ⟨path, p, hfirst.reached, hfirst.isTemplate⟩

/-- All that is inside of a parsed document is well formed. -/
theorem assembled_of_follow? (h : library.Lawful) (hparse : library.parse html = .ok document)
    (hp : (Place.top document).follow? path = some p) : ∀ m ∈ p.node.content, Assembled m := by
  obtain ⟨content, rfl, hcontent⟩ := h.parsed hparse
  exact holds_of_follow? (fun m => ∀ m' ∈ m.content, Assembled m')
    (fun _ hm m' hm' _ hinside => (hm m' hm').of_mem_content hinside) hp hcontent

/-- What is inside of any place of a parsed document, sketches can hold. -/
theorem exists_sketches (h : library.Lawful) (hparse : library.parse html = .ok document)
    (hp : (Place.top document).follow? path = some p) :
    ∃ ts, p.node.content = Sketch.markupAll ts ∧ Sketch.AllWellNamed ts := by
  obtain ⟨ts, hts, hcontent⟩ :=
    Markup.exists_sketches fun m hm => (h.assembled_of_follow? hparse hp m hm).drawn
  exact ⟨ts, hcontent.symm, hts⟩

/-- All attributes inside of a parsed document are texts, or lists of texts. -/
theorem textual_of_follow? (h : library.Lawful) (hparse : library.parse html = .ok document)
    (hp : (Place.top document).follow? path = some p) : p.node.Textual := by
  have htop : (Place.top document).follow? [] = some (.top document) := rfl
  obtain ⟨content, rfl, -⟩ := h.parsed hparse
  obtain ⟨ts, hcontent, -⟩ := h.exists_sketches hparse htop
  obtain rfl : content = Sketch.markupAll ts := hcontent
  exact holds_of_follow? Textual (fun _ hm _ hm' => hm.of_mem_content hm') hp
    (textualAll_markupAll ts)

end Library.Lawful

end ComponentTree.Markup
