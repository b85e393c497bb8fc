import ComponentTree.Proofs.Conversion.Schedule
import ComponentTree.Proofs.Markup.Template
import ComponentTree.Proofs.Source.Alike

/-!
# Templates are converted in isolation

The content of a template is opened as a fragment. A fragment has neither attributes nor a parent, and it
is all that its children find above them. So nothing of the template itself and nothing around it shows
in the result, which is that of a fragment built by hand (`Converter.agrees_build`). The children of a
fragment are positional children, whatever slots they name, and they keep the slot attribute
(`Conversion.Turn.placement_of_fragment`, `Conversion.HandsOn.all_of_no_parent`).
-/

namespace ComponentTree

variable {ν : Type}

/-! ## Children of fragments -/

namespace Conversion

variable {source : Source ν} {host : Host ν} {beyond : Fault}

/-- What an element child of a fragment comes to is a positional child, whatever slot it names. -/
theorem Turn.placement_of_fragment {v c : Visit ν} {owner : Option (Owner ν)} {value : Value}
    (h : Turn source host beyond v owner c) (hv : source.kind v.node = .fragment)
    (hvalue : (c.run source host beyond).outcome = .ok value) :
    c.placement source host beyond owner = .ok (positional value) := by
  obtain ⟨hopens, -, -, he, hslot⟩ := h
  cases hopens with
  | element he' => rw [hv] at he'; cases he'
  | fragment =>
    rw [Visit.placement, placeChild_element he, hslot, Course.ofExcept_ok, Course.pure_bind,
      Course.run_bind_ok hvalue]
    rfl

/-- An element that finds no element above it hands on all its attributes. -/
theorem HandsOn.all_of_no_parent {v : Visit ν} {attributes : List (String × Value)}
    (h : HandsOn source host beyond v attributes) (hv : parentTag? source v.node = none) :
    attributesOf source v.node = .ok attributes := by
  obtain ⟨-, h⟩ := h
  obtain ⟨component, -, h⟩ := Course.outcome_bind_ok h
  obtain ⟨all, hall, h⟩ := Course.outcome_bind_ok h
  obtain ⟨placements, -, h⟩ := Course.outcome_bind_ok h
  obtain ⟨passed, hpassed, h⟩ := Course.outcome_bind_ok h
  cases h
  have hall : attributesOf source _ = .ok all := hall
  rw [hall]
  obtain ⟨slot, -, hpassed⟩ := Course.outcome_bind_ok hpassed
  split at hpassed
  · rw [parentIsComponent_eq, hv, Course.pure_bind] at hpassed
    exact hpassed
  · exact hpassed

end Conversion

/-! ## The content of a place -/

namespace Converter

open Markup Conversion

variable {c : Converter Unit} {p q : Place} {ts : List Sketch} {document : Markup}

/-- Of what is opened as a fragment only the content counts. -/
theorem agrees_fragment (h : p.node.content = q.node.content) :
    ((c.regardless : Converter View).convert View.source (.fragment p)).Agrees
      ((c.regardless : Converter View).convert View.source (.fragment q)) := by
  have halike : View.Alike (.fragment p) (.fragment q) :=
    View.alike_of_kind_fragment rfl rfl (congrArg _ h) rfl
  exact agrees_of_forget (halike.convert_eq c.host c.limit)

/-- The content of a place is converted as a fragment is that is built of the same content by hand. -/
theorem agrees_build (hts : Sketch.AllWellNamed ts) (hp : p.node.content = Sketch.markupAll ts)
    (s : NodeStore) :
    let built := s.build (.fragment (Sketch.draftAll ts))
    ((c.regardless : Converter View).convert View.source (.fragment p)).Agrees
      ((c.regardless : Converter Node).convert built.2.source built.1) := by
  obtain ⟨id, s', hbuild, hmirrors, hheight⟩ := NodeStore.exists_mirrors (.roots ts) hts s
  have hbuild : s.build (.fragment (Sketch.draftAll ts)) = (.stored id, s') := hbuild
  have halike : View.Alike (.fragment p) (.wrap (.top (.document (Sketch.markupAll ts)))) :=
    View.alike_of_kind_fragment rfl rfl (congrArg _ hp) rfl
  have hbuilt := hmirrors.convert_eq (Nat.le_trans hheight (Nat.le_add_right ..)) c.host c.limit
  rw [hbuild]
  exact agrees_of_forget ((halike.convert_eq c.host c.limit).trans hbuilt.symm)

/-! ## The template that is asked for -/

section Html

variable {library : Library} {c : Converter View} {html id : String} {path : List Nat}

/-- What is parsed only has to be selected. -/
theorem convertHtml_of_parse (hparse : library.parse html = .ok document) (template : Option String) :
    c.convertHtml library html template =
      (selectTemplate library document template).map (c.convert View.source) := by
  have hselect : c.convertHtml library html template =
      selectTemplate library document template >>= fun view => pure (c.convert View.source view) := by
    rw [convertHtml, hparse]
    rfl
  rw [hselect, bind_pure_comp]
  rfl

theorem selectTemplate_of_first (h : library.Lawful) (hparse : library.parse html = .ok document)
    (hfirst : FirstTemplate id document path p) :
    selectTemplate library document (some id) = .ok (.fragment p) := by
  rw [selectTemplate, h.findTemplate?_of_first hparse hfirst]

theorem selectTemplate_of_not_hasTemplate (h : library.Lawful)
    (hparse : library.parse html = .ok document) (hnone : ¬ HasTemplate id document) :
    selectTemplate library document (some id) = .error (.templateNotFound id) := by
  rw [selectTemplate, h.findTemplate?_of_not_hasTemplate hparse hnone]

theorem convertHtml_of_first (h : library.Lawful) (hparse : library.parse html = .ok document)
    (hfirst : FirstTemplate id document path p) :
    c.convertHtml library html (some id) = .ok (c.convert View.source (.fragment p)) := by
  rw [convertHtml_of_parse hparse, selectTemplate_of_first h hparse hfirst]
  rfl

/-- **A template is not found if and only if the document has none with the identifier.** -/
theorem convertHtml_notFound_iff (h : library.Lawful) (hparse : library.parse html = .ok document) :
    c.convertHtml library html (some id) = .error (.templateNotFound id) ↔
      ¬ HasTemplate id document := by
  constructor
  · intro hmissing htemplate
    obtain ⟨path, p, hfirst⟩ := htemplate.exists_first
    rw [convertHtml_of_first h hparse hfirst] at hmissing
    cases hmissing
  · intro hnone
    rw [convertHtml_of_parse hparse, selectTemplate_of_not_hasTemplate h hparse hnone]
    rfl

end Html

end Converter

section Isolation

open Markup Conversion

/-- **The content of a template is converted in isolation.** Take a library that can be relied on, a
document that it makes of a text, an identifier and a converter that does not look at the elements.

The template is not found if and only if no place of the document holds a template with the identifier,
and then no conversion is begun. If there is such a template, the result is that of a fragment built by
hand, in whatever store, of the content of the first one. Nothing else of the document matters, neither
the attributes of the template nor what is around it, nor what is registered for their tags.

Any place that is opened as a fragment is converted by its content alone. The element children that its
conversion turns to hand on all their attributes, the slot attribute included, and what they come to is
a positional child. -/
theorem convertHtml_template {library : Library} (hlibrary : library.Lawful) (c : Converter Unit)
    {html : String} {document : Markup} (hparse : library.parse html = .ok document) (id : String) :
    let result := (c.regardless : Converter View).convertHtml library html (some id)
    let opened (p : Place) := (c.regardless : Converter View).convert View.source (.fragment p)
    let beyond := faultBeyond c.limit
    (result = .error (.templateNotFound id) ↔ ¬ HasTemplate id document) ∧
    (HasTemplate id document → ∃ path p, FirstTemplate id document path p) ∧
    (∀ path p, FirstTemplate id document path p →
      ∃ ts, p.node.content = Sketch.markupAll ts ∧ Sketch.AllWellNamed ts ∧ ∀ s : NodeStore,
        let built := s.build (.fragment (Sketch.draftAll ts))
        ∃ report, result = .ok report ∧
          report.Agrees ((c.regardless : Converter Node).convert built.2.source built.1)) ∧
    (∀ p q : Place, p.node.content = q.node.content → (opened p).Agrees (opened q)) ∧
    ∀ (p : Place) owner child, Turn View.source c.host.regardless beyond
        (.first View.source c.limit (.fragment p)) owner child →
      (∀ attributes, HandsOn View.source c.host.regardless beyond child attributes →
        attributesOf View.source child.node = .ok attributes) ∧
      ∀ value, (child.run View.source c.host.regardless beyond).outcome = .ok value →
        (∃ attributes, HandsOn View.source c.host.regardless beyond child attributes) ∧
        child.placement View.source c.host.regardless beyond owner = .ok (positional value) := by
  intro result opened beyond
  refine ⟨Converter.convertHtml_notFound_iff hlibrary hparse, fun h => h.exists_first, ?_,
    fun p q h => Converter.agrees_fragment h, ?_⟩
  · intro path p hfirst
    obtain ⟨ts, hcontent, hts⟩ := hlibrary.exists_sketches hparse hfirst.reached
    exact ⟨ts, hcontent, hts, fun s => ⟨_, Converter.convertHtml_of_first hlibrary hparse hfirst,
      Converter.agrees_build hts hcontent s⟩⟩
  · intro p owner child hturn
    refine ⟨fun attributes h => h.all_of_no_parent ?_, fun value hvalue =>
      ⟨exists_handsOn hturn hvalue, hturn.placement_of_fragment rfl hvalue⟩⟩
    have hparent : View.source.parent child.node = some (.fragment p) :=
      View.parent_of_mem_children hturn.mem_children
    rw [parentTag?_of_parent hparent]
    rfl

/-- A card with a template inside, whose content names a slot. -/
def cardHtml : String := "<x-card><template id=t slot=a><b slot=title>Hi</b></template></x-card>"

def slottedTitle : Markup := .element "b" [("slot", .str "title")] [.text "Hi"]

def slottedTemplate : Markup :=
  .element "template" [("id", .str "t"), ("slot", .str "a")] [slottedTitle]

def cardDocument : Markup := .document [.element "x-card" [] [slottedTemplate]]

/-- Where the template stands in the document. -/
def templatePlace : Place := ⟨slottedTemplate, [.element "x-card" [] [slottedTemplate], cardDocument]⟩

/-- Cards and templates are components. -/
def cardsAndTemplates : Converter Unit :=
  .plain [("x-card", .component ⟨0, "Card", none, false⟩),
    ("template", .component ⟨1, "Template", none, false⟩)] none

/-- The content of the template, as a conversion of it as a fragment comes to it. -/
def titleView : View := (View.fragment templatePlace).below slottedTitle

theorem convertHtml_template_card :
    library.Lawful ∧ library.parse cardHtml = .ok cardDocument ∧
      (cardsAndTemplates.regardless : Converter View).convertHtml library cardHtml (some "u") =
        .error (.templateNotFound "u") ∧
      (∃ path, FirstTemplate "t" cardDocument path templatePlace) ∧
      (∃ ts, [slottedTitle] = Sketch.markupAll ts ∧ ∀ s : NodeStore,
        let built := s.build (.fragment (Sketch.draftAll ts))
        ∃ report, (cardsAndTemplates.regardless : Converter View).convertHtml library cardHtml
            (some "t") = .ok report ∧
          report.outcome = .ok (.element .fragment []
            [.element (.str "b") [(.str "slot", .str "title")] [.str "Hi"]]) ∧
          report.Agrees ((cardsAndTemplates.regardless : Converter Node).convert built.2.source
            built.1)) ∧
      NamesSlot View.source titleView ∧
      ∃ owner child, child.node = titleView ∧
        Turn View.source cardsAndTemplates.host.regardless (faultBeyond cardsAndTemplates.limit)
          (.first View.source cardsAndTemplates.limit (.fragment templatePlace)) owner child ∧
        HandsOn View.source cardsAndTemplates.host.regardless (faultBeyond cardsAndTemplates.limit)
          child [("slot", .str "title")] := by
  have hparse : library.parse cardHtml = .ok cardDocument := by with_unfolding_all rfl
  have hfound : findTemplate? "t" [] cardDocument = some templatePlace := rfl
  obtain ⟨hmissing, -⟩ := convertHtml_template lawful_library cardsAndTemplates hparse "u"
  obtain ⟨-, -, hbuilt, -, hchildren⟩ :=
    convertHtml_template lawful_library cardsAndTemplates hparse "t"
  obtain ⟨path, hfirst⟩ := findTemplate?_eq_some_iff.mp hfound
  obtain ⟨ts, hcontent, -, hagrees⟩ := hbuilt path templatePlace hfirst
  have hslot : View.source.attributeValue titleView slotAttribute = .ok (.str "title") := rfl
  have hturn : Turn View.source cardsAndTemplates.host.regardless
      (faultBeyond cardsAndTemplates.limit)
      (.first View.source cardsAndTemplates.limit (.fragment templatePlace)) none
      ⟨titleView, 500, _⟩ :=
    .intro (.fragment rfl) (show _ = [] ++ titleView :: [] from rfl) rfl rfl hslot
  obtain ⟨hall, hvalues⟩ := hchildren templatePlace none _ hturn
  obtain ⟨⟨attributes, hands⟩, -⟩ :=
    hvalues (.element (.str "b") [(.str "slot", .str "title")] [.str "Hi"]) rfl
  have hattributes : attributesOf View.source titleView = .ok [("slot", .str "title")] := rfl
  cases Except.ok.inj (hattributes.symm.trans (hall attributes hands))
  refine ⟨lawful_library, hparse, hmissing.mpr (findTemplate?_eq_none_iff.mp rfl), ⟨path, hfirst⟩,
    ⟨ts, hcontent, fun s => ?_⟩, ⟨_, hslot, rfl⟩, none, _, rfl, hturn, hands⟩
  obtain ⟨report, hreport, hbuilt⟩ := hagrees s
  refine ⟨report, hreport, ?_, hbuilt⟩
  rw [Converter.convertHtml_of_first lawful_library hparse hfirst] at hreport
  cases hreport
  rfl

end Isolation

end ComponentTree
