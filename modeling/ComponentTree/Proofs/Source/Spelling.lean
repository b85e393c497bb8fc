import Mathlib
import ComponentTree.Converter
import ComponentTree.Proofs.Source.Attributes
import ComponentTree.Proofs.Source.View

/-!
# Names that differ in case only

Attributes whose names differ in case only are told apart by how an element came about. A hand-built one
lists their name once and has the text of the last of them; a parsed one lists it for each of them and has
the text of the first. So both show the same exactly if there are no such attributes
(`attributes_agree_iff`). A conversion does not mind a name that is listed twice, but it does mind the
text, and if the name is that of the slot attribute, the text decides where the element goes
(`slotTwice_resolved_apart`).
-/

namespace ComponentTree

open Props (lastNamed)

/-- The text of the first attribute with a name, if one has it. -/
def Props.firstNamed (naming : String → String) (attributes : List (String × String)) (name : String) :
    Option String :=
  (attributes.find? fun entry => naming entry.1 == name).map Prod.snd

open Props (firstNamed)

/-- A parsed element with attributes, wherever it is in its document. -/
def View.ofElement (tag : String) (attributes : List (String × String)) (content above : List Markup) :
    View :=
  .wrap ⟨.element tag (Props.texts attributes) content, above⟩

variable {tag : String} {attributes : List (String × String)} {content above : List Markup}

/-! ## What a parsed element shows -/

namespace View

theorem attributeNames_ofElement :
    View.source.attributeNames (ofElement tag attributes content above) = givenNames attributes := by
  show (Props.texts attributes).map _ = _
  rw [Props.texts, List.map_map]
  rfl

theorem attributeValue_ofElement (name : String) :
    View.source.attributeValue (ofElement tag attributes content above) name =
      .ok (.ofString? (firstNamed lowercase attributes (lowercase name))) := by
  have hattributes : (ofElement tag attributes content above).attributes = Props.texts attributes := rfl
  show View.attributeValue _ name = _
  rw [View.attributeValue, hattributes, Props.texts, List.find?_map, firstNamed]
  have hsame : ((fun a : String × Value => lowercase a.1 == lowercase name) ∘
      fun entry : String × String => (entry.1, Value.str entry.2)) =
      fun entry => lowercase entry.1 == lowercase name := rfl
  simp only [hsame]
  cases attributes.find? fun entry => lowercase entry.1 == lowercase name <;> rfl

end View

/-! ## Both kinds of elements -/

/-- Of distinct names there is one attribute each, the first and the last one. -/
theorem firstNamed_eq_lastNamed (h : (givenNames attributes).Nodup) (name : String) :
    firstNamed lowercase attributes name = lastNamed lowercase attributes name := by
  have hfirst : Assoc.get? name (attributes.map fun entry => (lowercase entry.1, entry.2)) =
      firstNamed lowercase attributes name := Props.get?_map id attributes
  rw [← NodeContent.get?_attributesOf, NodeContent.attributesOf_of_nodup h, hfirst]

theorem ofString?_injective : Function.Injective Value.ofString? := by
  intro a b h
  cases a <;> cases b <;> simp_all [Value.ofString?]

/-! ## What a conversion collects -/

namespace Conversion

variable {ν μ : Type} {source : Source ν} {source' : Source μ} {a : ν} {b : μ}
variable {collected collected' : List (String × Value)}

theorem keys_collected (h : attributesOf source a = .ok collected) :
    collected.map Prod.fst = (source.attributeNames a).eraseDups := by
  obtain ⟨pairs, rfl, hnames, -⟩ := exists_pairs_of_attributesOf h
  rw [Assoc.keys_ofPairs, hnames]

theorem get?_collected (h : attributesOf source a = .ok collected) {name : String}
    (hname : name ∈ collected.map Prod.fst) :
    ∃ value, source.attributeValue a name = .ok value ∧ Assoc.get? name collected = some value := by
  rw [keys_collected h, List.mem_eraseDups] at hname
  exact get?_attributesOf h hname

/-- Of nodes that list the same names, the same is collected exactly if they tell the same of them. -/
theorem collected_eq_iff (h : attributesOf source a = .ok collected)
    (h' : attributesOf source' b = .ok collected')
    (hkeys : collected.map Prod.fst = collected'.map Prod.fst) :
    collected = collected' ↔ ∀ name ∈ collected.map Prod.fst,
      source.attributeValue a name = source'.attributeValue b name := by
  constructor
  · rintro rfl name hname
    obtain ⟨value, hvalue, hget⟩ := get?_collected h hname
    obtain ⟨value', hvalue', hget'⟩ := get?_collected h' hname
    rw [hvalue, hvalue', Option.some.inj (hget.symm.trans hget')]
  · intro hall
    rw [← Assoc.filterMap_keys (nodup_keys_attributesOf h),
      ← Assoc.filterMap_keys (nodup_keys_attributesOf h'), ← hkeys]
    refine List.filterMap_congr fun name hname => ?_
    obtain ⟨value, hvalue, hget⟩ := get?_collected h hname
    obtain ⟨value', hvalue', hget'⟩ := get?_collected h' (hkeys ▸ hname)
    rw [hget, hget', Except.ok.inj (hvalue.symm.trans ((hall name hname).trans hvalue'))]

end Conversion

namespace View

/-- Whatever a parsed element tells of its attributes, it tells without fail. -/
theorem attributesOf_ofElement (tag : String) (attributes : List (String × String))
    (content above : List Markup) :
    ∃ collected, Conversion.attributesOf View.source (ofElement tag attributes content above) =
      .ok collected := by
  let told := (givenNames attributes).map fun name =>
    (name, Value.ofString? (firstNamed lowercase attributes (lowercase name)))
  have htold : told.map Prod.fst = givenNames attributes := by
    rw [List.map_map]
    exact List.map_id _
  have hvalues : ∀ p ∈ told,
      View.source.attributeValue (ofElement tag attributes content above) p.1 = .ok p.2 := by
    intro p hp
    obtain ⟨name, -, rfl⟩ := List.mem_map.mp hp
    exact attributeValue_ofElement name
  exact ⟨Assoc.ofPairs told,
    Conversion.attributesOf_of_pairs (attributeNames_ofElement.trans htold.symm) hvalues⟩

end View

namespace NodeStore

variable {s s' : NodeStore} {id : NodeId} {children : List Node}

/-- Both elements collect the same names, so only the texts can make a difference. -/
theorem collected_agree_iff (h : (s.get id).content = .ofElement tag attributes)
    (content above : List Markup) :
    Conversion.attributesOf s.source (.stored id) =
        Conversion.attributesOf View.source (.ofElement tag attributes content above) ↔
      ∀ name ∈ givenNames attributes,
        firstNamed lowercase attributes name = lastNamed lowercase attributes name := by
  have hstored := attributesOf_eq h
  obtain ⟨collected, hview⟩ := View.attributesOf_ofElement tag attributes content above
  have hkeys : (Props.texts (NodeContent.attributesOf attributes)).map Prod.fst =
      (givenNames attributes).eraseDups := by
    rw [Props.texts, List.map_map]
    exact NodeContent.keys_attributesOf attributes
  have hkeys' : collected.map Prod.fst = (givenNames attributes).eraseDups := by
    rw [Conversion.keys_collected hview, View.attributeNames_ofElement]
  rw [hstored, hview, Except.ok.injEq,
    Conversion.collected_eq_iff hstored hview (hkeys.trans hkeys'.symm), hkeys]
  have hsame : ∀ name ∈ givenNames attributes,
      s.source.attributeValue (.stored id) name =
          View.source.attributeValue (.ofElement tag attributes content above) name ↔
        firstNamed lowercase attributes name = lastNamed lowercase attributes name := by
    intro name hname
    obtain ⟨entry, -, rfl⟩ := List.mem_map.mp hname
    rw [attributeValue_eq_lastNamed h, View.attributeValue_ofElement, lowercase_lowercase,
      Except.ok.injEq, ofString?_injective.eq_iff, eq_comm]
  simp only [List.mem_eraseDups]
  exact forall₂_congr hsame

/-- **A hand-built and a parsed element with the same attributes show the same exactly if no two names
differ in case only.**

The one lists every name once and has the text of the last attribute with it, the other lists the names of
all attributes and has the text of the first. A conversion collects the same from both exactly if the
first and the last attribute with a name have the same text. -/
theorem attributes_agree_iff (hadd : s.add (.ofElement tag attributes) children = (id, s'))
    (content above : List Markup) :
    FirstMentions (s'.source.attributeNames (.stored id)) (givenNames attributes) ∧
    View.source.attributeNames (.ofElement tag attributes content above) = givenNames attributes ∧
    (∀ name, s'.source.attributeValue (.stored id) name =
      .ok (.ofString? (lastNamed lowercase attributes (lowercase name)))) ∧
    (∀ name, View.source.attributeValue (.ofElement tag attributes content above) name =
      .ok (.ofString? (firstNamed lowercase attributes (lowercase name)))) ∧
    ((s'.source.attributeNames (.stored id) =
          View.source.attributeNames (.ofElement tag attributes content above) ∧
        ∀ name, s'.source.attributeValue (.stored id) name =
          View.source.attributeValue (.ofElement tag attributes content above) name) ↔
      (givenNames attributes).Nodup) ∧
    (Conversion.attributesOf s'.source (.stored id) =
        Conversion.attributesOf View.source (.ofElement tag attributes content above) ↔
      ∀ name ∈ givenNames attributes,
        firstNamed lowercase attributes name = lastNamed lowercase attributes name) := by
  obtain ⟨-, h⟩ := content_of_add hadd
  refine ⟨firstMentions_attributeNames h, View.attributeNames_ofElement,
    attributeValue_eq_lastNamed h, View.attributeValue_ofElement, ⟨?_, fun hnodup => ⟨?_, ?_⟩⟩,
    collected_agree_iff h content above⟩
  · rintro ⟨hnames, -⟩
    have hgiven := hnames.trans View.attributeNames_ofElement
    exact hgiven ▸ (firstMentions_attributeNames h).nodup
  · rw [attributeNames_eq_keys h, NodeContent.attributesOf_of_nodup hnodup, List.map_map,
      View.attributeNames_ofElement]
    rfl
  · exact fun name => (attributeValue_eq_lastNamed h name).trans <| by
      rw [View.attributeValue_ofElement, firstNamed_eq_lastNamed hnodup]

/-- Distinct names in any case: both elements show them lowered and in the same order. -/
theorem attributes_agree_iff_link :
    let link := [("HREF", "#"), ("data-Id", "7")]
    let store := (NodeStore.empty.add (.ofElement "a" link) []).2
    let view := View.ofElement "a" link [] []
    store.source.attributeNames (.stored 0) = View.source.attributeNames view ∧
      View.source.attributeNames view = ["href", "data-id"] ∧
      store.source.attributeValue (.stored 0) "Href" = View.source.attributeValue view "Href" ∧
      View.source.attributeValue view "Href" = .ok (.str "#") := by
  intro link store view
  have hadd : NodeStore.empty.add (.ofElement "a" link) [] = (0, store) := rfl
  obtain ⟨-, hnames, -, hvalue, hagree, -⟩ := attributes_agree_iff hadd [] []
  have hgiven : givenNames link = ["href", "data-id"] := by decide
  obtain ⟨hsame, htold⟩ := hagree.mpr (by rw [hgiven]; decide)
  exact ⟨hsame, hnames.trans hgiven, htold "Href", hvalue "Href"⟩

/-- A slot attribute that is given in two spellings. -/
def slotTwice : List (String × String) :=
  [("Slot", "title"), ("slot", "body")]

/-- A card that holds an element with such attributes, built by hand: first the element, then the card. -/
def cardOfSlotTwice : NodeStore :=
  ((NodeStore.empty.add (.ofElement "b" slotTwice) []).2.add (.ofElement "x-card" []) [.stored 0]).2

/-- The same card, parsed. -/
def parsedCardOfSlotTwice : View :=
  .ofElement "x-card" [] [.element "b" (Props.texts slotTwice) []] []

/-- The names are distinct, but the two elements neither list the same names nor tell the same of them,
and the element goes into one slot of the built card and into another of the parsed one. -/
theorem slotTwice_resolved_apart :
    let components := [("x-card", .component ⟨0, "Card", none, false⟩)]
    let parsed := View.ofElement "b" slotTwice [] []
    let cardWith := fun slot => Value.element (.component ⟨0, "Card", none, false⟩)
      [(.str slot, .element (.str "b") [] [])] []
    (slotTwice.map Prod.fst).Nodup ∧
    (cardOfSlotTwice.source.attributeNames (.stored 0) = ["slot"] ∧
      View.source.attributeNames parsed = ["slot", "slot"]) ∧
    (cardOfSlotTwice.source.attributeValue (.stored 0) "slot" = .ok (.str "body") ∧
      View.source.attributeValue parsed "slot" = .ok (.str "title")) ∧
    (convert cardOfSlotTwice.source (Converter.plain components none).host none
        (.stored 1)).outcome = .ok (cardWith "body") ∧
      (convert View.source (Converter.plain components none).host none
        parsedCardOfSlotTwice).outcome = .ok (cardWith "title") := by
  intro components parsed cardWith
  refine ⟨by decide, ⟨by decide, by decide⟩, ⟨by rfl, by rfl⟩, ?_, ?_⟩
  · cbv
  · cbv

end NodeStore

end ComponentTree
