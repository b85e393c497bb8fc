import ComponentTree.Proofs.Conversion.Visit
import ComponentTree.Proofs.Props.Origin
import ComponentTree.Proofs.Source.Store
import ComponentTree.Proofs.Text.Lowercase

/-!
# Attributes of hand-built elements

An element keeps its attributes under their names in lower case. To set an attribute is as good as to have
built the element with it as well (`setAttribute_ofElement`). So after any run of settings the element
lists the names that were ever given, each once and in the order in which they first came up, and under
any spelling of a name it has the text of what was given last (`attributes_as_last_given`).

Names are lowered when they are given and once more when they are looked up, also those that the element
itself lists. That is harmless since lower case is final (`lowercase_lowercase`).
-/

namespace ComponentTree

open NodeContent (keptTexts)
open Props (lastNamed)

/-! ## Names and texts that are given -/

/-- Names in the order in which they first come up in a list, each of them once. -/
structure FirstMentions (names all : List String) : Prop where
  nodup : names.Nodup
  mem_iff : ∀ name, name ∈ names ↔ name ∈ all
  sorted : names.Pairwise fun a b => all.idxOf a < all.idxOf b

theorem firstMentions_ofPairs {β : Type} (pairs : List (String × β)) :
    FirstMentions ((Assoc.ofPairs pairs).map Prod.fst) (pairs.map Prod.fst) where
  nodup := Assoc.nodup_keys_ofPairs pairs
  mem_iff := fun _ => Assoc.mem_keys_ofPairs
  sorted := Assoc.keys_ofPairs_sorted pairs

/-- The names that are given, in lower case. -/
def givenNames {β : Type} (given : List (String × β)) : List String :=
  given.map fun entry => lowercase entry.1

/-- The text of the value that is given last under any spelling of a name. -/
def lastText? (name : String) (given : List (String × Value)) : Option String :=
  (given.reverse.find? fun entry => lowercase entry.1 == lowercase name).map fun entry =>
    entry.2.display

theorem givenNames_keptTexts (given : List (String × Value)) :
    givenNames (keptTexts given) = givenNames given := by
  rw [givenNames, keptTexts, List.map_map]
  rfl

theorem lastNamed_keptTexts (name : String) (given : List (String × Value)) :
    lastNamed lowercase (keptTexts given) (lowercase name) = lastText? name given := by
  rw [lastNamed, keptTexts, ← List.map_reverse, List.find?_map, Option.map_map]
  rfl

/-! ## The content of an element -/

namespace NodeContent

variable {tag name text : String} {value : Value} {attributes : List (String × String)}

/-- Names that are distinct in lower case are merely lowered. -/
theorem attributesOf_of_nodup (h : (givenNames attributes).Nodup) :
    attributesOf attributes = attributes.map fun entry => (lowercase entry.1, entry.2) := by
  refine Assoc.ofPairs_of_nodup ?_
  rw [List.map_map]
  exact h

theorem keys_attributesOf (attributes : List (String × String)) :
    (attributesOf attributes).map Prod.fst = (givenNames attributes).eraseDups := by
  rw [attributesOf, Assoc.keys_ofPairs, List.map_map]
  rfl

theorem firstMentions_attributesOf (attributes : List (String × String)) :
    FirstMentions ((attributesOf attributes).map Prod.fst) (givenNames attributes) := by
  have hnames : (attributes.map fun entry => (lowercase entry.1, entry.2)).map Prod.fst =
      givenNames attributes := by
    rw [List.map_map]
    rfl
  rw [← hnames]
  exact firstMentions_ofPairs _

/-- The last attribute with a name gives its text. -/
theorem get?_attributesOf (key : String) (attributes : List (String × String)) :
    Assoc.get? key (attributesOf attributes) = lastNamed lowercase attributes key := by
  rw [attributesOf, Assoc.get?_ofPairs, ← List.map_reverse]
  exact Props.get?_map id attributes.reverse

/-- The names of the map are in lower case, so lowering them changes nothing. -/
theorem lowercase_of_mem_attributesOf (h : (name, text) ∈ attributesOf attributes) :
    lowercase name = name := by
  obtain ⟨entry, -, heq⟩ := List.mem_map.mp (Assoc.mem_ofPairs h)
  cases heq
  exact lowercase_lowercase entry.1

/-- **Setting an attribute is as good as having given it from the start.** -/
theorem setAttribute_ofElement :
    (ofElement tag attributes).setAttribute name value =
      .ofElement tag (attributes ++ [(name, value.display)]) := by
  have hset : Assoc.set (lowercase name) value.display (attributesOf attributes) =
      attributesOf (attributes ++ [(name, value.display)]) := by
    rw [attributesOf, attributesOf, List.map_append]
    exact (Assoc.setAll_append [] _ [(lowercase name, value.display)]).symm
  rw [ofElement, setAttribute, hset]
  rfl

end NodeContent

namespace NodeStore

variable {s : NodeStore} {id : NodeId} {tag : String} {attributes : List (String × String)}

/-! ## What an element shows -/

/-- The number that a node is built under leads to its content. -/
theorem content_of_add {s' : NodeStore} {content : NodeContent} {children : List Node}
    (hadd : s.add content children = (id, s')) :
    id < s'.nodes.size ∧ (s'.get id).content = content := by
  have hid : s.nodes.size < (s.add content children).2.nodes.size := by simp
  have hcontent : ((s.add content children).2.get s.nodes.size).content = content := by
    rw [content_add, if_pos rfl]
  obtain ⟨rfl, rfl⟩ := Prod.mk.inj hadd
  exact ⟨hid, hcontent⟩

theorem attributeNames_eq_keys (h : (s.get id).content = .ofElement tag attributes) :
    s.source.attributeNames (.stored id) = (NodeContent.attributesOf attributes).map Prod.fst :=
  congrArg (fun content => content.attributes.map Prod.fst) h

theorem firstMentions_attributeNames (h : (s.get id).content = .ofElement tag attributes) :
    FirstMentions (s.source.attributeNames (.stored id)) (givenNames attributes) := by
  rw [attributeNames_eq_keys h]
  exact NodeContent.firstMentions_attributesOf attributes

theorem attributeValue_eq_lastNamed (h : (s.get id).content = .ofElement tag attributes) (name : String) :
    s.source.attributeValue (.stored id) name =
      .ok (.ofString? (lastNamed lowercase attributes (lowercase name))) := by
  rw [← NodeContent.get?_attributesOf]
  exact congrArg (fun content => Except.ok (Value.ofString? (content.attribute? name))) h

/-- The converter collects the map itself. -/
theorem attributesOf_eq (h : (s.get id).content = .ofElement tag attributes) :
    Conversion.attributesOf s.source (.stored id) =
      .ok (Props.texts (NodeContent.attributesOf attributes)) := by
  have hkeys : (Props.texts (NodeContent.attributesOf attributes)).map Prod.fst =
      (NodeContent.attributesOf attributes).map Prod.fst := by
    rw [Props.texts, List.map_map]
    rfl
  have hnodup := (NodeContent.firstMentions_attributesOf attributes).nodup
  have hnames : s.source.attributeNames (.stored id) =
      (Props.texts (NodeContent.attributesOf attributes)).map Prod.fst := by
    rw [hkeys, attributeNames_eq_keys h]
  have hcollected := Conversion.attributesOf_of_pairs hnames fun p hp => by
    obtain ⟨⟨name, text⟩, hentry, rfl⟩ := List.mem_map.mp hp
    rw [attributeValue_eq_lastNamed h, ← NodeContent.get?_attributesOf,
      NodeContent.lowercase_of_mem_attributesOf hentry, Assoc.get?_of_mem hnodup hentry]
    rfl
  rw [hcollected, Assoc.ofPairs_of_nodup (hkeys ▸ hnodup)]

/-! ## Setting attributes -/

theorem setAttribute?_of_content (hid : id < s.nodes.size)
    (h : (s.get id).content = .ofElement tag attributes) (name : String) (value : Value) :
    ∃ s', s.setAttribute? (.stored id) name value = some s' ∧ id < s'.nodes.size ∧
      (s'.get id).content = .ofElement tag (attributes ++ [(name, value.display)]) := by
  refine ⟨s.updateContent (.stored id) (.setAttribute name value), ?_, ?_, ?_⟩
  · rw [setAttribute?, h]
    rfl
  · rwa [updateContent, size_update]
  · rw [updateContent, get_update, if_pos ⟨rfl, hid⟩, ← NodeContent.setAttribute_ofElement, ← h]

/-- The store after attributes of a node have been set one after the other. None if the node is no
element that was built by hand. -/
def setAttributes? (s : NodeStore) (node : Node) (given : List (String × Value)) : Option NodeStore :=
  given.foldlM (fun s (name, value) => s.setAttribute? node name value) s

/-- A run of settings comes to an element that was built with all that they gave. -/
theorem setAttributes?_of_content {given : List (String × Value)} (hid : id < s.nodes.size)
    (h : (s.get id).content = .ofValues tag given) (later : List (String × Value)) :
    ∃ s', s.setAttributes? (.stored id) later = some s' ∧ id < s'.nodes.size ∧
      (s'.get id).content = .ofValues tag (given ++ later) := by
  induction later generalizing s given with
  | nil => exact ⟨s, rfl, hid, by rwa [List.append_nil]⟩
  | cons entry later ih =>
    obtain ⟨s₁, hset, hid₁, h₁⟩ := setAttribute?_of_content hid h entry.1 entry.2
    have hgiven : keptTexts given ++ [(entry.1, entry.2.display)] = keptTexts (given ++ [entry]) := by
      rw [keptTexts, keptTexts, List.map_append]
      rfl
    rw [hgiven] at h₁
    obtain ⟨s', hrun, hid', h'⟩ := ih hid₁ h₁
    refine ⟨s', ?_, hid', by rwa [List.append_assoc] at h'⟩
    rw [setAttributes?, List.foldlM_cons]
    simp only [hset]
    exact hrun

/-- To set a name changes the text of no other name. -/
theorem attributeValue_setAttribute?_of_ne (hid : id < s.nodes.size)
    (h : (s.get id).content = .ofElement tag attributes) (name : String) (value : Value) :
    ∃ s', s.setAttribute? (.stored id) name value = some s' ∧
      ∀ other, lowercase other ≠ lowercase name →
        s'.source.attributeValue (.stored id) other = s.source.attributeValue (.stored id) other := by
  obtain ⟨s', hset, -, h'⟩ := setAttribute?_of_content hid h name value
  refine ⟨s', hset, fun other hne => ?_⟩
  have hlast : lastNamed lowercase (attributes ++ [(name, value.display)]) (lowercase other) =
      lastNamed lowercase attributes (lowercase other) := by
    rw [lastNamed, List.reverse_concat, List.find?_cons_of_neg (by simpa using Ne.symm hne)]
    rfl
  rw [attributeValue_eq_lastNamed h', attributeValue_eq_lastNamed h, hlast]

/-- A name that is listed was given, so it has a text. -/
theorem attributeValue_ne_null (h : (s.get id).content = .ofElement tag attributes) {name : String}
    (hname : name ∈ s.source.attributeNames (.stored id)) :
    s.source.attributeValue (.stored id) name ≠ .ok .null := by
  obtain ⟨entry, hentry, rfl⟩ :=
    List.mem_map.mp (((firstMentions_attributeNames h).mem_iff name).mp hname)
  have hsome : (lastNamed lowercase attributes (lowercase (lowercase entry.1))).isSome = true :=
    Props.isSome_lastNamed.mpr ⟨entry, hentry, (lowercase_lowercase entry.1).symm⟩
  obtain ⟨text, htext⟩ := Option.isSome_iff_exists.mp hsome
  rw [attributeValue_eq_lastNamed h, htext]
  simp [Value.ofString?]

/-- **The attributes of an element are an ordered map that pays no heed to case**, whatever it was built
with and whatever was set since. -/
theorem attributes_as_last_given {s₀ : NodeStore} {children : List Node} {given : List (String × Value)}
    (hadd : s.add (.ofValues tag given) children = (id, s₀))
    (later : List (String × Value)) :
    ∃ s', s₀.setAttributes? (.stored id) later = some s' ∧
      FirstMentions (s'.source.attributeNames (.stored id)) (givenNames (given ++ later)) ∧
      (∀ name, s'.source.attributeValue (.stored id) name =
        .ok (.ofString? (lastText? name (given ++ later)))) ∧
      (∀ name value, ∃ s'', s'.setAttribute? (.stored id) name value = some s'' ∧
        ∀ other, lowercase other ≠ lowercase name →
          s''.source.attributeValue (.stored id) other = s'.source.attributeValue (.stored id) other) ∧
      (∀ name ∈ s'.source.attributeNames (.stored id),
        s'.source.attributeValue (.stored id) name ≠ .ok .null) ∧
      ∃ collected, Conversion.attributesOf s'.source (.stored id) = .ok collected ∧
        collected.map Prod.fst = s'.source.attributeNames (.stored id) ∧
        ∀ name, Assoc.get? (lowercase name) collected =
          (lastText? name (given ++ later)).map .str := by
  obtain ⟨hid₀, h₀⟩ := content_of_add hadd
  obtain ⟨s', hrun, hid, h⟩ := setAttributes?_of_content hid₀ h₀ later
  refine ⟨s', hrun, ?_, fun name => ?_, fun name value => attributeValue_setAttribute?_of_ne hid h _ _,
    fun name hname => attributeValue_ne_null h hname, _, attributesOf_eq h, ?_, fun name => ?_⟩
  · rw [← givenNames_keptTexts]
    exact firstMentions_attributeNames h
  · rw [attributeValue_eq_lastNamed h, lastNamed_keptTexts]
  · rw [Props.texts, List.map_map, attributeNames_eq_keys h]
    rfl
  · rw [← lastNamed_keptTexts, ← NodeContent.get?_attributesOf]
    exact Assoc.get?_mapValues Value.str _ _

/-- A link is built with a target and a number, then it loses the target and gets a title. -/
theorem attributes_as_last_given_link :
    let link : List (String × Value) := [("HREF", .str "#"), ("data-Id", .int 7)]
    let built := (NodeStore.empty.add (.ofValues "a" link) []).2
    ∃ s', built.setAttributes? (.stored 0) [("href", .null), ("Title", .bool true)] = some s' ∧
      FirstMentions (s'.source.attributeNames (.stored 0)) ["href", "data-id", "href", "title"] ∧
      s'.source.attributeValue (.stored 0) "Href" = .ok (.str "None") ∧
      s'.source.attributeValue (.stored 0) "DATA-ID" = .ok (.str "7") ∧
      s'.source.attributeValue (.stored 0) "slot" = .ok .null := by
  intro link built
  have hadd : NodeStore.empty.add (.ofValues "a" link) [] = (0, built) := rfl
  obtain ⟨s', hrun, hnames, hvalue, -⟩ :=
    attributes_as_last_given hadd [("href", .null), ("Title", .bool true)]
  exact ⟨s', hrun, hnames, (hvalue "Href").trans rfl, (hvalue "DATA-ID").trans rfl,
    (hvalue "slot").trans rfl⟩

end NodeStore

end ComponentTree
