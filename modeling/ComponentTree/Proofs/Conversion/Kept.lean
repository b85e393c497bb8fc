import ComponentTree.Proofs.Conversion.Plain
import ComponentTree.Proofs.Conversion.Slots

/-!
# Which slotted children are kept

The results of the children of a component are first collected under the names of their slots and
then set in the props, each at the path that its name is. So one child can displace another in two
ways: by the same name, where the last child counts, and by a name that competes, where the name
counts that is set last. Names are set in the order in which they first came up, and not in that of
the children that hold them.

A child is kept if it is the last one of its name and no name that competes with it came up after it
(`slotted_child_kept`). Being the last child with such a path is not enough (`lostCard`).
-/

namespace ComponentTree

open Conversion

variable {ν : Type}

namespace Conversion

variable {source : Source ν} {host : Host ν} {beyond : Fault} {part : ν → Prop}

/-- The slots that children name, in document order. -/
def slotNames (source : Source ν) (children : List ν) : List String :=
  children.filterMap (slotName? source)

/-- No name that first came up after this one competes with it. -/
def Uncontested (names : List String) (slot : String) : Prop :=
  ∀ name ∈ names, names.idxOf slot < names.idxOf name → ¬ Path.Competes slot name

/-- The descriptor that a child gave at its turn is found in props, at the path of a slot. -/
def Kept (source : Source ν) (host : Host ν) (beyond : Fault) (v : Visit ν) (props : Entries)
    (child : ν) (slot : String) : Prop :=
  ∃ owner c value, Turn source host beyond v owner c ∧ c.node = child ∧
    (c.run source host beyond).outcome = .ok value ∧
    Path.lookup (.dict none props) (Path.keys slot) = some value

theorem map_fst_routedPairs (result : ν → Value) (children : List ν) :
    (routedPairs source true result children).map Prod.fst = slotNames source children := by
  rw [routedPairs, slotNames, List.map_filterMap]
  apply List.filterMap_congr
  intro child _
  show ((slotName? source child).map _).map _ = _
  rw [Option.map_map]
  exact Option.map_id_apply ..

/-- Of the routed pairs of a component, the last one of an uncontested name is found in the props. -/
theorem lookup_plainProps {names : PropNames} {component : Value} {attributes : List (String × Value)}
    {result : ν → Value} {before after : List ν} {child : ν} {slot : String}
    (hc : component.truthy = true) (hslot : slotName? source child = some slot)
    (hlast : slot ∉ slotNames source after)
    (huncontested : Uncontested (slotNames source (before ++ child :: after)) slot) :
    Path.lookup (.dict none (plainProps (some names) component attributes
      (Assoc.ofPairs (routedPairs source component.truthy result (before ++ child :: after)))))
      (Path.keys slot) = some (result child) := by
  have hpairs : routedPairs source component.truthy result (before ++ child :: after) =
      routedPairs source true result before ++
        (slot, result child) :: routedPairs source true result after := by
    simp [routedPairs, routedTo, hc, hslot]
  have hnames : (routedPairs source true result before ++
      (slot, result child) :: routedPairs source true result after).map Prod.fst =
        slotNames source (before ++ child :: after) := by
    rw [← map_fst_routedPairs result (before ++ child :: after), ← hpairs, hc]
  have hlast' : slot ∉ (routedPairs source true result after).map Prod.fst := by
    rwa [map_fst_routedPairs]
  obtain ⟨before', after', hsplit, hafter⟩ := Assoc.exists_split_ofPairs
    (routedPairs source true result before) (result child) hlast'
  rw [hnames] at hafter
  -- whatever is set later came up later, so it does not compete
  have hapart : ∀ row ∈ Props.rowsOf after', ¬ Path.Comparable row.1 (Path.keys slot) := by
    intro row hrow hcomparable
    obtain ⟨entry, hentry, rfl⟩ := List.mem_map.mp hrow
    obtain ⟨hmem, hlt⟩ := hafter entry hentry
    exact huncontested entry.1 hmem hlt (Path.competes_iff.mpr hcomparable.symm)
  rw [plainProps, if_pos hc, hpairs, hsplit, Props.rowsOf, List.map_append, List.map_cons]
  exact Path.lookup_assignAll_self (Path.keys_ne_nil slot) hapart

end Conversion

section Kept

variable {source : Source ν} {part : ν → Prop} {root : ν}

/-- **The last child of an uncontested slot is kept.** Take any visit of a component in a conversion
to plain element values with the standard strategy, that gives a descriptor. A routed child whose slot
no later child names is found in the props at the path of the slot, exactly as the child was
converted, unless a name that competes with the slot came up after it. In particular the last child
of the name that came up last of all is found. -/
theorem slotted_child_kept (hr : source.Readable part) (hroot : part root)
    (registered : String → Value) (fragmentType : Value) (names : PropNames) (limit : Option Int)
    {v : Visit ν} {descriptor : Value}
    (hv : Reached source (.plain registered fragmentType (some names)) (faultBeyond limit)
      (.first source limit root) v)
    (hcomponent : IsComponent source (.plain registered fragmentType (some names)) v.node)
    (hgives : (v.run source (.plain registered fragmentType (some names))
      (faultBeyond limit)).outcome = .ok descriptor) :
    ∃ type props children, descriptor = .element type props children ∧
      (∀ before child after slot, source.children v.node = before ++ child :: after →
        slotName? source child = some slot → slot ∉ slotNames source after →
        Uncontested (slotNames source (source.children v.node)) slot →
        Kept source (.plain registered fragmentType (some names)) (faultBeyond limit) v props child
          slot) ∧
      ∀ before child after slot, source.children v.node = before ++ child :: after →
        slotName? source child = some slot → slot ∉ slotNames source after →
        (∀ name ∈ slotNames source (source.children v.node),
          (slotNames source (source.children v.node)).idxOf name ≤
            (slotNames source (source.children v.node)).idxOf slot) →
        Kept source (.plain registered fragmentType (some names)) (faultBeyond limit) v props child
          slot := by
  obtain ⟨hpart, hearlier⟩ := earlier_eq_nil hr hroot rfl hv
  obtain ⟨he, component, hfound, htruthy⟩ := hcomponent
  obtain rfl : registered (tagOf source v.node) = component := Except.ok.inj hfound
  obtain ⟨node, levels, earlier⟩ := v
  obtain rfl : earlier = [] := hearlier
  obtain ⟨below, attributes, result, rfl, hattributes, hresult, rfl⟩ :=
    exists_describe hr hpart he hgives
  have hkept : ∀ before child after slot, source.children node = before ++ child :: after →
      slotName? source child = some slot → slot ∉ slotNames source after →
      Uncontested (slotNames source (source.children node)) slot →
      Kept source (.plain registered fragmentType (some names)) (faultBeyond limit)
        ⟨node, below + 1, []⟩ (plainProps (some names) (registered (tagOf source node))
          (passedOf registered (parentTag? source node) attributes)
          (Assoc.ofPairs (routedPairs source (registered (tagOf source node)).truthy result
            (source.children node)))) child slot := by
    intro before child after slot hch hslot hlast huncontested
    have hmem : ∀ other ∈ before ++ child :: after, other ∈ source.children node :=
      fun other hother => hch ▸ hother
    have hk := kind_of_slotName? hslot
    have hattribute := fun other hother =>
      hr.attributeText (hr.children hpart (hmem other hother)) slotAttribute
    obtain ⟨text, htext⟩ := hattribute child (by simp)
    have hbefore : (placeChildren source (.plain registered fragmentType (some names))
        (faultBeyond limit) below (some ⟨node, registered (tagOf source node)⟩) before).Gives _ :=
      Course.forEach_gives fun other hother =>
        placeChild_gives _ result (hattribute other (List.mem_append_left _ hother))
          fun hk' => (hresult other (hmem other (List.mem_append_left _ hother)) hk').1
    have hturn : Turn source (.plain registered fragmentType (some names)) (faultBeyond limit)
        ⟨node, below + 1, []⟩ _ _ :=
      .intro (.element he hfound hattributes) hch hbefore.1 hk htext
    rw [hbefore.2] at hturn
    refine ⟨_, _, result child, hturn, rfl, (hresult child (hmem child (by simp)) hk).1.1, ?_⟩
    rw [hch] at huncontested ⊢
    exact lookup_plainProps htruthy hslot hlast huncontested
  refine ⟨_, _, _, rfl, hkept, fun before child after slot hch hslot hlast hnewest => ?_⟩
  exact hkept before child after slot hch hslot hlast fun name hname hlt =>
    absurd (hnewest name hname) (Nat.not_le.mpr hlt)

/-! ### Cards with three children in slots -/

/-- Where every attribute is a text, parsed markup is readable. -/
theorem View.readable : View.source.Readable View.Readable where
  children := fun ha hb => ha.of_mem_children hb
  attributeText := fun ha name => ha _ .refl name

/-- A single component, under the tag `x-card`. -/
def cardTypes (tag : String) : Value :=
  if tag = "x-card" then .component ⟨0, "Card", none, false⟩ else .null

/-- Cards and the standard strategy, with no names of its own. -/
def cardStandard : Host View := .plain cardTypes .fragment (some ⟨[], []⟩)

def slotted (slot text : String) : Markup := .element "b" [("slot", .str slot)] [.text text]

/-- What such a child is converted to. -/
def bold (text : String) : Value := .element (.str "b") [] [.str text]

theorem slotted_textual (slot text : String) : (slotted slot text).Textual := by
  refine ⟨fun a ha => ?_, trivial, trivial⟩
  rw [List.mem_singleton.mp ha]
  exact ⟨some slot, rfl⟩

/-- A card of which the second child names the slot that comes up last. -/
def deepCard : Markup :=
  .element "x-card" [] [slotted "a" "1", slotted "a.b" "2", slotted "a" "3"]

theorem slotted_child_kept_deepCard :
    (View.wrap (.top deepCard)).Readable ∧
      IsComponent View.source cardStandard (.wrap (.top deepCard)) ∧
      ∃ props child, (convert View.source cardStandard none (.wrap (.top deepCard))).outcome =
          .ok (.element (cardTypes "x-card") props []) ∧
        slotName? View.source child = some "a.b" ∧
        Kept View.source cardStandard .endless (.first View.source none (.wrap (.top deepCard))) props
          child "a.b" := by
  have htextual : deepCard.Textual :=
    ⟨by simp, slotted_textual _ _, slotted_textual _ _, slotted_textual _ _, trivial⟩
  have hreadable : (View.wrap (.top deepCard)).Readable := View.readable_of_textual htextual
  have hcomponent : IsComponent View.source cardStandard (.wrap (.top deepCard)) :=
    ⟨rfl, cardTypes "x-card", rfl, rfl⟩
  have hnames : Uncontested ["a", "a.b", "a"] "a.b" := by
    unfold Uncontested
    decide
  obtain ⟨type, props, children, heq, hkept, -⟩ := slotted_child_kept View.readable hreadable
    cardTypes .fragment ⟨[], []⟩ none .start hcomponent rfl
  cases heq
  have hch : View.source.children (.wrap (.top deepCard)) = [_] ++ _ :: [_] := rfl
  exact ⟨hreadable, hcomponent, _, _, rfl, rfl,
    hkept _ _ _ "a.b" hch rfl (by decide) hnames⟩

/-- A card of which the last child names a slot that came up before one that competes with it. -/
def lostCard : Markup :=
  .element "x-card" [] [slotted "a.b" "1", slotted "a" "2", slotted "a.b" "3"]

/-- **The last child may be lost.** No child comes after the third one, but nothing is found at its
path: its slot was set first, with its descriptor, and then the slot of the second child. -/
theorem lostCard_loses_last :
    ∃ props before last, (convert View.source cardStandard none (.wrap (.top lostCard))).outcome =
        .ok (.element (cardTypes "x-card") props []) ∧
      View.source.children (.wrap (.top lostCard)) = before ++ [last] ∧
      slotName? View.source last = some "a.b" ∧
      (convert View.source cardStandard none last).outcome = .ok (bold "3") ∧
      Path.lookup (.dict none props) (Path.keys "a.b") = none := by
  exact ⟨[(.str "a", bold "2")], [_, _], _, rfl, rfl, rfl, rfl, rfl⟩

end Kept

end ComponentTree
