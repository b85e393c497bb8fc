import ComponentTree.Proofs.Conversion.Kept
import ComponentTree.Proofs.Source.Interchange

/-!
# The order of slotted children

Two elements are *rearranged* if they read alike but for the order of their children, of which only
those in slots may have moved (`Rearranged`). The others keep their order among each other, and so
do the values among the children of the descriptor (`Rearranged.positionals_eq`). Those in slots fill
the same slots in another order (`Rearranged.routedPairs_perm`), and if no two of the slots compete,
that order shows in the props in the order of the keys only (`plainProps_sameShape`).

So rearranged elements of components are converted to equal elements (`convert_rearranged`).
-/

namespace ComponentTree

open Conversion ComponentTree.Path
open Value (named Nest)

variable {ν μ : Type}

/-! ## Elements with the same props -/

/-- Elements are as equal as their types if their props are alike as maps. -/
theorem Value.alike_element {type : Value} {props props' : Entries} {children : List Value}
    (htype : type.Proper) (hprops : alike (.dict none props) (.dict none props') = true)
    (hchildren : AllProper children) :
    alike (.element type props children) (.element type props' children) = true ∧
      equal (.element type props children) (.element type props' children) = equal type type := by
  rw [alike, Bool.and_eq_true] at hprops
  constructor
  · rw [alike, alike_self type htype, hprops.1, hprops.2, alikeItems_self children hchildren]
    rfl
  · rw [equal, hprops.1, hprops.2, alikeItems_self children hchildren, Bool.and_true,
      Bool.and_true, Bool.and_true]

namespace Conversion

variable {source : Source ν} {source' : Source μ} {part : ν → Prop} {part' : μ → Prop}
variable {registered : String → Value} {fragmentType : Value} {names : Option PropNames}
variable {beyond : Fault} {levels : Nat} {node : ν} {a : ν} {b : μ}

/-! ## What nodes give -/

/-- What a node gives within so many levels, null if it gives nothing. -/
def given (source : Source ν) (host : Host ν) (beyond : Fault) (levels : Nat) (node : ν) : Value :=
  match ((visit source host beyond levels node).run []).outcome with
  | .ok value => value
  | .error _ => .null

theorem given_of_gives {host : Host ν} {value : Value}
    (h : (visit source host beyond levels node).Gives value) :
    given source host beyond levels node = value := by
  rw [given, h.1]

/-- **An element that ends within the levels gives something.** -/
theorem element_gives (registered : String → Value) (fragmentType : Value)
    (names : Option PropNames) (beyond : Fault) (hr : source.Readable part) (hp : part node)
    (he : source.kind node = .element) (h : source.EndsWithin levels node) :
    (visit source (.plain registered fragmentType names) beyond levels node).Gives
        (given source (.plain registered fragmentType names) beyond levels node) ∧
      Sound registered fragmentType
        (given source (.plain registered fragmentType names) beyond levels node) := by
  induction levels generalizing node with
  | zero => exact h.elim
  | succ levels ih =>
    obtain ⟨attributes, hattributes⟩ := attributesOf_ok (hr.attributeText hp)
    have hgives : (visit source (.plain registered fragmentType names) beyond (levels + 1)
        node).Gives _ :=
      visit_gives_describe hr hp he hattributes fun child hchild hk =>
        have hbelow := ih (hr.children hp hchild) hk (h child ⟨hchild, hk⟩)
        ⟨hbelow.1, hbelow.2.1⟩
    -- that what is given is sound was part of settling, of which only one outcome is left
    rcases plain_settles hr hp with ⟨value, hvalue, hsound⟩ | hstops
    · rw [given_of_gives hvalue]
      exact ⟨hvalue, hsound⟩
    · exact absurd hstops hgives.not_stops

/-- An element that does not end within the levels stops. -/
theorem element_stops (hr : source.Readable part) (hp : part node)
    (he : source.kind node = .element) (h : ¬ source.EndsWithin levels node) :
    (visit source (.plain registered fragmentType names) beyond levels node).Stops beyond := by
  induction levels generalizing node with
  | zero => rfl
  | succ levels ih =>
    obtain ⟨child, hchild⟩ := not_forall.mp h
    obtain ⟨⟨hmem, hk⟩, hends⟩ := Classical.not_imp.mp hchild
    have hstops := ih (hr.children hp hmem) hk hends
    rcases element_settles hr hp he fun child hchild => plain_settles hr (hr.children hp hchild) with
      ⟨attributes, result, -, hresult, -⟩ | hs
    · exact absurd hstops (hresult child hmem hk).1.not_stops
    · exact hs

/-! ## Children that read alike -/

/-- Plain collaborators do not look at elements. -/
theorem plain_regardless (registered : String → Value) (fragmentType : Value)
    (names : Option PropNames) :
    (.plain registered fragmentType names : Host ν) =
      (.plain registered fragmentType names : Host Unit).regardless := by
  cases names <;> rfl

end Conversion

namespace ReadAlike

variable {source : Source ν} {source' : Source μ} {rel : ν → μ → Prop} {a : ν} {b : μ}
variable {result : ν → Value} {result' : μ → Value} (h : ReadAlike source source' rel)

include h

theorem given_eq (registered : String → Value) (fragmentType : Value) (names : Option PropNames)
    (beyond : Fault) (levels : Nat) (hab : rel a b) :
    given source (.plain registered fragmentType names) beyond levels a =
      given source' (.plain registered fragmentType names) beyond levels b := by
  have hvisit := h.visit (.plain registered fragmentType names) beyond levels hab
  rw [← plain_regardless, ← plain_regardless] at hvisit
  have houtcome : ((Conversion.visit source _ beyond levels a).run []).outcome =
      ((Conversion.visit source' _ beyond levels b).run []).outcome :=
    congrArg (fun course => (course.run []).outcome) hvisit
  rw [given, given, houtcome]

theorem endsWithin_iff (k : Nat) (hab : rel a b) : source.EndsWithin k a ↔ source'.EndsWithin k b :=
  ⟨h.symm.endsWithin hab, h.endsWithin hab⟩

theorem slotName?_eq (hab : rel a b) : slotName? source a = slotName? source' b := by
  by_cases he : source.kind a = .element
  · rw [slotName?, slotName?, if_pos he, if_pos ((h.kind_element hab).mp he), h.slot hab he]
  · rw [slotName?, slotName?, if_neg he, if_neg fun hb => he ((h.kind_element hab).mpr hb)]

theorem placementOf_eq (owned : Bool) (hab : rel a b) (hresult : result a = result' b) :
    placementOf source owned result a = placementOf source' owned result' b := by
  have hrouted : routedTo source owned a = routedTo source' owned b := by
    rw [routedTo, routedTo, h.slotName?_eq hab]
  have hrole := h.role hab
  cases hk : source.kind a with
  | text => rw [placementOf, placementOf, hk, (h.kind_text hab).mp hk, h.text hab hk]
  | element =>
    rw [placementOf, placementOf, hk, (h.kind_element hab).mp hk, hrouted, hresult]
  | _ =>
    rw [placementOf, placementOf, hk]
    rw [hk] at hrole
    cases hk' : source'.kind b <;> simp_all [NodeKind.role]

variable {children : List ν} {children' : List μ}

theorem positionals_eq (owned : Bool) (hchildren : List.Forall₂ rel children children')
    (hresult : ∀ {c d}, rel c d → result c = result' d) :
    positionals source owned result children = positionals source' owned result' children' := by
  have hplaced : children.map (placementOf source owned result) =
      children'.map (placementOf source' owned result') := by
    induction hchildren with
    | nil => rfl
    | cons hcd _ ih =>
      rw [List.map_cons, List.map_cons, h.placementOf_eq owned hcd (hresult hcd), ih]
  rw [positionals, positionals, hplaced]

theorem routedPairs_eq (owned : Bool) (hchildren : List.Forall₂ rel children children')
    (hresult : ∀ {c d}, rel c d → result c = result' d) :
    routedPairs source owned result children = routedPairs source' owned result' children' := by
  induction hchildren with
  | nil => rfl
  | @cons c d cs ds hcd _ ih =>
    have hrouted : (routedTo source owned c).map (·, result c) =
        (routedTo source' owned d).map (·, result' d) := by
      rw [routedTo, routedTo, h.slotName?_eq hcd, hresult hcd]
    show List.filterMap _ (c :: cs) = List.filterMap _ (d :: ds)
    rw [List.filterMap_cons, List.filterMap_cons, hrouted]
    cases (routedTo source' owned d).map (·, result' d) with
    | none => exact ih
    | some pair => exact congrArg (pair :: ·) ih

end ReadAlike

/-! ## Rearranged elements -/

/-- Two elements that read alike but for their children, of which those that name a slot may stand in
another order, also among the others. -/
structure Rearranged (source : Source ν) (source' : Source μ) (rel : ν → μ → Prop) (a : ν) (b : μ) :
    Prop where
  below : ReadAlike source source' rel
  element : source.kind a = .element
  element' : source'.kind b = .element
  tag : tagOf source a = tagOf source' b
  attributes : attributesOf source a = attributesOf source' b
  parent : parentTag? source a = parentTag? source' b
  children : ∃ order, (source.children a).Perm order ∧
    (source.children a).filter (fun child => (slotName? source child).isNone) =
      order.filter (fun child => (slotName? source child).isNone) ∧
    List.Forall₂ rel order (source'.children b)

namespace Conversion

variable {source : Source ν} {result : ν → Value}

/-- The values among the children of a component come from the children that name no slot. -/
theorem positionals_filter (children : List ν) :
    positionals source true result (children.filter fun child => (slotName? source child).isNone) =
      positionals source true result children := by
  unfold positionals childrenOf
  rw [List.filterMap_map, List.filterMap_map, List.filterMap_filterMap, List.filterMap_filterMap,
    List.filterMap_filter]
  apply List.filterMap_congr
  intro child _
  cases hslot : slotName? source child with
  | none => rfl
  | some name =>
    have hrouted : routedTo source true child = some name := hslot
    have hplacement : placementOf source true result child =
        some (.slot (.str name) (result child)) := by
      rw [placementOf, kind_of_slotName? hslot, hrouted]
    simp [hplacement]

end Conversion

namespace Rearranged

variable {source : Source ν} {source' : Source μ} {rel : ν → μ → Prop} {a : ν} {b : μ}
variable {result : ν → Value} {result' : μ → Value} (h : Rearranged source source' rel a b)

include h

theorem positionals_eq (hresult : ∀ {c d}, rel c d → result c = result' d) :
    positionals source true result (source.children a) =
      positionals source' true result' (source'.children b) := by
  obtain ⟨order, -, hfixed, hrel⟩ := h.children
  calc positionals source true result (source.children a)
      = positionals source true result order := by
        rw [← positionals_filter, hfixed, positionals_filter]
    _ = positionals source' true result' (source'.children b) :=
        h.below.positionals_eq true hrel hresult

theorem routedPairs_perm (hresult : ∀ {c d}, rel c d → result c = result' d) :
    (routedPairs source true result (source.children a)).Perm
      (routedPairs source' true result' (source'.children b)) := by
  obtain ⟨order, hperm, -, hrel⟩ := h.children
  rw [← h.below.routedPairs_eq true hrel hresult]
  exact hperm.filterMap _

/-- The way down is as long from both elements. -/
theorem endsWithin_iff (k : Nat) : source.EndsWithin k a ↔ source'.EndsWithin k b := by
  obtain ⟨order, hperm, -, hrel⟩ := h.children
  cases k with
  | zero => exact Iff.rfl
  | succ k =>
    constructor
    · rintro hends d ⟨hd, hk⟩
      obtain ⟨c, hc, hcd⟩ := exists_related hrel.flip hd
      exact (h.below.endsWithin_iff k hcd).mp
        (hends c ⟨hperm.mem_iff.mpr hc, (h.below.kind_element hcd).mpr hk⟩)
    · rintro hends c ⟨hc, hk⟩
      obtain ⟨d, hd, hcd⟩ := exists_related hrel (hperm.mem_iff.mp hc)
      exact (h.below.endsWithin_iff k hcd).mpr
        (hends d ⟨hd, (h.below.kind_element hcd).mp hk⟩)

end Rearranged

/-! ## The props of rearranged elements -/

namespace Conversion

variable {names : Option PropNames} {component : Value} {attributes : List (String × Value)}
variable {pairs pairs' : List (String × Value)}

/-- The slots of some children can be filled in any order: their names do not compete, or for props
without a strategy, are different. -/
def SlotsApart (names : Option PropNames) (slots : List String) : Prop :=
  match names with
  | some _ => slots.Pairwise fun slot slot' => ¬ Competes slot slot'
  | none => slots.Nodup

theorem SlotsApart.nodup {slots : List String} (h : SlotsApart names slots) : slots.Nodup := by
  cases names with
  | none => exact h
  | some names =>
    apply h.imp
    intro slot slot' hnot heq
    subst heq
    exact hnot (competes_iff.mpr (.inl (List.prefix_refl _)))

/-- Slots that are set over attributes are set at rows of one segment. -/
theorem setAll_eq_assignAll (attributes pairs : List (String × Value)) :
    named (Assoc.setAll attributes pairs) =
      assignAll (pairs.map fun pair => ([pair.1], pair.2)) (named attributes) := by
  induction pairs generalizing attributes with
  | nil => rfl
  | cons pair pairs ih =>
    show named (Assoc.setAll (Assoc.set pair.1 pair.2 attributes) pairs) = _
    rw [ih, ← Value.set_named]
    rfl

/-- The rows at which slots are set, by a strategy or without. -/
def rowsFor (names : Option PropNames) (pairs : List (String × Value)) :
    List (List String × Value) :=
  match names with
  | some _ => Props.rowsOf pairs
  | none => pairs.map fun pair => ([pair.1], pair.2)

theorem SlotsApart.apart (h : SlotsApart names (pairs.map Prod.fst)) : Apart (rowsFor names pairs) := by
  cases names with
  | none =>
    constructor
    case ne_nil =>
      intro row hrow
      obtain ⟨pair, -, rfl⟩ := List.mem_map.mp hrow
      exact List.cons_ne_nil _ _
    case pairwise =>
      apply List.pairwise_map.mpr
      apply (List.pairwise_map.mp h).imp
      intro pair pair' hne hc
      apply hne
      rcases hc with hc | hc
      · exact (List.cons_prefix_cons.mp hc).1
      · exact (List.cons_prefix_cons.mp hc).1.symm
  | some names =>
    constructor
    case ne_nil =>
      intro row hrow
      obtain ⟨pair, -, rfl⟩ := List.mem_map.mp hrow
      exact keys_ne_nil _
    case pairwise =>
      apply List.pairwise_map.mpr
      apply (List.pairwise_map.mp h).imp
      intro pair pair' hnot hc
      exact hnot (competes_iff.mpr hc)

/-- **The order of slots shows in the props in the order of keys only.** -/
theorem plainProps_sameShape (hcomponent : component.truthy = true)
    (h : SlotsApart names (pairs.map Prod.fst)) (hperm : pairs.Perm pairs') :
    SameShape (.dict none (plainProps names component attributes (Assoc.ofPairs pairs)))
      (.dict none (plainProps names component attributes (Assoc.ofPairs pairs'))) := by
  have hrows : (rowsFor names pairs).Perm (rowsFor names pairs') := by
    cases names <;> exact hperm.map _
  have hshape := h.apart.sameShape hrows none
  rw [Assoc.ofPairs_of_nodup h.nodup,
    Assoc.ofPairs_of_nodup ((hperm.map Prod.fst).nodup_iff.mp h.nodup)]
  cases names with
  | none =>
    rw [plainProps, plainProps, setAll_eq_assignAll, setAll_eq_assignAll]
    exact hshape _
  | some names =>
    rw [plainProps, plainProps, if_pos hcomponent, if_pos hcomponent]
    exact hshape _

end Conversion

/-! ## Converting rearranged elements -/

section Convert

variable {source : Source ν} {source' : Source μ} {rel : ν → μ → Prop} {a : ν} {b : μ}
variable {part : ν → Prop} {part' : μ → Prop}
variable {registered : String → Value} {fragmentType : Value} {names : Option PropNames}

/-- The descriptors of rearranged elements are equal. -/
theorem Rearranged.alike_describe {attributes : List (String × Value)} {result : ν → Value}
    {result' : μ → Value} (h : Rearranged source source' rel a b)
    (htypes : ProperTypes registered fragmentType)
    (hcomponent : (registered (tagOf source a)).truthy = true)
    (hslots : SlotsApart names (slotNames source (source.children a)))
    (hattributes : Texts attributes) (hnames : (attributes.map Prod.fst).Nodup)
    (hsound : ∀ child ∈ source.children a, source.kind child = .element →
      Sound registered fragmentType (result child))
    (hsound' : ∀ child ∈ source'.children b, source'.kind child = .element →
      Sound registered fragmentType (result' child))
    (hresult : ∀ {c d}, rel c d → result c = result' d) :
    (describe source registered names a attributes result).alike
        (describe source' registered names b attributes result') = true ∧
      (describe source registered names a attributes result).equal
        (describe source' registered names b attributes result') =
          (registered (tagOf source a)).equal (registered (tagOf source a)) := by
  have hpassed := passedOf_sublist registered (parentTag? source a) attributes
  have htexts : Texts (passedOf registered (parentTag? source a) attributes) := by
    intro pair hpair
    exact hattributes pair (hpassed.subset hpair)
  have hdistinct := hnames.sublist (hpassed.map Prod.fst)
  -- the same slots are set in the same attributes, in two orders
  have hshape : SameShape (.dict none (plainProps names (registered (tagOf source a))
      (passedOf registered (parentTag? source a) attributes) _)) _ :=
    plainProps_sameShape hcomponent (by rwa [map_fst_routedPairs]) (h.routedPairs_perm hresult)
  have hprops := Value.Nest.alike_of_sameShape
    (nest_plainProps _ htexts hdistinct (fun v hv => hv) (routedPairs_nest fun child hchild hk =>
      (hsound child hchild hk).imp_right (· htypes)))
    (nest_plainProps _ htexts hdistinct (fun v hv => hv) (routedPairs_nest fun child hchild hk =>
      (hsound' child hchild hk).imp_right (· htypes))) hshape
  have hpositionals : Value.AllProper (positionals source true result (source.children a)) :=
    allProper_positionals fun child hchild hk => (hsound child hchild hk).2 htypes
  unfold describe
  dsimp only
  rw [← h.tag, ← h.parent, hcomponent, ← h.positionals_eq hresult, Value.orElse, if_pos hcomponent]
  exact Value.alike_element (htypes.1 _) hprops hpositionals

/-- Within as many levels, rearranged elements give equal elements, or both stop. -/
theorem Rearranged.visit (h : Rearranged source source' rel a b) (hr : source.Readable part)
    (hr' : source'.Readable part') (hp : part a) (hp' : part' b)
    (htypes : ProperTypes registered fragmentType)
    (hcomponent : (registered (tagOf source a)).truthy = true)
    (hslots : SlotsApart names (slotNames source (source.children a))) (beyond : Fault)
    (levels : Nat) :
    (source.EndsWithin levels a → ∃ d d' : Value,
      (Conversion.visit source (.plain registered fragmentType names) beyond levels a).Gives d ∧
      (Conversion.visit source' (.plain registered fragmentType names) beyond levels b).Gives d' ∧
      d.alike d' = true ∧
      d.equal d' = (registered (tagOf source a)).equal (registered (tagOf source a))) ∧
    (¬ source.EndsWithin levels a →
      (Conversion.visit source (.plain registered fragmentType names) beyond levels a).Stops beyond ∧
      (Conversion.visit source' (.plain registered fragmentType names) beyond levels b).Stops
        beyond) := by
  constructor
  · intro hends
    have hends' := (h.endsWithin_iff levels).mp hends
    -- the children are one level down, where related ones are given the same
    cases levels with
    | zero => exact hends.elim
    | succ levels =>
      obtain ⟨attributes, hattributes⟩ := attributesOf_ok (hr.attributeText hp)
      have hattributes' : attributesOf source' b = .ok attributes := h.attributes ▸ hattributes
      have hgives := fun child hchild hk => element_gives registered fragmentType names beyond hr
        (hr.children hp hchild) hk (hends child ⟨hchild, hk⟩)
      have hgives' := fun child hchild hk => element_gives registered fragmentType names beyond hr'
        (hr'.children hp' hchild) hk (hends' child ⟨hchild, hk⟩)
      have hd := visit_gives_describe hr hp h.element hattributes fun child hchild hk =>
        (hgives child hchild hk).imp_right (·.1)
      have hd' := visit_gives_describe hr' hp' h.element' hattributes' fun child hchild hk =>
        (hgives' child hchild hk).imp_right (·.1)
      refine ⟨_, _, hd, hd', ?_⟩
      exact h.alike_describe htypes hcomponent hslots (texts_attributesOf hr hp hattributes)
        (nodup_keys_attributesOf hattributes) (fun child hchild hk => (hgives child hchild hk).2)
        (fun child hchild hk => (hgives' child hchild hk).2) (h.below.given_eq _ _ _ _ _)
  · intro hends
    exact ⟨element_stops hr hp h.element hends,
      element_stops hr' hp' h.element' fun hends' => hends ((h.endsWithin_iff levels).mpr hends')⟩

/-- **The order of slotted children does not matter if their slots do not compete.** Take elements of
a component that are the same but for the order of their children, where children that name no slot
keep their order. If no two of the slots compete, or for conversions without a props strategy, if the
slots are different, then both are converted to elements that are alike, and as equal as the component
is to itself. If the elements are too deep for the limit, both conversions end with that fault.

Without a limit it is assumed that both trees end, within as many levels as their sources count. -/
theorem convert_rearranged (h : Rearranged source source' rel a b) (hr : source.Readable part)
    (hr' : source'.Readable part') (hp : part a) (hp' : part' b)
    (htypes : ProperTypes registered fragmentType)
    (hcomponent : (registered (tagOf source a)).truthy = true)
    (hslots : SlotsApart names (slotNames source (source.children a))) (limit : Option Int)
    (hlevels : limit = none →
      source.EndsWithin (source.levels a) a ∧ source'.EndsWithin (source'.levels b) b) :
    (source.EndsWithin (levelsWithin source limit a) a → ∃ d d' : Value,
      (convert source (.plain registered fragmentType names) limit a).outcome = .ok d ∧
      (convert source' (.plain registered fragmentType names) limit b).outcome = .ok d' ∧
      d.alike d' = true ∧
      d.equal d' = (registered (tagOf source a)).equal (registered (tagOf source a))) ∧
    (¬ source.EndsWithin (levelsWithin source limit a) a →
      (convert source (.plain registered fragmentType names) limit a).outcome =
        .error (faultBeyond limit) ∧
      (convert source' (.plain registered fragmentType names) limit b).outcome =
        .error (faultBeyond limit)) := by
  rw [convert_eq_visit, convert_eq_visit]
  cases limit with
  | some m =>
    -- a limit leaves both elements the same number of levels
    obtain ⟨hends, hstops⟩ := h.visit hr hr' hp hp' htypes hcomponent hslots (.tooDeep m)
      (m + 1).toNat
    refine ⟨fun hdeep => ?_, hstops⟩
    obtain ⟨d, d', hd, hd', halike⟩ := hends hdeep
    exact ⟨d, d', hd.1, hd'.1, halike⟩
  | none =>
    obtain ⟨hdeep, hdeep'⟩ := hlevels rfl
    refine ⟨fun _ => ?_, fun hnot => absurd hdeep hnot⟩
    -- the sources may count different numbers of levels, of which the greater one does for both
    have hleft := Nat.le_max_left (source.levels a) (source'.levels b)
    have hright := Nat.le_max_right (source.levels a) (source'.levels b)
    obtain ⟨d, d', hd, hd', halike⟩ :=
      (h.visit hr hr' hp hp' htypes hcomponent hslots .endless _).1 (hdeep.mono hleft)
    have hmore : Conversion.visit source (.plain registered fragmentType names) .endless _ a =
        Conversion.visit source _ .endless (source.levels a) a :=
      visit_eq_of_endsWithin .endless hdeep hleft
    have hmore' : Conversion.visit source' (.plain registered fragmentType names) .endless _ b =
        Conversion.visit source' _ .endless (source'.levels b) b :=
      visit_eq_of_endsWithin .endless hdeep' hright
    rw [hmore] at hd
    rw [hmore'] at hd'
    exact ⟨d, d', hd.1, hd'.1, halike⟩

end Convert

/-! ## Markup with its children rearranged -/

namespace View

/-- The slot that a node of markup names. -/
def slotOf? (m : Markup) : Option String := slotName? source (.wrap (.top m))

theorem slotName?_below {v : View} (hv : v.openedAsFragment = false) (m : Markup) :
    slotName? source (v.below m) = slotOf? m := by
  have hbelow : (v.below m).openedAsFragment = false := hv
  have hnode : (v.below m).place.node = (View.wrap (.top m)).place.node := rfl
  have hkind : source.kind (v.below m) = source.kind (View.wrap (.top m)) := by
    show (v.below m).kind = (View.wrap (.top m)).kind
    rw [kind_of_whole hbelow, kind_of_whole rfl, hnode]
  have hvalue : source.attributeValue (v.below m) slotAttribute =
      source.attributeValue (View.wrap (.top m)) slotAttribute := by
    show (v.below m).attributeValue _ = (View.wrap (.top m)).attributeValue _
    rw [View.attributeValue, View.attributeValue, attributes_of_whole hnode hbelow rfl]
  rw [slotOf?, slotName?, slotName?, hkind, hvalue]

end View

/-- Markup of which the slotted children are moved is rearranged. -/
theorem rearranged_markup (name : String) (attributes : List (String × Value))
    {content content' : List Markup} (hperm : content.Perm content')
    (hfixed : content.filter (fun m => (View.slotOf? m).isNone) =
      content'.filter (fun m => (View.slotOf? m).isNone)) :
    Rearranged View.source View.source View.Twins
      (.wrap (.top (.element name attributes content)))
      (.wrap (.top (.element name attributes content'))) where
  below := View.twins_readAlike
  element := rfl
  element' := rfl
  tag := rfl
  attributes := rfl
  parent := rfl
  children := by
    let v := View.wrap (.top (.element name attributes content))
    let w := View.wrap (.top (.element name attributes content'))
    have hfilter : ∀ ms : List Markup,
        (ms.map v.below).filter (fun child => (slotName? View.source child).isNone) =
          (ms.filter fun m => (View.slotOf? m).isNone).map v.below := by
      intro ms
      rw [List.filter_map]
      refine congrArg (List.map v.below) (List.filter_congr fun m _ => ?_)
      exact congrArg Option.isNone (View.slotName?_below rfl m)
    have hchildren : View.source.children v = content.map v.below := View.children_eq v
    refine ⟨content'.map v.below, hchildren ▸ hperm.map v.below, ?_, ?_⟩
    · rw [hchildren, hfilter, hfilter, hfixed]
    · have hchildren' : View.source.children w = content'.map w.below := View.children_eq w
      rw [hchildren', List.forall₂_map_left_iff, List.forall₂_map_right_iff, List.forall₂_same]
      exact fun m _ => View.twins_below (v := v) (w := w) rfl rfl rfl rfl m

/-- Children for two slots in a JSON object and one in a number, with a text between them. -/
def deepContent : List Markup :=
  [slotted "data.x" "1", .text "body", slotted "data.y" "2", slotted "size.unit" "3"]

/-- A card with some content, that has a JSON object and a number among its attributes. -/
def dataCard (content : List Markup) : Markup :=
  .element "x-card" [("data", .str "\x7b\"x\": 0, \"z\": [1]\x7d"), ("size", .str "5")] content

theorem convert_rearranged_dataCard :
    ∃ d d' : Value,
      (convert View.source cardStandard (some defaultLimit)
        (.wrap (.top (dataCard deepContent)))).outcome = .ok d ∧
      (convert View.source cardStandard (some defaultLimit)
        (.wrap (.top (dataCard deepContent.reverse)))).outcome = .ok d' ∧
      d.equal d' = true := by
  have hattributes : ∀ a ∈ [("data", Value.str "\x7b\"x\": 0, \"z\": [1]\x7d"), ("size", .str "5")],
      ∃ text, View.joined a.2 = .ok (.ofString? text) := by
    simp only [List.forall_mem_cons]
    exact ⟨⟨some _, rfl⟩, ⟨some _, rfl⟩, by simp⟩
  have htextual : (dataCard deepContent).Textual := ⟨hattributes, slotted_textual _ _, trivial,
    slotted_textual _ _, slotted_textual _ _, trivial⟩
  have htextual' : (dataCard deepContent.reverse).Textual := ⟨hattributes, slotted_textual _ _,
    slotted_textual _ _, trivial, slotted_textual _ _, trivial⟩
  have hrearranged := rearranged_markup "x-card"
    [("data", .str "\x7b\"x\": 0, \"z\": [1]\x7d"), ("size", .str "5")]
    (List.reverse_perm deepContent).symm rfl
  have htypes : ProperTypes cardTypes .fragment := by
    refine ⟨fun tag => ?_, trivial⟩
    unfold cardTypes
    split <;> trivial
  have hslots : SlotsApart (some ⟨[], []⟩) (slotNames View.source
      (View.source.children (.wrap (.top (dataCard deepContent))))) := by
    show List.Pairwise _ ["data.x", "data.y", "size.unit"]
    decide
  have hends : View.source.EndsWithin (levelsWithin View.source (some defaultLimit)
      (.wrap (.top (dataCard deepContent)))) (.wrap (.top (dataCard deepContent))) :=
    (View.endsWithin_height _).mono (by decide)
  obtain ⟨d, d', hd, hd', -, hequal⟩ := (convert_rearranged hrearranged View.readable View.readable
    (View.readable_of_textual htextual) (View.readable_of_textual htextual') htypes rfl hslots
    (some defaultLimit) (by simp)).1 hends
  exact ⟨d, d', hd, hd', hequal⟩

end ComponentTree
