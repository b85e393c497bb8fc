import ComponentTree.Proofs.Path
import ComponentTree.Proofs.Value.Equality

/-!
# Nested maps

Props are maps inside of maps, as far as paths lead. `Value.Nest` says that of a value: its maps have
distinct texts for keys and no marks, and below them are values that are no maps, the *leaves*. Nothing
is said of maps inside of a leaf, where no path leads.

Setting values keeps nests nests (`Value.Nest.assign`) and writes to nothing that is shared
(`Value.Nest.assignWrite?_eq_none`). Nests of one shape are alike (`Value.Nest.alike_of_sameShape`),
since the order of keys is all in which they can differ.
-/

namespace ComponentTree

open ComponentTree.Path

/-! ## Maps with texts for keys -/

namespace Value

variable {pairs pairs' : List (Points × Value)} {name : String}

theorem set_keyed (name : Points) (value : Value) (pairs : List (Points × Value)) :
    Assoc.set (ofPoints name) value (keyed pairs) = keyed (Assoc.set name value pairs) :=
  Assoc.set_renamed beq_ofPoints name value pairs

theorem get?_keyed (name : Points) (pairs : List (Points × Value)) :
    Assoc.get? (ofPoints name) (keyed pairs) = Assoc.get? name pairs :=
  Assoc.get?_renamed beq_ofPoints name pairs

theorem set_named (name : String) (value : Value) (pairs : List (String × Value)) :
    Assoc.set (.str name) value (named pairs) = named (Assoc.set name value pairs) :=
  Assoc.set_renamed beq_str name value pairs

theorem setAll_named (map pairs : List (String × Value)) :
    Assoc.setAll (named map) (named pairs) = named (Assoc.setAll map pairs) :=
  Assoc.setAll_renamed beq_str map pairs

theorem get?_named (name : String) (pairs : List (String × Value)) :
    Assoc.get? (.str name) (named pairs) = Assoc.get? name pairs :=
  Assoc.get?_renamed beq_str name pairs

/-- A map with string keys has a value under strings only. -/
theorem exists_of_get?_named {pairs : List (String × Value)} {key value : Value}
    (h : Assoc.get? key (named pairs) = some value) :
    ∃ name, key = .str name ∧ Assoc.get? name pairs = some value := by
  have hkey : ∃ name, key = .str name := by
    induction pairs with
    | nil => cases h
    | cons pair pairs ih =>
      change (if Value.str pair.1 == key then some pair.2 else Assoc.get? key (named pairs)) = _ at h
      split at h
      · next heq =>
        change alike (.str pair.1) key = true at heq
        cases key with
        | str name => exact ⟨name, rfl⟩
        | _ => simp [alike] at heq
      · exact ih h
  obtain ⟨name, rfl⟩ := hkey
  exact ⟨name, rfl, by rw [← get?_named, h]⟩

theorem find?_keyed (name : Points) (pairs : List (Points × Value)) :
    ((keyed pairs).find? fun entry => alike (ofPoints name) entry.1) =
      (Assoc.get? name pairs).map (ofPoints name, ·) := by
  induction pairs with
  | nil => rfl
  | cons pair pairs ih =>
    have halike : alike (ofPoints name) (ofPoints pair.1) = (name == pair.1) := beq_ofPoints ..
    show ((ofPoints pair.1, pair.2) :: keyed pairs).find? _ = _
    rw [List.find?_cons, Assoc.get?, halike, ih]
    by_cases h : name = pair.1
    · simp [h]
    · have h' : ¬ pair.1 = name := fun heq => h heq.symm
      simp [beq_false_of_ne h, beq_false_of_ne h']

theorem distinctKeys_keyed (h : (pairs.map Prod.fst).Nodup) : DistinctKeys (keyed pairs) := by
  refine List.pairwise_map.mpr ((List.pairwise_map.mp h).imp fun {a b} hne => ?_)
  exact (beq_ofPoints b.1 a.1).trans (beq_false_of_ne fun heq => hne heq.symm)

theorem entriesProper_iff {entries : Entries} :
    EntriesProper entries ↔ ∀ entry ∈ entries, entry.1.Proper ∧ entry.2.Proper := by
  induction entries with
  | nil => simp [EntriesProper]
  | cons entry entries ih => simp [EntriesProper, ih, and_assoc]

theorem allProper_iff {items : List Value} : AllProper items ↔ ∀ v ∈ items, v.Proper := by
  induction items with
  | nil => simp [AllProper]
  | cons item items ih => simp [AllProper, ih]

theorem proper_str (s : String) : (Value.str s).Proper := by simp [Proper]

theorem proper_ofPoints (text : Points) : (ofPoints text).Proper := by
  rcases ofPoints_cases text with ⟨s, -, h⟩ | ⟨broken, -, h⟩ <;> simp [h, Proper]

theorem entriesProper_keyed (h : ∀ pair ∈ pairs, pair.2.Proper) : EntriesProper (keyed pairs) := by
  rw [entriesProper_iff]
  intro entry hentry
  obtain ⟨pair, hpair, rfl⟩ := List.mem_map.mp hentry
  exact ⟨proper_ofPoints _, h pair hpair⟩

theorem alikeEntries_keyed
    (h : ∀ pair ∈ pairs, ∃ v, Assoc.get? pair.1 pairs' = some v ∧ alike pair.2 v = true) :
    alikeEntries (keyed pairs) (keyed pairs') = true := by
  induction pairs with
  | nil => rfl
  | cons pair pairs ih =>
    obtain ⟨v, hget, halike⟩ := h pair List.mem_cons_self
    show alikeEntries ((ofPoints pair.1, pair.2) :: keyed pairs) (keyed pairs') = true
    rw [alikeEntries, find?_keyed, hget, ih fun pair hpair => h pair (List.mem_cons_of_mem _ hpair)]
    simpa using halike

theorem IsData.proper {v : Value} (h : v.IsData) : v.Proper := by
  induction h with
  | list _ ih => exact allProper_iff.mpr ih
  | map hnames _ ih => exact ⟨distinctKeys_keyed hnames, entriesProper_keyed ih⟩
  | _ => trivial

/-! ## Nests -/

/-- Maps inside of maps, with leaves of a kind. -/
inductive Nest (leaf : Value → Prop) : Value → Prop
  | leaf {v : Value} (h : ∀ mark entries, v ≠ .dict mark entries) (hv : leaf v) : Nest leaf v
  | map {pairs : List (Points × Value)} (hnames : (pairs.map Prod.fst).Nodup)
      (h : ∀ pair ∈ pairs, Nest leaf pair.2) : Nest leaf (.dict none (keyed pairs))

namespace Nest

variable {leaf leaf' : Value → Prop} {v w : Value} {target : Entries}

theorem named {pairs : List (String × Value)} (hnames : (pairs.map Prod.fst).Nodup)
    (h : ∀ pair ∈ pairs, Nest leaf pair.2) : Nest leaf (.dict none (Value.named pairs)) := by
  rw [named_eq_keyed]
  exact .map (nodup_keys_texted hnames) (forall_mem_texted.mpr h)

theorem mono (h : Nest leaf v) (himp : ∀ v, leaf v → leaf' v) : Nest leaf' v := by
  induction h with
  | leaf hv hleaf => exact .leaf hv (himp _ hleaf)
  | map hnames _ ih => exact .map hnames ih

theorem proper (h : Nest Proper v) : v.Proper := by
  induction h with
  | leaf _ hv => exact hv
  | map hnames _ ih => exact ⟨distinctKeys_keyed hnames, entriesProper_keyed ih⟩

/-! ### Setting values -/

/-- What stands in the way of a path is a map of the nest, or gives place to an empty one. -/
theorem of_get? (h : Nest leaf (.dict none target)) (segment : String) :
    markOf (Assoc.get? (.str segment) target) = none ∧
      Nest leaf (.dict none (nested (Assoc.get? (.str segment) target))) := by
  have hempty : Nest leaf (.dict none []) := @Nest.map leaf [] (by simp) (by simp)
  cases h with
  | leaf hv _ => exact absurd rfl (hv none target)
  | @map pairs hnames hvalues =>
    rw [← ofPoints_ofString, get?_keyed]
    cases hget : Assoc.get? (Points.ofString segment) pairs with
    | none => exact ⟨rfl, hempty⟩
    | some old =>
      cases hvalues _ (Assoc.mem_of_get? hget) with
      | leaf hold _ =>
        cases old with
        | dict mark entries => exact absurd rfl (hold mark entries)
        | _ => exact ⟨rfl, hempty⟩
      | map hnames' hvalues' => exact ⟨rfl, .map hnames' hvalues'⟩

theorem set (h : Nest leaf (.dict none target)) (segment : String) (hv : Nest leaf v) :
    Nest leaf (.dict none (Assoc.set (.str segment) v target)) := by
  cases h with
  | leaf hv _ => exact absurd rfl (hv none target)
  | @map pairs hnames hvalues =>
    rw [← ofPoints_ofString, set_keyed]
    apply Nest.map (Assoc.nodup_keys_set hnames)
    intro pair hpair
    rcases Assoc.mem_set hpair with rfl | hpair
    · exact hv
    · exact hvalues pair hpair

/-- **Setting a nest in a nest gives a nest.** -/
theorem assign (h : Nest leaf (.dict none target)) (s : List String) (hv : Nest leaf v) :
    Nest leaf (.dict none (Path.assign s v target)) := by
  induction s generalizing target with
  | nil => exact h
  | cons segment s ih =>
    by_cases hs : s = []
    · subst hs
      exact h.set segment hv
    · obtain ⟨hmark, hnested⟩ := h.of_get? segment
      rw [assign_cons hs, hmark]
      exact h.set segment (ih hnested)

/-- No map of a nest is shared, so nothing is written. -/
theorem assignWrite?_eq_none (h : Nest leaf (.dict none target)) (s : List String) (v : Value) :
    Path.assignWrite? s v target = none := by
  induction s generalizing target with
  | nil => rfl
  | cons segment s ih =>
    cases s with
    | nil => rfl
    | cons next s =>
      obtain ⟨hmark, hnested⟩ := h.of_get? segment
      rw [assignWrite?, hmark, ih hnested]
      rfl

/-! ### Nests of one shape -/

theorem lookup_map_cons (pairs : List (Points × Value)) (name : String) (rest : List String) :
    lookup (.dict none (keyed pairs)) (name :: rest) =
      (Assoc.get? (.ofString name) pairs).bind (lookup · rest) := by
  rw [lookup_dict_cons, ← ofPoints_ofString, get?_keyed]

theorem beside_map (text : BrokenText) (pairs : List (Points × Value)) :
    beside text (.dict none (keyed pairs)) [] = Assoc.get? text.points pairs := by
  rw [beside, lookup_nil, nested, ← ofPoints_broken, get?_keyed]

theorem sameShape_refl (v : Value) : SameShape v v := fun _ => .inl rfl

theorem sameShape_symm (h : SameShape v w) : SameShape w v := fun q =>
  (h q).imp Eq.symm fun ⟨hv, hw, hbeside⟩ => ⟨hw, hv, fun text => (hbeside text).symm⟩

/-- Under each string two maps of one shape hold values of one shape. -/
theorem exists_sameShape_string {pairs pairs' : List (Points × Value)} {name : String}
    (h : SameShape (.dict none (keyed pairs)) (.dict none (keyed pairs')))
    (hget : Assoc.get? (.ofString name) pairs = some v) :
    ∃ w, Assoc.get? (.ofString name) pairs' = some w ∧ SameShape v w := by
  have hfound : lookup (.dict none (keyed pairs)) [name] = some v := by
    rw [lookup_map_cons, hget]
    exact lookup_nil v
  have hsome : ∃ w, Assoc.get? (.ofString name) pairs' = some w := by
    cases hget' : Assoc.get? (.ofString name) pairs' with
    | some w => exact ⟨w, rfl⟩
    | none =>
      -- then nothing would be found under the name, neither the value nor a map
      have hnone : lookup (.dict none (keyed pairs')) [name] = none := by
        rw [lookup_map_cons, hget']
        rfl
      rcases h [name] with heq | ⟨-, ⟨mark, entries, hmap⟩, -⟩
      · rw [hfound, hnone] at heq
        cases heq
      · rw [hnone] at hmap
        cases hmap
  obtain ⟨w, hget'⟩ := hsome
  refine ⟨w, hget', fun q => ?_⟩
  have hq := h (name :: q)
  simpa only [LeadsToMap, beside, lookup_map_cons, hget, hget', Option.bind_some] using hq

/-- Under each text two maps of one shape hold values of one shape. -/
theorem exists_sameShape {pairs pairs' : List (Points × Value)} {name : Points}
    (h : SameShape (.dict none (keyed pairs)) (.dict none (keyed pairs')))
    (hget : Assoc.get? name pairs = some v) :
    ∃ w, Assoc.get? name pairs' = some w ∧ SameShape v w := by
  rcases ofPoints_cases name with ⟨s, rfl, -⟩ | ⟨text, rfl, -⟩
  · exact exists_sameShape_string h hget
  · refine ⟨v, ?_, sameShape_refl v⟩
    rw [← beside_map] at hget ⊢
    rcases h [] with heq | ⟨-, -, hbeside⟩
    · rwa [beside, ← heq]
    · rwa [← hbeside]

theorem length_le {pairs pairs' : List (Points × Value)} (hnames : (pairs.map Prod.fst).Nodup)
    (h : ∀ pair ∈ pairs, ∃ w, Assoc.get? pair.1 pairs' = some w) : pairs.length ≤ pairs'.length := by
  have hsub : pairs.map Prod.fst ⊆ pairs'.map Prod.fst := by
    intro name hname
    obtain ⟨pair, hpair, rfl⟩ := List.mem_map.mp hname
    obtain ⟨w, hget⟩ := h pair hpair
    exact List.mem_map.mpr ⟨_, Assoc.mem_of_get? hget, rfl⟩
  simpa using (List.subperm_of_subset hnames hsub).length_le

/-- **Nests of one shape are alike**, the one being proper. -/
theorem alike_of_sameShape (hv : Nest Proper v) (hw : Nest leaf w) (h : SameShape v w) :
    alike v w = true := by
  have hself := alike_self v hv.proper
  induction hv generalizing w with
  | leaf hv _ =>
    rcases h [] with heq | ⟨⟨mark, entries, hmap⟩, -, -⟩
    · rw [lookup_nil, lookup_nil] at heq
      rwa [← Option.some.inj heq]
    · rw [lookup_nil] at hmap
      exact absurd (Option.some.inj hmap) (hv mark entries)
  | @map pairs hnames hvalues ih =>
    rcases h [] with heq | ⟨-, ⟨mark, entries, hmap⟩, -⟩
    · rw [lookup_nil, lookup_nil] at heq
      rwa [← Option.some.inj heq]
    · rw [lookup_nil] at hmap
      cases hw with
      | leaf hw _ => exact absurd (Option.some.inj hmap) (hw mark entries)
      | @map pairs' hnames' hvalues' =>
        have hget : ∀ pair ∈ pairs, ∃ y, Assoc.get? pair.1 pairs' = some y ∧ SameShape pair.2 y :=
          fun pair hpair => exists_sameShape h (Assoc.get?_of_mem hnames hpair)
        have hget' : ∀ pair ∈ pairs', ∃ y, Assoc.get? pair.1 pairs = some y := by
          intro pair hpair
          obtain ⟨y, hy, -⟩ := exists_sameShape (sameShape_symm h) (Assoc.get?_of_mem hnames' hpair)
          exact ⟨y, hy⟩
        have hlength : (keyed pairs).length = (keyed pairs').length := by
          rw [List.length_map, List.length_map]
          refine Nat.le_antisymm (length_le hnames fun pair hpair => ?_) (length_le hnames' hget')
          obtain ⟨y, hy, -⟩ := hget pair hpair
          exact ⟨y, hy⟩
        have hentries : alikeEntries (keyed pairs) (keyed pairs') = true := by
          apply alikeEntries_keyed
          intro pair hpair
          obtain ⟨y, hy, hshape⟩ := hget pair hpair
          have hpair' := hvalues pair hpair
          exact ⟨y, hy, ih pair hpair (hvalues' _ (Assoc.mem_of_get? hy)) hshape
            (alike_self _ hpair'.proper)⟩
        rw [alike, hlength, hentries]
        simp

end Nest

/-- Data is a nest: its lists are leaves, whatever maps they hold. -/
theorem IsData.nest {v : Value} (h : v.IsData) : Nest Proper v := by
  induction h with
  | map hnames _ ih => exact .map hnames ih
  | list h _ => exact .leaf (by simp) (IsData.list h).proper
  | _ => exact .leaf (by simp) trivial

end Value

end ComponentTree
