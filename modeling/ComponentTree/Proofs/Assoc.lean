import ComponentTree.Assoc
import Mathlib.Data.List.Basic
import Mathlib.Data.List.Induction

/-!
# Laws of maps that keep their order

Setting a key that no entry has adds an entry at the end, so pairs with distinct keys are the map
that they make. Setting keeps keys distinct, and then erasing a key leaves no entry with it.

Keys are compared by a test that need not be equality. The laws that say "no entry has this key"
hold for any test; those that follow a key through a map ask for a lawful one.
-/

namespace ComponentTree.Assoc

variable {κ β : Type} [BEq κ]

/-! ## Keys that are not there -/

theorem get?_eq_none {key : κ} :
    ∀ {map : List (κ × β)}, (∀ e ∈ map, (e.1 == key) = false) → get? key map = none
  | [], _ => rfl
  | (k, v) :: rest, h => by
    have hk : (k == key) = false := h (k, v) (by simp)
    rw [get?, hk, if_neg (by simp)]
    exact get?_eq_none fun e he => h e (by simp [he])

theorem set_eq_append {key : κ} {value : β} :
    ∀ {map : List (κ × β)}, (∀ e ∈ map, (e.1 == key) = false) →
      set key value map = map ++ [(key, value)]
  | [], _ => rfl
  | (k, v) :: rest, h => by
    have hk : (k == key) = false := h (k, v) (by simp)
    rw [set, hk, if_neg (by simp), set_eq_append fun e he => h e (by simp [he])]
    rfl

/-- Pairs whose keys are told apart from each other and from those of the map are added in order. -/
theorem setAll_eq_append {map pairs : List (κ × β)}
    (h : (map ++ pairs).Pairwise fun a b => (a.1 == b.1) = false) :
    setAll map pairs = map ++ pairs := by
  induction pairs generalizing map with
  | nil => simp [setAll]
  | cons p pairs ih =>
    obtain ⟨-, -, hmap⟩ := List.pairwise_append.mp h
    have hset : set p.1 p.2 map = map ++ [p] :=
      set_eq_append fun e he => hmap e he p (by simp)
    show setAll (set p.1 p.2 map) pairs = _
    rw [hset, ih (by simpa using h)]
    simp

theorem ofPairs_eq_self {pairs : List (κ × β)}
    (h : pairs.Pairwise fun a b => (a.1 == b.1) = false) : ofPairs pairs = pairs :=
  setAll_eq_append h

theorem mem_keys_set {key k : κ} {value : β} :
    ∀ {map : List (κ × β)}, k ∈ (set key value map).map Prod.fst → k = key ∨ k ∈ map.map Prod.fst
  | [], h => .inl (List.mem_singleton.mp h)
  | (k', v) :: rest, h => by
    rw [set] at h
    split at h
    · exact .inr h
    · rcases List.mem_cons.mp h with rfl | h
      · exact .inr List.mem_cons_self
      · exact (mem_keys_set h).imp_right (List.mem_cons_of_mem _)

/-- No key comes from anywhere but the pairs, also where keys are equal without being the same. -/
theorem mem_keys_of_mem_ofPairs {pairs : List (κ × β)} {k : κ} (h : k ∈ (ofPairs pairs).map Prod.fst) :
    k ∈ pairs.map Prod.fst := by
  have hall : ∀ map : List (κ × β), k ∈ (setAll map pairs).map Prod.fst →
      k ∈ pairs.map Prod.fst ∨ k ∈ map.map Prod.fst := by
    clear h
    induction pairs with
    | nil => exact fun map h => .inr h
    | cons pair pairs ih =>
      intro map h
      rcases ih (set pair.1 pair.2 map) h with h | h
      · exact .inl (List.mem_cons_of_mem _ h)
      · rcases mem_keys_set h with rfl | h
        · exact .inl List.mem_cons_self
        · exact .inr h
  exact (hall [] h).resolve_right (by simp)

/-! ## Setting and erasing in parts -/

theorem setAll_append (map pairs pairs' : List (κ × β)) :
    setAll map (pairs ++ pairs') = setAll (setAll map pairs) pairs' := List.foldl_append

theorem erase_sublist (key : κ) : ∀ map : List (κ × β), (erase key map).Sublist map
  | [] => .slnil
  | (k, v) :: rest => by
    rw [erase]
    split
    · exact .cons _ (List.Sublist.refl rest)
    · exact (erase_sublist key rest).cons_cons _

/-! ## Following a key -/

theorem get?_set_same {key : κ} (hkey : (key == key) = true) (value : β) :
    ∀ map : List (κ × β), get? key (set key value map) = some value
  | [] => by simp [set, get?, hkey]
  | (k, v) :: rest => by
    rw [set]
    split
    · next hk => rw [get?, if_pos hk]
    · next hk => rw [get?, if_neg hk, get?_set_same hkey value rest]

theorem get?_append (key : κ) (map map' : List (κ × β)) :
    get? key (map ++ map') = (get? key map).or (get? key map') := by
  induction map with
  | nil => rfl
  | cons p map ih =>
    rw [List.cons_append, get?, get?, ih]
    split <;> rfl

/-- Setting a key does not touch one that nothing like it is taken for. -/
theorem get?_set_other {key other : κ} (hother : (other == other) = true)
    (h : ∀ k, (k == other) = true → (k == key) = false) (value : β) :
    ∀ map : List (κ × β), get? key (set other value map) = get? key map
  | [] => by simp [set, get?, h other hother]
  | (k, v) :: rest => by
    rw [set]
    split
    · next hk => simp only [get?, h k hk, Bool.false_eq_true, if_false]
    · next hk => rw [get?, get?, get?_set_other hother h value rest]

/-! ## Changing the values -/

variable {γ : Type} (change : β → γ)

theorem get?_mapValues (key : κ) :
    ∀ map : List (κ × β), get? key (mapValues (fun v _ => change v) map) = (get? key map).map change
  | [] => rfl
  | (k, v) :: rest => by
    show (if k == key then _ else get? key (mapValues (fun v _ => change v) rest)) = _
    rw [get?, get?_mapValues key rest]
    split <;> rfl

theorem set_mapValues (key : κ) (value : β) :
    ∀ map : List (κ × β), set key (change value) (mapValues (fun v _ => change v) map) =
      mapValues (fun v _ => change v) (set key value map)
  | [] => rfl
  | (k, v) :: rest => by
    show (if k == key then _ else _ :: set key _ (mapValues (fun v _ => change v) rest)) = _
    rw [set, set_mapValues key value rest]
    split <;> rfl

theorem setAll_mapValues (map pairs : List (κ × β)) :
    setAll (mapValues (fun v _ => change v) map) (mapValues (fun v _ => change v) pairs) =
      mapValues (fun v _ => change v) (setAll map pairs) := by
  induction pairs generalizing map with
  | nil => rfl
  | cons p pairs ih =>
    show setAll (set p.1 (change p.2) (mapValues (fun v _ => change v) map))
      (mapValues (fun v _ => change v) pairs) = _
    rw [set_mapValues, ih]
    rfl

omit [BEq κ] in
theorem keys_mapValues (map : List (κ × β)) :
    (mapValues (fun v _ => change v) map).map Prod.fst = map.map Prod.fst := by
  rw [mapValues, List.map_map]
  rfl

/-- The map of changed pairs is the changed map of the pairs. -/
theorem ofPairs_mapValues (pairs : List (κ × β)) :
    ofPairs (mapValues (fun v _ => change v) pairs) =
      mapValues (fun v _ => change v) (ofPairs pairs) := setAll_mapValues change [] pairs

/-! ## Changing the keys, one for one -/

section Renaming

variable {κ' : Type} [BEq κ'] {rename : κ → κ'} (hrename : ∀ k l, (rename k == rename l) = (k == l))

include hrename

theorem get?_renamed (key : κ) :
    ∀ map : List (κ × β), get? (rename key) (map.map fun (k, v) => (rename k, v)) = get? key map
  | [] => rfl
  | (k, v) :: rest => by
    rw [List.map_cons, get?, get?, hrename, get?_renamed key rest]

theorem set_renamed (key : κ) (value : β) :
    ∀ map : List (κ × β), set (rename key) value (map.map fun (k, v) => (rename k, v)) =
      (set key value map).map fun (k, v) => (rename k, v)
  | [] => rfl
  | (k, v) :: rest => by
    rw [List.map_cons, set, set, hrename, set_renamed key value rest]
    split <;> rfl

theorem setAll_renamed (map pairs : List (κ × β)) :
    setAll (map.map fun (k, v) => (rename k, v)) (pairs.map fun (k, v) => (rename k, v)) =
      (setAll map pairs).map fun (k, v) => (rename k, v) := by
  induction pairs generalizing map with
  | nil => rfl
  | cons p pairs ih =>
    show setAll (set (rename p.1) p.2 (map.map fun (k, v) => (rename k, v))) _ = _
    rw [set_renamed hrename, ih]
    rfl

end Renaming

variable [LawfulBEq κ]

theorem get?_set_self (key : κ) (value : β) (map : List (κ × β)) :
    get? key (set key value map) = some value := get?_set_same (beq_self_eq_true key) value map

theorem get?_set_of_ne {key other : κ} (hne : other ≠ key) (value : β) (map : List (κ × β)) :
    get? key (set other value map) = get? key map := by
  refine get?_set_other (beq_self_eq_true other) (fun k hk => ?_) value map
  rw [eq_of_beq hk]
  exact beq_false_of_ne hne

/-- Pairs that agree on a key give it the value that they agree on. -/
theorem get?_setAll {key : κ} {value : β} :
    ∀ {pairs map : List (κ × β)}, (∀ v, (key, v) ∈ pairs → v = value) →
      (key ∈ pairs.map Prod.fst ∨ get? key map = some value) →
        get? key (setAll map pairs) = some value
  | [], map, _, h => by
    rcases h with h | h
    · cases h
    · exact h
  | (k, v) :: pairs, map, hall, h => by
    show get? key (setAll (set k v map) pairs) = some value
    refine get?_setAll (fun w hw => hall w (by simp [hw])) ?_
    by_cases hk : k = key
    · -- the key is set here, and whatever sets it later sets the same value
      subst hk
      rw [hall v (by simp)]
      exact .inr (get?_set_self k value map)
    · rw [get?_set_of_ne hk]
      rcases h with h | h
      · rcases List.mem_cons.mp h with h | h
        · exact absurd h.symm hk
        · exact .inl h
      · exact .inr h

theorem get?_setAll_of_not_mem {key : κ} :
    ∀ {pairs map : List (κ × β)}, key ∉ pairs.map Prod.fst →
      get? key (setAll map pairs) = get? key map
  | [], _, _ => rfl
  | (k, v) :: pairs, map, h => by
    simp only [List.map_cons, List.mem_cons, not_or] at h
    show get? key (setAll (set k v map) pairs) = _
    rw [get?_setAll_of_not_mem h.2, get?_set_of_ne (Ne.symm h.1)]

/-! ## Where entries come from -/

theorem mem_set {key : κ} {value : β} {entry : κ × β} :
    ∀ {map : List (κ × β)}, entry ∈ set key value map → entry = (key, value) ∨ entry ∈ map
  | [], h => .inl (List.mem_singleton.mp h)
  | (k, v) :: rest, h => by
    rw [set] at h
    split at h
    · next hk =>
      rcases List.mem_cons.mp h with h | h
      · exact .inl (by rw [h, eq_of_beq hk])
      · exact .inr (List.mem_cons_of_mem _ h)
    · rcases List.mem_cons.mp h with h | h
      · exact .inr (by simp [h])
      · exact (mem_set h).imp_right (List.mem_cons_of_mem _)

theorem mem_setAll {pairs map : List (κ × β)} {entry : κ × β} (h : entry ∈ setAll map pairs) :
    entry ∈ pairs ∨ entry ∈ map := by
  induction pairs generalizing map with
  | nil => exact .inr h
  | cons p pairs ih =>
    rcases @ih (set p.1 p.2 map) h with h | h
    · exact .inl (List.mem_cons_of_mem _ h)
    · exact (mem_set h).imp_left fun h => by simp [h]

theorem mem_ofPairs {pairs : List (κ × β)} {entry : κ × β} (h : entry ∈ ofPairs pairs) :
    entry ∈ pairs := (mem_setAll h).resolve_right (by simp)

/-! ## Distinct keys -/

theorem keys_set (key : κ) (value : β) :
    ∀ map : List (κ × β), (set key value map).map Prod.fst =
      if (map.map Prod.fst).contains key then map.map Prod.fst else map.map Prod.fst ++ [key]
  | [] => rfl
  | (k, v) :: rest => by
    rw [set]
    by_cases hk : k = key
    · simp [hk]
    · have hk' : ¬ key = k := fun h => hk h.symm
      simp only [beq_iff_eq, hk, if_false, List.map_cons, keys_set key value rest,
        List.contains_cons, beq_eq_false_iff_ne.mpr hk', Bool.false_or]
      split <;> rfl

theorem nodup_keys_set {key : κ} {value : β} {map : List (κ × β)}
    (h : (map.map Prod.fst).Nodup) : ((set key value map).map Prod.fst).Nodup := by
  rw [keys_set]
  split
  · exact h
  · -- a key that is added at the end was not there
    next hk =>
    refine List.nodup_append.mpr ⟨h, by simp, fun a ha b hb => ?_⟩
    rw [List.mem_singleton.mp hb]
    rintro rfl
    exact hk (List.contains_iff_mem.mpr ha)

theorem nodup_keys_setAll {pairs map : List (κ × β)} (h : (map.map Prod.fst).Nodup) :
    ((setAll map pairs).map Prod.fst).Nodup := by
  induction pairs generalizing map with
  | nil => exact h
  | cons p pairs ih => exact ih (nodup_keys_set h)

theorem nodup_keys_ofPairs (pairs : List (κ × β)) : ((ofPairs pairs).map Prod.fst).Nodup :=
  nodup_keys_setAll List.nodup_nil

/-- Pairs with distinct keys are the map that they make. -/
theorem ofPairs_of_nodup {pairs : List (κ × β)} (h : (pairs.map Prod.fst).Nodup) :
    ofPairs pairs = pairs :=
  ofPairs_eq_self ((List.pairwise_map.mp h).imp fun hne => beq_false_of_ne hne)

theorem get?_of_mem {key : κ} {value : β} :
    ∀ {map : List (κ × β)}, (map.map Prod.fst).Nodup → (key, value) ∈ map →
      get? key map = some value
  | (k, v) :: rest, hnodup, hm => by
    obtain ⟨hk, hrest⟩ := List.nodup_cons.mp hnodup
    rw [get?]
    rcases List.mem_cons.mp hm with heq | hm
    · cases heq
      rw [if_pos (beq_self_eq_true key)]
    · have hne : ¬ (k == key) = true := by
        rw [beq_iff_eq]
        rintro rfl
        exact hk (List.mem_map.mpr ⟨_, hm, rfl⟩)
      rw [if_neg hne]
      exact get?_of_mem hrest hm

theorem mem_of_get? {key : κ} {value : β} :
    ∀ {map : List (κ × β)}, get? key map = some value → (key, value) ∈ map
  | (k, v) :: rest, h => by
    rw [get?] at h
    split at h
    · next hk =>
      cases h
      rw [eq_of_beq hk]
      exact List.mem_cons_self
    · exact List.mem_cons_of_mem _ (mem_of_get? h)

/-- A key that was added at the end is all that erasing it takes away. -/
theorem erase_append_self {key : κ} {value : β} :
    ∀ {map : List (κ × β)}, key ∉ map.map Prod.fst → erase key (map ++ [(key, value)]) = map
  | [], _ => by rw [List.nil_append, erase, if_pos (beq_self_eq_true key)]
  | (k, v) :: rest, h => by
    rw [List.map_cons, List.mem_cons, not_or] at h
    have hne : ¬ (k == key) = true := fun hk => h.1 (eq_of_beq hk).symm
    rw [List.cons_append, erase, if_neg hne, erase_append_self h.2]

theorem get?_erase_self {key : κ} :
    ∀ {map : List (κ × β)}, (map.map Prod.fst).Nodup → get? key (erase key map) = none
  | [], _ => rfl
  | (k, v) :: rest, h => by
    obtain ⟨hk, hrest⟩ := List.nodup_cons.mp h
    rw [erase]
    split
    · next heq =>
      apply get?_eq_none
      intro e he
      rw [← eq_of_beq heq]
      exact beq_false_of_ne fun h => hk (List.mem_map.mpr ⟨e, he, h⟩)
    · next hne => rw [get?, if_neg hne, get?_erase_self hrest]

/-! ## The order of the keys -/

theorem mem_keys_ofPairs {pairs : List (κ × β)} {key : κ} :
    key ∈ (ofPairs pairs).map Prod.fst ↔ key ∈ pairs.map Prod.fst := by
  induction pairs using List.reverseRecOn with
  | nil => rfl
  | append_singleton pairs pair ih =>
    have hset : ofPairs (pairs ++ [pair]) = set pair.1 pair.2 (ofPairs pairs) :=
      setAll_append [] pairs [pair]
    rw [hset, keys_set, List.map_append, List.mem_append, ← ih]
    split
    · next hin =>
      have hmem : pair.1 ∈ (ofPairs pairs).map Prod.fst := List.contains_iff_mem.mp hin
      simp only [List.map_cons, List.map_nil, List.mem_singleton, iff_self_or]
      rintro rfl
      exact hmem
    · simp

/-- The keys of a map that pairs make stand in the order in which the pairs first name them. -/
theorem keys_ofPairs_sorted (pairs : List (κ × β)) :
    ((ofPairs pairs).map Prod.fst).Pairwise fun a b =>
      (pairs.map Prod.fst).idxOf a < (pairs.map Prod.fst).idxOf b := by
  induction pairs using List.reverseRecOn with
  | nil => exact .nil
  | append_singleton pairs pair ih =>
    have hset : ofPairs (pairs ++ [pair]) = set pair.1 pair.2 (ofPairs pairs) :=
      setAll_append [] pairs [pair]
    -- the first place of a key that came up before is where it was
    have hkept : ∀ key ∈ (ofPairs pairs).map Prod.fst,
        ((pairs ++ [pair]).map Prod.fst).idxOf key = (pairs.map Prod.fst).idxOf key := by
      intro key hkey
      rw [List.map_append, List.idxOf_append, if_pos (mem_keys_ofPairs.mp hkey)]
    have hsorted : ((ofPairs pairs).map Prod.fst).Pairwise fun a b =>
        ((pairs ++ [pair]).map Prod.fst).idxOf a < ((pairs ++ [pair]).map Prod.fst).idxOf b := by
      apply ih.imp_of_mem
      intro a b ha hb hlt
      rwa [hkept a ha, hkept b hb]
    rw [hset, keys_set]
    split
    · exact hsorted
    · next hnew =>
      refine List.pairwise_append.mpr ⟨hsorted, List.pairwise_singleton .., fun key hkey last hlast => ?_⟩
      obtain rfl := List.mem_singleton.mp hlast
      have hfree : pair.1 ∉ pairs.map Prod.fst := by
        rw [← mem_keys_ofPairs, ← List.contains_iff_mem]
        exact hnew
      have hbefore := List.idxOf_lt_length_of_mem (mem_keys_ofPairs.mp hkey)
      rw [hkept key hkey, List.map_append, List.idxOf_append, if_neg hfree]
      omega

/-- The last pair with a key gives the value of the key, and what stands behind it in the map is what
was first named after it. -/
theorem exists_split_ofPairs (before : List (κ × β)) {after : List (κ × β)} {key : κ} (value : β)
    (hlast : key ∉ after.map Prod.fst) :
    ∃ before' after', ofPairs (before ++ (key, value) :: after) =
        before' ++ (key, value) :: after' ∧
      ∀ entry ∈ after', entry.1 ∈ (before ++ (key, value) :: after).map Prod.fst ∧
        ((before ++ (key, value) :: after).map Prod.fst).idxOf key <
          ((before ++ (key, value) :: after).map Prod.fst).idxOf entry.1 := by
  have hget : get? key (ofPairs (before ++ (key, value) :: after)) = some value := by
    rw [ofPairs, setAll_append]
    show get? key (setAll (set key value _) after) = _
    rw [get?_setAll_of_not_mem hlast, get?_set_self]
  obtain ⟨before', after', hsplit⟩ := List.append_of_mem (mem_of_get? hget)
  refine ⟨before', after', hsplit, fun entry hentry => ?_⟩
  have hsorted := keys_ofPairs_sorted (before ++ (key, value) :: after)
  rw [hsplit, List.pairwise_map] at hsorted
  have hbehind := (List.pairwise_cons.mp (List.pairwise_append.mp hsorted).2.1).1
  refine ⟨?_, hbehind entry hentry⟩
  rw [← mem_keys_ofPairs, hsplit]
  exact List.mem_map_of_mem (List.mem_append_right _ (List.mem_cons_of_mem _ hentry))

/-! ## The last value of each key -/

/-- A key gets the value of its last pair, and without one it keeps the value that it had. -/
theorem get?_setAll_eq (key : κ) (pairs map : List (κ × β)) :
    get? key (setAll map pairs) = (get? key pairs.reverse).or (get? key map) := by
  induction pairs generalizing map with
  | nil => rfl
  | cons p pairs ih =>
    have hset : get? key (set p.1 p.2 map) = (get? key [p]).or (get? key map) := by
      rw [get?, get?]
      split
      · next hk =>
        rw [← eq_of_beq hk, get?_set_self]
        rfl
      · next hk =>
        rw [get?_set_of_ne fun h => hk (beq_iff_eq.mpr h)]
        rfl
    calc get? key (setAll (set p.1 p.2 map) pairs)
        = (get? key pairs.reverse).or ((get? key [p]).or (get? key map)) := by rw [ih, hset]
      _ = (get? key (p :: pairs).reverse).or (get? key map) := by
        rw [List.reverse_cons, get?_append, Option.or_assoc]

theorem get?_ofPairs (key : κ) (pairs : List (κ × β)) :
    get? key (ofPairs pairs) = get? key pairs.reverse := by
  rw [ofPairs, get?_setAll_eq]
  exact Option.or_none

theorem keys_ofPairs (pairs : List (κ × β)) :
    (ofPairs pairs).map Prod.fst = (pairs.map Prod.fst).eraseDups := by
  induction pairs using List.reverseRecOn with
  | nil => rfl
  | append_singleton pairs pair ih =>
    have hset : ofPairs (pairs ++ [pair]) = set pair.1 pair.2 (ofPairs pairs) :=
      setAll_append [] pairs [pair]
    have hmem : (pairs.map Prod.fst).eraseDups.contains pair.1 =
        (pairs.map Prod.fst).contains pair.1 := by
      rw [Bool.eq_iff_iff, List.contains_iff_mem, List.contains_iff_mem, List.mem_eraseDups]
    rw [hset, keys_set, ih, hmem, List.map_append, List.eraseDups_append, List.map_singleton,
      List.removeAll]
    cases h : (pairs.map Prod.fst).contains pair.1 <;> simp_all [List.eraseDups_cons]

/-- A map with distinct keys is told by its keys and their values. -/
theorem filterMap_keys :
    ∀ {map : List (κ × β)}, (map.map Prod.fst).Nodup →
      ((map.map Prod.fst).filterMap fun key => (get? key map).map (key, ·)) = map
  | [], _ => rfl
  | (k, v) :: rest, h => by
    obtain ⟨hk, hrest⟩ := List.nodup_cons.mp h
    have hother : ∀ key ∈ rest.map Prod.fst,
        (get? key ((k, v) :: rest)).map (key, ·) = (get? key rest).map (key, ·) := by
      intro key hkey
      have hne : ¬ (k == key) = true := fun heq => hk (eq_of_beq heq ▸ hkey)
      rw [get?, if_neg hne]
    rw [List.map_cons, List.filterMap_cons, get?, if_pos (beq_self_eq_true k), Option.map_some,
      List.filterMap_congr hother, filterMap_keys hrest]

/-- **The map that pairs make** has their keys in the order in which they first come up, each with the
last value that comes with it. -/
theorem ofPairs_eq_lasts (pairs : List (κ × β)) :
    ofPairs pairs =
      (pairs.map Prod.fst).eraseDups.filterMap fun key => (get? key pairs.reverse).map (key, ·) := by
  calc ofPairs pairs
      = ((ofPairs pairs).map Prod.fst).filterMap fun key =>
          (get? key (ofPairs pairs)).map (key, ·) := (filterMap_keys (nodup_keys_ofPairs pairs)).symm
    _ = (pairs.map Prod.fst).eraseDups.filterMap fun key =>
          (get? key pairs.reverse).map (key, ·) := by simp only [keys_ofPairs, get?_ofPairs]

/-- Where the key tells the value, the map has each key once, in the order in which they first come up. -/
theorem ofPairs_map_keys (value : κ → β) (keys : List κ) :
    ofPairs (keys.map fun key => (key, value key)) =
      keys.eraseDups.map fun key => (key, value key) := by
  have hvalues : ∀ entry ∈ ofPairs (keys.map fun key => (key, value key)),
      entry = (entry.1, value entry.1) := by
    intro entry hentry
    obtain ⟨key, -, rfl⟩ := List.mem_map.mp (mem_ofPairs hentry)
    rfl
  have hkeys : (keys.map fun key => (key, value key)).map Prod.fst = keys := by
    rw [List.map_map]
    exact List.map_id keys
  calc ofPairs (keys.map fun key => (key, value key))
      = (ofPairs (keys.map fun key => (key, value key))).map fun entry => (entry.1, value entry.1) :=
        (List.map_id _).symm.trans (List.map_congr_left hvalues)
    _ = ((ofPairs (keys.map fun key => (key, value key))).map Prod.fst).map
          fun key => (key, value key) := by
      rw [List.map_map]
      rfl
    _ = keys.eraseDups.map fun key => (key, value key) := by rw [keys_ofPairs, hkeys]

end ComponentTree.Assoc
