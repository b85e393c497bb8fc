import ComponentTree.Path
import ComponentTree.Proofs.Data
import ComponentTree.Proofs.Text.Pieces
import Mathlib.Data.List.Perm.Basic

/-!
# Setting values at paths

Setting a value at the end of a row of segments changes what is found at the beginnings of the row,
each of which becomes a map that the rest of the row was set in (`lookup_assign_prefix`), and
nothing else. From that one law it follows what is found at the row itself and below
(`lookup_assign_append`) and that whatever lies to the side stays (`lookup_assign_of_apart`).

Two rows are *comparable* if one is the beginning of the other. When values are set at several rows,
a value that no later row is comparable with is found in the end (`lookup_assignAll_append`). If no
two of the rows are comparable their order shows nowhere but in the order of keys
(`Apart.sameShape`).
-/

namespace ComponentTree

/-! ## Texts as keys -/

namespace Value

/-- A text is alike to texts only. -/
theorem kindName_of_beq_ofPoints {k : Value} {text : Points} (h : (k == ofPoints text) = true) :
    k.kindName = "str" := by
  change alike k (ofPoints text) = true at h
  rcases ofPoints_cases text with ⟨t, -, ht⟩ | ⟨t, -, ht⟩ <;> rw [ht] at h
  all_goals
    cases k with
    | str _ | broken _ => rfl
    | float x =>
      -- a number that has an amount is finite, and a text has none
      simp only [alike, Bool.and_eq_true, beq_iff_eq] at h
      cases x with
      | nan => simp [Binary64.isFinite] at h
      | number negative rank =>
        have hrank : rank.val < Binary64.infinityRank := of_decide_eq_true h.1
        have hunits := h.2
        simp [units?, Binary64.units?, hrank] at hunits
    | bool b =>
      rw [alike] at h
      cases (eq_of_beq h : some _ = none)
    | int n =>
      rw [alike] at h
      cases (eq_of_beq h : some _ = none)
    | _ => simp [alike] at h

/-- **A text is taken for no other key.** -/
theorem beq_ofPoints_iff {k : Value} {text : Points} : (k == ofPoints text) = true ↔ k = ofPoints text := by
  constructor
  · intro h
    have hkind := kindName_of_beq_ofPoints h
    change alike k (ofPoints text) = true at h
    rcases ofPoints_cases text with ⟨t, -, ht⟩ | ⟨t, -, ht⟩ <;> rw [ht] at h ⊢
    all_goals
      cases k with
      | str s | broken s => simp_all [alike]
      | _ => simp [kindName] at hkind
  · rintro rfl
    show alike (ofPoints text) (ofPoints text) = true
    rcases ofPoints_cases text with ⟨t, -, ht⟩ | ⟨t, -, ht⟩ <;> rw [ht, alike] <;>
      exact beq_self_eq_true t

/-- A string is taken for no other key. -/
theorem beq_str_iff {k : Value} {s : String} : (k == .str s) = true ↔ k = .str s := by
  rw [← ofPoints_ofString]
  exact beq_ofPoints_iff

theorem beq_ofPoints (text text' : Points) : (ofPoints text == ofPoints text') = (text == text') := by
  rw [Bool.eq_iff_iff, beq_ofPoints_iff, beq_iff_eq, ofPoints_injective.eq_iff]

theorem beq_str (s t : String) : (Value.str s == Value.str t) = (s == t) := by
  rw [Bool.eq_iff_iff, beq_str_iff, beq_iff_eq, str.injEq]

end Value

namespace Path

variable {segment other : String} {value : Value} {entries : Entries}

theorem get?_set_self (segment : String) (value : Value) (entries : Entries) :
    Assoc.get? (.str segment) (Assoc.set (.str segment) value entries) = some value :=
  Assoc.get?_set_same (Value.beq_str_iff.mpr rfl) value entries

theorem get?_set_of_ne (h : other ≠ segment) (value : Value) (entries : Entries) :
    Assoc.get? (.str segment) (Assoc.set (.str other) value entries) =
      Assoc.get? (.str segment) entries := by
  refine Assoc.get?_set_other (Value.beq_str_iff.mpr rfl) (fun k hk => ?_) value entries
  rw [Value.beq_str_iff.mp hk]
  by_contra hne
  rw [Bool.not_eq_false, Value.beq_str_iff] at hne
  exact h (Value.str.inj hne)

/-! ## Looking up -/

variable {mark : Option Nat} {p q s : List String}

@[simp] theorem lookup_nil (v : Value) : lookup v [] = some v := by
  cases v <;> rfl

theorem lookup_dict_cons (mark : Option Nat) (entries : Entries) (segment : String)
    (rest : List String) :
    lookup (.dict mark entries) (segment :: rest) =
      (Assoc.get? (.str segment) entries).bind (lookup · rest) := by
  rw [lookup]
  cases Assoc.get? (.str segment) entries <;> rfl

/-- A row is followed part by part. -/
theorem lookup_append (v : Value) (p q : List String) :
    lookup v (p ++ q) = (lookup v p).bind (lookup · q) := by
  induction p generalizing v with
  | nil => simp
  | cons segment p ih =>
    cases v with
    | dict mark entries =>
      rw [List.cons_append, lookup_dict_cons, lookup_dict_cons, Option.bind_assoc]
      simp only [ih]
    | _ => rfl

/-- Whatever is no map has nothing below it. -/
theorem lookup_nested (old : Option Value) (mark : Option Nat) (segment : String)
    (rest : List String) :
    lookup (.dict mark (nested old)) (segment :: rest) =
      old.bind (lookup · (segment :: rest)) := by
  rw [lookup_dict_cons]
  cases old with
  | none => rfl
  | some old =>
    cases old with
    | dict mark' entries => exact (lookup_dict_cons mark' entries segment rest).symm
    | _ => rfl

/-! ## Setting at one row -/

theorem assign_cons (hs : s ≠ []) (segment : String) (value : Value) (target : Entries) :
    assign (segment :: s) value target =
      Assoc.set (.str segment) (.dict (markOf (Assoc.get? (.str segment) target))
        (assign s value (nested (Assoc.get? (.str segment) target)))) target := by
  cases s with
  | nil => exact absurd rfl hs
  | cons => rfl

/-- What is found under the first segment after setting. -/
theorem get?_assign_self (s : List String) (segment : String) (value : Value) (target : Entries) :
    Assoc.get? (.str segment) (assign (segment :: s) value target) =
      some (if s = [] then value else .dict (markOf (Assoc.get? (.str segment) target))
        (assign s value (nested (Assoc.get? (.str segment) target)))) := by
  cases s with
  | nil => exact get?_set_self ..
  | cons => exact get?_set_self ..

theorem get?_assign_of_ne (h : other ≠ segment) (s : List String) (value : Value)
    (target : Entries) :
    Assoc.get? (.str segment) (assign (other :: s) value target) =
      Assoc.get? (.str segment) target := by
  cases s with
  | nil => exact get?_set_of_ne h ..
  | cons => exact get?_set_of_ne h ..

/-- **A beginning of the row leads to a map in which the rest of the row was set.** It is the map
that was there, with its mark, or an empty one if there was none. -/
theorem lookup_assign_prefix (hs : s ≠ []) (q : List String) (value : Value)
    (mark : Option Nat) (target : Entries) :
    lookup (.dict mark (assign (q ++ s) value target)) q =
      some (.dict (markOf (lookup (.dict mark target) q))
        (assign s value (nested (lookup (.dict mark target) q)))) := by
  induction q generalizing mark target with
  | nil => rfl
  | cons segment q ih =>
    have hrest : q ++ s ≠ [] := List.append_ne_nil_of_right_ne_nil q hs
    rw [List.cons_append, lookup_dict_cons, get?_assign_self, if_neg hrest, Option.bind_some, ih,
      lookup_dict_cons]
    cases q with
    | nil => cases Assoc.get? (.str segment) target <;> simp [markOf, nested]
    | cons next q => rw [lookup_nested]

/-- **What was set is found**, with all that is below it. -/
theorem lookup_assign_append (hs : s ≠ []) (r : List String) (value : Value) (mark : Option Nat)
    (target : Entries) :
    lookup (.dict mark (assign s value target)) (s ++ r) = lookup value r := by
  obtain ⟨init, last, rfl⟩ := List.eq_nil_or_concat s |>.resolve_left hs
  rw [List.concat_eq_append, List.append_assoc, lookup_append,
    lookup_assign_prefix (List.cons_ne_nil last []), Option.bind_some, List.singleton_append,
    lookup_dict_cons, get?_assign_self, if_pos rfl, Option.bind_some]

/-! ## Rows that are apart -/

/-- One of two rows is the beginning of the other. -/
def Comparable (p q : List String) : Prop := p <+: q ∨ q <+: p

instance (p q : List String) : Decidable (Comparable p q) :=
  inferInstanceAs (Decidable (p <+: q ∨ q <+: p))

theorem Comparable.symm (h : Comparable p q) : Comparable q p := Or.symm h

/-- Rows that are not comparable part at some segment. -/
theorem exists_parting (h : ¬ Comparable p q) :
    ∃ common a p' b q', p = common ++ a :: p' ∧ q = common ++ b :: q' ∧ a ≠ b := by
  induction p generalizing q with
  | nil => exact absurd (.inl List.nil_prefix) h
  | cons a p ih =>
    cases q with
    | nil => exact absurd (.inr List.nil_prefix) h
    | cons b q =>
      by_cases hab : a = b
      · subst hab
        have hrest : ¬ Comparable p q := by
          rintro (hp | hq)
          · exact h (.inl (List.cons_prefix_cons.mpr ⟨rfl, hp⟩))
          · exact h (.inr (List.cons_prefix_cons.mpr ⟨rfl, hq⟩))
        obtain ⟨common, c, p', d, q', rfl, rfl, hcd⟩ := ih hrest
        exact ⟨a :: common, c, p', d, q', rfl, rfl, hcd⟩
      · exact ⟨[], a, p, b, q, rfl, rfl, hab⟩

/-- **What lies to the side stays as it was.** -/
theorem lookup_assign_of_apart (h : ¬ Comparable s q) (value : Value) (mark : Option Nat)
    (target : Entries) :
    lookup (.dict mark (assign s value target)) q = lookup (.dict mark target) q := by
  obtain ⟨common, a, s', b, q', rfl, rfl, hab⟩ := exists_parting h
  rw [lookup_append, lookup_append, lookup_assign_prefix (List.cons_ne_nil a s'), Option.bind_some,
    ← lookup_nested _ (markOf (lookup (.dict mark target) common)), lookup_dict_cons,
    get?_assign_of_ne hab, lookup_dict_cons]

/-! ## Setting at several rows -/

/-- Sets values at rows, one after the other. -/
def assignAll (rows : List (List String × Value)) (target : Entries) : Entries :=
  rows.foldl (fun target (s, value) => assign s value target) target

variable {rows rows' : List (List String × Value)} {target : Entries}

theorem assignAll_append (rows rows' : List (List String × Value)) (target : Entries) :
    assignAll (rows ++ rows') target = assignAll rows' (assignAll rows target) :=
  List.foldl_append

theorem lookup_assignAll_of_apart (h : ∀ row ∈ rows, ¬ Comparable row.1 q) (mark : Option Nat)
    (target : Entries) :
    lookup (.dict mark (assignAll rows target)) q = lookup (.dict mark target) q := by
  induction rows generalizing target with
  | nil => rfl
  | cons row rows ih =>
    show lookup (.dict mark (assignAll rows (assign row.1 row.2 target))) q = _
    rw [ih fun row hrow => h row (List.mem_cons_of_mem _ hrow)]
    exact lookup_assign_of_apart (h row List.mem_cons_self) ..

/-- **A value is found in the end if no later row is comparable with its own.** -/
theorem lookup_assignAll_append (hs : s ≠ []) (h : ∀ row ∈ rows', ¬ Comparable row.1 s)
    (r : List String) :
    lookup (.dict mark (assignAll (rows ++ (s, value) :: rows') target)) (s ++ r) =
      lookup value r := by
  rw [assignAll_append, lookup_append]
  show (lookup (.dict mark (assignAll rows' (assign s value (assignAll rows target)))) s).bind _ = _
  rw [lookup_assignAll_of_apart h, ← lookup_append]
  exact lookup_assign_append hs ..

theorem lookup_assignAll_self (hs : s ≠ []) (h : ∀ row ∈ rows', ¬ Comparable row.1 s) :
    lookup (.dict mark (assignAll (rows ++ (s, value) :: rows') target)) s = some value := by
  rw [← lookup_nil value, ← lookup_assignAll_append hs h [], List.append_nil]

/-! ## The order of rows -/

/-- A map is found. -/
def LeadsToMap (v : Value) (q : List String) : Prop :=
  ∃ mark entries, lookup v q = some (.dict mark entries)

theorem leadsToMap_assign_below (hs : s ≠ []) (q : List String) (value : Value)
    (mark : Option Nat) (target : Entries) :
    LeadsToMap (.dict mark (assign (q ++ s) value target)) q :=
  ⟨_, _, lookup_assign_prefix hs q value mark target⟩

/-- A map stays a map as long as nothing is set at its place or above. -/
theorem LeadsToMap.assign (h : LeadsToMap (.dict mark target) q) (hs : ¬ s <+: q) (value : Value) :
    LeadsToMap (.dict mark (assign s value target)) q := by
  by_cases hq : q <+: s
  · obtain ⟨r, rfl⟩ := hq
    have hr : r ≠ [] := by
      rintro rfl
      exact hs (by simp)
    exact leadsToMap_assign_below hr q value mark target
  · obtain ⟨mark', entries, hlookup⟩ := h
    exact ⟨mark', entries, (lookup_assign_of_apart (not_or.mpr ⟨hs, hq⟩) ..).trans hlookup⟩

theorem LeadsToMap.assignAll (h : LeadsToMap (.dict mark target) q)
    (hrows : ∀ row ∈ rows, ¬ row.1 <+: q) :
    LeadsToMap (.dict mark (assignAll rows target)) q := by
  induction rows generalizing target with
  | nil => exact h
  | cons row rows ih =>
    exact ih (h.assign (hrows row List.mem_cons_self) row.2)
      fun row hrow => hrows row (List.mem_cons_of_mem _ hrow)

/-- What a map at a place holds under a key that is a text, but no string. No row leads there. -/
def beside (text : BrokenText) (v : Value) (q : List String) : Option Value :=
  Assoc.get? (.broken text) (nested (lookup v q))

theorem beside_assign (text : BrokenText) (hs : ¬ s <+: q) (value : Value) (mark : Option Nat)
    (target : Entries) :
    beside text (.dict mark (assign s value target)) q = beside text (.dict mark target) q := by
  have hset : ∀ (segment : String) (value : Value) (entries : Entries),
      Assoc.get? (.broken text) (Assoc.set (.str segment) value entries) =
        Assoc.get? (.broken text) entries := by
    intro segment value entries
    refine Assoc.get?_set_other (Value.beq_str_iff.mpr rfl) (fun k hk => ?_) value entries
    rw [Value.beq_str_iff.mp hk]
    rfl
  by_cases hq : q <+: s
  · obtain ⟨r, rfl⟩ := hq
    cases r with
    | nil => exact absurd (by simp) hs
    | cons segment r =>
      rw [beside, lookup_assign_prefix (List.cons_ne_nil segment r), nested]
      cases r with
      | nil => exact hset ..
      | cons => exact hset ..
  · rw [beside, lookup_assign_of_apart (not_or.mpr ⟨hs, hq⟩), beside]

theorem beside_assignAll (text : BrokenText) (hrows : ∀ row ∈ rows, ¬ row.1 <+: q)
    (mark : Option Nat) (target : Entries) :
    beside text (.dict mark (assignAll rows target)) q = beside text (.dict mark target) q := by
  induction rows generalizing target with
  | nil => rfl
  | cons row rows ih =>
    show beside text (.dict mark (assignAll rows (assign row.1 row.2 target))) q = _
    rw [ih fun row hrow => hrows row (List.mem_cons_of_mem _ hrow)]
    exact beside_assign text (hrows row List.mem_cons_self) ..

/-- Two values in which maps are found at the same places, and the same values at all others and beside
all rows. -/
def SameShape (v w : Value) : Prop :=
  ∀ q, lookup v q = lookup w q ∨
    (LeadsToMap v q ∧ LeadsToMap w q ∧ ∀ text, beside text v q = beside text w q)

/-- No two rows are comparable, and none is empty. -/
structure Apart (rows : List (List String × Value)) : Prop where
  ne_nil : ∀ row ∈ rows, row.1 ≠ []
  pairwise : rows.Pairwise fun a b => ¬ Comparable a.1 b.1

theorem Apart.perm (h : Apart rows) (hperm : rows.Perm rows') : Apart rows' where
  ne_nil row hrow := h.ne_nil row (hperm.mem_iff.mpr hrow)
  pairwise := (hperm.pairwise_iff fun hab hba => hab hba.symm).mp h.pairwise

/-- Among rows that are apart a value is found at its row, wherever that stands among them. -/
theorem Apart.lookup_of_mem (h : Apart rows) (hm : (s, value) ∈ rows) (r : List String) :
    lookup (.dict mark (assignAll rows target)) (s ++ r) = lookup value r := by
  obtain ⟨before, after, rfl⟩ := List.append_of_mem hm
  have hafter := (List.pairwise_cons.mp (List.pairwise_append.mp h.pairwise).2.1).1
  exact lookup_assignAll_append (h.ne_nil _ hm) (fun row hrow hc => hafter row hrow hc.symm) r

/-- The beginnings of rows that are apart lead to maps. -/
theorem Apart.leadsToMap (h : Apart rows) {q r : List String} (hm : (q ++ r, value) ∈ rows)
    (hr : r ≠ []) : LeadsToMap (.dict mark (assignAll rows target)) q := by
  obtain ⟨before, after, rfl⟩ := List.append_of_mem hm
  have hafter := (List.pairwise_cons.mp (List.pairwise_append.mp h.pairwise).2.1).1
  rw [assignAll_append]
  show LeadsToMap (.dict mark (Path.assignAll after (assign (q ++ r) value _))) q
  apply LeadsToMap.assignAll (leadsToMap_assign_below hr q value mark _)
  intro row hrow hq
  -- a row that ended at the place of the map or above would be the beginning of this one
  exact hafter row hrow (.inr (hq.trans (List.prefix_append q r)))

/-- **The order of rows that are apart does not show at any place.** -/
theorem Apart.sameShape (h : Apart rows) (hperm : rows.Perm rows') (mark : Option Nat)
    (target : Entries) :
    SameShape (.dict mark (assignAll rows target)) (.dict mark (assignAll rows' target)) := by
  have h' := h.perm hperm
  intro q
  by_cases hbelow : ∃ row ∈ rows, row.1 <+: q
  · obtain ⟨⟨s, value⟩, hrow, r, rfl⟩ := hbelow
    exact .inl ((h.lookup_of_mem hrow r).trans (h'.lookup_of_mem (hperm.mem_iff.mp hrow) r).symm)
  · by_cases habove : ∃ row ∈ rows, q <+: row.1
    · obtain ⟨⟨s, value⟩, hrow, r, rfl⟩ := habove
      have hr : r ≠ [] := by
        rintro rfl
        exact hbelow ⟨_, hrow, by simp⟩
      refine .inr ⟨h.leadsToMap hrow hr, h'.leadsToMap (hperm.mem_iff.mp hrow) hr, fun text => ?_⟩
      rw [beside_assignAll text fun row hrow hq => hbelow ⟨row, hrow, hq⟩,
        beside_assignAll text fun row hrow hq => hbelow ⟨row, hperm.mem_iff.mpr hrow, hq⟩]
    · have hapart : ∀ row ∈ rows, ¬ Comparable row.1 q := by
        rintro row hrow (hc | hc)
        · exact hbelow ⟨row, hrow, hc⟩
        · exact habove ⟨row, hrow, hc⟩
      refine .inl ((lookup_assignAll_of_apart hapart mark target).trans ?_)
      exact (lookup_assignAll_of_apart (fun row hrow => hapart row (hperm.mem_iff.mpr hrow)) ..).symm

/-! ## Paths as rows -/

variable {path path' : String}

theorem toList_segments (path : String) :
    (segments path).map String.toList = Text.pieces (· == '.') path.toList := by
  rw [segments, List.map_map, show String.toList ∘ String.ofList = id from
    funext fun cs => String.toList_ofList, List.map_id]

theorem flatten_segments (path : String) :
    ((segments path).map String.toList).flatten = path.toList.filter (! · == '.') := by
  rw [toList_segments, Text.flatten_pieces]

/-- A path without segments is not among the segments of any path. -/
theorem not_mem_segments (h : segments path = []) : path ∉ segments path' := by
  intro hm
  have hnone := flatten_segments path
  rw [h, List.map_nil, List.flatten_nil, eq_comm, List.filter_eq_nil_iff] at hnone
  have hempty : path.toList = [] := by
    rw [List.eq_nil_iff_forall_not_mem]
    intro c hc
    have hall : c ∈ ((segments path').map String.toList).flatten :=
      List.mem_flatten.mpr ⟨_, List.mem_map_of_mem hm, hc⟩
    rw [flatten_segments, List.mem_filter] at hall
    exact hnone c hc hall.2
  -- so the path is the empty text, which is no segment
  obtain ⟨piece, hpiece, rfl⟩ := List.mem_map.mp hm
  rw [String.toList_ofList] at hempty
  have hsome := (List.mem_filter.mp hpiece).2
  simp [hempty] at hsome

/-- The row at whose end a path sets a value: its segments, or the path itself as a single key. -/
def keys (path : String) : List String :=
  match segments path with
  | [] => [path]
  | parts => parts

theorem keys_of_eq_nil (h : segments path = []) : keys path = [path] := by
  simp [keys, h]

theorem keys_of_ne_nil (h : segments path ≠ []) : keys path = segments path := by
  rw [keys]
  split
  · contradiction
  · rfl

theorem keys_ne_nil (path : String) : keys path ≠ [] := by
  by_cases h : segments path = []
  · simp [keys_of_eq_nil h]
  · rwa [keys_of_ne_nil h]

theorem set_eq_assign (path : String) (value : Value) (target : Entries) :
    Path.set path value target = assign (keys path) value target := by
  by_cases h : segments path = []
  · rw [Path.set, h, keys_of_eq_nil h]
    rfl
  · rw [Path.set, keys_of_ne_nil h]
    split
    · contradiction
    · rfl

theorem write?_eq (path : String) (value : Value) (target : Entries) :
    write? path value target = assignWrite? (keys path) value target := by
  by_cases h : segments path = []
  · rw [write?, h, keys_of_eq_nil h]
    rfl
  · rw [write?, keys_of_ne_nil h]

/-- Two paths compete if the segments of one are the beginning of the segments of the other. A path
without segments competes only with itself. -/
def Competes (path path' : String) : Prop :=
  (segments path = [] ∧ path = path') ∨
    (segments path ≠ [] ∧ segments path' ≠ [] ∧ Comparable (segments path) (segments path'))

instance (path path' : String) : Decidable (Competes path path') := by
  unfold Competes
  infer_instance

/-- Paths compete exactly if the rows are comparable at whose ends they set. -/
theorem competes_iff : Competes path path' ↔ Comparable (keys path) (keys path') := by
  have hsingle : ∀ {p q : String}, segments p = [] → segments q ≠ [] →
      ¬ Comparable [p] (segments q) := by
    intro p q hp hq hc
    obtain ⟨segment, rest, hsegments⟩ := List.exists_cons_of_ne_nil hq
    have hhead : p = segment := by
      rw [hsegments] at hc
      rcases hc with hc | hc
      · exact (List.cons_prefix_cons.mp hc).1
      · exact (List.cons_prefix_cons.mp hc).1.symm
    have hmem : p ∈ segments q := by
      rw [hsegments, hhead]
      exact List.mem_cons_self
    exact not_mem_segments hp hmem
  by_cases hp : segments path = []
  · by_cases hq : segments path' = []
    · simp [Competes, keys_of_eq_nil, hp, hq, Comparable, eq_comm]
    · rw [keys_of_eq_nil hp, keys_of_ne_nil hq]
      refine iff_of_false ?_ (hsingle hp hq)
      rintro (⟨-, rfl⟩ | ⟨hne, -⟩)
      · exact hq hp
      · exact hne hp
  · by_cases hq : segments path' = []
    · rw [keys_of_ne_nil hp, keys_of_eq_nil hq]
      refine iff_of_false ?_ fun hc => hsingle hq hp hc.symm
      rintro (⟨heq, -⟩ | ⟨-, hne, -⟩)
      · exact hp heq
      · exact hne hq
    · simp [Competes, keys_of_ne_nil, hp, hq]

end Path

end ComponentTree
