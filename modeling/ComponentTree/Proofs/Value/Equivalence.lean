import ComponentTree.Proofs.Decimal.Shortest
import ComponentTree.Proofs.Value.Nest

/-!
# Being alike is an equivalence

Being alike is asked part by part, and of maps in one direction only: every entry of the first must
be found in the second. That this is an equivalence of proper values follows from one statement about
a value, that whatever is alike to it is alike to the same values as it is (`Value.congruent`). It is
proved along the value. The case of maps rests on a count: since no two keys of a map are alike, maps
of one length that are alike match entry by entry, in some order (`Value.alike_dict_iff`).

Numbers are alike if they denote the same amount (`Value.alike_of_number?`).
-/

namespace ComponentTree

/-! ## Numbers -/

namespace Binary64

theorem infinityRank_pos : 0 < infinityRank := by decide

theorem unitsAt_injective {r s : Nat} (h : unitsAt r = unitsAt s) : r = s := by
  have hr := nearestRank_unitsAt r Nat.one_pos
  rw [h, nearestRank_unitsAt s Nat.one_pos] at hr
  exact hr.symm

/-- What a number denotes: an exact amount if it is finite, and else itself. -/
def denoted (x : Binary64) : Int ⊕ Binary64 := x.units?.elim (.inr x) .inl

theorem denoted_nan (payload : Nat) : denoted (.nan payload) = .inr (.nan payload) := rfl

theorem denoted_finite {negative : Bool} {rank : Fin (infinityRank + 1)}
    (h : rank.val < infinityRank) :
    denoted (.number negative rank) =
      .inl (if negative then - (unitsAt rank.val : Int) else unitsAt rank.val) := by
  rw [denoted, units?, if_pos h]
  rfl

theorem denoted_infinite {negative : Bool} {rank : Fin (infinityRank + 1)}
    (h : ¬ rank.val < infinityRank) :
    denoted (.number negative rank) = .inr (.number negative rank) := by
  rw [denoted, units?, if_neg h]
  rfl

/-- Signed amounts are equal if the signs and ranks are, or if both are zero. -/
theorem signed_unitsAt_eq_iff {n m : Bool} {r s : Nat} :
    (if n then - (unitsAt r : Int) else unitsAt r) = (if m then - (unitsAt s : Int) else unitsAt s) ↔
      r = s ∧ (n = m ∨ r = 0) := by
  have hzero : unitsAt 0 = 0 := rfl
  constructor
  · intro h
    have hmagnitude : unitsAt r = unitsAt s := by
      cases n <;> cases m <;> simp at h <;> omega
    obtain rfl := unitsAt_injective hmagnitude
    refine ⟨rfl, ?_⟩
    rcases Nat.eq_zero_or_pos r with hr | hr
    · exact .inr hr
    · have hpos := unitsAt_pos hr
      cases n <;> cases m <;> simp at h ⊢ <;> omega
  · rintro ⟨rfl, rfl | rfl⟩
    · rfl
    · simp [hzero]

/-- Floating point numbers are alike if they denote the same. -/
theorem alike_eq (x y : Binary64) : x.alike y = decide (x.denoted = y.denoted) := by
  rw [Bool.eq_iff_iff, decide_eq_true_iff]
  cases x with
  | nan p =>
    cases y with
    | nan q => simp [alike, denoted_nan]
    | number m s =>
      refine iff_of_false (by simp [alike, equal]) ?_
      by_cases hs : s.val < infinityRank
      · simp [denoted_nan, denoted_finite hs]
      · simp [denoted_nan, denoted_infinite hs]
  | number n r =>
    cases y with
    | nan q =>
      refine iff_of_false (by simp [alike, equal]) ?_
      by_cases hr : r.val < infinityRank
      · simp [denoted_nan, denoted_finite hr]
      · simp [denoted_nan, denoted_infinite hr]
    | number m s =>
      have hequal : (number n r).alike (number m s) = true ↔ r = s ∧ (n = m ∨ r.val = 0) := by
        simp [alike, equal]
      rw [hequal]
      by_cases hr : r.val < infinityRank <;> by_cases hs : s.val < infinityRank
      · rw [denoted_finite hr, denoted_finite hs, Sum.inl.injEq, signed_unitsAt_eq_iff, Fin.ext_iff]
      · rw [denoted_finite hr, denoted_infinite hs]
        exact iff_of_false (fun h => hs (h.1 ▸ hr)) Sum.inl_ne_inr
      · rw [denoted_infinite hr, denoted_finite hs]
        exact iff_of_false (fun h => hr (h.1 ▸ hs)) Sum.inr_ne_inl
      · have hpos : r.val ≠ 0 := fun hzero => hr (hzero ▸ infinityRank_pos)
        rw [denoted_infinite hr, denoted_infinite hs, Sum.inr.injEq, number.injEq]
        exact ⟨fun h => ⟨h.2.resolve_right hpos, h.1⟩, fun h => ⟨h.2, .inl h.1⟩⟩

end Binary64

namespace Value

/-- What a value denotes if it is a number. -/
def number? : Value → Option (Int ⊕ Binary64)
  | .bool b => some (.inl (if b then Binary64.unitsPerOne else 0))
  | .int n => some (.inl (n * Binary64.unitsPerOne))
  | .float x => some x.denoted
  | _ => none

theorem units?_eq_some_iff {v : Value} {amount : Int} :
    v.units? = some amount ↔ v.number? = some (.inl amount) := by
  cases v with
  | bool b => rw [units?, number?, Option.some.injEq, Option.some.injEq, Sum.inl.injEq]
  | int n => rw [units?, number?, Option.some.injEq, Option.some.injEq, Sum.inl.injEq]
  | float x =>
    rw [units?, number?, Option.some.injEq, Binary64.denoted]
    cases x.units? <;> simp
  | _ => exact iff_of_false (Option.some_ne_none amount).symm (Option.some_ne_none _).symm

theorem beq_units? (amount : Int) (v : Value) :
    (some amount == v.units?) = decide (some (.inl amount) = v.number?) := by
  rw [Bool.eq_iff_iff, beq_iff_eq, decide_eq_true_iff, eq_comm, units?_eq_some_iff, eq_comm]

/-- What is no float is alike to a float only if that is finite. -/
theorem alike_float {x : Binary64} {v : Value} (hv : ∀ y, v ≠ .float y) :
    alike (.float x) v = decide (some x.denoted = v.number?) := by
  have hunfold : alike (.float x) v = (x.isFinite && x.units? == v.units?) := by
    rw [alike]
    exact hv
  have hinfinite : some (.inr x) ≠ v.number? := by
    cases v with
    | float y => exact absurd rfl (hv y)
    | bool _ | int _ => exact fun h => Sum.inr_ne_inl (Option.some.inj h)
    | _ => exact Option.some_ne_none _
  rw [hunfold]
  cases x with
  | nan p => exact (decide_eq_false hinfinite).symm
  | number negative rank =>
    by_cases h : rank.val < Binary64.infinityRank
    · have hfinite : (Binary64.number negative rank).isFinite = true := decide_eq_true h
      rw [hfinite, Bool.true_and, Binary64.units?, if_pos h, Binary64.denoted_finite h, beq_units?]
    · have hfinite : (Binary64.number negative rank).isFinite = false := decide_eq_false h
      rw [hfinite, Bool.false_and, Binary64.denoted_infinite h, decide_eq_false hinfinite]

/-- **Numbers are alike if they denote the same**, of whatever kinds they are. -/
theorem alike_of_number? {v : Value} (h : v.number?.isSome) (w : Value) :
    alike v w = decide (v.number? = w.number?) := by
  cases v with
  | bool b =>
    rw [alike]
    exact beq_units? _ w
  | int n =>
    rw [alike]
    exact beq_units? _ w
  | float x =>
    by_cases hw : ∃ y, w = .float y
    · obtain ⟨y, rfl⟩ := hw
      rw [alike, Binary64.alike_eq]
      simp only [number?, Option.some.injEq]
    · exact alike_float fun y hy => hw ⟨y, hy⟩
  | _ => cases h

/-! ## Maps -/

/-- What entries need to make a map of proper values. -/
abbrev MapProper (entries : Entries) : Prop := DistinctKeys entries ∧ EntriesProper entries

/-- Entries with keys and values that are alike. -/
def EntryAlike (a b : Value × Value) : Prop := alike a.1 b.1 = true ∧ alike a.2 b.2 = true

/-- Entries of two maps that match in some order. -/
def Matched (entries entries' : Entries) : Prop :=
  ∃ arranged, arranged.Perm entries' ∧ List.Forall₂ EntryAlike entries arranged

/-- Whatever is alike to the value is alike to the same values as it is. -/
def Congruent (v : Value) : Prop :=
  ∀ w u : Value, w.Proper → u.Proper → alike v w = true → alike v u = alike w u

variable {entries entries' : Entries}

theorem alikeItems_iff {items items' : List Value} :
    alikeItems items items' = true ↔ List.Forall₂ (fun v w => alike v w = true) items items' := by
  induction items generalizing items' with
  | nil => cases items' <;> simp [alikeItems]
  | cons v items ih =>
    cases items' with
    | nil => simp [alikeItems]
    | cons w items' => simp [alikeItems, ih]

theorem alikeEntries_iff :
    alikeEntries entries entries' = true ↔
      ∀ a ∈ entries, ∃ b, (entries'.find? fun entry => alike a.1 entry.1) = some b ∧
        alike a.2 b.2 = true := by
  induction entries with
  | nil => simp [alikeEntries]
  | cons a entries ih =>
    rw [alikeEntries, Bool.and_eq_true, ih, List.forall_mem_cons]
    refine and_congr_left' ?_
    cases entries'.find? fun entry => alike a.1 entry.1 <;> simp

/-- Entries are found in a map if each has a partner there, the only one with its key. -/
theorem alikeEntries_of_partners (h : DistinctKeys entries')
    (hpartner : ∀ a ∈ entries, ∃ b ∈ entries', EntryAlike a b ∧
      ∀ other ∈ entries', alike a.1 other.1 = true → alike b.1 other.1 = true) :
    alikeEntries entries entries' = true := by
  rw [alikeEntries_iff]
  intro a ha
  obtain ⟨b, hb, ⟨hkey, hvalue⟩, honly⟩ := hpartner a ha
  exact ⟨b, find?_of_only h hb hkey honly, hvalue⟩

theorem exists_partner (h : alikeEntries entries entries' = true) {a : Value × Value}
    (ha : a ∈ entries) : ∃ b ∈ entries', EntryAlike a b := by
  obtain ⟨b, hb, hvalue⟩ := alikeEntries_iff.mp h a ha
  have hkey := List.find?_some hb
  exact ⟨b, List.mem_of_find?_eq_some hb, hkey, hvalue⟩

/-- **Maps of one length that are alike match.** No two entries of the first can have the same partner
in the second, or their keys would be alike; so by their number the partners are all entries that there
are. -/
theorem matched_of_alikeEntries (hmap : MapProper entries) (hmap' : MapProper entries')
    (hcongruent : ∀ a ∈ entries, a.1.Congruent) (hlength : entries.length = entries'.length)
    (h : alikeEntries entries entries' = true) : Matched entries entries' := by
  have hproper := entriesProper_iff.mp hmap.2
  have hproper' := entriesProper_iff.mp hmap'.2
  choose! partner hmem halike using fun a ha => @exists_partner entries entries' h a ha
  have hnodup : (entries.map partner).Nodup := by
    refine List.pairwise_map.mpr (hmap.1.imp_of_mem fun {a b} ha hb hne heq => ?_)
    have hself := alike_self a.1 (hproper a ha).1
    have hback : alike (partner a).1 a.1 = true := by
      rw [← hcongruent a ha _ _ (hproper' _ (hmem a ha)).1 (hproper a ha).1 (halike a ha).1, hself]
    have hboth : alike b.1 a.1 = true := by
      rw [hcongruent b hb _ _ (hproper' _ (hmem b hb)).1 (hproper a ha).1 (halike b hb).1, ← heq,
        hback]
    rw [hne] at hboth
    cases hboth
  have hsub : entries.map partner ⊆ entries' := by
    intro b hb
    obtain ⟨a, ha, rfl⟩ := List.mem_map.mp hb
    exact hmem a ha
  refine ⟨entries.map partner, (List.subperm_of_subset hnodup hsub).perm_of_length_le ?_, ?_⟩
  · rw [List.length_map, hlength]
  · exact List.forall₂_map_right_iff.mpr (List.forall₂_same.mpr halike)

theorem exists_of_forall₂_of_mem {α β : Type} {r : α → β → Prop} {as : List α} {bs : List β}
    (h : List.Forall₂ r as bs) {b : β} (hb : b ∈ bs) : ∃ a ∈ as, r a b := by
  induction h with
  | nil => cases hb
  | cons hab _ ih =>
    rcases List.mem_cons.mp hb with rfl | hb
    · exact ⟨_, List.mem_cons_self, hab⟩
    · obtain ⟨a, ha, hr⟩ := ih hb
      exact ⟨a, List.mem_cons_of_mem _ ha, hr⟩

theorem Matched.length_eq (h : Matched entries entries') : entries.length = entries'.length := by
  obtain ⟨arranged, hperm, halike⟩ := h
  exact halike.length_eq.trans hperm.length_eq

theorem Matched.exists_left (h : Matched entries entries') {b : Value × Value} (hb : b ∈ entries') :
    ∃ a ∈ entries, EntryAlike a b := by
  obtain ⟨arranged, hperm, halike⟩ := h
  exact exists_of_forall₂_of_mem halike (hperm.mem_iff.mpr hb)

theorem Matched.exists_right (h : Matched entries entries') {a : Value × Value} (ha : a ∈ entries) :
    ∃ b ∈ entries', EntryAlike a b := by
  obtain ⟨arranged, hperm, halike⟩ := h
  obtain ⟨b, hb, hab⟩ := exists_of_forall₂_of_mem halike.flip ha
  exact ⟨b, hperm.mem_iff.mp hb, hab⟩

/-- **Maps that match are alike.** -/
theorem Matched.alikeEntries (h : Matched entries entries') (hmap' : MapProper entries')
    (hcongruent : ∀ a ∈ entries, a.1.Congruent) :
    Value.alikeEntries entries entries' = true := by
  have hproper' := entriesProper_iff.mp hmap'.2
  refine alikeEntries_of_partners hmap'.1 fun a ha => ?_
  obtain ⟨b, hb, hab⟩ := h.exists_right ha
  refine ⟨b, hb, hab, fun other hother hkey => ?_⟩
  rwa [← hcongruent a ha _ _ (hproper' b hb).1 (hproper' other hother).1 hab.1]

/-- Maps that are alike are alike to the same maps. -/
theorem alikeEntries_congr {other : Entries} (hmap : MapProper entries) (hmap' : MapProper entries')
    (hother : MapProper other) (hcongruent : ∀ a ∈ entries, a.1.Congruent ∧ a.2.Congruent)
    (hlength : entries.length = entries'.length) (h : alikeEntries entries entries' = true) :
    alikeEntries entries other = alikeEntries entries' other := by
  have hproper' := entriesProper_iff.mp hmap'.2
  have hproperOther := entriesProper_iff.mp hother.2
  have hmatched := matched_of_alikeEntries hmap hmap' (fun a ha => (hcongruent a ha).1) hlength h
  -- what the partner of an entry is alike to is what the entry itself is alike to
  have hkey : ∀ a ∈ entries, ∀ b ∈ entries', EntryAlike a b → ∀ c ∈ other,
      alike a.1 c.1 = alike b.1 c.1 := fun a ha b hb hab c hc =>
    (hcongruent a ha).1 _ _ (hproper' b hb).1 (hproperOther c hc).1 hab.1
  have hentry : ∀ a ∈ entries, ∀ b ∈ entries', EntryAlike a b → ∀ c ∈ other,
      (EntryAlike a c ↔ EntryAlike b c) := by
    intro a ha b hb hab c hc
    have hvalue := (hcongruent a ha).2 _ _ (hproper' b hb).2 (hproperOther c hc).2 hab.2
    rw [EntryAlike, EntryAlike, hkey a ha b hb hab c hc, hvalue]
  have honly : ∀ a ∈ entries, ∀ c ∈ other, alike a.1 c.1 = true → ∀ d ∈ other,
      alike a.1 d.1 = true → alike c.1 d.1 = true := by
    intro a ha c hc hac d hd had
    rwa [← (hcongruent a ha).1 _ _ (hproperOther c hc).1 (hproperOther d hd).1 hac]
  rw [Bool.eq_iff_iff]
  constructor
  · intro halike
    refine alikeEntries_of_partners hother.1 fun b hb => ?_
    obtain ⟨a, ha, hab⟩ := hmatched.exists_left hb
    obtain ⟨c, hc, hac⟩ := exists_partner halike ha
    refine ⟨c, hc, (hentry a ha b hb hab c hc).mp hac, fun d hd hbd => ?_⟩
    rw [← hkey a ha b hb hab d hd] at hbd
    exact honly a ha c hc hac.1 d hd hbd
  · intro halike
    refine alikeEntries_of_partners hother.1 fun a ha => ?_
    obtain ⟨b, hb, hab⟩ := hmatched.exists_right ha
    obtain ⟨c, hc, hbc⟩ := exists_partner halike hb
    have hac := (hentry a ha b hb hab c hc).mpr hbc
    exact ⟨c, hc, hac, honly a ha c hc hac.1⟩

theorem alikeItems_congr {items items' other : List Value} (h' : AllProper items')
    (hother : AllProper other) (hcongruent : ∀ v ∈ items, v.Congruent)
    (h : alikeItems items items' = true) : alikeItems items other = alikeItems items' other := by
  induction items generalizing items' other with
  | nil =>
    cases items' with
    | nil => rfl
    | cons => cases h
  | cons v items ih =>
    cases items' with
    | nil => cases h
    | cons w items' =>
      rw [alikeItems, Bool.and_eq_true] at h
      rw [AllProper] at h'
      cases other with
      | nil => rfl
      | cons u other =>
        rw [AllProper] at hother
        rw [alikeItems, alikeItems, hcongruent v List.mem_cons_self w u h'.1 hother.1 h.1,
          ih h'.2 hother.2 (fun v hv => hcongruent v (List.mem_cons_of_mem _ hv)) h.2]

/-! ## All values -/

theorem congruent_number {v : Value} (h : v.number?.isSome) : v.Congruent := by
  intro w u _ _ hw
  rw [alike_of_number? h, decide_eq_true_iff] at hw
  rw [alike_of_number? h, alike_of_number? (hw ▸ h), hw]

mutual
/-- **Whatever is alike to a proper value is alike to the same values as it is.** -/
theorem congruent : ∀ v : Value, v.Proper → v.Congruent
  | .null, _ => by
    intro w u _ _ h
    cases w with
    | null => rfl
    | _ => cases h
  | .bool b, _ => congruent_number rfl
  | .int n, _ => congruent_number rfl
  | .float x, _ => congruent_number rfl
  | .str s, _ => by
    intro w u _ _ h
    cases w with
    | str t => rw [show s = t from eq_of_beq h]
    | _ => cases h
  | .broken s, _ => by
    intro w u _ _ h
    cases w with
    | broken t => rw [show s = t from eq_of_beq h]
    | _ => cases h
  | .list items, hv => by
    intro w u hw hu h
    rw [Proper] at hv
    cases w with
    | list items' =>
      cases u with
      | list other =>
        rw [alike] at h ⊢
        rw [alike, alikeItems_congr hw hu (congruentAll items hv) h]
      | _ => simp only [alike]
    | _ => simp [alike] at h
  | .tuple items, hv => by
    intro w u hw hu h
    rw [Proper] at hv
    cases w with
    | tuple items' =>
      cases u with
      | tuple other =>
        rw [alike] at h ⊢
        rw [alike, alikeItems_congr hw hu (congruentAll items hv) h]
      | _ => simp only [alike]
    | _ => simp [alike] at h
  | .dict mark entries, hv => by
    intro w u hw hu h
    rw [Proper] at hv
    cases w with
    | dict mark' entries' =>
      cases u with
      | dict mark'' other =>
        rw [alike, Bool.and_eq_true, beq_iff_eq] at h
        rw [alike, alike, h.1,
          alikeEntries_congr hv hw hu (congruentEntries entries hv.2) h.1 h.2]
      | _ => simp only [alike]
    | _ => simp [alike] at h
  | .element type props children, hv => by
    intro w u hw hu h
    rw [Proper] at hv
    cases w with
    | element type' props' children' =>
      cases u with
      | element type'' props'' children'' =>
        rw [Proper] at hw hu
        simp only [alike, Bool.and_eq_true, beq_iff_eq] at h
        obtain ⟨⟨⟨htype, hlength⟩, hprops⟩, hchildren⟩ := h
        rw [alike, alike, congruent type hv.1 type' type'' hw.1 hu.1 htype, hlength,
          alikeEntries_congr hv.2.1 hw.2.1 hu.2.1 (congruentEntries props hv.2.1.2) hlength hprops,
          alikeItems_congr hw.2.2 hu.2.2 (congruentAll children hv.2.2) hchildren]
      | _ => simp only [alike]
    | _ => simp [alike] at h
  | .fragment, _ => by
    intro w u _ _ h
    cases w with
    | fragment => rfl
    | _ => cases h
  | .component c, _ => by
    intro w u _ _ h
    cases w with
    | component d =>
      rw [alike, beq_iff_eq] at h
      cases u with
      | component e => rw [alike, alike, h]
      | _ => simp only [alike]
    | _ => simp [alike] at h

theorem congruentAll : ∀ items : List Value, AllProper items → ∀ v ∈ items, v.Congruent
  | [], _ => by simp
  | item :: items, h => by
    rw [AllProper] at h
    exact List.forall_mem_cons.mpr ⟨congruent item h.1, congruentAll items h.2⟩

theorem congruentEntries : ∀ entries : Entries, EntriesProper entries →
    ∀ a ∈ entries, a.1.Congruent ∧ a.2.Congruent
  | [], _ => by simp
  | (key, value) :: entries, h => by
    rw [EntriesProper] at h
    have hentry := And.intro (congruent key h.1) (congruent value h.2.1)
    exact List.forall_mem_cons.mpr ⟨hentry, congruentEntries entries h.2.2⟩
end

/-! ## The laws -/

variable {u v w : Value}

theorem alike_symm (hv : v.Proper) (hw : w.Proper) (h : alike v w = true) : alike w v = true := by
  rw [← congruent v hv w v hw hv h, alike_self v hv]

theorem alike_trans (hu : u.Proper) (hv : v.Proper) (hw : w.Proper) (h : alike u v = true)
    (h' : alike v w = true) : alike u w = true := by
  rwa [congruent u hu v w hv hw h]

theorem alikeEntries_iff_matched (hmap : MapProper entries) (hmap' : MapProper entries') :
    (entries.length == entries'.length && alikeEntries entries entries') = true ↔
      Matched entries entries' := by
  have hcongruent : ∀ a ∈ entries, a.1.Congruent := fun a ha =>
    (congruentEntries entries hmap.2 a ha).1
  rw [Bool.and_eq_true, beq_iff_eq]
  constructor
  · rintro ⟨hlength, halike⟩
    exact matched_of_alikeEntries hmap hmap' hcongruent hlength halike
  · intro h
    exact ⟨h.length_eq, h.alikeEntries hmap' hcongruent⟩

/-- **Maps are alike if their entries match**, in whatever order they stand. -/
theorem alike_dict_iff {mark mark' : Option Nat} (hmap : MapProper entries)
    (hmap' : MapProper entries') :
    alike (.dict mark entries) (.dict mark' entries') = true ↔ Matched entries entries' := by
  rw [alike, alikeEntries_iff_matched hmap hmap']

/-- **Elements are alike if their types and children are and their props match.** -/
theorem alike_element_iff {type type' : Value} {props props' : Entries}
    {children children' : List Value} (hprops : MapProper props) (hprops' : MapProper props') :
    alike (.element type props children) (.element type' props' children') = true ↔
      alike type type' = true ∧ Matched props props' ∧
        List.Forall₂ (fun v w => alike v w = true) children children' := by
  rw [alike, Bool.and_assoc (alike type type'), Bool.and_eq_true, Bool.and_eq_true,
    alikeEntries_iff_matched hprops hprops', alikeItems_iff, and_assoc]

end Value

end ComponentTree
