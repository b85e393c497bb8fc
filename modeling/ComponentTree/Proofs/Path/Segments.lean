import ComponentTree.Proofs.Path

/-!
# Paths and their segments

A row of segments can be written as a path in many ways, as there can be any number of dots around
and between the segments. `segments` reads every one of them back and nothing else (`segments_eq_iff`).

Of a path only its segments count where a value is set, and if it has none the path itself. That is as
much as can be left out: the row of keys is seen from what is set in an empty map (`keys_eq_iff`).
-/

namespace ComponentTree.Path

variable {path path' segment : String} {s s' : List String}

/-! ## Dots -/

/-- The path is written with the segments: with one or more dots between two of them, and any number
of dots before the first and after the last one. -/
def Dotted (s : List String) (path : String) : Prop :=
  Text.Renders (· == '.') (s.map String.toList) path.toList

/-- A segment is not empty and has no dot. -/
def IsSegment (segment : String) : Prop := segment ≠ "" ∧ '.' ∉ segment.toList

theorem isSegment_iff : IsSegment segment ↔ Text.IsPiece (· == '.') segment.toList := by
  have hdots : '.' ∉ segment.toList ↔ ∀ c ∈ segment.toList, (c == '.') = false := by
    simp only [beq_eq_false_iff_ne]
    exact ⟨fun h c hc hdot => h (hdot ▸ hc), fun h hc => h '.' hc rfl⟩
  rw [IsSegment, Text.IsPiece, hdots, ne_eq, ne_eq, String.toList_eq_nil_iff]

theorem segments_append_dot_append (path path' : String) :
    segments (path ++ "." ++ path') = segments path ++ segments path' := by
  have htext : (path ++ "." ++ path').toList = path.toList ++ '.' :: path'.toList := by
    simp [String.toList_append]
  rw [segments, htext, Text.pieces_append_cons (by rfl), List.map_append]
  rfl

/-- **A path has the segments that it is written with.** -/
theorem segments_eq_iff : segments path = s ↔ Dotted s path := by
  rw [Dotted, ← Text.pieces_eq_iff, ← toList_segments]
  exact (List.map_injective_iff.mpr fun _ _ => String.toList_inj.mp).eq_iff.symm

theorem Dotted.isSegment (h : Dotted s path) (hm : segment ∈ s) : IsSegment segment :=
  isSegment_iff.mpr (h.isPiece _ (List.mem_map_of_mem hm))

theorem isSegment_of_mem_segments (h : segment ∈ segments path) : IsSegment segment := by
  have hwritten : Dotted (segments path) path := segments_eq_iff.mp rfl
  exact hwritten.isSegment h

/-- Any row of segments can be written as a path. -/
theorem exists_dotted (h : ∀ segment ∈ s, IsSegment segment) : ∃ path, Dotted s path := by
  have hpieces : ∀ piece ∈ s.map String.toList, Text.IsPiece (· == '.') piece := by
    intro piece hpiece
    obtain ⟨segment, hm, rfl⟩ := List.mem_map.mp hpiece
    exact isSegment_iff.mp (h segment hm)
  refine ⟨String.ofList (['.'].intercalate (s.map String.toList)), Text.pieces_eq_iff.mp ?_⟩
  rw [String.toList_ofList]
  exact Text.pieces_intercalate (beq_self_eq_true '.') (fun piece hm => (hpieces piece hm).1)
    fun piece hm => (hpieces piece hm).2

theorem exists_dotted_iff : (∃ path, Dotted s path) ↔ ∀ segment ∈ s, IsSegment segment :=
  ⟨fun ⟨_, hwritten⟩ _ hm => hwritten.isSegment hm, exists_dotted⟩

/-! ## What is set at a path -/

theorem assign_cons_nil (hs : s ≠ []) (segment : String) (value : Value) :
    assign (segment :: s) value [] = [(.str segment, .dict none (assign s value []))] :=
  assign_cons hs segment value []

/-- The row at whose end a value is set is seen from what was set, as long as the value is no map. -/
theorem eq_of_assign_eq (hs : s ≠ []) (hs' : s' ≠ [])
    (h : assign s .null [] = assign s' .null []) : s = s' := by
  induction s generalizing s' with
  | nil => exact absurd rfl hs
  | cons segment rest ih =>
    obtain ⟨segment', rest', rfl⟩ := List.exists_cons_of_ne_nil hs'
    by_cases hrest : rest = []
    · by_cases hrest' : rest' = []
      · subst hrest hrest'
        have hpair : [(Value.str segment, Value.null)] = [(Value.str segment', Value.null)] := h
        cases hpair
        rfl
      · subst hrest
        rw [assign_cons_nil hrest'] at h
        cases h
    · by_cases hrest' : rest' = []
      · subst hrest'
        rw [assign_cons_nil hrest] at h
        cases h
      · rw [assign_cons_nil hrest, assign_cons_nil hrest'] at h
        injection h with hpair
        injection hpair with hsegment hbelow
        injection hsegment with hsegment
        injection hbelow with _ hbelow
        rw [hsegment, ih hrest hrest' hbelow]

/-- Two paths lead to the same row if they have the same segments, or none and are equal. -/
theorem keys_eq_iff :
    keys path = keys path' ↔ (segments path = segments path' ∧ segments path ≠ []) ∨ path = path' := by
  constructor
  · intro h
    by_cases hp : segments path = []
    · by_cases hp' : segments path' = []
      · rw [keys_of_eq_nil hp, keys_of_eq_nil hp'] at h
        exact .inr (List.singleton_inj.mp h)
      · rw [keys_of_eq_nil hp, keys_of_ne_nil hp'] at h
        exact absurd (h ▸ List.mem_singleton_self path) (not_mem_segments hp)
    · by_cases hp' : segments path' = []
      · rw [keys_of_ne_nil hp, keys_of_eq_nil hp'] at h
        exact absurd (h ▸ List.mem_singleton_self path') (not_mem_segments hp')
      · rw [keys_of_ne_nil hp, keys_of_ne_nil hp'] at h
        exact .inl ⟨h, hp⟩
  · rintro (⟨heq, hne⟩ | rfl)
    · rw [keys_of_ne_nil hne, keys_of_ne_nil (heq ▸ hne), heq]
    · rfl

/-- Setting at the path does the same as setting at the other one, to the target and to the maps that
are shared, whatever is set and wherever. -/
def SetAlike (path path' : String) : Prop :=
  ∀ value target, Path.set path value target = Path.set path' value target ∧
    write? path value target = write? path' value target

theorem setAlike_iff : SetAlike path path' ↔ keys path = keys path' := by
  constructor
  · intro h
    have hset := (h .null []).1
    rw [set_eq_assign, set_eq_assign] at hset
    exact eq_of_assign_eq (keys_ne_nil path) (keys_ne_nil path') hset
  · intro h value target
    rw [set_eq_assign, set_eq_assign, write?_eq, write?_eq, h]
    exact ⟨rfl, rfl⟩

/-- **Segments are read off dotted paths.** A dot between two paths puts their segments in a row; every
row of segments that are not empty and have no dot can be written, with any number of dots where there
has to be one or may be one, and is read back from whatever it is written as; and paths with segments
do the same where values are set exactly if their segments are the same. -/
theorem segments_parse_dotted :
    (∀ p q, segments (p ++ "." ++ q) = segments p ++ segments q) ∧
    (∀ path, ∀ segment ∈ segments path, IsSegment segment) ∧
    (∀ s, (∃ path, Dotted s path) ↔ ∀ segment ∈ s, IsSegment segment) ∧
    (∀ s path, segments path = s ↔ Dotted s path) ∧
    ∀ p q, SetAlike p q ↔ (segments p = segments q ∧ segments p ≠ []) ∨ p = q :=
  ⟨segments_append_dot_append, fun _ _ => isSegment_of_mem_segments, fun _ => exists_dotted_iff,
    fun _ _ => segments_eq_iff, fun _ _ => setAlike_iff.trans keys_eq_iff⟩

/-- Dots around the segments and twice between them: the path is read as it is written, and does what
the one with a single dot does. -/
theorem segments_parse_dotted_spacedPath :
    segments "..a..b." = ["a", "b"] ∧ SetAlike "..a..b." "a.b" := by
  obtain ⟨-, -, -, hread, halike⟩ := segments_parse_dotted
  have hdots : ∀ n, ∀ c ∈ List.replicate n '.', (c == '.') = true := fun _ _ hc =>
    beq_iff_eq.mpr (List.eq_of_mem_replicate hc)
  have ha : Text.IsPiece (· == '.') ['a'] := by decide
  have hb : Text.IsPiece (· == '.') ['b'] := by decide
  have hspaced : Dotted ["a", "b"] "..a..b." :=
    .more (hdots 2) ha (beq_self_eq_true '.') (by decide) (.last (hdots 1) hb (hdots 1))
  have hplain : Dotted ["a", "b"] "a.b" :=
    .more (hdots 0) ha (beq_self_eq_true '.') (by decide) (.last (hdots 0) hb (hdots 0))
  have hsegments := (hread _ _).mpr hspaced
  refine ⟨hsegments, (halike _ _).mpr (.inl ⟨?_, ?_⟩)⟩
  · rw [hsegments, (hread _ _).mpr hplain]
  · rw [hsegments]
    decide

end ComponentTree.Path
