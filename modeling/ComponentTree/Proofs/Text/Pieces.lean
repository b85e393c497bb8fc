import ComponentTree.Text.Pieces
import Mathlib.Data.List.Basic

/-!
# Gaps between pieces

How many separators stand in a row makes no difference to the pieces of a text, and those at its ends
make none at all. Both follow from the law that a text is cut at every separator
(`pieces_append_cons`), by induction on the gap. What a separator joins is found again
(`pieces_intercalate`).

`Renders` is the other way round, from pieces to the texts that are written with them. There are many of
these, as gaps can be of any length, and `pieces` is what they have in common (`pieces_eq_iff`).
-/

namespace ComponentTree.Text

variable {p : Char → Bool} {sep : Char} {piece gap trail cs : List Char} {ps : List (List Char)}

/-! ## No pieces, and one -/

theorem ne_nil_of_mem_pieces (h : piece ∈ pieces p cs) : piece ≠ [] := by
  have hne := (List.mem_filter.mp h).2
  simpa using hne

theorem cut_eq_singleton (h : ∀ c ∈ piece, p c = false) : cut p piece = [piece] := by
  induction piece with
  | nil => rfl
  | cons c piece ih =>
    rw [cut, h c List.mem_cons_self, ih fun d hd => h d (List.mem_cons_of_mem _ hd)]
    rfl

theorem pieces_eq_singleton (hne : piece ≠ []) (h : ∀ c ∈ piece, p c = false) :
    pieces p piece = [piece] := by
  rw [pieces, cut_eq_singleton h]
  simp [hne]

/-- A text has no pieces exactly if it is all separators. -/
theorem pieces_eq_nil_iff : pieces p cs = [] ↔ ∀ c ∈ cs, p c = true := by
  induction cs with
  | nil => simp [pieces, cut]
  | cons c cs ih =>
    rw [List.forall_mem_cons]
    cases hc : p c with
    | true =>
      have hrest : pieces p (c :: cs) = pieces p cs := pieces_append_cons hc [] cs
      rw [hrest, ih]
      simp
    | false =>
      -- the first piece begins with this character
      obtain ⟨first, later, hcut⟩ := List.exists_cons_of_ne_nil (cut_ne_nil p cs)
      rw [pieces, cut, hc, hcut]
      simp

/-- The pieces of a text are made of what does not separate. -/
theorem flatten_pieces (p : Char → Bool) (cs : List Char) :
    (pieces p cs).flatten = cs.filter (! p ·) := by
  have hpieces : ∀ pieces : List (List Char),
      (pieces.filter (! ·.isEmpty)).flatten = pieces.flatten := by
    intro pieces
    induction pieces with
    | nil => rfl
    | cons piece pieces ih => cases piece <;> simp [ih]
  rw [pieces, hpieces]
  induction cs with
  | nil => rfl
  | cons c cs ih =>
    rw [cut, List.filter_cons]
    split
    · next hc => simp [hc, ih]
    · next hc =>
      cases hcut : cut p cs with
      | nil => exact absurd hcut (cut_ne_nil p cs)
      | cons piece later =>
        rw [hcut] at ih
        simp [hc, ← ih]

theorem mem_of_mem_pieces {c : Char} (hpiece : piece ∈ pieces p cs) (hc : c ∈ piece) :
    c ∈ cs ∧ p c = false := by
  have hflat : c ∈ (pieces p cs).flatten := List.mem_flatten.mpr ⟨piece, hpiece, hc⟩
  rw [flatten_pieces, List.mem_filter] at hflat
  simpa using hflat

/-! ## Changing characters -/

theorem cut_map {f : Char → Char} (h : ∀ c ∈ cs, p (f c) = p c) :
    cut p (cs.map f) = (cut p cs).map (List.map f) := by
  induction cs with
  | nil => rfl
  | cons c cs ih =>
    obtain ⟨hc, hcs⟩ := List.forall_mem_cons.mp h
    rw [List.map_cons, cut, cut, hc, ih hcs]
    split
    · rfl
    · obtain ⟨first, later, hcut⟩ := List.exists_cons_of_ne_nil (cut_ne_nil p cs)
      rw [hcut]
      rfl

/-- A text is cut at the same places if its characters are changed, but none of them to a separator or
from one. -/
theorem pieces_map {f : Char → Char} (h : ∀ c ∈ cs, p (f c) = p c) :
    pieces p (cs.map f) = (pieces p cs).map (List.map f) := by
  rw [pieces, pieces, cut_map h, List.filter_map]
  congr 2
  funext piece
  simp

/-! ## Gaps -/

/-- A gap before a text makes no difference. -/
theorem pieces_gap_append (h : ∀ c ∈ gap, p c = true) (cs : List Char) :
    pieces p (gap ++ cs) = pieces p cs := by
  induction gap with
  | nil => rfl
  | cons c gap ih =>
    have hc : p c = true := h c List.mem_cons_self
    calc pieces p (c :: (gap ++ cs))
        = pieces p (gap ++ cs) := pieces_append_cons hc [] (gap ++ cs)
      _ = pieces p cs := ih fun d hd => h d (List.mem_cons_of_mem _ hd)

/-- **A gap between two texts is as good as one separator.** -/
theorem pieces_append_gap_append (hne : gap ≠ []) (h : ∀ c ∈ gap, p c = true) (a b : List Char) :
    pieces p (a ++ gap ++ b) = pieces p a ++ pieces p b := by
  obtain ⟨c, gap, rfl⟩ := List.exists_cons_of_ne_nil hne
  have hgap : pieces p (gap ++ b) = pieces p b :=
    pieces_gap_append (fun d hd => h d (List.mem_cons_of_mem _ hd)) b
  rw [List.append_assoc, List.cons_append, pieces_append_cons (h c List.mem_cons_self), hgap]

/-- A gap after a text makes no difference. -/
theorem pieces_append_gap (h : ∀ c ∈ gap, p c = true) (cs : List Char) :
    pieces p (cs ++ gap) = pieces p cs := by
  by_cases hne : gap = []
  · rw [hne, List.append_nil]
  · have hends := pieces_append_gap_append hne h cs []
    rwa [List.append_nil, pieces_eq_nil_iff.mpr (List.forall_mem_nil _), List.append_nil] at hends

/-! ## Joined pieces -/

/-- **Pieces that a separator joins are found again.** -/
theorem pieces_intercalate (hsep : p sep = true) (hne : ∀ piece ∈ ps, piece ≠ [])
    (h : ∀ piece ∈ ps, ∀ c ∈ piece, p c = false) : pieces p ([sep].intercalate ps) = ps := by
  induction ps with
  | nil => rfl
  | cons piece ps ih =>
    have hpiece : pieces p piece = [piece] :=
      pieces_eq_singleton (hne piece List.mem_cons_self) (h piece List.mem_cons_self)
    have hrest := ih (fun piece hm => hne piece (List.mem_cons_of_mem _ hm))
      fun piece hm => h piece (List.mem_cons_of_mem _ hm)
    -- the last piece has no separator after it
    cases ps with
    | nil => simpa using hpiece
    | cons next ps =>
      have hjoined : [sep].intercalate (piece :: next :: ps) =
          piece ++ sep :: [sep].intercalate (next :: ps) := by simp
      rw [hjoined, pieces_append_cons hsep, hpiece, hrest]
      rfl

/-! ## Texts written with pieces -/

/-- A text that is not empty and has no separator. -/
def IsPiece (p : Char → Bool) (piece : List Char) : Prop := piece ≠ [] ∧ ∀ c ∈ piece, p c = false

instance (p : Char → Bool) (piece : List Char) : Decidable (IsPiece p piece) :=
  decidable_of_iff (piece ≠ [] ∧ piece.all (! p ·) = true) (by simp [IsPiece])

/-- The text is written with the pieces: one after the other with one or more separators between two of
them, and any number of separators before the first and after the last one. -/
inductive Renders (p : Char → Bool) : List (List Char) → List Char → Prop
  | gap {gap : List Char} : (∀ c ∈ gap, p c = true) → Renders p [] gap
  | last {gap piece trail : List Char} : (∀ c ∈ gap, p c = true) → IsPiece p piece →
      (∀ c ∈ trail, p c = true) → Renders p [piece] (gap ++ piece ++ trail)
  | more {gap piece cs : List Char} {sep : Char} {ps : List (List Char)} : (∀ c ∈ gap, p c = true) →
      IsPiece p piece → p sep = true → ps ≠ [] → Renders p ps cs →
      Renders p (piece :: ps) (gap ++ piece ++ sep :: cs)

theorem IsPiece.pieces_gap_append (h : IsPiece p piece) (hgap : ∀ c ∈ gap, p c = true) :
    pieces p (gap ++ piece) = [piece] := by
  rw [Text.pieces_gap_append hgap, pieces_eq_singleton h.1 h.2]

/-- What is written with pieces has these pieces. -/
theorem Renders.pieces_eq (h : Renders p ps cs) : pieces p cs = ps := by
  induction h with
  | gap hgap => exact pieces_eq_nil_iff.mpr hgap
  | last hgap hpiece htrail => rw [pieces_append_gap htrail, hpiece.pieces_gap_append hgap]
  | more hgap hpiece hsep _ _ ih =>
    rw [pieces_append_cons hsep, hpiece.pieces_gap_append hgap, ih]
    rfl

/-- One more separator in front is one more in the first gap. -/
theorem Renders.cons (h : Renders p ps cs) (hsep : p sep = true) : Renders p ps (sep :: cs) := by
  cases h with
  | gap hgap => exact .gap (List.forall_mem_cons.mpr ⟨hsep, hgap⟩)
  | last hgap hpiece htrail => exact .last (List.forall_mem_cons.mpr ⟨hsep, hgap⟩) hpiece htrail
  | more hgap hpiece hsep' hne hps =>
    exact .more (List.forall_mem_cons.mpr ⟨hsep, hgap⟩) hpiece hsep' hne hps

theorem Renders.isPiece (h : Renders p ps cs) : ∀ piece ∈ ps, IsPiece p piece := by
  induction h with
  | gap => exact List.forall_mem_nil _
  | last _ hpiece _ => exact List.forall_mem_singleton.mpr hpiece
  | more _ hpiece _ _ _ ih => exact List.forall_mem_cons.mpr ⟨hpiece, ih⟩

/-- Every text is written with its pieces. -/
theorem renders_pieces (p : Char → Bool) (cs : List Char) : Renders p (pieces p cs) cs := by
  -- on the length, as what follows a piece is shorter
  induction hlength : cs.length using Nat.strongRecOn generalizing cs with
  | _ n ih =>
    subst hlength
    have hfirst : ∀ c ∈ cs.takeWhile (! p ·), p c = false := by
      intro c hc
      simpa using List.all_eq_true.mp List.all_takeWhile c hc
    have hsplit : cs.takeWhile (! p ·) ++ cs.dropWhile (! p ·) = cs := List.takeWhile_append_dropWhile
    have hnone : ∀ c ∈ ([] : List Char), p c = true := List.forall_mem_nil _
    generalize cs.takeWhile (! p ·) = first at hfirst hsplit
    cases hrest : cs.dropWhile (! p ·) with
    | nil =>
      rw [hrest, List.append_nil] at hsplit
      subst hsplit
      by_cases hne : first = []
      · subst hne
        exact .gap hnone
      · rw [pieces_eq_singleton hne hfirst]
        have hwhole := Renders.last hnone ⟨hne, hfirst⟩ hnone
        rwa [List.append_nil] at hwhole
    | cons sep rest =>
      have hsep : p sep = true := by
        have hhead := List.head?_dropWhile_not (! p ·) cs
        simpa [hrest] using hhead
      rw [hrest] at hsplit
      subst hsplit
      have hlater := ih rest.length (by simp; omega) rest rfl
      rw [pieces_append_cons hsep]
      by_cases hne : first = []
      · subst hne
        exact hlater.cons hsep
      · rw [pieces_eq_singleton hne hfirst, List.singleton_append]
        by_cases hlast : pieces p rest = []
        · rw [hlast]
          exact .last hnone ⟨hne, hfirst⟩
            (List.forall_mem_cons.mpr ⟨hsep, pieces_eq_nil_iff.mp hlast⟩)
        · exact .more hnone ⟨hne, hfirst⟩ hsep hlast hlater

/-- **Pieces are what the texts that are written with them have in common.** -/
theorem pieces_eq_iff : pieces p cs = ps ↔ Renders p ps cs :=
  ⟨fun h => h ▸ renders_pieces p cs, Renders.pieces_eq⟩

end ComponentTree.Text
