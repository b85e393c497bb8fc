import ComponentTree.Text.Case

/-!
# Lower case is final

Lowering a text a second time changes nothing (`lowercase_lowercase`). Every character that lower
case is made of is its own image, whatever stands beside it, so the rule for the final sigma finds
nothing to do either.

Of the table of runs this takes one check for each pair of runs: the images of the one keep clear of
the code points of the other.
-/

namespace ComponentTree

namespace Text

theorem toNat_ofNat_of_isValidChar {n : Nat} (h : n.isValidChar) : (Char.ofNat n).toNat = n := by
  rw [Char.ofNat, dif_pos h]
  rfl

/-! ## Runs -/

namespace CaseRun

/-- The code points that a run maps. -/
def Covers (run : CaseRun) (point : Nat) : Prop :=
  run.first ≤ point ∧ point ≤ run.last ∧ (point - run.first) % run.step = 0

theorem exists_of_find? {runs : List CaseRun} {point image : Nat}
    (h : find? runs point = some image) :
    ∃ run ∈ runs, run.Covers point ∧ image = point - run.first + run.image := by
  induction runs with
  | nil => cases h
  | cons run rest ih =>
    rw [find?] at h
    split at h
    · cases h
    · next hfirst =>
      split at h
      · next hin =>
        simp only [Bool.and_eq_true, decide_eq_true_eq, beq_iff_eq] at hin
        exact ⟨run, List.mem_cons_self, ⟨Nat.le_of_not_lt hfirst, hin⟩, (Option.some.inj h).symm⟩
      · obtain ⟨found, hfound, hcovers⟩ := ih h
        exact ⟨found, List.mem_cons_of_mem _ hfound, hcovers⟩

theorem find?_eq_none {runs : List CaseRun} {point : Nat}
    (h : ∀ run ∈ runs, ¬ run.Covers point) : find? runs point = none := by
  cases hfound : find? runs point with
  | none => rfl
  | some image =>
    obtain ⟨run, hrun, hcovers, -⟩ := exists_of_find? hfound
    exact absurd hcovers (h run hrun)

/-- The last image of a run. -/
def lastImage (run : CaseRun) : Nat := run.image + (run.last - run.first)

/-- A test for images of one run that the other one does not map: either they all lie outside of its
bounds, or they are all even where it maps odd code points, or the other way round. -/
def clears (run other : CaseRun) : Bool :=
  decide (run.lastImage < other.first) || decide (other.last < run.image) ||
    ((run.step == 2 || run.first == run.last) && other.step == 2
      && run.image % 2 != other.first % 2)

theorem not_covers_of_clears {run other : CaseRun} {point : Nat} (h : run.clears other = true)
    (hp : run.Covers point) : ¬ other.Covers (point - run.first + run.image) := by
  obtain ⟨hfirst, hlast, hstep⟩ := hp
  rintro ⟨hfirst', hlast', hstep'⟩
  simp only [clears, Bool.or_eq_true, Bool.and_eq_true, decide_eq_true_eq, beq_iff_eq,
    bne_iff_ne] at h
  have hlastImage : run.lastImage = run.image + (run.last - run.first) := rfl
  rcases h with (h | h) | ⟨⟨hone | hone, hother⟩, hparity⟩
  · omega
  · omega
  · rw [hone] at hstep
    rw [hother] at hstep'
    omega
  · rw [hother] at hstep'
    omega

/-- A test for images that are characters, and not the one character with a longer lower case. -/
def isPlainImage (run : CaseRun) : Bool :=
  (decide (run.lastImage < 0xD800) ||
      (decide (0xDFFF < run.image) && decide (run.lastImage < 0x110000)))
    && (decide (run.lastImage < 304) || decide (304 < run.image))

theorem valid_of_isPlainImage {run : CaseRun} {point : Nat} (h : run.isPlainImage = true)
    (hp : run.Covers point) :
    (point - run.first + run.image).isValidChar ∧ point - run.first + run.image ≠ 304 := by
  obtain ⟨-, hlast, -⟩ := hp
  have hlastImage : run.lastImage = run.image + (run.last - run.first) := rfl
  simp only [isPlainImage, Bool.and_eq_true, Bool.or_eq_true, decide_eq_true_eq] at h
  refine ⟨?_, by omega⟩
  unfold Nat.isValidChar
  omega

end CaseRun

theorem lowerRuns_clear : (lowerRuns.all fun run => lowerRuns.all run.clears) = true := by
  decide +kernel

theorem lowerRuns_plain : lowerRuns.all CaseRun.isPlainImage = true := by
  decide +kernel

/-- An image is a character, but not one of those with a longer lower case, and no run maps it. -/
theorem plain_of_find?_lowerRuns {point image : Nat}
    (h : CaseRun.find? lowerRuns point = some image) :
    image.isValidChar ∧ image ≠ 304 ∧ CaseRun.find? lowerRuns image = none := by
  obtain ⟨run, hrun, hcovers, rfl⟩ := CaseRun.exists_of_find? h
  obtain ⟨hvalid, hshort⟩ :=
    CaseRun.valid_of_isPlainImage (List.all_eq_true.mp lowerRuns_plain run hrun) hcovers
  have hclears := List.all_eq_true.mp (List.all_eq_true.mp lowerRuns_clear run hrun)
  exact ⟨hvalid, hshort, CaseRun.find?_eq_none fun other hother =>
    CaseRun.not_covers_of_clears (hclears other hother) hcovers⟩

/-! ## Characters that are their own lower case -/

/-- Lowering the character gives itself, between any neighbours. -/
def IsLow (c : Char) : Prop := lowerMap.apply c = [c]

theorem IsLow.ne_sigma {c : Char} (h : IsLow c) : c ≠ 'Σ' := by
  rintro rfl
  have hsigma : lowerMap.apply 'Σ' = ['σ'] := by decide
  rw [IsLow, hsigma] at h
  cases h

theorem isLow_of_mem_apply {c d : Char} (hd : d ∈ lowerMap.apply c) : IsLow d := by
  unfold CaseMap.apply at hd
  split at hd
  · next image himage =>
    obtain ⟨hvalid, hshort, hnone⟩ := plain_of_find?_lowerRuns himage
    have hpoint : (Char.ofNat image).toNat = image := toNat_ofNat_of_isValidChar hvalid
    have hlonger : lowerMap.longer.lookup image = none := by
      simp [lowerMap, List.lookup_cons, beq_false_of_ne hshort]
    rw [List.mem_singleton.mp hd, IsLow, CaseMap.apply, hpoint]
    simp only [lowerMap] at hlonger ⊢
    rw [hnone, hlonger]
  · next hnone =>
    split at hd
    · next images hlonger =>
      -- the dotted capital I has the only longer image
      have himages : images = [105, 775] := by
        by_cases hdotted : c.toNat = 304
        · rw [hdotted] at hlonger
          exact (Option.some.inj hlonger).symm
        · simp [lowerMap, List.lookup_cons, beq_false_of_ne hdotted] at hlonger
      subst himages
      have hd' : d = 'i' ∨ d = Char.ofNat 775 := by simpa using hd
      rcases hd' with rfl | rfl
      · show lowerMap.apply 'i' = ['i']
        decide
      · show lowerMap.apply (Char.ofNat 775) = [Char.ofNat 775]
        decide
    · next hlonger =>
      rw [List.mem_singleton.mp hd, IsLow, CaseMap.apply, hnone, hlonger]

theorem isLow_of_mem_lowerBetween {before after : List Char} {c d : Char}
    (h : d ∈ lowerBetween before c after) : IsLow d := by
  unfold lowerBetween at h
  split at h
  · rw [List.mem_singleton.mp h]
    split
    · show lowerMap.apply 'ς' = ['ς']
      decide
    · show lowerMap.apply 'σ' = ['σ']
      decide
  · exact isLow_of_mem_apply h

theorem isLow_of_mem_lowerAfter {d : Char} {cs : List Char} :
    ∀ {before : List Char}, d ∈ lowerAfter before cs → IsLow d := by
  induction cs with
  | nil => intro before h; cases h
  | cons c after ih =>
    intro before h
    rw [lowerAfter, List.mem_append] at h
    rcases h with h | h
    · exact isLow_of_mem_lowerBetween h
    · exact ih h

theorem lowerAfter_of_isLow {cs : List Char} (h : ∀ c ∈ cs, IsLow c) (before : List Char) :
    lowerAfter before cs = cs := by
  induction cs generalizing before with
  | nil => rfl
  | cons c after ih =>
    have hc := h c List.mem_cons_self
    have hbetween : lowerBetween before c after = [c] := by
      rw [lowerBetween, if_neg hc.ne_sigma]
      exact hc
    rw [lowerAfter, hbetween, ih fun d hd => h d (List.mem_cons_of_mem _ hd)]
    rfl

theorem lower_lower (cs : List Char) : lower (lower cs) = lower cs :=
  lowerAfter_of_isLow (fun _ => isLow_of_mem_lowerAfter) []

end Text

/-- **Lower case is final.** -/
theorem lowercase_lowercase (s : String) : lowercase (lowercase s) = lowercase s := by
  rw [lowercase, lowercase, String.toList_ofList, Text.lower_lower]

end ComponentTree
