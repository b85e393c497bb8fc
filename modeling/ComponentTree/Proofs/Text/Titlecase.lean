import ComponentTree.Proofs.Text.Lowercase
import ComponentTree.Text.Words
import Mathlib.Data.List.Chain

/-!
# Back from title case

The first character of a name is put in title case, and then in lower case again. Most characters that
are their own lower case come back (`lowerFirst_title_iff`). Those that do not, the *stray* ones,
share their capital with another letter, or their title case takes more than one character.

That all others come back is checked run by run: the images of a run of the title case table lie in one
run of the lower case table, which takes them back.
-/

namespace ComponentTree.Text

/-! ## Runs that take each other back -/

namespace CaseRun

/-- A run ends before the other begins. -/
def Below (a b : CaseRun) : Prop := a.first ≤ a.last ∧ a.last < b.first

instance (a b : CaseRun) : Decidable (Below a b) := inferInstanceAs (Decidable (_ ∧ _))

instance : IsTrans CaseRun Below where
  trans _ _ _ := fun ⟨ha, hab⟩ ⟨hb, hbc⟩ => ⟨ha, by omega⟩

/-- In ascending runs a code point is mapped by the one run that covers it. -/
theorem find?_of_covers {runs : List CaseRun} {run : CaseRun} {point : Nat} (h : runs.IsChain Below)
    (hrun : run ∈ runs) (hcovers : run.Covers point) :
    find? runs point = some (point - run.first + run.image) := by
  obtain ⟨hfirst, hlast, hstep⟩ := hcovers
  -- a later run is beyond all runs before it, not only beyond the last of them
  replace h := List.isChain_iff_pairwise.mp h
  induction runs with
  | nil => cases hrun
  | cons other rest ih =>
    obtain ⟨hother, hrest⟩ := List.pairwise_cons.mp h
    rw [find?]
    rcases List.mem_cons.mp hrun with rfl | hrun
    · rw [if_neg (Nat.not_lt.mpr hfirst), if_pos (by simp [hlast, hstep])]
    · obtain ⟨hbelow, habove⟩ : Below other run := hother run hrun
      have hpast : ¬ point ≤ other.last := by omega
      rw [if_neg (by omega), if_neg (by simp [hpast])]
      exact ih hrun hrest

/-- The run in which a code point is, if it is in one at all. -/
def around (runs : List CaseRun) (point : Nat) : Option CaseRun :=
  -- Nat.ble is what evaluates fast
  runs.find? fun run => Nat.ble point run.last

/-- A test for runs of which the second takes the images of the first back to where they came from. -/
def undoneBy (run back : CaseRun) : Bool :=
  run.image + back.image == run.first + back.first
    && decide (back.first ≤ run.image) && decide (run.lastImage ≤ back.last)
    && (back.step == 1 ||
      ((run.step == 2 || run.first == run.last) && back.step == 2 && run.image % 2 == back.first % 2))

theorem covers_of_undoneBy {run back : CaseRun} {point : Nat} (h : run.undoneBy back = true)
    (hp : run.Covers point) :
    back.Covers (point - run.first + run.image) ∧
      point - run.first + run.image - back.first + back.image = point := by
  obtain ⟨hfirst, hlast, hstep⟩ := hp
  have hlastImage : run.lastImage = run.image + (run.last - run.first) := rfl
  simp only [undoneBy, Bool.or_eq_true, Bool.and_eq_true, decide_eq_true_eq, beq_iff_eq] at h
  obtain ⟨⟨⟨hback, hlow⟩, hhigh⟩, hsteps⟩ := h
  refine ⟨⟨by omega, by omega, ?_⟩, by omega⟩
  -- going back in steps of two needs images that all have the parity of the first point
  rcases hsteps with hone | ⟨⟨htwo | hsingle, hother⟩, hparity⟩
  · rw [hone, Nat.mod_one]
  · rw [htwo] at hstep
    rw [hother]
    omega
  · rw [hother]
    omega

/-- The code points between the bounds of a run. -/
def points (run : CaseRun) : List Nat :=
  (List.range (run.last - run.first + 1)).map (run.first + ·)

theorem Covers.mem_points {run : CaseRun} {point : Nat} (h : run.Covers point) :
    point ∈ run.points := by
  obtain ⟨hfirst, hlast, -⟩ := h
  exact List.mem_map.mpr ⟨point - run.first, List.mem_range.mpr (by omega), by omega⟩

end CaseRun

/-! ## The stray characters -/

/-- Small letters that share their capital with another one, which is the one that comes back from
it. -/
def sharedCapitals : List Nat :=
  [181, 305, 383, 837, 962, 976, 977, 981, 982, 1008, 1009, 1013, 7296, 7297, 7298, 7299, 7300, 7301,
   7302, 7303, 7304, 7835, 8126]

/-- The code points of the characters that do not come back from title case. -/
def strayPoints : List Nat := sharedCapitals ++ titleLonger.map Prod.fst

def isStray (c : Char) : Bool := strayPoints.contains c.toNat

theorem lowerRuns_ascending : lowerRuns.IsChain CaseRun.Below := by
  decide +kernel

theorem titleRuns_plain : titleRuns.all CaseRun.isPlainImage = true := by
  decide +kernel

/-- What title case maps to one character is taken back, or shares its capital, or is no small letter. -/
theorem titleRuns_undone :
    (titleRuns.all fun run => (CaseRun.around lowerRuns run.image).any run.undoneBy ||
      run.points.all fun point =>
        sharedCapitals.contains point || (CaseRun.find? lowerRuns point).isSome) = true := by
  decide +kernel

theorem strayPoints_lost :
    (strayPoints.all fun point => lowerFirst (titleMap.apply (Char.ofNat point)) != [Char.ofNat point]) =
      true := by
  decide +kernel

/-! ## Lower case after title case -/

variable {c : Char}

/-- A character by itself ends no word, so its lower case does not depend on a place. -/
theorem lower_singleton (c : Char) : lower [c] = lowerMap.apply c := by
  rw [lower, lowerAfter, lowerAfter, List.append_nil, lowerBetween]
  split
  · next hsigma =>
    rw [hsigma]
    decide
  · rfl

theorem lowerFirst_cons (c : Char) (rest : List Char) :
    lowerFirst (c :: rest) = lowerMap.apply c ++ rest := by
  rw [lowerFirst, lower_singleton]

theorem lowerFirst_of_find?_lowerRuns {image : Nat} (hvalid : image.isValidChar)
    (h : CaseRun.find? lowerRuns image = some c.toNat) : lowerFirst [Char.ofNat image] = [c] := by
  rw [lowerFirst_cons, List.append_nil, CaseMap.apply, toNat_ofNat_of_isValidChar hvalid]
  simp only [lowerMap, h, Char.ofNat_toNat]

/-- No run of the lower case table maps a character that is its own lower case. -/
theorem IsLow.find?_eq_none (h : IsLow c) : CaseRun.find? lowerRuns c.toNat = none := by
  cases hfound : CaseRun.find? lowerRuns c.toNat with
  | none => rfl
  | some image =>
    obtain ⟨hvalid, -, hnone⟩ := plain_of_find?_lowerRuns hfound
    have himage : Char.ofNat image = c := by
      rw [IsLow, CaseMap.apply] at h
      simp only [lowerMap, hfound] at h
      exact List.singleton_inj.mp h
    rw [← himage, toNat_ofNat_of_isValidChar hvalid, hnone] at hfound
    cases hfound

/-- What a run of the title case table maps comes back, unless its capital is shared. -/
theorem lowerFirst_of_find?_titleRuns {image : Nat} (h : IsLow c)
    (hfound : CaseRun.find? titleRuns c.toNat = some image)
    (hshared : sharedCapitals.contains c.toNat = false) : lowerFirst [Char.ofNat image] = [c] := by
  obtain ⟨run, hrun, hcovers, rfl⟩ := CaseRun.exists_of_find? hfound
  have hundone := List.all_eq_true.mp titleRuns_undone run hrun
  rw [Bool.or_eq_true] at hundone
  rcases hundone with hundone | hpoints
  · obtain ⟨back, haround, hundone⟩ := (Option.any_eq_true ..).mp hundone
    have hback : back ∈ lowerRuns := List.mem_of_find?_eq_some haround
    obtain ⟨hcovers', hreturn⟩ := CaseRun.covers_of_undoneBy hundone hcovers
    obtain ⟨hvalid, -⟩ :=
      CaseRun.valid_of_isPlainImage (List.all_eq_true.mp titleRuns_plain run hrun) hcovers
    apply lowerFirst_of_find?_lowerRuns hvalid
    rw [CaseRun.find?_of_covers lowerRuns_ascending hback hcovers', hreturn]
  · -- a run that is not taken back has shared capitals only, next to capitals
    have hpoint := List.all_eq_true.mp hpoints _ hcovers.mem_points
    rw [hshared, h.find?_eq_none] at hpoint
    cases hpoint

/-- **Of the characters that are their own lower case, all but the stray ones come back from title
case.** -/
theorem lowerFirst_title_iff (h : IsLow c) :
    lowerFirst (titleMap.apply c) = [c] ↔ isStray c = false := by
  constructor
  · intro hback
    by_contra hstray
    have hmem : c.toNat ∈ strayPoints := by simpa [isStray] using hstray
    have hlost := List.all_eq_true.mp strayPoints_lost _ hmem
    rw [Char.ofNat_toNat, hback] at hlost
    simp at hlost
  · intro hstray
    have hmem : c.toNat ∉ sharedCapitals ++ titleLonger.map Prod.fst := by
      simpa [isStray, strayPoints] using hstray
    obtain ⟨hshared, hlonger⟩ := not_or.mp fun hor => hmem (List.mem_append.mpr hor)
    rw [CaseMap.apply]
    cases hfound : CaseRun.find? titleMap.runs c.toNat with
    | some image =>
      exact lowerFirst_of_find?_titleRuns h hfound (by simpa using hshared)
    | none =>
      have hnone : titleMap.longer.lookup c.toNat = none := by
        rw [List.lookup_eq_none_iff]
        intro entry hentry
        rw [bne_iff_ne]
        rintro hpoint
        exact hlonger (hpoint ▸ List.mem_map_of_mem hentry)
      simp only [hnone, lowerFirst_cons, List.append_nil]
      exact h

end ComponentTree.Text
