import ComponentTree.Decimal.Shortest
import ComponentTree.Proofs.Decimal.Digits

/-!
# Shortest decimals read back

Whatever the search for a short decimal comes to, the decimal that is written reads back as the
number it was made of (`rankOfDecimal_shortest`). A decimal that the search finds was tested for
that. Where it finds none, the exact value is written, and rounding is undone on exact values: the
units at a rank are nearest to that rank (`nearestRank_unitsAt`).

So nothing here depends on how many digits are enough.
-/

namespace ComponentTree.Binary64

/-! ## Rounding exact values -/

theorem natPow_pos {a : Nat} (h : 0 < a) (n : Nat) : 0 < Nat.pow a n := Nat.pow_pos h

theorem roundDiv_mul_right (n : Nat) {den : Nat} (h : 0 < den) : roundDiv (n * den) den = n := by
  rw [roundDiv, Nat.mul_div_cancel _ h, Nat.mul_mod_left, Nat.mul_zero, if_pos h]

/-- A rank is either below the first doubling or in the upper half of the ranks up to its own
spacing. -/
theorem offset_cases (rank : Nat) :
    (doublings rank = 0 ∧ rank < 2 * block) ∨
      (1 ≤ doublings rank ∧ block ≤ rank - doublings rank * block ∧
        rank - doublings rank * block < 2 * block) := by
  have hblock : block = 4503599627370496 := rfl
  have hdoublings : doublings rank = rank / 4503599627370496 - 1 := rfl
  rw [hblock]
  omega

theorem unitsAt_of_doublings_eq_zero {rank : Nat} (h : doublings rank = 0) :
    unitsAt rank = rank := by
  rw [unitsAt, h, Nat.zero_mul, Nat.sub_zero]
  exact Nat.mul_one rank

theorem log2_eq_of_offset {offset d : Nat} (hle : block ≤ offset) (hlt : offset < 2 * block) :
    (offset * 2 ^ d).log2 = 52 + d := by
  have hpos : 0 < block := by decide
  refine (Nat.log2_eq_iff (Nat.mul_ne_zero (by omega) (by simp))).mpr ⟨?_, ?_⟩
  · rw [Nat.pow_add]
    exact Nat.mul_le_mul_right _ hle
  · rw [show 52 + d + 1 = 53 + d by omega, Nat.pow_add]
    exact Nat.mul_lt_mul_of_pos_right hlt (Nat.pow_pos (by decide))

/-- **Rounding undoes taking the units at a rank.** -/
theorem nearestRank_unitsAt (rank : Nat) {den : Nat} (h : 0 < den) :
    nearestRank (unitsAt rank * den) den = rank := by
  have hquot : unitsAt rank * den / den = unitsAt rank := Nat.mul_div_cancel _ h
  rcases offset_cases rank with ⟨hd, hlt⟩ | ⟨hd, hle, hlt⟩
  · rw [unitsAt_of_doublings_eq_zero hd] at hquot ⊢
    have hlog : rank.log2 - 52 = 0 := by
      rcases Nat.eq_zero_or_pos rank with rfl | hpos
      · rfl
      · have hlog := (Nat.log2_lt (k := 53) (by omega)).mpr hlt
        omega
    rw [nearestRank, hquot, hlog, Nat.zero_mul, Nat.zero_add]
    show roundDiv (rank * den) (den * 1) = rank
    rw [Nat.mul_one, roundDiv_mul_right rank h]
  · have hlog : (unitsAt rank).log2 - 52 = doublings rank := by
      have hlog : (unitsAt rank).log2 = 52 + doublings rank := log2_eq_of_offset hle hlt
      omega
    have hunits : unitsAt rank * den =
        (rank - doublings rank * block) * (den * Nat.pow 2 (doublings rank)) := by
      rw [unitsAt, Nat.mul_assoc, Nat.mul_comm (Nat.pow 2 _)]
    have hpow : 0 < Nat.pow 2 (doublings rank) := Nat.pow_pos (by decide)
    rw [nearestRank, hquot, hlog, hunits, roundDiv_mul_right _ (Nat.mul_pos h hpow)]
    omega

/-! ## The exact value -/

theorem unitsAt_pos {rank : Nat} (h : 0 < rank) : 0 < unitsAt rank := by
  rcases offset_cases rank with ⟨hd, hlt⟩ | ⟨-, hle, -⟩
  · rwa [unitsAt_of_doublings_eq_zero hd]
  · exact Nat.mul_pos (Nat.lt_of_lt_of_le (by decide) hle) (Nat.pow_pos (by decide))

theorem doublings_le {rank : Nat} (h : rank < infinityRank) : doublings rank ≤ 2045 := by
  have hrank : rank < 2047 * 4503599627370496 := h
  show rank / 4503599627370496 - 1 ≤ 2045
  omega

/-- The magnitudes of numbers with a bounded exponent have a bound. -/
theorem unitsAt_lt {rank n : Nat} (h : doublings rank ≤ n) : unitsAt rank < 2 ^ 53 * 2 ^ n := by
  have hblock : block = 4503599627370496 := rfl
  have hoffset : rank - doublings rank * block < 2 ^ 53 := by
    rcases offset_cases rank with ⟨-, _⟩ | ⟨-, -, _⟩ <;> omega
  calc unitsAt rank < 2 ^ 53 * 2 ^ doublings rank :=
        Nat.mul_lt_mul_of_pos_right hoffset (natPow_pos (by decide) _)
    _ ≤ 2 ^ 53 * 2 ^ n := Nat.mul_le_mul_left _ (Nat.pow_le_pow_right (by decide) h)

/-- A decimal whose value is that of a rank reads back as the rank. The value is told in units, the
inverse of which is a power of two. -/
theorem rankOfDecimal_of_value {d : Decimal} {rank : Nat} (shift zeros : Nat)
    (hunits : unitsPerOne = Nat.pow 2 shift) (hpos : 0 < rank) (hlow : -330 ≤ d.point)
    (hhigh : d.point ≤ 310) (hexponent : d.exponent = zeros - shift)
    (hvalue : d.coefficient * 10 ^ zeros = unitsAt rank * Nat.pow 5 shift) :
    rankOfDecimal d = rank := by
  rw [Nat.pow_eq] at hvalue hunits
  have hne : d.digits.isEmpty = false := by
    cases hd : d.digits with
    | nil =>
      have hzero : d.coefficient = 0 := by rw [Decimal.coefficient, hd]; rfl
      have hsome := Nat.mul_pos (unitsAt_pos hpos) (natPow_pos (a := 5) (by decide) shift)
      rw [hzero, Nat.zero_mul] at hvalue
      exact absurd hvalue (Nat.ne_of_lt hsome)
    | cons => rfl
  rw [rankOfDecimal, hne, if_neg (by simp; omega), if_neg (by omega), hexponent, hunits,
    Nat.pow_eq, Nat.pow_eq]
  split
  · -- the zeros that were taken away make up for the whole exponent
    next hle =>
    obtain ⟨more, rfl⟩ : ∃ more, zeros = shift + more := ⟨zeros - shift, by omega⟩
    have hunits : d.coefficient * 10 ^ more * 2 ^ shift = unitsAt rank * 1 := by
      refine Nat.eq_of_mul_eq_mul_right (natPow_pos (a := 5) (by decide) shift) ?_
      rw [Nat.pow_eq, Nat.mul_one, ← hvalue, Nat.mul_assoc _ (2 ^ shift), ← Nat.mul_pow,
        Nat.pow_add, Nat.mul_assoc, Nat.mul_comm (10 ^ more)]
    rw [show (((shift + more : Nat) : Int) - shift).toNat = more by omega, hunits]
    exact nearestRank_unitsAt rank Nat.one_pos
  · next hlt =>
    obtain ⟨missing, rfl⟩ : ∃ missing, shift = zeros + missing := ⟨shift - zeros, by omega⟩
    have hunits : d.coefficient * 2 ^ (zeros + missing) = unitsAt rank * 10 ^ missing := by
      refine Nat.eq_of_mul_eq_mul_right (natPow_pos (a := 10) (by decide) zeros) ?_
      rw [Nat.pow_eq, Nat.mul_right_comm, hvalue, Nat.mul_assoc, Nat.mul_assoc, ← Nat.mul_pow,
        ← Nat.pow_add, Nat.add_comm missing]
    rw [show (-((zeros : Int) - ((zeros + missing : Nat) : Int))).toNat = missing by omega, hunits]
    exact nearestRank_unitsAt rank (natPow_pos (by decide) missing)

theorem length_toDigits_le {n count : Nat} (hcount : 0 < count) (h : n < 10 ^ count) :
    (Nat.toDigits 10 n).length ≤ count := (Nat.length_toDigits_le_iff (by decide) hcount).mpr h

theorem lt_length_toDigits {n count : Nat} (hcount : 0 < count) (h : 10 ^ count ≤ n) :
    count < (Nat.toDigits 10 n).length := by
  rw [← Nat.not_le, Nat.length_toDigits_le_iff (by decide) hcount]
  exact Nat.not_lt.mpr h

/-- The exact value at a rank reads back. -/
theorem rankOfDecimal_exactDecimal {rank : Nat} (hpos : 0 < rank) (h : rank < infinityRank) :
    rankOfDecimal (exactDecimal rank) = rank := by
  have hlow : (10 : Nat) ^ 744 ≤ Nat.pow 5 1074 := by decide +kernel
  have hhigh : (2 ^ 53 * 2 ^ 2045) * Nat.pow 5 1074 ≤ 10 ^ 1384 := by decide +kernel
  have hunits := unitsAt_pos hpos
  have hfive : 0 < Nat.pow 5 1074 := by decide +kernel
  obtain ⟨-, zeros, hvalue, hexponent, hpoint⟩ :=
    Decimal.ofNat_spec (Nat.mul_pos hunits hfive) (-1074)
  have hmin : 744 < (Nat.toDigits 10 (unitsAt rank * Nat.pow 5 1074)).length :=
    lt_length_toDigits (by decide) (Nat.le_trans hlow (Nat.le_mul_of_pos_left _ hunits))
  have hmax : (Nat.toDigits 10 (unitsAt rank * Nat.pow 5 1074)).length ≤ 1384 :=
    length_toDigits_le (by decide)
      (Nat.lt_of_lt_of_le (Nat.mul_lt_mul_of_pos_right (unitsAt_lt (doublings_le h)) hfive) hhigh)
  rw [← exactDecimal] at hvalue hexponent hpoint
  refine rankOfDecimal_of_value _ zeros ?_ hpos ?_ ?_ ?_ hvalue
  · decide +kernel
  · omega
  · omega
  · omega

/-! ## The shortest decimal -/

theorem normal_ofNat (n : Nat) (exponent : Int) : (Decimal.ofNat n exponent).Normal := by
  rcases Nat.eq_zero_or_pos n with rfl | h
  · have hnone : (Decimal.ofNat 0 exponent).digits = [] := rfl
    refine ⟨?_, ?_, ?_⟩ <;> simp [hnone, AllDigits]
  · exact (Decimal.ofNat_spec h exponent).1

theorem neighbours_normal {rank places count : Nat} :
    ∀ d ∈ neighbours rank places count, d.Normal := by
  intro d hd
  unfold neighbours at hd
  dsimp only at hd
  split at hd
  · simp only [List.mem_cons, List.not_mem_nil, or_false] at hd
    rcases hd with rfl | rfl <;> exact normal_ofNat ..
  · simp only [List.mem_cons, List.not_mem_nil, or_false] at hd
    rcases hd with rfl | rfl <;> exact normal_ofNat ..

theorem exists_candidate {candidate : Nat → Option Decimal} {more count : Nat} {d : Decimal}
    (h : firstFrom candidate more count = some d) : ∃ count, candidate count = some d := by
  induction more generalizing count with
  | zero => cases h
  | succ more ih =>
    rw [firstFrom] at h
    split at h
    · next decimal hfound =>
      cases h
      exact ⟨count, hfound⟩
    · exact ih h

/-- What the search finds is normal and was seen to read back. -/
theorem searchShortest_spec {rank places more count : Nat} {d : Decimal}
    (h : searchShortest rank places more count = some d) :
    d.Normal ∧ rankOfDecimal d = rank := by
  obtain ⟨count, hfound⟩ := exists_candidate h
  have hreads : readsBack rank d = true := List.find?_some hfound
  exact ⟨neighbours_normal _ (List.mem_of_find?_eq_some hfound), eq_of_beq hreads⟩

theorem normal_shortest (rank : Nat) : (shortest rank).Normal := by
  rw [shortest]
  cases h : searchShortest rank (Nat.toDigits 10 (guarded rank)).length 17 1 with
  | none => exact normal_ofNat ..
  | some d => exact (searchShortest_spec h).1

/-- **The shortest decimal reads back**, whether the search found it or not. -/
theorem rankOfDecimal_shortest {rank : Nat} (hpos : 0 < rank) (h : rank < infinityRank) :
    rankOfDecimal (shortest rank) = rank := by
  rw [shortest]
  cases hsearch : searchShortest rank (Nat.toDigits 10 (guarded rank)).length 17 1 with
  | none => exact rankOfDecimal_exactDecimal hpos h
  | some d => exact (searchShortest_spec hsearch).2

theorem digits_shortest_ne_nil {rank : Nat} (hpos : 0 < rank) (h : rank < infinityRank) :
    (shortest rank).digits ≠ [] := by
  intro hnil
  have hzero : rankOfDecimal (shortest rank) = 0 := by rw [rankOfDecimal, hnil]; rfl
  rw [rankOfDecimal_shortest hpos h] at hzero
  omega

end ComponentTree.Binary64
