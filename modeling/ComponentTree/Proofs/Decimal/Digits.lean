import ComponentTree.Decimal.Basic
import Mathlib.Algebra.Ring.Nat
import Mathlib.Data.List.Basic
import Mathlib.Data.List.Induction
import Mathlib.Data.List.TakeWhile

/-!
# Rows of decimal digits

The digits of a number denote that number, and zeros in front do not count. A decimal is *normal* if
its row of digits has no zero at either end; then it is what any row makes that has zeros added
there (`Decimal.Normal.ofDigits_eq`), so the places where a layout writes zeros do not matter.
-/

namespace ComponentTree

/-- All characters are decimal digits. -/
def AllDigits (ds : List Char) : Prop := ∀ c ∈ ds, c.isDigit = true

theorem AllDigits.append {ds es : List Char} (hd : AllDigits ds) (he : AllDigits es) :
    AllDigits (ds ++ es) := fun c hc => (List.mem_append.mp hc).elim (hd c) (he c)

theorem allDigits_zeros (n : Nat) : AllDigits (List.replicate n '0') := by
  intro c hc
  rw [List.eq_of_mem_replicate hc]
  rfl

theorem allDigits_toDigits (n : Nat) : AllDigits (Nat.toDigits 10 n) :=
  fun _ hc => Nat.isDigit_of_mem_toDigits (by omega) (by omega) hc

/-! ## What a row denotes -/

theorem digitsValue_toDigits (n : Nat) : digitsValue (Nat.toDigits 10 n) = n :=
  Nat.ofDigitChars_ten_toDigits

theorem digitsValue_append (ds es : List Char) :
    digitsValue (ds ++ es) = 10 ^ es.length * digitsValue ds + digitsValue es :=
  (Nat.ofDigitChars_append 0).trans Nat.ofDigitChars_eq_ofDigitChars_zero

theorem digitsValue_zeros (n : Nat) : digitsValue (List.replicate n '0') = 0 :=
  Nat.ofDigitChars_replicate_zero

theorem digitsValue_zeros_append (n : Nat) (ds : List Char) :
    digitsValue (List.replicate n '0' ++ ds) = digitsValue ds := by
  rw [digitsValue_append, digitsValue_zeros, Nat.mul_zero, Nat.zero_add]

theorem digitsValue_append_zeros (n : Nat) (ds : List Char) :
    digitsValue (ds ++ List.replicate n '0') = digitsValue ds * 10 ^ n := by
  rw [digitsValue_append, digitsValue_zeros, List.length_replicate, Nat.mul_comm, Nat.add_zero]

theorem digitsValue_lt {ds : List Char} (h : AllDigits ds) : digitsValue ds < 10 ^ ds.length := by
  induction ds using List.reverseRecOn with
  | nil => decide
  | append_singleton ds d ih =>
    have hds := ih fun c hc => h c (List.mem_append_left _ hc)
    have hd : digitsValue [d] < 10 := by
      have hdigit := h d (by simp)
      simp only [Char.isDigit, Bool.and_eq_true, decide_eq_true_eq, UInt32.le_iff_toNat_le] at hdigit
      show 10 * 0 + (d.toNat - 48) < 10
      have hnine : d.toNat ≤ 57 := hdigit.2
      omega
    rw [digitsValue_append, List.length_append, List.length_singleton, Nat.pow_succ]
    omega

/-! ## Zeros at the ends -/

/-- A positive number is written without a zero in front. -/
theorem head_toDigits_ne_zero {n : Nat} (h : 0 < n) : (Nat.toDigits 10 n).head? ≠ some '0' := by
  induction n using Nat.strongRecOn with
  | ind n ih =>
    by_cases hlt : n < 10
    · rw [Nat.toDigits_of_lt_base hlt, List.head?_cons]
      intro heq
      have hzero := Nat.digitChar_eq_zero.mp (Option.some.inj heq)
      omega
    · rw [Nat.toDigits_of_base_le (by omega) (by omega),
        List.head?_append_of_ne_nil _ Nat.toDigits_ne_nil]
      exact ih (n / 10) (by omega) (by omega)

theorem dropWhile_zeros_append {ds : List Char} (h : ds.head? ≠ some '0') (n : Nat) :
    (List.replicate n '0' ++ ds).dropWhile (· == '0') = ds := by
  rw [List.dropWhile_append_of_pos fun c hc => by rw [List.eq_of_mem_replicate hc]; rfl]
  exact List.dropWhile_beq_eq_self_of_head?_ne h

theorem takeWhile_zeros_append {ds : List Char} (h : ds.head? ≠ some '0') (n : Nat) :
    (List.replicate n '0' ++ ds).takeWhile (· == '0') = List.replicate n '0' := by
  rw [List.takeWhile_append_of_pos fun c hc => by rw [List.eq_of_mem_replicate hc]; rfl]
  cases ds with
  | nil => simp
  | cons c ds =>
    rw [List.takeWhile_cons, if_neg, List.append_nil]
    simpa using h

namespace Decimal

theorem withoutFinalZeros_append_zeros {ds : List Char} (h : ds.getLast? ≠ some '0') (n : Nat) :
    withoutFinalZeros (ds ++ List.replicate n '0') = ds := by
  have hhead : ds.reverse.head? ≠ some '0' := by rwa [List.head?_reverse]
  rw [withoutFinalZeros, List.reverse_append, List.reverse_replicate,
    dropWhile_zeros_append hhead, List.reverse_reverse]

/-- What is taken away from the end of a row is zeros. -/
theorem exists_finalZeros (ds : List Char) :
    ∃ n, ds = withoutFinalZeros ds ++ List.replicate n '0' ∧
      (withoutFinalZeros ds).getLast? ≠ some '0' := by
  have hsplit := List.takeWhile_append_dropWhile (p := (· == '0')) (l := ds.reverse)
  have hzeros : ds.reverse.takeWhile (· == '0') =
      List.replicate (ds.reverse.takeWhile (· == '0')).length '0' :=
    List.eq_replicate_of_mem fun c hc => by simpa using List.mem_takeWhile_imp hc
  refine ⟨(ds.reverse.takeWhile (· == '0')).length, ?_, ?_⟩
  · have hds := congrArg List.reverse hsplit
    rw [List.reverse_append, List.reverse_reverse, hzeros, List.reverse_replicate] at hds
    exact hds.symm
  · rw [withoutFinalZeros, List.getLast?_reverse]
    intro hlast
    have hnot := List.head?_dropWhile_not (· == '0') ds.reverse
    rw [hlast] at hnot
    simp at hnot

/-- The digits of a decimal are digits, and none at either end is zero. -/
structure Normal (d : Decimal) : Prop where
  digits : AllDigits d.digits
  head : d.digits.head? ≠ some '0'
  last : d.digits.getLast? ≠ some '0'

/-- Zeros around the digits of a normal decimal change nothing but the place of the point. -/
theorem Normal.ofDigits_eq {d : Decimal} (h : d.Normal) (hd : d.digits ≠ []) (m n : Nat) :
    ofDigits (List.replicate m '0' ++ d.digits ++ List.replicate n '0') (m + d.point) = d := by
  have hhead : (d.digits ++ List.replicate n '0').head? ≠ some '0' := by
    rw [List.head?_append_of_ne_nil _ hd]
    exact h.head
  rw [List.append_assoc, ofDigits, dropWhile_zeros_append hhead, takeWhile_zeros_append hhead,
    withoutFinalZeros_append_zeros h.last, List.length_replicate]
  exact congrArg (Decimal.mk d.digits) (by omega)

/-- A decimal that is made of a number is normal, and it is that number: the digits are those of the
number without the zeros at the end, which its exponent counts. -/
theorem ofNat_spec {n : Nat} (hn : 0 < n) (exponent : Int) :
    (ofNat n exponent).Normal ∧ ∃ zeros : Nat,
      (ofNat n exponent).coefficient * 10 ^ zeros = n ∧
      (ofNat n exponent).exponent = exponent + zeros ∧
      (ofNat n exponent).point = (Nat.toDigits 10 n).length + exponent := by
  have hhead := head_toDigits_ne_zero hn
  have hdrop := dropWhile_zeros_append hhead 0
  have htake := takeWhile_zeros_append hhead 0
  rw [List.replicate_zero, List.nil_append] at hdrop htake
  obtain ⟨zeros, hsplit, hlast⟩ := exists_finalZeros (Nat.toDigits 10 n)
  have hdigits : (ofNat n exponent).digits = withoutFinalZeros (Nat.toDigits 10 n) := by
    rw [ofNat, ofDigits, hdrop]
  have hpoint : (ofNat n exponent).point = (Nat.toDigits 10 n).length + exponent := by
    rw [ofNat, ofDigits, htake, List.length_nil, Int.natCast_zero, Int.sub_zero]
  have hne : withoutFinalZeros (Nat.toDigits 10 n) ≠ [] := by
    -- the number would be written with zeros only, and the first digit is none
    intro hnil
    rw [hnil, List.nil_append] at hsplit
    cases zeros with
    | zero => exact Nat.toDigits_ne_nil hsplit
    | succ zeros => exact hhead (by rw [hsplit]; rfl)
  refine ⟨⟨?_, ?_, ?_⟩, zeros, ?_, ?_, hpoint⟩
  · rw [hdigits]
    intro c hc
    refine allDigits_toDigits n c ?_
    rw [hsplit]
    exact List.mem_append_left _ hc
  · rw [hdigits]
    rwa [hsplit, List.head?_append_of_ne_nil _ hne] at hhead
  · rwa [hdigits]
  · rw [coefficient, hdigits, ← digitsValue_append_zeros, ← hsplit, digitsValue_toDigits]
  · have hlength := congrArg List.length hsplit
    rw [List.length_append, List.length_replicate] at hlength
    rw [Decimal.exponent, hpoint, hdigits]
    omega

end Decimal

end ComponentTree
