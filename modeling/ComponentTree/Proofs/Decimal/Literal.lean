import ComponentTree.Decimal.Literal
import ComponentTree.Proofs.Decimal.Shortest

/-!
# Written numbers are scanned back

A literal is scanned as far as it goes, so what follows a written number must not continue it:
`NumberEnds`. Then the scanner takes exactly the text that was written. For an integer it gives the
integer (`scan_integerText`), and for a floating point number a literal that is no integer and has
the decimal that was laid out (`scan_text`).

The layouts differ in where the point is put and whether there is an exponent, but each is a whole
part, an optional fraction and an optional exponent. There is one lemma for each of these parts.
-/

namespace ComponentTree

/-- A text does not go on with a character of a kind. -/
def StartsWithout {σ : Type} (kind : σ → Bool) (cs : List σ) : Prop := ∀ c ∈ cs.head?, kind c = false

namespace StartsWithout

variable {σ : Type} {kind kind' : σ → Bool} {ds cs : List σ}

theorem nil : StartsWithout kind [] := by
  intro c hc
  cases hc

theorem cons {c : σ} (h : kind c = false) : StartsWithout kind (c :: cs) := by
  intro c' hc
  cases hc
  exact h

theorem imp (h : StartsWithout kind cs) (himp : ∀ c, kind' c = true → kind c = true) :
    StartsWithout kind' cs := by
  intro c hc
  by_contra hkind
  have hno := h c hc
  rw [himp c (by simpa using hkind)] at hno
  cases hno

theorem takeWhile_append (h : StartsWithout kind cs) (hds : ∀ c ∈ ds, kind c = true) :
    (ds ++ cs).takeWhile kind = ds := by
  rw [List.takeWhile_append_of_pos hds]
  cases cs with
  | nil => simp
  | cons c cs => rw [List.takeWhile_cons, h c rfl]; simp

theorem dropWhile_append (h : StartsWithout kind cs) (hds : ∀ c ∈ ds, kind c = true) :
    (ds ++ cs).dropWhile kind = cs := by
  rw [List.dropWhile_append_of_pos hds]
  cases cs with
  | nil => rfl
  | cons c cs => rw [List.dropWhile_cons, h c rfl]; simp

end StartsWithout

namespace NumberLiteral

/-- The characters that can continue a number. -/
def isContinuation (c : Char) : Bool := c.isDigit || c == '.' || c == 'e' || c == 'E'

/-- No number before this text goes on in it. -/
abbrev NumberEnds (rest : List Char) : Prop := StartsWithout isContinuation rest

variable {rest : List Char}

theorem NumberEnds.noDigit (h : NumberEnds rest) : StartsWithout Char.isDigit rest :=
  h.imp fun c hc => by simp [isContinuation, hc]

theorem NumberEnds.noPoint (h : NumberEnds rest) : StartsWithout (· == '.') rest :=
  h.imp fun c hc => by simp [isContinuation, eq_of_beq hc]

theorem NumberEnds.noMark (h : NumberEnds rest) :
    StartsWithout (fun c => c == 'e' || c == 'E') rest := by
  apply h.imp
  intro c hc
  simp only [Bool.or_eq_true, beq_iff_eq] at hc
  rcases hc with rfl | rfl <;> rfl

/-! ## The parts of a literal -/

/-- A row of digits that can stand before the point: a zero, or digits that do not begin with
one. -/
def IsWhole (ds : List Char) : Prop :=
  ds = ['0'] ∨ (ds ≠ [] ∧ AllDigits ds ∧ ds.head? ≠ some '0')

theorem IsWhole.exists_cons {ds : List Char} (h : IsWhole ds) :
    ∃ d more, ds = d :: more ∧ d.isDigit = true := by
  rcases h with rfl | ⟨hne, hall, -⟩
  · exact ⟨'0', [], rfl, rfl⟩
  · obtain ⟨d, more, rfl⟩ := List.exists_cons_of_ne_nil hne
    exact ⟨d, more, rfl, hall d List.mem_cons_self⟩

theorem isWhole_toDigits (n : Nat) : IsWhole (Nat.toDigits 10 n) := by
  rcases Nat.eq_zero_or_pos n with rfl | h
  · exact .inl rfl
  · exact .inr ⟨Nat.toDigits_ne_nil, allDigits_toDigits n, head_toDigits_ne_zero h⟩

theorem scanWhole_append {ds : List Char} (h : IsWhole ds) (hrest : StartsWithout Char.isDigit rest) :
    scanWhole (ds ++ rest) = some (ds, rest) := by
  rcases h with rfl | ⟨hne, hall, hhead⟩
  · rfl
  · obtain ⟨d, more, rfl⟩ := List.exists_cons_of_ne_nil hne
    have hd : d.isDigit = true := hall d List.mem_cons_self
    have hmore : ∀ c ∈ more, c.isDigit = true := fun c hc => hall c (List.mem_cons_of_mem _ hc)
    have hzero : d ≠ '0' := by simpa using hhead
    rw [List.cons_append, scanWhole, if_pos hd, hrest.takeWhile_append hmore,
      hrest.dropWhile_append hmore]
    exact hzero

theorem scanFraction_append {ds : List Char} (hne : ds ≠ []) (hall : AllDigits ds)
    (hrest : StartsWithout Char.isDigit rest) :
    scanFraction ('.' :: ds ++ rest) = (ds, rest) := by
  obtain ⟨d, more, rfl⟩ := List.exists_cons_of_ne_nil hne
  have hd : d.isDigit = true := hall d List.mem_cons_self
  have hmore : ∀ c ∈ more, c.isDigit = true := fun c hc => hall c (List.mem_cons_of_mem _ hc)
  rw [List.cons_append, List.cons_append, scanFraction, if_pos hd, hrest.takeWhile_append hmore,
    hrest.dropWhile_append hmore]

theorem scanFraction_of_noPoint (h : StartsWithout (· == '.') rest) :
    scanFraction rest = ([], rest) := by
  unfold scanFraction
  split
  · next d more =>
    have hpoint := h '.' rfl
    simp at hpoint
  · rfl

theorem scanExponentDigits_append {ds : List Char} (hne : ds ≠ []) (hall : AllDigits ds)
    (hrest : StartsWithout Char.isDigit rest) (negative : Bool) :
    scanExponentDigits negative (ds ++ rest) =
      some (if negative then - (digitsValue ds : Int) else digitsValue ds, rest) := by
  obtain ⟨d, more, rfl⟩ := List.exists_cons_of_ne_nil hne
  have hd : d.isDigit = true := hall d List.mem_cons_self
  have hmore : ∀ c ∈ more, c.isDigit = true := fun c hc => hall c (List.mem_cons_of_mem _ hc)
  rw [List.cons_append, scanExponentDigits, if_pos hd, hrest.takeWhile_append hmore,
    hrest.dropWhile_append hmore]

theorem scanExponent_minus {cs : List Char} {exponent : Int}
    (h : scanExponentDigits true cs = some (exponent, rest)) :
    scanExponent ('e' :: '-' :: cs) = (some exponent, rest) := by
  simp [scanExponent, h]

theorem scanExponent_plus {cs : List Char} {exponent : Int}
    (h : scanExponentDigits false cs = some (exponent, rest)) :
    scanExponent ('e' :: '+' :: cs) = (some exponent, rest) := by
  simp [scanExponent, h]

/-- An exponent is scanned back, whatever its width. -/
theorem scanExponent_exponentText (width : Nat) (exponent : Int)
    (hrest : StartsWithout Char.isDigit rest) :
    scanExponent (Binary64.exponentText width exponent ++ rest) = (some exponent, rest) := by
  unfold Binary64.exponentText
  dsimp only
  generalize width - (Nat.toDigits 10 exponent.natAbs).length = zeros
  have hvalue : digitsValue (List.replicate zeros '0' ++ Nat.toDigits 10 exponent.natAbs) =
      exponent.natAbs := by
    rw [digitsValue_zeros_append, digitsValue_toDigits]
  have hscan := fun negative => scanExponentDigits_append
    (List.append_ne_nil_of_right_ne_nil (List.replicate zeros '0') Nat.toDigits_ne_nil)
    ((allDigits_zeros zeros).append (allDigits_toDigits exponent.natAbs)) hrest negative
  rw [hvalue] at hscan
  by_cases hneg : exponent < 0
  · rw [if_pos hneg]
    refine (scanExponent_minus (hscan true)).trans ?_
    rw [if_pos rfl, show -(exponent.natAbs : Int) = exponent by omega]
  · rw [if_neg hneg]
    refine (scanExponent_plus (hscan false)).trans ?_
    rw [if_neg Bool.false_ne_true, show (exponent.natAbs : Int) = exponent by omega]

theorem scanExponent_of_noMark (h : StartsWithout (fun c => c == 'e' || c == 'E') rest) :
    scanExponent rest = (none, rest) := by
  cases rest with
  | nil => rfl
  | cons m more =>
    have hmark : ¬ (m = 'e' ∨ m = 'E') := by
      have hno := h m rfl
      simp only [Bool.or_eq_false_iff, beq_eq_false_iff_ne] at hno
      exact fun hm => hm.elim hno.1 hno.2
    unfold scanExponent
    split <;> simp_all

/-! ## Literals -/

/-- A literal after its sign. -/
def scanUnsigned (negative : Bool) (cs : List Char) : Option (NumberLiteral × List Char) :=
  (scanWhole cs).map fun (whole, rest) =>
    let (fraction, rest) := scanFraction rest
    let (exponent, rest) := scanExponent rest
    (⟨negative, whole, fraction, exponent⟩, rest)

theorem scan_minus (cs : List Char) : scan ('-' :: cs) = scanUnsigned true cs := rfl

theorem scan_of_digit {d : Char} (h : d.isDigit = true) (cs : List Char) :
    scan (d :: cs) = scanUnsigned false (d :: cs) := by
  unfold scan
  split
  next negative cs' heq =>
  split at heq
  · next hd => cases hd; cases h
  · cases heq
    rfl

/-- The decimal that is scanned when a text has been laid out. -/
structure Scans (negative : Bool) (text rest : List Char) (d : Decimal) : Prop where
  digit : ∃ c cs, text = c :: cs ∧ c.isDigit = true
  literal : ∃ l, scanUnsigned negative (text ++ rest) = some (l, rest) ∧ l.negative = negative ∧
    l.isInteger = false ∧ l.decimal = d

theorem scans_fraction (negative : Bool) (whole fraction : List Char) (hwhole : IsWhole whole)
    (hne : fraction ≠ []) (hall : AllDigits fraction) (hrest : NumberEnds rest) :
    Scans negative (whole ++ '.' :: fraction) rest
      (.ofDigits (whole ++ fraction) (whole.length + 0)) := by
  have hpoint : StartsWithout Char.isDigit ('.' :: fraction ++ rest) := .cons rfl
  refine ⟨?_, ⟨negative, whole, fraction, none⟩, ?_, rfl, ?_, rfl⟩
  · obtain ⟨d, more, rfl, hd⟩ := hwhole.exists_cons
    exact ⟨d, _, rfl, hd⟩
  · rw [scanUnsigned, List.append_assoc, scanWhole_append hwhole hpoint]
    simp only [Option.map_some, scanFraction_append hne hall hrest.noDigit,
      scanExponent_of_noMark hrest.noMark]
  · simp [isInteger, hne]

/-- The exponent is what makes this literal no integer, so the fraction may be missing. -/
theorem scans_exponent {d : Char} {fraction : List Char} (negative : Bool) (width : Nat)
    (exponent : Int) (hd : IsWhole [d]) (hall : AllDigits fraction) (hrest : NumberEnds rest) :
    Scans negative
      ((if fraction = [] then [d] else d :: '.' :: fraction) ++ Binary64.exponentText width exponent)
      rest (.ofDigits (d :: fraction) (1 + exponent)) := by
  have hmark : ∀ kind : Char → Bool, kind 'e' = false →
      StartsWithout kind (Binary64.exponentText width exponent ++ rest) := fun _ h => .cons h
  refine ⟨?_, ⟨negative, [d], fraction, some exponent⟩, ?_, rfl, ?_, rfl⟩
  · obtain ⟨_, _, heq, hdigit⟩ := hd.exists_cons
    cases heq
    split <;> exact ⟨d, _, rfl, hdigit⟩
  · rw [scanUnsigned, List.append_assoc]
    by_cases hnil : fraction = []
    · rw [if_pos hnil, scanWhole_append hd (hmark _ rfl)]
      simp only [Option.map_some, scanFraction_of_noPoint (hmark _ rfl),
        scanExponent_exponentText _ _ hrest.noDigit, hnil]
    · have hpoint : StartsWithout Char.isDigit
          ('.' :: fraction ++ (Binary64.exponentText width exponent ++ rest)) := .cons rfl
      rw [if_neg hnil]
      show (scanWhole ([d] ++ ('.' :: fraction ++ (Binary64.exponentText width exponent ++ rest)))).map
        _ = _
      rw [scanWhole_append hd hpoint]
      simp only [Option.map_some, scanFraction_append hnil hall (hmark _ rfl),
        scanExponent_exponentText _ _ hrest.noDigit]
  · simp [isInteger]

/-! ## Written numbers -/

/-- What is laid out of a normal decimal is scanned back, wherever the point is put. -/
theorem scans_layOut (layout : Binary64.Layout) (negative : Bool) {d : Decimal} (h : d.Normal)
    (hd : d.digits ≠ []) (hrest : NumberEnds rest) :
    Scans negative (Binary64.layOut layout d) rest d := by
  obtain ⟨digit, more, hdigits⟩ := List.exists_cons_of_ne_nil hd
  have hundo := h.ofDigits_eq hd
  unfold Binary64.layOut
  dsimp only
  split
  · split
    · -- all digits are behind the point, after as many zeros as it takes
      next hpoint =>
      have hscans := scans_fraction negative ['0'] _ (.inl rfl)
        (List.append_ne_nil_of_right_ne_nil (List.replicate (-d.point).toNat '0') hd)
        ((allDigits_zeros _).append h.digits) hrest
      have hall := hundo ((-d.point).toNat + 1) 0
      have hplace : ((['0'].length : Nat) : Int) + 0 = ((-d.point).toNat + 1 : Nat) + d.point := by
        rw [List.length_singleton]
        omega
      rw [List.replicate_zero, List.append_nil, List.replicate_succ, List.cons_append,
        ← List.singleton_append] at hall
      rw [hplace, hall] at hscans
      exact hscans
    · next hpoint =>
      split
      · -- all digits are before the point, with zeros up to it
        next hlength =>
        generalize hzeros : d.point.toNat - d.digits.length = zeros
        have hwhole : IsWhole (d.digits ++ List.replicate zeros '0') := by
          refine .inr ⟨by simp [hd], h.digits.append (allDigits_zeros _), ?_⟩
          rw [List.head?_append_of_ne_nil _ hd]
          exact h.head
        have hscans := scans_fraction negative _ ['0'] hwhole (by simp)
          (allDigits_zeros 1) hrest
        have hall := hundo 0 (zeros + 1)
        rw [List.replicate_zero, List.nil_append, List.replicate_succ', ← List.append_assoc] at hall
        have hplace : (((d.digits ++ List.replicate zeros '0').length : Nat) : Int) + 0 =
            ((0 : Nat) : Int) + d.point := by
          rw [List.length_append, List.length_replicate]
          omega
        rw [hplace, hall] at hscans
        exact hscans
      · -- the point stands between the digits
        next hlength =>
        have hwhole : IsWhole (d.digits.take d.point.toNat) := by
          refine .inr ⟨by simp [hd]; omega, fun c hc => h.digits c (List.mem_of_mem_take hc), ?_⟩
          rw [List.head?_take, if_neg (by omega)]
          exact h.head
        have hscans := scans_fraction negative _ (d.digits.drop d.point.toNat) hwhole
          (by simp; omega) (fun c hc => h.digits c (List.mem_of_mem_drop hc)) hrest
        have hall := hundo 0 0
        rw [List.replicate_zero, List.append_nil, List.nil_append] at hall
        have hplace : (((d.digits.take d.point.toNat).length : Nat) : Int) + 0 =
            ((0 : Nat) : Int) + d.point := by
          rw [List.length_take]
          omega
        rw [hplace, List.take_append_drop, hall] at hscans
        exact hscans
  · have hwhole : IsWhole [digit] := by
      have hhead := h.head
      rw [hdigits] at hhead
      exact .inr ⟨by simp, fun c hc => h.digits c (by rw [hdigits]; simp_all), hhead⟩
    have hmore : AllDigits more := fun c hc => h.digits c (by rw [hdigits]; simp [hc])
    have hscans := scans_exponent negative layout.exponentWidth (d.point - 1) hwhole hmore hrest
    have hall := hundo 0 0
    rw [List.replicate_zero, List.append_nil, List.nil_append, hdigits] at hall
    rw [show 1 + (d.point - 1) = ((0 : Nat) : Int) + d.point by omega, hall] at hscans
    rw [hdigits]
    cases more with
    | nil => exact hscans
    | cons => exact hscans

/-- A text begins like a number. -/
def StartsNumber (cs : List Char) : Prop :=
  ∃ c more, cs = c :: more ∧ (c.isDigit = true ∨ c = '-')

theorem StartsNumber.append {cs : List Char} (h : StartsNumber cs) (rest : List Char) :
    StartsNumber (cs ++ rest) := by
  obtain ⟨c, more, rfl, hc⟩ := h
  exact ⟨c, more ++ rest, rfl, hc⟩

theorem startsNumber_integerText (n : Int) : StartsNumber (integerText n) := by
  obtain ⟨digit, more, hdigits, hdigit⟩ := (isWhole_toDigits n.natAbs).exists_cons
  unfold integerText
  dsimp only
  split
  · exact ⟨'-', _, rfl, .inr rfl⟩
  · exact ⟨digit, more, hdigits, .inl hdigit⟩

/-- **A written integer is scanned back.** -/
theorem scan_integerText (n : Int) (hrest : NumberEnds rest) :
    ∃ l : NumberLiteral, scan (integerText n ++ rest) = some (l, rest) ∧ l.isInteger = true ∧
      l.toInt = n ∧ l.whole = Nat.toDigits 10 n.natAbs := by
  have hunsigned : ∀ negative, scanUnsigned negative (Nat.toDigits 10 n.natAbs ++ rest) =
      some (⟨negative, Nat.toDigits 10 n.natAbs, [], none⟩, rest) := by
    intro negative
    rw [scanUnsigned, scanWhole_append (isWhole_toDigits _) hrest.noDigit]
    simp only [Option.map_some, scanFraction_of_noPoint hrest.noPoint,
      scanExponent_of_noMark hrest.noMark]
  refine ⟨⟨decide (n < 0), Nat.toDigits 10 n.natAbs, [], none⟩, ?_, rfl, ?_, rfl⟩
  · by_cases hneg : n < 0
    · rw [integerText, if_pos hneg, decide_eq_true hneg]
      exact (scan_minus _).trans (hunsigned true)
    · obtain ⟨digit, more, hdigits, hdigit⟩ := (isWhole_toDigits n.natAbs).exists_cons
      have h := hunsigned false
      rw [integerText, if_neg hneg, decide_eq_false hneg]
      simp only [hdigits] at h ⊢
      exact (scan_of_digit hdigit _).trans h
  · simp only [toInt, digitsValue_toDigits, decide_eq_true_eq]
    split <;> omega

/-- A magnitude that is not infinite is scanned as a literal that reads back as its rank. -/
theorem scans_magnitudeText (layout : Binary64.Layout) (negative : Bool) {rank : Nat}
    (h : rank < Binary64.infinityRank) (hrest : NumberEnds rest) :
    ∃ d, Scans negative (Binary64.magnitudeText layout rank) rest d ∧
      Binary64.rankOfDecimal d = rank := by
  rcases Nat.eq_zero_or_pos rank with rfl | hpos
  · exact ⟨_, scans_fraction negative ['0'] ['0'] (.inl rfl) (by simp)
      (allDigits_zeros 1) hrest, rfl⟩
  · rw [Binary64.magnitudeText, if_neg (by omega), if_neg (by omega)]
    exact ⟨_, scans_layOut layout negative (Binary64.normal_shortest rank)
      (Binary64.digits_shortest_ne_nil hpos h) hrest, Binary64.rankOfDecimal_shortest hpos h⟩

theorem startsNumber_text (layout : Binary64.Layout) {x : Binary64} (h : x.isFinite = true) :
    StartsNumber (x.text layout) := by
  cases x with
  | nan payload => cases h
  | number negative rank =>
    have hrank : rank.val < Binary64.infinityRank := of_decide_eq_true h
    have hmagnitude : StartsNumber (Binary64.magnitudeText layout rank.val) := by
      obtain ⟨d, hscans, -⟩ := scans_magnitudeText layout negative hrank (.nil : NumberEnds [])
      obtain ⟨digit, more, htext, hdigit⟩ := hscans.digit
      exact ⟨digit, more, htext, .inl hdigit⟩
    rw [Binary64.text]
    split
    · exact ⟨'-', _, rfl, .inr rfl⟩
    · exact hmagnitude

/-- **A written finite number is scanned back**, as a literal that is no integer. -/
theorem scan_text (layout : Binary64.Layout) {x : Binary64} (h : x.isFinite = true)
    (hrest : NumberEnds rest) :
    ∃ l : NumberLiteral, scan (x.text layout ++ rest) = some (l, rest) ∧ l.isInteger = false ∧
      l.toBinary64 = x := by
  cases x with
  | nan payload => cases h
  | number negative rank =>
    have hrank : rank.val < Binary64.infinityRank := of_decide_eq_true h
    obtain ⟨d, ⟨⟨digit, more, hmagnitude, hdigit⟩, l, hscan, hnegative, hinteger, hdecimal⟩, hback⟩ :=
      scans_magnitudeText layout negative hrank hrest
    refine ⟨l, ?_, hinteger, ?_⟩
    · rw [Binary64.text]
      cases negative with
      | true => exact (scan_minus _).trans hscan
      | false =>
        rw [hmagnitude] at hscan ⊢
        exact (scan_of_digit hdigit _).trans hscan
    · rw [toBinary64, hdecimal, hnegative, Binary64.ofDecimal, hback, Binary64.ofRank]
      congr
      omega

end NumberLiteral

end ComponentTree
