import ComponentTree.Json.Writer
import ComponentTree.Proofs.Decimal.Literal
import ComponentTree.Proofs.Json.Reader

/-!
# Reading the parts of written JSON

What the writer puts between, around and into values is read back part by part: the blanks of an
indentation are skipped, a string is read up to its closing quote (`stringBody_flatMap_escaped`),
and a number is read as the number that was written (`number?_integerText`, `number?_text`).

An indentation may be any row of blanks, so nothing here depends on how it was asked for.
-/

namespace ComponentTree.Json

open NumberLiteral

variable {indent : Indent} {rest : Points}

/-! ## Blanks -/

/-- An indentation that consists of blanks. -/
def Indent.Blank (indent : Indent) : Prop := ∀ unit ∈ indent, ∀ c ∈ unit, isBlank c = true

/-- Every number of spaces is such an indentation, also a negative one. -/
theorem Indent.blank_spaces (n : Int) : (Indent.spaces n).Blank := by
  intro unit hunit c hc
  cases hunit
  rw [List.eq_of_mem_replicate hc]
  rfl

theorem skip_append (gap : Points) (hgap : ∀ c ∈ gap, isBlank c = true)
    (h : StartsWithout isBlank rest) : skip (gap ++ rest) = rest := h.dropWhile_append hgap

theorem skip_of_starts (h : StartsWithout isBlank rest) : skip rest = rest :=
  skip_append [] (by simp) h

/-- A new line is a gap of blanks. -/
theorem exists_gap_newLine (h : indent.Blank) (level : Nat) :
    ∃ gap : Points, (∀ p ∈ gap, isBlank p = true) ∧ ∀ rest, newLine indent level rest = gap ++ rest := by
  cases indent with
  | none => exact ⟨[], by simp, fun _ => rfl⟩
  | some unit =>
    refine ⟨.ofChars ('\n' :: (List.replicate level unit).flatten), ?_, fun _ => rfl⟩
    intro p hp
    obtain ⟨c, hc, rfl⟩ := Points.mem_ofChars.mp hp
    rcases List.mem_cons.mp hc with rfl | hc
    · rfl
    · obtain ⟨row, hrow, hc⟩ := List.mem_flatten.mp hc
      rw [List.eq_of_mem_replicate hrow] at hc
      exact h unit rfl c hc

/-- A separator is a comma and a gap of blanks. -/
theorem exists_gap_separator (h : indent.Blank) (level : Nat) :
    ∃ gap : Points, (∀ p ∈ gap, isBlank p = true) ∧
      ∀ rest, separator indent level rest = .char ',' :: (gap ++ rest) := by
  cases indent with
  | none => exact ⟨[.char ' '], by simp [isBlank, CodePoint.is], fun _ => rfl⟩
  | some unit =>
    obtain ⟨gap, hgap, heq⟩ := exists_gap_newLine h level
    exact ⟨gap, hgap, fun rest => congrArg (CodePoint.char ',' :: ·) (heq rest)⟩

theorem skip_newLine (h : indent.Blank) (level : Nat) (hrest : StartsWithout isBlank rest) :
    skip (newLine indent level rest) = rest := by
  obtain ⟨gap, hgap, heq⟩ := exists_gap_newLine h level
  rw [heq]
  exact skip_append gap hgap hrest

/-- No number before this text goes on in it. -/
abbrev NumberStops (rest : Points) : Prop := StartsWithout (CodePoint.is isContinuation) rest

/-- Nor does it go on in the characters that the text starts with. -/
theorem NumberStops.numberEnds (h : NumberStops rest) : NumberEnds rest.leadingChars := by
  intro c hc
  cases rest with
  | nil => cases hc
  | cons p rest =>
    cases p with
    | char d =>
      cases hc
      exact h _ rfl
    | half n => cases hc

/-- No number goes on in a new line. -/
theorem numberStops_newLine (level : Nat) (hrest : NumberStops rest) :
    NumberStops (newLine indent level rest) := by
  cases indent with
  | none => exact hrest
  | some unit => exact .cons rfl

theorem numberStops_separator (level : Nat) : NumberStops (separator indent level rest) := by
  cases indent <;> exact .cons rfl

theorem length_newLine (indent : Indent) (level : Nat) (rest : Points) :
    rest.length ≤ (newLine indent level rest).length := by
  cases indent <;> simp [newLine]
  omega

theorem length_separator (indent : Indent) (level : Nat) (rest : Points) :
    rest.length < (separator indent level rest).length := by
  have h := length_newLine indent level rest
  cases indent with
  | none =>
    simp only [separator, List.length_cons]
    omega
  | some unit =>
    simp only [separator, List.length_cons]
    omega

/-! ## Strings -/

/-- The number of a control character is read back as that character. -/
theorem numberedEscape_hexDigits {c : Char} (h : c < ' ') :
    numberedEscape (Points.ofChars (Text.hexDigits 4 c.toNat) ++ rest) = some (.char c, rest) := by
  have hcontrol : c.toNat < 32 := h
  have hdigits : ∀ n < 32, (Text.hexDigits 4 n).length = 4 ∧
      (Text.hexDigits 4 n).all Text.isHexDigit = true ∧
      Text.numberOf 16 (Text.hexDigits 4 n) = n := by decide
  obtain ⟨hlength, hall, hnumber⟩ := hdigits c.toNat hcontrol
  have hhigh : isHighHalf c.toNat = false := by simp [isHighHalf]; omega
  rw [numberedEscape, fourDigits_append hlength hall, hnumber]
  simp [hhigh, CodePoint.ofNumber_char (.inl (by omega : c.toNat < 0xD800))]

theorem stringBody_escape {p : CodePoint} {text : Points} (h : escape text = some (p, rest))
    (hlength : rest.length ≤ text.length) :
    stringBody ('\\' :: text) = (stringBody rest).map fun (body, rest) => (p :: body, rest) := by
  rw [stringBody, h]
  simp only [dif_pos hlength]

/-- One code point that stands for itself is read back. -/
theorem stringBody_plain {p : CodePoint} (hcontrol : isControl p = false) (hquote : p ≠ .char '"')
    (hslash : p ≠ .char '\\') (rest : Points) :
    stringBody (p :: rest) = (stringBody rest).map fun (body, rest) => (p :: body, rest) := by
  rw [stringBody]
  · simp [hcontrol]
  · exact hquote
  · exact hslash

/-- One code point is read back, however it is written. -/
theorem stringBody_escaped (p : CodePoint) (rest : Points) :
    stringBody (escaped p ++ rest) =
      (stringBody rest).map fun (body, rest) => (p :: body, rest) := by
  cases p with
  | half n => exact stringBody_plain rfl (by simp) (by simp) rest
  | char c =>
  have hpair : ∀ mark : Char, escape (mark :: rest) = some (.char c, rest) →
      stringBody ('\\' :: mark :: rest) =
        (stringBody rest).map fun (body, rest) => (.char c :: body, rest) :=
    fun mark h => stringBody_escape h (by simp)
  unfold escaped escapedChar
  dsimp only
  split
  · next h => exact hpair '"' (by rw [h]; rfl)
  · next hquote =>
  split
  · next h => exact hpair '\\' (by rw [h]; rfl)
  · next hslash =>
  split
  · next h => exact hpair 'n' (by rw [h]; rfl)
  split
  · next h => exact hpair 'r' (by rw [h]; rfl)
  split
  · next h => exact hpair 't' (by rw [h]; rfl)
  split
  · next h => exact hpair 'b' (by rw [h]; rfl)
  split
  · next h => exact hpair 'f' (by rw [h]; rfl)
  split
  · next hcontrol => exact stringBody_escape (numberedEscape_hexDigits hcontrol) (by simp; omega)
  · next hplain =>
    have hcontrol : isControl (.char c) = false := decide_eq_false hplain
    exact stringBody_plain hcontrol (by simpa using hquote) (by simpa using hslash) rest

/-- **A string is read back up to its closing quote**, whatever text it holds. -/
theorem stringBody_flatMap_escaped (text rest : Points) :
    stringBody (text.flatMap escaped ++ .char '"' :: rest) = some (text, rest) := by
  induction text with
  | nil =>
    show stringBody ('"' :: rest) = _
    rw [stringBody]
  | cons p text ih =>
    rw [List.flatMap_cons, List.append_assoc, stringBody_escaped, ih]
    rfl

theorem string?_writeString (text rest : Points) :
    string? (writeString text rest) = some (text, rest) :=
  stringBody_flatMap_escaped text rest

theorem length_writeString (text rest : Points) :
    rest.length < (writeString text rest).length := by
  simp [writeString]
  omega

/-! ## Numbers -/

/-- What is scanned is used up, and what follows it is left. -/
theorem number?_of_scan {text : List Char} {l : NumberLiteral}
    (hscan : scan (text ++ rest.leadingChars) = some (l, rest.leadingChars)) :
    number? (Points.ofChars text ++ rest) =
      if l.isInteger then
        if maxIntegerDigits < l.whole.length then none else some (.int l.toInt, rest)
      else if l.toBinary64.isFinite then some (.float l.toBinary64, rest) else none := by
  have hdrop : (Points.ofChars text ++ rest).drop
      ((text ++ rest.leadingChars).length - rest.leadingChars.length) = rest := by
    rw [List.length_append, Nat.add_sub_cancel_right]
    exact List.drop_left' (Points.length_ofChars text)
  rw [number?, Points.leadingChars_append, hscan]
  simp only [hdrop]

theorem number?_integerText {n : Int}
    (h : (Nat.toDigits 10 n.natAbs).length ≤ maxIntegerDigits) (hrest : NumberStops rest) :
    number? (Points.ofChars (integerText n) ++ rest) = some (.int n, rest) := by
  obtain ⟨l, hscan, hinteger, hvalue, hwhole⟩ := scan_integerText n hrest.numberEnds
  have hdigits : ¬ maxIntegerDigits < l.whole.length := by rw [hwhole]; omega
  rw [number?_of_scan hscan]
  simp only [hinteger, if_pos, if_neg hdigits, hvalue]

theorem number?_text {x : Binary64} (h : x.isFinite = true) (hrest : NumberStops rest) :
    number? (Points.ofChars (x.text Binary64.dataLayout) ++ rest) = some (.float x, rest) := by
  obtain ⟨l, hscan, hinteger, hvalue⟩ := scan_text Binary64.dataLayout h hrest.numberEnds
  rw [number?_of_scan hscan]
  simp [hinteger, hvalue, h]

end ComponentTree.Json
