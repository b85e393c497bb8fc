import ComponentTree.Text.CodePoint
import Mathlib.Data.List.Basic

/-!
# Strings among texts

The texts without halves are exactly the strings (`Points.string?_eq_some_iff`), and no two strings are one
text. What is known of strings carries over to texts along `Points.ofString`.
-/

namespace ComponentTree

/-! ## Numbers of code points -/

namespace CodePoint

variable {n : Nat}

theorem ofNumber_half (n : Fin 0x800) : ofNumber (0xD800 + n) = .half n := by
  rw [ofNumber, dif_pos ⟨Nat.le_add_right .., by simp [firstHalf]⟩]
  simp [firstHalf]

theorem ofNumber_char (h : n < 0xD800 ∨ 0xDFFF < n) : ofNumber n = .char (Char.ofNat n) := by
  rw [ofNumber, dif_neg]
  rw [firstHalf]
  omega

/-- A number is that of a half or not. -/
theorem number_cases (n : Nat) : (∃ k : Fin 0x800, n = 0xD800 + k) ∨ n < 0xD800 ∨ 0xDFFF < n := by
  by_cases h : 0xD800 ≤ n ∧ n ≤ 0xDFFF
  · exact .inl ⟨⟨n - 0xD800, by omega⟩, by simp only; omega⟩
  · omega

end CodePoint

namespace Points

variable {text rest : Points} {cs cs' : List Char} {s t : String}

/-! ## Rows of characters -/

@[simp] theorem ofChars_nil : ofChars [] = [] := rfl

@[simp] theorem ofChars_cons (c : Char) (cs : List Char) : ofChars (c :: cs) = .char c :: ofChars cs := rfl

@[simp] theorem ofChars_append (cs cs' : List Char) : ofChars (cs ++ cs') = ofChars cs ++ ofChars cs' :=
  List.map_append

@[simp] theorem length_ofChars (cs : List Char) : (ofChars cs).length = cs.length := List.length_map _

theorem ofChars_injective : Function.Injective ofChars :=
  List.map_injective_iff.mpr fun _ _ h => CodePoint.char.inj h

theorem mem_ofChars {p : CodePoint} : p ∈ ofChars cs ↔ ∃ c ∈ cs, p = .char c := by
  rw [ofChars, List.mem_map]
  exact exists_congr fun c => and_congr_right fun _ => eq_comm

/-- The leading characters go on behind characters. -/
theorem leadingChars_append (cs : List Char) (rest : Points) :
    leadingChars (ofChars cs ++ rest) = cs ++ leadingChars rest := by
  induction cs with
  | nil => rfl
  | cons c cs ih =>
    rw [ofChars_cons, List.cons_append, leadingChars, ih]
    rfl

@[simp] theorem leadingChars_ofChars (cs : List Char) : leadingChars (ofChars cs) = cs := by
  have h := leadingChars_append cs []
  rw [List.append_nil] at h
  exact h.trans (List.append_nil cs)

/-- A text starts with its leading characters. -/
theorem exists_eq_append_leadingChars (text : Points) : ∃ rest, text = ofChars text.leadingChars ++ rest := by
  induction text with
  | nil => exact ⟨[], rfl⟩
  | cons p text ih =>
    cases p with
    | char c =>
      obtain ⟨rest, hrest⟩ := ih
      refine ⟨rest, ?_⟩
      rw [leadingChars, ofChars_cons, List.cons_append, ← hrest]
    | half n => exact ⟨_, rfl⟩

/-- What is left of the leading characters of a text is left of the text, with all that follows. -/
theorem eq_append_drop (h : text.leadingChars = cs ++ cs') :
    text = ofChars cs ++ text.drop (text.leadingChars.length - cs'.length) := by
  obtain ⟨rest, hrest⟩ := exists_eq_append_leadingChars text
  rw [h, List.length_append, Nat.add_sub_cancel_right]
  rw [h, ofChars_append, List.append_assoc] at hrest
  rw [hrest, List.drop_left' (length_ofChars cs)]

/-! ## Strings -/

theorem ofString_injective : Function.Injective ofString :=
  fun _ _ h => String.toList_inj.mp (ofChars_injective h)

theorem ofString_append (s t : String) : ofString (s ++ t) = ofString s ++ ofString t := by
  rw [ofString, String.toList_append, ofChars_append]
  rfl

theorem ofString_ofList (cs : List Char) : ofString (String.ofList cs) = ofChars cs := by
  rw [ofString, String.toList_ofList]

theorem any_isHalf_ofChars (cs : List Char) : (ofChars cs).any CodePoint.isHalf = false := by
  rw [List.any_eq_false]
  intro p hp
  obtain ⟨c, -, rfl⟩ := mem_ofChars.mp hp
  exact Bool.false_ne_true

/-- A text without halves is the row of its leading characters. -/
theorem eq_ofChars_of_noHalf (h : text.any CodePoint.isHalf = false) : text = ofChars text.leadingChars := by
  induction text with
  | nil => rfl
  | cons p text ih =>
    rw [List.any_cons, Bool.or_eq_false_iff] at h
    cases p with
    | char c => rw [leadingChars, ofChars_cons, ← ih h.2]
    | half n => cases h.1

@[simp] theorem string?_ofString (s : String) : (ofString s).string? = some s := by
  rw [string?, ofString, any_isHalf_ofChars, leadingChars_ofChars, String.ofList_toList]
  rfl

/-- **A text is a string exactly if no half is in it.** -/
theorem string?_eq_some_iff : text.string? = some s ↔ text = ofString s := by
  refine ⟨fun h => ?_, fun h => h ▸ string?_ofString s⟩
  rw [string?] at h
  split at h
  · cases h
  · next hhalf =>
    cases h
    rw [ofString_ofList]
    exact eq_ofChars_of_noHalf (Bool.eq_false_iff.mpr hhalf)

theorem string?_eq_none_iff : text.string? = none ↔ ∃ n, CodePoint.half n ∈ text := by
  rw [string?]
  split
  · next h =>
    obtain ⟨p, hp, hhalf⟩ := List.any_eq_true.mp h
    cases p with
    | char c => cases hhalf
    | half n => exact iff_of_true rfl ⟨n, hp⟩
  · next h =>
    refine iff_of_false (by simp) ?_
    rintro ⟨n, hn⟩
    exact h (List.any_eq_true.mpr ⟨_, hn, rfl⟩)

/-- A string behind a text takes no part in whether the whole is a string. -/
theorem string?_append_ofString (text : Points) (s : String) :
    (text ++ ofString s).string? = text.string?.map (· ++ s) := by
  cases h : text.string? with
  | some t => rw [string?_eq_some_iff.mp h, ← ofString_append, string?_ofString, Option.map_some]
  | none =>
    obtain ⟨n, hn⟩ := string?_eq_none_iff.mp h
    exact string?_eq_none_iff.mpr ⟨n, List.mem_append_left _ hn⟩

end Points

end ComponentTree
