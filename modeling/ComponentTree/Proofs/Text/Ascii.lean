import ComponentTree.Proofs.Text.WordByWord

/-!
# Texts of ASCII characters

The case mappings and the classes of characters are those of Unicode. On ASCII they come to the simple
ones (`asciiLaws`), with no rule for neighbours and no character that is mapped to several. So lower case
is taken character by character (`lower_ascii`), and PascalCase does not depend on the case in which a
text is written (`pascal_lower_ascii`).
-/

namespace ComponentTree

namespace Text

variable {c : Char} {w cs : List Char}

/-- The text has no characters but those of ASCII. -/
def Ascii (cs : List Char) : Prop := ∀ c ∈ cs, c.toNat < 128

instance (cs : List Char) : Decidable (Ascii cs) :=
  List.decidableBAll (fun c : Char => c.toNat < 128) cs

theorem Ascii.head (h : Ascii (c :: cs)) : c.toNat < 128 := h c List.mem_cons_self

theorem Ascii.tail (h : Ascii (c :: cs)) : Ascii cs := fun d hd => h d (List.mem_cons_of_mem c hd)

/-! ## Characters -/

/-- What the tables say of a character of ASCII. -/
structure AsciiLaws (c : Char) : Prop where
  lower : lowerMap.apply c = [c.toLower]
  title : titleMap.apply c = [c.toUpper]
  alphanumeric : isAlphanumeric c = c.isAlphanum
  toLower_isAlphanum : c.toLower.isAlphanum = c.isAlphanum
  toUpper_isAlphanum : c.toUpper.isAlphanum = c.isAlphanum
  toUpper_toLower : c.toLower.toUpper = c.toUpper
  toLower_toLower : c.toLower.toLower = c.toLower
  toLower_lt : c.toLower.toNat < 128
  isLower_toLower : c.isAlpha = true → c.toLower.isLower = true

instance (c : Char) : Decidable (AsciiLaws c) :=
  decidable_of_iff (lowerMap.apply c = [c.toLower] ∧ titleMap.apply c = [c.toUpper] ∧
      isAlphanumeric c = c.isAlphanum ∧ c.toLower.isAlphanum = c.isAlphanum ∧
      c.toUpper.isAlphanum = c.isAlphanum ∧ c.toLower.toUpper = c.toUpper ∧
      c.toLower.toLower = c.toLower ∧ c.toLower.toNat < 128 ∧
      (c.isAlpha = true → c.toLower.isLower = true))
    ⟨fun ⟨h₁, h₂, h₃, h₄, h₅, h₆, h₇, h₈, h₉⟩ => ⟨h₁, h₂, h₃, h₄, h₅, h₆, h₇, h₈, h₉⟩,
      fun ⟨h₁, h₂, h₃, h₄, h₅, h₆, h₇, h₈, h₉⟩ => ⟨h₁, h₂, h₃, h₄, h₅, h₆, h₇, h₈, h₉⟩⟩

/-- There are so few of them that the laws can be tried on all. -/
theorem asciiLaws_ofNat : ∀ n < 128, AsciiLaws (Char.ofNat n) := by
  decide +kernel

theorem asciiLaws (h : c.toNat < 128) : AsciiLaws c := forall_of_ofNat asciiLaws_ofNat h

theorem ne_sigma_of_ascii (h : c.toNat < 128) : c ≠ 'Σ' := by
  rintro rfl
  revert h
  decide

/-! ## Texts -/

theorem lowerAfter_ascii (h : Ascii cs) (before : List Char) :
    lowerAfter before cs = cs.map Char.toLower := by
  induction cs generalizing before with
  | nil => rfl
  | cons c cs ih =>
    rw [lowerAfter, lowerBetween, if_neg (ne_sigma_of_ascii h.head), (asciiLaws h.head).lower,
      ih h.tail]
    rfl

/-- **Lower case is taken character by character.** -/
theorem lower_ascii (h : Ascii cs) : lower cs = cs.map Char.toLower := lowerAfter_ascii h []

theorem Ascii.lower (h : Ascii cs) : Ascii (lower cs) := by
  rw [lower_ascii h]
  intro d hd
  obtain ⟨c, hc, rfl⟩ := List.mem_map.mp hd
  exact (asciiLaws (h c hc)).toLower_lt

theorem words_lower_ascii (h : Ascii cs) :
    words (lower cs) = (words cs).map (List.map Char.toLower) := by
  rw [lower_ascii h]
  apply pieces_map
  intro c hc
  have hlaws := asciiLaws (h c hc)
  rw [(asciiLaws hlaws.toLower_lt).alphanumeric, hlaws.toLower_isAlphanum, hlaws.alphanumeric]

theorem ascii_of_mem_words (h : Ascii cs) (hw : w ∈ words cs) : Ascii w := fun c hc =>
  h c (mem_of_mem_pieces hw hc).1

theorem capitalize_ascii (h : Ascii (c :: w)) :
    capitalize (c :: w) = c.toUpper :: w.map Char.toLower := by
  rw [capitalize, (asciiLaws h.head).title, lowerAfter_ascii h.tail, List.singleton_append]

theorem capitalize_lower_ascii (h : Ascii w) : capitalize (w.map Char.toLower) = capitalize w := by
  cases w with
  | nil => rfl
  | cons c w =>
    have hlower : Ascii ((c :: w).map Char.toLower) := lower_ascii h ▸ h.lower
    rw [List.map_cons] at hlower ⊢
    rw [capitalize_ascii hlower, capitalize_ascii h, (asciiLaws h.head).toUpper_toLower, List.map_map]
    congr 1
    exact List.map_congr_left fun d hd => (asciiLaws (h.tail d hd)).toLower_toLower

/-- **The case of a text does not show in PascalCase.** -/
theorem pascal_lower_ascii (h : Ascii cs) : pascal (lower cs) = pascal cs := by
  rw [pascal, words_lower_ascii h, List.flatMap_map, pascal, List.flatMap_def, List.flatMap_def]
  congr 1
  exact List.map_congr_left fun w hw => capitalize_lower_ascii (ascii_of_mem_words h hw)

theorem isAlphanum_of_mem_capitalize (h : Ascii w) (hw : ∀ c ∈ w, c.isAlphanum = true) :
    ∀ c ∈ capitalize w, c.isAlphanum = true := by
  cases w with
  | nil => exact hw
  | cons c w =>
    obtain ⟨hc, hw⟩ := List.forall_mem_cons.mp hw
    rw [capitalize_ascii h]
    refine List.forall_mem_cons.mpr ⟨(asciiLaws h.head).toUpper_isAlphanum.trans hc, fun d hd => ?_⟩
    obtain ⟨e, he, rfl⟩ := List.mem_map.mp hd
    exact (asciiLaws (h.tail e he)).toLower_isAlphanum.trans (hw e he)

/-- PascalCase has nothing but letters and digits of ASCII. -/
theorem isAlphanum_of_mem_pascal (h : Ascii cs) : ∀ c ∈ pascal cs, c.isAlphanum = true := by
  intro c hc
  obtain ⟨w, hw, hc⟩ := List.mem_flatMap.mp hc
  have hascii := ascii_of_mem_words h hw
  refine isAlphanum_of_mem_capitalize hascii (fun d hd => ?_) c hc
  rw [← (asciiLaws (hascii d hd)).alphanumeric]
  simpa using (mem_of_mem_pieces hw hd).2

theorem wordless_ascii (h : Ascii cs) : Wordless cs ↔ ∀ c ∈ cs, c.isAlphanum = false :=
  forall₂_congr fun c hc => by rw [(asciiLaws (h c hc)).alphanumeric]

end Text

open Text (Ascii)

variable {s : String}

theorem ascii_lowercase (h : Ascii s.toList) : Ascii (lowercase s).toList := by
  rw [lowercase, String.toList_ofList]
  exact h.lower

theorem pascalCase_lowercase (h : Ascii s.toList) : pascalCase (lowercase s) = pascalCase s := by
  rw [pascalCase, lowercase, String.toList_ofList, Text.pascal_lower_ascii h, pascalCase]

theorem pascalCase_eq_empty_iff (h : Ascii s.toList) :
    pascalCase s = "" ↔ ∀ c ∈ s.toList, c.isAlphanum = false := by
  rw [← Text.wordless_ascii h, ← Text.pascal_eq_nil_iff, pascalCase, ← String.toList_inj,
    String.toList_ofList]
  rfl

theorem isAlphanum_of_mem_pascalCase (h : Ascii s.toList) :
    ∀ c ∈ (pascalCase s).toList, c.isAlphanum = true := by
  rw [pascalCase, String.toList_ofList]
  exact Text.isAlphanum_of_mem_pascal h

end ComponentTree
