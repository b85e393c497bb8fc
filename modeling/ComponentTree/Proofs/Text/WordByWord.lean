import ComponentTree.Proofs.Text.Words

/-!
# Case conversion, word by word

A text is converted to PascalCase word by word, so what stands before a separator and what stands behind
it are converted apart (`pascal_append_cons`). The case of a character may depend on its neighbours, as
that of a final sigma does, but only on those within its word. In camelCase the first word that there is
begins with a small letter, and the words after it are as in PascalCase (`camel_append_cons`).
-/

namespace ComponentTree

namespace Text

variable {a b gap lead trail w : List Char} {c : Char}

/-- A text without a letter or digit. -/
def Wordless (cs : List Char) : Prop := ∀ c ∈ cs, isAlphanumeric c = false

instance (cs : List Char) : Decidable (Wordless cs) :=
  List.decidableBAll (fun c => isAlphanumeric c = false) cs

/-- Characters of a text without words are separators. -/
theorem Wordless.separates (h : Wordless gap) : ∀ c ∈ gap, (!isAlphanumeric c) = true := by
  intro c hc
  rw [h c hc]
  rfl

/-! ## PascalCase -/

theorem capitalize_ne_nil (h : w ≠ []) : capitalize w ≠ [] := by
  obtain ⟨c, w, rfl⟩ := List.exists_cons_of_ne_nil h
  rw [capitalize]
  exact List.append_ne_nil_of_left_ne_nil (title_ne_nil c) _

/-- **Only words leave a trace.** -/
theorem pascal_eq_nil_iff : pascal a = [] ↔ Wordless a := by
  have hwords : pascal a = [] ↔ words a = [] := by
    rw [pascal, List.flatMap_eq_nil_iff]
    constructor
    · intro h
      by_contra hne
      obtain ⟨w, hw⟩ := List.exists_mem_of_ne_nil _ hne
      exact capitalize_ne_nil (ne_nil_of_mem_pieces hw) (h w hw)
    · intro h w hw
      rw [h] at hw
      cases hw
  rw [hwords, words, pieces_eq_nil_iff]
  simp [Wordless]

theorem pascal_append_cons (hc : isAlphanumeric c = false) (a b : List Char) :
    pascal (a ++ c :: b) = pascal a ++ pascal b := by
  have hwords : words (a ++ c :: b) = words a ++ words b := pieces_append_cons (by simp [hc]) a b
  rw [pascal, hwords, List.flatMap_append]
  rfl

/-- What stands before a text without a word, or behind it, makes no difference. -/
theorem pascal_within_gaps (hlead : Wordless lead) (htrail : Wordless trail) (a : List Char) :
    pascal (lead ++ a ++ trail) = pascal a := by
  have hwords : words (lead ++ a ++ trail) = words a := by
    rw [words, pieces_append_gap htrail.separates, pieces_gap_append hlead.separates]
    rfl
  rw [pascal, hwords]
  rfl

theorem pascal_append_gap_append (hne : gap ≠ []) (hgap : Wordless gap) (a b : List Char) :
    pascal (a ++ gap ++ b) = pascal a ++ pascal b := by
  have hwords : words (a ++ gap ++ b) = words a ++ words b :=
    pieces_append_gap_append hne hgap.separates a b
  rw [pascal, hwords, List.flatMap_append]
  rfl

/-! ## CamelCase -/

theorem camel_append_cons (hc : isAlphanumeric c = false) (ha : ¬ Wordless a) (b : List Char) :
    camel (a ++ c :: b) = camel a ++ pascal b := by
  rw [camel, pascal_append_cons hc, lowerFirst_append (mt pascal_eq_nil_iff.mp ha)]
  rfl

/-- Without a word before the separator, the first word is the first one behind it. -/
theorem camel_append_cons_of_wordless (hc : isAlphanumeric c = false) (ha : Wordless a) (b : List Char) :
    camel (a ++ c :: b) = camel b := by
  rw [camel, pascal_append_cons hc, pascal_eq_nil_iff.mpr ha, List.nil_append]
  rfl

end Text

open Text (isAlphanumeric Wordless)

theorem toList_append_singleton_append (a b : String) (c : Char) :
    (a ++ String.singleton c ++ b).toList = a.toList ++ c :: b.toList := by
  simp

/-- **Case conversion works word by word.**

A separator is any character that is no letter or digit. A gap of several of them between two texts is as
good as one, and gaps at the ends of a text make no difference. -/
theorem cased_word_by_word (a b : String) {c : Char} (hc : isAlphanumeric c = false) :
    pascalCase (a ++ String.singleton c ++ b) = pascalCase a ++ pascalCase b ∧
    (pascalCase a = "" ↔ Wordless a.toList) ∧
    camelCase (a ++ String.singleton c ++ b) =
      (if Wordless a.toList then camelCase b else camelCase a ++ pascalCase b) ∧
    (∀ gap : String, gap ≠ "" → Wordless gap.toList →
      pascalCase (a ++ gap ++ b) = pascalCase (a ++ String.singleton c ++ b) ∧
      camelCase (a ++ gap ++ b) = camelCase (a ++ String.singleton c ++ b)) ∧
    ∀ lead trail : String, Wordless lead.toList → Wordless trail.toList →
      pascalCase (lead ++ a ++ trail) = pascalCase a ∧
      camelCase (lead ++ a ++ trail) = camelCase a := by
  have hpascal : Text.pascal (a ++ String.singleton c ++ b).toList =
      Text.pascal a.toList ++ Text.pascal b.toList := by
    rw [toList_append_singleton_append, Text.pascal_append_cons hc]
  refine ⟨?_, ?_, ?_, fun gap hne hgap => ?_, fun lead trail hlead htrail => ?_⟩
  · rw [pascalCase, hpascal, String.ofList_append]
    rfl
  · rw [pascalCase, ← Text.pascal_eq_nil_iff, ← String.toList_inj, String.toList_ofList]
    rfl
  · rw [camelCase, toList_append_singleton_append]
    split
    · next ha =>
      rw [Text.camel_append_cons_of_wordless hc ha]
      rfl
    · next ha =>
      rw [Text.camel_append_cons hc ha, String.ofList_append]
      rfl
  · have hsame : Text.pascal (a ++ gap ++ b).toList = Text.pascal (a ++ String.singleton c ++ b).toList := by
      rw [hpascal, String.toList_append, String.toList_append,
        Text.pascal_append_gap_append (by simpa using hne) hgap]
    exact ⟨congrArg String.ofList hsame, congrArg (String.ofList ∘ Text.lowerFirst) hsame⟩
  · have hsame : Text.pascal (lead ++ a ++ trail).toList = Text.pascal a.toList := by
      rw [String.toList_append, String.toList_append, Text.pascal_within_gaps hlead htrail]
    exact ⟨congrArg String.ofList hsame, congrArg (String.ofList ∘ Text.lowerFirst) hsame⟩

/-- The sigma of the first word is a final one, although letters follow it behind the underscore. -/
theorem cased_word_by_word_sigmas :
    isAlphanumeric '_' = false ∧
      pascalCase "ΑΣ_ΒΣ" = pascalCase "ΑΣ" ++ pascalCase "ΒΣ" ∧ pascalCase "ΑΣ" = "Ας" ∧
      camelCase "ΑΣ_ΒΣ" = "αςΒς" ∧ camelCase "--ΑΣ_-ΒΣ'" = "αςΒς" := by
  obtain ⟨hpascal, -, hcamel, hgap, -⟩ := cased_word_by_word "ΑΣ" "ΒΣ" (by decide : isAlphanumeric '_' = false)
  obtain ⟨-, hrun⟩ := hgap "_-" (by decide) (by decide)
  obtain ⟨-, -, -, -, hends⟩ := cased_word_by_word "ΑΣ_-ΒΣ" "" (by decide : isAlphanumeric '_' = false)
  obtain ⟨-, hwhole⟩ := hends "--" "'" (by decide) (by decide)
  have hsplit : camelCase "ΑΣ_ΒΣ" = "αςΒς" := by
    refine hcamel.trans ?_
    rw [if_neg (by decide)]
    decide
  exact ⟨by decide, hpascal, by decide, hsplit, hwhole.trans (hrun.trans hsplit)⟩

end ComponentTree
