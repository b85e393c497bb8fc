import ComponentTree.Proofs.Text.Pieces
import ComponentTree.Proofs.Text.Titlecase
import Mathlib.Data.List.SplitBy

/-!
# Names made of words, read back

Words that a separator joins are found again (`words_intercalate`). What `camel` makes of them has lost
the separators, but words of plain characters can still be read from it: a capital stands where a word
begins, and nowhere else (`humps_camel`).

A single word in lower case is its own `camel`, in any script, if its first character comes back from
title case (`camel_eq_self_iff`).
-/

namespace ComponentTree.Text

theorem words_intercalate {sep : Char} {ws : List (List Char)} (hsep : isAlphanumeric sep = false)
    (hne : ∀ w ∈ ws, w ≠ []) (h : ∀ w ∈ ws, ∀ c ∈ w, isAlphanumeric c = true) :
    words ([sep].intercalate ws) = ws :=
  pieces_intercalate (by simp [hsep]) hne fun w hw c hc => by simp [h w hw c hc]

/-! ## A single word in lower case -/

theorem titleLonger_ne_nil : (titleLonger.all fun entry => !entry.2.isEmpty) = true := by
  decide

theorem title_ne_nil (c : Char) : titleMap.apply c ≠ [] := by
  rw [CaseMap.apply]
  split
  · simp
  · split
    · next images hlonger =>
      obtain ⟨before, after, hlist, -⟩ := List.lookup_eq_some_iff.mp hlonger
      have hentry : (c.toNat, images) ∈ titleLonger := by
        rw [show titleLonger = _ from hlist]
        simp
      have hne := List.all_eq_true.mp titleLonger_ne_nil _ hentry
      simpa using hne
    · simp

theorem lowerFirst_append {cs : List Char} (h : cs ≠ []) (rest : List Char) :
    lowerFirst (cs ++ rest) = lowerFirst cs ++ rest := by
  obtain ⟨c, cs, rfl⟩ := List.exists_cons_of_ne_nil h
  rw [List.cons_append, lowerFirst, lowerFirst, List.append_assoc]

theorem isLow_of_lower_eq {cs : List Char} (h : lower cs = cs) : ∀ c ∈ cs, IsLow c := by
  intro c hc
  rw [← h] at hc
  exact isLow_of_mem_lowerAfter hc

/-- The first character of a word in lower case is all that `camel` touches. -/
theorem camel_eq_append {c : Char} {rest : List Char}
    (hword : ∀ d ∈ c :: rest, isAlphanumeric d = true) (hlow : lower (c :: rest) = c :: rest) :
    camel (c :: rest) = lowerFirst (titleMap.apply c) ++ rest := by
  have hwords : words (c :: rest) = [c :: rest] :=
    pieces_eq_singleton (by simp) fun d hd => by simp [hword d hd]
  have hrest : lowerAfter [c] rest = rest :=
    lowerAfter_of_isLow (fun d hd => isLow_of_lower_eq hlow d (List.mem_cons_of_mem _ hd)) [c]
  rw [camel, pascal, hwords, List.flatMap_singleton, capitalize, hrest,
    lowerFirst_append (title_ne_nil c)]

/-- **A word in lower case is its own `camel` exactly if its first character is not stray.** -/
theorem camel_eq_self_iff {c : Char} {rest : List Char}
    (hword : ∀ d ∈ c :: rest, isAlphanumeric d = true) (hlow : lower (c :: rest) = c :: rest) :
    camel (c :: rest) = c :: rest ↔ isStray c = false := by
  have hc : IsLow c := isLow_of_lower_eq hlow c List.mem_cons_self
  rw [camel_eq_append hword hlow, ← lowerFirst_title_iff hc, ← List.singleton_append,
    List.append_cancel_right_eq]

/-! ## Plain words -/

/-- A lower case letter or a digit of ASCII. -/
def isPlain (c : Char) : Bool := c.isLower || c.isDigit

variable {c : Char} {w : List Char} {ws : List (List Char)}

/-- What holds of the characters up to a code point can be tried on the code points. -/
theorem forall_of_ofNat {bound : Nat} {motive : Char → Prop} (h : ∀ n < bound, motive (Char.ofNat n))
    (hc : c.toNat < bound) : motive c := by
  have hpoint := h c.toNat hc
  rwa [Char.ofNat_toNat] at hpoint

theorem isAlphanum_of_isAlpha (h : c.isAlpha = true) : c.isAlphanum = true :=
  Bool.or_eq_true_iff.mpr (.inl h)

theorem isAlphanum_of_isLower (h : c.isLower = true) : c.isAlphanum = true :=
  isAlphanum_of_isAlpha (Bool.or_eq_true_iff.mpr (.inr h))

theorem isAlphanum_of_isDigit (h : c.isDigit = true) : c.isAlphanum = true :=
  Bool.or_eq_true_iff.mpr (.inr h)

/-- The letters and digits of ASCII. -/
theorem lt_of_isAlphanum (h : c.isAlphanum = true) : c.toNat < 128 := by
  have hbound : ∀ last : Char, c.val ≤ last.val → last.toNat < 128 → c.toNat < 128 :=
    fun _ hle hlast => Nat.lt_of_le_of_lt (UInt32.le_iff_toNat_le.mp hle) hlast
  rcases Bool.or_eq_true_iff.mp h with halpha | hdigit
  · rcases Bool.or_eq_true_iff.mp halpha with hupper | hlower
    · exact hbound 'Z' (of_decide_eq_true hupper).2 (by decide)
    · exact hbound 'z' (of_decide_eq_true (Bool.and_eq_true_iff.mp hlower).2) (by decide)
  · exact hbound '9' (of_decide_eq_true (Bool.and_eq_true_iff.mp hdigit).2) (by decide)

/-- What the tables say of a plain character. Only a letter gets another title case. -/
def PlainLaws (c : Char) : Prop :=
  isAlphanumeric c = true ∧ lowerMap.apply c = [c] ∧ titleMap.apply c = [c.toUpper] ∧
    lowerMap.apply c.toUpper = [c] ∧ c.isUpper = false ∧ (c.isLower = true → c.toUpper.isUpper = true)

instance (c : Char) : Decidable (PlainLaws c) := inferInstanceAs (Decidable (_ ∧ _))

/-- There are so few plain characters that the laws can be tried on all of them. -/
theorem plainLaws_of_lt : ∀ n < 128, isPlain (Char.ofNat n) = true → PlainLaws (Char.ofNat n) := by
  decide +kernel

theorem plainLaws (h : isPlain c = true) : PlainLaws c := by
  have halphanum : c.isAlphanum = true :=
    (Bool.or_eq_true_iff.mp h).elim isAlphanum_of_isLower isAlphanum_of_isDigit
  exact forall_of_ofNat (motive := fun c => isPlain c = true → PlainLaws c) plainLaws_of_lt
    (lt_of_isAlphanum halphanum) h

theorem isAlphanumeric_of_isPlain (h : isPlain c = true) : isAlphanumeric c = true := (plainLaws h).1

theorem isLow_of_isPlain (h : isPlain c = true) : IsLow c := (plainLaws h).2.1

theorem title_of_isPlain (h : isPlain c = true) : titleMap.apply c = [c.toUpper] :=
  (plainLaws h).2.2.1

theorem lower_toUpper_of_isPlain (h : isPlain c = true) : lowerMap.apply c.toUpper = [c] :=
  (plainLaws h).2.2.2.1

theorem isUpper_of_isPlain (h : isPlain c = true) : c.isUpper = false := (plainLaws h).2.2.2.2.1

theorem isUpper_toUpper_of_isPlain (h : isPlain c = true) (hlower : c.isLower = true) :
    c.toUpper.isUpper = true :=
  (plainLaws h).2.2.2.2.2 hlower

theorem capitalize_plain (h : ∀ d ∈ c :: w, isPlain d = true) :
    capitalize (c :: w) = c.toUpper :: w := by
  have hw : lowerAfter [c] w = w :=
    lowerAfter_of_isLow (fun d hd => isLow_of_isPlain (h d (List.mem_cons_of_mem _ hd))) [c]
  rw [capitalize, title_of_isPlain (h c List.mem_cons_self), hw, List.singleton_append]

theorem lowerFirst_toUpper (h : isPlain c = true) : lowerFirst (c.toUpper :: w) = c :: w := by
  rw [lowerFirst_cons, lower_toUpper_of_isPlain h, List.singleton_append]

theorem lowerFirst_plain (h : ∀ d ∈ w, isPlain d = true) : lowerFirst w = w := by
  cases w with
  | nil => rfl
  | cons c w =>
    have hlow : lowerMap.apply c = [c] := isLow_of_isPlain (h c List.mem_cons_self)
    rw [lowerFirst_cons, hlow, List.singleton_append]

/-- Lowering the first character takes back what capitalising a plain word does. -/
theorem lowerFirst_capitalize (h : ∀ d ∈ w, isPlain d = true) : lowerFirst (capitalize w) = w := by
  cases w with
  | nil => rfl
  | cons c w => rw [capitalize_plain h, lowerFirst_toUpper (h c List.mem_cons_self)]

/-! ## Kebab case -/

/-- Words of which a name in kebab case is made: plain words, all but the first of which begin with a
letter. -/
structure Kebab (ws : List (List Char)) : Prop where
  ne_nil : ws ≠ []
  words_ne_nil : ∀ w ∈ ws, w ≠ []
  plain : ∀ w ∈ ws, ∀ c ∈ w, isPlain c = true
  letters : ∀ w ∈ ws.tail, ∃ c ∈ w.head?, c.isLower = true

instance (ws : List (List Char)) : Decidable (Kebab ws) :=
  decidable_of_iff (ws ≠ [] ∧ (∀ w ∈ ws, w ≠ []) ∧ (∀ w ∈ ws, w.all isPlain = true) ∧
      ∀ w ∈ ws.tail, w.head?.any Char.isLower = true) <| by
    simp only [List.all_eq_true, Option.any_eq_true]
    exact ⟨fun ⟨hne, hwords, hplain, hletters⟩ => ⟨hne, hwords, hplain, hletters⟩,
      fun ⟨hne, hwords, hplain, hletters⟩ => ⟨hne, hwords, hplain, hletters⟩⟩

/-- A text that begins with a capital, and has no other. -/
def IsHump (cs : List Char) : Prop :=
  ∃ c rest, cs = c :: rest ∧ c.isUpper = true ∧ ∀ d ∈ rest, d.isUpper = false

/-- A part of a text goes on until the next capital. -/
def goesOn (_ next : Char) : Bool := !next.isUpper

/-- The parts of a text that begin with capitals, and the part before them, in lower case. -/
def humps (cs : List Char) : List (List Char) := (cs.splitBy goesOn).map lowerFirst

theorem splitBy_goesOn_cons (h : ∀ d ∈ w, d.isUpper = false) :
    (c :: w).splitBy goesOn = [c :: w] := by
  have hchain : (c :: w).IsChain fun d e => goesOn d e = true := by
    induction w generalizing c with
    | nil => exact .singleton c
    | cons d w ih =>
      exact .cons_cons (by simp [goesOn, h d List.mem_cons_self])
        (ih fun e he => h e (List.mem_cons_of_mem _ he))
  exact List.splitBy_of_isChain (by simp) hchain

/-- Humps are told apart by their capitals. What stands before them need not be a hump, and the induction
is on the humps, each of which is in turn what stands before the others. -/
theorem splitBy_goesOn_append {parts : List (List Char)} (hw : w.splitBy goesOn = [w])
    (hparts : ∀ part ∈ parts, IsHump part) :
    (w ++ parts.flatten).splitBy goesOn = w :: parts := by
  induction parts generalizing w with
  | nil => rwa [List.flatten_nil, List.append_nil]
  | cons part parts ih =>
    obtain ⟨c, rest, rfl, hupper, hrest⟩ := hparts part List.mem_cons_self
    have hlater : (c :: rest ++ parts.flatten).splitBy goesOn = (c :: rest) :: parts :=
      ih (splitBy_goesOn_cons hrest) fun part hpart => hparts part (List.mem_cons_of_mem _ hpart)
    rw [List.cons_append] at hlater
    rw [List.flatten_cons, List.cons_append,
      List.splitBy_append_cons _ (by simp [goesOn, hupper]), hw, hlater, List.singleton_append]

namespace Kebab

variable {sep : Char}

/-- The first word is as it was, and the others are capitalised. -/
theorem camel_intercalate (h : Kebab (w :: ws)) (hsep : isAlphanumeric sep = false) :
    camel ([sep].intercalate (w :: ws)) = w ++ (ws.map capitalize).flatten := by
  have hwords : words ([sep].intercalate (w :: ws)) = w :: ws :=
    words_intercalate hsep h.words_ne_nil
      fun w hw c hc => isAlphanumeric_of_isPlain (h.plain w hw c hc)
  obtain ⟨c, rest, rfl⟩ := List.exists_cons_of_ne_nil (h.words_ne_nil w List.mem_cons_self)
  have hplain := h.plain _ List.mem_cons_self
  rw [camel, pascal, hwords, List.flatMap_cons, capitalize_plain hplain, List.cons_append,
    lowerFirst_toUpper (hplain c List.mem_cons_self), List.flatMap_def, List.cons_append]

theorem isHump_capitalize (h : Kebab (w :: ws)) {later : List Char} (hlater : later ∈ ws) :
    IsHump (capitalize later) := by
  obtain ⟨c, hc, hletter⟩ := h.letters later hlater
  obtain ⟨rest, rfl⟩ := List.head?_eq_some_iff.mp hc
  have hplain := h.plain _ (List.mem_cons_of_mem _ hlater)
  exact ⟨c.toUpper, rest, capitalize_plain hplain,
    isUpper_toUpper_of_isPlain (hplain c List.mem_cons_self) hletter,
    fun d hd => isUpper_of_isPlain (hplain d (List.mem_cons_of_mem _ hd))⟩

/-- **The words can be read from what `camel` makes of them.** -/
theorem humps_camel (h : Kebab ws) (hsep : isAlphanumeric sep = false) :
    humps (camel ([sep].intercalate ws)) = ws := by
  obtain ⟨w, ws, rfl⟩ := List.exists_cons_of_ne_nil h.ne_nil
  have hfirst : w.splitBy goesOn = [w] := by
    obtain ⟨c, rest, rfl⟩ := List.exists_cons_of_ne_nil (h.words_ne_nil w List.mem_cons_self)
    exact splitBy_goesOn_cons fun d hd =>
      isUpper_of_isPlain (h.plain _ List.mem_cons_self d (List.mem_cons_of_mem _ hd))
  have hparts : ∀ part ∈ ws.map capitalize, IsHump part := by
    intro part hpart
    obtain ⟨later, hlater, rfl⟩ := List.mem_map.mp hpart
    exact h.isHump_capitalize hlater
  have hback : (ws.map capitalize).map lowerFirst = ws := by
    rw [List.map_map]
    exact (List.map_congr_left fun later hlater =>
      lowerFirst_capitalize (h.plain later (List.mem_cons_of_mem _ hlater))).trans (List.map_id ws)
  rw [h.camel_intercalate hsep, humps, splitBy_goesOn_append hfirst hparts, List.map_cons, hback,
    lowerFirst_plain (h.plain w List.mem_cons_self)]

end Kebab

end ComponentTree.Text
