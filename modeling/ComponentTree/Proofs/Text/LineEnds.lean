import ComponentTree.Text.Newlines
import Mathlib.Data.List.Basic

/-!
# Line ends as replacements

To unify the line ends of a text is to replace every carriage return that has a line feed after it, and
then every one that remains, by a line feed (`unifyLineEnds_eq_replaceAll`). So none is left
(`return_not_mem_unifyLineEnds`), and to do it again changes nothing.
-/

namespace ComponentTree.Text

/-! ## Replacing -/

/-- The text with every occurrence of a part replaced, from left to right, after some characters that
belong to the occurrence before. -/
def replaceFrom (part new : List Char) : Nat → List Char → List Char
  | _, [] => []
  | covered + 1, _ :: cs => replaceFrom part new covered cs
  | 0, c :: cs =>
    if part.isPrefixOf (c :: cs) then new ++ replaceFrom part new (part.length - 1) cs
    else c :: replaceFrom part new 0 cs

/-- The text with every occurrence of a part replaced, from left to right. -/
def replaceAll (part new cs : List Char) : List Char := replaceFrom part new 0 cs

variable {part new cs : List Char} {c : Char}

theorem replaceAll_cons_of_not (h : part.isPrefixOf (c :: cs) = false) (new : List Char) :
    replaceAll part new (c :: cs) = c :: replaceAll part new cs := by
  rw [replaceAll, replaceAll, replaceFrom, h]
  rfl

/-- To replace a character is to do so at every place. -/
theorem replaceAll_singleton (a b : Char) (cs : List Char) :
    replaceAll [a] [b] cs = cs.map fun c => if a = c then b else c := by
  induction cs with
  | nil => rfl
  | cons c cs ih =>
    rw [replaceAll] at ih ⊢
    rw [replaceFrom, List.map_cons, ← ih]
    by_cases h : a = c <;> simp [h]

theorem replaceAll_pair (a b : Char) (new cs : List Char) :
    replaceAll [a, b] new (a :: b :: cs) = new ++ replaceAll [a, b] new cs := by
  rw [replaceAll, replaceAll, replaceFrom, if_pos (by simp)]
  rfl

/-! ## Unified line ends -/

/-- **Line ends are unified by two replacements.** -/
theorem unifyLineEnds_eq_replaceAll (cs : List Char) :
    unifyLineEnds cs = replaceAll ['\r'] ['\n'] (replaceAll ['\r', '\n'] ['\n'] cs) := by
  induction cs using unifyLineEnds.induct with
  | case1 => rfl
  | case2 rest ih =>
    rw [unifyLineEnds, ih, replaceAll_pair, replaceAll_singleton, replaceAll_singleton]
    rfl
  | case3 rest hrest ih =>
    have hpart : ['\r', '\n'].isPrefixOf ('\r' :: rest) = false := by
      cases rest with
      | nil => rfl
      | cons d rest =>
        have hd : '\n' ≠ d := fun heq => hrest rest (heq ▸ rfl)
        simp [List.isPrefixOf, hd]
    rw [unifyLineEnds.eq_3 rest hrest, ih, replaceAll_cons_of_not hpart, replaceAll_singleton,
      replaceAll_singleton]
    rfl
  | case4 c rest hpair hreturn ih =>
    have hc : '\r' ≠ c := fun heq => hreturn heq.symm
    have hpart : ['\r', '\n'].isPrefixOf (c :: rest) = false := by simp [List.isPrefixOf, hc]
    rw [unifyLineEnds.eq_4 c rest hpair hreturn, ih, replaceAll_cons_of_not hpart, replaceAll_singleton,
      replaceAll_singleton, List.map_cons, if_neg hc]

/-- No carriage return is left. -/
theorem return_not_mem_unifyLineEnds (cs : List Char) : '\r' ∉ unifyLineEnds cs := by
  rw [unifyLineEnds_eq_replaceAll, replaceAll_singleton, List.mem_map]
  rintro ⟨c, -, hc⟩
  split at hc
  · exact absurd hc (by decide)
  · next hne => exact hne hc.symm

/-- Without carriage returns there are no line ends to be unified. -/
theorem unifyLineEnds_of_not_mem (h : '\r' ∉ cs) : unifyLineEnds cs = cs := by
  induction cs with
  | nil => rfl
  | cons c cs ih =>
    rw [List.mem_cons, not_or] at h
    rw [unifyLineEnds]
    · rw [ih h.2]
    · rintro rest rfl
      exact absurd rfl h.1
    · rintro rfl
      exact absurd rfl h.1

/-- The text with every carriage return replaced by a line feed, together with the line feed after it if
there is one. -/
def withLineFeeds (text : String) : String :=
  String.ofList (replaceAll ['\r'] ['\n'] (replaceAll ['\r', '\n'] ['\n'] text.toList))

theorem toList_withLineFeeds (text : String) : (withLineFeeds text).toList = unifyLineEnds text.toList := by
  rw [withLineFeeds, String.toList_ofList, unifyLineEnds_eq_replaceAll]

theorem withLineFeeds_of_not_mem {text : String} (h : '\r' ∉ text.toList) : withLineFeeds text = text := by
  rw [← String.toList_inj, toList_withLineFeeds, unifyLineEnds_of_not_mem h]

theorem withLineFeeds_withLineFeeds (text : String) :
    withLineFeeds (withLineFeeds text) = withLineFeeds text :=
  withLineFeeds_of_not_mem (by
    rw [toList_withLineFeeds]
    exact return_not_mem_unifyLineEnds text.toList)

example : withLineFeeds "a\r\r\nb\n\r" = "a\n\nb\n\n" := by decide

end ComponentTree.Text
