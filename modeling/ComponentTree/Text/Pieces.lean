/-!
# Cutting a text at separators

`cut` keeps the empty pieces between separators, `pieces` leaves them out. The laws here say how
both go along with concatenation, which is all that words and dotted paths are about.
-/

namespace ComponentTree.Text

/-- The pieces of a text between its separators, empty ones included. Never an empty list. -/
def cut (isSeparator : Char → Bool) : List Char → List (List Char)
  | [] => [[]]
  | c :: cs =>
    if isSeparator c then [] :: cut isSeparator cs
    else
      match cut isSeparator cs with
      | [] => [[c]]
      | piece :: later => (c :: piece) :: later

/-- The non-empty pieces of a text between its separators. -/
def pieces (isSeparator : Char → Bool) (cs : List Char) : List (List Char) :=
  (cut isSeparator cs).filter (! ·.isEmpty)

theorem cut_ne_nil (p : Char → Bool) (cs : List Char) : cut p cs ≠ [] := by
  cases cs with
  | nil => simp [cut]
  | cons c cs =>
    rw [cut]
    split
    · simp
    · split <;> simp

theorem cut_append_cons {p : Char → Bool} {c : Char} (hc : p c = true) (a b : List Char) :
    cut p (a ++ c :: b) = cut p a ++ cut p b := by
  induction a with
  | nil => simp [cut, hc]
  | cons x a ih =>
    rw [List.cons_append, cut, cut, ih]
    split
    · rfl
    · cases h : cut p a with
      | nil => exact absurd h (cut_ne_nil p a)
      | cons piece later => rfl

theorem pieces_append_cons {p : Char → Bool} {c : Char} (hc : p c = true) (a b : List Char) :
    pieces p (a ++ c :: b) = pieces p a ++ pieces p b := by
  simp [pieces, cut_append_cons hc]

end ComponentTree.Text
