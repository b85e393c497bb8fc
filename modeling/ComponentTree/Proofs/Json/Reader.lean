import ComponentTree.Json.Reader
import ComponentTree.Proofs.Data

/-!
# What reading gives is data

Whatever a JSON text holds, its value is data (`isData_of_read`): in particular a key that is
repeated in the text is there only once. A text that cannot be read stands for itself, so decoding a
text always gives data.
-/

namespace ComponentTree

/-- A text is decoded to what is read from it, and stays as it is if nothing can be. -/
theorem Value.decoded_ofPoints (text : Points) :
    Value.decoded (.ofPoints text) = (Json.read text).getD (.ofPoints text) := by
  rcases Value.ofPoints_cases text with ⟨s, rfl, h⟩ | ⟨broken, rfl, h⟩
  · rw [h, Value.decoded]
  · rw [h, Value.decoded]

namespace Json

variable {n : Nat} {cs rest : Points} {v : Value}

theorem fourDigits_append {ds : List Char} (hlength : ds.length = 4)
    (hall : ds.all Text.isHexDigit = true) :
    fourDigits (Points.ofChars ds ++ rest) = some (Text.numberOf 16 ds, rest) := by
  match ds, hlength with
  | [a, b, c, d], _ =>
    exact if_pos hall

/-- The property that a reader gives only values with it. -/
def Gives (read : Points → Option (Value × Points)) (p : Value → Prop) : Prop :=
  ∀ {cs v rest}, read cs = some (v, rest) → p v

variable {read : Points → Option (Value × Points)} {p : Value → Prop}

theorem Gives.of_progress (h : Gives read p) {left : {rest : Points // rest.length < cs.length}}
    (hread : progress read cs = some (v, left)) : p v := by
  rw [progress] at hread
  split at hread
  · cases hread
  · next value rest heq =>
    split at hread
    · cases hread
      exact h heq
    · cases hread

theorem Gives.of_items (h : Gives read p) {values : List Value}
    (hitems : items (progress read) cs = some (values, rest)) : ∀ v ∈ values, p v := by
  fun_induction items (progress read) cs generalizing values rest with
  | case1 cs hnone => cases hitems
  | case2 cs value left hread after hend =>
    cases hitems
    intro v hv
    rw [List.mem_singleton.mp hv]
    exact h.of_progress hread
  | case3 cs value left hread after hmore ih =>
    obtain ⟨⟨more, rest'⟩, hmores, heq⟩ := Option.map_eq_some_iff.mp hitems
    cases heq
    intro v hv
    rcases List.mem_cons.mp hv with rfl | hv
    · exact h.of_progress hread
    · exact ih hmores v hv
  | case4 => cases hitems

theorem Gives.of_members (h : Gives read p) {pairs : List (Points × Value)}
    (hmembers : members (progress read) cs = some (pairs, rest)) :
    ∀ pair ∈ pairs, p pair.2 := by
  fun_induction members (progress read) cs generalizing pairs rest with
  | case1 => cases hmembers
  | case2 => cases hmembers
  | case3 cs key left hkey value left' hread after hend =>
    cases hmembers
    intro pair hpair
    rw [List.mem_singleton.mp hpair]
    exact h.of_progress hread
  | case4 cs key left hkey value left' hread after hmore ih =>
    obtain ⟨⟨more, rest'⟩, hmores, heq⟩ := Option.map_eq_some_iff.mp hmembers
    cases heq
    intro pair hpair
    rcases List.mem_cons.mp hpair with rfl | hpair
    · exact h.of_progress hread
    · exact ih hmores pair hpair
  | case5 => cases hmembers

theorem isData_of_number? (h : number? cs = some (v, rest)) : v.IsData := by
  rw [number?] at h
  split at h
  · cases h
  · split at h
    · split at h
      · cases h
      · cases h
        exact .int _
    · dsimp only at h
      split at h
      · cases h
        exact .float _
      · cases h

theorem isData_of_word? (h : word? cs = some (v, rest)) : v.IsData := by
  obtain ⟨⟨word, value⟩, hword, hafter⟩ := List.exists_of_findSome?_eq_some h
  obtain ⟨rest', -, heq⟩ := Option.map_eq_some_iff.mp hafter
  cases heq
  simp only [words, List.mem_cons, List.not_mem_nil, or_false, Prod.mk.injEq] at hword
  rcases hword with ⟨-, rfl⟩ | ⟨-, rfl⟩ | ⟨-, rfl⟩
  · exact .null
  · exact .bool true
  · exact .bool false

/-- The induction is on the nesting that is left for a value. -/
theorem gives_isData (n : Nat) : Gives (value? n) Value.IsData := by
  have hscalar : ∀ {cs v rest}, (word? cs).or (number? cs) = some (v, rest) → v.IsData := by
    intro cs v rest h
    rcases Option.or_eq_some_iff.mp h with h | ⟨-, h⟩
    · exact isData_of_word? h
    · exact isData_of_number? h
  induction n with
  | zero =>
    intro cs v rest h
    unfold value? at h
    split at h
    · obtain ⟨_, -, heq⟩ := Option.map_eq_some_iff.mp h
      cases heq
      exact Value.isData_ofPoints _
    · cases h
    · cases h
    · exact hscalar h
  | succ n ih =>
    intro cs v rest h
    unfold value? at h
    split at h
    · obtain ⟨_, -, heq⟩ := Option.map_eq_some_iff.mp h
      cases heq
      exact Value.isData_ofPoints _
    · dsimp only at h
      split at h
      · cases h
        exact .list (by simp)
      · obtain ⟨_, hitems, heq⟩ := Option.map_eq_some_iff.mp h
        cases heq
        exact .list (ih.of_items hitems)
    · dsimp only at h
      split at h
      · cases h
        exact @Value.IsData.map [] (by simp) (by simp)
      · obtain ⟨_, hmembers, heq⟩ := Option.map_eq_some_iff.mp h
        cases heq
        exact .map (Assoc.nodup_keys_ofPairs _)
          fun pair hpair => ih.of_members hmembers pair (Assoc.mem_ofPairs hpair)
    · exact hscalar h

/-- **What is read is data.** -/
theorem isData_of_read {text : Points} (h : Json.read text = some v) : v.IsData := by
  rw [Json.read] at h
  split at h
  · next value rest hvalue =>
    split at h
    · cases h
      exact gives_isData maxNesting hvalue
    · cases h
  · cases h

/-- A text is decoded to data, if only to itself. -/
theorem isData_decoded_ofPoints (text : Points) : (Value.decoded (.ofPoints text)).IsData := by
  rw [Value.decoded_ofPoints]
  cases h : Json.read text with
  | none => exact Value.isData_ofPoints text
  | some v => exact isData_of_read h

theorem isData_decoded_str (s : String) : (Value.decoded (.str s)).IsData :=
  Value.ofPoints_ofString s ▸ isData_decoded_ofPoints s

end Json

end ComponentTree
