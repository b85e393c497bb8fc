import ComponentTree.Proofs.Json.Reader
import ComponentTree.Proofs.Json.Grammar

/-!
# What is read is denoted

Wherever the reader takes a value from a text, the part of the text that it has used up denotes that
value (`Json.takes_value?`). A function of the reader `Takes` texts of a form of the grammar if what it
leaves stands behind a text of that form, which denotes what it gives; there is one lemma for each.
-/

namespace ComponentTree

/-- The property that a reader takes texts of a form from the start of a text. -/
def Json.Takes {σ α : Type} (read : List σ → Option (α × List σ)) (form : List σ → α → Prop) : Prop :=
  ∀ ⦃cs a rest⦄, read cs = some (a, rest) → ∃ text, form text a ∧ cs = text ++ rest

/-! ## Number literals -/

namespace NumberLiteral

variable {cs rest : List Char}

theorem allDigits_takeWhile {d : Char} (hd : d.isDigit = true) (cs : List Char) :
    AllDigits (d :: cs.takeWhile Char.isDigit) := by
  intro c hc
  rcases List.mem_cons.mp hc with rfl | hc
  · exact hd
  · exact List.mem_takeWhile_imp hc

theorem cons_takeWhile_append (d : Char) (cs : List Char) :
    d :: cs = d :: cs.takeWhile Char.isDigit ++ cs.dropWhile Char.isDigit := by
  rw [List.cons_append, List.takeWhile_append_dropWhile]

theorem isWhole_of_scanWhole {whole : List Char} (h : scanWhole cs = some (whole, rest)) :
    IsWhole whole ∧ cs = whole ++ rest := by
  unfold scanWhole at h
  split at h
  · cases h
  · cases h
    exact ⟨.inl rfl, rfl⟩
  · next d more hzero =>
    split at h
    · next hd =>
      cases h
      refine ⟨.inr ⟨by simp, allDigits_takeWhile hd more, ?_⟩, cons_takeWhile_append d more⟩
      simpa using hzero
    · cases h

theorem exists_of_scanFraction {fraction : List Char} (h : scanFraction cs = (fraction, rest)) :
    ∃ text, FractionText text fraction ∧ cs = text ++ rest := by
  unfold scanFraction at h
  split at h
  · next d more =>
    split at h
    · next hd =>
      cases h
      exact ⟨_, .digits (by simp) (allDigits_takeWhile hd more),
        congrArg ('.' :: ·) (cons_takeWhile_append d more)⟩
    · cases h
      exact ⟨[], .absent, rfl⟩
  · cases h
    exact ⟨[], .absent, rfl⟩

theorem exists_of_scanExponentDigits {negative : Bool} {exponent : Int}
    (h : scanExponentDigits negative cs = some (exponent, rest)) :
    ∃ ds, ds ≠ [] ∧ AllDigits ds ∧
      exponent = (if negative then - (digitsValue ds : Int) else digitsValue ds) ∧
      cs = ds ++ rest := by
  unfold scanExponentDigits at h
  split at h
  · next d more =>
    split at h
    · next hd =>
      cases h
      exact ⟨_, by simp, allDigits_takeWhile hd more, rfl, cons_takeWhile_append d more⟩
    · cases h
  · cases h

/-- A mark, a sign and what is scanned behind them are an exponent. -/
theorem exponentText_of_scanExponentDigits {mark : Char} {sign more : List Char} {negative : Bool}
    {exponent : Int} (hmark : mark = 'e' ∨ mark = 'E') (hsign : ExponentSign sign negative)
    (h : scanExponentDigits negative more = some (exponent, rest)) :
    ∃ text, ExponentText text (some exponent) ∧ mark :: (sign ++ more) = text ++ rest := by
  obtain ⟨ds, hne, hall, rfl, rfl⟩ := exists_of_scanExponentDigits h
  refine ⟨_, .digits hmark hsign hne hall, ?_⟩
  rw [List.cons_append, List.append_assoc]

theorem exists_of_scanExponent {exponent : Option Int} (h : scanExponent cs = (exponent, rest)) :
    ∃ text, ExponentText text exponent ∧ cs = text ++ rest := by
  unfold scanExponent at h
  dsimp only at h
  split at h
  · next found =>
    cases h
    split at found
    · split at found
      · next hmark => exact exponentText_of_scanExponentDigits (by simpa using hmark) .minus found
      · cases found
    · split at found
      · next hmark => exact exponentText_of_scanExponentDigits (by simpa using hmark) .plus found
      · cases found
    · split at found
      · next hmark => exact exponentText_of_scanExponentDigits (by simpa using hmark) .absent found
      · cases found
    · cases found
  · cases h
    exact ⟨[], .absent, rfl⟩

theorem exists_of_scanUnsigned {negative : Bool} {l : NumberLiteral}
    (h : scanUnsigned negative cs = some (l, rest)) :
    ∃ text, LiteralText ((if negative then ['-'] else []) ++ text) l ∧ cs = text ++ rest := by
  obtain ⟨⟨whole, afterWhole⟩, hwhole, heq⟩ := Option.map_eq_some_iff.mp h
  obtain ⟨hdigits, rfl⟩ := isWhole_of_scanWhole hwhole
  cases hfraction : scanFraction afterWhole with
  | mk fraction afterFraction =>
    cases hexponent : scanExponent afterFraction with
    | mk exponent afterExponent =>
      simp only [hfraction, hexponent] at heq
      cases heq
      obtain ⟨fractionText, hfractionText, rfl⟩ := exists_of_scanFraction hfraction
      obtain ⟨exponentText, hexponentText, rfl⟩ := exists_of_scanExponent hexponent
      refine ⟨_, .mk negative hdigits hfractionText hexponentText, ?_⟩
      rw [List.append_assoc, List.append_assoc]

/-- **What is scanned is a literal**, and it stands before what is left. -/
theorem takes_scan : Json.Takes scan LiteralText := by
  intro cs l rest h
  by_cases hminus : ∃ more, cs = '-' :: more
  · obtain ⟨more, rfl⟩ := hminus
    obtain ⟨text, htext, rfl⟩ := exists_of_scanUnsigned (scan_minus more ▸ h)
    exact ⟨_, htext, rfl⟩
  · have hscan : scan cs = scanUnsigned false cs := by
      unfold scan
      split
      next negative cs' heq =>
      split at heq
      · exact absurd ⟨_, rfl⟩ hminus
      · cases heq
        rfl
    obtain ⟨text, htext, rfl⟩ := exists_of_scanUnsigned (hscan ▸ h)
    exact ⟨_, htext, rfl⟩

end NumberLiteral

namespace Json

open NumberLiteral

variable {cs rest : Points}

/-! ## Blanks and words -/

theorem gap_takeWhile (cs : Points) : Gap (cs.takeWhile isBlank) := by
  intro p hp
  have hblank := List.mem_takeWhile_imp hp
  cases p with
  | half n => cases hblank
  | char c =>
    simp only [isBlank, CodePoint.is, Bool.or_eq_true, beq_iff_eq] at hblank
    simp only [CodePoint.char.injEq]
    rcases hblank with ((h | h) | h) | h
    · exact .inl h
    · exact .inr (.inl h)
    · exact .inr (.inr (.inl h))
    · exact .inr (.inr (.inr h))

/-- What is skipped is a gap. -/
theorem exists_gap_skip (cs : Points) : ∃ gap, Gap gap ∧ cs = gap ++ skip cs :=
  ⟨_, gap_takeWhile cs, List.takeWhile_append_dropWhile.symm⟩

theorem eq_append_of_after? :
    ∀ {word : List Char} {cs : Points}, after? word cs = some rest → cs = Points.ofChars word ++ rest
  | [], _, h => Option.some.inj h
  | w :: word, p :: cs, h => by
    rw [after?] at h
    split at h
    · next hp => rw [hp, eq_append_of_after? h, Points.ofChars_cons, List.cons_append]
    · cases h
  | _ :: _, [], h => nomatch h

theorem takes_word? : Takes word? Scalar := by
  intro cs v rest h
  obtain ⟨⟨word, value⟩, hword, hafter⟩ := List.exists_of_findSome?_eq_some h
  obtain ⟨rest', hrest, heq⟩ := Option.map_eq_some_iff.mp hafter
  cases heq
  refine ⟨Points.ofChars word, ?_, eq_append_of_after? hrest⟩
  simp only [words, List.mem_cons, List.not_mem_nil, or_false, Prod.mk.injEq] at hword
  rcases hword with ⟨rfl, rfl⟩ | ⟨rfl, rfl⟩ | ⟨rfl, rfl⟩
  · exact .null
  · exact .trueWord
  · exact .falseWord

theorem takes_number? : Takes number? Scalar := by
  intro cs v rest h
  rw [number?] at h
  split at h
  · cases h
  · next literal left hscan =>
    obtain ⟨text, htext, hchars⟩ := takes_scan hscan
    have hcs := Points.eq_append_drop hchars
    dsimp only at h
    split at h
    · next hinteger =>
      split at h
      · cases h
      · next hdigits =>
        cases h
        exact ⟨_, .integer htext hinteger (Nat.le_of_not_lt hdigits), hcs⟩
    · next hinteger =>
      split at h
      · next hfinite =>
        cases h
        exact ⟨_, .float htext (by simpa using hinteger) hfinite, hcs⟩
      · cases h

/-! ## Strings -/

theorem exists_of_fourDigits {n : Nat} (h : fourDigits cs = some (n, rest)) :
    ∃ ds, FourDigits ds n ∧ cs = Points.ofChars ds ++ rest := by
  unfold fourDigits at h
  split at h
  · next a b c d more =>
    split at h
    · next hall =>
      cases h
      exact ⟨[a, b, c, d], ⟨rfl, List.all_eq_true.mp hall, rfl⟩, rfl⟩
    · cases h
  · cases h

theorem exists_of_lowHalf? {n : Nat} (h : lowHalf? cs = some (n, rest)) :
    ∃ es low, FourDigits es (0xDC00 + low) ∧ low < 0x400 ∧ n = 0xDC00 + low ∧
      cs = numberText es ++ rest := by
  unfold lowHalf? at h
  split at h
  · obtain ⟨hfour, hlow⟩ := Option.filter_eq_some_iff.mp h
    obtain ⟨es, hes, rfl⟩ := exists_of_fourDigits hfour
    simp only [isLowHalf, Bool.and_eq_true, decide_eq_true_eq] at hlow
    obtain ⟨low, rfl⟩ := Nat.exists_eq_add_of_le hlow.1
    exact ⟨es, low, hes, by omega, rfl, rfl⟩
  · cases h

theorem FourDigits.read {ds : List Char} {n : Nat} (h : FourDigits ds n) (rest : Points) :
    fourDigits (Points.ofChars ds ++ rest) = some (n, rest) := by
  obtain ⟨hlength, hall, rfl⟩ := h
  exact fourDigits_append hlength (List.all_eq_true.mpr hall)

theorem lowHalf?_numberText {es : List Char} {low : Nat} (hes : FourDigits es (0xDC00 + low))
    (hlow : low < 0x400) (rest : Points) :
    lowHalf? (numberText es ++ rest) = some (0xDC00 + low, rest) := by
  show (fourDigits (Points.ofChars es ++ rest)).filter _ = _
  rw [hes.read]
  exact if_pos (by simp [isLowHalf]; omega)

/-- No escape for a second half is read exactly if the text does not begin with one. -/
theorem lowHalf?_eq_none_iff : lowHalf? cs = none ↔ ¬ BeginsLow cs := by
  cases h : lowHalf? cs with
  | none =>
    refine iff_of_true rfl ?_
    rintro ⟨es, low, more, hes, hlow, rfl⟩
    rw [lowHalf?_numberText hes hlow] at h
    cases h
  | some found =>
    obtain ⟨es, low, hes, hlow, -, heq⟩ := exists_of_lowHalf? h
    exact iff_of_false (by simp) (not_not.mpr ⟨es, low, found.2, hes, hlow, heq⟩)

/-- An escape by number that is read is one of a code point, whatever follows it, or one of a first half
that no second half follows. -/
theorem cases_of_numberedEscape {p : CodePoint} (h : numberedEscape cs = some (p, rest)) :
    (∃ text, CharText ('\\' :: 'u' :: text) p ∧ cs = text ++ rest) ∨
      ∃ ds, ∃ n : Fin 0x800, FourDigits ds (0xD800 + n) ∧ n.val < 0x400 ∧ ¬ BeginsLow rest ∧
        p = .half n ∧ cs = Points.ofChars ds ++ rest := by
  unfold numberedEscape at h
  split at h
  · cases h
  · next n afterFirst hfour =>
    obtain ⟨ds, hds, rfl⟩ := exists_of_fourDigits hfour
    split at h
    · next low afterLow hpair =>
      cases h
      split at hpair
      · next hhigh =>
        obtain ⟨es, low, hes, hlow, rfl, rfl⟩ := exists_of_lowHalf? hpair
        simp only [isHighHalf, Bool.and_eq_true, decide_eq_true_eq] at hhigh
        obtain ⟨high, rfl⟩ := Nat.exists_eq_add_of_le hhigh.1
        rw [Nat.add_sub_cancel_left, Nat.add_sub_cancel_left]
        exact .inl ⟨_, .halves hds (by omega) hes hlow, (List.append_assoc ..).symm⟩
      · cases hpair
    · next hnone =>
      cases h
      rcases CodePoint.number_cases n with ⟨k, rfl⟩ | hwhole
      · rw [CodePoint.ofNumber_half]
        by_cases hhigh : k.val < 0x400
        · rw [if_pos (by simp [isHighHalf]; omega)] at hnone
          exact .inr ⟨ds, k, hds, hhigh, lowHalf?_eq_none_iff.mp hnone, rfl, rfl⟩
        · exact .inl ⟨_, .low hds (Nat.le_of_not_lt hhigh), rfl⟩
      · rw [CodePoint.ofNumber_char hwhole]
        exact .inl ⟨_, .number hds hwhole, rfl⟩

theorem cases_of_escape {p : CodePoint} (h : escape cs = some (p, rest)) :
    (∃ text, CharText ('\\' :: text) p ∧ cs = text ++ rest) ∨
      ∃ ds, ∃ n : Fin 0x800, FourDigits ds (0xD800 + n) ∧ n.val < 0x400 ∧ ¬ BeginsLow rest ∧
        p = .half n ∧ .char '\\' :: cs = numberText ds ++ rest := by
  unfold escape at h
  split at h
  case h_9 more =>
    rcases cases_of_numberedEscape h with ⟨text, htext, rfl⟩ | ⟨ds, n, hds, hhigh, halone, rfl, rfl⟩
    · exact .inl ⟨_, htext, rfl⟩
    · exact .inr ⟨ds, n, hds, hhigh, halone, rfl, rfl⟩
  case h_10 => cases h
  all_goals
    cases h
    exact .inl ⟨_, .mark (by simp [marks]), rfl⟩

/-- **The body of a string is read as the text that it denotes.** -/
theorem exists_of_stringBody {body : Points} (h : stringBody cs = some (body, rest)) :
    ∃ text, Characters text body ∧ cs = text ++ .char '"' :: rest := by
  fun_induction stringBody cs generalizing body rest with
  | case1 => cases h
  | case2 =>
    cases h
    exact ⟨[], .nil, rfl⟩
  | case3 => cases h
  | case4 more p after hescape hle ih =>
    obtain ⟨⟨cs', rest'⟩, hbody, heq⟩ := Option.map_eq_some_iff.mp h
    cases heq
    obtain ⟨text, htext, rfl⟩ := ih hbody
    rcases cases_of_escape hescape with ⟨first, hfirst, rfl⟩ | ⟨ds, n, hds, hhigh, halone, rfl, heq⟩
    · exact ⟨_, .cons hfirst htext, by simp⟩
    · exact ⟨_, .high hds hhigh (fun hlow => halone (hlow.append _)) htext, by
        rw [heq, List.append_assoc]⟩
  | case5 => cases h
  | case6 => cases h
  | case7 p more hquote hslash hcontrol ih =>
    obtain ⟨⟨cs', rest'⟩, hbody, heq⟩ := Option.map_eq_some_iff.mp h
    cases heq
    obtain ⟨text, htext, rfl⟩ := ih hbody
    have hplain : ∀ c : Char, p = c → ¬ c < ' ' := by
      rintro c rfl hc
      exact hcontrol (decide_eq_true hc)
    exact ⟨_, .cons (.plain hplain hquote hslash) htext, by simp⟩

theorem takes_string? : Takes string? StringText := by
  intro cs s rest h
  unfold string? at h
  split at h
  · obtain ⟨text, htext, rfl⟩ := exists_of_stringBody h
    exact ⟨_, .mk htext, by simp⟩
  · cases h

/-! ## Lists and maps -/

variable {α : Type} {read : Points → Option (α × Points)} {form : Points → α → Prop} {a : α}

theorem read_of_progress {left : {rest : Points // rest.length < cs.length}}
    (h : progress read cs = some (a, left)) : read cs = some (a, left.val) := by
  rw [progress] at h
  split at h
  · cases h
  · next heq =>
    split at h
    · cases h
      exact heq
    · cases h

/-- What is read between blanks has a form with gaps on both sides. -/
theorem Takes.spaced (h : Takes read form) (hread : read (skip cs) = some (a, rest)) :
    ∃ text, Spaced form text a ∧ cs = text ++ skip rest := by
  obtain ⟨before, hbefore, hcs⟩ := exists_gap_skip cs
  obtain ⟨inner, hinner, hskip⟩ := h hread
  obtain ⟨after, hafter, hrest⟩ := exists_gap_skip rest
  refine ⟨_, ⟨before, inner, after, rfl, hbefore, hafter, hinner⟩, ?_⟩
  calc cs = before ++ (inner ++ rest) := by rw [← hskip, ← hcs]
    _ = before ++ (inner ++ (after ++ skip rest)) := by rw [← hrest]
    _ = before ++ (inner ++ after) ++ skip rest := by simp only [List.append_assoc]

variable {read : Points → Option (Value × Points)} {part : Points → Value → Prop} {v : Value}

/-- The items that are read are a row, up to the bracket that closes the list. -/
theorem Takes.items (h : Takes read part) {values : List Value}
    (hitems : items (progress read) cs = some (values, rest)) :
    ∃ text, Row (Spaced part) text values ∧ cs = text ++ .char ']' :: rest := by
  fun_induction Json.items (progress read) cs generalizing values rest with
  | case1 => cases hitems
  | case2 cs value left hread after hend =>
    cases hitems
    obtain ⟨text, htext, hcs⟩ := h.spaced (read_of_progress hread)
    exact ⟨text, .last htext, hend ▸ hcs⟩
  | case3 cs value left hread after hmore ih =>
    obtain ⟨⟨more, rest'⟩, hmores, heq⟩ := Option.map_eq_some_iff.mp hitems
    cases heq
    obtain ⟨text, htext, hcs⟩ := h.spaced (read_of_progress hread)
    obtain ⟨texts, htexts, rfl⟩ := ih hmores
    refine ⟨_, .more htext htexts, ?_⟩
    rw [hcs, hmore, List.append_assoc, List.cons_append]
  | case4 => cases hitems

theorem exists_of_key? {name : Points} (h : key? cs = some (name, rest)) :
    ∃ text, Spaced StringText text name ∧ cs = text ++ .char ':' :: rest := by
  rw [key?] at h
  split at h
  · cases h
  · next key left hstring =>
    obtain ⟨text, htext, hcs⟩ := takes_string?.spaced hstring
    split at h
    · next after hcolon =>
      cases h
      exact ⟨text, htext, hcolon ▸ hcs⟩
    · cases h

/-- The members that are read are a row, up to the brace that closes the map. -/
theorem Takes.members (h : Takes read part) {pairs : List (Points × Value)}
    (hmembers : members (progress read) cs = some (pairs, rest)) :
    ∃ text, Row (Member part) text pairs ∧ cs = text ++ .char '\x7d' :: rest := by
  fun_induction Json.members (progress read) cs generalizing pairs rest with
  | case1 => cases hmembers
  | case2 => cases hmembers
  | case3 cs name left hkey value left' hread after hend =>
    cases hmembers
    obtain ⟨key, hkeyText, hcs⟩ := exists_of_key? (read_of_progress hkey)
    obtain ⟨text, htext, hleft⟩ := h.spaced (read_of_progress hread)
    refine ⟨_, .last ⟨key, text, rfl, hkeyText, htext⟩, ?_⟩
    rw [hcs, hleft, hend, List.append_assoc, List.cons_append]
  | case4 cs name left hkey value left' hread after hmore ih =>
    obtain ⟨⟨more, rest'⟩, hmores, heq⟩ := Option.map_eq_some_iff.mp hmembers
    cases heq
    obtain ⟨key, hkeyText, hcs⟩ := exists_of_key? (read_of_progress hkey)
    obtain ⟨text, htext, hleft⟩ := h.spaced (read_of_progress hread)
    obtain ⟨texts, htexts, hafter⟩ := ih hmores
    refine ⟨_, .more ⟨key, text, rfl, hkeyText, htext⟩ htexts, ?_⟩
    rw [hcs, hleft, hmore, hafter]
    simp only [List.append_assoc, List.cons_append]
  | case5 => cases hmembers

/-! ## Values and texts -/

/-- A gap before a row belongs to the first text in it. -/
theorem Row.gap_append {β : Type} {form : Points → β → Prop} {gap : Points}
    (h : ∀ text b, form text b → form (gap ++ text) b) {text : Points} {bs : List β}
    (hrow : Row form text bs) : Row form (gap ++ text) bs := by
  cases hrow with
  | last hlast => exact .last (h _ _ hlast)
  | more hfirst hmore =>
    rw [← List.append_assoc]
    exact .more (h _ _ hfirst) hmore

theorem Spaced.gap_append {gap : Points} (hgap : Gap gap) {text : Points} {a : α}
    {form : Points → α → Prop} (h : Spaced form text a) : Spaced form (gap ++ text) a := by
  obtain ⟨before, inner, after, rfl, hbefore, hafter, hinner⟩ := h
  refine ⟨gap ++ before, inner, after, (List.append_assoc ..).symm, ?_, hafter, hinner⟩
  exact fun c hc => (List.mem_append.mp hc).elim (hgap c) (hbefore c)

theorem Member.gap_append {gap : Points} (hgap : Gap gap) {text : Points}
    {pair : Points × Value} (h : Member part text pair) : Member part (gap ++ text) pair := by
  obtain ⟨key, value, rfl, hkey, hvalue⟩ := h
  exact ⟨gap ++ key, value, (List.append_assoc ..).symm, hkey.gap_append hgap, hvalue⟩

/-- Members that are read are the map that they make. -/
theorem nested_ofMembers {text : Points} {pairs : List (Points × Value)}
    (h : Row (Member part) text pairs) :
    Nested part ('\x7b' :: (text ++ [.char '\x7d'])) (ofMembers pairs) :=
  .map h (Assoc.keys_ofPairs pairs) fun name => Assoc.get?_ofPairs name pairs

theorem takes_word?_or_number? : Takes (fun cs => (word? cs).or (number? cs)) Scalar := by
  intro cs v rest h
  rcases Option.or_eq_some_iff.mp h with h | ⟨-, h⟩
  · exact takes_word? h
  · exact takes_number? h

/-- **A value is read from a text that denotes it.** The induction is on the nesting that is left. -/
theorem takes_value? (levels : Nat) : Takes (value? levels) (Denotes levels) := by
  have hstring : ∀ {cs v rest}, (stringBody cs).map (fun found =>
      (Value.ofPoints found.1, found.2)) = some (v, rest) →
      ∃ text, Scalar text v ∧ .char '"' :: cs = text ++ rest := by
    intro cs v rest h
    obtain ⟨⟨body, rest'⟩, hbody, heq⟩ := Option.map_eq_some_iff.mp h
    cases heq
    obtain ⟨text, htext, rfl⟩ := exists_of_stringBody hbody
    exact ⟨_, .string (.mk htext), by simp⟩
  induction levels with
  | zero =>
    intro cs v rest h
    unfold value? at h
    split at h
    · exact hstring h
    · cases h
    · cases h
    · exact takes_word?_or_number? h
  | succ levels ih =>
    intro cs v rest h
    unfold value? at h
    split at h
    · obtain ⟨text, htext, hcs⟩ := hstring h
      exact ⟨text, .inl htext, hcs⟩
    · next inner =>
      obtain ⟨gap, hgap, hinner⟩ := exists_gap_skip inner
      dsimp only at h
      split at h
      · next after hend =>
        cases h
        rw [hend] at hinner
        exact ⟨_, .inr (.emptyList hgap), by simp [hinner]⟩
      · obtain ⟨⟨values, rest'⟩, hitems, heq⟩ := Option.map_eq_some_iff.mp h
        cases heq
        obtain ⟨text, hrow, hskip⟩ := ih.items hitems
        rw [hskip] at hinner
        exact ⟨_, .inr (.list (hrow.gap_append fun _ _ => Spaced.gap_append hgap)),
          by simp [hinner]⟩
    · next inner =>
      obtain ⟨gap, hgap, hinner⟩ := exists_gap_skip inner
      dsimp only at h
      split at h
      · next after hend =>
        cases h
        rw [hend] at hinner
        exact ⟨_, .inr (.emptyMap hgap), by simp [hinner]⟩
      · obtain ⟨⟨pairs, rest'⟩, hmembers, heq⟩ := Option.map_eq_some_iff.mp h
        cases heq
        obtain ⟨text, hrow, hskip⟩ := ih.members hmembers
        rw [hskip] at hinner
        exact ⟨_, .inr (nested_ofMembers (hrow.gap_append fun _ _ => Member.gap_append hgap)),
          by simp [hinner]⟩
    · obtain ⟨text, htext, hcs⟩ := takes_word?_or_number? h
      exact ⟨text, .inl htext, hcs⟩

end Json

end ComponentTree
