import ComponentTree.Proofs.Json.Denoted
import ComponentTree.Proofs.Json.RoundTrip
import Mathlib.Data.List.DropRight

/-!
# Exactly the JSON texts are read

The reader takes every text that denotes a value, wherever it stands (`Json.takesAll_value?`), and nothing
else. So a text is read if and only if it is a JSON text, as the value that it denotes
(`Json.read_eq_some_iff`).

A string that is decoded is told apart from one that is not: what a text denotes is never the text
itself, since a string is shorter than its text (`decoded_iff_jsonText`).
-/

namespace ComponentTree

/-! ## Number literals -/

namespace NumberLiteral

variable {text rest : List Char}

theorem scanFraction_fractionText {fraction : List Char} (h : FractionText text fraction)
    (hdigit : StartsWithout Char.isDigit rest) (hpoint : StartsWithout (· == '.') rest) :
    scanFraction (text ++ rest) = (fraction, rest) := by
  cases h with
  | absent => exact scanFraction_of_noPoint hpoint
  | digits hne hall => exact scanFraction_append hne hall hdigit

theorem scanExponent_digits {mark : Char} {sign cs : List Char} {negative : Bool} {exponent : Int}
    (hmark : mark = 'e' ∨ mark = 'E') (hsign : ExponentSign sign negative)
    (hcs : ∃ d more, cs = d :: more ∧ d.isDigit = true)
    (h : scanExponentDigits negative cs = some (exponent, rest)) :
    scanExponent (mark :: (sign ++ cs)) = (some exponent, rest) := by
  cases hsign with
  | absent =>
    obtain ⟨d, more, rfl, hd⟩ := hcs
    have hminus : d ≠ '-' := by
      rintro rfl
      cases hd
    have hplus : d ≠ '+' := by
      rintro rfl
      cases hd
    unfold scanExponent
    split <;> simp_all
  | plus => simp [scanExponent, hmark, h]
  | minus => simp [scanExponent, hmark, h]

theorem scanExponent_exponent {exponent : Option Int} (h : ExponentText text exponent)
    (hrest : NumberEnds rest) : scanExponent (text ++ rest) = (exponent, rest) := by
  cases h with
  | absent => exact scanExponent_of_noMark hrest.noMark
  | @digits mark sign ds negative hmark hsign hne hall =>
    rw [List.cons_append, List.append_assoc]
    refine scanExponent_digits hmark hsign ?_ (scanExponentDigits_append hne hall hrest.noDigit negative)
    obtain ⟨d, more, rfl⟩ := List.exists_cons_of_ne_nil hne
    exact ⟨d, more ++ rest, rfl, hall d List.mem_cons_self⟩

/-- An exponent begins with its mark, so what stops before a mark stops before it. -/
theorem ExponentText.startsWithout {kind : Char → Bool} {exponent : Option Int}
    (h : ExponentText text exponent) (hsmall : kind 'e' = false) (hlarge : kind 'E' = false)
    (hrest : StartsWithout kind rest) : StartsWithout kind (text ++ rest) := by
  cases h with
  | absent => exact hrest
  | digits hmark =>
    rcases hmark with rfl | rfl
    · exact .cons hsmall
    · exact .cons hlarge

theorem LiteralText.startsNumber {l : NumberLiteral} (h : LiteralText text l) : StartsNumber text := by
  obtain ⟨negative, hwhole, -, -⟩ := h
  obtain ⟨d, more, rfl, hd⟩ := hwhole.exists_cons
  cases negative with
  | true => exact ⟨'-', _, rfl, .inr rfl⟩
  | false => exact ⟨d, _, rfl, .inl hd⟩

/-- **A literal is scanned as a whole**, if it does not go on in what follows. -/
theorem scan_literalText {l : NumberLiteral} (h : LiteralText text l) (hrest : NumberEnds rest) :
    scan (text ++ rest) = some (l, rest) := by
  obtain ⟨negative, hwhole, hfraction, hexponent⟩ := h
  rename_i whole fractionText fraction exponentText exponent
  have hdigit := hexponent.startsWithout rfl rfl hrest.noDigit
  have hpoint := hexponent.startsWithout rfl rfl hrest.noPoint
  have hdigit' : StartsWithout Char.isDigit (fractionText ++ (exponentText ++ rest)) := by
    cases hfraction with
    | absent => exact hdigit
    | digits => exact .cons rfl
  have hunsigned : scanUnsigned negative (whole ++ (fractionText ++ (exponentText ++ rest))) =
      some (⟨negative, whole, fraction, exponent⟩, rest) := by
    rw [scanUnsigned, scanWhole_append hwhole hdigit']
    simp only [Option.map_some, scanFraction_fractionText hfraction hdigit hpoint,
      scanExponent_exponent hexponent hrest]
  simp only [List.append_assoc]
  cases negative with
  | true => exact (scan_minus _).trans hunsigned
  | false =>
    obtain ⟨d, more, rfl, hd⟩ := hwhole.exists_cons
    exact (scan_of_digit hd _).trans hunsigned

end NumberLiteral

namespace Json

open NumberLiteral

variable {cs text rest : Points}

/-! ## Strings -/

/-- An escape by number that makes no pair is one of its own number. -/
theorem numberedEscape_alone {ds : List Char} {n : Nat} (hds : FourDigits ds n) (rest : Points)
    (halone : isHighHalf n = true → ¬ BeginsLow rest) :
    numberedEscape (Points.ofChars ds ++ rest) = some (.ofNumber n, rest) := by
  have hnone : (if isHighHalf n then lowHalf? rest else none) = none := by
    split
    · next hhigh => exact lowHalf?_eq_none_iff.mpr (halone hhigh)
    · rfl
  rw [numberedEscape, hds.read]
  simp only [hnone]

theorem stringBody_numberText {ds : List Char} {after : Points} {p : CodePoint}
    (h : numberedEscape (Points.ofChars ds ++ after) = some (p, rest)) (hlength : rest.length ≤ after.length) :
    stringBody (numberText ds ++ after) = (stringBody rest).map fun (body, rest) => (p :: body, rest) := by
  have hescape : escape (.char 'u' :: (Points.ofChars ds ++ after)) = some (p, rest) := h
  exact stringBody_escape hescape (by simp; omega)

/-- One code point is read, however it is written. -/
theorem stringBody_charText {p : CodePoint} (h : CharText text p) (rest : Points) :
    stringBody (text ++ rest) = (stringBody rest).map fun (body, rest) => (p :: body, rest) := by
  cases h with
  | plain hcontrol hquote hslash =>
    refine stringBody_plain ?_ hquote hslash rest
    cases p with
    | char c => exact decide_eq_false (hcontrol c rfl)
    | half n => rfl
  | @mark m c h =>
    have hescape : escape (.char m :: rest) = some (.char c, rest) := by
      simp only [marks, List.mem_cons, Prod.mk.injEq, List.not_mem_nil, or_false] at h
      rcases h with ⟨rfl, rfl⟩ | ⟨rfl, rfl⟩ | ⟨rfl, rfl⟩ | ⟨rfl, rfl⟩ | ⟨rfl, rfl⟩ | ⟨rfl, rfl⟩ |
        ⟨rfl, rfl⟩ | ⟨rfl, rfl⟩ <;> rfl
    exact stringBody_escape hescape (by simp)
  | @number ds n hds hwhole =>
    have hhigh : isHighHalf n = false := by simp [isHighHalf]; omega
    have hescape := numberedEscape_alone hds rest (by simp [hhigh])
    rw [CodePoint.ofNumber_char hwhole] at hescape
    exact stringBody_numberText hescape (Nat.le_refl _)
  | @halves ds es high low hds hhigh hes hlow =>
    have hhigh' : isHighHalf (0xD800 + high) = true := by simp [isHighHalf]; omega
    have hescape : numberedEscape (Points.ofChars ds ++ (numberText es ++ rest)) =
        some (.char (Char.ofNat (0x10000 + high * 0x400 + low)), rest) := by
      rw [numberedEscape, hds.read]
      simp [hhigh', lowHalf?_numberText hes hlow]
    rw [List.append_assoc]
    exact stringBody_numberText hescape (by simp)
  | @low ds n hds hlow =>
    have hhigh : isHighHalf (0xD800 + n) = false := by simp [isHighHalf]; omega
    have hescape := numberedEscape_alone hds rest (by simp [hhigh])
    rw [CodePoint.ofNumber_half] at hescape
    exact stringBody_numberText hescape (Nat.le_refl _)

theorem stringBody_characters {body : Points} (h : Characters text body) (rest : Points) :
    stringBody (text ++ .char '"' :: rest) = some (body, rest) := by
  induction h with
  | nil =>
    show stringBody (.char '"' :: rest) = _
    rw [stringBody]
  | cons hfirst _ ih =>
    rw [List.append_assoc, stringBody_charText hfirst, ih]
    rfl
  | @high _ _ texts _ hds _ halone _ ih =>
    -- the quote ends the string, so no escape for a second half reaches beyond it
    have halone' : ¬ BeginsLow (texts ++ .char '"' :: rest) := fun hlow => halone hlow.of_append_quote
    have hescape := numberedEscape_alone hds _ fun _ => halone'
    rw [CodePoint.ofNumber_half] at hescape
    rw [List.append_assoc, stringBody_numberText hescape (Nat.le_refl _), ih]
    rfl

/-! ## Forms that are taken -/

variable {α : Type} {read : Points → Option (α × Points)} {form : Points → α → Prop} {a : α}

/-- The property that a reader takes every text of a form, wherever it stands, unless a number could go
on in what follows. No text of the form begins like a gap or like the end of a list. -/
structure TakesAll (read : Points → Option (α × Points)) (form : Points → α → Prop) :
    Prop where
  starts : ∀ ⦃text a⦄, form text a → ∃ c more, text = c :: more ∧ (isBlank c || c == .char ']') = false
  value : ∀ ⦃text a rest⦄, form text a → NumberStops rest → read (text ++ rest) = some (a, rest)

theorem Gap.isBlank (h : Gap cs) : ∀ p ∈ cs, Json.isBlank p = true := by
  intro p hp
  rcases h p hp with rfl | rfl | rfl | rfl <;> rfl

/-- No number goes on in a gap. -/
theorem Gap.numberStops (h : Gap cs) (hrest : NumberStops rest) : NumberStops (cs ++ rest) := by
  cases cs with
  | nil => exact hrest
  | cons c cs =>
    apply StartsWithout.cons
    rcases h c List.mem_cons_self with rfl | rfl | rfl | rfl <;> rfl

/-- Between gaps, what has a form is read up to what follows the gap behind it. -/
theorem TakesAll.spaced (h : TakesAll read form) (htext : Spaced form text a)
    (hrest : NumberStops rest) (hblank : StartsWithout Json.isBlank rest) :
    StartsItem (skip (text ++ rest)) ∧ ∃ left, read (skip (text ++ rest)) = some (a, left) ∧
      left.length < (skip (text ++ rest)).length ∧ skip left = rest := by
  obtain ⟨before, inner, after, rfl, hbefore, hafter, hinner⟩ := htext
  obtain ⟨c, more, rfl, hc⟩ := h.starts hinner
  have hstarts : StartsItem (c :: more ++ (after ++ rest)) := .cons hc
  have hskip : skip (before ++ (c :: more ++ after) ++ rest) = c :: more ++ (after ++ rest) := by
    rw [List.append_assoc, List.append_assoc]
    exact skip_append before hbefore.isBlank hstarts.noBlank
  rw [hskip]
  refine ⟨hstarts, after ++ rest, h.value hinner (hafter.numberStops hrest), ?_,
    skip_append after hafter.isBlank hblank⟩
  simp only [List.cons_append, List.length_cons, List.length_append]
  omega

theorem progress_of_read {left : Points} (hread : read cs = some (a, left))
    (hlt : left.length < cs.length) : progress read cs = some (a, ⟨left, hlt⟩) := by
  rw [progress, hread]
  simp only [dif_pos hlt]

/-! ## Lists and maps -/

variable {read : Points → Option (Value × Points)} {part : Points → Value → Prop}

/-- A row of items is read up to the bracket that closes the list. -/
theorem TakesAll.items (h : TakesAll read part) {values : List Value}
    (hrow : Row (Spaced part) text values) :
    StartsItem (skip (text ++ .char ']' :: rest)) ∧ ∀ cs, skip cs = skip (text ++ .char ']' :: rest) →
      Json.items (progress read) cs = some (values, rest) := by
  induction hrow with
  | @last text v hlast =>
    obtain ⟨hstarts, left, hread, hlt, hend⟩ :=
      h.spaced hlast (.cons rfl : NumberStops (.char ']' :: rest)) (.cons rfl)
    refine ⟨hstarts, fun cs hcs => ?_⟩
    rw [← hcs] at hread hlt
    exact items_last (progress_of_read hread hlt) hend
  | @more text texts v values hfirst _ ih =>
    rw [List.append_assoc, List.cons_append]
    obtain ⟨hstarts, left, hread, hlt, hmore⟩ :=
      h.spaced hfirst (.cons rfl : NumberStops (.char ',' :: (texts ++ .char ']' :: rest))) (.cons rfl)
    refine ⟨hstarts, fun cs hcs => ?_⟩
    rw [← hcs] at hread hlt
    rw [items_more (progress_of_read hread hlt) hmore, ih.2 _ rfl]
    rfl

theorem StringText.exists_cons {s : Points} (h : StringText text s) : ∃ more, text = .char '"' :: more := by
  obtain ⟨-⟩ := h
  exact ⟨_, rfl⟩

theorem takesAll_string? : TakesAll string? StringText where
  starts := by
    intro text s h
    obtain ⟨more, rfl⟩ := h.exists_cons
    exact ⟨.char '"', more, rfl, rfl⟩
  value := by
    rintro _ _ rest ⟨h⟩ -
    rw [List.cons_append, List.append_assoc]
    exact stringBody_characters h rest

/-- A key is read with the colon behind it. -/
theorem exists_key? {name : Points} (h : Spaced StringText text name) (rest : Points)
    (hcs : skip cs = skip (text ++ .char ':' :: rest)) :
    ∃ hlt, progress key? cs = some (name, ⟨rest, hlt⟩) := by
  obtain ⟨-, left, hread, hlt, hcolon⟩ :=
    takesAll_string?.spaced h (.cons rfl : NumberStops (.char ':' :: rest)) (.cons rfl)
  rw [← hcs] at hread hlt
  have hkey : key? cs = some (name, rest) := by
    rw [key?, hread]
    simp only [hcolon]
  have hle := length_skip_le left
  have hle' := length_skip_le cs
  rw [hcolon, List.length_cons] at hle
  exact ⟨by omega, progress_of_read hkey _⟩

/-- A row of members is read up to the brace that closes the map. -/
theorem TakesAll.members (h : TakesAll read part) {pairs : List (Points × Value)}
    (hrow : Row (Member part) text pairs) : ∀ cs, skip cs = skip (text ++ .char '\x7d' :: rest) →
      Json.members (progress read) cs = some (pairs, rest) := by
  induction hrow with
  | @last text pair hlast =>
    obtain ⟨key, value, rfl, hkey, hvalue⟩ := hlast
    intro cs hcs
    rw [List.append_assoc, List.cons_append] at hcs
    obtain ⟨_, hname⟩ := exists_key? hkey _ hcs
    obtain ⟨-, left, hread, hlt, hend⟩ :=
      h.spaced hvalue (.cons rfl : NumberStops (.char '\x7d' :: rest)) (.cons rfl)
    exact members_last hname rfl (progress_of_read hread hlt) hend
  | @more text texts pair pairs hfirst _ ih =>
    obtain ⟨key, value, rfl, hkey, hvalue⟩ := hfirst
    intro cs hcs
    rw [List.append_assoc, List.append_assoc, List.cons_append, List.cons_append] at hcs
    obtain ⟨_, hname⟩ := exists_key? hkey _ hcs
    obtain ⟨-, left, hread, hlt, hmore⟩ :=
      h.spaced hvalue (.cons rfl : NumberStops (.char ',' :: (texts ++ .char '\x7d' :: rest))) (.cons rfl)
    rw [members_more hname rfl (progress_of_read hread hlt) hmore, ih _ rfl]
    rfl

/-- A member begins with the quote of its key. -/
theorem starts_of_members {pairs : List (Points × Value)} (h : Row (Member part) text pairs)
    (rest : Points) : StartsWithout (· == .char '\x7d') (skip (text ++ rest)) := by
  have hmember : ∀ {text pair} rest, Member part text pair →
      StartsWithout (· == .char '\x7d') (skip (text ++ rest)) := by
    rintro _ pair rest ⟨key, value, rfl, ⟨before, inner, after, rfl, hbefore, -, hstring⟩, -⟩
    obtain ⟨more, rfl⟩ := hstring.exists_cons
    simp only [List.append_assoc, List.cons_append]
    rw [skip_append before hbefore.isBlank (.cons rfl)]
    exact .cons rfl
  cases h with
  | last hlast => exact hmember rest hlast
  | more hfirst =>
    rw [List.append_assoc]
    exact hmember _ hfirst

/-- A map is told by its keys, in the order in which members name them first, and by the last value of
each. -/
theorem eq_ofMembers {pairs entries : List (Points × Value)}
    (hkeys : entries.map Prod.fst = (pairs.map Prod.fst).eraseDups)
    (hvalues : ∀ name, Assoc.get? name entries = Assoc.get? name pairs.reverse) :
    Value.dict none (Value.keyed entries) = ofMembers pairs := by
  have hnodup : (entries.map Prod.fst).Nodup := by
    rw [hkeys, ← Assoc.keys_ofPairs]
    exact Assoc.nodup_keys_ofPairs pairs
  have hentries : entries = Assoc.ofPairs pairs := by
    rw [Assoc.ofPairs_eq_lasts, ← Assoc.filterMap_keys hnodup]
    simp only [hkeys, hvalues]
  rw [hentries]
  rfl

/-! ## Values -/

theorem Scalar.starts {v : Value} (h : Scalar text v) :
    ∃ c more, text = c :: more ∧ (isBlank c || c == .char ']') = false := by
  have hliteral : ∀ {text l}, LiteralText text l →
      ∃ p more, Points.ofChars text = p :: more ∧ (isBlank p || p == .char ']') = false := by
    intro text l h
    obtain ⟨c, more, rfl, hc⟩ := h.startsNumber
    exact ⟨c, _, rfl, startsItem_of_startsNumber ⟨c, more, rfl, hc⟩ [] c rfl⟩
  cases h with
  | null => exact ⟨.char 'n', _, rfl, rfl⟩
  | trueWord => exact ⟨.char 't', _, rfl, rfl⟩
  | falseWord => exact ⟨.char 'f', _, rfl, rfl⟩
  | string h => exact takesAll_string?.starts h
  | integer h => exact hliteral h
  | float h => exact hliteral h

/-- Whatever nesting is left, a scalar is read. -/
theorem takesAll_scalar (levels : Nat) : TakesAll (value? levels) Scalar where
  starts _ _ := Scalar.starts
  value := by
    intro text v rest h hrest
    cases h with
    | null => cases levels <;> rfl
    | trueWord => cases levels <;> rfl
    | falseWord => cases levels <;> rfl
    | string h =>
      obtain ⟨hcharacters⟩ := h
      rw [List.cons_append, List.append_assoc, List.singleton_append]
      unfold value?
      simp [stringBody_characters hcharacters]
    | integer h hinteger hdigits =>
      rw [value?_of_startsNumber h.startsNumber, number?_of_scan (scan_literalText h hrest.numberEnds)]
      simp only [hinteger, if_pos, if_neg (Nat.not_lt.mpr hdigits : ¬ maxIntegerDigits < _)]
    | float h hinteger hfinite =>
      rw [value?_of_startsNumber h.startsNumber, number?_of_scan (scan_literalText h hrest.numberEnds)]
      simp [hinteger, hfinite]

theorem TakesAll.nested {levels : Nat} (h : TakesAll (value? levels) part) :
    TakesAll (value? (levels + 1)) (Nested part) where
  starts := by
    intro text v hnested
    cases hnested <;> exact ⟨_, _, rfl, rfl⟩
  value := by
    intro text v rest hnested _
    cases hnested with
    | emptyList hgap =>
      have hskip := skip_append _ hgap.isBlank (.cons rfl : StartsWithout isBlank (.char ']' :: rest))
      rw [List.cons_append, List.append_assoc, List.singleton_append, value?]
      simp only [hskip]
    | list hrow =>
      obtain ⟨hstarts, hitems⟩ := h.items hrow
      rw [List.cons_append, List.append_assoc, List.singleton_append, value?_list hstarts,
        hitems _ (skip_of_starts hstarts.noBlank)]
      rfl
    | emptyMap hgap =>
      have hskip := skip_append _ hgap.isBlank (.cons rfl : StartsWithout isBlank (.char '\x7d' :: rest))
      rw [List.cons_append, List.append_assoc, List.singleton_append, value?]
      simp only [hskip]
    | map hrow hkeys hvalues =>
      have hmembers := h.members hrow (skip (_ ++ .char '\x7d' :: rest)) (List.dropWhile_idempotent ..)
      rw [List.cons_append, List.append_assoc, List.singleton_append,
        value?_map (starts_of_members hrow _), hmembers, eq_ofMembers hkeys hvalues]
      rfl

/-- **Every text that denotes a value is read as that value**, if the nesting that is left is enough
for it. -/
theorem takesAll_value? (levels : Nat) : TakesAll (value? levels) (Denotes levels) := by
  induction levels with
  | zero => exact takesAll_scalar 0
  | succ levels ih =>
    have hscalar := takesAll_scalar (levels + 1)
    constructor
    · rintro text v (h | h)
      · exact hscalar.starts h
      · exact ih.nested.starts h
    · rintro text v rest (h | h) hrest
      · exact hscalar.value h hrest
      · exact ih.nested.value h hrest

/-! ## Texts -/

/-- **A text is read if and only if it is a JSON text**, as the value that it denotes. -/
theorem read_eq_some_iff {text : Points} {v : Value} :
    Json.read text = some v ↔ JsonText maxNesting text v := by
  constructor
  · intro h
    rw [Json.read] at h
    split at h
    · next value rest hread =>
      obtain ⟨inner, hspaced, htext⟩ := (takes_value? maxNesting).spaced hread
      split at h
      · next hend =>
        cases h
        rw [List.isEmpty_iff.mp hend, List.append_nil] at htext
        rw [JsonText, htext]
        exact hspaced
      · cases h
    · cases h
  · intro h
    obtain ⟨-, left, hread, -, hend⟩ :=
      (takesAll_value? maxNesting).spaced h (.nil : NumberStops []) .nil
    rw [List.append_nil] at hread
    rw [Json.read, hread]
    simp [hend]

/-- A text that is no more nested than the reader goes down denotes what it is read as. -/
theorem read_eq_some_of_jsonText {levels : Nat} {text : Points} {v : Value} (hle : levels ≤ maxNesting)
    (h : JsonText levels text v) : Json.read text = some v :=
  read_eq_some_iff.mpr (h.imp fun _ _ _ hinner => hinner.mono hle)

/-! ## What texts denote -/

theorem Row.forall {form : Points → α → Prop} {p : α → Prop} {as : List α}
    (h : ∀ text a, form text a → p a) (hrow : Row form text as) : ∀ a ∈ as, p a := by
  induction hrow with
  | last hlast => exact List.forall_mem_singleton.mpr (h _ _ hlast)
  | more hfirst _ ih => exact List.forall_mem_cons.mpr ⟨h _ _ hfirst, ih⟩

theorem Spaced.exists_inner {form : Points → α → Prop} (h : Spaced form text a) :
    ∃ inner, form inner a := by
  obtain ⟨-, inner, -, -, -, -, hinner⟩ := h
  exact ⟨inner, hinner⟩

/-- A literal has at least as many digits as the integer that it denotes. -/
theorem length_toDigits_toInt {text : List Char} {l : NumberLiteral} (h : LiteralText text l) :
    (Nat.toDigits 10 l.toInt.natAbs).length ≤ l.whole.length := by
  obtain ⟨negative, hwhole, -, -⟩ := h
  rename_i whole _ fraction _ exponent
  have habs : (NumberLiteral.mk negative whole fraction exponent).toInt.natAbs = digitsValue whole := by
    cases negative <;> simp [toInt]
  obtain ⟨d, more, hcons, -⟩ := hwhole.exists_cons
  have hall : AllDigits whole := by
    rcases hwhole with rfl | ⟨-, hall, -⟩
    · simp [AllDigits]
    · exact hall
  rw [habs, Nat.length_toDigits_le_iff (by omega) (by rw [hcons]; exact Nat.succ_pos _)]
  exact digitsValue_lt hall

/-- **Every number in what a text denotes is one that can be kept**, at whatever depth. -/
theorem Denotes.numbersKept {levels : Nat} {v : Value} (h : Denotes levels text v) :
    v.numbersKept = true := by
  have hscalar : ∀ {text v}, Scalar text v → v.numbersKept = true := by
    intro text v h
    cases h with
    | integer h _ hdigits => exact decide_eq_true (Nat.le_trans (length_toDigits_toInt h) hdigits)
    | float _ _ hfinite => exact hfinite
    | string _ => exact Value.numbersKept_ofPoints _
    | _ => rfl
  induction levels generalizing text v with
  | zero => exact hscalar h
  | succ levels ih =>
    rcases h with h | h
    · exact hscalar h
    · have hspaced : ∀ text v, Spaced (Denotes levels) text v → v.numbersKept = true := by
        intro text v h
        obtain ⟨inner, hinner⟩ := h.exists_inner
        exact ih hinner
      cases h with
      | emptyList => rfl
      | list hrow => exact Value.numbersKeptItems_iff.mpr (hrow.forall hspaced)
      | emptyMap => rfl
      | @map _ pairs _ hrow hkeys hvalues =>
        have hpairs : ∀ pair ∈ pairs, pair.2.numbersKept = true := by
          refine hrow.forall fun text pair hmember => ?_
          obtain ⟨-, value, -, -, hvalue⟩ := hmember
          exact hspaced value pair.2 hvalue
        rw [eq_ofMembers hkeys hvalues]
        exact Value.numbersKept_dataMap hpairs

theorem CharText.ne_nil {p : CodePoint} (h : CharText text p) : text ≠ [] := by
  cases h <;> simp [numberText]

theorem Characters.length_le {body : Points} (h : Characters text body) :
    body.length ≤ text.length := by
  induction h with
  | nil => exact Nat.le_refl _
  | cons hfirst _ ih =>
    have hpos := List.length_pos_iff.mpr hfirst.ne_nil
    rw [List.length_cons, List.length_append]
    omega
  | high _ _ _ _ ih =>
    rw [numberText, List.length_cons, List.length_append, Points.length_ofChars, List.length_cons]
    omega

/-- Nothing but a string denotes a text. -/
theorem Denotes.stringText {levels : Nat} {s : Points} (h : Denotes levels text (.ofPoints s)) :
    StringText text s := by
  have hkind : ∀ {v : Value}, v = .ofPoints s → v.kindName = "str" :=
    fun hv => hv ▸ Value.kindName_ofPoints s
  have hscalar : ∀ {v}, Scalar text v → v = .ofPoints s → StringText text s := by
    intro v h hv
    cases h with
    | string h => exact Value.ofPoints_injective hv ▸ h
    | _ => exact absurd (hkind hv) (by simp [Value.kindName])
  have hnested : ∀ {part v}, Nested part text v → v ≠ .ofPoints s := by
    intro part v h hv
    cases h <;> exact absurd (hkind hv) (by simp [Value.kindName])
  cases levels with
  | zero => exact hscalar h rfl
  | succ levels =>
    rcases h with h | h
    · exact hscalar h rfl
    · exact absurd rfl (hnested h)

/-- A text is shorter than one that denotes it, by the quotes at least. -/
theorem JsonText.length_lt {levels : Nat} {text s : Points} (h : JsonText levels text (.ofPoints s)) :
    s.length < text.length := by
  obtain ⟨before, inner, after, rfl, -, -, hinner⟩ := h
  obtain ⟨hcharacters⟩ := hinner.stringText
  have hle := hcharacters.length_le
  simp only [List.length_append, List.length_cons]
  omega

end Json

/-! ## Decoding -/

section Decoding

open Json

variable {levels : Nat} {text : Points} {v : Value}

theorem decoded_of_jsonText (hle : levels ≤ maxNesting) (h : JsonText levels text v) :
    Value.decoded (.ofPoints text) = v := by
  rw [Value.decoded_ofPoints, read_eq_some_of_jsonText hle h, Option.getD_some]

/-- What a text denotes is never the text itself. -/
theorem decoded_ne_of_jsonText (hle : levels ≤ maxNesting) (h : JsonText levels text v) :
    Value.decoded (.ofPoints text) ≠ .ofPoints text := by
  rw [decoded_of_jsonText hle h]
  rintro rfl
  exact Nat.lt_irrefl _ h.length_lt

/-- A text that is not decoded stays as it is. -/
theorem decoded_cases (text : Points) :
    (∃ v, JsonText maxNesting text v) ∨ Value.decoded (.ofPoints text) = .ofPoints text := by
  cases hread : Json.read text with
  | none => exact .inr (by rw [Value.decoded_ofPoints, hread, Option.getD_none])
  | some v => exact .inl ⟨v, read_eq_some_iff.mp hread⟩

/-- Decoding keeps no number that reading does not keep. -/
theorem numbersKept_decoded_ofPoints (text : Points) :
    (Value.decoded (.ofPoints text)).numbersKept = true := by
  rcases decoded_cases text with ⟨v, h⟩ | h
  · obtain ⟨inner, hinner⟩ := h.exists_inner
    rw [decoded_of_jsonText (Nat.le_refl _) h]
    exact hinner.numbersKept
  · rw [h]
    exact Value.numbersKept_ofPoints text

theorem numbersKept_decoded_str (text : String) : (Value.decoded (.str text)).numbersKept = true :=
  Value.ofPoints_ofString text ▸ numbersKept_decoded_ofPoints text

/-- An escape for half of a character, with nothing beside it, denotes a text that is no string. -/
theorem decoded_half {ds : List Char} {n : Fin 0x800} (hds : FourDigits ds (0xD800 + n)) :
    ∃ broken : BrokenText, broken.points = [.half n] ∧
      Value.decoded (.ofPoints ('"' :: (numberText ds ++ [.char '"']))) = .broken broken := by
  have hcharacters : Characters (numberText ds) [.half n] := by
    rw [← List.append_nil (numberText ds)]
    by_cases hhigh : n.val < 0x400
    · refine .high hds hhigh ?_ .nil
      rintro ⟨es, low, more, -, -, h⟩
      cases h
    · exact .cons (.low hds (Nat.not_lt.mp hhigh)) .nil
  have hjson : JsonText 0 ('"' :: (numberText ds ++ [.char '"'])) (.ofPoints [.half n]) :=
    ⟨[], _, [], by simp, by simp [Gap], by simp [Gap], .string (.mk hcharacters)⟩
  refine ⟨⟨[.half n], rfl⟩, rfl, ?_⟩
  rw [decoded_of_jsonText (Nat.zero_le _) hjson]
  exact Value.ofPoints_broken ⟨[.half n], rfl⟩

/-- **Decoding accepts exactly JSON.** A text that is nested at most 200 levels deep, if it is a JSON
text at all, is decoded to something else if and only if it is a JSON text all of whose numbers can be
kept. It is decoded to what it denotes, and otherwise it stays as it is. In either case every number in
the result is finite, and if it is an integer it has at most 4300 digits. -/
theorem decoded_iff_jsonText (text : String) (hlevels : WithinLevels 200 text) :
    (Value.decoded (.str text) ≠ .str text ↔ ∃ levels v, JsonText levels text v) ∧
    (∀ levels v, JsonText levels text v → Value.decoded (.str text) = v) ∧
    ((¬ ∃ levels v, JsonText levels text v) → Value.decoded (.str text) = .str text) ∧
    (Value.decoded (.str text)).numbersKept = true := by
  have hle : 200 ≤ maxNesting := by decide
  rw [← Value.ofPoints_ofString]
  refine ⟨⟨fun hne => ?_, ?_⟩, fun levels v h => ?_, fun hnone => ?_,
    numbersKept_decoded_ofPoints text⟩
  · rcases decoded_cases text with ⟨v, h⟩ | h
    · exact ⟨maxNesting, v, h⟩
    · exact absurd h hne
  · rintro ⟨levels, v, h⟩
    exact decoded_ne_of_jsonText hle (hlevels levels v h)
  · exact decoded_of_jsonText hle (hlevels levels v h)
  · rcases decoded_cases text with ⟨v, h⟩ | h
    · exact absurd ⟨maxNesting, v, h⟩ hnone
    · exact h

/-- A JSON text with a repeated key, both halves of a character and a negative zero. -/
def keptText : String := " \x7b\"a\":\"\\uD83D\\uDE00\", \"a\":[-0]\x7d\n"

/-- A text in which one word is no JSON, inside of a list and under a key that is repeated. -/
def offendingText : String := "\x7b\"a\":[NaN], \"a\":1\x7d"

theorem decoded_iff_jsonText_keptText :
    (WithinLevels 200 keptText ∧ ∃ levels v, JsonText levels keptText v) ∧
      WithinLevels 200 offendingText ∧ ¬ ∃ levels v, JsonText levels offendingText v := by
  have hkept : WithinLevels 200 keptText := withinLevels_of_length_le (by decide)
  have hoffending : WithinLevels 200 offendingText := withinLevels_of_length_le (by decide)
  have hdecoded : Value.decoded (.str keptText) =
      .dict none [(.str "a", .list [.int 0])] := by with_unfolding_all rfl
  have hstays : Value.decoded (.str offendingText) = .str offendingText := by with_unfolding_all rfl
  refine ⟨⟨hkept, (decoded_iff_jsonText keptText hkept).1.mp ?_⟩, hoffending, fun hjson => ?_⟩
  · rw [hdecoded]
    simp
  · exact (decoded_iff_jsonText offendingText hoffending).1.mpr hjson hstays

end Decoding

end ComponentTree
