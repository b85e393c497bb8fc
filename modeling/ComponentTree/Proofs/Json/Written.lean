import ComponentTree.Proofs.Json.Accepted

/-!
# Written JSON

What is written for a descriptor tree is a JSON text that denotes its data (`jsonText_generate`), and it
stays one if a line feed is put after it. The writer escapes every control character, so the only ones in
a written text are the line feeds of the indentation (`legible_write`): its lines do not end in any other
way, whoever reads them.
-/

namespace ComponentTree

namespace Json

open NumberLiteral

/-! ## Control characters -/

/-- A text without control characters but line feeds. -/
def Legible (text : Points) : Prop := ∀ p ∈ text, p = .char '\n' ∨ isControl p = false

instance (text : Points) : Decidable (Legible text) :=
  List.decidableBAll (fun p => p = CodePoint.char '\n' ∨ isControl p = false) text

variable {text text' : Points} {cs ds : List Char} {p : CodePoint} {c : Char}

theorem isControl_char_eq_false : isControl (.char c) = false ↔ ¬ c < ' ' := decide_eq_false_iff_not

theorem legible_nil : Legible [] := by decide

theorem Legible.append (h : Legible text) (h' : Legible text') : Legible (text ++ text') :=
  fun p hp => (List.mem_append.mp hp).elim (h p) (h' p)

theorem Legible.cons (hp : isControl p = false) (h : Legible text) : Legible (p :: text) :=
  List.forall_mem_cons.mpr ⟨.inr hp, h⟩

/-- Rows of characters are joined as texts are. -/
theorem Legible.append_chars (h : Legible (.ofChars cs)) (h' : Legible (.ofChars ds)) :
    Legible (.ofChars (cs ++ ds)) := Points.ofChars_append cs ds ▸ h.append h'

theorem Legible.return_not_mem (h : Legible text) : CodePoint.char '\r' ∉ text := by
  intro hmem
  rcases h _ hmem with heq | hcontrol
  · cases heq
  · exact absurd hcontrol (by decide)

theorem legible_of_allDigits (h : AllDigits ds) : Legible (.ofChars ds) := by
  intro p hp
  obtain ⟨c, hc, rfl⟩ := Points.mem_ofChars.mp hp
  have hdigit := h c hc
  simp only [Char.isDigit, Bool.and_eq_true, decide_eq_true_eq] at hdigit
  refine .inr (isControl_char_eq_false.mpr fun hcontrol => ?_)
  have hzero : (48 : Nat) ≤ c.toNat := hdigit.1
  have hblank : c.toNat < 32 := hcontrol
  omega

/-! ## Parts of written texts -/

/-- The signs, the point and the mark of a literal are no control characters either. -/
theorem legible_of_literalText {l : NumberLiteral} (h : LiteralText cs l) : Legible (.ofChars cs) := by
  have hminus : ∀ negative, Legible (.ofChars (if negative = true then ['-'] else [])) := by decide
  have hwhole : ∀ {ds}, IsWhole ds → Legible (.ofChars ds) := by
    rintro ds (rfl | ⟨-, hall, -⟩)
    · decide
    · exact legible_of_allDigits hall
  have hfraction : ∀ {text ds}, FractionText text ds → Legible (.ofChars text) := by
    rintro text ds (_ | ⟨-, hall⟩)
    · exact legible_nil
    · exact (legible_of_allDigits hall).cons (by decide)
  have hsign : ∀ {text negative}, ExponentSign text negative → Legible (.ofChars text) := by
    rintro text negative (_ | _ | _) <;> decide
  have hexponent : ∀ {text value}, ExponentText text value → Legible (.ofChars text) := by
    rintro text value (_ | ⟨hmark, h, -, hall⟩)
    · exact legible_nil
    · refine ((hsign h).append_chars (legible_of_allDigits hall)).cons ?_
      rcases hmark with rfl | rfl <;> decide
  obtain ⟨negative, h, h', h''⟩ := h
  exact (hminus negative).append_chars
    ((hwhole h).append_chars ((hfraction h').append_chars (hexponent h'')))

/-- A text that is scanned to its end is a literal. -/
theorem legible_of_scan {l : NumberLiteral} (h : scan (cs ++ []) = some (l, [])) :
    Legible (.ofChars cs) := by
  obtain ⟨text, htext, hcs⟩ := takes_scan h
  rw [List.append_nil, List.append_nil] at hcs
  rw [hcs]
  exact legible_of_literalText htext

theorem legible_integerText (n : Int) : Legible (.ofChars (integerText n)) := by
  obtain ⟨l, hscan, -⟩ := scan_integerText n .nil
  exact legible_of_scan hscan

/-- What is no finite number is written as a name. -/
theorem legible_text (x : Binary64) : Legible (.ofChars (x.text Binary64.dataLayout)) := by
  cases h : x.isFinite with
  | true =>
    obtain ⟨l, hscan, -⟩ := scan_text Binary64.dataLayout h .nil
    exact legible_of_scan hscan
  | false =>
    cases x with
    | nan payload => exact (by decide : Legible (.ofString "NaN"))
    | number negative rank =>
      have hrank : Binary64.infinityRank ≤ rank.val := Nat.not_lt.mp (of_decide_eq_false h)
      have hzero : rank.val ≠ 0 := Nat.ne_of_gt (Nat.lt_of_lt_of_le (by decide) hrank)
      rw [Binary64.text, Binary64.magnitudeText, if_neg hzero, if_pos hrank]
      cases negative
      · exact (by decide : Legible (.ofString "Infinity"))
      · exact (by decide : Legible (.ofString "-Infinity"))

theorem legible_hexDigits (h : c < ' ') : Legible (.ofChars (Text.hexDigits 4 c.toNat)) := by
  have hcontrol : c.toNat < 32 := h
  have hdigits : ∀ n < 32, Legible (.ofChars (Text.hexDigits 4 n)) := by decide
  exact hdigits c.toNat hcontrol

theorem legible_escapedChar (c : Char) : Legible (.ofChars (escapedChar c)) := by
  have hpair : ∀ {mark : Char}, isControl mark = false → Legible (.ofChars ['\\', mark]) :=
    fun hmark => (legible_nil.cons hmark).cons (by decide)
  unfold escapedChar
  split_ifs with _ _ _ _ _ _ _ hcontrol
  iterate 7 exact hpair (by decide)
  · exact ((legible_hexDigits hcontrol).cons (by decide)).cons (by decide)
  · exact legible_nil.cons (isControl_char_eq_false.mpr hcontrol)

theorem legible_escaped : ∀ p : CodePoint, Legible (escaped p)
  | .char c => legible_escapedChar c
  | .half _ => legible_nil.cons rfl

variable {indent : Indent} {level : Nat} {rest : Points}

theorem legible_writeString (text : Points) (hrest : Legible rest) : Legible (writeString text rest) := by
  have hbody : Legible (text.flatMap escaped) := by
    intro p hp
    obtain ⟨q, -, hq⟩ := List.mem_flatMap.mp hp
    exact legible_escaped q p hq
  exact (hbody.append (hrest.cons (by decide))).cons (by decide)

theorem legible_newLine (hindent : ∀ unit ∈ indent, Legible (.ofChars unit)) (hrest : Legible rest) :
    Legible (newLine indent level rest) := by
  cases indent with
  | none => exact hrest
  | some unit =>
    have hunits : Legible (.ofChars (List.replicate level unit).flatten) := by
      intro p hp
      obtain ⟨c, hc, rfl⟩ := Points.mem_ofChars.mp hp
      obtain ⟨row, hrow, hc⟩ := List.mem_flatten.mp hc
      rw [List.eq_of_mem_replicate hrow] at hc
      exact hindent unit rfl _ (Points.mem_ofChars.mpr ⟨c, hc, rfl⟩)
    exact List.forall_mem_cons.mpr ⟨.inl rfl, hunits.append hrest⟩

theorem legible_separator (hindent : ∀ unit ∈ indent, Legible (.ofChars unit)) (hrest : Legible rest) :
    Legible (separator indent level rest) := by
  cases indent with
  | none => exact (hrest.cons (by decide)).cons (by decide)
  | some unit => exact (legible_newLine hindent hrest).cons (by decide)

/-! ## Written texts -/

mutual
/-- **A written text has no control characters but line feeds**, under an indentation that has no
others. -/
theorem legible_write (hindent : ∀ unit ∈ indent, Legible (.ofChars unit)) (level : Nat) {rest : Points}
    (hrest : Legible rest) : ∀ v : Value, Legible (write indent level v rest)
  | .null => (by decide : Legible (.ofString "null")).append hrest
  | .bool true => (by decide : Legible (.ofString "true")).append hrest
  | .bool false => (by decide : Legible (.ofString "false")).append hrest
  | .int n => (legible_integerText n).append hrest
  | .float x => (legible_text x).append hrest
  | .str s => legible_writeString s hrest
  | .broken text => legible_writeString text.points hrest
  | .list [] => (by decide : Legible [.char '[', .char ']']).append hrest
  | .list (item :: items) => by
    have hend : Legible (newLine indent level (.char ']' :: rest)) :=
      legible_newLine hindent (hrest.cons (by decide))
    have hitems := legible_writeItems hindent (level + 1) hend items
    have hitem := legible_write hindent (level + 1) hitems item
    exact (legible_newLine hindent hitem).cons (by decide)
  | .dict _ [] => (by decide : Legible [.char '\x7b', .char '\x7d']).append hrest
  | .dict _ ((key, value) :: entries) => by
    have hend : Legible (newLine indent level (.char '\x7d' :: rest)) :=
      legible_newLine hindent (hrest.cons (by decide))
    have hentries := legible_writeEntries hindent (level + 1) hend entries
    have hvalue := legible_write hindent (level + 1) hentries value
    have hmember := legible_writeString key.points ((by decide : Legible [.char ':', .char ' ']).append hvalue)
    exact (legible_newLine hindent hmember).cons (by decide)
  | .tuple items => legible_writeString (Value.tuple items).display hrest
  | .element type props children =>
    legible_writeString (Value.element type props children).display hrest
  | .fragment => legible_writeString Value.fragment.display hrest
  | .component c => legible_writeString (Value.component c).display hrest

theorem legible_writeItems (hindent : ∀ unit ∈ indent, Legible (.ofChars unit)) (level : Nat)
    {rest : Points} (hrest : Legible rest) :
    ∀ items : List Value, Legible (writeItems indent level items rest)
  | [] => hrest
  | item :: items => by
    have hitems := legible_writeItems hindent level hrest items
    exact legible_separator hindent (legible_write hindent level hitems item)

theorem legible_writeEntries (hindent : ∀ unit ∈ indent, Legible (.ofChars unit)) (level : Nat)
    {rest : Points} (hrest : Legible rest) :
    ∀ entries : Entries, Legible (writeEntries indent level entries rest)
  | [] => hrest
  | (key, value) :: entries => by
    have hentries := legible_writeEntries hindent level hrest entries
    have hvalue := legible_write hindent level hentries value
    have hmember := legible_writeString key.points ((by decide : Legible [.char ':', .char ' ']).append hvalue)
    exact legible_separator hindent hmember
end

/-- Indentations by spaces have no control characters at all. -/
theorem legible_spaces (n : Int) : ∀ unit ∈ Indent.spaces n, Legible (.ofChars unit) := by
  intro unit hunit p hp
  cases hunit
  obtain ⟨c, hc, rfl⟩ := Points.mem_ofChars.mp hp
  rw [List.eq_of_mem_replicate hc]
  exact .inr (by decide)

/-- Written data denotes the data. -/
theorem denotes_write {v : Value} (hindent : indent.Blank) (hdata : v.IsData)
    (hkept : v.numbersKept = true) : Denotes v.nesting (write indent 0 v []) v := by
  have hread := (reads_data hindent hdata hkept (Nat.le_refl v.nesting) : Reads indent 0 _ v).value .nil
  obtain ⟨text, htext, hwrite⟩ := takes_value? v.nesting hread
  rwa [hwrite, List.append_nil]

end Json

variable {indent : Json.Indent} {descriptor : Value}

/-- **What is generated is a JSON text of the data**, with any gap after it. -/
theorem jsonText_generate (hindent : indent.Blank) (hkept : descriptor.numbersKept = true)
    {gap : Points} (hgap : Json.Gap gap) :
    Json.JsonText descriptor.toData.nesting (generate indent descriptor ++ gap) descriptor.toData :=
  ⟨[], _, gap, rfl, by simp [Json.Gap], hgap, Json.denotes_write hindent
    (Value.isData_toData descriptor) (Value.numbersKept_toData hkept)⟩

/-- There is no carriage return in what is generated under an indentation that has none. -/
theorem return_not_mem_generate (hindent : ∀ unit ∈ indent, Json.Legible (.ofChars unit))
    (descriptor : Value) : CodePoint.char '\r' ∉ generate indent descriptor :=
  (Json.legible_write hindent 0 Json.legible_nil descriptor.toData).return_not_mem

end ComponentTree
