import ComponentTree.Proofs.Data
import ComponentTree.Proofs.Decimal.Literal
import ComponentTree.Text.Digits

/-!
# JSON texts

What a JSON text is and which value it denotes, told by the forms of texts alone: `Denotes levels` relates
texts to values for texts with at most so many maps and lists inside of each other, and `JsonText` allows
blanks around one such text.

Only numbers that can be kept denote something: integers with at most 4300 digits, and other literals
in the range of the floating point numbers. So a text in which some other number stands, at whatever
place, denotes nothing. Number escapes for the two halves of a character denote that character if they
stand side by side. One of them by itself denotes a half.
-/

namespace ComponentTree

/-! ## Number literals -/

namespace NumberLiteral

/-- A fraction and the digits that it holds. -/
inductive FractionText : List Char → List Char → Prop
  | absent : FractionText [] []
  | digits {ds : List Char} (hne : ds ≠ []) (hall : AllDigits ds) : FractionText ('.' :: ds) ds

/-- The sign of an exponent, and whether it is negative. -/
inductive ExponentSign : List Char → Bool → Prop
  | absent : ExponentSign [] false
  | plus : ExponentSign ['+'] false
  | minus : ExponentSign ['-'] true

/-- An exponent and its value. -/
inductive ExponentText : List Char → Option Int → Prop
  | absent : ExponentText [] none
  | digits {mark : Char} {sign ds : List Char} {negative : Bool} (hmark : mark = 'e' ∨ mark = 'E')
      (hsign : ExponentSign sign negative) (hne : ds ≠ []) (hall : AllDigits ds) :
      ExponentText (mark :: (sign ++ ds))
        (some (if negative then - (digitsValue ds : Int) else digitsValue ds))

/-- A number literal and its parts. -/
inductive LiteralText : List Char → NumberLiteral → Prop
  | mk (negative : Bool) {whole fractionText fraction exponentText : List Char}
      {exponent : Option Int} (hwhole : IsWhole whole)
      (hfraction : FractionText fractionText fraction)
      (hexponent : ExponentText exponentText exponent) :
      LiteralText ((if negative then ['-'] else []) ++ (whole ++ (fractionText ++ exponentText)))
        ⟨negative, whole, fraction, exponent⟩

end NumberLiteral

namespace Json

open NumberLiteral
open Value (keyed)

/-! ## Blanks and rows -/

/-- Blanks only: spaces, tabs, line feeds and carriage returns. -/
def Gap (text : Points) : Prop :=
  ∀ p ∈ text, p = .char ' ' ∨ p = .char '\t' ∨ p = .char '\n' ∨ p = .char '\r'

variable {α : Type}

/-- A text with gaps on both sides. -/
def Spaced (form : Points → α → Prop) (text : Points) (a : α) : Prop :=
  ∃ before inner after, text = before ++ (inner ++ after) ∧ Gap before ∧ Gap after ∧ form inner a

/-- One text or several ones with commas between them. -/
inductive Row (form : Points → α → Prop) : Points → List α → Prop
  | last {text : Points} {a : α} (h : form text a) : Row form text [a]
  | more {text texts : Points} {a : α} {as : List α} (h : form text a)
      (hmore : Row form texts as) : Row form (text ++ .char ',' :: texts) (a :: as)

/-! ## Strings -/

/-- The characters that an escape by one character denotes. -/
def marks : List (Char × Char) :=
  [('"', '"'), ('\\', '\\'), ('/', '/'), ('b', '\x08'), ('f', '\x0c'), ('n', '\n'), ('r', '\r'),
    ('t', '\t')]

/-- Four hexadecimal digits and the number that they denote. -/
def FourDigits (ds : List Char) (n : Nat) : Prop :=
  ds.length = 4 ∧ (∀ d ∈ ds, Text.isHexDigit d = true) ∧ Text.numberOf 16 ds = n

/-- An escape by number. -/
def numberText (ds : List Char) : Points := .ofChars ('\\' :: 'u' :: ds)

/-- How one code point is written in a string, whatever follows it. -/
inductive CharText : Points → CodePoint → Prop
  | plain {p : CodePoint} (hcontrol : ∀ c : Char, p = c → ¬ c < ' ') (hquote : p ≠ '"')
      (hslash : p ≠ '\\') : CharText [p] p
  | mark {m c : Char} (h : (m, c) ∈ marks) : CharText ['\\', m] c
  | number {ds : List Char} {n : Nat} (hds : FourDigits ds n) (hwhole : n < 0xD800 ∨ 0xDFFF < n) :
      CharText (numberText ds) (Char.ofNat n)
  | halves {ds es : List Char} {high low : Nat} (hds : FourDigits ds (0xD800 + high))
      (hhigh : high < 0x400) (hes : FourDigits es (0xDC00 + low)) (hlow : low < 0x400) :
      CharText (numberText ds ++ numberText es) (Char.ofNat (0x10000 + high * 0x400 + low))
  | low {ds : List Char} {n : Fin 0x800} (hds : FourDigits ds (0xD800 + n)) (hlow : 0x400 ≤ n.val) :
      CharText (numberText ds) (.half n)

/-- The text begins with an escape for a second half. -/
def BeginsLow (text : Points) : Prop :=
  ∃ es low more, FourDigits es (0xDC00 + low) ∧ low < 0x400 ∧ text = numberText es ++ more

/-- How code points are written one after the other. An escape for a first half by itself is not
followed by one for a second half. -/
inductive Characters : Points → Points → Prop
  | nil : Characters [] []
  | cons {text texts : Points} {p : CodePoint} {ps : Points} (h : CharText text p)
      (hmore : Characters texts ps) : Characters (text ++ texts) (p :: ps)
  | high {ds : List Char} {n : Fin 0x800} {texts ps : Points} (hds : FourDigits ds (0xD800 + n))
      (hhigh : n.val < 0x400) (halone : ¬ BeginsLow texts) (hmore : Characters texts ps) :
      Characters (numberText ds ++ texts) (.half n :: ps)

/-- A string between its quotes. -/
inductive StringText : Points → Points → Prop
  | mk {text ps : Points} (h : Characters text ps) : StringText ('"' :: (text ++ [.char '"'])) ps

/-! ## Values -/

/-- A text that is neither a list nor a map. -/
inductive Scalar : Points → Value → Prop
  | null : Scalar "null" .null
  | trueWord : Scalar "true" (.bool true)
  | falseWord : Scalar "false" (.bool false)
  | string {text s : Points} (h : StringText text s) : Scalar text (.ofPoints s)
  | integer {text : List Char} {l : NumberLiteral} (h : LiteralText text l)
      (hinteger : l.isInteger = true) (hdigits : l.whole.length ≤ 4300) :
      Scalar (.ofChars text) (.int l.toInt)
  | float {text : List Char} {l : NumberLiteral} (h : LiteralText text l)
      (hinteger : l.isInteger = false) (hfinite : l.toBinary64.isFinite = true) :
      Scalar (.ofChars text) (.float l.toBinary64)

/-- A key and a value with a colon between them. -/
def Member (part : Points → Value → Prop) (text : Points) (pair : Points × Value) : Prop :=
  ∃ key value, text = key ++ .char ':' :: value ∧ Spaced StringText key pair.1 ∧
    Spaced part value pair.2

/-- A list or a map of parts. A key that is repeated in a map has its first place and its last value. -/
inductive Nested (part : Points → Value → Prop) : Points → Value → Prop
  | emptyList {gap : Points} (h : Gap gap) : Nested part ('[' :: (gap ++ [.char ']'])) (.list [])
  | list {text : Points} {values : List Value} (h : Row (Spaced part) text values) :
      Nested part ('[' :: (text ++ [.char ']'])) (.list values)
  | emptyMap {gap : Points} (h : Gap gap) :
      Nested part ('\x7b' :: (gap ++ [.char '\x7d'])) (.dict none [])
  | map {text : Points} {pairs entries : List (Points × Value)} (h : Row (Member part) text pairs)
      (hkeys : entries.map Prod.fst = (pairs.map Prod.fst).eraseDups)
      (hvalues : ∀ name, Assoc.get? name entries = Assoc.get? name pairs.reverse) :
      Nested part ('\x7b' :: (text ++ [.char '\x7d'])) (.dict none (keyed entries))

/-- What texts denote that are nested at most so many levels deep. -/
def Denotes : Nat → Points → Value → Prop
  | 0, text, v => Scalar text v
  | levels + 1, text, v => Scalar text v ∨ Nested (Denotes levels) text v

/-- The JSON texts that are nested at most so many levels deep, and what they denote. -/
def JsonText (levels : Nat) (text : Points) (v : Value) : Prop :=
  Spaced (Denotes levels) text v

/-- A text that is nested at most so many levels deep, if it is a JSON text at all. -/
def WithinLevels (levels : Nat) (text : Points) : Prop :=
  ∀ levels' v, JsonText levels' text v → JsonText levels text v

/-! ## Escapes before the end of a string -/

theorem BeginsLow.append {text : Points} (h : BeginsLow text) (rest : Points) :
    BeginsLow (text ++ rest) := by
  obtain ⟨es, low, more, hes, hlow, rfl⟩ := h
  exact ⟨es, low, more ++ rest, hes, hlow, List.append_assoc ..⟩

/-- No quote belongs to an escape, so an escape ends before the string does. -/
theorem BeginsLow.of_append_quote {text rest : Points} (h : BeginsLow (text ++ .char '"' :: rest)) :
    BeginsLow text := by
  obtain ⟨es, low, more, hes, hlow, heq⟩ := h
  have hquote : CodePoint.char '"' ∉ numberText es := by
    intro hmem
    obtain ⟨c, hc, heq⟩ := Points.mem_ofChars.mp hmem
    cases heq
    simp only [List.mem_cons, Char.reduceEq, false_or] at hc
    exact absurd (hes.2.1 _ hc) (by decide)
  rcases List.append_eq_append_iff.mp heq with ⟨inside, hnumber, hrest⟩ | ⟨after, htext, -⟩
  · cases inside with
    | nil => exact ⟨es, low, [], hes, hlow, by rw [hnumber, List.append_nil, List.append_nil]⟩
    | cons p inside =>
      obtain ⟨rfl, -⟩ := List.cons.inj hrest
      exact absurd (hnumber ▸ List.mem_append_right _ List.mem_cons_self) hquote
  · exact ⟨es, low, after, hes, hlow, htext⟩

/-! ## Levels

A form passes over to another one if its parts do, and the parts of a text are no longer than the text.
So a text denotes the same if more levels are allowed, and never needs more of them than it is
long. -/

theorem Spaced.imp {form form' : Points → α → Prop} {text : Points} {a : α}
    (h : ∀ inner a, inner.length ≤ text.length → form inner a → form' inner a)
    (hspaced : Spaced form text a) : Spaced form' text a := by
  obtain ⟨before, inner, after, rfl, hbefore, hafter, hinner⟩ := hspaced
  refine ⟨before, inner, after, rfl, hbefore, hafter, h inner a ?_ hinner⟩
  simp only [List.length_append]
  omega

theorem Row.imp {form form' : Points → α → Prop} {text : Points} {as : List α}
    (h : ∀ one a, one.length ≤ text.length → form one a → form' one a) (hrow : Row form text as) :
    Row form' text as := by
  induction hrow with
  | last hlast => exact .last (h _ _ (Nat.le_refl _) hlast)
  | @more text texts a as hfirst _ ih =>
    have hlength : (text ++ .char ',' :: texts).length = text.length + (texts.length + 1) := by simp
    refine .more (h _ _ (by omega) hfirst) (ih fun one a hle => h one a (by omega))

variable {part part' : Points → Value → Prop} {text : Points} {v : Value}

theorem Member.imp {pair : Points × Value}
    (h : ∀ inner v, inner.length ≤ text.length → part inner v → part' inner v)
    (hmember : Member part text pair) : Member part' text pair := by
  obtain ⟨key, value, rfl, hkey, hvalue⟩ := hmember
  have hlength : (key ++ .char ':' :: value).length = key.length + (value.length + 1) := by simp
  exact ⟨key, value, rfl, hkey, hvalue.imp fun inner v hle => h inner v (by omega)⟩

theorem Nested.imp (h : ∀ inner v, inner.length < text.length → part inner v → part' inner v)
    (hnested : Nested part text v) : Nested part' text v := by
  have hparts : ∀ {first last : CodePoint} {inside : Points}, text = first :: (inside ++ [last]) →
      ∀ inner v, inner.length ≤ inside.length → part inner v → part' inner v := by
    rintro first last inside rfl inner v hle
    exact h inner v (by simp only [List.length_cons, List.length_append]; omega)
  cases hnested with
  | emptyList hgap => exact .emptyList hgap
  | list hrow =>
    refine .list (hrow.imp fun one a hone hspaced => hspaced.imp fun inner v hinner => ?_)
    exact hparts rfl inner v (Nat.le_trans hinner hone)
  | emptyMap hgap => exact .emptyMap hgap
  | map hrow hkeys hvalues =>
    refine .map (hrow.imp fun one a hone hmember => hmember.imp fun inner v hinner => ?_) hkeys
      hvalues
    exact hparts rfl inner v (Nat.le_trans hinner hone)

theorem Denotes.succ {levels : Nat} (h : Denotes levels text v) : Denotes (levels + 1) text v := by
  induction levels generalizing text v with
  | zero => exact .inl h
  | succ levels ih =>
    rcases h with h | h
    · exact .inl h
    · exact .inr (h.imp fun _ _ _ => ih)

/-- A text that is nested less deeply denotes the same. -/
theorem Denotes.mono {levels levels' : Nat} (hle : levels ≤ levels') (h : Denotes levels text v) :
    Denotes levels' text v := by
  induction hle with
  | refl => exact h
  | step _ ih => exact ih.succ

/-- A text is not nested more deeply than it is long. -/
theorem Denotes.of_length_le {levels levels' : Nat} (hle : text.length ≤ levels')
    (h : Denotes levels text v) : Denotes levels' text v := by
  induction levels generalizing levels' text v with
  | zero => exact h.mono (Nat.zero_le _)
  | succ levels ih =>
    rcases h with h | h
    · exact Denotes.mono (Nat.zero_le _) h
    · have hpos : 0 < text.length := by cases h <;> simp
      obtain ⟨more, rfl⟩ : ∃ more, levels' = more + 1 := ⟨levels' - 1, by omega⟩
      exact .inr (h.imp fun inner v hlt => ih (by omega))

theorem withinLevels_of_length_le {levels : Nat} {text : Points} (h : text.length ≤ levels) :
    WithinLevels levels text :=
  fun _ _ hjson => hjson.imp fun _ _ hle hinner => hinner.of_length_le (Nat.le_trans hle h)

end Json

end ComponentTree
