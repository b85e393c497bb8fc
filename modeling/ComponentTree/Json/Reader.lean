import ComponentTree.Assoc
import ComponentTree.Decimal.Literal
import ComponentTree.Text.CodePoint
import ComponentTree.Text.Digits
import ComponentTree.Value.Equality

/-!
# Reading JSON

Reading accepts exactly the JSON texts whose numbers can be kept: integers of not too many digits,
and other numbers in the range of finite floating point numbers. One number out of range, however
deep, makes the whole text unreadable.
-/

namespace ComponentTree.Json

/-- What a reader gives: a value and the rest of the text, which is shorter. -/
abbrev Reader (α : Type) :=
  (text : Points) → Option (α × { rest : Points // rest.length < text.length })

/-- The most digits that an integer may have. -/
def maxIntegerDigits : Nat := 4300

/-- The deepest nesting that is read. -/
def maxNesting : Nat := 1000

/-- A blank between the parts of a text. -/
def isBlank : CodePoint → Bool := CodePoint.is fun c => c == ' ' || c == '\t' || c == '\n' || c == '\r'

/-- A text without the blanks at its start. -/
def skip (text : Points) : Points := text.dropWhile isBlank

theorem length_skip_le (text : Points) : (skip text).length ≤ text.length :=
  (List.dropWhile_suffix _).length_le

/-- The rest after a fixed word. -/
def after? : List Char → Points → Option Points
  | [], text => some text
  | w :: word, p :: text => if p = w then after? word text else none
  | _ :: _, [] => none

/-! ### Strings -/

def fourDigits : Points → Option (Nat × Points)
  | .char a :: .char b :: .char c :: .char d :: rest =>
    if [a, b, c, d].all Text.isHexDigit then some (Text.numberOf 16 [a, b, c, d], rest) else none
  | _ => none

/-- The first half of a pair that denotes one character. -/
def isHighHalf (n : Nat) : Bool := 0xD800 ≤ n && n < 0xDC00

/-- The second half of a pair. -/
def isLowHalf (n : Nat) : Bool := 0xDC00 ≤ n && n < 0xE000

/-- The number of the second half of a pair, if an escape for one comes next. -/
def lowHalf? : Points → Option (Nat × Points)
  | .char '\\' :: .char 'u' :: text => (fourDigits text).filter fun (low, _) => isLowHalf low
  | _ => none

/-- The code point of an escape by number. The halves of a pair denote one character; a half that is in
no pair stays what it is. -/
def numberedEscape (text : Points) : Option (CodePoint × Points) :=
  match fourDigits text with
  | none => none
  | some (n, rest) =>
    match if isHighHalf n then lowHalf? rest else none with
    | some (low, rest) => some (Char.ofNat (0x10000 + (n - 0xD800) * 0x400 + (low - 0xDC00)), rest)
    | none => some (.ofNumber n, rest)

/-- The code point of an escape, after its backslash. -/
def escape : Points → Option (CodePoint × Points)
  | .char '"' :: rest => some ('"', rest)
  | .char '\\' :: rest => some ('\\', rest)
  | .char '/' :: rest => some ('/', rest)
  | .char 'b' :: rest => some ('\x08', rest)
  | .char 'f' :: rest => some ('\x0c', rest)
  | .char 'n' :: rest => some ('\n', rest)
  | .char 'r' :: rest => some ('\r', rest)
  | .char 't' :: rest => some ('\t', rest)
  | .char 'u' :: rest => numberedEscape rest
  | _ => none

/-- The characters that no string holds as they are. -/
def isControl : CodePoint → Bool := CodePoint.is (· < ' ')

/-- The text in a string, after its opening quote, up to and with the closing one. -/
def stringBody (text : Points) : Option (Points × Points) :=
  match text with
  | [] => none
  | .char '"' :: rest => some ([], rest)
  | .char '\\' :: rest =>
    match escape rest with
    | none => none
    | some (p, after) =>
      if _h : after.length ≤ rest.length then
        (stringBody after).map fun (body, rest) => (p :: body, rest)
      else none
  | p :: rest =>
    if isControl p then none else (stringBody rest).map fun (body, rest) => (p :: body, rest)
termination_by text.length

def string? : Points → Option (Points × Points)
  | .char '"' :: rest => stringBody rest
  | _ => none

/-! ### Numbers and words -/

/-- A number at the start of a text. A literal ends before the first half of a character at the latest. -/
def number? (text : Points) : Option (Value × Points) :=
  match NumberLiteral.scan text.leadingChars with
  | none => none
  | some (literal, left) =>
    let rest := text.drop (text.leadingChars.length - left.length)
    if literal.isInteger then
      if maxIntegerDigits < literal.whole.length then none else some (.int literal.toInt, rest)
    else
      let x := literal.toBinary64
      if x.isFinite then some (.float x, rest) else none

/-- The words that denote values. -/
def words : List (List Char × Value) :=
  [("null".toList, .null), ("true".toList, .bool true), ("false".toList, .bool false)]

/-- The value of the word that a text starts with. -/
def word? (text : Points) : Option (Value × Points) :=
  words.findSome? fun (word, value) => (after? word text).map fun rest => (value, rest)

/-! ### Values -/

/-- A reader whose result is taken only if it has used up some of the text. -/
def progress {α : Type} (read : Points → Option (α × Points)) : Reader α := fun text =>
  match read text with
  | none => none
  | some (a, rest) => if h : rest.length < text.length then some (a, ⟨rest, h⟩) else none

/-- The items of a list, from the first one on to the closing bracket. -/
def items (read : Reader Value) (text : Points) : Option (List Value × Points) :=
  match read (skip text) with
  | none => none
  | some (value, rest) =>
    match _h : skip rest.val with
    | .char ']' :: after => some ([value], after)
    | .char ',' :: after =>
      (items read after).map fun (values, rest) => (value :: values, rest)
    | _ => none
termination_by text.length
decreasing_by
  have _h1 := length_skip_le text
  have _h2 := rest.property
  have h3 := length_skip_le rest.val
  rw [_h, List.length_cons] at h3
  omega

/-- The key of a member and the colon behind it. -/
def key? (text : Points) : Option (Points × Points) :=
  match string? (skip text) with
  | none => none
  | some (key, rest) =>
    match skip rest with
    | .char ':' :: after => some (key, after)
    | _ => none

/-- The members of a map, from the first one on to the closing brace. -/
def members (read : Reader Value) (text : Points) :
    Option (List (Points × Value) × Points) :=
  match progress key? text with
  | none => none
  | some (key, rest) =>
    match read (skip rest.val) with
    | none => none
    | some (value, rest') =>
      match _h : skip rest'.val with
      | .char '\x7d' :: after => some ([(key, value)], after)
      | .char ',' :: after =>
        (members read after).map fun (pairs, rest) => ((key, value) :: pairs, rest)
      | _ => none
termination_by text.length
decreasing_by
  have _h1 := rest.property
  have _h2 := length_skip_le rest.val
  have _h3 := rest'.property
  have h4 := length_skip_le rest'.val
  rw [_h, List.length_cons] at h4
  omega

/-- The map that members make: a repeated key keeps its first place and takes its last value. -/
def ofMembers (pairs : List (Points × Value)) : Value :=
  .dict none ((Assoc.ofPairs pairs).map fun (key, value) => (.ofPoints key, value))

/-- A value at the start of a text, of at most the given nesting. -/
def value? : Nat → Points → Option (Value × Points)
  | nesting, text =>
    match text with
    | .char '"' :: rest => (stringBody rest).map fun (body, rest) => (.ofPoints body, rest)
    | .char '[' :: rest =>
      match nesting with
      | 0 => none
      | nesting + 1 =>
        match skip rest with
        | .char ']' :: after => some (.list [], after)
        | rest => (items (progress (value? nesting)) rest).map fun (vs, rest) => (.list vs, rest)
    | .char '\x7b' :: rest =>
      match nesting with
      | 0 => none
      | nesting + 1 =>
        match skip rest with
        | .char '\x7d' :: after => some (.dict none [], after)
        | rest =>
          (members (progress (value? nesting)) rest).map fun (ps, rest) => (ofMembers ps, rest)
    | text => (word? text).or (number? text)

/-- The value of a JSON text: one value with nothing but blanks around it. -/
def read (text : Points) : Option Value :=
  match value? maxNesting (skip text) with
  | some (value, rest) => if (skip rest).isEmpty then some value else none
  | none => none

end ComponentTree.Json

namespace ComponentTree

/-- The value of a text that is a JSON text; any other value as it is. -/
def Value.decoded : Value → Value
  | .str s => (Json.read s).getD (.str s)
  | .broken text => (Json.read text.points).getD (.broken text)
  | other => other

end ComponentTree
