import ComponentTree.Assoc
import ComponentTree.Markup.Reference
import ComponentTree.Text.Blank
import ComponentTree.Text.Case

/-!
# Tokens of an HTML text

The text is cut into tags, texts and marked sections of other kinds. Nearly anything is accepted:
what looks like a tag and is none becomes text. The content of scripts and styles is text up to
their end tag.
-/

namespace ComponentTree.Markup

/-- A part of an HTML text. -/
inductive Token where
  /-- A start tag with its attributes, and whether it closes itself. -/
  | opening (name : String) (attributes : List (String × String)) (closed : Bool)
  | closing (name : String)
  | text (cs : List Char)
  /-- A comment, document type, marked section or processing instruction. -/
  | other (cs : List Char)

/-- The first place where `close` recognises an end: what stands before it, and what follows. -/
def upTo (close : List Char → Option (List Char)) : List Char → Option (List Char × List Char)
  | [] => (close []).map fun rest => ([], rest)
  | c :: cs =>
    match close (c :: cs) with
    | some rest => some ([], rest)
    | none => (upTo close cs).map fun (before, rest) => (c :: before, rest)

def afterChar (mark : Char) : List Char → Option (List Char)
  | c :: rest => if c = mark then some rest else none
  | [] => none

/-- What stands before the first of a certain character, and what follows it. -/
def upToChar (mark : Char) : List Char → Option (List Char × List Char) := upTo (afterChar mark)

theorem length_upToChar_le {mark : Char} {cs before rest : List Char}
    (h : upToChar mark cs = some (before, rest)) : rest.length ≤ cs.length := by
  induction cs generalizing before with
  | nil => simp [upToChar, upTo, afterChar] at h
  | cons c cs ih =>
    by_cases hc : c = mark
    · simp only [upToChar, upTo, afterChar, hc, if_true, Option.some.injEq, Prod.mk.injEq] at h
      exact h.2 ▸ Nat.le_succ _
    · simp only [upToChar, upTo, afterChar, hc, if_false, Option.map_eq_some_iff,
        Prod.mk.injEq] at h
      obtain ⟨found, hfound, -, rfl⟩ := h
      exact Nat.le_succ_of_le (ih hfound)

/-- A text without the blanks at its start. -/
def skipBlanks (cs : List Char) : List Char := cs.dropWhile Text.isBlank

/-- A closing angle bracket, after blanks. -/
def bracketClose (cs : List Char) : Option (List Char) :=
  match skipBlanks cs with
  | '>' :: rest => some rest
  | _ => none

/-- The end of a comment: two dashes, blanks, a bracket. -/
def commentClose : List Char → Option (List Char)
  | '-' :: '-' :: rest => bracketClose rest
  | _ => none

def conditionClose : List Char → Option (List Char)
  | ']' :: rest => bracketClose rest
  | _ => none

def sectionClose : List Char → Option (List Char)
  | ']' :: rest =>
    match skipBlanks rest with
    | ']' :: rest => bracketClose rest
    | _ => none
  | _ => none

/-! ### Tags -/

/-- An ASCII letter. -/
def isLetter (c : Char) : Bool := c.isAlpha

def isTagChar (c : Char) : Bool := !"\t\n\r\x0c />\x00".toList.contains c

/-- What may separate attributes: blanks, and slashes that do not close the tag. -/
def skipSeparators : List Char → List Char
  | '/' :: '>' :: rest => '/' :: '>' :: rest
  | '/' :: rest => skipSeparators rest
  | c :: rest => if Text.isBlank c then skipSeparators rest else c :: rest
  | [] => []

theorem length_skipSeparators_le (cs : List Char) : (skipSeparators cs).length ≤ cs.length := by
  fun_induction skipSeparators cs with
  | case1 rest => exact Nat.le_refl _
  | case2 rest _ ih => exact Nat.le_succ_of_le ih
  | case3 c rest _ _ _ ih => exact Nat.le_succ_of_le ih
  | case4 c rest => exact Nat.le_refl _
  | case5 => exact Nat.le_refl _

/-- Whether separators stand at the start of a text that does not end the tag there. -/
def isSeparated (cs : List Char) : Bool := cs.head?.any fun c => c == '/' || Text.isBlank c

/-- A character that continues the name of an attribute. -/
def isAttributeChar (c : Char) : Bool := !(Text.isBlank c || c == '/' || c == '=' || c == '>')

/-- A character right after which an attribute may start. -/
def isAttributeBoundary (c : Char) : Bool :=
  c == '\'' || c == '"' || c == '/' || Text.isBlank c

/-- A character of a value without quotes. -/
def isBareChar (c : Char) : Bool := !(Text.isBlank c || c == '>')

/-- A value without quotes, up to the next blank or bracket. -/
def scanBareValue (cs : List Char) : List Char × List Char :=
  (cs.takeWhile isBareChar, cs.dropWhile isBareChar)

/-- A value in quotes or without. None if the quotes are not closed. -/
def scanValue : List Char → Option (List Char × List Char)
  | '\'' :: rest => upToChar '\'' rest
  | '"' :: rest => upToChar '"' rest
  | cs => some (scanBareValue cs)

/-- What the equals signs after the name of an attribute assign to it, and what follows. Before
quotes that are not closed the value is empty if a blank sets them off, or else it starts with the
last of several equals signs; a single one assigns nothing then. -/
def scanAssigned (cs : List Char) : Option (List Char × List Char) :=
  let assignment := skipBlanks cs
  let signs := assignment.takeWhile (· == '=')
  let afterSigns := assignment.dropWhile (· == '=')
  let start := skipBlanks afterSigns
  if signs.isEmpty then none
  else
    match scanValue start with
    | some found => some found
    | none =>
      if start.length < afterSigns.length then some ([], start)
      else if 1 < signs.length then some (scanBareValue ('=' :: start))
      else none

theorem length_scanValue_le {cs value rest : List Char} (h : scanValue cs = some (value, rest)) :
    rest.length ≤ cs.length := by
  fun_cases scanValue cs with
  | case1 tail => exact Nat.le_succ_of_le (length_upToChar_le (by simpa [scanValue] using h))
  | case2 tail => exact Nat.le_succ_of_le (length_upToChar_le (by simpa [scanValue] using h))
  | case3 h₁ h₂ =>
    simp only [scanValue, scanBareValue, Option.some.injEq, Prod.mk.injEq] at h
    exact h.2 ▸ (List.dropWhile_suffix _).length_le

theorem length_scanAssigned_le {cs value rest : List Char}
    (h : scanAssigned cs = some (value, rest)) : rest.length ≤ cs.length := by
  have start_le : (skipBlanks ((skipBlanks cs).dropWhile (· == '='))).length ≤ cs.length :=
    Nat.le_trans (List.dropWhile_suffix _).length_le <|
      Nat.le_trans (List.dropWhile_suffix _).length_le (List.dropWhile_suffix _).length_le
  simp only [scanAssigned] at h
  split at h
  · cases h
  · split at h
    · next found hfound =>
      cases h
      exact Nat.le_trans (length_scanValue_le hfound) start_le
    · split at h
      · cases h
        exact start_le
      · split at h
        · simp only [scanBareValue, Option.some.injEq, Prod.mk.injEq] at h
          have bare : isBareChar '=' = true := by decide
          rw [← h.2, List.dropWhile_cons, bare, if_pos rfl]
          exact Nat.le_trans (List.dropWhile_suffix _).length_le start_le
        · cases h

/-- An attribute as it is written. -/
structure RawAttribute where
  name : List Char
  /-- The value without its quotes, if one is assigned. -/
  value : Option (List Char)

/-- An attribute whose name starts with the given character, and what follows it. -/
def scanAttribute (c : Char) (cs : List Char) : RawAttribute × List Char :=
  let name := c :: cs.takeWhile isAttributeChar
  let rest := cs.dropWhile isAttributeChar
  match scanAssigned rest with
  | some (value, rest) => (⟨name, some value⟩, rest)
  | none => (⟨name, none⟩, rest)

theorem length_scanAttribute_le (c : Char) (cs : List Char) :
    (scanAttribute c cs).2.length ≤ cs.length := by
  have rest_le : (cs.dropWhile isAttributeChar).length ≤ cs.length :=
    (List.dropWhile_suffix _).length_le
  simp only [scanAttribute]
  split
  · next h => exact Nat.le_trans (length_scanAssigned_le h) rest_le
  · exact rest_le

/-- Whether another attribute may follow an attribute without a space between them. -/
def RawAttribute.isBounded (a : RawAttribute) : Bool :=
  a.value.isSome || a.name.getLast?.any isAttributeBoundary

/-- An attribute with its name in lower case and the references in its value replaced. Without an
assignment the value is empty. -/
def RawAttribute.resolve (a : RawAttribute) : Except Refusal (String × String) := do
  return (String.ofList (Text.lower a.name), String.ofList (← resolveValue (a.value.getD [])))

/-- The attributes of a start tag, whether it closes itself, and what follows it. `bounded` tells
whether an attribute may start right here. None if the tag has no end. -/
def scanAttributes (bounded : Bool) (cs : List Char) :
    Option (List RawAttribute × Bool × List Char) :=
  match _h : skipSeparators cs with
  | [] => none
  | '>' :: rest => some ([], false, rest)
  | '/' :: rest => (bracketClose rest).map fun rest => ([], true, rest)
  | c :: after =>
    if bounded || isSeparated cs then
      let scanned := scanAttribute c after
      (scanAttributes scanned.1.isBounded scanned.2).map fun (attributes, closed, rest) =>
        (scanned.1 :: attributes, closed, rest)
    else none
termination_by cs.length
decreasing_by
  have start_le := _h ▸ length_skipSeparators_le cs
  exact Nat.lt_of_le_of_lt (length_scanAttribute_le c after) start_le

/-- A character of a plain end tag name. -/
def isEndNameChar (c : Char) : Bool :=
  c.isAlphanum || c == '-' || c == '.' || c == ':' || c == '_'

/-- An end tag of nothing but a name, after its `</`: the name in lower case and what follows. -/
def scanPlainEnd (cs : List Char) : Option (String × List Char) :=
  match skipBlanks cs with
  | [] => none
  | c :: rest =>
    if isLetter c then
      (bracketClose (rest.dropWhile isEndNameChar)).map fun after =>
        (String.ofList (Text.lower (c :: rest.takeWhile isEndNameChar)), after)
    else none

/-! ### Scanning -/

/-- The tokens found at the start of a text and what is left of it. -/
structure Scan where
  tokens : List Token
  /-- Whether a malformed numeric reference may still be passed over. -/
  lenient : Bool
  rest : List Char

/-- What starts like a tag and has no end is text, up to the next bracket. -/
def scanUnfinished (cs : List Char) : Scan :=
  let body := cs.drop 1
  match upToChar '>' body with
  | some (before, rest) => ⟨[.text ('<' :: before ++ ['>'])], false, rest⟩
  | none =>
    match upToChar '<' body with
    | some (before, rest) => ⟨[.text ('<' :: before)], false, '<' :: rest⟩
    | none => ⟨[.text ['<']], false, body⟩

/-- The end tag of an element, in any case. -/
def endTagOf (name : String) : List Char → Option (List Char)
  | '<' :: '/' :: rest =>
    match scanPlainEnd rest with
    | some (found, after) => if found = name then some after else none
    | none => none
  | _ => none

/-- Whether a character passes for a lower case letter where case is ignored. The long s and the
two letters of the Turkish alphabet beside i do so too. -/
def passesFor (letter c : Char) : Bool :=
  c.toLower == letter || (letter == 's' && c == 'ſ') || (letter == 'i' && (c == 'İ' || c == 'ı'))

/-- What follows a name that is spelled with characters that pass for its letters. -/
def afterName? : List Char → List Char → Option (List Char)
  | [], cs => some cs
  | _ :: _, [] => none
  | letter :: name, c :: cs => if passesFor letter c then afterName? name cs else none

/-- What passes for the end tag of an element. -/
def seemingEndOf (name : String) : List Char → Option (List Char)
  | '<' :: '/' :: rest => (afterName? name.toList (skipBlanks rest)).bind bracketClose
  | _ => none

/-- The text up to the last end that `close` recognises, that end included. -/
def throughLast (close : List Char → Option (List Char)) : List Char → List Char
  | [] => []
  | c :: cs =>
    match throughLast close cs with
    | [] =>
      match close (c :: cs) with
      | some rest => (c :: cs).take (cs.length + 1 - rest.length)
      | none => []
    | later => c :: later

/-- The content of a script or style up to its end tag. Without one the content is dropped, but not
what precedes something that passes for an end tag. -/
def scanRaw (lenient : Bool) (name : String) (cs : List Char) : Scan :=
  match upTo (endTagOf name) cs with
  | some (before, rest) => ⟨[.text before, .closing name], lenient, rest⟩
  | none => ⟨[.text (throughLast (seemingEndOf name) cs)], lenient, []⟩

/-- A start tag, after its bracket. -/
def scanOpening (lenient : Bool) (cs : List Char) : Except Refusal Scan :=
  let name := cs.takeWhile isTagChar
  let rest := cs.dropWhile isTagChar
  let bounded := name.getLast?.any isAttributeBoundary
  if rest.head? = some '\x00' && !bounded then .ok ⟨[.text ('<' :: name)], lenient, rest⟩
  else
    match scanAttributes bounded rest with
    | none => .ok (scanUnfinished ('<' :: cs))
    | some (attributes, closed, rest) => do
      let name := String.ofList (Text.lower name)
      let tag := Token.opening name (Assoc.ofPairs (← attributes.mapM (·.resolve))) closed
      if !closed && (name = "script" || name = "style") then
        let raw := scanRaw lenient name rest
        return { raw with tokens := tag :: raw.tokens }
      else return ⟨[tag], lenient, rest⟩

/-- An end tag, after its `</`. One that starts with no letter is a comment. -/
def scanClosing (lenient : Bool) (cs : List Char) : Scan :=
  match scanPlainEnd cs with
  | some (name, rest) => ⟨[.closing name], lenient, rest⟩
  | none =>
    match upToChar '>' cs with
    | none => scanUnfinished ('<' :: '/' :: cs)
    | some (before, rest) =>
      match cs with
      | [] => ⟨[], lenient, rest⟩
      | '>' :: _ => ⟨[], lenient, rest⟩
      | c :: _ =>
        if isLetter c then
          match upToChar '>' (cs.dropWhile isTagChar) with
          | some (_, rest) =>
            ⟨[.closing (String.ofList (Text.lower (cs.takeWhile isTagChar)))], lenient, rest⟩
          | none => scanUnfinished ('<' :: '/' :: cs)
        else ⟨[.other before], lenient, rest⟩

/-- Whether a text starts with a word, in any case. -/
def startsWith (word : String) (cs : List Char) : Bool :=
  Text.lower (cs.take word.length) == word.toList

/-- A character of the name of a marked section. -/
def isSectionChar (c : Char) : Bool := c.isAlphanum || c == '-' || c == '_' || c == '.'

/-- The name of a marked section with the blanks after it, and what follows. None at the end of the
text. -/
def scanSectionName (cs : List Char) : Except Refusal (Option (List Char)) :=
  match cs with
  | [] => .ok none
  | c :: _ =>
    if isLetter c then
      let rest := skipBlanks (cs.dropWhile isSectionChar)
      if rest.isEmpty then .ok none else .ok (some (cs.take (cs.length - rest.length)))
    else .error (.unnamedSection (("<![".toList ++ cs).take 20))

/-- A marked section, after its `<![`. A condition ends with one bracket, the other kinds of
sections end with two. None if the section has no end. -/
def scanSection (cs : List Char) : Except Refusal (Option (List Char × List Char)) := do
  match ← scanSectionName cs with
  | none => return none
  | some name =>
    let kind := String.ofList (Text.lower (name.takeWhile isSectionChar))
    if ["temp", "cdata", "ignore", "include", "rcdata"].contains kind then
      return upTo sectionClose cs
    else if ["if", "else", "endif"].contains kind then return upTo conditionClose cs
    else throw (.unknownSection name)

/-- A declaration, after its `<!`, without what tells its kind, and what follows it. None if it has
no end. -/
def scanDeclaration (cs : List Char) : Except Refusal (Option (List Char × List Char)) :=
  match cs with
  | '-' :: '-' :: rest => .ok (upTo commentClose rest)
  | '[' :: rest => do
    return (← scanSection rest).map fun (data, rest) =>
      (if startsWith "cdata[" data then data.drop 6 else data, rest)
  | cs =>
    if startsWith "doctype" cs then
      .ok ((upToChar '>' (cs.drop 7)).map fun (data, rest) => (data.drop 1, rest))
    else .ok (upToChar '>' cs)

/-- What starts with an opening angle bracket. -/
def scanBracket (lenient : Bool) : List Char → Except Refusal Scan
  | [] => .ok ⟨[.text ['<']], lenient, []⟩
  | '/' :: cs => .ok (scanClosing lenient cs)
  | '!' :: cs => do
    match ← scanDeclaration cs with
    | some (data, rest) => return ⟨[.other data], lenient, rest⟩
    | none => return scanUnfinished ('<' :: '!' :: cs)
  | '?' :: cs =>
    match upToChar '>' cs with
    | some (data, rest) => .ok ⟨[.other data], lenient, rest⟩
    | none => .ok (scanUnfinished ('<' :: '?' :: cs))
  | c :: cs =>
    if isLetter c then scanOpening lenient (c :: cs)
    else .ok ⟨[.text ['<']], lenient, c :: cs⟩

/-- What starts with an ampersand. After a numeric reference that is malformed all is plain text,
but for the first one of a text, if a semicolon follows somewhere. A name that is broken off by the
end of the text is plain text too; of a single letter only the letter is left. -/
def scanAmpersand (lenient : Bool) : List Char → Except Refusal Scan
  | '#' :: cs =>
    match scanTextNumber cs with
    | some (text, rest) => do return ⟨[.text (← text)], lenient, rest⟩
    | none =>
      if lenient && cs.contains ';' then .ok ⟨[.text ['&', '#']], false, cs⟩
      else .ok ⟨[.text ('&' :: '#' :: cs)], false, []⟩
  | c :: cs =>
    if isLetter c then
      match scanTextName (c :: cs) with
      | some (text, rest) => .ok ⟨[.text text], lenient, rest⟩
      | none => .ok ⟨[.text (if cs.isEmpty then [c] else '&' :: c :: cs)], false, []⟩
    else .ok ⟨[.text ['&']], lenient, c :: cs⟩
  | [] => .ok ⟨[.text ['&']], lenient, []⟩

/-- Characters that stand for themselves. -/
def isPlain (c : Char) : Bool := !(c == '<' || c == '&')

def scanNext (lenient : Bool) : List Char → Except Refusal Scan
  | [] => .ok ⟨[], lenient, []⟩
  | '<' :: cs => scanBracket lenient cs
  | '&' :: cs => scanAmpersand lenient cs
  | cs => .ok ⟨[.text (cs.takeWhile isPlain)], lenient, cs.dropWhile isPlain⟩

/-- The tokens of a text. Every scan takes at least one character, so it ends. The first part of
the text that is refused stands for the whole. -/
def scanAll (lenient : Bool) (cs : List Char) : Except Refusal (List Token) := do
  let scan ← scanNext lenient cs
  if _h : scan.rest.length < cs.length then
    return scan.tokens ++ (← scanAll scan.lenient scan.rest)
  else return scan.tokens
termination_by cs.length

def tokens (html : String) : Except Refusal (List Token) := scanAll true html.toList

end ComponentTree.Markup
