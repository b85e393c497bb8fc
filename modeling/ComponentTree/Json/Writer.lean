import ComponentTree.Decimal.Basic
import ComponentTree.Decimal.Shortest
import ComponentTree.Text.Quoted
import ComponentTree.Value.Display

/-!
# Writing JSON

Values are written on one line or, with an indentation, with every item on a line of its own.
Characters outside of ASCII stay as they are, and so do halves of characters. The writing functions put a
text before the text that follows it.
-/

namespace ComponentTree.Json

/-- How the nesting of a written value is shown: not at all, on one line, or by so much text per
level in front of every line. -/
abbrev Indent := Option (List Char)

/-- An indentation by spaces; none for a negative number, but lines of their own all the same. -/
def Indent.spaces (n : Int) : Indent := some (List.replicate n.toNat ' ')

/-- The start of a new line at a level. -/
def newLine (indent : Indent) (level : Nat) (rest : Points) : Points :=
  match indent with
  | none => rest
  | some unit => '\n' :: (Points.ofChars (List.replicate level unit).flatten ++ rest)

/-- What stands between two items. -/
def separator (indent : Indent) (level : Nat) (rest : Points) : Points :=
  match indent with
  | none => ',' :: ' ' :: rest
  | some _ => ',' :: newLine indent level rest

/-- A character within a string. -/
def escapedChar (c : Char) : List Char :=
  if c = '"' then ['\\', '"']
  else if c = '\\' then ['\\', '\\']
  else if c = '\n' then ['\\', 'n']
  else if c = '\r' then ['\\', 'r']
  else if c = '\t' then ['\\', 't']
  else if c = '\x08' then ['\\', 'b']
  else if c = '\x0c' then ['\\', 'f']
  else if c < ' ' then '\\' :: 'u' :: Text.hexDigits 4 c.toNat
  else [c]

def escaped : CodePoint → Points
  | .char c => .ofChars (escapedChar c)
  | .half n => [.half n]

def writeString (text rest : Points) : Points :=
  '"' :: (text.flatMap escaped ++ .char '"' :: rest)

mutual
/-- A value of written data at a level of nesting. Values that are no data are written as
strings. -/
def write (indent : Indent) (level : Nat) : Value → Points → Points
  | .null, rest => Points.ofString "null" ++ rest
  | .bool true, rest => Points.ofString "true" ++ rest
  | .bool false, rest => Points.ofString "false" ++ rest
  | .int n, rest => Points.ofChars (integerText n) ++ rest
  | .float x, rest => Points.ofChars (x.text Binary64.dataLayout) ++ rest
  | .str s, rest => writeString s rest
  | .broken text, rest => writeString text.points rest
  | .list [], rest => '[' :: ']' :: rest
  | .list (item :: items), rest =>
    '[' :: newLine indent (level + 1) (write indent (level + 1) item
      (writeItems indent (level + 1) items (newLine indent level (']' :: rest))))
  | .dict _ [], rest => '\x7b' :: '\x7d' :: rest
  | .dict _ ((key, value) :: entries), rest =>
    '\x7b' :: newLine indent (level + 1) (writeString key.points
      (':' :: ' ' :: write indent (level + 1) value
        (writeEntries indent (level + 1) entries (newLine indent level ('\x7d' :: rest)))))
  | .tuple items, rest => writeString (Value.tuple items).display rest
  | .element type props children, rest =>
    writeString (Value.element type props children).display rest
  | .fragment, rest => writeString Value.fragment.display rest
  | .component c, rest => writeString (Value.component c).display rest

/-- The items after the first one. -/
def writeItems (indent : Indent) (level : Nat) : List Value → Points → Points
  | [], rest => rest
  | item :: items, rest =>
    separator indent level (write indent level item (writeItems indent level items rest))

/-- The entries after the first one. -/
def writeEntries (indent : Indent) (level : Nat) : List (Value × Value) → Points → Points
  | [], rest => rest
  | (key, value) :: entries, rest =>
    separator indent level (writeString key.points
      (':' :: ' ' :: write indent level value (writeEntries indent level entries rest)))
end

/-- The JSON text of data. -/
def text (indent : Indent) (data : Value) : Points := write indent 0 data []

end ComponentTree.Json
