import ComponentTree.Text.Pieces

/-!
# Line ends

Lines end with a line feed. Texts from elsewhere may end them with a carriage return, or with one
before the line feed; both read as a line feed.
-/

namespace ComponentTree.Text

/-- The text with all line ends made line feeds. -/
def unifyLineEnds : List Char → List Char
  | [] => []
  | '\r' :: '\n' :: rest => '\n' :: unifyLineEnds rest
  | '\r' :: rest => '\n' :: unifyLineEnds rest
  | c :: rest => c :: unifyLineEnds rest

/-- The lines of a text that are not empty. -/
def lines (text : String) : List String := (pieces (· == '\n') text.toList).map String.ofList

end ComponentTree.Text
