import ComponentTree.Markup.Refusal
import ComponentTree.Source.Parsed

/-!
# Libraries that read HTML

Converters leave it to a library to make documents of HTML texts, and to search in them. They use it
through these two functions only.
-/

namespace ComponentTree.Markup

/-- A library that reads HTML. -/
structure Library where
  /-- The document that a text makes. Values of attributes are kept as they are written. -/
  parse : (html : String) → Except Refusal Markup
  /-- The first template of a document with an identifier. -/
  findTemplate? : (id : String) → (document : Markup) → Option Place

end ComponentTree.Markup
