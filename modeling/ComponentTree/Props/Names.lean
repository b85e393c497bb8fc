import ComponentTree.Assoc

/-!
# Names of props

Some frameworks refuse an attribute under its HTML name. Two tables tell which names to use instead,
one for plain elements and one for components.
-/

namespace ComponentTree

/-- The names that strict frameworks want for attributes of plain elements. -/
def strictElementNames : List (String × String) :=
  [("class", "className"), ("for", "htmlFor"), ("tabindex", "tabIndex"), ("readonly", "readOnly"),
   ("maxlength", "maxLength"), ("minlength", "minLength"), ("colspan", "colSpan"),
   ("rowspan", "rowSpan"), ("contenteditable", "contentEditable"), ("crossorigin", "crossOrigin"),
   ("autocomplete", "autoComplete"), ("autofocus", "autoFocus"), ("enctype", "encType"),
   ("srcset", "srcSet"), ("accept-charset", "acceptCharset"), ("http-equiv", "httpEquiv")]

/-- The names that components usually share with plain elements. -/
def strictComponentNames : List (String × String) :=
  [("class", "className"), ("for", "htmlFor")]

/-- The tables of prop names. -/
structure PropNames where
  element : List (String × String)
  component : List (String × String)

namespace PropNames

/-- The given tables, the strict ones in place of those that are missing. -/
def ofTables (element component : Option (List (String × String))) : PropNames :=
  ⟨element.getD strictElementNames, component.getD strictComponentNames⟩

def strict : PropNames := ofTables none none

/-- The prop name of an attribute of a plain element, its own name unless the table has another. -/
def elementName (names : PropNames) (attr : String) : String :=
  (Assoc.get? attr names.element).getD attr

/-- The prop name that the table has for an attribute of a component. -/
def componentName? (names : PropNames) (attr : String) : Option String :=
  Assoc.get? attr names.component

end PropNames

end ComponentTree
