import ComponentTree.Decimal.Basic

/-!
# Faults

What can stop a conversion. The shape of the tree never does, its depth apart; all other faults come
from the collaborators of a conversion, and from values of kinds that cannot be used where they
stand.
-/

namespace ComponentTree

/-- Why a value cannot serve as props. -/
inductive PropsDefect where
  /-- It holds nothing that could be entries. -/
  | noEntries (kind : String)
  /-- The item at a position holds nothing that could be a key and a value. -/
  | noPair (position : Nat)
  /-- The item at a position holds too few or too many values. -/
  | wrongLength (position length : Nat)
  deriving DecidableEq, Repr

/-- The text for a value of a kind that was to hold other values and cannot. -/
def noItemsText (kind : String) : String := "'" ++ kind ++ "' object is not iterable"

def PropsDefect.message : PropsDefect → String
  | .noEntries kind => noItemsText kind
  | .noPair position =>
    "cannot convert dictionary update sequence element #"
      ++ String.ofList (integerText position) ++ " to a sequence"
  | .wrongLength position length =>
    "dictionary update sequence element #" ++ String.ofList (integerText position)
      ++ " has length " ++ String.ofList (integerText length) ++ "; 2 is required"

/-- A cause for which a conversion ends without a result. -/
inductive Fault where
  /-- The tree is nested deeper than the given limit. -/
  | tooDeep (limit : Int)
  /-- The tree has no bottom: an element lies below itself, and no limit was set. -/
  | endless
  /-- A value of the given kind was to be a key. -/
  | noKey (kind : String)
  /-- A value of the given kind was to be a dotted path. -/
  | noPath (kind : String)
  /-- A list of tokens holds a value of the given kind at a position. -/
  | noToken (position : Nat) (kind : String)
  /-- A value cannot serve as props. -/
  | noProps (defect : PropsDefect)
  /-- A value of the given kind was to hold the children of an element. -/
  | noChildren (kind : String)
  /-- A collaborator failed with a message of its own. -/
  | collaborator (message : String)
  deriving DecidableEq, Repr

namespace Fault

/-- The text that a depth limit was exceeded. -/
def tooDeepText (limit : String) : String :=
  "Source tree is nested deeper than " ++ limit ++ " levels"

def message : Fault → String
  | .tooDeep limit => tooDeepText (String.ofList (integerText limit))
  | .endless => "maximum recursion depth exceeded"
  | .noKey kind => "unhashable type: '" ++ kind ++ "'"
  | .noPath kind => "'" ++ kind ++ "' object has no attribute 'split'"
  | .noToken position kind =>
    "sequence item " ++ String.ofList (integerText position) ++ ": expected str instance, " ++ kind
      ++ " found"
  | .noProps defect => defect.message
  | .noChildren kind => noItemsText kind
  | .collaborator message => message

end Fault

end ComponentTree
