import ComponentTree.Value.Basic

/-!
# Kinds of values

Where a value of the wrong kind is used, the report names its kind. Not every value can be a key:
what can change or is compared part by part in any order cannot.
-/

namespace ComponentTree.Value

/-- The name of the kind of a value. -/
def kindName : Value → String
  | .null => "NoneType"
  | .bool _ => "bool"
  | .int _ => "int"
  | .float _ => "float"
  | .str _ => "str"
  | .broken _ => "str"
  | .list _ => "list"
  | .tuple _ => "tuple"
  | .dict .. => "dict"
  | .element .. => "VElement"
  | .fragment => "_FragmentType"
  | .component _ => "object"

mutual
/-- The first part of a value, if any, that keeps it from being a key. -/
def keyObstacle? : Value → Option Value
  | .list items => some (.list items)
  | .dict mark entries => some (.dict mark entries)
  | .element type props children => some (.element type props children)
  | .tuple items => keyObstacleAmong? items
  | _ => none

def keyObstacleAmong? : List Value → Option Value
  | [] => none
  | item :: items => (keyObstacle? item).or (keyObstacleAmong? items)
end

end ComponentTree.Value
