/-!
# Maps that keep their order

A map is a list of pairs with distinct keys, in the order in which the keys first came. Setting a
key that is present replaces its value and leaves the key where it is; a new key goes to the end.
-/

namespace ComponentTree.Assoc

variable {κ κ' β β' : Type} [BEq κ] [BEq κ']

/-- The value of a key. -/
def get? (key : κ) : List (κ × β) → Option β
  | [] => none
  | (k, v) :: rest => if k == key then some v else get? key rest

/-- The map with one value replaced, or added at the end. -/
def set (key : κ) (value : β) : List (κ × β) → List (κ × β)
  | [] => [(key, value)]
  | (k, v) :: rest => if k == key then (k, value) :: rest else (k, v) :: set key value rest

def erase (key : κ) : List (κ × β) → List (κ × β)
  | [] => []
  | (k, v) :: rest => if k == key then rest else (k, v) :: erase key rest

/-- A map with pairs set in it one after the other. -/
def setAll (map : List (κ × β)) (pairs : List (κ × β)) : List (κ × β) :=
  pairs.foldl (fun m (k, v) => set k v m) map

/-- The map that a list of pairs makes: a repeated key keeps its first place and takes its last
value. -/
def ofPairs (pairs : List (κ × β)) : List (κ × β) := setAll [] pairs

/-- The map with every key replaced. Of keys that become equal the last one gives the value, in the
place of the first. -/
def mapKeys (rename : β → κ → κ') (map : List (κ × β)) : List (κ' × β) :=
  ofPairs (map.map fun (k, v) => (rename v k, v))

def mapValues (change : β → κ → β') (map : List (κ × β)) : List (κ × β') :=
  map.map fun (k, v) => (k, change v k)

end ComponentTree.Assoc
