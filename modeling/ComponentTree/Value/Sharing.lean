import ComponentTree.Value.Basic

/-!
# Shared maps

Maps with one mark are a single map that is seen at several places. Changing it at one of them
changes it at all. Values do not change here, so such a change is told by a *write*, and it is
carried out wherever the map is seen by taking every value to what it is after the write.
-/

namespace ComponentTree

/-- A change of a shared map: its mark, and the entries that it has afterwards. -/
structure Write where
  mark : Nat
  entries : Entries

namespace Value

mutual
/-- A value after a write. The new entries are taken as they are. -/
def after (w : Write) : Value → Value
  | .list items => .list (itemsAfter w items)
  | .tuple items => .tuple (itemsAfter w items)
  | .dict mark entries =>
    .dict mark (if mark = some w.mark then w.entries else entriesAfter w entries)
  | .element type props children =>
    .element (after w type) (entriesAfter w props) (itemsAfter w children)
  | other => other

def itemsAfter (w : Write) : List Value → List Value
  | [] => []
  | item :: items => after w item :: itemsAfter w items

/-- Entries after a write. No key is a map. -/
def entriesAfter (w : Write) : List (Value × Value) → List (Value × Value)
  | [] => []
  | (key, value) :: entries => (key, after w value) :: entriesAfter w entries
end

/-- A value after several writes, the first one first. -/
def afterAll (writes : List Write) (v : Value) : Value := writes.foldl (fun v w => v.after w) v

def entriesAfterAll (writes : List Write) (entries : Entries) : Entries :=
  writes.foldl (fun entries w => entriesAfter w entries) entries

end Value

end ComponentTree
