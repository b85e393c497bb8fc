import ComponentTree.Assoc
import ComponentTree.Text.Pieces
import ComponentTree.Value.Equality
import ComponentTree.Value.Sharing

/-!
# Dotted paths

A path leads into nested maps. Its segments stand between dots, and empty segments do not count. A
value can be set at a path: maps on the way are made where there are none, and a value that is no
map and stands in the way gives place to one. A shared map on the way stays the map that it is, so
setting the value is a write to the innermost one.
-/

namespace ComponentTree.Path

def segments (path : String) : List String :=
  (Text.pieces (· == '.') path.toList).map String.ofList

/-- The map that a value is, or an empty one. -/
def nested : Option Value → Entries
  | some (.dict _ entries) => entries
  | _ => []

/-- The mark of the map that a value is. -/
def markOf : Option Value → Option Nat
  | some (.dict mark _) => mark
  | _ => none

/-- Sets a value at the end of a row of segments. Without a segment there is no place to set it. -/
def assign : List String → Value → Entries → Entries
  | [], _, target => target
  | [segment], value, target => Assoc.set (.str segment) value target
  | segment :: rest, value, target =>
    let old := Assoc.get? (.str segment) target
    Assoc.set (.str segment) (.dict (markOf old) (assign rest value (nested old))) target

/-- The write that setting a value at the end of a row of segments is to the innermost shared map
on the way. The map that the way starts from is not counted. -/
def assignWrite? : List String → Value → Entries → Option Write
  | segment :: next :: rest, value, target =>
    let old := Assoc.get? (.str segment) target
    (assignWrite? (next :: rest) value (nested old)).or
      ((markOf old).map fun mark => ⟨mark, assign (next :: rest) value (nested old)⟩)
  | _, _, _ => none

/-- Sets a value at a path. A path without segments is a key as it stands. -/
def set (path : String) (value : Value) (target : Entries) : Entries :=
  match segments path with
  | [] => Assoc.set (.str path) value target
  | parts => assign parts value target

/-- The write that setting a value at a path is, if it changes a shared map. -/
def write? (path : String) (value : Value) (target : Entries) : Option Write :=
  assignWrite? (segments path) value target

/-- The value at the end of a row of segments, if maps lead there. -/
def lookup : Value → List String → Option Value
  | value, [] => some value
  | .dict _ entries, segment :: rest =>
    match Assoc.get? (.str segment) entries with
    | some value => lookup value rest
    | none => none
  | _, _ :: _ => none

end ComponentTree.Path
