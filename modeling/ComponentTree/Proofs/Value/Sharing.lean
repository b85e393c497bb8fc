import ComponentTree.Proofs.Assoc
import ComponentTree.Value.Equality
import ComponentTree.Value.Sharing

/-!
# Laws of writes

A write goes through a value part by part. It never changes the keys of a map, it leaves texts as they
are, and a map stays a map.
-/

namespace ComponentTree

namespace Value

@[simp] theorem afterAll_nil (v : Value) : v.afterAll [] = v := rfl

theorem itemsAfter_eq_map (w : Write) (items : List Value) :
    itemsAfter w items = items.map (Value.after w) := by
  induction items with
  | nil => rfl
  | cons item items ih => rw [itemsAfter, ih, List.map_cons]

theorem entriesAfter_eq_mapValues (w : Write) (entries : Entries) :
    entriesAfter w entries = Assoc.mapValues (fun v _ => v.after w) entries := by
  induction entries with
  | nil => rfl
  | cons entry entries ih =>
    rw [entriesAfter, ih]
    rfl

theorem keys_entriesAfterAll (writes : List Write) (entries : Entries) :
    (entriesAfterAll writes entries).map Prod.fst = entries.map Prod.fst := by
  induction writes generalizing entries with
  | nil => rfl
  | cons w writes ih =>
    show (entriesAfterAll writes (entriesAfter w entries)).map Prod.fst = _
    rw [ih, entriesAfter_eq_mapValues, Assoc.keys_mapValues (after w)]

theorem get?_entriesAfterAll (writes : List Write) (key : Value) (entries : Entries) :
    Assoc.get? key (entriesAfterAll writes entries) =
      (Assoc.get? key entries).map (afterAll writes) := by
  induction writes generalizing entries with
  | nil => exact Option.map_id'.symm
  | cons w writes ih =>
    show Assoc.get? key (entriesAfterAll writes (entriesAfter w entries)) = _
    rw [ih, entriesAfter_eq_mapValues, Assoc.get?_mapValues, Option.map_map]
    rfl

/-- Writes to shared maps leave texts as they are. -/
@[simp] theorem afterAll_ofString? (text : Option String) (writes : List Write) :
    (Value.ofString? text).afterAll writes = .ofString? text := by
  induction writes with
  | nil => rfl
  | cons w writes ih =>
    have hw : (Value.ofString? text).after w = .ofString? text := by
      cases text <;> simp [Value.ofString?, Value.after]
    rw [Value.afterAll, List.foldl_cons, hw]
    exact ih

end Value

end ComponentTree
