import ComponentTree.Data
import ComponentTree.Proofs.Assoc
import ComponentTree.Proofs.Text.CodePoint
import ComponentTree.Value.Kind
import Mathlib.Data.List.Nodup

/-!
# Data

`Value.IsData` is what JSON can express in the form in which reading gives it: no map has a mark or
a key twice, and every key is a text. A descriptor becomes data whatever it holds
(`isData_toData`), since what is no data is written as its text.
-/

namespace ComponentTree.Value

/-! ## Texts as values -/

theorem ofPoints_ofString (s : String) : ofPoints (.ofString s) = .str s := by
  unfold ofPoints
  split
  · next h => rw [Points.string?_ofString, Option.some.injEq] at h; rw [h]
  · next h => rw [Points.string?_ofString] at h; cases h

theorem ofPoints_broken (text : BrokenText) : ofPoints text.points = .broken text := by
  unfold ofPoints
  split
  · next h => rw [text.broken] at h; cases h
  · rfl

/-- A text as a value is a string or a broken text. -/
theorem ofPoints_cases (text : Points) :
    (∃ s : String, text = s ∧ ofPoints text = .str s) ∨
      ∃ broken : BrokenText, text = broken.points ∧ ofPoints text = .broken broken := by
  cases h : text.string? with
  | some s =>
    obtain rfl := Points.string?_eq_some_iff.mp h
    exact .inl ⟨s, rfl, ofPoints_ofString s⟩
  | none => exact .inr ⟨⟨text, h⟩, rfl, ofPoints_broken ⟨text, h⟩⟩

/-- The text of a text is that text. -/
@[simp] theorem points_ofPoints (text : Points) : (ofPoints text).points = text := by
  rcases ofPoints_cases text with ⟨s, rfl, h⟩ | ⟨broken, rfl, h⟩
  · rw [h]
    rfl
  · rw [h]
    rfl

theorem kindName_ofPoints (text : Points) : (ofPoints text).kindName = "str" := by
  rcases ofPoints_cases text with ⟨s, -, h⟩ | ⟨broken, -, h⟩ <;> rw [h] <;> rfl

theorem ofPoints_injective : Function.Injective ofPoints :=
  Function.LeftInverse.injective points_ofPoints

/-- Values with texts for names as the entries of a map. -/
abbrev keyed (pairs : List (Points × Value)) : Entries :=
  pairs.map fun (name, value) => (ofPoints name, value)

/-- Named values as the entries of a map. -/
abbrev named (pairs : List (String × Value)) : Entries :=
  pairs.map fun (name, value) => (.str name, value)

/-- Named values with their names as texts. -/
def texted (pairs : List (String × Value)) : List (Points × Value) :=
  pairs.map fun (name, value) => (.ofString name, value)

theorem named_eq_keyed (pairs : List (String × Value)) : named pairs = keyed (texted pairs) := by
  rw [keyed, texted, List.map_map]
  exact List.map_congr_left fun pair _ => congrArg (·, pair.2) (ofPoints_ofString pair.1).symm

theorem keys_texted (pairs : List (String × Value)) :
    (texted pairs).map Prod.fst = (pairs.map Prod.fst).map .ofString := by
  rw [texted, List.map_map, List.map_map]
  rfl

theorem nodup_keys_texted {pairs : List (String × Value)} (h : (pairs.map Prod.fst).Nodup) :
    ((texted pairs).map Prod.fst).Nodup := by
  rw [keys_texted]
  exact List.Nodup.map Points.ofString_injective h

theorem forall_mem_texted {pairs : List (String × Value)} {p : Value → Prop} :
    (∀ pair ∈ texted pairs, p pair.2) ↔ ∀ pair ∈ pairs, p pair.2 := List.forall_mem_map

/-! ## What data is -/

/-- Values made of null, truth values, numbers, texts, lists, and maps with distinct texts for keys. -/
inductive IsData : Value → Prop
  | null : IsData .null
  | bool (b : Bool) : IsData (.bool b)
  | int (n : Int) : IsData (.int n)
  | float (x : Binary64) : IsData (.float x)
  | str (s : String) : IsData (.str s)
  | broken (text : BrokenText) : IsData (.broken text)
  | list {items : List Value} (h : ∀ v ∈ items, IsData v) : IsData (.list items)
  | map {pairs : List (Points × Value)} (hnames : (pairs.map Prod.fst).Nodup)
      (h : ∀ pair ∈ pairs, IsData pair.2) : IsData (.dict none (keyed pairs))

theorem isData_ofPoints (text : Points) : (ofPoints text).IsData := by
  rcases ofPoints_cases text with ⟨s, -, h⟩ | ⟨broken, -, h⟩
  · exact h ▸ .str s
  · exact h ▸ .broken broken

theorem isData_named {pairs : List (String × Value)} (hnames : (pairs.map Prod.fst).Nodup)
    (h : ∀ pair ∈ pairs, pair.2.IsData) : (Value.dict none (named pairs)).IsData := by
  rw [named_eq_keyed]
  exact .map (nodup_keys_texted hnames) (forall_mem_texted.mpr h)

theorem isData_dataMap {entries : List (Points × Value)} (h : ∀ entry ∈ entries, entry.2.IsData) :
    (dataMap entries).IsData :=
  .map (Assoc.nodup_keys_ofPairs entries) fun entry hentry => h entry (Assoc.mem_ofPairs hentry)

mutual
/-- **Every descriptor becomes data.** -/
theorem isData_toData : ∀ v : Value, v.toData.IsData
  | .null => .null
  | .bool b => .bool b
  | .int n => .int n
  | .float x => .float x
  | .str s => .str s
  | .broken text => .broken text
  | .list items => .list (isData_toDataItems items)
  | .tuple items => .list (isData_toDataItems items)
  | .dict _ entries => isData_dataMap (isData_toDataEntries entries)
  | .element type props children => by
    have hprops := isData_dataMap (isData_toDataEntries props)
    have hchildren := isData_toDataItems children
    rw [toData]
    refine @isData_named [("type", .ofPoints type.typeName), ("props", dataMap _),
      ("children", .list _)] (by simp) ?_
    simp only [List.forall_mem_cons]
    exact ⟨isData_ofPoints _, hprops, .list hchildren, by simp⟩
  | .fragment => .str _
  | .component _ => .str _

theorem isData_toDataItems : ∀ (items : List Value), ∀ v ∈ toDataItems items, v.IsData
  | [], _, h => nomatch h
  | item :: items, v, h => by
    rcases List.mem_cons.mp h with rfl | h
    · exact isData_toData item
    · exact isData_toDataItems items v h

theorem isData_toDataEntries :
    ∀ (entries : List (Value × Value)), ∀ entry ∈ toDataEntries entries, entry.2.IsData
  | [], _, h => nomatch h
  | (key, value) :: entries, entry, h => by
    rcases List.mem_cons.mp h with rfl | h
    · exact isData_toData value
    · exact isData_toDataEntries entries entry h
end

/-! ## Elements with named props -/

theorem toDataItems_eq_map : ∀ items : List Value, toDataItems items = items.map toData
  | [] => rfl
  | item :: items => by rw [toDataItems, toDataItems_eq_map items, List.map_cons]

theorem toDataEntries_keyed : ∀ pairs : List (Points × Value),
    toDataEntries (keyed pairs) = Assoc.mapValues (fun v _ => v.toData) pairs
  | [] => rfl
  | (name, value) :: pairs => by
    show ((ofPoints name).points, value.toData) :: toDataEntries (keyed pairs) = _
    rw [toDataEntries_keyed pairs, points_ofPoints]
    rfl

/-- Data of a map with distinct texts for keys is made of the data of its values. -/
theorem dataMap_keyed {pairs : List (Points × Value)} (hnames : (pairs.map Prod.fst).Nodup) :
    dataMap (toDataEntries (keyed pairs)) =
      .dict none (keyed (Assoc.mapValues (fun v _ => v.toData) pairs)) := by
  rw [toDataEntries_keyed, dataMap, Assoc.ofPairs_of_nodup (Assoc.keys_mapValues toData pairs ▸ hnames)]

theorem dataMap_named {pairs : List (String × Value)} (hnames : (pairs.map Prod.fst).Nodup) :
    dataMap (toDataEntries (named pairs)) =
      .dict none (named (Assoc.mapValues (fun v _ => v.toData) pairs)) := by
  rw [named_eq_keyed, dataMap_keyed (nodup_keys_texted hnames), named_eq_keyed, texted, texted,
    Assoc.mapValues, Assoc.mapValues, List.map_map, List.map_map]
  rfl

/-- Data of an element is made of the data of its props and of its children. -/
theorem toData_element_named {type : Value} {pairs : List (String × Value)} {children : List Value}
    (hnames : (pairs.map Prod.fst).Nodup) :
    (Value.element type (named pairs) children).toData =
      .dict none [(.str "type", .ofPoints type.typeName),
        (.str "props", .dict none (named (Assoc.mapValues (fun v _ => v.toData) pairs))),
        (.str "children", .list (children.map toData))] := by
  rw [toData, dataMap_named hnames, toDataItems_eq_map]

end ComponentTree.Value
