import ComponentTree.Proofs.Data

/-!
# Data as a normal form

What becomes of a descriptor is data (`isData_toData`), and data stays as it is
(`IsData.toData_eq`), so turning descriptors into data is a projection onto its own fixed points. Two
distinctions that values make are lost on the way: which maps are a single one that is seen at several
places (`toData_unmarked`), and which sequences are tuples (`toData_asLists`).
-/

namespace ComponentTree.Value

/-! ## Data stays as it is -/

theorem IsData.toData_eq {v : Value} (h : v.IsData) : v.toData = v := by
  induction h with
  | list _ ih => rw [toData, toDataItems_eq_map, List.map_congr_left ih, List.map_id']
  | @map pairs hnames _ ih =>
    have hvalues : Assoc.mapValues (fun v _ => v.toData) pairs = pairs := by
      calc Assoc.mapValues (fun v _ => v.toData) pairs
          = pairs.map id := List.map_congr_left fun pair hpair => Prod.ext rfl (ih pair hpair)
        _ = pairs := List.map_id pairs
    rw [toData, dataMap_keyed hnames, hvalues]
  | _ => rw [toData]

theorem toData_eq_self_iff {v : Value} : v.toData = v ↔ v.IsData :=
  ⟨fun h => h ▸ isData_toData v, IsData.toData_eq⟩

/-! ## What data does not tell -/

section Reshaping

variable (ofTuple : List Value → Value) (ofMark : Option Nat → Option Nat)

mutual
/-- A value with its tuples made anew from their items, and its maps marked anew. Types of elements and
keys of maps, of which data has the texts only, stay as they are. -/
def reshaped : Value → Value
  | .list items => .list (itemsReshaped items)
  | .tuple items => ofTuple (itemsReshaped items)
  | .dict mark entries => .dict (ofMark mark) (entriesReshaped entries)
  | .element type props children => .element type (entriesReshaped props) (itemsReshaped children)
  | other => other

def itemsReshaped : List Value → List Value
  | [] => []
  | item :: items => reshaped item :: itemsReshaped items

def entriesReshaped : List (Value × Value) → List (Value × Value)
  | [] => []
  | (key, value) :: entries => (key, reshaped value) :: entriesReshaped entries
end

variable {ofTuple}

mutual
/-- Data does not tell how tuples are made, as long as it takes them for the list of their items, nor
how maps are marked. -/
theorem toData_reshaped (h : ∀ items, (ofTuple items).toData = .list (toDataItems items)) :
    ∀ v : Value, (reshaped ofTuple ofMark v).toData = v.toData
  | .list items => by rw [reshaped, toData, toData, toDataItems_reshaped h items]
  | .tuple items => by rw [reshaped, h, toData, toDataItems_reshaped h items]
  | .dict _ entries => by rw [reshaped, toData, toData, toDataEntries_reshaped h entries]
  | .element type props children => by
    rw [reshaped, toData, toData, toDataEntries_reshaped h props, toDataItems_reshaped h children]
  | .null | .bool _ | .int _ | .float _ | .str _ | .broken _ | .fragment | .component _ => rfl

theorem toDataItems_reshaped (h : ∀ items, (ofTuple items).toData = .list (toDataItems items)) :
    ∀ items : List Value, toDataItems (itemsReshaped ofTuple ofMark items) = toDataItems items
  | [] => rfl
  | item :: items => by
    rw [itemsReshaped, toDataItems, toDataItems, toData_reshaped h item,
      toDataItems_reshaped h items]

theorem toDataEntries_reshaped (h : ∀ items, (ofTuple items).toData = .list (toDataItems items)) :
    ∀ entries : List (Value × Value),
      toDataEntries (entriesReshaped ofTuple ofMark entries) = toDataEntries entries
  | [] => rfl
  | (key, value) :: entries => by
    rw [entriesReshaped, toDataEntries, toDataEntries, toData_reshaped h value,
      toDataEntries_reshaped h entries]
end

end Reshaping

/-- A value without the marks that tell which of its maps are a single one. -/
def unmarked : Value → Value := reshaped .tuple fun _ => none

theorem toData_unmarked (v : Value) : v.unmarked.toData = v.toData :=
  toData_reshaped _ (fun _ => by rw [toData]) v

/-- A value with a list in place of every tuple. -/
def asLists : Value → Value := reshaped .list id

theorem toData_asLists (v : Value) : v.asLists.toData = v.toData :=
  toData_reshaped _ (fun _ => by rw [toData]) v

/-- **Data is a normal form of descriptors.** Whatever a descriptor holds, all that becomes of it is
data: null, truth values, numbers, texts, lists, and maps with distinct texts for keys. What is data
already stays as it is, and nothing else does, so data of data is the same data. (Which maps are a
single one is no matter for data.) Which sequences of a descriptor are lists and which are tuples, in
whatever place, shows neither in its data nor in the text of that. -/
theorem data_is_normal_form :
    (∀ d : Value, d.toData.IsData) ∧
    (∀ d : Value, (d.toData = d ↔ d.IsData) ∧ (d.toData = d.unmarked ↔ d.unmarked.IsData)) ∧
    (∀ d : Value, d.toData.toData = d.toData) ∧
    ∀ d e : Value, d.asLists = e.asLists →
      d.toData = e.toData ∧ ∀ indent, generate indent d = generate indent e := by
  refine ⟨isData_toData, fun d => ⟨toData_eq_self_iff, ?_⟩, fun d => (isData_toData d).toData_eq, ?_⟩
  · rw [← toData_unmarked, toData_eq_self_iff]
  · intro d e h
    have hdata : d.toData = e.toData := by rw [← toData_asLists d, h, toData_asLists]
    exact ⟨hdata, fun indent => congrArg (Json.text indent) hdata⟩

/-- A card with a sequence in a prop, and one as a child. -/
def sequenceCard (sequence : List Value → Value) : Value :=
  .element (.component ⟨0, "Card", none, false⟩)
    [(.str "rows", sequence [.int 1, sequence []]), (.int 2, .dict (some 0) [(.null, .fragment)])]
    [.element (.tuple []) [] [sequence [.str "text"]]]

theorem data_is_normal_form_sequenceCard :
    (sequenceCard .tuple).asLists = (sequenceCard .list).asLists ∧
      (sequenceCard .tuple).toData = (sequenceCard .list).toData ∧
      generate defaultIndent (sequenceCard .tuple) = generate defaultIndent (sequenceCard .list) ∧
      (sequenceCard .tuple).toData.IsData := by
  obtain ⟨hdata, -, -, hsequences⟩ := data_is_normal_form
  have hlists : (sequenceCard .tuple).asLists = (sequenceCard .list).asLists := rfl
  obtain ⟨hsame, htext⟩ := hsequences _ _ hlists
  exact ⟨hlists, hsame, htext defaultIndent, hdata _⟩

end ComponentTree.Value
