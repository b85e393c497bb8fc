import ComponentTree.Proofs.Converter
import ComponentTree.Proofs.Descriptor.Expressible
import ComponentTree.Proofs.Value.Equivalence

/-!
# Equality of element descriptors

Equality asks whether values are alike, except that what is no number does not equal itself. So on
*regular* values, which hold nothing of that kind, equality is an equivalence. It is a congruence too
(`Replaced.alike`): a part that is replaced by an equal one, however deep inside, leaves an equal value.
A value without one of the values that it is directly made of is a *frame*, and a part lies inside of a
value within a number of frames.
-/

namespace ComponentTree

namespace Value

/-! ## Regular values -/

mutual
/-- Nothing in a value is no number. -/
def NanFree : Value → Prop
  | .float x => ∀ payload, x ≠ .nan payload
  | .list items => AllNanFree items
  | .tuple items => AllNanFree items
  | .dict _ entries => EntriesNanFree entries
  | .element type props children => NanFree type ∧ EntriesNanFree props ∧ AllNanFree children
  | .null | .bool _ | .int _ | .str _ | .broken _ | .fragment | .component _ => True

def AllNanFree : List Value → Prop
  | [] => True
  | v :: vs => NanFree v ∧ AllNanFree vs

/-- The same for the keys and values of entries. -/
def EntriesNanFree : List (Value × Value) → Prop
  | [] => True
  | (key, value) :: entries => NanFree key ∧ NanFree value ∧ EntriesNanFree entries
end

/-- A value whose maps have distinct keys and in which nothing is no number. -/
structure Regular (v : Value) : Prop where
  proper : v.Proper
  nanFree : v.NanFree

theorem alike_of_equal : ∀ {v w : Value}, equal v w = true → alike v w = true
  | .float x, w, h => by
    cases w with
    | float y =>
      rw [equal] at h
      rw [alike]
      cases x with
      | nan => cases h
      | number => exact h
    | _ => exact h
  | .element type props children, w, h => by
    cases w with
    | element type' props' children' =>
      simp only [equal, Bool.and_eq_true] at h
      simp only [alike, Bool.and_eq_true]
      obtain ⟨⟨⟨htype, hlength⟩, hprops⟩, hchildren⟩ := h
      exact ⟨⟨⟨alike_of_equal htype, hlength⟩, hprops⟩, hchildren⟩
    | _ => cases h
  | .null, _, h | .bool _, _, h | .int _, _, h | .str _, _, h | .broken _, _, h | .list _, _, h
  | .tuple _, _, h | .dict .., _, h | .fragment, _, h | .component _, _, h => h

theorem equal_of_alike : ∀ {v w : Value}, v.NanFree → alike v w = true → equal v w = true
  | .float x, w, hv, h => by
    cases w with
    | float y =>
      rw [alike] at h
      rw [equal]
      cases x with
      | nan payload =>
        rw [NanFree] at hv
        exact absurd rfl (hv payload)
      | number => exact h
    | _ => exact h
  | .element type props children, w, hv, h => by
    rw [NanFree] at hv
    cases w with
    | element type' props' children' =>
      simp only [alike, Bool.and_eq_true] at h
      simp only [equal, Bool.and_eq_true]
      obtain ⟨⟨⟨htype, hlength⟩, hprops⟩, hchildren⟩ := h
      exact ⟨⟨⟨equal_of_alike hv.1 htype, hlength⟩, hprops⟩, hchildren⟩
    | _ => cases h
  | .null, _, _, h | .bool _, _, _, h | .int _, _, _, h | .str _, _, _, h | .broken _, _, _, h
  | .list _, _, _, h | .tuple _, _, _, h | .dict .., _, _, h | .fragment, _, _, h
  | .component _, _, _, h => h

/-- **Equality of regular values is an equivalence.** -/
theorem equal_equivalence :
    Equivalence fun d e : {v : Value // v.Regular} => equal d.1 e.1 = true where
  refl d := equal_of_alike d.2.nanFree (alike_self d.1 d.2.proper)
  symm {d e} h := equal_of_alike e.2.nanFree (alike_symm d.2.proper e.2.proper (alike_of_equal h))
  trans {d e f} h h' := equal_of_alike d.2.nanFree
    (alike_trans d.2.proper e.2.proper f.2.proper (alike_of_equal h) (alike_of_equal h'))

theorem isElement_eq_of_alike {v w : Value} (h : alike v w = true) : v.isElement = w.isElement := by
  cases v with
  | element =>
    cases w with
    | element => rfl
    | _ => cases h
  | float x =>
    cases w with
    | element => simp [alike_float, number?] at h
    | _ => rfl
  | _ =>
    cases w with
    | element => cases h
    | _ => rfl

theorem equal_eq_false_of_isElement {v w : Value} (h : v.isElement ≠ w.isElement) :
    equal v w = false := by
  by_contra hequal
  exact h (isElement_eq_of_alike (alike_of_equal (by simpa using hequal)))

theorem unequal_eq (v w : Value) : unequal v w = !equal v w := by
  cases v with
  | element => cases w <;> rfl
  | _ =>
    cases w with
    | element => rw [equal_eq_false_of_isElement (by simp [isElement])]; rfl
    | _ => rfl

/-! ## Replacing a part -/

/-- An entry of a map without its key or without its value. -/
inductive EntryFrame where
  | ofKey (value : Value)
  | ofValue (key : Value)

def EntryFrame.fill : EntryFrame → Value → Value × Value
  | .ofKey value, v => (v, value)
  | .ofValue key, v => (key, v)

/-- A value without one of the values that it is directly made of. -/
inductive Frame where
  | ofList (before after : List Value)
  | ofTuple (before after : List Value)
  | ofDict (before : Entries) (entry : EntryFrame) (after : Entries)
  | ofType (props : Entries) (children : List Value)
  | ofProp (type : Value) (before : Entries) (entry : EntryFrame) (after : Entries)
    (children : List Value)
  | ofChild (type : Value) (props : Entries) (before after : List Value)

/-- The value that a frame makes with a part. If it is a map it gets the mark. -/
def Frame.fill (mark : Option Nat) : Frame → Value → Value
  | .ofList before after, v => .list (before ++ v :: after)
  | .ofTuple before after, v => .tuple (before ++ v :: after)
  | .ofDict before entry after, v => .dict mark (before ++ entry.fill v :: after)
  | .ofType props children, v => .element v props children
  | .ofProp type before entry after children, v =>
    .element type (before ++ entry.fill v :: after) children
  | .ofChild type props before after, v => .element type props (before ++ v :: after)

/-- The second value is the first one with a part, at any depth, replaced by another value. Maps around
the part may be others then, which is what their marks tell. -/
inductive Replaced (part other : Value) : Value → Value → Prop
  | here : Replaced part other part other
  | inside {v w : Value} (frame : Frame) (mark mark' : Option Nat) (h : Replaced part other v w) :
      Replaced part other (frame.fill mark v) (frame.fill mark' w)

section Frames

variable {v w : Value} {mark mark' : Option Nat}

/-- Lists are related around a place if their items are, and all else is to itself. -/
theorem forall₂_around {α : Type} {r : α → α → Prop} {before after : List α} {a b : α}
    (hself : ∀ c ∈ before ++ a :: after, r c c) (hab : r a b) :
    List.Forall₂ r (before ++ a :: after) (before ++ b :: after) := by
  have hbefore : List.Forall₂ r before before :=
    List.forall₂_same.mpr fun c hc => hself c (List.mem_append_left _ hc)
  have hafter : List.Forall₂ r after after :=
    List.forall₂_same.mpr fun c hc => hself c (by simp [hc])
  exact List.rel_append hbefore (.cons hab hafter)

theorem alike_self_of_mem {items : List Value} (h : AllProper items) :
    ∀ u ∈ items, alike u u = true := fun u hu => alike_self u (allProper_iff.mp h u hu)

theorem entryAlike_self {entries : Entries} (h : EntriesProper entries) :
    ∀ a ∈ entries, EntryAlike a a := by
  intro a ha
  obtain ⟨hkey, hvalue⟩ := entriesProper_iff.mp h a ha
  exact ⟨alike_self a.1 hkey, alike_self a.2 hvalue⟩

theorem matched_self {entries : Entries} (h : EntriesProper entries) : Matched entries entries :=
  ⟨entries, .refl _, List.forall₂_same.mpr (entryAlike_self h)⟩

theorem matched_around {before after : Entries} {a b : Value × Value}
    (h : EntriesProper (before ++ a :: after)) (hab : EntryAlike a b) :
    Matched (before ++ a :: after) (before ++ b :: after) :=
  ⟨_, .refl _, forall₂_around (entryAlike_self h) hab⟩

theorem EntryFrame.alike_fill {entry : EntryFrame}
    (h : (entry.fill v).1.Proper ∧ (entry.fill v).2.Proper) (hvw : alike v w = true) :
    EntryAlike (entry.fill v) (entry.fill w) := by
  cases entry with
  | ofKey value => exact ⟨hvw, alike_self value h.2⟩
  | ofValue key => exact ⟨alike_self key h.1, hvw⟩

theorem EntryFrame.proper_of_fill {entry : EntryFrame}
    (h : (entry.fill v).1.Proper ∧ (entry.fill v).2.Proper) : v.Proper := by
  cases entry with
  | ofKey value => exact h.1
  | ofValue key => exact h.2

theorem Frame.proper_of_fill {frame : Frame} (h : (frame.fill mark v).Proper) : v.Proper := by
  cases frame with
  | ofList before after => exact allProper_iff.mp h v (by simp)
  | ofTuple before after => exact allProper_iff.mp h v (by simp)
  | ofDict before entry after =>
    rw [fill, Proper, entriesProper_iff] at h
    exact entry.proper_of_fill (h.2 _ (by simp))
  | ofType props children =>
    rw [fill, Proper] at h
    exact h.1
  | ofProp type before entry after children =>
    rw [fill, Proper, entriesProper_iff] at h
    exact entry.proper_of_fill (h.2.1.2 _ (by simp))
  | ofChild type props before after =>
    rw [fill, Proper, allProper_iff] at h
    exact h.2.2 v (by simp)

/-- **Frames keep values alike.** -/
theorem Frame.alike_fill {frame : Frame} (h : (frame.fill mark v).Proper)
    (h' : (frame.fill mark' w).Proper) (hvw : alike v w = true) :
    alike (frame.fill mark v) (frame.fill mark' w) = true := by
  cases frame with
  | ofList before after =>
    rw [fill, Proper] at h
    rw [fill, fill, alike, alikeItems_iff]
    exact forall₂_around (alike_self_of_mem h) hvw
  | ofTuple before after =>
    rw [fill, Proper] at h
    rw [fill, fill, alike, alikeItems_iff]
    exact forall₂_around (alike_self_of_mem h) hvw
  | ofDict before entry after =>
    rw [fill, Proper] at h h'
    have hentry := entry.alike_fill (entriesProper_iff.mp h.2 (entry.fill v) (by simp)) hvw
    exact (alike_dict_iff h h').mpr (matched_around h.2 hentry)
  | ofType props children =>
    rw [fill, Proper] at h h'
    refine (alike_element_iff h.2.1 h'.2.1).mpr ⟨hvw, matched_self h.2.1.2, ?_⟩
    exact List.forall₂_same.mpr (alike_self_of_mem h.2.2)
  | ofProp type before entry after children =>
    rw [fill, Proper] at h h'
    have hentry := entry.alike_fill (entriesProper_iff.mp h.2.1.2 (entry.fill v) (by simp)) hvw
    refine (alike_element_iff h.2.1 h'.2.1).mpr
      ⟨alike_self type h.1, matched_around h.2.1.2 hentry, ?_⟩
    exact List.forall₂_same.mpr (alike_self_of_mem h.2.2)
  | ofChild type props before after =>
    rw [fill, Proper] at h h'
    exact (alike_element_iff h.2.1 h'.2.1).mpr
      ⟨alike_self type h.1, matched_self h.2.1.2, forall₂_around (alike_self_of_mem h.2.2) hvw⟩

theorem Replaced.alike {part other : Value} (h : Replaced part other v w) (hv : v.Proper)
    (hw : w.Proper) (hpart : Value.alike part other = true) : Value.alike v w = true := by
  induction h with
  | here => exact hpart
  | inside frame mark mark' _ ih =>
    exact frame.alike_fill hv hw (ih (frame.proper_of_fill hv) (frame.proper_of_fill hw))

end Frames

/-! ## Descriptors of equal parts -/

/-- The props that a descriptor is made with: a map of them, or null for none. -/
inductive HoldsProps : Value → Entries → Prop
  | null : HoldsProps .null []
  | dict (mark : Option Nat) (props : Entries) : HoldsProps (.dict mark props) props

/-- Entries that are equal, in whatever order they stand. -/
def SameEntries (entries entries' : Entries) : Prop :=
  ∃ arranged, arranged.Perm entries' ∧
    List.Forall₂ (fun a b => equal a.1 b.1 = true ∧ equal a.2 b.2 = true) entries arranged

theorem SameEntries.matched {entries entries' : Entries} (h : SameEntries entries entries') :
    Matched entries entries' := by
  obtain ⟨arranged, hperm, hequal⟩ := h
  exact ⟨arranged, hperm, hequal.imp fun _ _ h => ⟨alike_of_equal h.1, alike_of_equal h.2⟩⟩

theorem HoldsProps.describeElement {given : Value} {props : Entries} (h : HoldsProps given props)
    (type : Value) (children : List Value) :
    ComponentTree.describeElement type given children = .ok (.element type props children) := by
  cases h with
  | null => rfl
  | dict mark props => exact describeElement_dict type mark props children

theorem equal_element {type type' : Value} {props props' : Entries} {children children' : List Value}
    (h : (element type props children).Regular) (h' : (element type' props' children').Regular)
    (htype : equal type type' = true) (hprops : SameEntries props props')
    (hchildren : List.Forall₂ (fun v w => equal v w = true) children children') :
    equal (.element type props children) (.element type' props' children') = true := by
  have hproper := h.proper
  have hproper' := h'.proper
  rw [Proper] at hproper hproper'
  refine equal_of_alike h.nanFree ((alike_element_iff hproper.2.1 hproper'.2.1).mpr ?_)
  exact ⟨alike_of_equal htype, hprops.matched, hchildren.imp fun _ _ => alike_of_equal⟩

/-- **Equality of descriptors is an equivalence and a congruence.** Among values in which nothing is no
number it is reflexive, symmetric and transitive; inequality is its negation; and no element equals
what is none. Descriptors that are made with equal types, with equal props in whatever order and with
equal children are equal. A part of a descriptor that is replaced by an equal value, at any depth, leaves
an equal descriptor. -/
theorem equal_is_congruence :
    (Equivalence fun d e : {v : Value // v.Regular} => equal d.1 e.1 = true) ∧
    (∀ v w : Value, unequal v w = !equal v w) ∧
    (∀ v w : Value, v.isElement ≠ w.isElement → equal v w = false) ∧
    (∀ (type type' given given' : Value) (props props' : Entries) (children children' : List Value),
      HoldsProps given props → HoldsProps given' props' →
      (element type props children).Regular → (element type' props' children').Regular →
      equal type type' = true → SameEntries props props' →
      List.Forall₂ (fun v w => equal v w = true) children children' →
      ∃ d e, describeElement type given children = .ok d ∧
        describeElement type' given' children' = .ok e ∧ equal d e = true) ∧
    ∀ part other d e : Value, d.Regular → e.Regular → Replaced part other d e →
      equal part other = true → equal d e = true := by
  refine ⟨equal_equivalence, unequal_eq, fun v w => equal_eq_false_of_isElement, ?_, ?_⟩
  · intro type type' given given' props props' children children' hgiven hgiven' h h' htype hprops
      hchildren
    exact ⟨_, _, hgiven.describeElement type children, hgiven'.describeElement type' children',
      equal_element h h' htype hprops hchildren⟩
  · intro part other d e hd he hreplaced hpart
    have halike := hreplaced.alike hd.proper he.proper (alike_of_equal hpart)
    exact equal_of_alike hd.nanFree halike

/-- One, as a floating point number. -/
def floatOne : Value := .float (.ofRank false (1023 * Binary64.block))

/-- Two props, of which one is a map in which a value is an item of a list under a number. -/
def tallyProps (item : Value) : Entries :=
  [(.str "title", .null), (.str "tally", .dict none [(.int 1, .list [.fragment, item])])]

/-- A card with these props. -/
def tallyCard (props : Entries) : Value := .element (.str "x-card") props [.str "text"]

theorem tallyCard_regular {item : Value} (h : item.Regular) :
    (tallyCard (tallyProps item)).Regular ∧ (tallyCard (tallyProps item).reverse).Regular := by
  obtain ⟨hproper, hnanFree⟩ := h
  constructor
  · constructor
    · simp [tallyCard, tallyProps, Proper, AllProper, EntriesProper, DistinctKeys, alike, hproper]
    · simp [tallyCard, tallyProps, NanFree, AllNanFree, EntriesNanFree, hnanFree]
  · constructor
    · simp [tallyCard, tallyProps, Proper, AllProper, EntriesProper, DistinctKeys, alike, hproper]
    · simp [tallyCard, tallyProps, NanFree, AllNanFree, EntriesNanFree, hnanFree]

/-- Truth is replaced by the floating point number that it equals, deep inside of a prop; and the same
card is made once more with its props in the other order. -/
theorem equal_is_congruence_tallyCard :
    (tallyCard (tallyProps (.bool true))).Regular ∧ (tallyCard (tallyProps floatOne)).Regular ∧
      equal (.bool true) floatOne = true ∧
      Replaced (.bool true) floatOne (tallyCard (tallyProps (.bool true)))
        (tallyCard (tallyProps floatOne)) ∧
      equal (tallyCard (tallyProps floatOne)) (tallyCard (tallyProps (.bool true))) = true ∧
      SameEntries (tallyProps (.bool true)).reverse (tallyProps floatOne) ∧
      ∃ d e, describeElement (.str "x-card") (.dict (some 0) (tallyProps (.bool true)).reverse)
          [.str "text"] = .ok d ∧
        describeElement (.str "x-card") (.dict none (tallyProps floatOne)) [.str "text"] = .ok e ∧
        equal d e = true := by
  have hone : equal (.bool true) floatOne = true := by decide +kernel
  have hd := @tallyCard_regular (.bool true) ⟨trivial, trivial⟩
  have he := @tallyCard_regular floatOne ⟨trivial, fun _ => nofun⟩
  have hreplaced : Replaced (.bool true) floatOne (tallyCard (tallyProps (.bool true)))
      (tallyCard (tallyProps floatOne)) :=
    .inside (.ofProp (.str "x-card") [(.str "title", .null)] (.ofValue (.str "tally")) [] [.str "text"])
      none none (.inside (.ofDict [] (.ofValue (.int 1)) []) none none
        (.inside (.ofList [.fragment] []) none none .here))
  have hsame : SameEntries (tallyProps (.bool true)).reverse (tallyProps floatOne) :=
    ⟨(tallyProps floatOne).reverse, List.reverse_perm _, .cons (by decide +kernel)
      (.cons (by decide +kernel) .nil)⟩
  obtain ⟨hequivalence, -, -, hmade, hcongruence⟩ := equal_is_congruence
  have hequal := hcongruence _ _ _ _ hd.1 he.1 hreplaced hone
  exact ⟨hd.1, he.1, hone, hreplaced, @hequivalence.symm ⟨_, hd.1⟩ ⟨_, he.1⟩ hequal, hsame,
    hmade _ _ _ _ _ _ _ _ (.dict _ _) (.dict _ _) hd.2 he.1 rfl hsame (.cons rfl .nil)⟩

end Value

end ComponentTree
