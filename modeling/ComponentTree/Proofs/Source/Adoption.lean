import ComponentTree.Proofs.Conversion.Slots
import ComponentTree.Proofs.Source.Graph

/-!
# Who took in whom

The child links and the parent links of hand-built nodes are written side by side, but only the
parent link is ever written over. So a node lists every child that it took in, and a child knows the
last node that took it in (`NodeStore.BuiltBy.children`, `NodeStore.BuiltBy.parent`). The links of a
node agree exactly if it was never taken in by two nodes.
-/

namespace ComponentTree

/-- A node takes in a child. -/
structure Adoption where
  parent : NodeId
  child : Node

namespace Adoption

variable {history history' : List Adoption} {children : List Node} {p c : NodeId}

/-- Whether the child is a certain node of the store. -/
def isOf (c : NodeId) (a : Adoption) : Bool :=
  match a.child with
  | .stored id => id == c
  | .parsed _ _ => false

theorem isOf_iff {a : Adoption} : a.isOf c = true ↔ a.child = .stored c := by
  unfold isOf
  cases a.child with
  | stored id => simp
  | parsed view marks => simp

/-- The children that a node took in, in order. -/
def takenBy (history : List Adoption) (p : NodeId) : List Node :=
  (history.filter (·.parent == p)).map (·.child)

/-- The node that took in a node last. -/
def lastTaker? (history : List Adoption) (c : NodeId) : Option NodeId :=
  (history.filter (·.isOf c)).getLast?.map (·.parent)

theorem takenBy_append : takenBy (history ++ history') p = takenBy history p ++ takenBy history' p := by
  rw [takenBy, List.filter_append, List.map_append]
  rfl

/-- What comes later in a history has the last word. -/
theorem lastTaker?_append :
    lastTaker? (history ++ history') c = (lastTaker? history' c).or (lastTaker? history c) := by
  rw [lastTaker?, List.filter_append, List.getLast?_append, lastTaker?, lastTaker?]
  cases (history'.filter (·.isOf c)).getLast? <;> rfl

theorem mem_takenBy {child : Node} : child ∈ takenBy history p ↔ ⟨p, child⟩ ∈ history := by
  simp only [takenBy, List.mem_map, List.mem_filter, beq_iff_eq]
  constructor
  · rintro ⟨a, ⟨ha, rfl⟩, rfl⟩
    exact ha
  · intro h
    exact ⟨_, ⟨h, rfl⟩, rfl⟩

theorem mem_of_lastTaker? (h : lastTaker? history c = some p) : ⟨p, .stored c⟩ ∈ history := by
  obtain ⟨a, ha, rfl⟩ := Option.map_eq_some_iff.mp h
  obtain ⟨hmem, hof⟩ := List.mem_filter.mp (List.mem_of_getLast? ha)
  rw [← isOf_iff.mp hof]
  exact hmem

/-- A node that was taken in has a last taker. -/
theorem exists_lastTaker? (h : ⟨p, .stored c⟩ ∈ history) : ∃ q, lastTaker? history c = some q := by
  have hmem : (⟨p, .stored c⟩ : Adoption) ∈ history.filter (·.isOf c) :=
    List.mem_filter.mpr ⟨h, isOf_iff.mpr rfl⟩
  obtain ⟨a, ha⟩ := Option.isSome_iff_exists.mp (List.getLast?_isSome.mpr (List.ne_nil_of_mem hmem))
  exact ⟨a.parent, by rw [lastTaker?, ha]; rfl⟩

theorem lastTaker?_eq_none (h : ∀ a ∈ history, a.child ≠ .stored c) : lastTaker? history c = none := by
  cases hlast : lastTaker? history c with
  | none => rfl
  | some p => exact absurd rfl (h _ (mem_of_lastTaker? hlast))

/-! ## One node takes in several children -/

theorem takenBy_map_mk {q : NodeId} :
    takenBy (children.map (Adoption.mk q)) p = if q = p then children else [] := by
  rw [takenBy, List.filter_map, List.map_map]
  split
  · next h => subst h; simp [Function.comp_def]
  · next h => simp [Function.comp_def, h]

theorem lastTaker?_map_mk_of_mem (h : .stored c ∈ children) :
    lastTaker? (children.map (Adoption.mk p)) c = some p := by
  obtain ⟨q, hq⟩ := exists_lastTaker? (List.mem_map_of_mem (f := Adoption.mk p) h)
  obtain ⟨child, -, heq⟩ := List.mem_map.mp (mem_of_lastTaker? hq)
  have hp : p = q := congrArg Adoption.parent heq
  rw [hq, hp]

theorem lastTaker?_map_mk_of_not_mem (h : .stored c ∉ children) :
    lastTaker? (children.map (Adoption.mk p)) c = none := by
  refine lastTaker?_eq_none fun a ha heq => h ?_
  obtain ⟨child, hchild, rfl⟩ := List.mem_map.mp ha
  exact heq ▸ hchild

end Adoption

namespace NodeStore

open Adoption

variable {s : NodeStore} {history : List Adoption} {taken : List Node} {p c i : NodeId}

/-- The stores that come about by making nodes and appending children, with what was taken in on the
way. -/
inductive BuiltBy : NodeStore → List Adoption → Prop
  | empty : BuiltBy .empty []
  | add {s : NodeStore} {history : List Adoption} (content : NodeContent) {children : List Node} :
      BuiltBy s history → (∀ c ∈ children, s.Holds c) →
      BuiltBy (s.add content children).2 (history ++ children.map (Adoption.mk s.nodes.size))
  | append {s : NodeStore} {history : List Adoption} {parent : NodeId} {child : Node} :
      BuiltBy s history → parent < s.nodes.size → s.Holds child →
      BuiltBy (s.append parent child) (history ++ [child].map (Adoption.mk parent))

/-- Every store that can be built has a history. -/
theorem built_iff : s.Built ↔ ∃ history, s.BuiltBy history := by
  constructor
  · intro h
    induction h with
    | empty => exact ⟨_, .empty⟩
    | add content _ hheld ih =>
      obtain ⟨history, h⟩ := ih
      exact ⟨_, .add content h hheld⟩
    | append _ hparent hheld ih =>
      obtain ⟨history, h⟩ := ih
      exact ⟨_, .append h hparent hheld⟩
  · rintro ⟨history, h⟩
    induction h with
    | empty => exact .empty
    | add content _ hheld ih => exact .add content ih hheld
    | append _ hparent hheld ih => exact .append ih hparent hheld

/-- Whatever was taken in is a node of the store or parsed markup. -/
theorem BuiltBy.held (h : s.BuiltBy history) : ∀ a ∈ history, s.Holds a.child := by
  induction h with
  | empty => simp
  | @add s history content children _ hheld ih =>
    have hgrown : s.nodes.size ≤ (s.add content children).2.nodes.size := by simp
    intro a ha
    rcases List.mem_append.mp ha with ha | ha
    · exact (ih a ha).mono hgrown
    · obtain ⟨child, hchild, rfl⟩ := List.mem_map.mp ha
      exact (hheld child hchild).mono hgrown
  | @append s history parent child _ _ hheld ih =>
    have hsize : s.nodes.size ≤ (s.append parent child).nodes.size := by simp
    intro a ha
    rcases List.mem_append.mp ha with ha | ha
    · exact (ih a ha).mono hsize
    · obtain ⟨c, hc, rfl⟩ := List.mem_map.mp ha
      rw [List.mem_singleton.mp hc]
      exact hheld.mono hsize

/-! ## What one step does to the links -/

/-- The node that takes in children becomes their parent, and all others keep theirs. -/
theorem parent_adopt (h : .stored i ∈ taken → i < s.nodes.size) :
    ((s.adopt p taken).get i).parent =
      (lastTaker? (taken.map (Adoption.mk p)) i).or (s.get i).parent := by
  by_cases hm : .stored i ∈ taken
  · rw [parent_adopt_of_mem hm (h hm), lastTaker?_map_mk_of_mem hm, Option.some_or]
  · rw [get_adopt_of_not_mem hm, lastTaker?_map_mk_of_not_mem hm, Option.none_or]

theorem parent_append {child : Node} :
    ((s.append p child).get i).parent = ((s.adopt p [child]).get i).parent := by
  rw [append, get_update, adopt_cons, adopt_nil]
  split <;> rfl

theorem parent_add (content : NodeContent) (h : .stored i ∈ taken → i < s.nodes.size) :
    ((s.add content taken).2.get i).parent =
      (lastTaker? (taken.map (Adoption.mk s.nodes.size)) i).or (s.get i).parent := by
  have hpush : .stored i ∈ taken →
      i < (⟨s.nodes.push ⟨content, none, taken⟩⟩ : NodeStore).nodes.size := by
    rw [Array.size_push]
    exact fun hm => Nat.lt_succ_of_lt (h hm)
  rw [add_eq]
  simp only [parent_adopt hpush, get_push]
  split
  · next hi => rw [get_of_size_le (Nat.le_of_eq hi.symm)]
  · rfl

/-! ## What the history tells of the links -/

/-- **A node lists what it took in**, in order and as often as it took it in. -/
theorem BuiltBy.children (h : s.BuiltBy history) (p : NodeId) :
    (s.get p).children = takenBy history p := by
  induction h with
  | empty => exact congrArg StoredNode.children (get_of_size_le (Nat.zero_le _))
  | @add s history content children h hheld ih =>
    rw [children_add, takenBy_append, takenBy_map_mk, ← ih]
    by_cases hp : p = s.nodes.size
    · -- the node is new, so nothing was listed under it before
      rw [if_pos hp, if_pos hp.symm, get_of_size_le (Nat.le_of_eq hp.symm)]
      rfl
    · rw [if_neg hp, if_neg (Ne.symm hp), List.append_nil]
  | @append s history parent child h hparent hheld ih =>
    rw [children_append, takenBy_append, takenBy_map_mk, ← ih]
    by_cases hp : parent = p
    · rw [if_pos ⟨hp, hp ▸ hparent⟩, if_pos hp]
    · rw [if_neg fun hc => hp hc.1, if_neg hp, List.append_nil]

/-- **A node knows who took it in last.** -/
theorem BuiltBy.parent (h : s.BuiltBy history) (c : NodeId) :
    (s.get c).parent = lastTaker? history c := by
  induction h with
  | empty => exact congrArg StoredNode.parent (get_of_size_le (Nat.zero_le _))
  | add content _ hheld ih =>
    rw [parent_add content (hheld (.stored c)), lastTaker?_append, ih]
  | @append s history parent child _ _ hheld ih =>
    have hc : Node.stored c ∈ [child] → c < s.nodes.size := fun hm =>
      show s.Holds (.stored c) from List.mem_singleton.mp hm ▸ hheld
    rw [parent_append, parent_adopt hc, lastTaker?_append, ih]

/-- No two nodes took in a certain node. -/
def TakenByOne (history : List Adoption) (c : NodeId) : Prop :=
  ∀ a ∈ history, ∀ b ∈ history, a.child = .stored c → b.child = .stored c → a.parent = b.parent

theorem BuiltBy.mem_children_iff (h : s.BuiltBy history) {child : Node} :
    child ∈ s.source.children (.stored p) ↔ ⟨p, child⟩ ∈ history := by
  show child ∈ (s.get p).children ↔ _
  rw [h.children, mem_takenBy]

theorem BuiltBy.parent_eq_iff (h : s.BuiltBy history) :
    s.source.parent (.stored c) = some (.stored p) ↔ lastTaker? history c = some p := by
  show (s.get c).parent.map Node.stored = some (.stored p) ↔ _
  rw [h.parent]
  simp

/-- **The links of a node agree exactly if no two nodes took it in.** Its parent always lists it, but
a node that lists it is its parent only if it was the last one to take it in. -/
theorem links_agree_iff_takenByOne (h : s.BuiltBy history) (c : NodeId) :
    (∀ p, s.source.parent (.stored c) = some (.stored p) →
      .stored c ∈ s.source.children (.stored p)) ∧
    (∀ p, .stored c ∈ s.source.children (.stored p) →
      (s.source.parent (.stored c) = some (.stored p) ↔ lastTaker? history c = some p)) ∧
    ((∀ p, .stored c ∈ s.source.children (.stored p) →
      s.source.parent (.stored c) = some (.stored p)) ↔ TakenByOne history c) := by
  refine ⟨fun p hp => h.mem_children_iff.mpr (mem_of_lastTaker? (h.parent_eq_iff.mp hp)),
    fun p _ => h.parent_eq_iff, fun hall a ha b hb hac hbc => ?_, fun hone p hp => ?_⟩
  · -- both are the last one to take it in
    have hlast : ∀ d ∈ history, d.child = .stored c → lastTaker? history c = some d.parent :=
      fun d hd hdc => h.parent_eq_iff.mp (hall _ (h.mem_children_iff.mpr (hdc ▸ hd)))
    exact Option.some.inj ((hlast a ha hac).symm.trans (hlast b hb hbc))
  · have hmem := h.mem_children_iff.mp hp
    obtain ⟨q, hq⟩ := exists_lastTaker? hmem
    have hqp : q = p := hone _ (mem_of_lastTaker? hq) _ hmem rfl rfl
    exact h.parent_eq_iff.mpr (hqp ▸ hq)

/-- A store in which no node was taken in by two, and parsed markup by none, is coherent: there the
two links always lead to the same decision on a slot. -/
theorem BuiltBy.coherent (h : s.BuiltBy history) (hone : ∀ c, TakenByOne history c)
    (hstored : ∀ a ∈ history, ∃ c, a.child = .stored c) :
    s.source.Coherent fun node => ∃ id, node = .stored id := by
  refine NodeStore.coherent ?_ ?_ ?_
  · rintro _ b ⟨p, rfl⟩ hb
    exact hstored _ (h.mem_children_iff.mp hb)
  · rintro _ b ⟨p, rfl⟩ hb
    obtain ⟨c, rfl⟩ := hstored _ (h.mem_children_iff.mp hb)
    have hmem := h.mem_children_iff.mp hb
    obtain ⟨q, hq⟩ := exists_lastTaker? hmem
    have hqp : q = p := hone c _ (mem_of_lastTaker? hq) _ hmem rfl rfl
    exact h.parent_eq_iff.mpr (hqp ▸ hq)
  · rintro view marks ⟨id, hid⟩
    cases hid

/-- A title that is lent to a card and then to another element. -/
def lentTitle : NodeStore :=
  let title := (NodeStore.empty.add (.ofElement "b" [("slot", "title")]) []).2
  let card := (title.add (.ofElement "x-card" []) [.stored 0]).2
  (card.add (.ofElement "div" []) [.stored 0]).2

theorem lentTitle_builtBy : lentTitle.BuiltBy [⟨1, .stored 0⟩, ⟨2, .stored 0⟩] := by
  have hheld : ∀ s : NodeStore, 0 < s.nodes.size → ∀ c ∈ [Node.stored 0], s.Holds c :=
    fun s hs c hc => List.mem_singleton.mp hc ▸ hs
  have htitle : (NodeStore.empty.add (.ofElement "b" [("slot", "title")]) []).2.BuiltBy [] :=
    .add _ .empty (by simp)
  have hcard := htitle.add (.ofElement "x-card" []) (hheld _ Nat.one_pos)
  exact hcard.add (.ofElement "div" []) (hheld _ Nat.two_pos)

/-- The card lists the title, but the parent of the title is the other element. -/
theorem links_agree_iff_lentTitle :
    lentTitle.BuiltBy [⟨1, .stored 0⟩, ⟨2, .stored 0⟩] ∧
      ¬ TakenByOne [⟨1, .stored 0⟩, ⟨2, .stored 0⟩] 0 ∧
      .stored 0 ∈ lentTitle.source.children (.stored 2) ∧
      ∃ p, .stored 0 ∈ lentTitle.source.children (.stored p) ∧
        lentTitle.source.parent (.stored 0) ≠ some (.stored p) := by
  obtain ⟨hlisted, -, hiff⟩ := links_agree_iff_takenByOne lentTitle_builtBy 0
  have htwo : ¬ TakenByOne [⟨1, .stored 0⟩, ⟨2, .stored 0⟩] 0 := fun hone =>
    absurd (hone ⟨1, .stored 0⟩ (by simp) ⟨2, .stored 0⟩ (by simp) rfl rfl) (by decide)
  obtain ⟨p, hp⟩ := not_forall.mp (mt hiff.mp htwo)
  exact ⟨lentTitle_builtBy, htwo, hlisted 2 rfl, p, Classical.not_imp.mp hp⟩

/-- Being listed does not make a node the parent, and the converter does not notice: the title goes
into a slot of the card and keeps its slot attribute for itself. -/
theorem lentTitle_links_differ :
    (lentTitle.Built ∧ ¬ ∀ p c, .stored c ∈ lentTitle.source.children (.stored p) →
      lentTitle.source.parent (.stored c) = some (.stored p)) ∧
    (convert lentTitle.source
      (Converter.plain [("x-card", .component ⟨0, "Card", none, false⟩)] none).host none
      (.stored 1)).outcome =
        .ok (.element (.component ⟨0, "Card", none, false⟩)
          [(.str "title", .element (.str "b") [(.str "slot", .str "title")] [])] []) := by
  refine ⟨⟨built_iff.mpr ⟨_, lentTitle_builtBy⟩, fun h => ?_⟩, by rfl⟩
  have hlisted : Node.stored 0 ∈ lentTitle.source.children (.stored 1) := List.mem_singleton.mpr rfl
  have hparent : lentTitle.source.parent (.stored 0) = some (.stored 2) := rfl
  rw [h 1 0 hlisted] at hparent
  simp at hparent

end NodeStore

end ComponentTree
