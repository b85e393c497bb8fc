import ComponentTree.Proofs.Source.Store
import ComponentTree.Source.Parsed
import Mathlib.Data.List.Forall2

/-!
# One tree, kept in two ways

A *sketch* is a markup tree on its own: elements, texts and comments, and nothing of how they are
kept. It can be built by hand, node by node in a store, and it can be what a parser makes. There an
attribute may hold a list of tokens, which a hand-built tree holds joined by single spaces.

`NodeStore.Stands` says that a node of a store stands for a sketch, and `NodeStore.exists_stands`
that the nodes which are built for a sketch do. The parent of the node itself is left open, since
adopting the node changes it while the node goes on to stand for the sketch.
-/

namespace ComponentTree

/-! ## Sketches -/

/-- What an attribute of a sketch holds. -/
inductive AttributeText where
  | whole (text : String)
  | tokens (parts : List String)

namespace AttributeText

/-- As one text. -/
def joined : AttributeText → String
  | whole text => text
  | tokens parts => " ".intercalate parts

/-- As a parser keeps it. -/
def parsed : AttributeText → Value
  | whole text => .str text
  | tokens parts => .list (parts.map .str)

end AttributeText

/-- A markup tree, however it is kept. -/
inductive Sketch where
  | element (tag : String) (attributes : List (String × AttributeText)) (children : List Sketch)
  | text (s : String)
  | comment (s : String)

namespace Sketch

/-- What the top of a sketch holds when it is built by hand. -/
def content : Sketch → NodeContent
  | element tag attributes _ =>
    .ofElement tag (attributes.map fun (name, held) => (name, held.joined))
  | text s => .text (some s)
  | comment s => .comment (some s)

mutual
/-- The plan for building a sketch by hand. -/
def draft : Sketch → Draft
  | element tag attributes children =>
    .element tag (attributes.map fun (name, held) => (name, held.joined)) (draftAll children)
  | text s => .text (some s)
  | comment s => .comment (some s)

def draftAll : List Sketch → List Draft
  | [] => []
  | t :: ts => draft t :: draftAll ts
end

mutual
def markup : Sketch → Markup
  | element tag attributes children =>
    .element tag (attributes.map fun (name, held) => (name, held.parsed)) (markupAll children)
  | text s => .text s
  | comment s => .other (some s)

def markupAll : List Sketch → List Markup
  | [] => []
  | t :: ts => markup t :: markupAll ts
end

mutual
/-- No element has two attributes whose names differ in case only. -/
def WellNamed : Sketch → Prop
  | element _ attributes children =>
    (attributes.map fun a => lowercase a.1).Nodup ∧ AllWellNamed children
  | text _ => True
  | comment _ => True

def AllWellNamed : List Sketch → Prop
  | [] => True
  | t :: ts => WellNamed t ∧ AllWellNamed ts
end

end Sketch

/-! ## Nodes that stand for a sketch -/

namespace NodeStore

mutual
/-- A node stands for a sketch: it has its content and children that stand for its children. -/
def Stands (s : NodeStore) : Sketch → NodeId → Prop
  | .element tag attributes children, id =>
    (s.get id).content =
        .ofElement tag (attributes.map fun (name, held) => (name, held.joined)) ∧
      StandAll s id children (s.get id).children
  | .text text, id => (s.get id).content = .text (some text) ∧ (s.get id).children = []
  | .comment text, id => (s.get id).content = .comment (some text) ∧ (s.get id).children = []

/-- Children of a parent stand for sketches one by one. -/
def StandAll (s : NodeStore) (parent : NodeId) : List Sketch → List Node → Prop
  | [], nodes => nodes = []
  | t :: ts, nodes => ∃ child rest, nodes = .stored child :: rest ∧
      (s.get child).parent = some parent ∧ Stands s t child ∧ StandAll s parent ts rest
end

variable {s s' : NodeStore} {id : NodeId}

/-- A store in which all that was there is left as it was, but that nodes may have been adopted that
had no parent. -/
structure Extends (s s' : NodeStore) : Prop where
  size : s.nodes.size ≤ s'.nodes.size
  content : ∀ i, i < s.nodes.size → (s'.get i).content = (s.get i).content
  children : ∀ i, i < s.nodes.size → (s'.get i).children = (s.get i).children
  parent : ∀ i, i < s.nodes.size → ∀ p, (s.get i).parent = some p → (s'.get i).parent = some p

theorem Stands.content {t : Sketch} (h : s.Stands t id) : (s.get id).content = t.content := by
  cases t with
  | element tag attributes children => rw [Stands] at h; exact h.1
  | text text => rw [Stands] at h; exact h.1
  | comment text => rw [Stands] at h; exact h.1

/-- A place that is not taken stands for nothing. -/
theorem Stands.lt_size {t : Sketch} (h : s.Stands t id) : id < s.nodes.size := by
  refine Nat.lt_of_not_le fun hle => ?_
  have hcontent := h.content
  rw [get_of_size_le hle] at hcontent
  cases t <;> cases hcontent

mutual
/-- What stands for a sketch goes on to do so in any store that extends this one. -/
theorem Stands.mono (he : s.Extends s') : ∀ {t : Sketch} {id : NodeId}, s.Stands t id → s'.Stands t id
  | .element tag attributes children, id, h => by
    have hlt := h.lt_size
    rw [Stands] at h ⊢
    rw [he.content id hlt, he.children id hlt]
    exact ⟨h.1, StandAll.mono he h.2⟩
  | .text text, id, h => by
    have hlt := h.lt_size
    rw [Stands] at h ⊢
    rw [he.content id hlt, he.children id hlt]
    exact h
  | .comment text, id, h => by
    have hlt := h.lt_size
    rw [Stands] at h ⊢
    rw [he.content id hlt, he.children id hlt]
    exact h

theorem StandAll.mono (he : s.Extends s') : ∀ {ts : List Sketch} {parent : NodeId} {nodes : List Node},
    s.StandAll parent ts nodes → s'.StandAll parent ts nodes
  | [], parent, nodes, h => by
    rw [StandAll] at h ⊢
    exact h
  | t :: ts, parent, nodes, h => by
    rw [StandAll] at h ⊢
    obtain ⟨child, rest, rfl, hparent, hchild, hrest⟩ := h
    exact ⟨child, rest, rfl, he.parent child hchild.lt_size parent hparent, hchild.mono he,
      StandAll.mono he hrest⟩
end

theorem standAll_of_forall₂ {parent : NodeId} {ts : List Sketch} {ids : List NodeId}
    (h : List.Forall₂ (fun t id => (s.get id).parent = some parent ∧ s.Stands t id) ts ids) :
    s.StandAll parent ts (ids.map .stored) := by
  induction h with
  | nil => rfl
  | cons hid _ ih => exact ⟨_, _, rfl, hid.1, hid.2, ih⟩

/-! ## What is built for a sketch -/

/-- What building comes to: the given nodes are new and have no parent, and nothing that was there
has changed. -/
structure Grown (s s' : NodeStore) (ids : List NodeId) : Prop where
  size : s.nodes.size ≤ s'.nodes.size
  fresh : ∀ id ∈ ids, s.nodes.size ≤ id ∧ id < s'.nodes.size ∧ (s'.get id).parent = none
  kept : ∀ i, i < s.nodes.size → s'.get i = s.get i

namespace Grown

variable {s₁ s₂ : NodeStore} {ids : List NodeId}

theorem nil (s : NodeStore) : Grown s s [] := ⟨Nat.le_refl _, by simp, fun _ _ => rfl⟩

theorem toExtends (h : Grown s s' ids) : s.Extends s' where
  size := h.size
  content := fun i hi => by rw [h.kept i hi]
  children := fun i hi => by rw [h.kept i hi]
  parent := fun i hi p hp => by rw [h.kept i hi, hp]

theorem cons (h₁ : Grown s s₁ [id]) (h₂ : Grown s₁ s₂ ids) : Grown s s₂ (id :: ids) where
  size := Nat.le_trans h₁.size h₂.size
  fresh := by
    intro i hi
    rcases List.mem_cons.mp hi with rfl | hi
    · obtain ⟨hle, hlt, hroot⟩ := h₁.fresh i (by simp)
      exact ⟨hle, Nat.lt_of_lt_of_le hlt h₂.size, by rw [h₂.kept i hlt, hroot]⟩
    · obtain ⟨hle, hlt, hroot⟩ := h₂.fresh i hi
      exact ⟨Nat.le_trans h₁.size hle, hlt, hroot⟩
  kept := fun i hi => by rw [h₂.kept i (Nat.lt_of_lt_of_le hi h₁.size), h₁.kept i hi]

theorem mem_of_stored {i : NodeId} (hi : Node.stored i ∈ ids.map Node.stored) : i ∈ ids := by
  obtain ⟨c, hc, heq⟩ := List.mem_map.mp hi
  cases heq
  exact hc

/-- Adopting new nodes that have no parent leaves the rest of the store as it was. -/
theorem extends_add (h : Grown s s₁ ids) (content : NodeContent) :
    s₁.Extends (s₁.add content (ids.map .stored)).2 where
  size := by rw [size_add]; exact Nat.le_succ _
  content := fun i hi => by rw [content_add, if_neg (Nat.ne_of_lt hi)]
  children := fun i hi => by rw [children_add, if_neg (Nat.ne_of_lt hi)]
  parent := by
    intro i hi p hp
    -- a node that has a parent is none of the new ones, so it is not adopted
    have hnot : Node.stored i ∉ ids.map Node.stored := by
      intro hm
      rw [(h.fresh i (mem_of_stored hm)).2.2] at hp
      cases hp
    rw [get_add_of_not_mem hi hnot, hp]

theorem add (h : Grown s s₁ ids) (content : NodeContent) :
    Grown s (s₁.add content (ids.map .stored)).2 [s₁.nodes.size] where
  size := by rw [size_add]; exact Nat.le_succ_of_le h.size
  fresh := by
    intro i hi
    rw [List.mem_singleton.mp hi]
    refine ⟨h.size, by rw [size_add]; exact Nat.lt_succ_self _, parent_add_new fun hm => ?_⟩
    exact Nat.lt_irrefl _ (h.fresh _ (mem_of_stored hm)).2.1
  kept := by
    intro i hi
    have hnot : Node.stored i ∉ ids.map Node.stored := fun hm =>
      Nat.lt_irrefl _ (Nat.lt_of_lt_of_le hi (h.fresh i (mem_of_stored hm)).1)
    rw [get_add_of_not_mem (Nat.lt_of_lt_of_le hi h.size) hnot, h.kept i hi]

theorem standAll_add {ts : List Sketch} (h : Grown s s₁ ids) (content : NodeContent)
    (hs : List.Forall₂ (fun t id => s₁.Stands t id) ts ids) :
    (s₁.add content (ids.map .stored)).2.StandAll s₁.nodes.size ts (ids.map .stored) := by
  refine standAll_of_forall₂ (List.forall₂_iff_get.mpr ⟨hs.length_eq, fun i hi hi' => ?_⟩)
  have hid : ids.get ⟨i, hi'⟩ ∈ ids := List.get_mem ..
  refine ⟨parent_add_of_mem (h.fresh _ hid).2.1 (List.mem_map_of_mem hid), ?_⟩
  exact (hs.get hi hi').mono (h.extends_add content)

end Grown

mutual
/-- **The tree that is built for a sketch stands for it.** Its top has no parent, nothing that was
there before has changed, and for each level of the sketch there is a new node. -/
theorem exists_stands : ∀ (t : Sketch) (s : NodeStore), ∃ id s',
    s.build t.draft = (.stored id, s') ∧ s'.Stands t id ∧ Grown s s' [id] ∧
      s.nodes.size + t.markup.height ≤ s'.nodes.size
  | .element tag attributes children, s => by
    obtain ⟨ids, s₁, hbuild, hstand, hgrown, hheight⟩ := exists_standAll children s
    let content := NodeContent.ofElement tag (attributes.map fun (name, held) => (name, held.joined))
    refine ⟨s₁.nodes.size, (s₁.add content (ids.map .stored)).2, ?_, ?_, hgrown.add content, ?_⟩
    · rw [Sketch.draft, build, hbuild]
      rfl
    · -- adopting the children changes their parents, which `Stands` leaves open
      rw [Stands, content_add, children_add, if_pos rfl, if_pos rfl]
      exact ⟨rfl, hgrown.standAll_add content hstand⟩
    · rw [size_add, Sketch.markup, Markup.height]
      omega
  | .text text, s => by
    refine ⟨s.nodes.size, (s.add (.text (some text)) []).2, rfl, ?_, (Grown.nil s).add _, ?_⟩
    · rw [Stands, content_add, children_add, if_pos rfl, if_pos rfl]
      exact ⟨rfl, rfl⟩
    · show s.nodes.size + 1 ≤ _
      exact Nat.le_of_eq size_add.symm
  | .comment text, s => by
    refine ⟨s.nodes.size, (s.add (.comment (some text)) []).2, rfl, ?_, (Grown.nil s).add _, ?_⟩
    · rw [Stands, content_add, children_add, if_pos rfl, if_pos rfl]
      exact ⟨rfl, rfl⟩
    · show s.nodes.size + 1 ≤ _
      exact Nat.le_of_eq size_add.symm

theorem exists_standAll : ∀ (ts : List Sketch) (s : NodeStore), ∃ (ids : List NodeId) (s' : NodeStore),
    s.buildAll (Sketch.draftAll ts) = (ids.map .stored, s') ∧
      List.Forall₂ (fun t id => s'.Stands t id) ts ids ∧ Grown s s' ids ∧
      s.nodes.size + Markup.heightOfAll (Sketch.markupAll ts) ≤ s'.nodes.size
  | [], s => ⟨[], s, rfl, .nil, .nil s, Nat.le_refl _⟩
  | t :: ts, s => by
    obtain ⟨id, s₁, hbuild, hstand, hgrown, hheight⟩ := exists_stands t s
    obtain ⟨ids, s₂, hbuildAll, hstandAll, hgrownAll, hheightAll⟩ := exists_standAll ts s₁
    -- the later trees are built in a store in which the first one goes on to stand
    refine ⟨id :: ids, s₂, ?_, .cons (hstand.mono hgrownAll.toExtends) hstandAll,
      hgrown.cons hgrownAll, ?_⟩
    · rw [Sketch.draftAll, buildAll, hbuild]
      dsimp only
      rw [hbuildAll]
      rfl
    · have hsize := hgrown.size
      rw [Sketch.markupAll, Markup.heightOfAll]
      omega
end

end NodeStore

end ComponentTree
