import ComponentTree.Proofs.Conversion.Simulation
import ComponentTree.Source.Parsed
import Mathlib.Logic.Relation

/-!
# Views of parsed markup

A view reached through the children of another one remembers that one as its parent, and lies
strictly lower in the tree. So a parsed tree is consistent and has a bottom, whatever its shape.

Of a view only the node and the tag of the parent are ever read (`View.twins_readAlike`).
-/

namespace ComponentTree

namespace Markup

theorem one_le_height (m : Markup) : 1 ≤ m.height := by
  cases m <;> simp [height]

theorem height_le_heightOfAll {m : Markup} : ∀ {ms : List Markup}, m ∈ ms → m.height ≤ heightOfAll ms
  | [], h => by cases h
  | m' :: ms, h => by
    rw [heightOfAll]
    rcases List.mem_cons.mp h with rfl | h
    · exact Nat.le_max_left ..
    · exact Nat.le_trans (height_le_heightOfAll h) (Nat.le_max_right ..)

mutual
/-- All attributes are texts, or lists of texts. -/
def Textual : Markup → Prop
  | .document content => TextualAll content
  | .element _ attributes content =>
    (∀ a ∈ attributes, ∃ text, View.joined a.2 = .ok (.ofString? text)) ∧ TextualAll content
  | .text _ => True
  | .other _ => True

def TextualAll : List Markup → Prop
  | [] => True
  | m :: rest => Textual m ∧ TextualAll rest
end

theorem TextualAll.of_mem {m : Markup} : ∀ {ms : List Markup}, TextualAll ms → m ∈ ms → m.Textual
  | [], _, h => by cases h
  | _ :: _, ⟨hm, hms⟩, h => by
    rcases List.mem_cons.mp h with rfl | h
    · exact hm
    · exact hms.of_mem h

theorem Textual.of_mem_content {m m' : Markup} (hm : m.Textual) (h : m' ∈ m.content) :
    m'.Textual := by
  cases m with
  | document content => exact TextualAll.of_mem hm h
  | element name attributes content => exact hm.2.of_mem h
  | text s => cases h
  | other s => cases h

theorem height_lt_of_mem_content {m m' : Markup} (h : m' ∈ m.content) : m'.height < m.height := by
  cases m with
  | document content => exact Nat.lt_succ_of_le (height_le_heightOfAll h)
  | element name attributes content => exact Nat.lt_succ_of_le (height_le_heightOfAll h)
  | text s => cases h
  | other s => cases h

end Markup

namespace View

/-- The view of a node directly inside, with the one it was reached from above it. -/
def below (v : View) (m : Markup) : View :=
  ⟨⟨m, v.place.node :: v.place.above⟩, v.steps + 1, v.openedAsFragment⟩

theorem children_eq (v : View) : v.children = v.place.node.content.map v.below := by
  rw [children, Place.children, List.map_map]
  rfl

theorem mem_children {v c : View} :
    c ∈ v.children ↔ ∃ m ∈ v.place.node.content, v.below m = c := by
  rw [children_eq, List.mem_map]

/-- Every view among the children has that very view as its parent. -/
theorem parent_of_mem_children {v c : View} (h : c ∈ v.children) : c.parent = some v := by
  obtain ⟨m, -, rfl⟩ := mem_children.mp h
  rfl

theorem height_lt_of_mem_children {v c : View} (h : c ∈ v.children) :
    c.place.node.height < v.place.node.height := by
  obtain ⟨m, hm, rfl⟩ := mem_children.mp h
  exact Markup.height_lt_of_mem_content hm

/-- A view from which no attribute can be reached but texts, and lists of texts. -/
def Readable (view : View) : Prop :=
  ∀ v, Relation.ReflTransGen (fun a b => b ∈ children a) view v →
    ∀ name, ∃ text, v.attributeValue name = .ok (.ofString? text)

theorem Readable.of_mem_children {v c : View} (hv : v.Readable) (h : c ∈ v.children) :
    c.Readable := fun w hw => hv w (Relation.ReflTransGen.head h hw)

/-- Where the tree has no attributes but texts, the view reaches none. -/
theorem readable_of_textual {v : View} (hv : v.place.node.Textual) : v.Readable := by
  intro w hw name
  have hnode : w.place.node.Textual := by
    induction hw with
    | refl => exact hv
    | tail _ hbc ih =>
      obtain ⟨m, hm, rfl⟩ := mem_children.mp hbc
      exact ih.of_mem_content hm
  unfold attributeValue
  split
  · next a ha =>
    have hmem := List.mem_of_find?_eq_some ha
    unfold attributes at hmem
    split at hmem
    · next hplace =>
      rw [hplace] at hnode
      exact hnode.1 a hmem
    · cases hmem
  · exact ⟨none, rfl⟩

/-! ## Views that read alike -/

open Conversion

variable {v w : View}

/-- Views that read alike: of the same node, below elements with the same tag. -/
structure Twins (v w : View) : Prop where
  node : v.place.node = w.place.node
  whole : v.openedAsFragment = false ∧ w.openedAsFragment = false
  parent : parentTag? source v = parentTag? source w

theorem kind_of_whole (h : v.openedAsFragment = false) : v.kind = v.place.node.kind := by
  simp [kind, isFragment, h]

/-- Only the node matters for the attributes, unless a view is a fragment. -/
theorem attributes_of_whole (hnode : v.place.node = w.place.node)
    (hv : v.openedAsFragment = false) (hw : w.openedAsFragment = false) :
    v.attributes = w.attributes := by
  rw [attributes, attributes, kind_of_whole hv, kind_of_whole hw, hnode]

theorem twins_below (hkind : v.kind = w.kind) (htag : tagOf source v = tagOf source w)
    (hv : v.openedAsFragment = false) (hw : w.openedAsFragment = false) (m : Markup) :
    Twins (v.below m) (w.below m) := by
  refine ⟨rfl, ⟨hv, hw⟩, ?_⟩
  have hparent : source.parent (v.below m) = some v := rfl
  have hparent' : source.parent (w.below m) = some w := rfl
  have hkind' : source.kind v = source.kind w := hkind
  rw [parentTag?_of_parent hparent, parentTag?_of_parent hparent', hkind', htag]

theorem Twins.kind (h : Twins v w) : v.kind = w.kind := by
  rw [kind_of_whole h.whole.1, kind_of_whole h.whole.2, h.node]

theorem Twins.tag (h : Twins v w) : tagOf source v = tagOf source w := by
  show lowercase v.name = lowercase w.name
  rw [name, name, h.kind, h.node]

theorem Twins.attributeValue (h : Twins v w) (name : String) :
    v.attributeValue name = w.attributeValue name := by
  rw [View.attributeValue, View.attributeValue,
    attributes_of_whole h.node h.whole.1 h.whole.2]

theorem twins_readAlike : ReadAlike source source Twins where
  role h := congrArg NodeKind.role h.kind
  text {v w} h _ := by
    show v.text = w.text
    rw [text, text, h.node]
  tag h _ := h.tag
  attributes {v w} h _ := by
    have hnames : source.attributeNames v = source.attributeNames w := by
      show v.attributeNames = w.attributeNames
      rw [attributeNames, attributeNames, attributes_of_whole h.node h.whole.1 h.whole.2]
    have hvalues : source.attributeValue v = source.attributeValue w := funext h.attributeValue
    rw [attributesOf, attributesOf, hnames, hvalues]
  slot h _ := h.attributeValue slotAttribute
  children {v w} h := by
    show List.Forall₂ Twins v.children w.children
    rw [children_eq, children_eq, h.node, List.forall₂_map_left_iff, List.forall₂_map_right_iff,
      List.forall₂_same]
    exact fun m _ => twins_below h.kind h.tag h.whole.1 h.whole.2 m
  parent h := h.parent

end View

end ComponentTree
