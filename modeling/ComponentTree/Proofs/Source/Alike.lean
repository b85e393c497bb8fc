import ComponentTree.Proofs.Source.View

/-!
# Views that read alike

Of tags and attribute names only the lower case counts, so `Markup.lowered` is all that a conversion
can tell of the content of a node. Of a view it can also tell what the view itself shows, and of the
view around it whether that is an element, and with which tag. Views that agree in this much are
converted alike (`View.Alike.convert_eq`), wherever they lie and however they were opened.
-/

namespace ComponentTree

/-- Attributes under their names in lower case. -/
def lowerNames {α : Type} (attributes : List (String × α)) : List (String × α) :=
  attributes.map fun (name, value) => (lowercase name, value)

namespace Markup

mutual
/-- A tree with all tags and attribute names in lower case. -/
def lowered : Markup → Markup
  | .document content => .document (loweredAll content)
  | .element name attributes content =>
    .element (lowercase name) (lowerNames attributes) (loweredAll content)
  | .text s => .text s
  | .other s => .other s

def loweredAll : List Markup → List Markup
  | [] => []
  | m :: rest => lowered m :: loweredAll rest
end

theorem loweredAll_eq_map (ms : List Markup) : loweredAll ms = ms.map lowered := by
  induction ms with
  | nil => rfl
  | cons m ms ih => rw [loweredAll, ih, List.map_cons]

@[simp] theorem kind_lowered (m : Markup) : m.lowered.kind = m.kind := by
  cases m <;> rfl

@[simp] theorem content_lowered (m : Markup) : m.lowered.content = m.content.map lowered := by
  cases m with
  | document content => exact loweredAll_eq_map content
  | element name attributes content => exact loweredAll_eq_map content
  | text s => rfl
  | other s => rfl

theorem height_eq (m : Markup) : m.height = heightOfAll m.content + 1 := by
  cases m <;> simp [height, content, heightOfAll]

mutual
@[simp] theorem height_lowered : ∀ m : Markup, m.lowered.height = m.height
  | .document content => congrArg (· + 1) (heightOfAll_loweredAll content)
  | .element _ _ content => congrArg (· + 1) (heightOfAll_loweredAll content)
  | .text _ => rfl
  | .other _ => rfl

theorem heightOfAll_loweredAll : ∀ ms : List Markup, heightOfAll (loweredAll ms) = heightOfAll ms
  | [] => rfl
  | m :: ms => by
    rw [loweredAll, heightOfAll, heightOfAll, height_lowered m, heightOfAll_loweredAll ms]
end

theorem forall₂_lowered {ms ms' : List Markup} (h : ms.map lowered = ms'.map lowered) :
    List.Forall₂ (fun m m' => m.lowered = m'.lowered) ms ms' := by
  have hmap : List.Forall₂ (· = ·) (ms.map lowered) (ms'.map lowered) := by
    rw [List.forall₂_eq_eq_eq]
    exact h
  exact List.forall₂_map_right_iff.mp (List.forall₂_map_left_iff.mp hmap)

/-- Nodes whose contents agree in lower case are equally high. -/
theorem height_congr {m m' : Markup} (h : m.content.map lowered = m'.content.map lowered) :
    m.height = m'.height := by
  rw [height_eq, height_eq, ← heightOfAll_loweredAll m.content, ← heightOfAll_loweredAll m'.content,
    loweredAll_eq_map, loweredAll_eq_map, h]

end Markup

namespace View

open Conversion Markup

variable {v w : View} {m m' : Markup}

/-- Views that tell a conversion the same. -/
structure Alike (v w : View) : Prop where
  kind : v.kind = w.kind
  tag : v.kind = .element → tagOf source v = tagOf source w
  text : v.kind = .text → v.text = w.text
  attributes : lowerNames v.attributes = lowerNames w.attributes
  content : v.place.node.content.map lowered = w.place.node.content.map lowered
  parentTag : parentTag? source v = parentTag? source w

/-! ## What a view tells of a node -/

theorem kind_congr (hnode : v.place.node.lowered = w.place.node.lowered)
    (hfragment : v.isFragment = w.isFragment) : v.kind = w.kind := by
  rw [View.kind, View.kind, hfragment, ← kind_lowered v.place.node, hnode, kind_lowered]

/-- A view that is an element is the view of one. -/
theorem exists_element (h : v.kind = .element) :
    ∃ name attributes content, v.place.node = .element name attributes content ∧
      v.name = name ∧ v.attributes = attributes := by
  have hfragment : v.isFragment = false := by
    cases hf : v.isFragment with
    | false => rfl
    | true => simp [kind, hf] at h
  cases hnode : v.place.node with
  | element name attributes content =>
    exact ⟨name, attributes, content, rfl, by simp [View.name, h, hnode],
      by simp [View.attributes, h, hnode]⟩
  | document content => simp [kind, hfragment, hnode, Markup.kind] at h
  | text s => simp [kind, hfragment, hnode, Markup.kind] at h
  | other s => simp [kind, hfragment, hnode, Markup.kind] at h

/-- Tag and attributes of an element do not depend on spelling. -/
theorem element_congr (hnode : v.place.node.lowered = w.place.node.lowered)
    (hv : v.kind = .element) (hw : w.kind = .element) :
    tagOf source v = tagOf source w ∧ lowerNames v.attributes = lowerNames w.attributes := by
  obtain ⟨name, attributes, content, hplace, hname, hattributes⟩ := exists_element hv
  obtain ⟨name', attributes', content', hplace', hname', hattributes'⟩ := exists_element hw
  rw [hplace, hplace'] at hnode
  injection hnode with htag hnames
  refine ⟨?_, by rw [hattributes, hattributes', hnames]⟩
  show lowercase v.name = lowercase w.name
  rw [hname, hname', htag]

theorem attributes_eq_nil (h : v.kind ≠ .element) : v.attributes = [] := by
  unfold View.attributes
  split
  · next hkind _ => exact absurd hkind h
  · rfl

theorem text_lowered (m : Markup) : (wrap (.top m.lowered)).text = (wrap (.top m)).text := by
  cases m <;> rfl

theorem text_congr (hnode : v.place.node.lowered = w.place.node.lowered) : v.text = w.text :=
  calc v.text = (wrap (.top v.place.node)).text := rfl
    _ = (wrap (.top w.place.node)).text := by rw [← text_lowered, hnode, text_lowered]

/-- Views of nodes that agree in lower case read alike, if both or neither were opened as a fragment
and what lies around them tells the same. -/
theorem alike_of_lowered (hnode : v.place.node.lowered = w.place.node.lowered)
    (hfragment : v.isFragment = w.isFragment) (hparent : parentTag? source v = parentTag? source w) :
    Alike v w := by
  have hkind := kind_congr hnode hfragment
  refine ⟨hkind, fun h => (element_congr hnode h (hkind ▸ h)).1, fun _ => text_congr hnode, ?_, ?_,
    hparent⟩
  · by_cases h : v.kind = .element
    · exact (element_congr hnode h (hkind ▸ h)).2
    · rw [attributes_eq_nil h, attributes_eq_nil (hkind ▸ h)]
  · rw [← content_lowered, hnode, content_lowered]

/-- Of a fragment only the content counts, and what lies around it. -/
theorem alike_of_kind_fragment (hv : v.kind = .fragment) (hw : w.kind = .fragment)
    (hcontent : v.place.node.content.map lowered = w.place.node.content.map lowered)
    (hparent : parentTag? source v = parentTag? source w) : Alike v w where
  kind := hv.trans hw.symm
  tag := fun hk => by rw [hv] at hk; cases hk
  text := fun hk => by rw [hv] at hk; cases hk
  attributes := by
    rw [attributes_eq_nil (by rw [hv]; decide), attributes_eq_nil (by rw [hw]; decide)]
  content := hcontent
  parentTag := hparent

/-! ## Converting views that read alike -/

theorem parentTag?_below : parentTag? source (v.below m) =
    if v.kind = .element then some (tagOf source v) else none :=
  parentTag?_of_parent (show source.parent (v.below m) = some v from rfl)

theorem Alike.below (h : Alike v w) (hm : m.lowered = m'.lowered) :
    Alike (v.below m) (w.below m') := by
  refine alike_of_lowered hm (by simp [isFragment, View.below]) ?_
  rw [parentTag?_below, parentTag?_below, ← h.kind]
  split
  · next hk => rw [h.tag hk]
  · rfl

theorem Alike.attributeNames (h : Alike v w) : v.attributeNames = w.attributeNames := by
  have hnames : ∀ u : View, u.attributeNames = (lowerNames u.attributes).map Prod.fst := by
    intro u
    rw [View.attributeNames, lowerNames, List.map_map]
    rfl
  rw [hnames, hnames, h.attributes]

theorem Alike.attributeValue (h : Alike v w) (name : String) :
    v.attributeValue name = w.attributeValue name := by
  have hfind : ∀ u : View, u.attributeValue name =
      ((lowerNames u.attributes).find? fun a => a.1 == lowercase name).elim (.ok .null)
        fun a => joined a.2 := by
    intro u
    rw [View.attributeValue, lowerNames, List.find?_map]
    cases h : u.attributes.find? fun a => lowercase a.1 == lowercase name <;>
      simp only [Function.comp_def, h, Option.map_none, Option.map_some, Option.elim]
  rw [hfind, hfind, h.attributes]

theorem alike_readAlike : ReadAlike source source Alike where
  role h := congrArg NodeKind.role h.kind
  text h := h.text
  tag h := h.tag
  attributes {v w} h _ := by
    have hnames : source.attributeNames v = source.attributeNames w := h.attributeNames
    have hvalues : source.attributeValue v = source.attributeValue w := funext h.attributeValue
    rw [attributesOf, attributesOf, hnames, hvalues]
  slot h _ := h.attributeValue slotAttribute
  children {v w} h := by
    show List.Forall₂ Alike v.children w.children
    rw [children_eq, children_eq, List.forall₂_map_left_iff, List.forall₂_map_right_iff]
    exact (forall₂_lowered h.content).imp fun m m' hm => h.below hm
  parent h := h.parentTag

/-- **Views that read alike are converted alike**, under any limit and without one. -/
theorem Alike.convert_eq (h : Alike v w) (host : Host Unit) (limit : Option Int) :
    (convert source host.regardless limit v).forget =
      (convert source host.regardless limit w).forget := by
  have hlevels : levelsWithin source limit v = levelsWithin source limit w := by
    cases limit with
    | some m => rfl
    | none => exact height_congr h.content
  rw [convert_eq_visit, convert_eq_visit, hlevels, ← Course.run_forget, ← Course.run_forget,
    alike_readAlike.visit host _ _ h]

end View

end ComponentTree
