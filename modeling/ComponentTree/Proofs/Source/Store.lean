import ComponentTree.Source.Memory

/-!
# What building changes in a store

Adopting a child writes the parent of that child and nothing else, adding a node puts it at the next
place, and appending adds to the children of one node. Everything else of a store stays as it was.
-/

namespace ComponentTree

namespace NodeStore

variable {s : NodeStore} {id i parent : NodeId} {child : Node} {children : List Node}
variable {content : NodeContent}

/-! ## Reading a changed store -/

@[simp] theorem size_update (change : StoredNode → StoredNode) :
    (s.update id change).nodes.size = s.nodes.size := by
  simp [update]

theorem get_update (change : StoredNode → StoredNode) :
    (s.update id change).get i =
      if id = i ∧ i < s.nodes.size then change (s.get i) else s.get i := by
  unfold get update
  rw [Array.getElem?_modify]
  by_cases h : id = i
  · by_cases hi : i < s.nodes.size
    · simp [h, hi]
    · simp [h, hi]
  · simp [h]

/-- A place that is not taken reads as an empty fragment. -/
theorem get_of_size_le (h : s.nodes.size ≤ i) : s.get i = ⟨.fragment, none, []⟩ := by
  rw [get, Array.getElem?_eq_none h]
  rfl

theorem get_push (node : StoredNode) :
    (⟨s.nodes.push node⟩ : NodeStore).get i = if i = s.nodes.size then node else s.get i := by
  unfold get
  rw [Array.getElem?_push]
  split <;> rfl

/-! ## Adopting children -/

@[simp] theorem size_setParent : (s.setParent parent child).nodes.size = s.nodes.size := by
  cases child with
  | stored child => exact size_update _
  | parsed view marks => rfl

@[simp] theorem content_setParent : ((s.setParent parent child).get i).content = (s.get i).content := by
  cases child with
  | stored child => rw [setParent, get_update]; split <;> rfl
  | parsed view marks => rfl

@[simp] theorem children_setParent :
    ((s.setParent parent child).get i).children = (s.get i).children := by
  cases child with
  | stored child => rw [setParent, get_update]; split <;> rfl
  | parsed view marks => rfl

theorem get_setParent_of_ne (h : child ≠ .stored i) : (s.setParent parent child).get i = s.get i := by
  cases child with
  | stored child =>
    have hne : child ≠ i := fun he => h (congrArg _ he)
    rw [setParent, get_update, if_neg fun hc => hne hc.1]
  | parsed view marks => rfl

theorem parent_setParent_self (h : i < s.nodes.size) :
    ((s.setParent parent (.stored i)).get i).parent = some parent := by
  rw [setParent, get_update, if_pos ⟨rfl, h⟩]

/-- The store after a node has adopted children one after the other. -/
def adopt (s : NodeStore) (parent : NodeId) (children : List Node) : NodeStore :=
  children.foldl (fun s child => s.setParent parent child) s

@[simp] theorem adopt_nil : s.adopt parent [] = s := rfl

@[simp] theorem adopt_cons :
    s.adopt parent (child :: children) = (s.setParent parent child).adopt parent children := rfl

@[simp] theorem size_adopt : (s.adopt parent children).nodes.size = s.nodes.size := by
  induction children generalizing s with
  | nil => rfl
  | cons child children ih => rw [adopt_cons, ih, size_setParent]

@[simp] theorem content_adopt : ((s.adopt parent children).get i).content = (s.get i).content := by
  induction children generalizing s with
  | nil => rfl
  | cons child children ih => rw [adopt_cons, ih, content_setParent]

@[simp] theorem children_adopt : ((s.adopt parent children).get i).children = (s.get i).children := by
  induction children generalizing s with
  | nil => rfl
  | cons child children ih => rw [adopt_cons, ih, children_setParent]

theorem get_adopt_of_not_mem (h : .stored i ∉ children) :
    (s.adopt parent children).get i = s.get i := by
  induction children generalizing s with
  | nil => rfl
  | cons child children ih =>
    rw [adopt_cons, ih fun hm => h (List.mem_cons_of_mem _ hm),
      get_setParent_of_ne fun he => h (he ▸ List.mem_cons_self)]

theorem parent_adopt_of_mem (h : .stored i ∈ children) (hi : i < s.nodes.size) :
    ((s.adopt parent children).get i).parent = some parent := by
  induction children generalizing s with
  | nil => cases h
  | cons child children ih =>
    rw [adopt_cons]
    by_cases hm : .stored i ∈ children
    · -- it is adopted again later on, and the last time counts
      exact ih hm (by simpa using hi)
    · rw [get_adopt_of_not_mem hm]
      rcases List.mem_cons.mp h with rfl | hm'
      · exact parent_setParent_self hi
      · exact absurd hm' hm

/-! ## Adding and appending -/

theorem add_eq : s.add content children =
    (s.nodes.size, adopt ⟨s.nodes.push ⟨content, none, children⟩⟩ s.nodes.size children) := rfl

@[simp] theorem size_add : (s.add content children).2.nodes.size = s.nodes.size + 1 := by
  rw [add_eq]
  simp

@[simp] theorem content_add :
    ((s.add content children).2.get i).content =
      if i = s.nodes.size then content else (s.get i).content := by
  rw [add_eq]
  simp only [content_adopt, get_push]
  split <;> rfl

@[simp] theorem children_add :
    ((s.add content children).2.get i).children =
      if i = s.nodes.size then children else (s.get i).children := by
  rw [add_eq]
  simp only [children_adopt, get_push]
  split <;> rfl

/-- Of a node that was there before, adding another one changes the parent at most. -/
theorem get_add_of_not_mem (hi : i < s.nodes.size) (h : .stored i ∉ children) :
    (s.add content children).2.get i = s.get i := by
  rw [add_eq]
  simp only [get_adopt_of_not_mem h, get_push]
  exact if_neg (Nat.ne_of_lt hi)

theorem parent_add_of_mem (hi : i < s.nodes.size) (h : .stored i ∈ children) :
    ((s.add content children).2.get i).parent = some s.nodes.size := by
  rw [add_eq]
  exact parent_adopt_of_mem h (by rw [Array.size_push]; exact Nat.lt_succ_of_lt hi)

theorem parent_add_new (h : .stored s.nodes.size ∉ children) :
    ((s.add content children).2.get s.nodes.size).parent = none := by
  rw [add_eq]
  simp only [get_adopt_of_not_mem h, get_push]
  rfl

@[simp] theorem size_append : (s.append parent child).nodes.size = s.nodes.size := by
  simp [append]

theorem content_append : ((s.append parent child).get i).content = (s.get i).content := by
  rw [append, get_update]
  split <;> simp

theorem children_append :
    ((s.append parent child).get i).children =
      if parent = i ∧ i < s.nodes.size then (s.get i).children ++ [child]
      else (s.get i).children := by
  rw [append, get_update, size_setParent]
  split <;> simp

end NodeStore

end ComponentTree
