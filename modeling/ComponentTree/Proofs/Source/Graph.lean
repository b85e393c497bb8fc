import ComponentTree.Proofs.Converter
import ComponentTree.Proofs.Source.Store
import ComponentTree.Proofs.Source.View
import Mathlib.Data.List.Perm.Subperm

/-!
# The graphs that can be built by hand

Adding nodes and appending children, in any order, does not keep a store from having shared nodes,
nodes that are listed twice, or cycles. What it does keep is that every child is a node of the store
or parsed markup, so a store is a finite graph with finite trees hanging off it.

On such a graph the depth limit is the only thing that can stop a conversion, and it does so exactly
if a walk through elements is longer than the limit. A walk that is longer than the store has nodes
comes to some node twice, so whatever ends at all ends within `NodeStore.levels`.
-/

namespace ComponentTree

namespace NodeStore

variable {s : NodeStore} {node child : Node}

/-- The nodes that can be adopted and converted: those of the store, and views of parsed markup. -/
def Holds (s : NodeStore) : Node → Prop
  | .stored id => id < s.nodes.size
  | .parsed view _ => view.Readable

/-- The stores that come about by making nodes and appending children, in any order. -/
inductive Built : NodeStore → Prop
  | empty : Built .empty
  | add {s : NodeStore} (content : NodeContent) {children : List Node} :
      Built s → (∀ c ∈ children, s.Holds c) → Built (s.add content children).2
  | append {s : NodeStore} {parent : NodeId} {child : Node} :
      Built s → parent < s.nodes.size → s.Holds child → Built (s.append parent child)

theorem Holds.mono {s' : NodeStore} (h : s.Holds node) (hle : s.nodes.size ≤ s'.nodes.size) :
    s'.Holds node := by
  cases node with
  | stored id => exact Nat.lt_of_lt_of_le h hle
  | parsed view marks => exact h

/-- Nothing but nodes of the store and parsed markup is ever listed as a child. -/
theorem Built.closed (hs : s.Built) :
    ∀ id, ∀ child ∈ (s.get id).children, s.Holds child := by
  induction hs with
  | empty =>
    intro id child hc
    rw [get_of_size_le (Nat.zero_le _)] at hc
    cases hc
  | @add s content children _ hch ih =>
    intro id child hc
    rw [children_add] at hc
    split at hc
    · exact (hch child hc).mono (by rw [size_add]; exact Nat.le_succ _)
    · exact (ih id child hc).mono (by rw [size_add]; exact Nat.le_succ _)
  | @append s parent child _ hp hch ih =>
    intro id c hc
    rw [children_append] at hc
    have hc' : c ∈ (s.get id).children ∨ c = child := by
      split at hc
      · simpa using hc
      · exact .inl hc
    rcases hc' with hc' | rfl
    · exact (ih id c hc').mono (by rw [size_append])
    · exact hch.mono (by rw [size_append])

theorem Built.readable (hs : s.Built) : s.source.Readable s.Holds where
  children := by
    intro a b ha hb
    cases a with
    | stored id => exact hs.closed id b hb
    | parsed view marks =>
      obtain ⟨c, hc, rfl⟩ := List.mem_map.mp hb
      exact View.Readable.of_mem_children ha hc
  attributeText := by
    intro a ha name
    cases a with
    | stored id => exact ⟨_, rfl⟩
    | parsed view marks => exact ha view .refl name

/-! ## Enough levels -/

theorem endsWithin_height (view : View) (marks : List Nat) :
    s.source.EndsWithin view.place.node.height (.parsed view marks) := by
  refine Source.endsWithin_of_height (fun node => ∃ view marks, node = .parsed view marks)
    parsedHeight ?_ ?_ ⟨view, marks, rfl⟩ (Nat.le_refl _)
  · rintro _ ⟨view, marks, rfl⟩
    exact view.place.node.one_le_height
  · rintro _ b ⟨view, marks, rfl⟩ ⟨hb, -⟩
    obtain ⟨c, hc, rfl⟩ := List.mem_map.mp hb
    exact ⟨⟨c, _, rfl⟩, View.height_lt_of_mem_children hc⟩

/-- The height of the highest parsed tree that a stored node lists. -/
def highest (s : NodeStore) : Nat :=
  s.nodes.foldl
    (fun highest node => node.children.foldl (fun h child => max h (parsedHeight child)) highest) 0

theorem levels_eq (s : NodeStore) : s.levels = s.nodes.size + s.highest := rfl

theorem le_foldl_max (children : List Node) (h : Nat) :
    h ≤ children.foldl (fun h child => max h (parsedHeight child)) h ∧
      ∀ c ∈ children, parsedHeight c ≤ children.foldl (fun h child => max h (parsedHeight child)) h := by
  induction children generalizing h with
  | nil => simp
  | cons child children ih =>
    obtain ⟨hle, hall⟩ := ih (max h (parsedHeight child))
    refine ⟨Nat.le_trans (Nat.le_max_left ..) hle, fun c hc => ?_⟩
    rcases List.mem_cons.mp hc with rfl | hc
    · exact Nat.le_trans (Nat.le_max_right ..) hle
    · exact hall c hc

theorem parsedHeight_le_foldl (nodes : List StoredNode) (h : Nat) :
    h ≤ nodes.foldl (fun h node =>
        node.children.foldl (fun h child => max h (parsedHeight child)) h) h ∧
      ∀ node ∈ nodes, ∀ c ∈ node.children, parsedHeight c ≤ nodes.foldl (fun h node =>
        node.children.foldl (fun h child => max h (parsedHeight child)) h) h := by
  induction nodes generalizing h with
  | nil => simp
  | cons node nodes ih =>
    obtain ⟨hle, hall⟩ := le_foldl_max node.children h
    obtain ⟨hle', hall'⟩ := ih (node.children.foldl (fun h child => max h (parsedHeight child)) h)
    refine ⟨Nat.le_trans hle hle', fun n hn c hc => ?_⟩
    rcases List.mem_cons.mp hn with rfl | hn
    · exact Nat.le_trans (hall c hc) hle'
    · exact hall' n hn c hc

theorem parsedHeight_le_highest {id : NodeId} (hc : child ∈ (s.get id).children) :
    parsedHeight child ≤ s.highest := by
  unfold highest
  rw [← Array.foldl_toList]
  refine (parsedHeight_le_foldl s.nodes.toList 0).2 (s.get id) ?_ child hc
  by_cases hid : id < s.nodes.size
  · rw [get, Array.getElem?_eq_getElem hid]
    exact Array.getElem_mem_toList hid
  · rw [get_of_size_le (Nat.le_of_not_lt hid)] at hc
    cases hc

/-- A node of the store, or parsed markup that is no higher than the highest. -/
def Low (s : NodeStore) : Node → Prop
  | .stored id => id < s.nodes.size
  | .parsed view _ => view.place.node.height ≤ s.highest

theorem Low.of_mem_children (hs : s.Built) (hn : s.Low node) (hc : child ∈ s.source.children node) :
    s.Low child := by
  cases node with
  | stored id =>
    cases child with
    | stored c => exact hs.closed id (.stored c) hc
    | parsed view marks => exact parsedHeight_le_highest hc
  | parsed view marks =>
    obtain ⟨c, hcv, rfl⟩ := List.mem_map.mp hc
    have hlt := View.height_lt_of_mem_children hcv
    exact Nat.le_trans (Nat.le_of_lt hlt) hn

/-- Whatever ends at all ends within the levels of the store. On a longest walk no node comes twice,
and as long as more levels are needed than parsed markup has, the walk stays in the store. -/
theorem endsWithin_levels {k : Nat} (hs : s.Built) (hn : s.Holds node)
    (h : s.source.EndsWithin k node) : s.source.EndsWithin (s.source.levels node) node := by
  cases node with
  | parsed view marks => exact endsWithin_height view marks
  | stored id =>
    show s.source.EndsWithin s.levels (.stored id)
    rw [levels_eq, Nat.add_comm]
    by_contra hmore
    obtain ⟨j, hj, hends, hneed⟩ := h.exists_need hmore
    obtain ⟨extra, rfl⟩ := Nat.exists_eq_add_of_le hj
    rw [show s.highest + s.nodes.size + extra = s.highest + (s.nodes.size + extra) from
      Nat.add_assoc ..] at hends hneed
    obtain ⟨walk, hlen, hchain, hnd, hbase, -⟩ := Source.exists_nodup_walk hends hneed
    -- parsed markup needs no more levels than the highest, so there is none of it on the walk
    have hlow : ∀ b ∈ (.stored id) :: walk, s.Low b :=
      hchain.induction s.Low _ (fun _ _ hab ha => ha.of_mem_children hs hab.1) fun _ => hn
    have hsub : (.stored id) :: walk ⊆ (List.range s.nodes.size).map Node.stored := by
      intro b hb
      cases b with
      | stored c => exact List.mem_map.mpr ⟨c, List.mem_range.mpr (hlow _ hb), rfl⟩
      | parsed view marks =>
        exact absurd ((endsWithin_height view marks).mono (hlow _ hb)) (hbase _ hb)
    -- by pigeonhole the walk is too short to need more than the levels of the store
    have hle := hnd.length_le_of_subset hsub
    simp only [List.length_cons, List.length_map, List.length_range] at hle
    omega

end NodeStore

/-! ## The limit is exact -/

namespace Source

variable {ν : Type} {source : Source ν}

/-- From a node that leads to a cycle no number of levels is enough. -/
theorem not_endsWithin_of_cycle {a c : ν} (hac : Relation.ReflTransGen source.Below a c)
    (hcc : Relation.TransGen source.Below c c) (k : Nat) : ¬ source.EndsWithin k a := by
  -- one step down the way, the node still leads to the cycle
  induction k generalizing a with
  | zero => exact id
  | succ k ih =>
    intro h
    have htc : Relation.TransGen source.Below a c := Relation.TransGen.trans_right hac hcc
    obtain ⟨b, hab, hbc⟩ := Relation.TransGen.head'_iff.mp htc
    exact ih hbc (h b hab)

end Source

section Limit

variable {s : NodeStore} {node : Node} {host : Host Node}

theorem NodeStore.suffices_levels {k : Nat} (hs : s.Built) (hn : s.Holds node)
    (h : s.source.Suffices k node) : s.source.Suffices (s.source.levels node) node := by
  refine ⟨?_, fun ho => endsWithin_levels hs hn (h.2 ho)⟩
  cases node with
  | stored id => exact Nat.le_trans (Nat.succ_le_of_lt (Nat.zero_lt_of_lt hn)) (Nat.le_add_right ..)
  | parsed view marks => exact view.place.node.one_le_height

theorem convert_some_eq {ν : Type} (source : Source ν) (host : Host ν) (m : Nat) (node : ν) :
    convert source host (some m) node =
      (Conversion.visit source host (.tooDeep m) (m + 1) node).run [] := by
  have hm : ((m : Int) + 1).toNat = m + 1 := by omega
  rw [convert_eq_visit, Conversion.levelsWithin, hm]
  rfl

/-- **The depth limit is exact, and with it every conversion ends.** On any graph of nodes built by
hand, with collaborators that never fail, a conversion with limit `m` gives a result or ends with
the fault of that limit; the latter exactly if there is a walk from the start node, an element or
fragment, through `m + 1` elements. A result is the one that there is without a limit, and it stays
the same under any higher limit. Above a cycle of elements there is no result. -/
theorem convert_limit_exact (hs : s.Built) (hn : s.Holds node) (hh : host.NeverFails) (m : Nat) :
    ((∃ value, (convert s.source host (some m) node).outcome = .ok value) ∨
      (convert s.source host (some m) node).outcome = .error (.tooDeep m)) ∧
    ((convert s.source host (some m) node).outcome = .error (.tooDeep m) ↔
      s.source.Opened node ∧
        ∃ walk : List Node, walk.length = m + 1 ∧ (node :: walk).IsChain s.source.Below) ∧
    ((convert s.source host (some m) node).outcome ≠ .error (.tooDeep m) →
      convert s.source host (some m) node = convert s.source host none node ∧
        ∀ more : Nat, m ≤ more →
          convert s.source host (some more) node = convert s.source host (some m) node) ∧
    (s.source.Opened node →
      (∃ c, Relation.ReflTransGen s.source.Below node c ∧ Relation.TransGen s.source.Below c c) →
        (convert s.source host (some m) node).outcome = .error (.tooDeep m)) := by
  have hgood : s.source.Suffices (m + 1) node →
      ∃ value, (convert s.source host (some m) node).outcome = .ok value := by
    intro h
    rw [convert_some_eq]
    exact Conversion.visit_of_suffices hh hs.readable hn h []
  have hbad : ¬ s.source.Suffices (m + 1) node →
      (convert s.source host (some m) node).outcome = .error (.tooDeep m) := by
    intro h
    rw [convert_some_eq]
    exact Conversion.visit_of_not_suffices hh hs.readable hn (Nat.le_add_left ..) h []
  have hiff : (convert s.source host (some m) node).outcome = .error (.tooDeep m) ↔
      ¬ s.source.Suffices (m + 1) node := by
    refine ⟨fun herr h => ?_, hbad⟩
    obtain ⟨value, hok⟩ := hgood h
    rw [hok] at herr
    cases herr
  refine ⟨?_, hiff.trans Source.not_suffices_iff, fun hne => ?_, fun ho hcycle => ?_⟩
  · by_cases h : s.source.Suffices (m + 1) node
    · exact .inl (hgood h)
    · exact .inr (hbad h)
  · -- the levels of the store, those of the limit and those of any higher limit all suffice
    have h : s.source.Suffices (m + 1) node := not_not.mp (mt hiff.mpr hne)
    rw [convert_some_eq]
    constructor
    · rw [convert_eq_visit]
      exact congrArg (·.run [])
        (Conversion.visit_eq_of_suffices _ h (NodeStore.suffices_levels hs hn h))
    · intro more hle
      rw [convert_some_eq]
      exact congrArg (·.run [])
        (Conversion.visit_eq_of_suffices _ (h.mono (Nat.succ_le_succ hle)) h)
  · obtain ⟨c, hac, hcc⟩ := hcycle
    exact hbad fun h => Source.not_endsWithin_of_cycle hac hcc _ (h.2 ho)

/-- A node that is listed below itself, through another one that lists it twice. -/
def loop : NodeStore :=
  let first := (NodeStore.empty.add (.ofElement "div" []) []).2
  let second := (first.add (.ofElement "p" []) [.stored 0, .stored 0]).2
  second.append 0 (.stored 1)

theorem loop_built : loop.Built := by
  have h0 : (NodeStore.empty.add (.ofElement "div" []) []).2.Built := .add _ .empty (by simp)
  refine .append (.add _ h0 fun c hc => ?_) (by decide) (show 1 < _ by decide)
  rcases List.mem_cons.mp hc with rfl | hc
  · exact Nat.one_pos
  · rw [List.mem_singleton.mp hc]
    exact Nat.one_pos

theorem loop_limit_exact :
    loop.Built ∧ loop.Holds (.stored 0) ∧
      ((Converter.plain [] (some (standardStrategy {} .strict))).host : Host Node).NeverFails ∧
      (convert loop.source (Converter.plain [] (some (standardStrategy {} .strict))).host
        (some (3 : Nat)) (.stored 0)).outcome = .error (.tooDeep 3) := by
  have hholds : loop.Holds (.stored 0) := show 0 < _ by decide
  have hh : ((Converter.plain [] (some (standardStrategy {} .strict))).host : Host Node).NeverFails := by
    apply Converter.plain_neverFails
    rintro strategy ⟨rfl⟩
    exact standardStrategy_makesMaps _
  refine ⟨loop_built, hholds, hh, ?_⟩
  obtain ⟨-, -, -, hcycle⟩ := convert_limit_exact loop_built hholds hh 3
  have hdown : loop.source.Below (.stored 0) (.stored 1) :=
    ⟨show _ ∈ [Node.stored 1] by simp, rfl⟩
  have hup : loop.source.Below (.stored 1) (.stored 0) :=
    ⟨show _ ∈ [Node.stored 0, Node.stored 0] by simp, rfl⟩
  exact hcycle (.inl rfl) ⟨.stored 0, .refl, .tail (.single hdown) hup⟩

end Limit

end ComponentTree
