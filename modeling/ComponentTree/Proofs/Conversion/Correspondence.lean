import ComponentTree.Proofs.Conversion.Kept
import ComponentTree.Proofs.Source.Interchange
import Mathlib.Data.Set.Function

/-!
# Elements and their descriptors

The elements of a descriptor are found from its root by going to a child or to a prop, hop by hop
(`Value.at?`). The nodes of a tree are found by child positions, and an element *remains* that is not
replaced by a later sibling in the same slot, nor below one that is (`Remains`).

In a conversion to plain element values the two correspond: `place` takes the way to a node that
remains to the way to an element of the descriptor, and is a bijection (`convert_corresponds`).

`Describes` says of a node and a descriptor that they correspond in their parts. One hop in such a
descriptor is one step in the tree (`Describes.hop?_hopTo`, `Describes.exists_of_hop?`), and longer ways
are followed by induction.
-/

namespace ComponentTree

open Value (named)

variable {ν : Type}

/-! ## Lists -/

section Lists

variable {α β : Type} {l : List α} {i j k : Nat} {a : α} {b : β}

theorem eq_take_cons_drop (h : l[i]? = some a) : l = l.take i ++ a :: l.drop (i + 1) := by
  obtain ⟨hi, rfl⟩ := List.getElem?_eq_some_iff.mp h
  rw [← List.drop_eq_getElem_cons hi, List.take_append_drop]

/-- What an item becomes stands after what the items before it become. -/
theorem getElem?_filterMap_take {g : α → Option β} (h : l[i]? = some a) (hg : g a = some b) :
    (l.filterMap g)[((l.take i).filterMap g).length]? = some b := by
  have hsplit : l.filterMap g =
      (l.take i).filterMap g ++ b :: (l.drop (i + 1)).filterMap g := by
    conv_lhs => rw [eq_take_cons_drop h]
    rw [List.filterMap_append, List.filterMap_cons, hg]
  rw [hsplit, List.getElem?_append_right (Nat.le_refl _), Nat.sub_self]
  rfl

theorem exists_of_getElem?_filterMap {g : α → Option β} (h : (l.filterMap g)[k]? = some b) :
    ∃ i a, l[i]? = some a ∧ g a = some b ∧ k = ((l.take i).filterMap g).length := by
  induction l generalizing k with
  | nil => simp at h
  | cons a l ih =>
    cases hg : g a with
    | none =>
      rw [List.filterMap_cons_none hg] at h
      obtain ⟨i, c, hc, hb, hk⟩ := ih h
      exact ⟨i + 1, c, hc, hb, by rw [List.take_succ_cons, List.filterMap_cons_none hg, hk]⟩
    | some b' =>
      rw [List.filterMap_cons_some hg] at h
      cases k with
      | zero => exact ⟨0, a, rfl, by rw [hg, ← h]; rfl, rfl⟩
      | succ k =>
        obtain ⟨i, c, hc, hb, hk⟩ := ih h
        refine ⟨i + 1, c, hc, hb, ?_⟩
        rw [List.take_succ_cons, List.filterMap_cons_some hg, List.length_cons, hk]

/-- The last item that passes a test is followed by items that do not. -/
theorem find?_reverse_eq_some_iff {p : α → Bool} :
    l.reverse.find? p = some a ↔
      ∃ i, l[i]? = some a ∧ p a = true ∧ ∀ later ∈ l.drop (i + 1), p later = false := by
  rw [List.find?_eq_some_iff_append]
  constructor
  · rintro ⟨hpass, after, before, hreverse, hafter⟩
    have hsplit : l = before.reverse ++ a :: after.reverse := by
      rw [← List.reverse_reverse l, hreverse]
      simp
    refine ⟨before.length, ?_, hpass, fun later hlater => ?_⟩
    · rw [hsplit, ← List.length_reverse, List.getElem?_append_right (Nat.le_refl _), Nat.sub_self]
      rfl
    · rw [hsplit, ← List.length_reverse, ← List.drop_drop, List.drop_left] at hlater
      simpa using hafter later (List.mem_reverse.mp hlater)
  · rintro ⟨i, hi, hpass, hlast⟩
    refine ⟨hpass, (l.drop (i + 1)).reverse, (l.take i).reverse, ?_, fun later hlater => ?_⟩
    · conv_lhs => rw [eq_take_cons_drop hi]
      simp
    · rw [hlast later (List.mem_reverse.mp hlater)]
      rfl

/-- A count grows over an item that counts. -/
theorem countP_take_lt {p : α → Bool} (h : l[i]? = some a) (ha : p a = true) (hij : i < j) :
    (l.take i).countP p < (l.take j).countP p := by
  have hnext : (l.take (i + 1)).countP p = (l.take i).countP p + 1 := by
    rw [List.take_add_one, h, List.countP_append]
    simp [ha]
  have hle : (l.take (i + 1)).countP p ≤ (l.take j).countP p :=
    (List.take_sublist_take_left hij).countP_le
  omega

end Lists

/-! ## Ways to an element -/

/-- A way from an element to a value in it. -/
inductive Hop where
  | child (position : Nat)
  | prop (key : Value)

namespace Value

/-- The child or the prop of an element. -/
def hop? : Hop → Value → Option Value
  | .child position, .element _ _ children => children[position]?
  | .prop key, .element _ props _ => Assoc.get? key props
  | _, _ => none

/-- The value that is found hop by hop. -/
def at? (v : Value) : List Hop → Option Value
  | [] => some v
  | hop :: hops => (hop? hop v).bind (·.at? hops)

/-- The value is an element. -/
def IsElement (v : Value) : Prop := ∃ type props children, v = .element type props children

/-- The text that a value is, if it is one. -/
def text? : Value → Option String
  | .str text => some text
  | _ => none

theorem at?_append (v : Value) (hops hops' : List Hop) :
    v.at? (hops ++ hops') = (v.at? hops).bind (·.at? hops') := by
  induction hops generalizing v with
  | nil => rfl
  | cons hop hops ih =>
    rw [List.cons_append, at?, at?, Option.bind_assoc]
    congr 1
    funext w
    exact ih w

/-- What leads on to an element is an element. -/
theorem isElement_of_at? {v w : Value} {hops : List Hop} (h : v.at? hops = some w)
    (hw : w.IsElement) : v.IsElement := by
  cases hops with
  | nil =>
    cases h
    exact hw
  | cons hop hops =>
    cases v with
    | element type props children => exact ⟨_, _, _, rfl⟩
    | _ => cases hop <;> simp [at?, hop?] at h

end Value

namespace Conversion

/-! ## The elements that remain -/

section Tree

variable (source : Source ν) (registered : String → Value) (node : ν) (i : Nat)

/-- A child is replaced in its slot: the node is an element with a component, and a later child names
the same slot. -/
def Replaced : Prop :=
  owns source registered node = true ∧ ∃ child slot,
    (source.children node)[i]? = some child ∧ slotName? source child = some slot ∧
      ∃ later ∈ (source.children node).drop (i + 1), slotName? source later = some slot

/-- An element child that is not replaced. -/
structure Stays (child : ν) : Prop where
  listed : (source.children node)[i]? = some child
  element : source.kind child = .element
  kept : ¬ Replaced source registered node i

/-- From a node another one is reached along child positions, through elements of which none is
replaced. -/
inductive Remains : ν → List Nat → ν → Prop
  | here (node : ν) : Remains node [] node
  | step {node child n : ν} {i : Nat} {path : List Nat} :
      Stays source registered node i child → Remains child path n → Remains node (i :: path) n

/-- Whether a child is placed among the children of an element: a text that is not empty, or an
element that is routed to no slot. -/
def isPlaced (owned : Bool) (child : ν) : Bool :=
  match source.kind child with
  | .text => (source.text child).any (! ·.isEmpty)
  | .element => (routedTo source owned child).isNone
  | _ => false

/-- The way from the descriptor of a node to that of a child: to the prop with the name of its slot, or
to the child after those that are placed before it. -/
def hopTo : Hop :=
  match (source.children node)[i]?.bind (routedTo source (owns source registered node)) with
  | some name => .prop (.str name)
  | none =>
    .child (((source.children node).take i).countP (isPlaced source (owns source registered node)))

/-- The way to the descriptor of the node that is reached along child positions. -/
def place : ν → List Nat → List Hop
  | _, [] => []
  | node, i :: path =>
    hopTo source registered node i ::
      match (source.children node)[i]? with
      | some child => place child path
      | none => []

/-- The type of a node in a conversion: what is registered for its tag, or else the tag, and for a
fragment the type of fragments. -/
def typeOf (fragmentType : Value) : Value :=
  match source.kind node with
  | .fragment => fragmentType.orElse .null
  | _ => (registered (tagOf source node)).orElse (.str (tagOf source node))

/-- The text of a text node that is not empty. -/
def textOf (child : ν) : Option String :=
  if source.kind child = .text then (source.text child).filter (! ·.isEmpty) else none

/-- What stands among the children for a child: a text that is not empty as it is, and for an element
that is routed to no slot what is given for it. -/
def standsFor (owned : Bool) (child : ν) (given : Option Value) : Option Value :=
  match source.kind child with
  | .text => ((source.text child).filter (! ·.isEmpty)).map .str
  | .element => if (routedTo source owned child).isNone then given else none
  | _ => none

/-- What stands for the children of a node, in document order, when these values are found for the
elements at their positions. -/
def contentOf (found : Nat → Option Value) : List Value :=
  (source.children node).zipIdx.filterMap fun entry =>
    standsFor source (owns source registered node) entry.1 (found entry.2)

end Tree

variable {source : Source ν} {registered : String → Value} {fragmentType : Value}
variable {node child n : ν} {i j : Nat} {path path' : List Nat}

theorem place_append (h : Remains source registered node path n) (i : Nat) :
    place source registered node (path ++ [i]) =
      place source registered node path ++ [hopTo source registered n i] := by
  induction h with
  | here node =>
    rw [List.nil_append, place, place, List.nil_append]
    cases (source.children node)[i]? <;> rfl
  | step hs _ ih =>
    rw [List.cons_append, place, place, hs.listed, List.cons_append]
    exact congrArg (_ :: ·) ih

/-! ### Routed children -/

/-- The child that a slot keeps is the last one that is routed to it. -/
theorem Stays.not_routed_later {name : String} (h : Stays source registered node i child)
    (hrouted : routedTo source (owns source registered node) child = some name) :
    ∀ later ∈ (source.children node).drop (i + 1),
      routedTo source (owns source registered node) later ≠ some name := by
  intro later hlater heq
  rw [routedTo] at hrouted heq
  split at hrouted
  · next howns =>
    rw [if_pos howns] at heq
    exact h.kept ⟨howns, child, name, h.listed, hrouted, later, hlater, heq⟩
  · cases hrouted

theorem stays_of_not_routed_later (hlisted : (source.children node)[i]? = some child)
    (hk : source.kind child = .element)
    (hlast : ∀ name, routedTo source (owns source registered node) child = some name →
      ∀ later ∈ (source.children node).drop (i + 1),
        routedTo source (owns source registered node) later ≠ some name) :
    Stays source registered node i child := by
  refine ⟨hlisted, hk, ?_⟩
  rintro ⟨howns, child', slot, hlisted', hslot, later, hlater, hlater'⟩
  obtain rfl : child = child' := Option.some.inj (hlisted.symm.trans hlisted')
  have hrouted : ∀ c, routedTo source (owns source registered node) c = slotName? source c := by
    intro c
    rw [routedTo, if_pos howns]
  exact hlast slot (by rw [hrouted, hslot]) later hlater (by rw [hrouted, hlater'])

theorem stays_of_not_routed (hlisted : (source.children node)[i]? = some child)
    (hk : source.kind child = .element)
    (hrouted : routedTo source (owns source registered node) child = none) :
    Stays source registered node i child := by
  refine stays_of_not_routed_later hlisted hk fun name hname => ?_
  rw [hrouted] at hname
  cases hname

theorem hopTo_of_routed {name : String} (hlisted : (source.children node)[i]? = some child)
    (hrouted : routedTo source (owns source registered node) child = some name) :
    hopTo source registered node i = .prop (.str name) := by
  rw [hopTo, hlisted, Option.bind_some, hrouted]

theorem hopTo_of_not_routed (hlisted : (source.children node)[i]? = some child)
    (hrouted : routedTo source (owns source registered node) child = none) :
    hopTo source registered node i = .child (((source.children node).take i).countP
      (isPlaced source (owns source registered node))) := by
  rw [hopTo, hlisted, Option.bind_some, hrouted]

/-- Of two children that stay, the earlier one is routed elsewhere, or it is placed before the later
one. -/
theorem hopTo_ne_of_lt {child' : ν} (h : Stays source registered node i child)
    (h' : Stays source registered node j child') (hij : i < j) :
    hopTo source registered node i ≠ hopTo source registered node j := by
  intro heq
  cases hrouted : routedTo source (owns source registered node) child with
  | some name =>
    rw [hopTo_of_routed h.listed hrouted] at heq
    cases hrouted' : routedTo source (owns source registered node) child' with
    | none =>
      rw [hopTo_of_not_routed h'.listed hrouted'] at heq
      cases heq
    | some name' =>
      rw [hopTo_of_routed h'.listed hrouted'] at heq
      cases heq
      have hdrop : ((source.children node).drop (i + 1))[j - (i + 1)]? = some child' := by
        rw [List.getElem?_drop, Nat.add_sub_cancel' hij, h'.listed]
      exact h.not_routed_later hrouted child' (List.mem_of_getElem? hdrop) hrouted'
  | none =>
    rw [hopTo_of_not_routed h.listed hrouted] at heq
    cases hrouted' : routedTo source (owns source registered node) child' with
    | some name =>
      rw [hopTo_of_routed h'.listed hrouted'] at heq
      cases heq
    | none =>
      rw [hopTo_of_not_routed h'.listed hrouted'] at heq
      have hplaced : isPlaced source (owns source registered node) child = true := by
        rw [isPlaced, h.element, hrouted]
        rfl
      have hcount := countP_take_lt h.listed hplaced hij
      rw [Hop.child.inj heq] at hcount
      exact Nat.lt_irrefl _ hcount

/-- **Different children are found on different ways.** -/
theorem hopTo_injective {child' : ν} (h : Stays source registered node i child)
    (h' : Stays source registered node j child')
    (heq : hopTo source registered node i = hopTo source registered node j) : i = j := by
  rcases Nat.lt_trichotomy i j with hij | hij | hij
  · exact absurd heq (hopTo_ne_of_lt h h' hij)
  · exact hij
  · exact absurd heq.symm (hopTo_ne_of_lt h' h hij)

theorem place_injective {n' : ν} (h : Remains source registered node path n)
    (h' : Remains source registered node path' n')
    (heq : place source registered node path = place source registered node path') :
    path = path' := by
  induction h generalizing path' with
  | here =>
    cases h' with
    | here => rfl
    | step => simp [place] at heq
  | step hs _ ih =>
    cases h' with
    | here => simp [place] at heq
    | step hs' hrest' =>
      rw [place, place, hs.listed, hs'.listed, List.cons.injEq] at heq
      obtain rfl := hopTo_injective hs hs' heq.1
      obtain rfl : _ = _ := Option.some.inj (hs.listed.symm.trans hs'.listed)
      rw [ih hrest' heq.2]

/-! ## Descriptors that correspond to nodes -/

/-- What is given counts for an element that is routed to no slot only. -/
theorem standsFor_congr {owned : Bool} {given given' : Option Value}
    (h : source.kind child = .element → routedTo source owned child = none → given = given') :
    standsFor source owned child given = standsFor source owned child given' := by
  rw [standsFor, standsFor]
  cases hk : source.kind child with
  | element =>
    cases hrouted : routedTo source owned child with
    | some name => rfl
    | none => rw [h hk hrouted]
  | _ => rfl

/-- What stands for a child, when the element children give these results. -/
def positionalOf (source : Source ν) (owned : Bool) (result : ν → Value) (child : ν) :
    Option Value :=
  standsFor source owned child (some (result child))

theorem isSome_positionalOf (owned : Bool) (result : ν → Value) (child : ν) :
    (positionalOf source owned result child).isSome = isPlaced source owned child := by
  rw [positionalOf, standsFor, isPlaced]
  cases source.kind child with
  | text => cases source.text child <;> simp [Option.filter]; split <;> simp_all
  | element => cases routedTo source owned child <;> rfl
  | _ => rfl

theorem length_filterMap_positionalOf (owned : Bool) (result : ν → Value) (children : List ν) :
    (children.filterMap (positionalOf source owned result)).length =
      children.countP (isPlaced source owned) := by
  rw [List.length_filterMap_eq_countP]
  simp only [isSome_positionalOf]

/-- An element among the children is what a child gives that is routed to no slot. -/
theorem of_positionalOf {owned : Bool} {result : ν → Value} {v : Value}
    (h : positionalOf source owned result child = some v) (hv : v.IsElement) :
    source.kind child = .element ∧ routedTo source owned child = none ∧ v = result child := by
  rw [positionalOf, standsFor] at h
  cases hk : source.kind child with
  | text =>
    simp only [hk] at h
    obtain ⟨text, -, rfl⟩ := Option.map_eq_some_iff.mp h
    obtain ⟨_, _, _, heq⟩ := hv
    cases heq
  | element =>
    simp only [hk] at h
    cases hrouted : routedTo source owned child with
    | some name => simp [hrouted] at h
    | none =>
      rw [hrouted] at h
      exact ⟨rfl, rfl, (Option.some.inj h).symm⟩
  | _ => simp [hk] at h

/-- A node and its descriptor correspond in all parts: the props hold the last result for each slot,
set over texts, and the children are what stands for those of the node. -/
inductive Describes (source : Source ν) (registered : String → Value) (fragmentType : Value) :
    ν → Value → Prop
  | intro {node : ν} {attributes : List (String × Value)} {result : ν → Value} :
      Texts attributes → (attributes.map Prod.fst).Nodup →
      (∀ child ∈ source.children node, source.kind child = .element →
        Describes source registered fragmentType child (result child)) →
      Describes source registered fragmentType node
        (.element (typeOf source registered node fragmentType)
          (named (Assoc.setAll attributes (Assoc.ofPairs
            (routedPairs source (owns source registered node) result (source.children node)))))
          ((source.children node).filterMap
            (positionalOf source (owns source registered node) result)))

theorem Describes.isElement {d : Value} (h : Describes source registered fragmentType node d) :
    d.IsElement := by
  cases h
  exact ⟨_, _, _, rfl⟩

/-- The last child that is routed to a slot gives its result there. -/
theorem get?_routedPairs (owned : Bool) (result : ν → Value) (children : List ν) (name : String) :
    Assoc.get? name (Assoc.ofPairs (routedPairs source owned result children)) =
      (children.reverse.find? fun child => routedTo source owned child == some name).map result := by
  have hfirst : ∀ children : List ν, Assoc.get? name (routedPairs source owned result children) =
      (children.find? fun child => routedTo source owned child == some name).map result := by
    intro children
    induction children with
    | nil => rfl
    | cons child children ih =>
      rw [routedPairs] at ih ⊢
      cases hrouted : routedTo source owned child with
      | none =>
        rw [List.filterMap_cons_none (by rw [hrouted]; rfl), ih,
          List.find?_cons_of_neg (by simp [hrouted])]
      | some slot =>
        rw [List.filterMap_cons_some (by rw [hrouted]; rfl), Assoc.get?, List.find?_cons, hrouted, ih]
        by_cases hslot : slot = name
        · simp [hslot]
        · simp [beq_false_of_ne hslot]
  rw [Assoc.get?_ofPairs, ← hfirst, routedPairs, routedPairs, List.filterMap_reverse]

/-- Under a name there is the result of the last child that is routed there, or else a text. -/
theorem get?_props {attributes : List (String × Value)} (owned : Bool) (result : ν → Value)
    (children : List ν) (name : String) :
    Assoc.get? (.str name) (named (Assoc.setAll attributes (Assoc.ofPairs
        (routedPairs source owned result children)))) =
      ((children.reverse.find? fun child => routedTo source owned child == some name).map
        result).or (Assoc.get? name attributes) := by
  have hnodup := Assoc.nodup_keys_ofPairs (routedPairs source owned result children)
  rw [Value.get?_named, Assoc.get?_setAll_eq, ← Assoc.get?_ofPairs, Assoc.ofPairs_of_nodup hnodup,
    get?_routedPairs]

/-- The way to a child that stays leads to what it gives. -/
theorem hop?_of_stays {type : Value} {attributes : List (String × Value)} (result : ν → Value)
    (hs : Stays source registered node i child) :
    Value.hop? (hopTo source registered node i) (.element type
      (named (Assoc.setAll attributes (Assoc.ofPairs
        (routedPairs source (owns source registered node) result (source.children node)))))
      ((source.children node).filterMap
        (positionalOf source (owns source registered node) result))) = some (result child) := by
  cases hrouted : routedTo source (owns source registered node) child with
  | some name =>
    have hlast : ((source.children node).reverse.find? fun other =>
        routedTo source (owns source registered node) other == some name) = some child := by
      refine find?_reverse_eq_some_iff.mpr ⟨i, hs.listed, by simp [hrouted], fun later hlater => ?_⟩
      simpa using hs.not_routed_later hrouted later hlater
    rw [hopTo_of_routed hs.listed hrouted, Value.hop?, get?_props, hlast]
    rfl
  | none =>
    have hpositional : positionalOf source (owns source registered node) result child =
        some (result child) := by
      rw [positionalOf, standsFor, hs.element, hrouted]
      rfl
    rw [hopTo_of_not_routed hs.listed hrouted, Value.hop?, ← length_filterMap_positionalOf]
    exact getElem?_filterMap_take hs.listed hpositional

/-- **A step in the tree is a hop in the descriptor.** -/
theorem Describes.hop?_hopTo {d : Value} (h : Describes source registered fragmentType node d)
    (hs : Stays source registered node i child) :
    ∃ v, Value.hop? (hopTo source registered node i) d = some v ∧
      Describes source registered fragmentType child v := by
  cases h with
  | @intro _ attributes result _ _ hresult =>
    exact ⟨result child, hop?_of_stays result hs,
      hresult child (List.mem_of_getElem? hs.listed) hs.element⟩

/-- **A hop to an element is a step in the tree.** -/
theorem Describes.exists_of_hop? {d v : Value} {hop : Hop}
    (h : Describes source registered fragmentType node d) (hv : Value.hop? hop d = some v)
    (he : v.IsElement) :
    ∃ i child, Stays source registered node i child ∧ hopTo source registered node i = hop ∧
      Describes source registered fragmentType child v := by
  cases h with
  | @intro _ attributes result htexts _ hresult =>
    cases hop with
    | child k =>
      obtain ⟨i, child, hlisted, hpositional, rfl⟩ := exists_of_getElem?_filterMap hv
      obtain ⟨hk, hrouted, rfl⟩ := of_positionalOf hpositional he
      refine ⟨i, child, stays_of_not_routed hlisted hk hrouted, ?_,
        hresult child (List.mem_of_getElem? hlisted) hk⟩
      rw [hopTo_of_not_routed hlisted hrouted, length_filterMap_positionalOf]
    | prop key =>
      obtain ⟨name, rfl, -⟩ := Value.exists_of_get?_named hv
      rw [Value.hop?, get?_props] at hv
      cases hfind : (source.children node).reverse.find? fun child =>
          routedTo source (owns source registered node) child == some name with
      | none =>
        -- what is left under the name is an attribute, which is a text
        rw [hfind] at hv
        obtain ⟨text, htext⟩ := htexts _ (Assoc.mem_of_get? hv)
        obtain ⟨_, _, _, rfl⟩ := he
        cases text <;> cases htext
      | some child =>
        rw [hfind] at hv
        obtain rfl : result child = v := Option.some.inj hv
        obtain ⟨i, hlisted, hpass, hlast⟩ := find?_reverse_eq_some_iff.mp hfind
        have hrouted : routedTo source (owns source registered node) child = some name := by
          simpa using hpass
        have hk := kind_of_routedTo hrouted
        have hstays : Stays source registered node i child := by
          refine stays_of_not_routed_later hlisted hk fun name' hname' later hlater => ?_
          rw [hrouted] at hname'
          cases hname'
          simpa using hlast later hlater
        exact ⟨i, child, hstays, hopTo_of_routed hlisted hrouted,
          hresult child (List.mem_of_getElem? hlisted) hk⟩

/-- What is found at the place of a node describes it. -/
theorem Describes.at?_place {d : Value} (h : Describes source registered fragmentType node d)
    (hr : Remains source registered node path n) :
    ∃ v, d.at? (place source registered node path) = some v ∧
      Describes source registered fragmentType n v := by
  induction hr generalizing d with
  | here => exact ⟨d, rfl, h⟩
  | step hs _ ih =>
    obtain ⟨v, hhop, hv⟩ := h.hop?_hopTo hs
    obtain ⟨w, hat, hw⟩ := ih hv
    refine ⟨w, ?_, hw⟩
    rw [place, hs.listed, Value.at?, hhop]
    exact hat

/-- Every element is found at the place of a node. -/
theorem Describes.exists_of_at? {d v : Value} {hops : List Hop}
    (h : Describes source registered fragmentType node d) (hat : d.at? hops = some v)
    (he : v.IsElement) :
    ∃ path n, Remains source registered node path n ∧ place source registered node path = hops := by
  induction hops generalizing node d with
  | nil => exact ⟨[], node, .here node, rfl⟩
  | cons hop hops ih =>
    rw [Value.at?, Option.bind_eq_some_iff] at hat
    obtain ⟨w, hhop, hat⟩ := hat
    obtain ⟨i, child, hstays, rfl, hw⟩ := h.exists_of_hop? hhop (Value.isElement_of_at? hat he)
    obtain ⟨path, n, hremains, rfl⟩ := ih hw hat
    refine ⟨i :: path, n, .step hstays hremains, ?_⟩
    rw [place, hstays.listed]

/-- The texts among the children of a descriptor are those of the node. -/
theorem text?_positionalOf {owned : Bool} {result : ν → Value}
    (h : source.kind child = .element → (result child).IsElement) :
    (positionalOf source owned result child).bind Value.text? = textOf source child := by
  rw [positionalOf, standsFor, textOf]
  cases hk : source.kind child with
  | text => cases (source.text child).filter (! ·.isEmpty) <;> rfl
  | element =>
    obtain ⟨_, _, _, heq⟩ := h hk
    cases (routedTo source owned child).isNone
    · rfl
    · simp [heq, Value.text?]
  | _ => rfl

/-- **The parts of a descriptor**: its type, props with distinct names, the texts among its children, and
all of its children in document order. -/
theorem Describes.parts {d : Value} (h : Describes source registered fragmentType node d) :
    ∃ pairs children, d = .element (typeOf source registered node fragmentType) (named pairs) children ∧
      (pairs.map Prod.fst).Nodup ∧
      children.filterMap Value.text? = (source.children node).filterMap (textOf source) ∧
      children = contentOf source registered node fun i =>
        Value.hop? (hopTo source registered node i) d := by
  cases h with
  | @intro _ attributes result _ hnodup hresult =>
    refine ⟨_, _, rfl, Assoc.nodup_keys_setAll hnodup, ?_, ?_⟩
    · rw [List.filterMap_filterMap]
      exact List.filterMap_congr fun child hchild =>
        text?_positionalOf fun hk => (hresult child hchild hk).isElement
    · rw [contentOf]
      conv_lhs => rw [← List.zipIdx_map_fst 0 (source.children node), List.filterMap_map]
      apply List.filterMap_congr
      rintro ⟨child, i⟩ hmem
      have hlisted : (source.children node)[i]? = some child := List.mem_zipIdx_iff_getElem?.mp hmem
      refine standsFor_congr fun hk hrouted => ?_
      exact (hop?_of_stays result (stays_of_not_routed hlisted hk hrouted)).symm

/-- **The elements of a descriptor are the nodes that remain, one for each.** -/
theorem Describes.bijOn_place {d : Value} (h : Describes source registered fragmentType node d) :
    Set.BijOn (place source registered node) {path | ∃ n, Remains source registered node path n}
      {hops | ∃ v, d.at? hops = some v ∧ v.IsElement} := by
  refine ⟨?_, ?_, ?_⟩
  · rintro path ⟨n, hremains⟩
    obtain ⟨v, hat, hv⟩ := h.at?_place hremains
    exact ⟨v, hat, hv.isElement⟩
  · rintro path ⟨n, hremains⟩ path' ⟨n', hremains'⟩ heq
    exact place_injective hremains hremains' heq
  · rintro hops ⟨v, hat, hv⟩
    obtain ⟨path, n, hremains, hplace⟩ := h.exists_of_at? hat hv
    exact ⟨path, ⟨n, hremains⟩, hplace⟩

/-- The parts of the element at the place of a node. -/
theorem Describes.parts_at_place {d : Value} (h : Describes source registered fragmentType node d)
    (hremains : Remains source registered node path n) :
    ∃ pairs children, d.at? (place source registered node path) =
        some (.element (typeOf source registered n fragmentType) (named pairs) children) ∧
      (pairs.map Prod.fst).Nodup ∧
      children.filterMap Value.text? = (source.children n).filterMap (textOf source) ∧
      children = contentOf source registered n fun i =>
        d.at? (place source registered node (path ++ [i])) := by
  obtain ⟨v, hat, hv⟩ := h.at?_place hremains
  have hfound : ∀ i, d.at? (place source registered node (path ++ [i])) =
      Value.hop? (hopTo source registered n i) v := by
    intro i
    rw [place_append hremains, Value.at?_append, hat, Option.bind_some, Value.at?]
    exact Option.bind_fun_some _
  obtain ⟨pairs, children, rfl, hnodup, htexts, hchildren⟩ := hv.parts
  refine ⟨pairs, children, hat, hnodup, htexts, ?_⟩
  simp only [hfound]
  exact hchildren

/-! ## Conversions -/

theorem positionals_eq {owned : Bool} {result : ν → Value} {children : List ν}
    (h : ∀ child ∈ children, source.kind child = .element → (result child).IsElement) :
    positionals source owned result children =
      children.filterMap (positionalOf source owned result) := by
  rw [positionals, childrenOf, List.filterMap_map, List.filterMap_filterMap]
  apply List.filterMap_congr
  intro child hchild
  show (placementOf source owned result child).bind _ = _
  rw [placementOf, positionalOf, standsFor]
  cases hk : source.kind child with
  | text =>
    cases source.text child with
    | none => rfl
    | some text =>
      cases htext : text.isEmpty <;>
        simp [positional, Value.ofString?, Value.isChild, Option.filter, htext]
  | element =>
    obtain ⟨_, _, _, heq⟩ := h child hchild hk
    cases routedTo source owned child with
    | some name => rfl
    | none =>
      rw [heq]
      rfl
  | _ => rfl

/-- **A conversion to plain element values describes its node.** -/
theorem visit_describes {part : ν → Prop} {beyond : Fault} {levels : Nat} {d : Value}
    (hr : source.Readable part) (hp : part node) (ho : source.Opened node)
    (h : (visit source (.plain registered fragmentType none) beyond levels node).Gives d) :
    Describes source registered fragmentType node d := by
  induction levels generalizing node d with
  | zero => cases h.1
  | succ levels ih =>
    rcases ho with he | hf
    · obtain ⟨below, attributes, result, hlevels, hattributes, hresult, rfl⟩ :=
        exists_describe hr hp he h.1
      cases hlevels
      have hchild : ∀ child ∈ source.children node, source.kind child = .element →
          Describes source registered fragmentType child (result child) :=
        fun child hchild hk => ih (hr.children hp hchild) (.inl hk) (hresult child hchild hk).1
      have howns : owns source registered node = (registered (tagOf source node)).truthy := by
        simp [owns, he]
      have htype : typeOf source registered node fragmentType =
          (registered (tagOf source node)).orElse (.str (tagOf source node)) := by
        rw [typeOf, he]
      have hpassed := passedOf_sublist registered (parentTag? source node) attributes
      rw [describe, positionals_eq fun child hmem hk => (hchild child hmem hk).isElement, ← htype,
        ← howns]
      refine .intro (fun pair hpair => ?_) ?_ hchild
      · exact texts_attributesOf hr hp hattributes pair (hpassed.subset hpair)
      · exact (nodup_keys_attributesOf hattributes).sublist (hpassed.map Prod.fst)
    · obtain ⟨below, result, hlevels, hresult, rfl⟩ := exists_fragment hr hp hf h.1
      cases hlevels
      have hchild : ∀ child ∈ source.children node, source.kind child = .element →
          Describes source registered fragmentType child (result child) :=
        fun child hchild hk => ih (hr.children hp hchild) (.inl hk) (hresult child hchild hk).1
      have howns : owns source registered node = false := by simp [owns, hf]
      have hpairs : routedPairs source (owns source registered node) result (source.children node) =
          [] := by
        rw [howns, routedPairs]
        simp [routedTo]
      have hnone := @Describes.intro ν source registered fragmentType node [] result
        (by simp [Texts]) (by simp) hchild
      rw [hpairs, typeOf, hf, ← positionals_eq fun child hmem hk => (hchild child hmem hk).isElement,
        howns] at hnone
      exact hnone

/-- A node that is neither an element nor a fragment gives null. -/
theorem visit_gives_null {host : Host ν} {beyond : Fault} {levels : Nat} {d : Value}
    (ho : ¬ source.Opened node) (h : (visit source host beyond levels node).Gives d) : d = .null := by
  have he := fun he => ho (.inl he)
  have hf := fun hf => ho (.inr hf)
  cases levels with
  | zero => cases h.1
  | succ levels =>
    rw [visit_other he hf] at h
    exact (Except.ok.inj h.1).symm

end Conversion

section Correspondence

open Conversion

variable {source : Source ν} {part : ν → Prop} {root : ν}

/-- **Nothing is lost or made up in a conversion, but for children that are replaced in their slots.**
Take a conversion to plain element values without a props strategy that does not end beyond its levels.
It gives a descriptor, whose elements are those of the start node and of the elements that remain, one
for each (`place`). The element at the place of a node has its type; the texts among its children are
those of the node that are not empty; and its children are these texts, and the elements at the places
of the element children that are routed to no slot, in document order. -/
theorem convert_corresponds (hr : source.Readable part) (hroot : part root)
    (registered : String → Value) (fragmentType : Value) (limit : Option Int)
    (hdepth : (convert source (.plain registered fragmentType none) limit root).settled ≠
      .error (faultBeyond limit)) :
    ∃ d, (convert source (.plain registered fragmentType none) limit root).settled = .ok d ∧
      Set.BijOn (place source registered root)
        {path | source.Opened root ∧ ∃ n, Remains source registered root path n}
        {hops | ∃ v, d.at? hops = some v ∧ v.IsElement} ∧
      ∀ path n, source.Opened root → Remains source registered root path n →
        ∃ pairs children, d.at? (place source registered root path) =
            some (.element (typeOf source registered n fragmentType) (named pairs) children) ∧
          (pairs.map Prod.fst).Nodup ∧
          children.filterMap Value.text? = (source.children n).filterMap (textOf source) ∧
          children = contentOf source registered n fun i =>
            d.at? (place source registered root (path ++ [i])) := by
  rw [convert_eq_visit] at hdepth ⊢
  rcases @plain_settles ν source registered fragmentType none (faultBeyond limit)
    (levelsWithin source limit root) root part hr hroot with ⟨d, hgives, -⟩ | hstops
  case inr =>
    exact absurd hstops.settled hdepth
  case inl =>
    refine ⟨d, hgives.settled, ?_, fun path n hopened hremains =>
      (visit_describes hr hroot hopened hgives).parts_at_place hremains⟩
    by_cases hopened : source.Opened root
    · simpa only [hopened, true_and] using (visit_describes hr hroot hopened hgives).bijOn_place
    · obtain rfl := visit_gives_null hopened hgives
      -- null has no elements in it
      have hempty : {hops | ∃ v, Value.null.at? hops = some v ∧ v.IsElement} = ∅ := by
        rw [Set.eq_empty_iff_forall_notMem]
        rintro hops ⟨v, hat, hv⟩
        obtain ⟨_, _, _, heq⟩ := Value.isElement_of_at? hat hv
        cases heq
      rw [hempty]
      simp [hopened]

/-- A card with an attribute that its last child overrides, which also replaces the first one. -/
def replacingCard : Markup :=
  .element "x-card" [("a", .str "0")]
    [slotted "a" "1", .text "Hi", .element "i" [] [], slotted "a" "2"]

theorem convert_corresponds_replacingCard :
    (View.wrap (.top replacingCard)).Readable ∧
      Replaced View.source cardTypes (.wrap (.top replacingCard)) 0 ∧
      ∃ d, (convert View.source (.plain cardTypes .fragment none) none
          (.wrap (.top replacingCard))).settled = .ok d ∧
        Set.BijOn (place View.source cardTypes (.wrap (.top replacingCard)))
          {path | View.source.Opened (.wrap (.top replacingCard)) ∧
            ∃ n, Remains View.source cardTypes (.wrap (.top replacingCard)) path n}
          {hops | ∃ v, d.at? hops = some v ∧ v.IsElement} ∧
        ∃ pairs children, d.at? [.prop (.str "a")] =
            some (.element (.str "b") (named pairs) children) ∧
          children.filterMap Value.text? = ["2"] := by
  have htextual : replacingCard.Textual := by
    refine ⟨fun a ha => ?_, slotted_textual _ _, trivial, ⟨by simp, trivial⟩, slotted_textual _ _,
      trivial⟩
    rw [List.mem_singleton.mp ha]
    exact ⟨some "0", rfl⟩
  have hreadable : (View.wrap (.top replacingCard)).Readable := View.readable_of_textual htextual
  have hreplaced : Replaced View.source cardTypes (.wrap (.top replacingCard)) 0 :=
    ⟨rfl, _, "a", rfl, rfl, _, List.mem_of_getElem? (i := 2) rfl, rfl⟩
  obtain ⟨d, hd, hbij, hparts⟩ := convert_corresponds View.readable hreadable cardTypes .fragment none
    (by intro h; cases h)
  have hstays : Stays View.source cardTypes (.wrap (.top replacingCard)) 3
      ((View.wrap (.top replacingCard)).below (slotted "a" "2")) := by
    refine ⟨rfl, rfl, ?_⟩
    rintro ⟨-, _, _, -, -, later, hlater, -⟩
    cases hlater
  obtain ⟨pairs, children, hat, -, htexts, -⟩ := hparts [3] _ (.inl rfl) (.step hstays (.here _))
  exact ⟨hreadable, hreplaced, d, hd, hbij, pairs, children, hat, htexts⟩

end Correspondence

end ComponentTree
