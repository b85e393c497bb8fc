import ComponentTree.Proofs.Markup.Parsed

/-!
# The first template of a document

`Markup.findTemplate?` searches in document order (`templateSearched_findTemplate?`): it gives the
template at the least way, and none only if there is none. With what parsing makes, this is all that is
relied on in a library (`lawful_library`).
-/

namespace ComponentTree

namespace Markup

variable {id : String} {above ms : List Markup} {m : Markup}

theorem isTemplate_iff : isTemplate id m = true ↔ m.IsTemplate id := by
  cases m with
  | element name attributes content =>
    rw [isTemplate, Bool.and_eq_true, beq_iff_eq, Option.any_eq_true]
    constructor
    · rintro ⟨rfl, value, hvalue, hid⟩
      cases value with
      | str text => exact ⟨_, _, rfl, by rw [hvalue, beq_iff_eq.mp hid]⟩
      | _ => cases hid
    · rintro ⟨attributes', content', heq, hid⟩
      cases heq
      exact ⟨rfl, _, hid, beq_self_eq_true id⟩
  | document content => simp [isTemplate, IsTemplate]
  | text s => simp [isTemplate, IsTemplate]
  | other s => simp [isTemplate, IsTemplate]

/-! ## Searching -/

/-- What lies below the ancestors among nodes, by the way that leads there. -/
def followAmong? (above ms : List Markup) : List Nat → Option Place
  | [] => none
  | i :: path => ms[i]?.bind fun m => (⟨m, above⟩ : Place).follow? path

theorem follow?_cons (i : Nat) (path : List Nat) :
    (⟨m, above⟩ : Place).follow? (i :: path) = followAmong? (m :: above) m.content (i :: path) := by
  rw [Place.follow?, Place.children, List.getElem?_map, followAmong?, Option.bind_map]
  rfl

/-- What a search for a template has to come to, if it may follow certain ways. -/
def TemplateSearched (id : String) (follow? : List Nat → Option Place) : Option Place → Prop
  | none => ∀ path q, follow? path = some q → ¬ q.node.IsTemplate id
  | some p => ∃ path, follow? path = some p ∧ p.node.IsTemplate id ∧
      ∀ path' < path, ∀ q, follow? path' = some q → ¬ q.node.IsTemplate id

/-- The node itself comes before all that is inside it. -/
theorem templateSearched_of_content {result : Option Place} (hm : ¬ m.IsTemplate id)
    (h : TemplateSearched id (followAmong? (m :: above) m.content) result) :
    TemplateSearched id (⟨m, above⟩ : Place).follow? result := by
  have hinside : ∀ path q, (⟨m, above⟩ : Place).follow? path = some q → q.node.IsTemplate id →
      followAmong? (m :: above) m.content path = some q := by
    intro path q hq hid
    cases path with
    | nil => cases hq; exact absurd hid hm
    | cons i path => rwa [follow?_cons] at hq
  cases result with
  | none => exact fun path q hq hid => h path q (hinside path q hq hid) hid
  | some p =>
    obtain ⟨path, hp, hid, hfirst⟩ := h
    refine ⟨path, ?_, hid, fun path' hlt q hq hq' => hfirst path' hlt q (hinside path' q hq hq') hq'⟩
    cases path with
    | nil => cases hp
    | cons i path => rwa [follow?_cons]

/-- Nothing among no nodes is a template. -/
theorem templateSearched_nil : TemplateSearched id (followAmong? above []) none := by
  intro path q hq
  cases path <;> cases hq

theorem templateSearched_cons_some {p : Place}
    (h : TemplateSearched id (⟨m, above⟩ : Place).follow? (some p)) :
    TemplateSearched id (followAmong? above (m :: ms)) (some p) := by
  obtain ⟨path, hp, hid, hfirst⟩ := h
  refine ⟨0 :: path, hp, hid, fun path' hlt q hq => ?_⟩
  cases path' with
  | nil => cases hq
  | cons i path' =>
    rcases List.cons_lt_cons_iff.mp hlt with hi | ⟨rfl, hpath⟩
    · exact absurd hi (Nat.not_lt_zero i)
    · exact hfirst path' hpath q hq

theorem templateSearched_cons_none {result : Option Place}
    (hm : TemplateSearched id (⟨m, above⟩ : Place).follow? none)
    (h : TemplateSearched id (followAmong? above ms) result) :
    TemplateSearched id (followAmong? above (m :: ms)) result := by
  -- past the first node, the ways lead on from the next position
  have hnext : ∀ i path, followAmong? above (m :: ms) ((i + 1) :: path) =
      followAmong? above ms (i :: path) := fun i path => by
    rw [followAmong?, followAmong?, List.getElem?_cons_succ]
  cases result with
  | none =>
    intro path q hq
    match path with
    | [] => cases hq
    | 0 :: path => exact hm path q hq
    | (i + 1) :: path => exact h (i :: path) q ((hnext i path).symm.trans hq)
  | some p =>
    obtain ⟨path, hp, hid, hfirst⟩ := h
    cases path with
    | nil => cases hp
    | cons i path =>
      refine ⟨(i + 1) :: path, (hnext i path).trans hp, hid, fun path' hlt q hq => ?_⟩
      match path' with
      | [] => cases hq
      | 0 :: path' => exact hm path' q hq
      | (j + 1) :: path' =>
        refine hfirst (j :: path') ?_ q ((hnext j path').symm.trans hq)
        rw [List.cons_lt_cons_iff] at hlt ⊢
        exact hlt.imp Nat.lt_of_succ_lt_succ fun ⟨hij, hlt⟩ => ⟨Nat.succ_inj.mp hij, hlt⟩

mutual
/-- **The search gives the first template in document order.** -/
theorem templateSearched_findTemplate? (id : String) (above : List Markup) :
    ∀ m : Markup, TemplateSearched id (⟨m, above⟩ : Place).follow? (findTemplate? id above m)
  | .document content => by
    rw [findTemplate?]
    exact templateSearched_of_content (fun h => by cases h.kind)
      (templateSearched_findTemplateAmong? id _ content)
  | .element name attributes content => by
    rw [findTemplate?]
    split
    · next hid =>
      exact ⟨[], rfl, isTemplate_iff.mp hid, fun path' hlt => absurd hlt (List.not_lt_nil path')⟩
    · next hid =>
      exact templateSearched_of_content (fun h => hid (isTemplate_iff.mpr h))
        (templateSearched_findTemplateAmong? id _ content)
  | .text s => by
    rw [findTemplate?]
    exact templateSearched_of_content (fun h => by cases h.kind) templateSearched_nil
  | .other s => by
    rw [findTemplate?]
    exact templateSearched_of_content (fun h => by cases h.kind) templateSearched_nil

theorem templateSearched_findTemplateAmong? (id : String) (above : List Markup) :
    ∀ ms : List Markup,
      TemplateSearched id (followAmong? above ms) (findTemplateAmong? id above ms)
  | [] => templateSearched_nil
  | m :: ms => by
    have hm := templateSearched_findTemplate? id above m
    rw [findTemplateAmong?]
    cases hfound : findTemplate? id above m with
    | some p => exact templateSearched_cons_some (hfound ▸ hm)
    | none => exact templateSearched_cons_none (hfound ▸ hm) (templateSearched_findTemplateAmong? id _ ms)
end

/-! ## The first template -/

variable {root : Markup} {p : Place}

theorem findTemplate?_eq_some_iff :
    findTemplate? id [] root = some p ↔ ∃ path, FirstTemplate id root path p := by
  have hsearched := templateSearched_findTemplate? id [] root
  constructor
  · intro h
    rw [h] at hsearched
    obtain ⟨path, hp, hid, hfirst⟩ := hsearched
    exact ⟨path, hp, hid, hfirst⟩
  · rintro ⟨path, h⟩
    cases hfound : findTemplate? id [] root with
    | none =>
      rw [hfound] at hsearched
      exact absurd h.isTemplate (hsearched path p h.reached)
    | some q =>
      rw [hfound] at hsearched
      obtain ⟨path', hq, hid, hfirst⟩ := hsearched
      rw [FirstTemplate.unique ⟨hq, hid, hfirst⟩ h]

theorem findTemplate?_eq_none_iff : findTemplate? id [] root = none ↔ ¬ HasTemplate id root := by
  have hsearched := templateSearched_findTemplate? id [] root
  cases hfound : findTemplate? id [] root with
  | none =>
    rw [hfound] at hsearched
    exact iff_of_true rfl fun ⟨path, q, hq, hid⟩ => hsearched path q hq hid
  | some q =>
    rw [hfound] at hsearched
    obtain ⟨path, hq, hid, -⟩ := hsearched
    exact iff_of_false (fun h => by cases h) fun hno => hno ⟨path, q, hq, hid⟩

theorem HasTemplate.exists_first (h : HasTemplate id root) :
    ∃ path p, FirstTemplate id root path p := by
  cases hfound : findTemplate? id [] root with
  | none => exact absurd h (findTemplate?_eq_none_iff.mp hfound)
  | some p =>
    obtain ⟨path, hfirst⟩ := findTemplate?_eq_some_iff.mp hfound
    exact ⟨path, p, hfirst⟩

/-- The library that the program comes with can be relied on. -/
theorem lawful_library : library.Lawful where
  parsed := assembled_of_parse
  found _ := findTemplate?_eq_some_iff

end Markup

end ComponentTree
