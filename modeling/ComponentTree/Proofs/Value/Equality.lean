import ComponentTree.Value.Equality
import Mathlib.Tactic.Common

/-!
# Equality of proper values

Maps are kept as lists of pairs, and not every list of pairs is a map. A value is *proper* if no map
in it, and no element, has two keys that are alike. Proper values are like themselves, which is more
than can be said of equality: what is no number does not equal itself.
-/

namespace ComponentTree

theorem Binary64.alike_self (x : Binary64) : x.alike x = true := by
  cases x <;> simp [alike, equal]

namespace Value

/-- No two entries have keys that are alike. -/
def DistinctKeys (entries : Entries) : Prop :=
  entries.Pairwise fun a b => alike b.1 a.1 = false

mutual
/-- All maps in a value have distinct keys. -/
def Proper : Value → Prop
  | .list items => AllProper items
  | .tuple items => AllProper items
  | .dict _ entries => DistinctKeys entries ∧ EntriesProper entries
  | .element type props children =>
    Proper type ∧ (DistinctKeys props ∧ EntriesProper props) ∧ AllProper children
  | .null | .bool _ | .int _ | .float _ | .str _ | .broken _ | .fragment | .component _ => True

def AllProper : List Value → Prop
  | [] => True
  | v :: vs => Proper v ∧ AllProper vs

/-- The same for the keys and values of entries. -/
def EntriesProper : List (Value × Value) → Prop
  | [] => True
  | (key, value) :: entries => Proper key ∧ Proper value ∧ EntriesProper entries
end

/-- Among distinct keys the one that is found is the only one that is alike. -/
theorem find?_of_only {entries : Entries} {key : Value} {entry : Value × Value}
    (h : DistinctKeys entries) (hm : entry ∈ entries) (hk : alike key entry.1 = true)
    (honly : ∀ other ∈ entries, alike key other.1 = true → alike entry.1 other.1 = true) :
    (entries.find? fun e => alike key e.1) = some entry := by
  induction entries with
  | nil => cases hm
  | cons first entries ih =>
    obtain ⟨hfirst, hrest⟩ := List.pairwise_cons.mp h
    rcases List.mem_cons.mp hm with rfl | hm
    · rw [List.find?_cons, hk]
    · have hother : alike key first.1 = false := by
        by_contra hkey
        have halike := honly first List.mem_cons_self (by simpa using hkey)
        rw [hfirst entry hm] at halike
        cases halike
      rw [List.find?_cons, hother]
      exact ih hrest hm fun other hother => honly other (List.mem_cons_of_mem _ hother)

/-- Among distinct keys a key is found where it stands. -/
theorem find?_of_mem {entries : Entries} {entry : Value × Value} (h : DistinctKeys entries)
    (hm : entry ∈ entries) (hk : alike entry.1 entry.1 = true) :
    (entries.find? fun e => alike entry.1 e.1) = some entry :=
  find?_of_only h hm hk fun _ _ hkey => hkey

mutual
/-- **A proper value is like itself.** -/
theorem alike_self : ∀ v : Value, v.Proper → alike v v = true
  | .null, _ => rfl
  | .bool b, _ => by rw [alike]; exact beq_self_eq_true _
  | .int n, _ => by rw [alike]; exact beq_self_eq_true _
  | .float x, _ => by rw [alike]; exact x.alike_self
  | .str s, _ => by rw [alike]; exact beq_self_eq_true _
  | .broken s, _ => by rw [alike]; exact beq_self_eq_true _
  | .list items, h => by
    rw [Proper] at h
    rw [alike]
    exact alikeItems_self items h
  | .tuple items, h => by
    rw [Proper] at h
    rw [alike]
    exact alikeItems_self items h
  | .dict mark entries, h => by
    rw [Proper] at h
    rw [alike, beq_self_eq_true, Bool.true_and]
    exact alikeEntries_self entries h.1 entries (fun e he => he) h.2
  | .element type props children, h => by
    rw [Proper] at h
    rw [alike, alike_self type h.1, beq_self_eq_true, alikeItems_self children h.2.2,
      alikeEntries_self props h.2.1.1 props (fun e he => he) h.2.1.2]
    rfl
  | .fragment, _ => rfl
  | .component c, _ => by rw [alike]; exact beq_self_eq_true _

theorem alikeItems_self : ∀ items : List Value, AllProper items → alikeItems items items = true
  | [], _ => rfl
  | v :: vs, h => by
    rw [AllProper] at h
    rw [alikeItems, alike_self v h.1, alikeItems_self vs h.2]
    rfl

theorem alikeEntries_self (all : Entries) (hall : DistinctKeys all) : ∀ entries : Entries,
    (∀ e ∈ entries, e ∈ all) → EntriesProper entries → alikeEntries entries all = true
  | [], _, _ => rfl
  | (key, value) :: entries, hm, h => by
    rw [EntriesProper] at h
    have hkey := alike_self key h.1
    have hfound := find?_of_mem hall (hm (key, value) List.mem_cons_self) hkey
    rw [alikeEntries, hfound, Option.elim, alike_self value h.2.1, Bool.true_and]
    exact alikeEntries_self all hall entries (fun e he => hm e (List.mem_cons_of_mem _ he)) h.2.2
end

end Value

end ComponentTree
