import ComponentTree.Proofs.Path
import Mathlib.Data.List.Infix

/-!
# Setting as a nested update

Setting a value at a path is a lawful update of nested maps (`update_lawful`): what was set is found,
what lies to the side stays, the maps on the way keep their keys and gain at most the one that leads
on, setting what is found there anyway changes nothing, and what is set later at the same place or
above makes up for what was set before.

The laws are those of a single row of segments, each by induction on the row. They are said of the
target as it is seen afterwards (`update`): a map on the way that is shared shows the change wherever
it is held. So they ask that the way is not shared (`OwnWay`), and they fail where it is
(`update_sharedTwice`).
-/

namespace ComponentTree

namespace Assoc

variable {κ β : Type} [BEq κ]

/-- Setting the value that a key has changes nothing. -/
theorem set_of_get? {key : κ} {value : β} :
    ∀ {map : List (κ × β)}, get? key map = some value → set key value map = map
  | [], h => by cases h
  | (k, v) :: rest, h => by
    rw [get?] at h
    rw [set]
    split at h
    · next hk =>
      cases h
      rw [if_pos hk]
    · next hk => rw [if_neg hk, set_of_get? h]

/-- Of two values that are set under a key the later one stays. -/
theorem set_set {key : κ} (hkey : (key == key) = true) (value value' : β) :
    ∀ map : List (κ × β), set key value (set key value' map) = set key value map
  | [] => by rw [set, set, set, if_pos hkey]
  | (k, v) :: rest => by
    by_cases hk : (k == key) = true
    · rw [set, if_pos hk, set, if_pos hk, set, if_pos hk]
    · rw [set, if_neg hk, set, if_neg hk, set, if_neg hk, set_set hkey]

end Assoc

namespace Path

variable {segment : String} {value old w : Value} {target : Entries} {mark : Option Nat}
variable {q s : List String}

/-! ## Keys -/

theorem str_beq_iff {key : Value} {name : String} :
    (Value.str name == key) = true ↔ key = .str name := by
  show Value.alike (.str name) key = true ↔ _
  cases key with
  | str other =>
    rw [Value.alike, beq_iff_eq, Value.str.injEq]
    exact eq_comm
  | _ => simp [Value.alike]

theorem get?_set_of_ne_str {key : Value} {name : String} (h : key ≠ .str name) (value : Value)
    (entries : Entries) :
    Assoc.get? key (Assoc.set (.str name) value entries) = Assoc.get? key entries := by
  refine Assoc.get?_set_other (Value.beq_str_iff.mpr rfl) (fun k hk => ?_) value entries
  rw [Value.beq_str_iff.mp hk, Bool.eq_false_iff, ne_eq, str_beq_iff]
  exact h

/-- The keys of a map after a value was set in it under a string: a new key comes last. -/
def keysWith (name : String) (entries : Entries) : List Value :=
  if (Assoc.get? (.str name) entries).isSome then entries.map Prod.fst
  else entries.map Prod.fst ++ [.str name]

theorem keys_set (name : String) (value : Value) (entries : Entries) :
    (Assoc.set (.str name) value entries).map Prod.fst = keysWith name entries := by
  induction entries with
  | nil => rfl
  | cons entry entries ih =>
    obtain ⟨key, v⟩ := entry
    rw [keysWith] at ih ⊢
    rw [Assoc.set, Assoc.get?]
    split
    · rfl
    · rw [List.map_cons, ih]
      split <;> rfl

/-- Setting at a row adds at most its first segment to the keys. -/
theorem keys_assign (segment : String) (s : List String) (value : Value) (target : Entries) :
    (assign (segment :: s) value target).map Prod.fst = keysWith segment target := by
  cases s with
  | nil => exact keys_set ..
  | cons => exact keys_set ..

/-! ## Setting again -/

/-- **Setting what is found at a row changes nothing.** -/
theorem assign_of_lookup (h : lookup (.dict mark target) s = some old) :
    assign s old target = target := by
  induction s generalizing mark target with
  | nil => rfl
  | cons segment s ih =>
    rw [lookup_dict_cons] at h
    obtain ⟨found, hfound, hrest⟩ := Option.bind_eq_some_iff.mp h
    by_cases hs : s = []
    · subst hs
      rw [lookup_nil] at hrest
      cases hrest
      exact Assoc.set_of_get? hfound
    · -- something is found below, so that what is under the segment is a map
      have hmap : ∃ mark entries, found = .dict mark entries := by
        obtain ⟨next, rest, rfl⟩ := List.exists_cons_of_ne_nil hs
        cases found with
        | dict mark entries => exact ⟨mark, entries, rfl⟩
        | _ => cases hrest
      obtain ⟨mark', entries, rfl⟩ := hmap
      rw [assign_cons hs, hfound]
      show Assoc.set _ (.dict mark' (assign s old entries)) target = target
      rw [ih hrest, Assoc.set_of_get? hfound]

/-- **What is set at a row or at a beginning of it makes up for what was set at the row before.** -/
theorem assign_assign_of_beginning (hq : q ≠ []) (h : q <+: s) (w value : Value) (target : Entries) :
    assign q w (assign s value target) = assign q w target := by
  induction q generalizing s target with
  | nil => exact absurd rfl hq
  | cons segment q ih =>
    obtain ⟨rest, rfl⟩ := h
    have hself : (Value.str segment == .str segment) = true := Value.beq_str_iff.mpr rfl
    have hset : ∀ v t, Assoc.set (.str segment) v (assign (segment :: (q ++ rest)) value t) =
        Assoc.set (.str segment) v t := by
      intro v t
      by_cases hrest : q ++ rest = []
      · rw [hrest]
        exact Assoc.set_set hself ..
      · rw [assign_cons hrest, Assoc.set_set hself]
    by_cases hq : q = []
    · subst hq
      exact hset w target
    · have hrest : q ++ rest ≠ [] := List.append_ne_nil_of_left_ne_nil hq rest
      rw [List.cons_append, assign_cons hq, get?_assign_self, if_neg hrest, hset, assign_cons hq]
      congr 2
      exact ih hq (List.prefix_append q rest) _

/-! ## What is seen of shared maps -/

/-- The entries after a value was set at a path. If that changes a shared map, the map shows it at
every place where it is held. -/
def update (path : String) (value : Value) (target : Entries) : Entries :=
  match write? path value target with
  | none => Path.set path value target
  | some write => Value.entriesAfter write (Path.set path value target)

/-- None of the maps that the way along a row enters is shared, the one that it starts from apart. -/
def OwnWay (target : Entries) (s : List String) : Prop :=
  ∀ q, q ≠ [] → q <+: s → q ≠ s → markOf (lookup (.dict none target) q) = none

theorem OwnWay.tail {next : String} (h : OwnWay target (segment :: next :: s)) :
    markOf (Assoc.get? (.str segment) target) = none ∧
      OwnWay (nested (Assoc.get? (.str segment) target)) (next :: s) := by
  have hcons : ∀ q, lookup (.dict none target) (segment :: q) =
      (Assoc.get? (.str segment) target).bind (lookup · q) := lookup_dict_cons none target segment
  constructor
  · have hmark := h [segment] (by simp) (by simp) (by simp)
    rw [hcons] at hmark
    cases hget : Assoc.get? (.str segment) target with
    | none => rfl
    | some found =>
      rw [hget, Option.bind_some, lookup_nil] at hmark
      exact hmark
  · intro q hne hbegins hproper
    obtain ⟨first, q, rfl⟩ := List.exists_cons_of_ne_nil hne
    rw [lookup_nested, ← hcons]
    exact h _ (by simp) (List.cons_prefix_cons.mpr ⟨rfl, hbegins⟩) (by simpa using hproper)

/-- On a way that is not shared nothing is written. -/
theorem assignWrite?_of_ownWay (h : OwnWay target s) (value : Value) :
    assignWrite? s value target = none := by
  induction s generalizing target with
  | nil => rfl
  | cons segment s ih =>
    cases s with
    | nil => rfl
    | cons next s =>
      obtain ⟨hmark, hrest⟩ := h.tail
      rw [assignWrite?, ih hrest, hmark]
      rfl

theorem ownWay_of_length_le (h : s.length ≤ 1) : OwnWay target s := by
  intro q hne hbegins hproper
  have hlt := hbegins.length_le
  have hpos := List.length_pos_iff.mpr hne
  exact absurd (hbegins.eq_of_length (by omega)) hproper

/-- The way along a path is not shared if the way along its segments is not. -/
theorem update_eq_assign {path : String} (h : OwnWay target (segments path)) (value : Value) :
    update path value target = assign (keys path) value target := by
  have hkeys : OwnWay target (keys path) := by
    by_cases hnone : segments path = []
    · rw [keys_of_eq_nil hnone]
      exact ownWay_of_length_le (by simp)
    · rwa [keys_of_ne_nil hnone]
  rw [update, write?_eq, assignWrite?_of_ownWay hkeys, set_eq_assign]

/-- Setting keeps the marks of the maps on the way, so they remain unshared. -/
theorem OwnWay.assign_of_beginning (h : OwnWay target s) (hq : q <+: s) (value : Value) :
    OwnWay (assign s value target) q := by
  intro r hne hbegins hproper
  obtain ⟨rest, rfl⟩ := hbegins.trans hq
  have hrest : rest ≠ [] := by
    rintro rfl
    rw [List.append_nil] at hq
    exact hproper (hbegins.eq_of_length (Nat.le_antisymm hbegins.length_le hq.length_le))
  have hmap := lookup_assign_prefix hrest r value none target
  rw [hmap]
  exact h r hne (List.prefix_append r rest) fun heq => hrest (by simpa using heq)

/-! ## The laws -/

variable {path : String}

/-- **Setting a value at a path is a lawful update** of nested maps, as long as none of the maps that
the path leads through is shared.

A path without segments is a key: it gets the value, and all other keys keep theirs. Any other path
leads along its segments. There the value is found afterwards; along any row that parts from them the
same is found as before, or nothing as before; and before the end there are maps, which have the keys
of those that were there, and the next segment as the last one if it is new. Setting what is found
there anyway changes nothing. What is set later at the same place or above leaves nothing of what was
set before, not even in the order of keys. -/
theorem update_lawful (path : String) (value : Value) (target : Entries)
    (hway : OwnWay target (segments path)) :
    let updated := Value.dict none (update path value target)
    (segments path = [] →
      Assoc.get? (.str path) (update path value target) = some value ∧
      (∀ key, key ≠ .str path →
        Assoc.get? key (update path value target) = Assoc.get? key target) ∧
      (update path value target).map Prod.fst = keysWith path target) ∧
    (segments path ≠ [] →
      lookup updated (segments path) = some value ∧
      (∀ q, ¬ Comparable (segments path) q → lookup updated q = lookup (.dict none target) q) ∧
      (∀ q next rest, segments path = q ++ next :: rest →
        ∃ mark entries, lookup updated q = some (.dict mark entries) ∧
          entries.map Prod.fst = keysWith next (nested (lookup (.dict none target) q))) ∧
      (∀ old, lookup (.dict none target) (segments path) = some old →
        update path old target = target) ∧
      ∀ path' w, segments path' ≠ [] → segments path' <+: segments path →
        update path' w (update path value target) = update path' w target) := by
  have hupdate := update_eq_assign hway
  refine ⟨fun hnone => ?_, fun hsome => ?_⟩
  · have hset : update path value target = Assoc.set (.str path) value target := by
      rw [hupdate, keys_of_eq_nil hnone]
      rfl
    rw [hset]
    exact ⟨get?_set_self .., fun key hkey => get?_set_of_ne_str hkey .., keys_set ..⟩
  · rw [keys_of_ne_nil hsome] at hupdate
    simp only [hupdate]
    refine ⟨?_, fun q hq => lookup_assign_of_apart hq .., ?_, fun old => assign_of_lookup, ?_⟩
    · have hfound := lookup_assign_append hsome [] value none target
      rwa [List.append_nil, lookup_nil] at hfound
    · intro q next rest hsegments
      have hmap := lookup_assign_prefix (List.cons_ne_nil next rest) q value none target
      rw [← hsegments] at hmap
      exact ⟨_, _, hmap, keys_assign next rest value _⟩
    · intro path' w hsome' hbegins
      have hway' : OwnWay target (segments path') := by
        intro q hne hq hproper
        refine hway q hne (hq.trans hbegins) ?_
        rintro rfl
        exact hproper (hq.eq_of_length (Nat.le_antisymm hq.length_le hbegins.length_le))
      rw [update_eq_assign (hway.assign_of_beginning hbegins value), update_eq_assign hway',
        keys_of_ne_nil hsome', assign_assign_of_beginning hsome' hbegins]

/-- Props with a map in which a path leads on, a scalar that stands in the way of another one, and a
shared map to the side. -/
def mixedProps : Entries :=
  [(.str "a", .dict none [(.str "x", .int 1), (.str "b", .str "text")]),
    (.str "shared", .dict (some 0) [])]

theorem update_lawful_mixedProps :
    OwnWay mixedProps (segments "a..b.c") ∧
      lookup (.dict none (update "a..b.c" .null mixedProps)) ["a", "b", "c"] = some .null ∧
      lookup (.dict none (update "a..b.c" .null mixedProps)) ["a", "x"] = some (.int 1) ∧
      update "a.b" (.int 2) (update "a..b.c" .null mixedProps) =
        update "a.b" (.int 2) mixedProps := by
  have hsegments : segments "a..b.c" = ["a", "b", "c"] := rfl
  have hsegments' : segments "a.b" = ["a", "b"] := rfl
  have hway : OwnWay mixedProps (segments "a..b.c") := by
    rw [hsegments]
    intro q hne hbegins hproper
    rw [← List.mem_inits] at hbegins
    simp only [List.inits, List.map_cons, List.map_nil, List.mem_cons, List.not_mem_nil,
      or_false] at hbegins
    rcases hbegins with rfl | rfl | rfl | rfl
    · exact absurd rfl hne
    · rfl
    · rfl
    · exact absurd rfl hproper
  obtain ⟨-, hlaws⟩ := update_lawful "a..b.c" .null mixedProps hway
  rw [hsegments] at hlaws
  obtain ⟨hfound, haside, -, -, hlater⟩ := hlaws (by simp)
  refine ⟨hway, hfound, haside ["a", "x"] (by decide), hlater "a.b" (.int 2) ?_ ?_⟩
  · rw [hsegments']
    simp
  · rw [hsegments']
    decide

/-- Props that hold one map at two places. -/
def sharedTwice : Entries := [(.str "a", .dict (some 0) []), (.str "b", .dict (some 0) [])]

/-- **A shared map shows what is set in it at its other place too**, which the path does not lead to. -/
theorem update_sharedTwice :
    ¬ Comparable (segments "a.k") ["b", "k"] ∧
      lookup (.dict none sharedTwice) ["b", "k"] = none ∧
      lookup (.dict none (update "a.k" (.int 5) sharedTwice)) ["b", "k"] = some (.int 5) :=
  ⟨by decide, rfl, rfl⟩

end Path

end ComponentTree
