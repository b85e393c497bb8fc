import ComponentTree.Proofs.Props.Standard

/-!
# Slots are opaque

What a slot holds is up to the host. To say that setting slots does not look into it, set *tokens*
instead, components that stand for the values of the slots, and fill in afterwards what they stand
for. The props are the same, and no shared map is written to (`tokens_stand_for_slots`). So where
the slots end up depends on the attributes and the names of the slots alone.

That is so unless the path of a slot leads into a map which another slot holds. Such a map cannot be
told from one that was made on the way, and the slot is set inside of it
(`nestedSlots_unlike_tokens`). `MapsSpared` says of slots that this does not happen.
-/

namespace ComponentTree

open ComponentTree.Path
open Value (named Nest)

/-! ## Filling in -/

namespace Value

/-- Whether a value is a map. -/
def isMap : Value → Bool
  | .dict _ _ => true
  | _ => false

mutual
/-- A value with what components stand for in their places. -/
def filled (meaning : Component → Value) : Value → Value
  | .list items => .list (itemsFilled meaning items)
  | .tuple items => .tuple (itemsFilled meaning items)
  | .dict mark entries => .dict mark (entriesFilled meaning entries)
  | .element type props children =>
    .element (filled meaning type) (entriesFilled meaning props) (itemsFilled meaning children)
  | .component c => meaning c
  | other => other

def itemsFilled (meaning : Component → Value) : List Value → List Value
  | [] => []
  | item :: items => filled meaning item :: itemsFilled meaning items

/-- Entries with their values filled in. No key is replaced. -/
def entriesFilled (meaning : Component → Value) : Entries → Entries
  | [] => []
  | (key, value) :: entries => (key, filled meaning value) :: entriesFilled meaning entries
end

variable {meaning : Component → Value} {v : Value}

theorem itemsFilled_eq_map (items : List Value) :
    itemsFilled meaning items = items.map (filled meaning) := by
  induction items with
  | nil => rfl
  | cons item items ih => rw [itemsFilled, ih, List.map_cons]

theorem entriesFilled_eq_mapValues (entries : Entries) :
    entriesFilled meaning entries = Assoc.mapValues (fun v _ => filled meaning v) entries := by
  induction entries with
  | nil => rfl
  | cons entry entries ih =>
    rw [entriesFilled, ih]
    rfl

theorem get?_entriesFilled (key : Value) (entries : Entries) :
    Assoc.get? key (entriesFilled meaning entries) =
      (Assoc.get? key entries).map (filled meaning) := by
  rw [entriesFilled_eq_mapValues, Assoc.get?_mapValues]

theorem set_entriesFilled (key value : Value) (entries : Entries) :
    Assoc.set key (filled meaning value) (entriesFilled meaning entries) =
      entriesFilled meaning (Assoc.set key value entries) := by
  rw [entriesFilled_eq_mapValues, entriesFilled_eq_mapValues, Assoc.set_mapValues]

/-- Data has no components. -/
theorem IsData.filled (h : v.IsData) : v.filled meaning = v := by
  induction h with
  | list _ ih =>
    rw [Value.filled, itemsFilled_eq_map]
    exact congrArg Value.list (List.map_congr_left ih |>.trans (List.map_id _))
  | map hnames h ih =>
    rw [Value.filled, entriesFilled_eq_mapValues, Assoc.mapValues, keyed, List.map_map]
    refine congrArg (Value.dict none) (List.map_congr_left fun pair hpair => ?_)
    show (Value.ofPoints pair.1, pair.2.filled meaning) = _
    rw [ih pair hpair]
  | _ => rfl

theorem IsData.lookup {w : Value} {q : List String} (h : v.IsData) (hw : lookup v q = some w) :
    w.IsData := by
  induction q generalizing v with
  | nil =>
    rw [lookup_nil] at hw
    exact Option.some.inj hw ▸ h
  | cons segment q ih =>
    cases h with
    | @map pairs hnames h =>
      rw [Nest.lookup_map_cons] at hw
      obtain ⟨found, hget, hw⟩ := Option.bind_eq_some_iff.mp hw
      exact ih (h _ (Assoc.mem_of_get? hget)) hw
    | _ => cases hw

end Value

open Value (filled entriesFilled)

/-! ## Tokens on the way -/

namespace Path

variable {meaning : Component → Value} {leaf : Value → Prop} {target : Entries}
variable {segment : String} {s q : List String}

/-- No token that stands for a map is found on the way to the end of a row. -/
def Free (meaning : Component → Value) (target : Entries) (s : List String) : Prop :=
  ∀ q r c, s = q ++ r → r ≠ [] → lookup (.dict none target) q = some (.component c) →
    (meaning c).isMap = false

/-- Other values are maps exactly if they are maps when filled in. -/
theorem nested_filled {old : Option Value}
    (h : ∀ c, old = some (.component c) → (meaning c).isMap = false) :
    markOf (old.map (filled meaning)) = markOf old ∧
      nested (old.map (filled meaning)) = entriesFilled meaning (nested old) := by
  cases old with
  | none => exact ⟨rfl, rfl⟩
  | some old =>
    cases old with
    | component c =>
      have hmap := h c rfl
      show markOf (some (meaning c)) = none ∧ nested (some (meaning c)) = []
      cases hc : meaning c with
      | dict mark entries => simp [hc, Value.isMap] at hmap
      | _ => exact ⟨rfl, rfl⟩
    | _ => exact ⟨rfl, rfl⟩

theorem Free.head (h : Free meaning target (segment :: s)) (hs : s ≠ []) (c : Component)
    (hget : Assoc.get? (.str segment) target = some (.component c)) :
    (meaning c).isMap = false := by
  apply h [segment] s c rfl hs
  rw [lookup_dict_cons, hget]
  rfl

theorem Free.tail (h : Free meaning target (segment :: s)) :
    Free meaning (nested (Assoc.get? (.str segment) target)) s := by
  intro q r c hsplit hr hlookup
  cases q with
  | nil => cases hlookup
  | cons next q =>
    apply h (segment :: next :: q) r c (congrArg (segment :: ·) hsplit) hr
    rw [lookup_dict_cons, ← lookup_nested _ none]
    exact hlookup

/-- **Setting and filling in can change places**, if no token on the way stands for a map. -/
theorem assign_entriesFilled (h : Free meaning target s) (value : Value) :
    assign s (filled meaning value) (entriesFilled meaning target) =
      entriesFilled meaning (assign s value target) := by
  induction s generalizing target with
  | nil => rfl
  | cons segment s ih =>
    by_cases hs : s = []
    · subst hs
      exact Value.set_entriesFilled ..
    · obtain ⟨hmark, hnested⟩ := nested_filled (h.head hs)
      rw [assign_cons hs, assign_cons hs, Value.get?_entriesFilled, hmark, hnested, ih h.tail,
        ← Value.set_entriesFilled]
      rfl

/-- What is on the way is then a map of the nest, and is not shared. -/
theorem assignWrite?_entriesFilled (hnest : Nest leaf (.dict none target))
    (h : Free meaning target s) (value : Value) :
    assignWrite? s value (entriesFilled meaning target) = none := by
  induction s generalizing target with
  | nil => rfl
  | cons segment s ih =>
    cases s with
    | nil => rfl
    | cons next s =>
      obtain ⟨hmark, hnested⟩ := nested_filled (h.head (List.cons_ne_nil next s))
      obtain ⟨hunmarked, hbelow⟩ := hnest.of_get? segment
      rw [assignWrite?, Value.get?_entriesFilled, hmark, hnested, hunmarked, ih hbelow h.tail]
      rfl

end Path

/-! ## Maps that are spared -/

namespace Props

/-- What is found at a row is spared by slots with these names: none is set below the row, at least
until one displaces it. -/
def Spared (q : List String) : List String → Prop
  | [] => True
  | name :: names => keys name <+: q ∨ (¬ q <+: keys name ∧ Spared q names)

instance decidableSpared (q : List String) : (names : List String) → Decidable (Spared q names)
  | [] => isTrue trivial
  | _ :: names =>
    have := decidableSpared q names
    inferInstanceAs (Decidable (_ ∨ (¬ _ ∧ _)))

/-- No slot is set inside of a map that is the value of an earlier slot. -/
def MapsSpared : List (String × Value) → Prop
  | [] => True
  | slot :: slots =>
    (slot.2.isMap = true → Spared (keys slot.1) (slots.map Prod.fst)) ∧ MapsSpared slots

instance decidableMapsSpared : (slots : List (String × Value)) → Decidable (MapsSpared slots)
  | [] => isTrue trivial
  | _ :: slots =>
    have := decidableMapsSpared slots
    inferInstanceAs (Decidable ((_ → _) ∧ _))

variable {meaning : Component → Value} {leaf : Value → Prop} {target : Entries}
variable {name : String} {names : List String} {q : List String}

/-- Tokens that stand for maps are found only where they are spared by the slots to come. -/
def Guarded (meaning : Component → Value) (target : Entries) (names : List String) : Prop :=
  ∀ q c, lookup (.dict none target) q = some (.component c) → (meaning c).isMap = true →
    Spared q names

/-- The way to the next slot is free. -/
theorem Guarded.free (h : Guarded meaning target (name :: names)) :
    Free meaning target (keys name) := by
  intro q r c hsplit hr hlookup
  by_contra hmap
  rw [Bool.not_eq_false] at hmap
  have hprefix : q <+: keys name := hsplit ▸ List.prefix_append q r
  rcases h q c hlookup hmap with hback | ⟨hnot, -⟩
  · -- then the row ends where the token is, and not below
    have hlength := hback.length_le
    rw [hsplit, List.length_append] at hlength
    exact hr (List.length_eq_zero_iff.mp (by omega))
  · exact hnot hprefix

/-- **Setting a slot keeps tokens guarded**, if what it holds is spared. -/
theorem Guarded.assign (h : Guarded meaning target (name :: names)) {token : Component}
    (htoken : (meaning token).isMap = true → Spared (keys name) names) :
    Guarded meaning (Path.assign (keys name) (.component token) target) names := by
  intro q c hlookup hmap
  by_cases hbelow : keys name <+: q
  · obtain ⟨r, rfl⟩ := hbelow
    rw [lookup_assign_append (keys_ne_nil name)] at hlookup
    cases r with
    | nil =>
      cases hlookup
      rw [List.append_nil]
      exact htoken hmap
    | cons segment r => cases hlookup
  · by_cases habove : q <+: keys name
    · obtain ⟨r, hr⟩ := habove
      have hne : r ≠ [] := by
        rintro rfl
        exact hbelow ⟨[], by rw [← hr, List.append_nil, List.append_nil]⟩
      rw [← hr, lookup_assign_prefix hne] at hlookup
      cases hlookup
    · rw [lookup_assign_of_apart (not_or.mpr ⟨hbelow, habove⟩)] at hlookup
      rcases h q c hlookup hmap with hdisplaced | ⟨-, hspared⟩
      · exact absurd hdisplaced hbelow
      · exact hspared

/-- Slots with the given names that hold tokens. -/
def tokens (token : String → Component) (names : List String) : List (String × Value) :=
  names.map fun name => (name, .component (token name))

/-- **Slots can be set as tokens and filled in afterwards**, and nothing is written. -/
theorem setSlots_filled {token : String → Component} {slots : List (String × Value)}
    (hmeaning : ∀ slot ∈ slots, meaning (token slot.1) = slot.2) (hspared : MapsSpared slots)
    (hguarded : Guarded meaning target (slots.map Prod.fst)) (hnest : Nest leaf (.dict none target))
    (hleaf : ∀ c, leaf (.component c)) :
    assignAll (rowsOf slots) (entriesFilled meaning target) =
        entriesFilled meaning (assignAll (rowsOf (tokens token (slots.map Prod.fst))) target) ∧
      slotWrites .byPath (entriesFilled meaning target) (named slots) = [] := by
  -- the props so far are those that the tokens made, filled in, and the tokens in them are guarded
  induction slots generalizing target with
  | nil => exact ⟨rfl, rfl⟩
  | cons slot slots ih =>
    obtain ⟨name, value⟩ := slot
    obtain ⟨hvalue, hrest⟩ := hspared
    obtain rfl : meaning (token name) = value := hmeaning (name, value) List.mem_cons_self
    have hassign : assign (keys name) (meaning (token name)) (entriesFilled meaning target) =
        entriesFilled meaning (assign (keys name) (.component (token name)) target) :=
      assign_entriesFilled hguarded.free (.component (token name))
    have hwrite : Path.write? name (meaning (token name)) (entriesFilled meaning target) = none := by
      rw [write?_eq]
      exact assignWrite?_entriesFilled hnest hguarded.free _
    have hset : Nest leaf (.dict none (assign (keys name) (.component (token name)) target)) :=
      hnest.assign _ (.leaf (by simp) (hleaf _))
    obtain ⟨hprops, hwrites⟩ := ih (fun slot hslot => hmeaning slot (List.mem_cons_of_mem _ hslot))
      hrest (hguarded.assign hvalue) hset
    constructor
    · show assignAll (rowsOf slots) (assign (keys name) (meaning (token name)) _) = _
      rw [hassign, hprops]
      rfl
    · rw [slotWrites_cons hwrite, set_eq_assign, hassign, hwrites]

end Props

/-! ## The strategy -/

section Strategy

variable {ν : Type}

/-- **What slots hold is opaque to the standard strategy.** Make the props of a component with a token
in place of the value of each slot, and fill in what the tokens stand for: this gives the props that
the slots themselves give, and making those writes to no shared map. It is assumed that no slot is
set inside of a map that is the value of an earlier slot. -/
theorem tokens_stand_for_slots (names : PropNames) (context : PropsContext ν)
    (hcomponent : context.component.truthy = true) {attributes slots : List (String × Value)}
    (hattributes : Texts attributes) (hspared : Props.MapsSpared slots)
    (token : String → Component) (meaning : Component → Value)
    (hmeaning : ∀ slot ∈ slots, meaning (token slot.1) = slot.2) :
    ((standardStrategy {} names).make attributes
        (named (Props.tokens token (slots.map Prod.fst))) context).map (filled meaning) =
      (standardStrategy {} names).make attributes (named slots) context ∧
    (standardStrategy {} names).writes attributes (named slots) context = [] := by
  have hdata := Props.isData_ofAttributes hattributes names
  have hfilled : entriesFilled meaning (Props.ofAttributes {} names attributes) =
      Props.ofAttributes {} names attributes := by
    have hdict : filled meaning (.dict none _) = _ := hdata.filled
    rw [filled] at hdict
    exact (Value.dict.inj hdict).2
  have hguarded : Props.Guarded meaning (Props.ofAttributes {} names attributes)
      (slots.map Prod.fst) := by
    -- attributes are decoded to data, in which there is no token yet
    intro q c hlookup
    cases hdata.lookup hlookup
  obtain ⟨hprops, hwrites⟩ := Props.setSlots_filled hmeaning hspared hguarded
    (hdata.nest.mono fun _ _ => trivial) fun _ => trivial
  rw [hfilled] at hprops hwrites
  constructor
  · rw [standardStrategy_make_component hcomponent, standardStrategy_make_component hcomponent,
      hprops]
    show Except.ok (filled meaning _) = _
    rw [filled]
  · rw [standardStrategy_writes_component hcomponent]
    exact hwrites

/-- Slots of which the second displaces the map of the first, and the third leads to a map again. -/
def shiftingSlots : List (String × Value) :=
  [("a.b", .dict (some 0) [(.str "x", .int 1)]), ("a", .str "text"),
    ("a.b.c", .dict (some 1) [(.str "y", .int 2)]), ("dataKey.z", .list [.null])]

/-- A token for each slot, shown as the name of the slot. -/
def nameToken (name : String) : Component := ⟨0, name, none, false⟩

/-- The context of an element that a component is registered for. -/
def cardContext : PropsContext Unit := ⟨"x-card", .component ⟨0, "Card", none, false⟩, ()⟩

theorem tokens_stand_for_shiftingSlots :
    Texts [("data-key", .str "\x7b\"k\": 1\x7d")] ∧ Props.MapsSpared shiftingSlots ∧
      ((standardStrategy {} ⟨[], []⟩).make [("data-key", .str "\x7b\"k\": 1\x7d")]
        (named (Props.tokens nameToken ["a.b", "a", "a.b.c", "dataKey.z"])) cardContext).map
          (filled fun c => (Assoc.get? c.text shiftingSlots).getD .null) =
        (standardStrategy {} ⟨[], []⟩).make [("data-key", .str "\x7b\"k\": 1\x7d")]
          (named shiftingSlots) cardContext := by
  have hattributes : Texts [("data-key", .str "\x7b\"k\": 1\x7d")] :=
    fun pair hpair => ⟨some "\x7b\"k\": 1\x7d", by rw [List.mem_singleton.mp hpair]; rfl⟩
  have hspared : Props.MapsSpared shiftingSlots := by decide
  have hmeaning : ∀ slot ∈ shiftingSlots,
      (Assoc.get? (nameToken slot.1).text shiftingSlots).getD .null = slot.2 := by
    intro slot hslot
    rw [nameToken, Assoc.get?_of_mem (by decide) hslot]
    rfl
  exact ⟨hattributes, hspared,
    (tokens_stand_for_slots ⟨[], []⟩ cardContext rfl hattributes hspared nameToken _ hmeaning).1⟩

/-- Slots of which the second leads into the map of the first. -/
def nestedSlots : List (String × Value) :=
  [("a", .dict (some 0) [(.str "x", .int 1)]), ("a.b", .int 2)]

/-- **A map in a slot is not opaque.** The second slot is set in the map of the first, which changes
that map, whereas it takes the place of a token. -/
theorem nestedSlots_unlike_tokens :
    ∃ props filledProps,
      (standardStrategy {} ⟨[], []⟩).make [] (named nestedSlots) cardContext = .ok props ∧
      ((standardStrategy {} ⟨[], []⟩).make [] (named (Props.tokens nameToken ["a", "a.b"]))
        cardContext).map (filled fun c => (Assoc.get? c.text nestedSlots).getD .null) =
          .ok filledProps ∧
      lookup props ["a", "x"] = some (.int 1) ∧ lookup filledProps ["a", "x"] = none ∧
      (standardStrategy {} ⟨[], []⟩).writes [] (named nestedSlots) cardContext =
        [⟨0, [(.str "x", .int 1), (.str "b", .int 2)]⟩] :=
  ⟨_, _, rfl, rfl, rfl, rfl, rfl⟩

end Strategy

end ComponentTree
