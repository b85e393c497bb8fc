import ComponentTree.Proofs.Path.Update
import ComponentTree.Proofs.Props.Standard
import Mathlib.Data.List.Nodup

/-!
# Where props come from

The standard strategy names every attribute and keeps, under each name, the value of the last attribute
that has it, in the place of the first. For a component the values are decoded, and slots are set after
that. A slot changes the props under one key only, the first segment of its path, so a prop under any
other key is what an attribute made of it (`props_by_name`).

That holds of the props as they are in the end, also if slots hold shared maps and writing to one is
seen in another: what is decoded from a text holds no shared map (`Value.IsData.after`).
-/

namespace ComponentTree

open ComponentTree.Path
open Value (named)

/-! ## Writes -/

namespace Value

variable {v : Value}

/-- **No write changes data**, since no map in it is shared. -/
theorem IsData.after (h : v.IsData) (w : Write) : v.after w = v := by
  induction h with
  | list _ ih =>
    rw [Value.after, itemsAfter_eq_map, List.map_congr_left ih, List.map_id']
  | @map pairs _ _ ih =>
    have hpairs : entriesAfter w (keyed pairs) = keyed pairs := by
      rw [entriesAfter_eq_mapValues, Assoc.mapValues, List.map_map]
      exact List.map_congr_left fun pair hpair => congrArg (ofPoints pair.1, ·) (ih pair hpair)
    rw [Value.after, hpairs, if_neg (by simp)]
  | _ => rfl

theorem IsData.afterAll (h : v.IsData) (writes : List Write) : v.afterAll writes = v := by
  induction writes with
  | nil => rfl
  | cons w writes ih =>
    show Value.afterAll writes (v.after w) = v
    rw [h.after, ih]

end Value

namespace Props

variable {naming : String → String} {attributes : List (String × String)} {name : String}

/-! ## Attributes by name -/

/-- What a table has for an attribute. A missing or empty entry stands for the name given beside it. -/
def nameIn (table : List (String × String)) (attr otherwise : String) : String :=
  match Assoc.get? attr table with
  | none => otherwise
  | some name => if name = "" then otherwise else name

theorem getD_tableName? (table : List (String × String)) (attr otherwise : String) :
    (tableName? table attr).getD otherwise = nameIn table attr otherwise := by
  rw [tableName?, nameIn]
  cases Assoc.get? attr table with
  | none => rfl
  | some name => by_cases hempty : name = "" <;> simp [Option.filter, hempty]

theorem componentName_eq_nameIn (names : PropNames) :
    componentName {} names = fun attr => nameIn names.component attr (camelCase attr) := by
  funext attr
  exact getD_tableName? ..

theorem elementName_eq_nameIn (names : PropNames) :
    elementName names = fun attr => nameIn names.element attr attr := by
  funext attr
  exact getD_tableName? ..

/-- Attributes as values. -/
def texts (attributes : List (String × String)) : List (String × Value) :=
  attributes.map fun (attr, text) => (attr, .str text)

/-- The text of the last attribute with a name, if one has it. -/
def lastNamed (naming : String → String) (attributes : List (String × String)) (name : String) :
    Option String :=
  (attributes.reverse.find? fun entry => naming entry.1 == name).map Prod.snd

theorem isSome_lastNamed :
    (lastNamed naming attributes name).isSome = true ↔
      ∃ entry ∈ attributes, naming entry.1 = name := by
  rw [lastNamed, Option.isSome_map, List.find?_isSome]
  simp only [List.mem_reverse, beq_iff_eq]

theorem get?_map {β : Type} (make : String → β) (attributes : List (String × String)) :
    Assoc.get? name (attributes.map fun entry => (naming entry.1, make entry.2)) =
      (attributes.find? fun entry => naming entry.1 == name).map (make ·.2) := by
  induction attributes with
  | nil => rfl
  | cons entry attributes ih =>
    rw [List.map_cons, Assoc.get?, List.find?_cons, ih]
    cases naming entry.1 == name <;> rfl

theorem mapKeys_texts (naming : String → String) (attributes : List (String × String)) :
    Assoc.mapKeys (fun _ name => naming name) (texts attributes) =
      Assoc.ofPairs (attributes.map fun entry => (naming entry.1, .str entry.2)) := by
  rw [Assoc.mapKeys, texts, List.map_map]
  rfl

/-- **Of the attributes with a name the last one gives the value.** -/
theorem get?_mapKeys_texts (naming : String → String) (attributes : List (String × String))
    (name : String) :
    Assoc.get? name (Assoc.mapKeys (fun _ name => naming name) (texts attributes)) =
      (lastNamed naming attributes name).map .str := by
  rw [mapKeys_texts, Assoc.get?_ofPairs, ← List.map_reverse, get?_map Value.str, lastNamed,
    Option.map_map]
  rfl

/-- Names stand in the order in which they first arise. -/
theorem keys_mapKeys_texts (naming : String → String) (attributes : List (String × String)) :
    (Assoc.mapKeys (fun _ name => naming name) (texts attributes)).map Prod.fst =
      (attributes.map fun entry => naming entry.1).eraseDups := by
  rw [mapKeys_texts, Assoc.keys_ofPairs, List.map_map]
  rfl

theorem nodup_names (naming : String → String) (attributes : List (String × String)) :
    (attributes.map fun entry => naming entry.1).eraseDups.Nodup := by
  rw [← keys_mapKeys_texts]
  exact Assoc.nodup_keys_ofPairs _

theorem keys_named (pairs : List (String × Value)) :
    (named pairs).map Prod.fst = (pairs.map Prod.fst).map .str := by
  rw [named, List.map_map, List.map_map]
  rfl

theorem keys_ofAttributes (names : PropNames) (attributes : List (String × String)) :
    (ofAttributes {} names (texts attributes)).map Prod.fst =
      ((attributes.map fun entry => componentName {} names entry.1).eraseDups).map .str := by
  have hkeys := keys_mapKeys_texts (componentName {} names) attributes
  rw [← Assoc.keys_mapValues Value.decoded] at hkeys
  rw [← hkeys]
  exact keys_named _

theorem get?_ofAttributes (names : PropNames) (attributes : List (String × String)) (name : String) :
    Assoc.get? (.str name) (ofAttributes {} names (texts attributes)) =
      (lastNamed (componentName {} names) attributes name).map fun text =>
        Value.decoded (.str text) := by
  have hvalue := Assoc.get?_mapValues Value.decoded name
    (Assoc.mapKeys (fun _ name => componentName {} names name) (texts attributes))
  rw [get?_mapKeys_texts, Option.map_map] at hvalue
  exact (Value.get?_named name _).trans hvalue

/-! ## What slots change -/

/-- A slot leads to a key: the first segment of its name, or the name itself if that has no segment. -/
def LeadsTo (slot key : String) : Prop :=
  (segments slot).head? = some key ∨ (segments slot = [] ∧ slot = key)

instance (slot key : String) : Decidable (LeadsTo slot key) := inferInstanceAs (Decidable (_ ∨ _))

theorem leadsTo_iff {slot key : String} : LeadsTo slot key ↔ (keys slot).head? = some key := by
  by_cases h : segments slot = []
  · simp [LeadsTo, h, keys_of_eq_nil]
  · simp [LeadsTo, h, keys_of_ne_nil]

variable {slots : List (String × Value)} {props : Entries}

theorem isSome_get?_str {name : String} :
    (Assoc.get? (.str name) props).isSome = true ↔ .str name ∈ props.map Prod.fst := by
  induction props with
  | nil => simp [Assoc.get?]
  | cons entry props ih =>
    rw [Assoc.get?, List.map_cons, List.mem_cons, ← ih]
    by_cases hkey : entry.1 = .str name
    · simp [hkey, Value.beq_str_iff.mpr rfl]
    · have hne : ¬ (entry.1 == Value.str name) = true := fun heq => hkey (Value.beq_str_iff.mp heq)
      simp [hne, Ne.symm hkey]

/-- One slot changes the value of one key, which comes last if it is new. -/
theorem exists_keys_assign (slot : String × Value) (props : Entries) :
    ∃ key, LeadsTo slot.1 key ∧
      (assign (keys slot.1) slot.2 props).map Prod.fst = keysWith key props ∧
      ∀ name, name ≠ key → Assoc.get? (.str name) (assign (keys slot.1) slot.2 props) =
        Assoc.get? (.str name) props := by
  obtain ⟨key, rest, hkeys⟩ := List.exists_cons_of_ne_nil (keys_ne_nil slot.1)
  refine ⟨key, leadsTo_iff.mpr (by rw [hkeys, List.head?_cons]), ?_, fun name hname => ?_⟩
  · rw [hkeys, keys_assign]
  · rw [hkeys, get?_assign_of_ne hname.symm]

theorem get?_assignAll_rowsOf (h : ∀ slot ∈ slots, ¬ LeadsTo slot.1 name) (props : Entries) :
    Assoc.get? (.str name) (assignAll (rowsOf slots) props) = Assoc.get? (.str name) props := by
  induction slots generalizing props with
  | nil => rfl
  | cons slot slots ih =>
    obtain ⟨key, hleads, -, hother⟩ := exists_keys_assign slot props
    have hname : name ≠ key := by
      rintro rfl
      exact h slot List.mem_cons_self hleads
    show Assoc.get? (.str name) (assignAll (rowsOf slots) (assign (keys slot.1) slot.2 props)) = _
    rw [ih (fun slot hslot => h slot (List.mem_cons_of_mem _ hslot)), hother name hname]

/-- Setting slots leaves the keys where they are and adds new ones behind, to which slots lead. -/
theorem exists_keys_assignAll (slots : List (String × Value)) {names : List String}
    (hkeys : props.map Prod.fst = names.map .str) (hnodup : names.Nodup) :
    ∃ later, (assignAll (rowsOf slots) props).map Prod.fst = (names ++ later).map .str ∧
      (names ++ later).Nodup ∧ ∀ name ∈ later, ∃ slot ∈ slots, LeadsTo slot.1 name := by
  induction slots generalizing props names with
  | nil =>
    refine ⟨[], ?_, ?_, by simp⟩
    · rw [List.append_nil]
      exact hkeys
    · rwa [List.append_nil]
  | cons slot slots ih =>
    obtain ⟨key, hleads, hset, -⟩ := exists_keys_assign slot props
    rw [keysWith, hkeys] at hset
    split at hset
    · obtain ⟨later, hlater, hdistinct, hnew⟩ := ih hset hnodup
      refine ⟨later, hlater, hdistinct, fun name hname => ?_⟩
      obtain ⟨slot', hslot', hleads'⟩ := hnew name hname
      exact ⟨slot', List.mem_cons_of_mem _ hslot', hleads'⟩
    · next hfresh =>
      have hkey : key ∉ names := by
        intro hmem
        apply hfresh
        rw [isSome_get?_str, hkeys]
        exact List.mem_map_of_mem hmem
      have hset' : (assign (keys slot.1) slot.2 props).map Prod.fst = (names ++ [key]).map .str := by
        rw [hset, List.map_append]
        rfl
      have hnodup' : (names ++ [key]).Nodup := by
        rw [← List.concat_eq_append]
        exact List.Nodup.concat hkey hnodup
      obtain ⟨later, hlater, hdistinct, hnew⟩ := ih hset' hnodup'
      rw [List.append_assoc] at hlater hdistinct
      refine ⟨key :: later, hlater, hdistinct, fun name hname => ?_⟩
      rcases List.mem_cons.mp hname with rfl | hname
      · exact ⟨slot, List.mem_cons_self, hleads⟩
      · obtain ⟨slot', hslot', hleads'⟩ := hnew name hname
        exact ⟨slot', List.mem_cons_of_mem _ hslot', hleads'⟩

end Props

/-! ## The props as they are in the end -/

open Props

variable {ν : Type} {names : PropNames} {context : PropsContext ν}

/-- **Props come from attributes, and slots change only what they lead to.**

The strategy always makes props. Those of a component have the names of the attributes as keys, in the
order in which the names first arise, and behind them keys to which slots lead. The name of an attribute
is the non-empty one that the table for components has for it, or else its own in camelCase. A key to
which no slot leads is there if an attribute has that name, and its value is what the text of the last
such attribute is decoded to. The props of a plain element are the texts of its attributes, each under
the non-empty name that the table for elements has for it, or else its own, whatever the slots are. -/
theorem props_by_name (names : PropNames) (context : PropsContext ν)
    (attributes : List (String × String)) (slots : List (String × Value)) :
    let name := fun attr => nameIn names.component attr (camelCase attr)
    let plainName := fun attr => nameIn names.element attr attr
    ∃ props,
      (standardStrategy {} names).make (texts attributes) (named slots) context =
        .ok (.dict none props) ∧
      let seen := Value.entriesAfterAll
        ((standardStrategy {} names).writes (texts attributes) (named slots) context) props
      (context.component.truthy = true →
        (∃ later,
          seen.map Prod.fst =
            ((attributes.map fun entry => name entry.1).eraseDups ++ later).map .str ∧
          ((attributes.map fun entry => name entry.1).eraseDups ++ later).Nodup ∧
          ∀ key ∈ later, ∃ slot ∈ slots, LeadsTo slot.1 key) ∧
        ∀ key, (∀ slot ∈ slots, ¬ LeadsTo slot.1 key) →
          (.str key ∈ seen.map Prod.fst ↔ ∃ entry ∈ attributes, name entry.1 = key) ∧
          Assoc.get? (.str key) seen =
            (lastNamed name attributes key).map fun text => Value.decoded (.str text)) ∧
      (context.component.truthy = false →
        seen.map Prod.fst =
          ((attributes.map fun entry => plainName entry.1).eraseDups).map .str ∧
        ∀ key, Assoc.get? (.str key) seen = (lastNamed plainName attributes key).map .str) := by
  intro name plainName
  have hname : componentName {} names = name := componentName_eq_nameIn names
  have hplain : elementName names = plainName := elementName_eq_nameIn names
  cases h : context.component.truthy with
  | true =>
    refine ⟨_, standardStrategy_make_component h, fun _ => ⟨?_, fun key hkey => ?_⟩,
      fun hfalse => (by cases hfalse)⟩
    · rw [Value.keys_entriesAfterAll, ← hname]
      exact exists_keys_assignAll slots (keys_ofAttributes names attributes)
        (nodup_names (componentName {} names) attributes)
    · have hvalue : Assoc.get? (.str key) (Value.entriesAfterAll
          ((standardStrategy {} names).writes (texts attributes) (named slots) context)
          (assignAll (rowsOf slots) (ofAttributes {} names (texts attributes)))) =
          (lastNamed name attributes key).map fun text => Value.decoded (.str text) := by
        rw [Value.get?_entriesAfterAll, get?_assignAll_rowsOf hkey, get?_ofAttributes,
          Option.map_map, hname]
        congr 1
        funext text
        exact (isData_decoded_ofString? (some text)).afterAll _
      refine ⟨?_, hvalue⟩
      rw [← isSome_get?_str, hvalue, Option.isSome_map, isSome_lastNamed]
  | false =>
    refine ⟨_, standardStrategy_make_element h _, ⟨fun htrue => (by cases htrue), fun _ => ?_⟩⟩
    rw [standardStrategy_writes_element h]
    refine ⟨?_, fun key => ?_⟩
    · show (named _).map Prod.fst = _
      rw [keys_named, ← hplain]
      exact congrArg _ (keys_mapKeys_texts (elementName names) attributes)
    · rw [← hplain]
      exact (Value.get?_named key _).trans (get?_mapKeys_texts ..)

/-- Attributes of which two get the name of a prop, and one gets a name that is a path. -/
def collidingAttributes : List (String × String) :=
  [("data-key", "1"), ("x", "true"), ("data_key", "\x7b\"k\": [null]\x7d"), ("y", "")]

/-- Slots that lead past the props under `collidingNames`, though one has the name of such a prop. -/
def passingSlots : List (String × Value) := [("z.q", .int 1), (".", .dict (some 0) []), ("y", .null)]

/-- Names of which the one for `y` is empty. On a plain element `x` gets the name of another
attribute. -/
def collidingNames : PropNames := ⟨[("x", "data-key"), ("y", "")], [("x", "z.q"), ("y", "")]⟩

theorem props_by_name_collidingAttributes :
    (∀ slot ∈ passingSlots, ¬ LeadsTo slot.1 "dataKey") ∧
      (∀ slot ∈ passingSlots, ¬ LeadsTo slot.1 "z.q") ∧
      (∃ props, (standardStrategy {} collidingNames).make (texts collidingAttributes)
          (named passingSlots) (⟨"x-card", .bool true, ()⟩ : PropsContext Unit) =
            .ok (.dict none props) ∧
        let seen := Value.entriesAfterAll ((standardStrategy {} collidingNames).writes
          (texts collidingAttributes) (named passingSlots) ⟨"x-card", .bool true, ()⟩) props
        Assoc.get? (.str "dataKey") seen = some (.dict none [(.str "k", .list [.null])]) ∧
          Assoc.get? (.str "z.q") seen = some (.bool true)) ∧
      ∃ props, (standardStrategy {} collidingNames).make (texts collidingAttributes)
          (named passingSlots) (⟨"b", .null, ()⟩ : PropsContext Unit) = .ok (.dict none props) ∧
        let seen := Value.entriesAfterAll ((standardStrategy {} collidingNames).writes
          (texts collidingAttributes) (named passingSlots) ⟨"b", .null, ()⟩) props
        seen.map Prod.fst = [.str "data-key", .str "data_key", .str "y"] ∧
          Assoc.get? (.str "data-key") seen = some (.str "true") := by
  have hkey : ∀ slot ∈ passingSlots, ¬ LeadsTo slot.1 "dataKey" := by decide
  have hpath : ∀ slot ∈ passingSlots, ¬ LeadsTo slot.1 "z.q" := by decide
  have hmap : Value.decoded (.str "\x7b\"k\": [null]\x7d") =
      .dict none [(.str "k", .list [.null])] := by with_unfolding_all rfl
  have htrue : Value.decoded (.str "true") = .bool true := by with_unfolding_all rfl
  have hlast : lastNamed (fun attr => nameIn collidingNames.component attr (camelCase attr))
      collidingAttributes "dataKey" = some "\x7b\"k\": [null]\x7d" := by with_unfolding_all rfl
  have hlast' : lastNamed (fun attr => nameIn collidingNames.component attr (camelCase attr))
      collidingAttributes "z.q" = some "true" := by with_unfolding_all rfl
  refine ⟨hkey, hpath, ?_, ?_⟩
  · obtain ⟨props, hprops, hcomponent, -⟩ := props_by_name collidingNames
      (⟨"x-card", .bool true, ()⟩ : PropsContext Unit) collidingAttributes passingSlots
    obtain ⟨-, hvalues⟩ := hcomponent rfl
    refine ⟨props, hprops, (hvalues "dataKey" hkey).2.trans ?_, (hvalues "z.q" hpath).2.trans ?_⟩
    · exact (congrArg (Option.map _) hlast).trans (congrArg some hmap)
    · exact (congrArg (Option.map _) hlast').trans (congrArg some htrue)
  · obtain ⟨props, hprops, -, helement⟩ := props_by_name collidingNames
      (⟨"b", .null, ()⟩ : PropsContext Unit) collidingAttributes passingSlots
    obtain ⟨hkeys, hvalues⟩ := helement rfl
    have hnames : (collidingAttributes.map fun entry =>
        nameIn collidingNames.element entry.1 entry.1).eraseDups =
          ["data-key", "data_key", "y"] := by decide
    have hlast : lastNamed (fun attr => nameIn collidingNames.element attr attr)
        collidingAttributes "data-key" = some "true" := by decide
    exact ⟨props, hprops, hkeys.trans (congrArg (List.map Value.str) hnames),
      (hvalues "data-key").trans (congrArg (Option.map Value.str) hlast)⟩

end ComponentTree
