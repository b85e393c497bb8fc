import ComponentTree.Proofs.Props.Standard
import ComponentTree.Proofs.Text.Words
import Mathlib.Data.List.Nodup

/-!
# Names that stay apart

The attributes of a component are named in camel case, and of two that get the same name one is lost.
Nothing is lost as long as camel case tells the names apart (`make_of_camelCase_inj`). It does so for
names in kebab case, since their words can be read back (`kebab_names_never_collide`).

Names of one word in lower case are meant to stay as they are. They do unless they begin with a stray
character (`lower_words_kept_iff`); of those that do, one may become another one.
-/

namespace ComponentTree

open Text (isAlphanumeric isStray)
open Value (named)

/-! ## Attributes under different names -/

namespace Props

variable {attributes : List (String × Value)}

theorem mapKeys_of_nodup {naming : String → String}
    (h : (attributes.map fun entry => naming entry.1).Nodup) :
    Assoc.mapKeys (fun _ name => naming name) attributes =
      attributes.map fun entry => (naming entry.1, entry.2) := by
  rw [Assoc.mapKeys]
  apply Assoc.ofPairs_of_nodup
  rw [List.map_map]
  exact h

/-- **Attributes with different names all become props.** -/
theorem ofAttributes_of_nodup {names : PropNames}
    (h : (attributes.map fun entry => componentName {} names entry.1).Nodup) :
    ofAttributes {} names attributes =
      named (attributes.map fun entry => (componentName {} names entry.1, entry.2.decoded)) := by
  show named (Assoc.mapValues (fun value _ => value.decoded)
    (Assoc.mapKeys (fun _ name => componentName {} names name) attributes)) = _
  rw [mapKeys_of_nodup h, Assoc.mapValues, List.map_map]
  rfl

variable {ν : Type} {names : PropNames} {context : PropsContext ν}

/-- If camel case tells the names apart, every attribute that the table does not rename is a prop. -/
theorem make_of_camelCase_inj (hcomponent : context.component.truthy = true)
    (hkeys : (attributes.map Prod.fst).Nodup)
    (htable : ∀ entry ∈ attributes, tableName? names.component entry.1 = none)
    (hinj : ∀ a ∈ attributes, ∀ b ∈ attributes, camelCase a.1 = camelCase b.1 → a.1 = b.1) :
    (attributes.map fun entry => camelCase entry.1).Nodup ∧
      (standardStrategy {} names).make attributes [] context = .ok (.dict none
        (named (attributes.map fun entry => (camelCase entry.1, entry.2.decoded)))) := by
  have hname : ∀ entry ∈ attributes, componentName {} names entry.1 = camelCase entry.1 := by
    intro entry hentry
    rw [componentName, htable entry hentry]
    rfl
  have hnodup : (attributes.map fun entry => camelCase entry.1).Nodup := by
    have hmapped : ((attributes.map Prod.fst).map camelCase).Nodup := by
      apply List.Nodup.map_on _ hkeys
      intro x hx y hy heq
      obtain ⟨a, ha, rfl⟩ := List.mem_map.mp hx
      obtain ⟨b, hb, rfl⟩ := List.mem_map.mp hy
      exact hinj a ha b hb heq
    rwa [List.map_map] at hmapped
  have hprops : ofAttributes {} names attributes =
      named (attributes.map fun entry => (camelCase entry.1, entry.2.decoded)) := by
    rw [ofAttributes_of_nodup]
    · exact congrArg named (List.map_congr_left fun entry hentry => by rw [hname entry hentry])
    · rwa [List.map_congr_left hname]
  -- without slots the props are as the attributes make them
  have hmake : (standardStrategy {} names).make attributes (named []) context =
      .ok (.dict none (ofAttributes {} names attributes)) := standardStrategy_make_component hcomponent
  exact ⟨hnodup, hmake.trans (by rw [hprops])⟩

end Props

/-! ## Kebab case -/

/-- Words of which a name in kebab case is made: of lower case letters and digits of ASCII, and all but
the first begin with a letter. -/
abbrev KebabWords (ws : List String) : Prop := Text.Kebab (ws.map String.toList)

/-- What stands between the words of a name. -/
def wordSeparators : List String := ["-", "_"]

section Kebab

variable {ws ws' : List String} {sep sep' : String}

theorem exists_of_mem_wordSeparators (h : sep ∈ wordSeparators) :
    ∃ c, sep.toList = [c] ∧ isAlphanumeric c = false := by
  rcases List.mem_cons.mp h with rfl | h
  · exact ⟨'-', rfl, by decide⟩
  · rw [List.mem_singleton.mp h]
    exact ⟨'_', rfl, by decide⟩

theorem humps_camelCase (h : KebabWords ws) (hsep : sep ∈ wordSeparators) :
    Text.humps (camelCase (sep.intercalate ws)).toList = ws.map String.toList := by
  obtain ⟨c, hc, hseparates⟩ := exists_of_mem_wordSeparators hsep
  rw [camelCase, String.toList_ofList, String.toList_intercalate, hc]
  exact h.humps_camel hseparates

theorem eq_of_camelCase_eq (h : KebabWords ws) (h' : KebabWords ws') (hsep : sep ∈ wordSeparators)
    (hsep' : sep' ∈ wordSeparators)
    (heq : camelCase (sep.intercalate ws) = camelCase (sep'.intercalate ws')) : ws = ws' := by
  have hwords : ws.map String.toList = ws'.map String.toList := by
    rw [← humps_camelCase h hsep, heq, humps_camelCase h' hsep']
  exact List.map_injective_iff.mpr (fun _ _ => String.toList_inj.mp) hwords

end Kebab

/-- **Names in kebab case never collide.**

From the camel case of a name in kebab case its words can be told, whichever separator stood between
them. So a component gets one prop for every attribute with such a name that the table does not rename:
under its camel case, with the value that it is decoded to. -/
theorem kebab_names_never_collide {ν : Type} (names : PropNames) (context : PropsContext ν)
    (attributes : List (String × Value)) :
    (∀ sep ∈ wordSeparators, ∀ sep' ∈ wordSeparators, ∀ ws ws', KebabWords ws →
      KebabWords ws' → camelCase (sep.intercalate ws) = camelCase (sep'.intercalate ws') → ws = ws') ∧
    (context.component.truthy = true → (attributes.map Prod.fst).Nodup →
      (∀ entry ∈ attributes, (∃ ws, KebabWords ws ∧ entry.1 = "-".intercalate ws) ∧
        Props.tableName? names.component entry.1 = none) →
      (attributes.map fun entry => camelCase entry.1).Nodup ∧
        (standardStrategy {} names).make attributes [] context = .ok (.dict none
          (named (attributes.map fun entry => (camelCase entry.1, entry.2.decoded))))) := by
  refine ⟨fun sep hsep sep' hsep' ws ws' h h' => eq_of_camelCase_eq h h' hsep hsep',
    fun hcomponent hkeys hattributes => ?_⟩
  apply Props.make_of_camelCase_inj hcomponent hkeys fun entry hentry => (hattributes entry hentry).2
  intro a ha b hb heq
  obtain ⟨ws, hws, hname⟩ := (hattributes a ha).1
  obtain ⟨ws', hws', hname'⟩ := (hattributes b hb).1
  have hdash : "-" ∈ wordSeparators := List.mem_cons_self
  rw [hname, hname'] at heq ⊢
  rw [eq_of_camelCase_eq hws hws' hdash hdash heq]

/-- Attributes whose names have the same letters and digits in the same order. -/
def kebabAttributes : List (String × Value) :=
  [("data-item2", .str "true"), ("dat-aitem2", .null), ("dataitem2", .bool false)]

theorem kebab_names_never_collide_kebabAttributes :
    KebabWords ["data", "item2"] ∧ KebabWords ["dat", "aitem2"] ∧ KebabWords ["dataitem2"] ∧
      camelCase "data-item2" ≠ camelCase "dat_aitem2" ∧
      (standardStrategy {} ⟨[], []⟩).make kebabAttributes []
        (⟨"x-card", .bool true, ()⟩ : PropsContext Unit) = .ok (.dict none
          [(.str "dataItem2", .bool true), (.str "datAitem2", .null),
            (.str "dataitem2", .bool false)]) := by
  have hdata : KebabWords ["data", "item2"] := by decide
  have hdat : KebabWords ["dat", "aitem2"] := by decide
  have hwhole : KebabWords ["dataitem2"] := by decide
  have hdecoded : Value.decoded (.str "true") = .bool true := by with_unfolding_all rfl
  obtain ⟨hwords, hprops⟩ := kebab_names_never_collide ⟨[], []⟩
    (⟨"x-card", .bool true, ()⟩ : PropsContext Unit) kebabAttributes
  refine ⟨hdata, hdat, hwhole, fun heq => ?_, ?_⟩
  · have hsame := hwords "-" (by decide) "_" (by decide) _ _ hdata hdat heq
    exact absurd hsame (by decide)
  · obtain ⟨-, hmake⟩ := hprops rfl (by decide) (by
      intro entry hentry
      refine ⟨?_, rfl⟩
      rcases List.mem_cons.mp hentry with rfl | hentry
      · exact ⟨_, hdata, rfl⟩
      rcases List.mem_cons.mp hentry with rfl | hentry
      · exact ⟨_, hdat, rfl⟩
      · rw [List.mem_singleton.mp hentry]
        exact ⟨_, hwhole, rfl⟩)
    have hnames : camelCase "data-item2" = "dataItem2" ∧ camelCase "dat-aitem2" = "datAitem2" ∧
        camelCase "dataitem2" = "dataitem2" := by decide
    rw [hmake]
    simp only [kebabAttributes, named, List.map_cons, List.map_nil, hnames, hdecoded]
    rfl

/-! ## Single words -/

/-- A word of letters and digits of any script that is its own lower case. -/
structure LowerWord (s : String) : Prop where
  nonempty : s ≠ ""
  alphanumeric : ∀ c ∈ s.toList, isAlphanumeric c = true
  lower : lowercase s = s

instance (s : String) : Decidable (LowerWord s) :=
  decidable_of_iff (s ≠ "" ∧ s.toList.all isAlphanumeric = true ∧ lowercase s = s)
    ⟨fun ⟨hne, hword, hlower⟩ => ⟨hne, List.all_eq_true.mp hword, hlower⟩,
      fun ⟨hne, hword, hlower⟩ => ⟨hne, List.all_eq_true.mpr hword, hlower⟩⟩

/-- The first character of a word does not come back from title case. -/
def startsStray (s : String) : Bool := s.toList.head?.any isStray

theorem LowerWord.camelCase_eq_self_iff {s : String} (h : LowerWord s) :
    camelCase s = s ↔ startsStray s = false := by
  have hlower : Text.lower s.toList = s.toList := by
    have heq := congrArg String.toList h.lower
    rwa [lowercase, String.toList_ofList] at heq
  -- only the first character can be told from what it was
  obtain ⟨c, rest, hs⟩ : ∃ c rest, s.toList = c :: rest :=
    List.exists_cons_of_ne_nil (by simpa using h.nonempty)
  have hword := h.alphanumeric
  rw [hs] at hword hlower
  rw [← String.toList_inj, camelCase, String.toList_ofList, startsStray, hs,
    Text.camel_eq_self_iff hword hlower]
  simp

/-- **A word in lower case stays as it is exactly if it does not begin with a stray character.**

So a component gets one prop for every attribute with such a name that the table does not rename, under
that name. -/
theorem lower_words_kept_iff {ν : Type} (names : PropNames) (context : PropsContext ν)
    (attributes : List (String × Value)) :
    (∀ s, LowerWord s → (camelCase s = s ↔ startsStray s = false)) ∧
    (context.component.truthy = true → (attributes.map Prod.fst).Nodup →
      (∀ entry ∈ attributes, LowerWord entry.1 ∧ startsStray entry.1 = false ∧
        Props.tableName? names.component entry.1 = none) →
      (standardStrategy {} names).make attributes [] context = .ok (.dict none
        (named (attributes.map fun entry => (entry.1, entry.2.decoded))))) := by
  refine ⟨fun s h => h.camelCase_eq_self_iff, fun hcomponent hkeys hattributes => ?_⟩
  have hkept : ∀ entry ∈ attributes, camelCase entry.1 = entry.1 := by
    intro entry hentry
    obtain ⟨hword, hstray, -⟩ := hattributes entry hentry
    exact hword.camelCase_eq_self_iff.mpr hstray
  obtain ⟨-, hmake⟩ := Props.make_of_camelCase_inj hcomponent hkeys
    (fun entry hentry => (hattributes entry hentry).2.2) fun a ha b hb heq => by
      rwa [hkept a ha, hkept b hb] at heq
  rw [hmake, List.map_congr_left fun entry hentry => by rw [hkept entry hentry]]

/-- Attributes of one word each, in two scripts. -/
def wordAttributes : List (String × Value) := [("größe", .bool true), ("мир", .null)]

theorem lower_words_kept_iff_wordAttributes :
    LowerWord "größe" ∧ startsStray "größe" = false ∧ camelCase "größe" = "größe" ∧
      (standardStrategy {} ⟨[], []⟩).make wordAttributes []
        (⟨"x-card", .bool true, ()⟩ : PropsContext Unit) = .ok (.dict none (named wordAttributes)) := by
  have hsize : LowerWord "größe" := by decide
  have hworld : LowerWord "мир" := by decide
  have hplain : startsStray "größe" = false := by decide
  have hplain' : startsStray "мир" = false := by decide
  obtain ⟨hkept, hprops⟩ := lower_words_kept_iff ⟨[], []⟩
    (⟨"x-card", .bool true, ()⟩ : PropsContext Unit) wordAttributes
  refine ⟨hsize, hplain, (hkept "größe" hsize).mpr hplain, (hprops rfl (by decide) ?_).trans rfl⟩
  intro entry hentry
  rcases List.mem_cons.mp hentry with rfl | hentry
  · exact ⟨hsize, hplain, rfl⟩
  · rw [List.mem_singleton.mp hentry]
    exact ⟨hworld, hplain', rfl⟩

/-- The sharp s becomes two letters, and an attribute of that name is lost to one that has the two letters
for its name. -/
theorem sharpS_not_kept :
    LowerWord "ß" ∧ LowerWord "ss" ∧ camelCase "ß" = "ss" ∧
      (standardStrategy {} ⟨[], []⟩).make [("ß", .bool true), ("ss", .bool false)] []
        (⟨"x-card", .bool true, ()⟩ : PropsContext Unit) =
          .ok (.dict none [(.str "ss", .bool false)]) := by
  refine ⟨by decide, by decide, by decide, ?_⟩
  with_unfolding_all rfl

end ComponentTree
