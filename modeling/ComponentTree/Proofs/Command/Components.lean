import ComponentTree.Proofs.Command
import ComponentTree.Proofs.Conversion.Kept
import ComponentTree.Proofs.Conversion.Parts
import ComponentTree.Proofs.Conversion.Rearranged

/-!
# The components of a command

The command is told the tags of its components, in any case and as often as one likes. What is registered
for them depends on the tags in lower case only (`componentsOfTags_eq`), and is registered under just
these again (`registered_of_mem`). A tag with a letter or digit gets a name that is not empty, and parsed
elements begin with a letter. So an element whose tag is listed is a component, whatever else stands in
the document: its type is its name, and the children that name a slot go into its props
(`tags_name_components`).
-/

namespace ComponentTree

variable {ν : Type}

open Text (Ascii)

/-! ## Elements that come out as components -/

namespace Conversion

/-- The element of a visit comes out as a component of a type. Each of its element children has its turn,
and if it names a slot its result is routed there. The props are made of the attributes that are handed
on and of these results, and from the other children come the children of the component. -/
structure ComesOutAs (source : Source ν) (host : Host ν) (beyond : Fault) (names : Option PropNames)
    (type : Value) (v : Visit ν) (attributes : List (String × Value)) (result : ν → Value) : Prop where
  handsOn : HandsOn source host beyond v attributes
  turn : ∀ child ∈ source.children v.node, source.kind child = .element →
    ∃ owner c, Turn source host beyond v owner c ∧ c.node = child ∧
      (c.run source host beyond).outcome = .ok (result child) ∧
      (NamesSlot source child → Routed source host beyond owner c (result child))
  outcome : (v.run source host beyond).outcome = .ok (.element type
    (plainProps names type attributes
      (Assoc.ofPairs (routedPairs source true result (source.children v.node))))
    (positionals source true result
      ((source.children v.node).filter fun child => (slotName? source child).isNone)))

variable {source : Source ν} {registered : String → Value} {fragmentType : Value}
variable {names : Option PropNames} {beyond : Fault} {start v c : Visit ν} {part : ν → Prop}

/-- At its turn a child gives what it would give if it were visited first. -/
theorem Turn.outcome_eq {owner : Option (Owner ν)} {below : Nat} {node : ν} {value : Value}
    (ht : Turn source (.plain registered fragmentType names) beyond ⟨node, below + 1, []⟩ owner c)
    (hearlier : c.earlier = [])
    (hgives : (visit source (.plain registered fragmentType names) beyond below c.node).Gives value) :
    (c.run source (.plain registered fragmentType names) beyond).outcome = .ok value := by
  cases ht with
  | intro =>
    dsimp only at hearlier hgives
    rw [Visit.run, hearlier]
    exact hgives.1

/-- **An element with something registered for its tag comes out as that**, unless it lies too deep. -/
theorem exists_comesOutAs (hr : source.Readable part) (hc : source.Coherent part)
    (hstart : part start.node) (hearlier : start.earlier = [])
    (hv : Reached source (.plain registered fragmentType names) beyond start v)
    (he : source.kind v.node = .element)
    (htype : (registered (tagOf source v.node)).truthy = true) :
    (v.run source (.plain registered fragmentType names) beyond).outcome = .error beyond ∨
      ∃ attributes result, ComesOutAs source (.plain registered fragmentType names) beyond names
        (registered (tagOf source v.node)) v attributes result := by
  obtain ⟨hpart, hnothing⟩ := earlier_eq_nil hr hstart hearlier hv
  obtain ⟨node, levels, earlier⟩ := v
  dsimp only at hpart hnothing he htype
  subst hnothing
  have hsettles : (∃ d, (visit source (.plain registered fragmentType names) beyond levels node).Gives d ∧
      Sound registered fragmentType d) ∨
      (visit source (.plain registered fragmentType names) beyond levels node).Stops beyond :=
    plain_settles hr hpart
  rcases hsettles with ⟨d, hd, -⟩ | hstops
  · obtain ⟨below, attributes, result, rfl, hattributes, hresult, rfl⟩ :=
      exists_describe hr hpart he hd.1
    have hgather := gather_gives hr hpart hattributes fun child hchild hk => (hresult child hchild hk).1
    have hok : ∃ value, (Visit.run source (.plain registered fragmentType names) beyond
        ⟨node, below + 1, []⟩).outcome = .ok value := ⟨_, hd.1⟩
    refine .inr ⟨_, result, .intro he hgather.1, fun child hchild hk => ?_, ?_⟩
    · obtain ⟨owner, c, hturn, rfl, -⟩ := exists_turn (.inl he) hok hchild hk
      have hnone := (earlier_eq_nil hr hstart hearlier (.child hv hturn)).2
      have hvalue := hturn.outcome_eq hnone (hresult _ hchild hk).1
      exact ⟨owner, c, hturn, rfl, hvalue, fun hslot =>
        (placement_eq hc (hc.children hpart hchild) hturn hvalue).1 ⟨hslot, he, _, rfl, htype⟩⟩
    · rw [positionals_filter]
      refine hd.1.trans ?_
      rw [describe, Value.orElse, if_pos htype, htype]
  · exact .inl hstops

end Conversion

/-! ## Parsed elements -/

namespace View

open Conversion Markup

variable {view n : View} {path : List Nat}

/-- All inside of the node of a view is put together of tokens. -/
def HoldsAssembled (view : View) : Prop := ∀ m ∈ view.place.node.content, Assembled m

theorem HoldsAssembled.of_mem_children (h : view.HoldsAssembled) (hn : n ∈ view.children) :
    Assembled n.place.node ∧ n.HoldsAssembled := by
  obtain ⟨m, hm, rfl⟩ := mem_children.mp hn
  exact ⟨h m hm, fun m' hm' => (h m hm).of_mem_content hm'⟩

/-- What a conversion comes to below its start was put together of tokens. -/
theorem HoldsAssembled.of_reached {host : Host View} {beyond : Fault} {start v : Visit View}
    (h : start.node.HoldsAssembled) (hv : Reached View.source host beyond start v) :
    (v.node = start.node ∨ Assembled v.node.place.node) ∧ v.node.HoldsAssembled := by
  induction hv with
  | start => exact ⟨.inl rfl, h⟩
  | child _ hturn ih =>
    obtain ⟨hassembled, hholds⟩ := ih.2.of_mem_children hturn.mem_children
    exact ⟨.inr hassembled, hholds⟩

/-- What has something inside of it is an element. -/
theorem kind_of_assembled {child : View} (h : Assembled n.place.node) (hn : n.isFragment = false)
    (hchild : child ∈ n.children) : n.kind = .element := by
  obtain ⟨m, hm, -⟩ := mem_children.mp hchild
  rw [kind, hn]
  cases hnode : n.place.node with
  | element => rfl
  | _ => rw [hnode] at hm h; cases h <;> cases hm

/-- All that lies between a view and an element inside of it are elements. -/
theorem HoldsAssembled.kind_of_follow? (h : view.HoldsAssembled) (hn : view.follow? path = some n)
    (he : n.kind = .element) :
    ∀ front u, front <+: path → front ≠ [] → view.follow? front = some u → u.kind = .element := by
  induction path generalizing view with
  | nil =>
    intro front u hfront hne
    exact absurd (List.prefix_nil.mp hfront) hne
  | cons i path ih =>
    obtain ⟨child, hchild, hlater⟩ := Option.bind_eq_some_iff.mp hn
    obtain ⟨hassembled, hholds⟩ := h.of_mem_children (List.mem_of_getElem? hchild)
    intro front u hfront hne hu
    obtain ⟨j, front, rfl⟩ := List.exists_cons_of_ne_nil hne
    obtain ⟨rfl, hrest⟩ := List.cons_prefix_cons.mp hfront
    rw [follow?, hchild, Option.bind_some] at hu
    by_cases hlast : front = []
    · subst hlast
      obtain rfl : child = u := Option.some.inj hu
      cases path with
      | nil =>
        obtain rfl : child = n := Option.some.inj hlater
        exact he
      | cons k path =>
        obtain ⟨grandchild, hgrandchild, -⟩ := Option.bind_eq_some_iff.mp hlater
        refine kind_of_assembled hassembled ?_ (List.mem_of_getElem? hgrandchild)
        obtain ⟨m, -, rfl⟩ := mem_children.mp (List.mem_of_getElem? hchild)
        simp [isFragment, below]
    · exact ih hholds hlater front u hrest hlast hu

end View

theorem Markup.IsTag.exists_isAlphanum {name : String} (h : Markup.IsTag name) :
    ∃ c ∈ (lowercase name).toList, c.isAlphanum = true := by
  obtain ⟨c, hc, hlower⟩ := h
  obtain ⟨rest, hrest⟩ := List.head?_eq_some_iff.mp hc
  have hlow : Text.IsLow c := Text.isLow_of_isPlain (by simp [Text.isPlain, hlower])
  have hfirst : (lowercase name).toList = c :: Text.lowerAfter [c] rest := by
    rw [lowercase, String.toList_ofList, hrest, Text.lower, Text.lowerAfter, Text.lowerBetween,
      if_neg hlow.ne_sigma, hlow]
    rfl
  exact ⟨c, hfirst ▸ List.mem_cons_self, Text.isAlphanum_of_isLower hlower⟩

/-- The tag of an element that was put together of tokens has a letter. -/
theorem View.exists_isAlphanum_of_assembled {n : View} (h : Markup.Assembled n.place.node)
    (he : n.kind = .element) : ∃ c ∈ (Conversion.tagOf View.source n).toList, c.isAlphanum = true := by
  obtain ⟨name, attributes, content, hnode, hname, -⟩ := View.exists_element he
  have htag : Conversion.tagOf View.source n = lowercase name := congrArg lowercase hname
  rw [hnode] at h
  rw [htag]
  cases h with
  | element hname => exact hname.exists_isAlphanum

/-! ## Tags -/

section Tags

variable {tags : List String} {tag : String}

/-- What is registered for tags depends on the tags in lower case only, and is there once for each. -/
theorem componentsOfTags_eq (h : ∀ tag ∈ tags, Ascii tag.toList) :
    componentsOfTags tags =
      (tags.map lowercase).eraseDups.map fun tag => (tag, pascalCase tag) := by
  have hpairs : (tags.map fun tag => (lowercase tag, pascalCase tag)) =
      (tags.map lowercase).map fun tag => (tag, pascalCase tag) := by
    rw [List.map_map]
    apply List.map_congr_left
    intro tag htag
    rw [Function.comp_apply, pascalCase_lowercase (h tag htag)]
  rw [componentsOfTags, hpairs, Assoc.ofPairs_map_keys]

theorem keys_componentsOfTags (tags : List String) :
    (componentsOfTags tags).map Prod.fst = (tags.map lowercase).eraseDups := by
  rw [componentsOfTags, Assoc.keys_ofPairs, List.map_map]
  rfl

theorem componentsOfTags_lowercase (h : ∀ tag ∈ tags, Ascii tag.toList) :
    componentsOfTags tags = componentsOfTags (tags.map lowercase) := by
  have hlowered : ∀ tag ∈ tags.map lowercase, Ascii tag.toList := by
    intro tag htag
    obtain ⟨tag, hmem, rfl⟩ := List.mem_map.mp htag
    exact ascii_lowercase (h tag hmem)
  have hsame : (tags.map lowercase).map lowercase = tags.map lowercase := by
    rw [List.map_map]
    exact List.map_congr_left fun tag _ => lowercase_lowercase tag
  rw [componentsOfTags_eq h, componentsOfTags_eq hlowered, hsame]

theorem get?_componentsOfTags (h : ∀ tag ∈ tags, Ascii tag.toList) (htag : tag ∈ tags.map lowercase) :
    Assoc.get? tag (componentsOfTags tags) = some (pascalCase tag) := by
  refine Assoc.get?_of_mem (Assoc.nodup_keys_ofPairs _) ?_
  rw [componentsOfTags_eq h]
  exact List.mem_map.mpr ⟨tag, List.mem_eraseDups.mpr htag, rfl⟩

end Tags

namespace Command

open Conversion

variable {tags : List String} {tag : String}

/-- What the converter for components under some tags finds for a tag in lower case. -/
def registered (tags : List String) (tag : String) : Value :=
  ((Assoc.get? tag (componentsOfTags tags)).map .str).getD .null

/-- The names for the strategy that a request asks for. -/
def namesFor (propsify : Bool) : Option PropNames :=
  if propsify then some PropNames.strict else none

/-- The tags are in lower case already when they are registered. -/
theorem register_componentsOfTags (tags : List String) :
    Converter.register ((componentsOfTags tags).map fun (tag, name) => (tag, .str name)) =
      Assoc.mapValues (fun name _ => .str name) (componentsOfTags tags) := by
  have hlow : ∀ entry ∈ componentsOfTags tags, lowercase entry.1 = entry.1 := by
    intro entry hentry
    obtain ⟨tag, -, rfl⟩ := List.mem_map.mp (Assoc.mem_ofPairs hentry)
    exact lowercase_lowercase tag
  have hpairs : ((componentsOfTags tags).map fun entry => (entry.1, Value.str entry.2)).map
      (fun entry => (lowercase entry.1, entry.2)) =
        Assoc.mapValues (fun name _ => .str name) (componentsOfTags tags) := by
    rw [List.map_map]
    apply List.map_congr_left
    intro entry hentry
    show (lowercase entry.1, Value.str entry.2) = (entry.1, Value.str entry.2)
    rw [hlow entry hentry]
  have honce : Assoc.ofPairs (componentsOfTags tags) = componentsOfTags tags :=
    Assoc.ofPairs_of_nodup (Assoc.nodup_keys_ofPairs _)
  refine (congrArg Assoc.ofPairs hpairs).trans ?_
  rw [Assoc.ofPairs_mapValues Value.str, honce]

theorem host_converterFor (tags : List String) (propsify : Bool) :
    (converterFor tags propsify).host =
      .plain (registered tags) .fragment (namesFor propsify) := by
  have hregistered : registered tags = fun tag => (Assoc.get? tag (Converter.register
      ((componentsOfTags tags).map fun (tag, name) => (tag, .str name)))).getD .null := by
    funext tag
    rw [register_componentsOfTags, Assoc.get?_mapValues Value.str]
    rfl
  rw [converterFor, strategyFor_eq, Converter.host_plain, hregistered]
  rfl

theorem registered_of_mem (h : ∀ tag ∈ tags, Ascii tag.toList) (htag : tag ∈ tags.map lowercase) :
    registered tags tag = .str (pascalCase tag) := by
  rw [registered, get?_componentsOfTags h htag]
  rfl

/-! ## Elements whose tag is listed -/

/-- The visits of the conversion of a view, for components under some tags. -/
def Visited (tags : List String) (propsify : Bool) (view : View) (v : Visit View) : Prop :=
  Reached View.source (converterFor tags propsify).host (.tooDeep defaultLimit)
    (.first View.source (some defaultLimit) view) v

/-- The element of a visit comes out as the component that its tag in lower case names. -/
def Named (tags : List String) (propsify : Bool) (v : Visit View) : Prop :=
  ∃ attributes result, ComesOutAs View.source (converterFor tags propsify).host
    (.tooDeep defaultLimit) (namesFor propsify) (.str (pascalCase (tagOf View.source v.node))) v
    attributes result

variable {propsify : Bool} {view : View} {v : Visit View}

/-- A listed element that is visited comes out as its component, unless it lies too deep. -/
theorem named_of_visited (h : ∀ tag ∈ tags, Ascii tag.toList) (hfragment : view.kind = .fragment)
    (hreadable : view.Readable) (hassembled : view.HoldsAssembled)
    (hv : Visited tags propsify view v) (he : v.node.kind = .element)
    (htag : tagOf View.source v.node ∈ tags.map lowercase) :
    (v.run View.source (converterFor tags propsify).host (.tooDeep defaultLimit)).outcome =
      .error (.tooDeep defaultLimit) ∨ Named tags propsify v := by
  have hnode : Markup.Assembled v.node.place.node := by
    refine (hassembled.of_reached hv).1.resolve_left fun hstart => ?_
    have hkind : v.node.kind = view.kind := congrArg View.kind hstart
    rw [hkind, hfragment] at he
    cases he
  have hascii : Ascii (tagOf View.source v.node).toList := by
    obtain ⟨tag, hmem, heq⟩ := List.mem_map.mp htag
    exact heq ▸ ascii_lowercase (h tag hmem)
  have hname : pascalCase (tagOf View.source v.node) ≠ "" := by
    obtain ⟨c, hc, halphanum⟩ := View.exists_isAlphanum_of_assembled hnode he
    intro hempty
    rw [(pascalCase_eq_empty_iff hascii).mp hempty c hc] at halphanum
    cases halphanum
  have hregistered := registered_of_mem h htag
  have htruthy : (registered tags (tagOf View.source v.node)).truthy = true := by
    rw [hregistered]
    simpa [Value.truthy] using hname
  unfold Visited at hv
  unfold Named
  rw [host_converterFor] at hv ⊢
  have hout := exists_comesOutAs View.readable View.coherent hreadable rfl hv he htruthy
  rwa [hregistered] at hout

/-- A conversion that gives a result visits every element. -/
theorem exists_visited (hfragment : view.kind = .fragment) (hassembled : view.HoldsAssembled)
    {tree : Value} (hok : ((Visit.first View.source (some defaultLimit) view).run View.source
      (converterFor tags propsify).host (.tooDeep defaultLimit)).outcome = .ok tree)
    {path : List Nat} {n : View} (hn : view.follow? path = some n) (he : n.kind = .element) :
    ∃ v, Visited tags propsify view v ∧ v.node = n ∧ ∃ d, (v.run View.source
      (converterFor tags propsify).host (.tooDeep defaultLimit)).outcome = .ok d := by
  have hopened : View.source.Opened view := .inr hfragment
  let start : Visit View := .first View.source (some defaultLimit) view
  obtain ⟨v, hv, hnode, -, hgives⟩ :=
    @exists_reached_of_follow _ _ path start n hopened ⟨tree, hok⟩ hn (hassembled.kind_of_follow? hn he)
  exact ⟨v, hv, hnode, hgives⟩

/-- The conversion of a view lies too deep, or it gives a result. -/
theorem convert_settles (tags : List String) (propsify : Bool) (hreadable : view.Readable) :
    ((converterFor tags propsify).convert View.source view).outcome = .error (.tooDeep defaultLimit) ∨
      ∃ tree, ((converterFor tags propsify).convert View.source view).outcome = .ok tree ∧
        ((Visit.first View.source (some defaultLimit) view).run View.source
          (converterFor tags propsify).host (.tooDeep defaultLimit)).outcome = .ok tree := by
  have hconvert : ((converterFor tags propsify).convert View.source view).outcome =
      ((Visit.first View.source (some defaultLimit) view).run View.source
        (converterFor tags propsify).host (.tooDeep defaultLimit)).settled := rfl
  rw [hconvert, host_converterFor]
  rcases plain_settles View.readable hreadable with ⟨tree, htree, -⟩ | hstops
  · exact .inr ⟨tree, htree.settled, htree.1⟩
  · exact .inl hstops.settled

/-- **Tags name components.** Take any list of ASCII tags, in any case. What is registered for them is
what is registered for the tags in lower case, which are the keys, each once and in the order in which
they first come up. The name of a tag is that of its lower case in PascalCase. It has nothing but letters
and digits of ASCII, and is not empty if the tag has any.

Take any document that a library makes, if it can be relied on, and convert it, or the content of one of
its templates, for components under these tags. A visited element whose tag is listed in some case comes
out as the component that its tag in lower case names, with the children that name a slot in its props,
unless it lies too deep. And if the conversion as a whole does not lie too deep, it gives a result and
every element is visited. -/
theorem tags_name_components (tags : List String) (h : ∀ tag ∈ tags, Ascii tag.toList) :
    componentsOfTags tags = componentsOfTags (tags.map lowercase) ∧
    (componentsOfTags tags).map Prod.fst = (tags.map lowercase).eraseDups ∧
    (∀ tag ∈ tags,
      Assoc.get? (lowercase tag) (componentsOfTags tags) = some (pascalCase (lowercase tag)) ∧
      (pascalCase (lowercase tag) ≠ "" ↔ ∃ c ∈ tag.toList, c.isAlphanum = true) ∧
      ∀ c ∈ (pascalCase (lowercase tag)).toList, c.isAlphanum = true) ∧
    ∀ library : Markup.Library, library.Lawful → ∀ propsify html template document view,
      library.parse html = .ok document →
      Converter.selectTemplate library document template = .ok view →
      ∃ report, (converterFor tags propsify).convertHtml library html template = .ok report ∧
      (∀ v, Visited tags propsify view v → v.node.kind = .element →
        tagOf View.source v.node ∈ tags.map lowercase →
        (v.run View.source (converterFor tags propsify).host (.tooDeep defaultLimit)).outcome =
          .error (.tooDeep defaultLimit) ∨ Named tags propsify v) ∧
      (report.outcome = .error (.tooDeep defaultLimit) ∨
        (∃ tree, report.outcome = .ok tree) ∧
        ∀ path n, view.follow? path = some n → n.kind = .element →
          tagOf View.source n ∈ tags.map lowercase →
          ∃ v, Visited tags propsify view v ∧ v.node = n ∧ Named tags propsify v) := by
  refine ⟨componentsOfTags_lowercase h, keys_componentsOfTags tags, fun tag htag => ?_, ?_⟩
  · have hname := pascalCase_lowercase (h tag htag)
    refine ⟨get?_componentsOfTags h (List.mem_map_of_mem htag), ?_, ?_⟩
    · rw [hname, ne_eq, pascalCase_eq_empty_iff (h tag htag)]
      simp
    · rw [hname]
      exact isAlphanum_of_mem_pascalCase (h tag htag)
  · intro library hlibrary propsify html template document view hparse hselect
    obtain ⟨hfragment, path, hplace⟩ := Converter.exists_place_of_select hlibrary hparse hselect
    have hreadable : view.Readable :=
      View.readable_of_textual (hlibrary.textual_of_follow? hparse hplace)
    have hassembled : view.HoldsAssembled := hlibrary.assembled_of_follow? hparse hplace
    have hreport : (converterFor tags propsify).convertHtml library html template =
        .ok ((converterFor tags propsify).convert View.source view) := by
      rw [Converter.convertHtml_of_parse hparse, hselect]
      rfl
    have hnamed : ∀ v, Visited tags propsify view v → v.node.kind = .element →
        tagOf View.source v.node ∈ tags.map lowercase → _ := fun v hv he htag =>
      named_of_visited h hfragment hreadable hassembled hv he htag
    refine ⟨_, hreport, hnamed, ?_⟩
    refine (convert_settles tags propsify hreadable).imp_right ?_
    rintro ⟨tree, htree, hok⟩
    refine ⟨⟨tree, htree⟩, fun path n hn he htag => ?_⟩
    obtain ⟨v, hv, rfl, d, hd⟩ := exists_visited hfragment hassembled hok hn he
    refine ⟨v, hv, rfl, (hnamed v hv he htag).resolve_left fun hdeep => ?_⟩
    rw [hd] at hdeep
    cases hdeep

/-- A card in capitals, with a title for one of its slots. -/
def shoutedHtml : String := "<X-CARD><b slot=title>Hi</b></X-CARD>"

def shoutedCard : Markup := .element "x-card" [] [slottedTitle]

/-- The tag is listed twice, and not as it is spelled in the document. -/
def cardTags : List String := ["X-Card", "x-card"]

theorem tags_name_components_shoutedCard :
    (∀ tag ∈ cardTags, Ascii tag.toList) ∧
      (componentsOfTags cardTags).map Prod.fst = ["x-card"] ∧
      Assoc.get? "x-card" (componentsOfTags cardTags) = some "XCard" ∧
      Markup.library.Lawful ∧ Markup.library.parse shoutedHtml = .ok (.document [shoutedCard]) ∧
      (∃ v, Visited cardTags false (.wrap (.top (.document [shoutedCard]))) v ∧
        v.node.place.node = shoutedCard ∧ Named cardTags false v) ∧
      ∃ report, (converterFor cardTags false).convertHtml Markup.library shoutedHtml none = .ok report ∧
        report.outcome = .ok (.element .fragment []
          [.element (.str "XCard") [(.str "title", .element (.str "b") [] [.str "Hi"])] []]) := by
  have hascii : ∀ tag ∈ cardTags, Ascii tag.toList :=
    List.forall_mem_cons.mpr ⟨by decide, List.forall_mem_singleton.mpr (by decide)⟩
  have hparse : Markup.library.parse shoutedHtml = .ok (.document [shoutedCard]) := by
    with_unfolding_all rfl
  obtain ⟨-, hkeys, hnames, hdocument⟩ := tags_name_components cardTags hascii
  obtain ⟨report, hreport, -, hresult⟩ :=
    hdocument Markup.library Markup.lawful_library false shoutedHtml none _ _ hparse rfl
  have houtcome : report.outcome = .ok (.element .fragment []
      [.element (.str "XCard") [(.str "title", .element (.str "b") [] [.str "Hi"])] []]) := by
    rw [Converter.convertHtml_of_parse hparse] at hreport
    cases hreport
    rfl
  rw [houtcome] at hresult
  obtain ⟨-, hvisited⟩ := hresult.resolve_left (by simp)
  obtain ⟨v, hv, hnode, hnamed⟩ := hvisited [0] _ rfl rfl (by decide)
  exact ⟨hascii, hkeys.trans (by decide), (hnames "x-card" (by decide)).1.trans (by decide),
    Markup.lawful_library, hparse, ⟨v, hv, congrArg (·.place.node) hnode, hnamed⟩, report, hreport,
    houtcome⟩

end Command

end ComponentTree
