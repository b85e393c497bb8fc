import ComponentTree.Proofs.Conversion.Plain
import ComponentTree.Proofs.Conversion.Templates
import ComponentTree.Proofs.Json.Accepted

/-!
# Numbers in the results of conversions

Numbers come into a descriptor tree from decoded attributes only, and decoding gives none that would be
lost when they are written and read again. So no number is lost in the tree that a plain converter makes
of an HTML text (`numbersKept_convertHtml`).
-/

namespace ComponentTree

open Value (named Nest)

/-! ## Values -/

namespace Value

theorem numbersKept_ofString? (text : Option String) : (Value.ofString? text).numbersKept = true := by
  cases text <;> rfl

theorem numbersKept_decoded_ofString? (text : Option String) :
    (Value.decoded (.ofString? text)).numbersKept = true := by
  cases text with
  | none => rfl
  | some s => exact numbersKept_decoded_str s

theorem numbersKeptEntries_keyed {pairs : List (Points × Value)} :
    numbersKeptEntries (keyed pairs) = true ↔ ∀ pair ∈ pairs, pair.2.numbersKept = true := by
  rw [numbersKeptEntries_iff, keyed, List.forall_mem_map]
  exact forall₂_congr fun pair _ => and_iff_right (numbersKept_ofPoints pair.1)

theorem Nest.numbersKept {v : Value} (h : Nest (fun v => v.numbersKept = true) v) :
    v.numbersKept = true := by
  induction h with
  | leaf _ hv => exact hv
  | map _ _ ih => exact numbersKeptEntries_keyed.mpr ih

theorem IsData.nest_numbersKept {v : Value} (h : v.IsData) (hkept : v.numbersKept = true) :
    Nest (fun v => v.numbersKept = true) v := by
  induction h with
  | map hnames _ ih =>
    have hpairs := numbersKeptEntries_keyed.mp hkept
    exact .map hnames fun pair hpair => ih pair hpair (hpairs pair hpair)
  | _ => exact .leaf (by simp) hkept

end Value

/-! ## Visits -/

namespace Conversion

variable {ν : Type} {source : Source ν} {registered : String → Value} {fragmentType : Value}
variable {names : Option PropNames} {beyond : Fault} {levels : Nat} {node : ν}
variable {attributes : List (String × Value)}

/-- Attributes that are decoded lose no number. -/
theorem numbersKept_ofAttributes (h : Texts attributes) (names : PropNames) :
    (Value.dict none (Props.ofAttributes {} names attributes)).numbersKept = true := by
  let renamed := Assoc.mapKeys (fun _ name => Props.componentName {} names name) attributes
  have hrenamed : Texts renamed := Props.texts_mapKeys h _
  show Value.numbersKeptEntries (named (Assoc.mapValues (fun value _ => value.decoded) renamed)) = true
  rw [Value.named_eq_keyed, Value.numbersKeptEntries_keyed,
    Value.forall_mem_texted (p := fun v => v.numbersKept = true)]
  intro pair hpair
  obtain ⟨⟨name, value⟩, hpair', rfl⟩ := List.mem_map.mp hpair
  obtain ⟨text, htext⟩ := hrenamed _ hpair'
  show value.decoded.numbersKept = true
  rw [show value = _ from htext]
  exact Value.numbersKept_decoded_ofString? text

theorem numbersKept_orElse {v w : Value} (hv : v.numbersKept = true) (hw : w.numbersKept = true) :
    (v.orElse w).numbersKept = true := by
  rw [Value.orElse]
  split
  · exact hv
  · exact hw

theorem numbersKept_positionals {result : ν → Value} {owned : Bool} {children : List ν}
    (h : ∀ child ∈ children, source.kind child = .element → (result child).numbersKept = true) :
    Value.numbersKeptItems (positionals source owned result children) = true := by
  rw [Value.numbersKeptItems_iff]
  intro v hv
  rcases mem_positionals hv with ⟨text, rfl⟩ | ⟨child, hchild, hk, rfl⟩
  · exact Value.numbersKept_ofString? text
  · exact h child hchild hk

/-- A descriptor loses no number if none is lost in its component and in what its children give. -/
theorem numbersKept_describe {result : ν → Value}
    (hregistered : ∀ tag, (registered tag).numbersKept = true) (hattributes : Texts attributes)
    (hnames : (attributes.map Prod.fst).Nodup)
    (hresult : ∀ child ∈ source.children node, source.kind child = .element →
      NoMap (result child) ∧ (result child).numbersKept = true) :
    (describe source registered names node attributes result).numbersKept = true := by
  have hpassed := passedOf_sublist registered (parentTag? source node) attributes
  have htexts : Texts (passedOf registered (parentTag? source node) attributes) :=
    fun pair hpair => hattributes pair (hpassed.subset hpair)
  let owned := (registered (tagOf source node)).truthy
  have hprops : Nest (fun v => v.numbersKept = true) (.dict none (plainProps names
      (registered (tagOf source node)) (passedOf registered (parentTag? source node) attributes)
      (Assoc.ofPairs (routedPairs source owned result (source.children node))))) :=
    nest_plainProps_of _ htexts (hnames.sublist (hpassed.map Prod.fst)) Value.numbersKept_ofString?
      (fun names => (Props.isData_ofAttributes htexts names).nest_numbersKept
        (numbersKept_ofAttributes htexts names))
      (routedPairs_nest hresult)
  have hentries : Value.numbersKeptEntries _ = true := hprops.numbersKept
  have htype : ((registered (tagOf source node)).orElse (.str (tagOf source node))).numbersKept =
      true := numbersKept_orElse (hregistered _) rfl
  have hchildren : Value.numbersKeptItems
      (positionals source owned result (source.children node)) = true :=
    numbersKept_positionals fun child hchild hk => (hresult child hchild hk).2
  rw [describe, Value.numbersKept, htype, hentries, hchildren]
  rfl

/-- **No number is lost in what a visit gives**, if the types have none to lose. -/
theorem numbersKept_visit {part : ν → Prop} {d : Value} (hr : source.Readable part) (hp : part node)
    (hregistered : ∀ tag, (registered tag).numbersKept = true)
    (hfragment : fragmentType.numbersKept = true)
    (h : ((visit source (.plain registered fragmentType names) beyond levels node).run []).outcome =
      .ok d) : d.numbersKept = true := by
  -- on the levels that are left: the children are visited with one level less
  induction levels generalizing node d with
  | zero => cases h
  | succ levels ih =>
    by_cases he : source.kind node = .element
    · obtain ⟨below, attributes, result, hlevels, hattributes, hresult, rfl⟩ :=
        exists_describe hr hp he h
      obtain rfl : levels = below := Nat.succ.inj hlevels
      refine numbersKept_describe hregistered (texts_attributesOf hr hp hattributes)
        (nodup_keys_attributesOf hattributes) fun child hchild hk => ?_
      obtain ⟨hgives, hsound⟩ := hresult child hchild hk
      exact ⟨hsound.1, ih (hr.children hp hchild) hgives.1⟩
    by_cases hf : source.kind node = .fragment
    · obtain ⟨below, result, hlevels, hresult, rfl⟩ := exists_fragment hr hp hf h
      obtain rfl : levels = below := Nat.succ.inj hlevels
      have htype : (fragmentType.orElse .null).numbersKept = true := numbersKept_orElse hfragment rfl
      have hchildren : Value.numbersKeptItems
          (positionals source false result (source.children node)) = true :=
        numbersKept_positionals fun child hchild hk =>
          ih (hr.children hp hchild) (hresult child hchild hk).1.1
      rw [Value.numbersKept, htype, hchildren]
      rfl
    · rw [visit_other he hf] at h
      cases h
      rfl

end Conversion

/-! ## Converters -/

namespace Converter

variable {library : Markup.Library} {c : Converter View} {document : Markup} {html : String}
variable {template : Option String} {view : View} {report : Reported View} {d : Value}

/-- The view of a parsed document that is selected is a fragment, the place of which lies in the
document. -/
theorem exists_place_of_select (h : library.Lawful) (hparse : library.parse html = .ok document)
    (hselect : selectTemplate library document template = .ok view) :
    view.kind = .fragment ∧ ∃ path, (Place.top document).follow? path = some view.place := by
  cases template with
  | none =>
    cases hselect
    obtain ⟨content, rfl, -⟩ := h.parsed hparse
    exact ⟨rfl, [], rfl⟩
  | some id =>
    rw [selectTemplate] at hselect
    split at hselect
    · next p hp =>
      cases hselect
      obtain ⟨path, hfirst⟩ := (h.found hparse).mp hp
      exact ⟨rfl, path, hfirst.reached⟩
    · cases hselect

/-- A conversion of HTML is one of a view that is selected in what was parsed. -/
theorem exists_select_of_convertHtml (h : c.convertHtml library html template = .ok report) :
    ∃ document view, library.parse html = .ok document ∧
      selectTemplate library document template = .ok view ∧ report = c.convert View.source view := by
  cases hparse : library.parse html with
  | error refusal =>
    rw [convertHtml, hparse] at h
    cases h
  | ok document =>
    rw [convertHtml_of_parse hparse] at h
    cases hselect : selectTemplate library document template with
    | error fault =>
      rw [hselect] at h
      cases h
    | ok view =>
      rw [hselect] at h
      exact ⟨document, view, rfl, hselect, (Except.ok.inj h).symm⟩

/-- **No number is lost in what a plain converter makes of HTML**, if its components have none to
lose. -/
theorem numbersKept_convertHtml (hlibrary : library.Lawful) {components : List (String × Value)}
    {names : Option PropNames}
    (hcomponents : ∀ tag, ((Assoc.get? tag (register components)).getD .null).numbersKept = true)
    (h : (plain components (names.map (standardStrategy {}))).convertHtml library html template =
      .ok report) (hd : report.outcome = .ok d) : d.numbersKept = true := by
  obtain ⟨document, view, hparse, hselect, rfl⟩ := exists_select_of_convertHtml h
  obtain ⟨-, path, hplace⟩ := exists_place_of_select hlibrary hparse hselect
  have hreadable : view.Readable :=
    View.readable_of_textual (hlibrary.textual_of_follow? hparse hplace)
  let converter : Converter View := plain components (names.map (standardStrategy {}))
  change (ComponentTree.convert View.source converter.host converter.limit view).settled = .ok d at hd
  rw [host_plain, convert_eq_visit] at hd
  rcases Conversion.plain_settles View.readable hreadable with ⟨value, hvalue, -⟩ | hstops
  · obtain rfl : value = d := Except.ok.inj (hvalue.settled.symm.trans hd)
    exact Conversion.numbersKept_visit View.readable hreadable hcomponents rfl hvalue.1
  · rw [hstops.settled] at hd
    cases hd

end Converter

end ComponentTree
