import ComponentTree.Markup.Tree
import ComponentTree.Proofs.Markup.Library
import ComponentTree.Proofs.Text.Ascii

/-!
# What parsing makes

A start tag begins with a letter. Its name and the names of its attributes are lowered, and the latter
are then made into a map, so they stay distinct when they are lowered again (`Token.WellNamed`). Of such
tokens the tree is assembled, and nothing else gets into it (`assembled_of_parse`).

Of the text between the tags nothing is used. A scan is followed only as far as needed to see that
nothing but a start tag brings a name for an element, and attributes.
-/

namespace ComponentTree.Markup

/-! ## Tokens -/

/-- A start tag names an element, and has no two attributes whose names differ in case only. -/
def Token.WellNamed : Token → Prop
  | .opening name attributes _ => IsTag name ∧ (attributes.map fun a => lowercase a.1).Nodup
  | .closing _ => True
  | .text _ => True
  | .other _ => True

def Scan.WellNamed (scan : Scan) : Prop := ∀ t ∈ scan.tokens, t.WellNamed

section Tokens

variable {lenient : Bool} {cs : List Char} {scan : Scan}

theorem exists_ok_of_bind {ε α β : Type} {x : Except ε α} {f : α → Except ε β} {b : β}
    (h : x >>= f = .ok b) : ∃ a, x = .ok a ∧ f a = .ok b := by
  cases x with
  | error e => cases h
  | ok a => exact ⟨a, rfl, h⟩

theorem lowercase_resolve {a : RawAttribute} {pair : String × String} (h : a.resolve = .ok pair) :
    lowercase pair.1 = pair.1 := by
  obtain ⟨value, -, h⟩ := exists_ok_of_bind h
  cases h
  rw [lowercase, String.toList_ofList, Text.lower_lower]

theorem lowercase_of_mem_resolved {attributes : List RawAttribute} {pairs : List (String × String)}
    (h : attributes.mapM (·.resolve) = .ok pairs) {pair : String × String} (hpair : pair ∈ pairs) :
    lowercase pair.1 = pair.1 := by
  induction attributes generalizing pairs with
  | nil => cases h; cases hpair
  | cons a attributes ih =>
    rw [List.mapM_cons] at h
    obtain ⟨first, hfirst, h⟩ := exists_ok_of_bind h
    obtain ⟨rest, hrest, h⟩ := exists_ok_of_bind h
    cases h
    rcases List.mem_cons.mp hpair with rfl | hpair
    · exact lowercase_resolve hfirst
    · exact ih hrest hpair

/-- Names in lower case that are made into a map stay distinct when they are lowered. -/
theorem nodup_lowercase_ofPairs {pairs : List (String × String)}
    (h : ∀ pair ∈ pairs, lowercase pair.1 = pair.1) :
    ((Assoc.ofPairs pairs).map fun a => lowercase a.1).Nodup := by
  have hlow : ∀ a ∈ Assoc.ofPairs pairs, lowercase a.1 = a.1 := by
    intro a ha
    have hkey : a.1 ∈ (Assoc.ofPairs pairs).map Prod.fst := List.mem_map_of_mem ha
    obtain ⟨pair, hpair, hname⟩ := List.mem_map.mp (Assoc.mem_keys_ofPairs.mp hkey)
    rw [← hname, h pair hpair]
  rw [List.map_congr_left hlow]
  exact Assoc.nodup_keys_ofPairs pairs

theorem isTagChar_of_isLetter {c : Char} (h : isLetter c = true) : isTagChar c = true := by
  have hends : ("\t\n\r\x0c />\x00".toList.all fun d => !isLetter d) = true := by decide
  rw [isTagChar, Bool.not_eq_true', List.contains_eq_mem, decide_eq_false_iff_not]
  intro hc
  have hno := List.all_eq_true.mp hends c hc
  rw [h] at hno
  cases hno

/-- A name that begins with a letter, in any case, is lowered to the name of an element. -/
theorem isTag_of_isLetter {c : Char} (h : isLetter c = true) (cs : List Char) :
    IsTag (String.ofList (Text.lower ((c :: cs).takeWhile isTagChar))) := by
  have hascii : c.toNat < 128 := Text.lt_of_isAlphanum (Text.isAlphanum_of_isAlpha h)
  have hlaws := Text.asciiLaws hascii
  refine ⟨c.toLower, ?_, hlaws.isLower_toLower h⟩
  rw [String.toList_ofList, List.takeWhile_cons_of_pos (isTagChar_of_isLetter h), Text.lower,
    Text.lowerAfter, Text.lowerBetween, if_neg (Text.ne_sigma_of_ascii hascii), hlaws.lower]
  rfl

/-! What is scanned without a start tag is well named. -/

theorem wellNamed_text (text : List Char) : (⟨[.text text], lenient, cs⟩ : Scan).WellNamed :=
  List.forall_mem_singleton.mpr trivial

theorem wellNamed_closing (name : String) : (⟨[.closing name], lenient, cs⟩ : Scan).WellNamed :=
  List.forall_mem_singleton.mpr trivial

theorem wellNamed_other (data : List Char) : (⟨[.other data], lenient, cs⟩ : Scan).WellNamed :=
  List.forall_mem_singleton.mpr trivial

theorem wellNamed_scanUnfinished (cs : List Char) : (scanUnfinished cs).WellNamed := by
  unfold scanUnfinished
  dsimp only
  split
  · exact wellNamed_text _
  · split
    · exact wellNamed_text _
    · exact wellNamed_text _

theorem wellNamed_scanRaw (name : String) : (scanRaw lenient name cs).WellNamed := by
  unfold scanRaw
  split
  · exact List.forall_mem_cons.mpr ⟨trivial, List.forall_mem_singleton.mpr trivial⟩
  · exact wellNamed_text _

theorem wellNamed_scanClosing : (scanClosing lenient cs).WellNamed := by
  unfold scanClosing
  split
  · exact wellNamed_closing _
  · split
    · exact wellNamed_scanUnfinished _
    · split
      · exact List.forall_mem_nil _
      · exact List.forall_mem_nil _
      · split
        · split
          · exact wellNamed_closing _
          · exact wellNamed_scanUnfinished _
        · exact wellNamed_other _

theorem wellNamed_scanOpening {c : Char} (hc : isLetter c = true)
    (h : scanOpening lenient (c :: cs) = .ok scan) : scan.WellNamed := by
  unfold scanOpening at h
  dsimp only at h
  split at h
  · cases h
    exact wellNamed_text _
  · split at h
    · cases h
      exact wellNamed_scanUnfinished _
    · next attributes closed rest _ =>
      obtain ⟨pairs, hpairs, h⟩ := exists_ok_of_bind h
      have htag := And.intro (isTag_of_isLetter hc cs)
        (nodup_lowercase_ofPairs fun _ hpair => lowercase_of_mem_resolved hpairs hpair)
      split at h
      · cases h
        exact List.forall_mem_cons.mpr ⟨htag, wellNamed_scanRaw _⟩
      · cases h
        exact List.forall_mem_singleton.mpr htag

theorem wellNamed_scanBracket (h : scanBracket lenient cs = .ok scan) : scan.WellNamed := by
  unfold scanBracket at h
  split at h
  · cases h
    exact wellNamed_text _
  · cases h
    exact wellNamed_scanClosing
  · obtain ⟨declaration, -, h⟩ := exists_ok_of_bind h
    split at h
    · cases h
      exact wellNamed_other _
    · cases h
      exact wellNamed_scanUnfinished _
  · split at h
    · cases h
      exact wellNamed_other _
    · cases h
      exact wellNamed_scanUnfinished _
  · split at h
    · next hletter => exact wellNamed_scanOpening hletter h
    · cases h
      exact wellNamed_text _

/-- An ampersand and what follows it comes to a single text. -/
theorem wellNamed_scanAmpersand (h : scanAmpersand lenient cs = .ok scan) : scan.WellNamed := by
  unfold scanAmpersand at h
  split at h
  · split at h
    · obtain ⟨text, -, h⟩ := exists_ok_of_bind h
      cases h
      exact wellNamed_text _
    · split at h
      · cases h
        exact wellNamed_text _
      · cases h
        exact wellNamed_text _
  · split at h
    · split at h
      · cases h
        exact wellNamed_text _
      · cases h
        exact wellNamed_text _
    · cases h
      exact wellNamed_text _
  · cases h
    exact wellNamed_text _

theorem wellNamed_scanNext (h : scanNext lenient cs = .ok scan) : scan.WellNamed := by
  unfold scanNext at h
  split at h
  · cases h
    exact List.forall_mem_nil _
  · exact wellNamed_scanBracket h
  · exact wellNamed_scanAmpersand h
  · cases h
    exact wellNamed_text _

theorem wellNamed_scanAll {ts : List Token} (h : scanAll lenient cs = .ok ts) :
    ∀ t ∈ ts, t.WellNamed := by
  induction hlength : cs.length using Nat.strong_induction_on generalizing lenient cs ts with
  | _ n ih =>
    subst hlength
    rw [scanAll] at h
    obtain ⟨scan, hscan, h⟩ := exists_ok_of_bind h
    have hnext := wellNamed_scanNext hscan
    split at h
    · next hshorter =>
      obtain ⟨rest, hrest, h⟩ := exists_ok_of_bind h
      cases h
      exact List.forall_mem_append.mpr ⟨hnext, ih _ hshorter hrest rfl⟩
    · cases h
      exact hnext

end Tokens

/-- Some values may be split into tokens. -/
theorem drawnAttributes_split {attributes : List (String × String)}
    (h : (attributes.map fun a => lowercase a.1).Nodup) (splits : String → Bool) :
    DrawnAttributes (attributes.map fun (attr, value) =>
      (attr, if splits attr then tokenList value else .str value)) := by
  refine ⟨attributes.map fun (attr, value) => (attr, if splits attr then
    .tokens ((Text.pieces Text.isBlank value.toList).map String.ofList) else .whole value), ?_, ?_⟩
  · rw [List.map_map]
    exact h
  · rw [List.map_map]
    refine List.map_congr_left fun a _ => ?_
    dsimp only [Function.comp_apply]
    split
    · simp [AttributeText.parsed, tokenList]
    · rfl

/-! ## Putting the tree together -/

/-- An open element can be finished with what it has so far. -/
structure OpenElement.Sound (e : OpenElement) : Prop where
  tag : IsTag e.name
  attributes : DrawnAttributes e.attributes
  content : ∀ m ∈ e.content, Assembled m

/-- All that is finished is put together of tokens. -/
structure Builder.Sound (b : Builder) : Prop where
  roots : ∀ m ∈ b.roots, Assembled m
  openElements : ∀ e ∈ b.openElements, e.Sound

namespace Builder

variable {b : Builder}

theorem sound_start : start.Sound := ⟨by simp [start], by simp [start]⟩

theorem Sound.addNode {m : Markup} (h : b.Sound) (hm : Assembled m) : (b.addNode m).Sound := by
  unfold Builder.addNode
  split
  · next hnone => exact ⟨List.forall_mem_cons.mpr ⟨hm, h.roots⟩, hnone ▸ h.openElements⟩
  · next e rest hopen =>
    have helements := h.openElements
    rw [hopen] at helements
    obtain ⟨he, hrest⟩ := List.forall_mem_cons.mp helements
    have hadded : OpenElement.Sound { e with content := m :: e.content } :=
      ⟨he.tag, he.attributes, List.forall_mem_cons.mpr ⟨hm, he.content⟩⟩
    exact ⟨h.roots, List.forall_mem_cons.mpr ⟨hadded, hrest⟩⟩

theorem Sound.flush (h : b.Sound) : b.flush.Sound := by
  unfold Builder.flush
  split
  · exact h
  · exact Sound.addNode ⟨h.roots, h.openElements⟩ (.text _)

theorem Sound.openElement {name : String} {attributes : List (String × Value)} (h : b.Sound)
    (hname : IsTag name) (ha : DrawnAttributes attributes) : (b.openElement name attributes).Sound :=
  ⟨h.flush.roots, List.forall_mem_cons.mpr ⟨⟨hname, ha, by simp⟩, h.flush.openElements⟩⟩

theorem Sound.closeInnermost (h : b.Sound) : b.closeInnermost.Sound := by
  unfold Builder.closeInnermost
  split
  · exact h
  · next e rest hopen =>
    have helements := h.openElements
    rw [hopen] at helements
    obtain ⟨he, hrest⟩ := List.forall_mem_cons.mp helements
    refine Sound.addNode ⟨h.roots, hrest⟩ (.element he.tag he.attributes fun m hm => ?_)
    exact he.content m (List.mem_reverse.mp hm)

theorem Sound.closeUpTo {name : String} {elements : List OpenElement} (h : b.Sound) :
    (closeUpTo name elements b).Sound := by
  induction elements generalizing b with
  | nil => exact h
  | cons e rest ih =>
    rw [Builder.closeUpTo]
    split
    · exact h.closeInnermost
    · exact ih h.closeInnermost

theorem Sound.closeElement {name : String} (h : b.Sound) : (b.closeElement name).Sound := by
  unfold Builder.closeElement
  dsimp only
  split
  · exact h.flush.closeUpTo
  · exact h.flush

theorem Sound.endTag {name : String} (h : b.Sound) : (b.endTag name).Sound := by
  unfold Builder.endTag
  split
  · exact ⟨h.roots, h.openElements⟩
  · exact h.closeElement

/-- **Taking in a well-named token keeps all that is finished put together of tokens.** -/
theorem Sound.add {splitTokens : Bool} {t : Token} (h : b.Sound) (ht : t.WellNamed) :
    (b.add splitTokens t).Sound := by
  cases t with
  | text cs =>
    rw [Builder.add]
    split
    · exact h
    · exact ⟨h.roots, h.openElements⟩
  | other cs => exact h.flush.addNode (.other _)
  | closing name => exact h.endTag
  | opening name attributes closed =>
    have hopened : (b.openElement name _).Sound :=
      h.openElement ht.1 (drawnAttributes_split ht.2 fun attr => splitTokens && isTokenList name attr)
    rw [Builder.add]
    dsimp only
    split
    · exact hopened.closeElement
    · split
      · exact ⟨hopened.closeElement.roots, hopened.closeElement.openElements⟩
      · exact hopened

theorem Sound.foldl_add {splitTokens : Bool} {ts : List Token} (h : b.Sound)
    (hts : ∀ t ∈ ts, t.WellNamed) : (ts.foldl (Builder.add splitTokens) b).Sound := by
  induction ts generalizing b with
  | nil => exact h
  | cons t ts ih =>
    obtain ⟨ht, hts⟩ := List.forall_mem_cons.mp hts
    exact ih (h.add ht) hts

theorem Sound.closeAll {elements : List OpenElement} (h : b.Sound) :
    (elements.foldl (fun b _ => b.closeInnermost) b).Sound := by
  induction elements generalizing b with
  | nil => exact h
  | cons e rest ih => exact ih h.closeInnermost

theorem Sound.assembled_of_mem_finish (h : b.Sound) {m : Markup} (hm : m ∈ b.finish) : Assembled m :=
  h.flush.closeAll.roots m (List.mem_reverse.mp hm)

end Builder

/-- **A parsed document is assembled**, whether lists of tokens were split or not. -/
theorem assembled_of_parse {splitTokens : Bool} {html : String} {document : Markup}
    (h : parse splitTokens html = .ok document) :
    ∃ content, document = .document content ∧ ∀ m ∈ content, Assembled m := by
  obtain ⟨tokens, htokens, h⟩ := exists_ok_of_bind h
  cases h
  have hsound : (tokens.foldl (Builder.add splitTokens) Builder.start).Sound :=
    Builder.sound_start.foldl_add (wellNamed_scanAll htokens)
  exact ⟨_, rfl, fun _ hm => hsound.assembled_of_mem_finish hm⟩

end ComponentTree.Markup
