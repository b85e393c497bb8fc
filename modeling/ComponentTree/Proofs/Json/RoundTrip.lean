import ComponentTree.Data
import ComponentTree.Proofs.Data
import ComponentTree.Proofs.Json.Tokens

/-!
# Written JSON is read back

Reading undoes writing (`decoded_generate`): the JSON text of a descriptor tree, on one line or
indented in any way, reads as the data of that tree, with every kind of value and every order of
keys as it was.

A value is read inside of a longer text, so it is said of a reader that it `Reads` a value when it
takes the value and leaves what follows. The writer follows the value and the reader its nesting;
the induction is on the data, for every nesting that is enough for it.

Reading has limits of its own. It goes down `maxNesting` levels, and it keeps a number only if it is
an integer of at most `maxIntegerDigits` digits or finite. The second is what
`Value.numbersKept` asks of a value.
-/

namespace ComponentTree

namespace Value

mutual
/-- Every number in a value, at whatever place, is one that reading keeps. -/
def numbersKept : Value → Bool
  | .int n => (Nat.toDigits 10 n.natAbs).length ≤ Json.maxIntegerDigits
  | .float x => x.isFinite
  | .list items => numbersKeptItems items
  | .tuple items => numbersKeptItems items
  | .dict _ entries => numbersKeptEntries entries
  | .element type props children =>
    numbersKept type && numbersKeptEntries props && numbersKeptItems children
  | _ => true

def numbersKeptItems : List Value → Bool
  | [] => true
  | item :: items => numbersKept item && numbersKeptItems items

def numbersKeptEntries : List (Value × Value) → Bool
  | [] => true
  | (key, value) :: entries => numbersKept key && numbersKept value && numbersKeptEntries entries
end

theorem numbersKeptItems_iff {items : List Value} :
    numbersKeptItems items = true ↔ ∀ v ∈ items, v.numbersKept = true := by
  induction items with
  | nil => simp [numbersKeptItems]
  | cons item items ih => simp [numbersKeptItems, ih]

theorem numbersKeptEntries_iff {entries : Entries} :
    numbersKeptEntries entries = true ↔
      ∀ entry ∈ entries, entry.1.numbersKept = true ∧ entry.2.numbersKept = true := by
  induction entries with
  | nil => simp [numbersKeptEntries]
  | cons entry entries ih => simp [numbersKeptEntries, ih]

theorem numbersKept_ofPoints (text : Points) : (ofPoints text).numbersKept = true := by
  rcases ofPoints_cases text with ⟨s, -, h⟩ | ⟨broken, -, h⟩ <;> rw [h] <;> rfl

theorem numbersKept_dataMap {entries : List (Points × Value)}
    (h : ∀ entry ∈ entries, entry.2.numbersKept = true) : (dataMap entries).numbersKept = true := by
  show numbersKeptEntries _ = true
  rw [numbersKeptEntries_iff]
  intro entry hentry
  obtain ⟨pair, hpair, rfl⟩ := List.mem_map.mp hentry
  exact ⟨numbersKept_ofPoints _, h pair (Assoc.mem_ofPairs hpair)⟩

mutual
/-- The numbers in data are among those of the descriptor. -/
theorem numbersKept_toData :
    ∀ {v : Value}, v.numbersKept = true → v.toData.numbersKept = true
  | .null, _ => rfl
  | .bool _, _ => rfl
  | .int _, h => h
  | .float _, h => h
  | .str _, _ => rfl
  | .broken _, _ => rfl
  | .list _, h => numbersKeptItems_iff.mpr (numbersKept_toDataItems h)
  | .tuple _, h => numbersKeptItems_iff.mpr (numbersKept_toDataItems h)
  | .dict _ _, h => numbersKept_dataMap (numbersKept_toDataEntries h)
  | .element type props children, h => by
    simp only [numbersKept, Bool.and_eq_true] at h
    obtain ⟨⟨-, hprops⟩, hchildren⟩ := h
    have hprops := numbersKept_dataMap (numbersKept_toDataEntries hprops)
    have hchildren := numbersKeptItems_iff.mpr (numbersKept_toDataItems hchildren)
    simp [toData, numbersKept, numbersKeptEntries, numbersKept_ofPoints, hprops, hchildren]
  | .fragment, _ => rfl
  | .component _, _ => rfl

theorem numbersKept_toDataItems : ∀ {items : List Value}, numbersKeptItems items = true →
    ∀ v ∈ toDataItems items, v.numbersKept = true
  | [], _, _, hv => nomatch hv
  | item :: items, h, v, hv => by
    simp only [numbersKeptItems, Bool.and_eq_true] at h
    rcases List.mem_cons.mp hv with rfl | hv
    · exact numbersKept_toData h.1
    · exact numbersKept_toDataItems h.2 v hv

theorem numbersKept_toDataEntries : ∀ {entries : Entries}, numbersKeptEntries entries = true →
    ∀ entry ∈ toDataEntries entries, entry.2.numbersKept = true
  | [], _, _, hv => nomatch hv
  | (key, value) :: entries, h, entry, hentry => by
    simp only [numbersKeptEntries, Bool.and_eq_true] at h
    rcases List.mem_cons.mp hentry with rfl | hentry
    · exact numbersKept_toData h.1.2
    · exact numbersKept_toDataEntries h.2 entry hentry
end

end Value

namespace Json

open NumberLiteral

variable {indent : Indent} {level n : Nat} {rest : Points}

/-- A text that begins with neither a blank nor the end of a list. -/
abbrev StartsItem (text : Points) : Prop :=
  StartsWithout (fun p => isBlank p || p == .char ']') text

theorem StartsItem.noBlank {text : Points} (h : StartsItem text) : StartsWithout isBlank text :=
  h.imp fun p hp => by simp [hp]

theorem startsItem_of_startsNumber {text : List Char} (h : StartsNumber text) (rest : Points) :
    StartsItem (Points.ofChars text ++ rest) := by
  obtain ⟨c, more, rfl, hc⟩ := h
  apply StartsWithout.cons
  rcases hc with hc | rfl
  · by_contra hblank
    simp only [isBlank, CodePoint.is, Bool.not_eq_false, Bool.or_eq_true, beq_iff_eq,
      CodePoint.char.injEq] at hblank
    rcases hblank with (((rfl | rfl) | rfl) | rfl) | rfl <;> cases hc
  · rfl

/-- What a reader does with a written value: it takes the value and leaves what follows, unless a
number could go on in that. -/
structure Reads (indent : Indent) (level : Nat) (read : Points → Option (Value × Points))
    (v : Value) : Prop where
  starts : ∀ rest, StartsItem (write indent level v rest)
  length : ∀ rest, rest.length < (write indent level v rest).length
  value : ∀ {rest}, NumberStops rest → read (write indent level v rest) = some (v, rest)

variable {read : Points → Option (Value × Points)} {cs : Points} {v : Value}

theorem Reads.progress (h : Reads indent level read v) (hrest : NumberStops rest)
    (hcs : cs = write indent level v rest) :
    ∃ hlt, Json.progress read cs = some (v, ⟨rest, hlt⟩) := by
  subst hcs
  refine ⟨h.length rest, ?_⟩
  rw [Json.progress, h.value hrest]
  simp only [dif_pos (h.length rest)]

/-! ## Scalars -/

theorem reads_null : Reads indent level (value? n) .null where
  starts _ := .cons rfl
  length rest := by
    show rest.length < rest.length + 4
    omega
  value _ := by cases n <;> rfl

theorem reads_bool (b : Bool) : Reads indent level (value? n) (.bool b) where
  starts _ := by cases b <;> exact .cons rfl
  length rest := by
    cases b with
    | true =>
      show rest.length < rest.length + 4
      omega
    | false =>
      show rest.length < rest.length + 5
      omega
  value _ := by cases b <;> cases n <;> rfl

theorem value?_of_startsNumber {text : List Char} (h : StartsNumber text) (rest : Points) :
    value? n (Points.ofChars text ++ rest) = number? (Points.ofChars text ++ rest) := by
  obtain ⟨c, more, rfl, hc⟩ := h
  have hne : ∀ mark : Char, mark.isDigit = false → mark ≠ '-' → c ≠ mark := by
    rintro mark hdigit hminus rfl
    rcases hc with hc | hc
    · rw [hdigit] at hc
      cases hc
    · exact hminus hc
  rw [Points.ofChars_cons, List.cons_append]
  generalize Points.ofChars more ++ rest = more
  have hword : word? (.char c :: more) = none := by
    have hn : c ≠ 'n' := hne 'n' rfl (by decide)
    have ht : c ≠ 't' := hne 't' rfl (by decide)
    have hf : c ≠ 'f' := hne 'f' rfl (by decide)
    simp [word?, words, after?, hn, ht, hf]
  have hvalue : value? n (.char c :: more) = (word? (.char c :: more)).or (number? (.char c :: more)) := by
    have hhead : ∀ {mark : Char} {rest}, CodePoint.char c :: more = .char mark :: rest → c = mark :=
      fun h => CodePoint.char.inj (List.cons.inj h).1
    unfold value?
    split
    · next h => exact absurd (hhead h) (hne '"' rfl (by decide))
    · next h => exact absurd (hhead h) (hne '[' rfl (by decide))
    · next h => exact absurd (hhead h) (hne '\x7b' rfl (by decide))
    · rfl
  rw [hvalue, hword, Option.none_or]

theorem write_ofPoints (text rest : Points) : write indent level (.ofPoints text) rest = writeString text rest := by
  rcases Value.ofPoints_cases text with ⟨s, rfl, h⟩ | ⟨broken, rfl, h⟩
  · rw [h]
    rfl
  · rw [h]
    rfl

theorem reads_text (text : Points) : Reads indent level (value? n) (.ofPoints text) where
  starts _ := by
    rw [write_ofPoints]
    exact .cons rfl
  length rest := by
    rw [write_ofPoints]
    exact length_writeString text rest
  value {rest} _ := by
    rw [write_ofPoints]
    show value? n (.char '"' :: (text.flatMap escaped ++ .char '"' :: rest)) = _
    unfold value?
    simp [stringBody_flatMap_escaped]

theorem reads_number {text : List Char}
    (hwrite : ∀ rest, write indent level v rest = Points.ofChars text ++ rest)
    (hstarts : StartsNumber text)
    (hnumber : ∀ {rest}, NumberStops rest → number? (Points.ofChars text ++ rest) = some (v, rest)) :
    Reads indent level (value? n) v where
  starts rest := by
    rw [hwrite]
    exact startsItem_of_startsNumber hstarts rest
  length rest := by
    obtain ⟨c, more, rfl, -⟩ := hstarts
    rw [hwrite, Points.ofChars_cons, List.cons_append, List.length_cons, List.length_append]
    omega
  value {rest} hrest := by
    rw [hwrite, value?_of_startsNumber hstarts]
    exact hnumber hrest

/-! ## Lists -/

theorem write_list_cons (items : List Value) :
    write indent level (.list (v :: items)) rest =
      .char '[' :: newLine indent (level + 1) (write indent (level + 1) v
        (writeItems indent (level + 1) items (newLine indent level (.char ']' :: rest)))) := rfl

theorem writeItems_cons (items : List Value) :
    writeItems indent level (v :: items) rest =
      separator indent level (write indent level v (writeItems indent level items rest)) := rfl

theorem length_writeItems {items : List Value} (h : ∀ v ∈ items, Reads indent level read v)
    (rest : Points) : rest.length ≤ (writeItems indent level items rest).length := by
  induction items with
  | nil => exact Nat.le_refl _
  | cons item items ih =>
    have hitems := ih fun v hv => h v (List.mem_cons_of_mem _ hv)
    have hitem := (h item List.mem_cons_self).length (writeItems indent level items rest)
    have hseparator :=
      length_separator indent level (write indent level item (writeItems indent level items rest))
    rw [writeItems_cons]
    omega

theorem numberStops_writeItems (items : List Value) (h : NumberStops rest) :
    NumberStops (writeItems indent level items rest) := by
  cases items with
  | nil => exact h
  | cons item items => exact numberStops_separator level

theorem items_last {reader : Reader Value} {left : {rest : Points // rest.length < (skip cs).length}}
    (h : reader (skip cs) = some (v, left)) (hend : skip left.val = .char ']' :: rest) :
    items reader cs = some ([v], rest) := by
  rw [items, h]
  dsimp only
  split <;> simp_all

theorem items_more {reader : Reader Value} {left : {rest : Points // rest.length < (skip cs).length}}
    (h : reader (skip cs) = some (v, left)) (hmore : skip left.val = .char ',' :: rest) :
    items reader cs = (items reader rest).map fun (values, rest) => (v :: values, rest) := by
  rw [items, h]
  dsimp only
  split <;> simp_all

/-- The items of a list are read one by one, up to the bracket that closes the list. -/
theorem items_writeItems (hindent : indent.Blank) (up : Nat) {items : List Value} :
    ∀ {item : Value} {cs : Points}, (∀ v ∈ item :: items, Reads indent level read v) →
      skip cs = write indent level item
        (writeItems indent level items (newLine indent up (.char ']' :: rest))) →
      Json.items (progress read) cs = some (item :: items, rest) := by
  have hbracket : NumberStops (newLine indent up (.char ']' :: rest)) := numberStops_newLine up (.cons rfl)
  induction items with
  | nil =>
    intro item cs hreads hcs
    obtain ⟨hlt, hitem⟩ := (hreads item (by simp)).progress hbracket hcs
    exact items_last hitem (skip_newLine hindent up (.cons rfl))
  | cons next items ih =>
    intro item cs hreads hcs
    obtain ⟨hlt, hitem⟩ :=
      (hreads item (by simp)).progress (numberStops_writeItems (next :: items) hbracket) hcs
    obtain ⟨gap, hgap, hseparator⟩ := exists_gap_separator hindent level
    have hnext := (hreads next (by simp)).starts
      (writeItems indent level items (newLine indent up (.char ']' :: rest)))
    have hcomma := congrArg skip (hseparator (write indent level next
      (writeItems indent level items (newLine indent up (.char ']' :: rest)))))
    rw [items_more hitem hcomma,
      ih (fun v hv => hreads v (List.mem_cons_of_mem _ hv)) (skip_append gap hgap hnext.noBlank)]
    rfl

theorem value?_list (h : StartsItem (skip cs)) :
    value? (n + 1) (.char '[' :: cs) =
      (items (progress (value? n)) (skip cs)).map fun (values, rest) => (.list values, rest) := by
  rw [value?]
  split
  · next hend =>
    rw [hend] at h
    cases h (.char ']') rfl
  · rfl

theorem reads_list (hindent : indent.Blank) {items : List Value}
    (h : ∀ v ∈ items, Reads indent (level + 1) (value? n) v) :
    Reads indent level (value? (n + 1)) (.list items) := by
  cases items with
  | nil =>
    refine ⟨fun _ => .cons rfl, fun rest => ?_, fun _ => rfl⟩
    show rest.length < rest.length + 2
    omega
  | cons item items =>
    have hitem := h item List.mem_cons_self
    have hitems : ∀ v ∈ items, Reads indent (level + 1) (value? n) v :=
      fun v hv => h v (List.mem_cons_of_mem _ hv)
    refine ⟨fun _ => .cons rfl, fun rest => ?_, fun {rest} _ => ?_⟩
    · have h1 := length_newLine indent level (.char ']' :: rest)
      have h2 := length_writeItems hitems (newLine indent level (.char ']' :: rest))
      have h3 := hitem.length (writeItems indent (level + 1) items (newLine indent level (.char ']' :: rest)))
      have h4 := length_newLine indent (level + 1) (write indent (level + 1) item
        (writeItems indent (level + 1) items (newLine indent level (.char ']' :: rest))))
      rw [write_list_cons, List.length_cons]
      rw [List.length_cons] at h1
      omega
    · have hstarts := hitem.starts
        (writeItems indent (level + 1) items (newLine indent level (.char ']' :: rest)))
      have hskip := skip_newLine hindent (level + 1) hstarts.noBlank
      rw [write_list_cons, value?_list (by rwa [hskip]), hskip,
        items_writeItems hindent level h (skip_of_starts hstarts.noBlank)]
      rfl

/-! ## Maps -/

open Value (keyed)

theorem write_map_cons (name : Points) (pairs : List (Points × Value)) :
    write indent level (.dict none (keyed ((name, v) :: pairs))) rest =
      .char '\x7b' :: newLine indent (level + 1) (writeString name
        (.char ':' :: .char ' ' :: write indent (level + 1) v (writeEntries indent (level + 1) (keyed pairs)
          (newLine indent level (.char '\x7d' :: rest))))) := by
  rw [keyed, List.map_cons, write, Value.points_ofPoints]

theorem writeEntries_cons (name : Points) (pairs : List (Points × Value)) :
    writeEntries indent level (keyed ((name, v) :: pairs)) rest =
      separator indent level (writeString name (.char ':' :: .char ' ' :: write indent level v
        (writeEntries indent level (keyed pairs) rest))) := by
  rw [keyed, List.map_cons, writeEntries, Value.points_ofPoints]

theorem Reads.length_member (h : Reads indent level read v) (name : Points) (rest : Points) :
    rest.length < (writeString name (.char ':' :: .char ' ' :: write indent level v rest)).length := by
  have hvalue := h.length rest
  have hname := length_writeString name (.char ':' :: .char ' ' :: write indent level v rest)
  simp only [List.length_cons] at hname
  omega

theorem length_writeEntries {pairs : List (Points × Value)}
    (h : ∀ pair ∈ pairs, Reads indent level read pair.2) (rest : Points) :
    rest.length ≤ (writeEntries indent level (keyed pairs) rest).length := by
  induction pairs with
  | nil => exact Nat.le_refl _
  | cons pair pairs ih =>
    obtain ⟨name, value⟩ := pair
    have hpairs := ih fun pair hpair => h pair (List.mem_cons_of_mem _ hpair)
    have hvalue : Reads indent level read value := h (name, value) List.mem_cons_self
    have hmember := hvalue.length_member name (writeEntries indent level (keyed pairs) rest)
    have hseparator := length_separator indent level (writeString name (.char ':' :: .char ' ' ::
      write indent level value (writeEntries indent level (keyed pairs) rest)))
    rw [writeEntries_cons]
    omega

theorem numberStops_writeEntries (entries : Entries) (h : NumberStops rest) :
    NumberStops (writeEntries indent level entries rest) := by
  cases entries with
  | nil => exact h
  | cons entry entries => exact numberStops_separator level

theorem progress_key? {name : Points} (h : skip cs = writeString name (.char ':' :: rest)) :
    ∃ hlt, progress key? cs = some (name, ⟨rest, hlt⟩) := by
  have hkey : key? cs = some (name, rest) := by
    rw [key?, h, string?_writeString]
    rfl
  have hlt : rest.length < cs.length := by
    have hskip := length_skip_le cs
    have hname := length_writeString name (.char ':' :: rest)
    rw [List.length_cons] at hname
    rw [h] at hskip
    omega
  refine ⟨hlt, ?_⟩
  rw [progress, hkey]
  simp only [dif_pos hlt]

variable {name : Points} {tail : {rest : Points // rest.length < cs.length}}

theorem members_last {reader : Reader Value} {cs' : Points}
    {left : {rest : Points // rest.length < cs'.length}}
    (hkey : progress key? cs = some (name, tail)) (hskip : skip tail.val = cs')
    (h : reader cs' = some (v, left)) (hend : skip left.val = .char '\x7d' :: rest) :
    members reader cs = some ([(name, v)], rest) := by
  subst hskip
  rw [members, hkey]
  dsimp only
  rw [h]
  dsimp only
  split <;> simp_all

theorem members_more {reader : Reader Value} {cs' : Points}
    {left : {rest : Points // rest.length < cs'.length}}
    (hkey : progress key? cs = some (name, tail)) (hskip : skip tail.val = cs')
    (h : reader cs' = some (v, left)) (hmore : skip left.val = .char ',' :: rest) :
    members reader cs =
      (members reader rest).map fun (pairs, rest) => ((name, v) :: pairs, rest) := by
  subst hskip
  rw [members, hkey]
  dsimp only
  rw [h]
  dsimp only
  split <;> simp_all

/-- The members of a map are read one by one, up to the brace that closes the map. -/
theorem members_writeEntries (hindent : indent.Blank) (up : Nat) {pairs : List (Points × Value)} :
    ∀ {name : Points} {v : Value} {cs : Points},
      (∀ pair ∈ (name, v) :: pairs, Reads indent level read pair.2) →
      skip cs = writeString name (.char ':' :: .char ' ' :: write indent level v
        (writeEntries indent level (keyed pairs) (newLine indent up (.char '\x7d' :: rest)))) →
      members (progress read) cs = some ((name, v) :: pairs, rest) := by
  have hbrace : NumberStops (newLine indent up (.char '\x7d' :: rest)) := numberStops_newLine up (.cons rfl)
  induction pairs with
  | nil =>
    intro name v cs hreads hcs
    have hvalue : Reads indent level read v := hreads (name, v) (by simp)
    obtain ⟨hlt, hread⟩ := hvalue.progress hbrace rfl
    obtain ⟨_, hname⟩ := progress_key? hcs
    exact members_last hname (skip_append [.char ' '] (by simp [isBlank, CodePoint.is])
      (hvalue.starts _).noBlank) hread (skip_newLine hindent up (.cons rfl))
  | cons next pairs ih =>
    intro name v cs hreads hcs
    obtain ⟨name', value'⟩ := next
    have hvalue : Reads indent level read v := hreads (name, v) (by simp)
    obtain ⟨hlt, hread⟩ :=
      hvalue.progress (numberStops_writeEntries (keyed ((name', value') :: pairs)) hbrace) rfl
    obtain ⟨_, hname⟩ := progress_key? hcs
    obtain ⟨gap, hgap, hseparator⟩ := exists_gap_separator hindent level
    have hcomma : skip (writeEntries indent level (keyed ((name', value') :: pairs))
        (newLine indent up (.char '\x7d' :: rest))) = _ :=
      congrArg skip ((writeEntries_cons name' pairs).trans (hseparator _))
    rw [members_more hname (skip_append [.char ' '] (by simp [isBlank, CodePoint.is])
        (hvalue.starts _).noBlank) hread hcomma,
      ih (fun pair hpair => hreads pair (List.mem_cons_of_mem _ hpair))
        (skip_append gap hgap (.cons rfl))]
    rfl

theorem value?_map (h : StartsWithout (· == .char '\x7d') (skip cs)) :
    value? (n + 1) (.char '\x7b' :: cs) =
      (members (progress (value? n)) (skip cs)).map fun (pairs, rest) => (ofMembers pairs, rest) := by
  rw [value?]
  split
  · next hend =>
    rw [hend] at h
    cases h (.char '\x7d') rfl
  · rfl

/-- Members with distinct names are the map that they make. -/
theorem ofMembers_eq {pairs : List (Points × Value)} (h : (pairs.map Prod.fst).Nodup) :
    ofMembers pairs = .dict none (keyed pairs) := by
  rw [ofMembers, Assoc.ofPairs_of_nodup h]

theorem reads_map (hindent : indent.Blank) {pairs : List (Points × Value)}
    (hkeys : (pairs.map Prod.fst).Nodup)
    (h : ∀ pair ∈ pairs, Reads indent (level + 1) (value? n) pair.2) :
    Reads indent level (value? (n + 1)) (.dict none (keyed pairs)) := by
  cases pairs with
  | nil =>
    refine ⟨fun _ => .cons rfl, fun rest => ?_, fun _ => rfl⟩
    show rest.length < rest.length + 2
    omega
  | cons pair pairs =>
    obtain ⟨name, value⟩ := pair
    have hvalue : Reads indent (level + 1) (value? n) value := h (name, value) List.mem_cons_self
    have hpairs : ∀ pair ∈ pairs, Reads indent (level + 1) (value? n) pair.2 :=
      fun pair hpair => h pair (List.mem_cons_of_mem _ hpair)
    refine ⟨fun _ => by rw [write_map_cons]; exact .cons rfl, fun rest => ?_, fun {rest} _ => ?_⟩
    · have h1 := length_newLine indent level (.char '\x7d' :: rest)
      have h2 := length_writeEntries hpairs (newLine indent level (.char '\x7d' :: rest))
      have h3 := hvalue.length_member name
        (writeEntries indent (level + 1) (keyed pairs) (newLine indent level (.char '\x7d' :: rest)))
      have h4 := length_newLine indent (level + 1) (writeString name (.char ':' :: .char ' ' ::
        write indent (level + 1) value (writeEntries indent (level + 1) (keyed pairs)
          (newLine indent level (.char '\x7d' :: rest)))))
      rw [write_map_cons, List.length_cons]
      rw [List.length_cons] at h1
      omega
    · have hquote : ∀ kind : CodePoint → Bool, kind (.char '"') = false →
          StartsWithout kind (writeString name (.char ':' :: .char ' ' :: write indent (level + 1) value
            (writeEntries indent (level + 1) (keyed pairs)
              (newLine indent level (.char '\x7d' :: rest))))) := fun _ hkind => .cons hkind
      have hskip := skip_newLine hindent (level + 1) (hquote isBlank rfl)
      rw [write_map_cons, value?_map (by rw [hskip]; exact hquote _ rfl), hskip,
        members_writeEntries hindent level h (skip_of_starts (hquote isBlank rfl))]
      simp only [Option.map_some, ofMembers_eq hkeys]

/-! ## Descriptors -/

theorem nesting_le_of_mem {items : List Value} {v : Value} (h : v ∈ items) :
    v.nesting ≤ Value.nestingOfItems items := by
  induction items with
  | nil => cases h
  | cons item items ih =>
    rw [Value.nestingOfItems]
    rcases List.mem_cons.mp h with rfl | h
    · exact Nat.le_max_left _ _
    · exact Nat.le_trans (ih h) (Nat.le_max_right _ _)

theorem nesting_le_of_mem_entries {entries : Entries} {entry : Value × Value} (h : entry ∈ entries) :
    entry.2.nesting ≤ Value.nestingOfEntries entries := by
  induction entries with
  | nil => cases h
  | cons next entries ih =>
    rw [Value.nestingOfEntries]
    rcases List.mem_cons.mp h with rfl | h
    · exact Nat.le_max_left _ _
    · exact Nat.le_trans (ih h) (Nat.le_max_right _ _)

/-- Data is read by a reader that goes down far enough, if its numbers are kept. -/
theorem reads_data (hindent : indent.Blank) (hdata : v.IsData) (hkept : v.numbersKept = true)
    (hnesting : v.nesting ≤ n) : Reads indent level (value? n) v := by
  induction hdata generalizing level n with
  | null => exact reads_null
  | bool b => exact reads_bool b
  | int k =>
    exact reads_number (fun _ => rfl) (startsNumber_integerText k)
      (number?_integerText (of_decide_eq_true hkept))
  | float x => exact reads_number (fun _ => rfl) (startsNumber_text _ hkept) (number?_text hkept)
  | str s => exact Value.ofPoints_ofString s ▸ reads_text s
  | broken text => exact Value.ofPoints_broken text ▸ reads_text text.points
  | list hitems ih =>
    rw [Value.nesting] at hnesting
    obtain ⟨n, rfl⟩ : ∃ m, n = m + 1 := ⟨n - 1, by omega⟩
    apply reads_list hindent
    intro v hv
    have hle := nesting_le_of_mem hv
    exact ih v hv (Value.numbersKeptItems_iff.mp hkept v hv) (by omega)
  | map hkeys hvalues ih =>
    rw [Value.nesting] at hnesting
    obtain ⟨n, rfl⟩ : ∃ m, n = m + 1 := ⟨n - 1, by omega⟩
    apply reads_map hindent hkeys
    intro pair hpair
    have hentry : (.ofPoints pair.1, pair.2) ∈ keyed _ := List.mem_map_of_mem hpair
    have hle : pair.2.nesting ≤ _ := nesting_le_of_mem_entries hentry
    exact ih pair hpair (Value.numbersKeptEntries_iff.mp hkept _ hentry).2 (by omega)

end Json

/-- **Reading undoes writing.** The text of a descriptor tree reads as its data, on one line and
under every indentation by blanks, as long as the reader keeps the numbers and goes down to the last
level. -/
theorem decoded_generate {indent : Json.Indent} {descriptor : Value} (hindent : indent.Blank)
    (hkept : descriptor.numbersKept = true)
    (hnesting : descriptor.toData.nesting ≤ Json.maxNesting) :
    Value.decoded (.ofPoints (generate indent descriptor)) = descriptor.toData := by
  have hreads : Json.Reads indent 0 (Json.value? Json.maxNesting) descriptor.toData :=
    Json.reads_data hindent (Value.isData_toData descriptor) (Value.numbersKept_toData hkept) hnesting
  have hread : Json.read (generate indent descriptor) = some descriptor.toData := by
    rw [Json.read, generate, Json.text, Json.skip_of_starts (hreads.starts []).noBlank, hreads.value .nil]
    rfl
  rw [Value.decoded_ofPoints, hread, Option.getD_some]

/-- A card with a component of the host, keys that become equal texts, a negative zero, a tenth and
characters that have to be escaped. -/
def keptCard : Value :=
  .element (.component ⟨1, "<Card>", some "Card", false⟩)
    [(.str "title", .str "a \"b\"\n\t\\ \x01 é"), (.int 1, .tuple [.float (.number true 0), .null]),
      (.str "1", .dict none [(.fragment, .float (.number false 4591870180066957722))])]
    [.element .fragment [] [.str "", .bool true], .int (-12), .list []]

theorem decoded_generate_keptCard :
    (Json.Indent.spaces 2).Blank ∧ keptCard.numbersKept = true ∧
      keptCard.toData.nesting ≤ Json.maxNesting ∧
      Value.decoded (.ofPoints (generate (.spaces 2) keptCard)) = keptCard.toData := by
  have hkept : keptCard.numbersKept = true := by decide
  have hnesting : keptCard.toData.nesting ≤ Json.maxNesting := by decide
  have hindent := Json.Indent.blank_spaces 2
  exact ⟨hindent, hkept, hnesting, decoded_generate hindent hkept hnesting⟩

end ComponentTree
