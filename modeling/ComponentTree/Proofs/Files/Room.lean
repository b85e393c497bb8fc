import ComponentTree.Proofs.Files.Text
import ComponentTree.Proofs.Text.Pieces
import Mathlib.Data.List.DropRight

/-!
# Room that is there already

If a path leads anywhere, then the directory that it lies in is there, and so are all above it. So there
is no room to be made: nothing is changed, and nothing refused (`makeRoom_of_resolve`).

The steps of a path are its names, the pieces between its slashes. How many slashes stand in a row makes
no difference to the names, so those of the directory part are a row of names that the path starts with.
-/

namespace ComponentTree

open Disk (splitLast splitName)

/-! ## The directory part of a path -/

namespace Disk

theorem splitLast_fst (path : List Char) :
    (splitLast path).1 =
      if ((path.rdropWhile (· != '/')).rdropWhile (· == '/')).isEmpty then path.rdropWhile (· != '/')
      else (path.rdropWhile (· != '/')).rdropWhile (· == '/') := rfl

theorem splitLast_snd (path : List Char) : (splitLast path).2 = path.rtakeWhile (· != '/') := rfl

/-- A path is its directory part, slashes and a name. There are slashes between the two, unless the
directory part is nothing but slashes itself. -/
theorem exists_gap_splitLast (path : List Char) :
    ∃ gap, path = (splitLast path).1 ++ gap ++ (splitLast path).2 ∧ (∀ c ∈ gap, c = '/') ∧
      (gap = [] → ∀ c ∈ (splitLast path).1, c = '/') := by
  have hcut : path.rdropWhile (· != '/') ++ path.rtakeWhile (· != '/') = path :=
    List.rdropWhile_append_rtakeWhile ..
  have hlast := List.rdropWhile_last_not (· != '/') path
  rw [splitLast_fst, splitLast_snd]
  -- the part up to the last slash ends with a slash, if it is not empty
  generalize path.rdropWhile (· != '/') = head at hcut hlast ⊢
  by_cases htrimmed : head.rdropWhile (· == '/') = []
  · have hslashes : ∀ c ∈ head, c = '/' := by simpa using htrimmed
    rw [if_pos (by simp [htrimmed])]
    exact ⟨[], by rw [List.append_nil, hcut], List.forall_mem_nil _, fun _ => hslashes⟩
  · rw [if_neg (by simpa using htrimmed)]
    refine ⟨head.rtakeWhile (· == '/'), by rw [List.rdropWhile_append_rtakeWhile, hcut],
      fun c hc => by simpa using List.mem_rtakeWhile_imp hc, fun hgap => ?_⟩
    have hne : head ≠ [] := fun hnil => htrimmed (by rw [hnil, List.rdropWhile_nil])
    have hslash := hlast hne
    exact absurd (by simpa using hslash) (List.rtakeWhile_eq_nil_iff.mp hgap hne)

end Disk

namespace FileTree

variable {tree : FileTree} {place start' : List String} {path : List Char}

/-! ## The names of a path -/

/-- The names between the slashes of a path. -/
def names (path : List Char) : List String := (Text.pieces (· == '/') path).map String.ofList

theorem steps_ofList (path : List Char) :
    steps (String.ofList path) =
      if path.getLast? = some '/' then names path ++ ["."] else names path := by
  rw [steps, String.toList_ofList]
  rfl

theorem names_append_slashes {slashes : List Char} (h : ∀ c ∈ slashes, c = '/') (path : List Char) :
    names (path ++ slashes) = names path := by
  rw [names, Text.pieces_append_gap (by simpa using h), names]

/-- The directory part gives all names but the last one. -/
theorem names_splitLast (path : List Char) :
    names path = names (splitLast path).1 ++ names (splitLast path).2 := by
  obtain ⟨gap, hpath, hgap, htop⟩ := Disk.exists_gap_splitLast path
  generalize splitLast path = parts at hpath htop
  subst hpath
  by_cases hnil : gap = []
  · have htop := htop hnil
    have hnone : names parts.1 = [] := by
      rw [names, Text.pieces_eq_nil_iff.mpr (by simpa using htop), List.map_nil]
    rw [hnone, hnil, List.append_nil, names, Text.pieces_gap_append (by simpa using htop), names]
    rfl
  · rw [names, Text.pieces_append_gap_append hnil (by simpa using hgap), List.map_append, names, names]

/-- The last step is not among the names of the directory part: it is taken to the name, or on the spot. -/
theorem exists_step_splitLast (hne : path ≠ []) :
    ∃ step, steps (String.ofList path) = names (splitLast path).1 ++ [step] := by
  have hlast : path.getLast? = some '/' ↔ (splitLast path).2 = [] := by
    rw [Disk.splitLast_snd, List.rtakeWhile_eq_nil_iff, List.getLast?_eq_some_getLast hne]
    simp [hne]
  rw [steps_ofList, names_splitLast]
  by_cases hname : (splitLast path).2 = []
  · refine ⟨".", ?_⟩
    rw [if_pos (hlast.mpr hname), hname, List.append_assoc]
    rfl
  · refine ⟨String.ofList (splitLast path).2, ?_⟩
    have hpiece : names (splitLast path).2 = [String.ofList (splitLast path).2] := by
      have hslash : ∀ c ∈ (splitLast path).2, (c == '/') = false :=
        fun c hc => by simpa using List.mem_rtakeWhile_imp hc
      rw [names, Text.pieces_eq_singleton hname hslash]
      rfl
    rw [if_neg (mt hlast.mp hname), hpiece]

/-! ## Ways along names -/

theorem walk_append {names names' : List String} :
    tree.walk start' (names ++ names') = (tree.walk start' names).bind (tree.walk · names') := by
  induction names generalizing start' with
  | nil => rfl
  | cons name names ih =>
    rw [List.cons_append, walk, walk]
    split
    · rfl
    · rfl
    · split
      · rfl
      · exact ih

/-- A way with one more step goes through a directory. -/
theorem exists_directory_of_walk {names : List String} {step : String}
    (h : tree.walk start' (names ++ [step]) = .ok place) :
    ∃ directory, tree.walk start' names = .ok directory ∧ tree.at? directory = some .directory ∧
      place = next directory step := by
  rw [walk_append] at h
  cases hwalk : tree.walk start' names with
  | error cause => rw [hwalk] at h; cases h
  | ok directory =>
    rw [hwalk] at h
    dsimp only [Except.bind] at h
    rw [walk] at h
    split at h
    · cases h
    · cases h
    · next hdirectory =>
      split at h
      · cases h
      · exact ⟨directory, rfl, hdirectory, (Except.ok.inj h).symm⟩

/-- The names of a path lead where the path leads: the step on the spot adds nothing. -/
theorem walk_names (h : tree.walk start' (steps (String.ofList path)) = .ok place) :
    tree.walk start' (names path) = .ok place := by
  rw [steps_ofList] at h
  split at h
  · obtain ⟨directory, hwalk, -, rfl⟩ := exists_directory_of_walk h
    exact hwalk
  · exact h

/-- Where names lead to a directory, a slash at the end makes no difference. -/
theorem walk_steps (h : tree.walk start' (names path) = .ok place)
    (hplace : tree.at? place = some .directory) :
    tree.walk start' (steps (String.ofList path)) = .ok place := by
  rw [steps_ofList]
  split
  · rw [walk_append, h]
    dsimp only [Except.bind]
    rw [walk, hplace]
    rfl
  · exact h

/-! ## The directory part leads to a directory -/

/-- A path that starts like another one leads from the same place. -/
theorem start_append (hne : path ≠ []) (rest : List Char) :
    start (String.ofList (path ++ rest)) = start (String.ofList path) := by
  obtain ⟨c, path, rfl⟩ := List.exists_cons_of_ne_nil hne
  have hstarts : (String.ofList (c :: path ++ rest)).startsWith "/" =
      (String.ofList (c :: path)).startsWith "/" := by
    rw [Bool.eq_iff_iff, String.startsWith_string_iff, String.startsWith_string_iff,
      String.toList_ofList, String.toList_ofList]
    simp
  rw [start, hstarts, start]

/-- What makes a path lead nowhere stays in it when it goes on. -/
theorem refusal?_of_append {rest : List Char} (hne : path ≠ [])
    (h : refusal? (String.ofList (path ++ rest)) = none) : refusal? (String.ofList path) = none := by
  rw [refusal?] at h ⊢
  split_ifs at h with hnull hempty hlong
  have hnull' : ¬ (String.ofList path).contains '\x00' = true := by
    rw [String.contains_char_eq, String.toList_ofList, decide_eq_true_eq] at hnull ⊢
    exact fun hmem => hnull (List.mem_append_left rest hmem)
  have hempty' : ¬ (String.ofList path).isEmpty = true := by
    rw [String.isEmpty_iff, ← String.toList_inj, String.toList_ofList]
    exact hne
  have hlong' : ¬ maxPathBytes < (String.ofList path).utf8ByteSize := by
    rw [String.ofList_append, String.utf8ByteSize_append] at hlong
    omega
  rw [if_neg hnull', if_neg hempty', if_neg hlong']

/-- The directory part of a path that leads anywhere leads to a directory. -/
theorem resolve_splitLast (h : tree.resolve (String.ofList path) = .ok place)
    (hne : (splitLast path).1 ≠ []) :
    ∃ directory, tree.resolve (String.ofList (splitLast path).1) = .ok directory ∧
      tree.at? directory = some .directory := by
  obtain ⟨gap, hpath, -⟩ := Disk.exists_gap_splitLast path
  rw [List.append_assoc] at hpath
  have hpathne : path ≠ [] := by
    rw [hpath]
    exact List.append_ne_nil_of_left_ne_nil hne _
  rw [resolve] at h
  cases hrefusal : refusal? (String.ofList path) with
  | some cause => rw [hrefusal] at h; cases h
  | none =>
    rw [hrefusal] at h
    dsimp only at h
    obtain ⟨step, hsteps⟩ := exists_step_splitLast hpathne
    rw [hsteps] at h
    obtain ⟨directory, hwalk, hdirectory, -⟩ := exists_directory_of_walk h
    have hstart : start (String.ofList path) = start (String.ofList (splitLast path).1) := by
      conv_lhs => rw [hpath]
      exact start_append hne _
    have hnone : refusal? (String.ofList (splitLast path).1) = none :=
      refusal?_of_append hne (hpath ▸ hrefusal)
    refine ⟨directory, ?_, hdirectory⟩
    rw [resolve, hnone]
    exact walk_steps (hstart ▸ hwalk) hdirectory

theorem resolve_splitName (h : tree.resolve (String.ofList path) = .ok place)
    (hne : (splitName path).1 ≠ []) :
    ∃ directory, tree.resolve (String.ofList (splitName path).1) = .ok directory ∧
      tree.at? directory = some .directory := by
  have hname : splitName path =
      if (splitLast path).2.isEmpty then splitLast (splitLast path).1 else splitLast path := rfl
  rw [hname] at hne ⊢
  split at hne
  · next hempty =>
    rw [if_pos hempty]
    -- what is left is not empty, so there was something before
    have hhead : (splitLast path).1 ≠ [] := fun hnil => hne (by rw [hnil]; rfl)
    obtain ⟨directory, hresolve, -⟩ := resolve_splitLast h hhead
    exact resolve_splitLast hresolve hne
  · next hempty =>
    rw [if_neg hempty]
    exact resolve_splitLast h hne

/-! ## Directories that are there -/

theorem find?_of_resolve {path : String} (h : tree.resolve path = .ok place) :
    tree.find? path = tree.at? place := by
  rw [find?, h]

theorem steps_withoutFinalSlashes (path : List Char) :
    steps (withoutFinalSlashes (String.ofList path)) = names path := by
  have hshort : withoutFinalSlashes (String.ofList path) =
      String.ofList (path.rdropWhile (· == '/')) := by
    rw [withoutFinalSlashes, String.toList_ofList]
    rfl
  have hlast : (path.rdropWhile (· == '/')).getLast? ≠ some '/' := by
    by_cases hne : path.rdropWhile (· == '/') = []
    · simp [hne]
    · rw [List.getLast?_eq_some_getLast hne]
      simpa using List.rdropWhile_last_not (· == '/') path hne
  have hslashes : ∀ c ∈ path.rtakeWhile (· == '/'), c = '/' :=
    fun c hc => by simpa using List.mem_rtakeWhile_imp hc
  rw [hshort, steps_ofList, if_neg hlast, ← names_append_slashes hslashes,
    List.rdropWhile_append_rtakeWhile]

theorem makeDirectory_of_resolve (h : tree.resolve (String.ofList path) = .ok place)
    (hplace : tree.at? place = some .directory) :
    tree.makeDirectory (String.ofList path) = .error .exists := by
  rw [resolve] at h
  rw [makeDirectory]
  split at h
  · cases h
  · next hrefusal =>
    rw [steps_withoutFinalSlashes, walk_names h]
    dsimp only [bind, Except.bind]
    rw [hplace]
    rfl

/-- A directory that is there will do. -/
theorem ensureDirectory_of_resolve (h : tree.resolve (String.ofList path) = .ok place)
    (hplace : tree.at? place = some .directory) :
    disk.ensureDirectory (String.ofList path) tree = (.ok (), tree) := by
  rw [Disk.ensureDirectory, run_bind, disk_makeDirectory, change, makeDirectory_of_resolve h hplace]
  dsimp only
  rw [run_bind, disk_isDirectory, find?_of_resolve h, hplace]
  rfl

/-- **Directories that are there are not made again**, nor are those above them. -/
theorem makeDirectories_of_resolve (h : tree.resolve (String.ofList path) = .ok place)
    (hplace : tree.at? place = some .directory) :
    disk.makeDirectories path tree = (.ok (), tree) := by
  have hensure := ensureDirectory_of_resolve h hplace
  have hfound : (splitName path).1 ≠ [] →
      (tree.find? (String.ofList (splitName path).1)).isSome = true := by
    intro hne
    obtain ⟨directory, hresolve, hdirectory⟩ := resolve_splitName h hne
    rw [find?_of_resolve hresolve, hdirectory]
    rfl
  rw [Disk.makeDirectories]
  split
  · rw [run_bind, disk_present]
    dsimp only
    rw [if_neg]
    · exact hensure
    · by_cases hne : (splitName path).1 = []
      · simp [hne]
      · simp [hfound hne]
  · exact hensure

/-- **If a path leads anywhere, there is room for it already.** -/
theorem makeRoom_of_resolve {path : String} (h : tree.resolve path = .ok place) :
    Files.makeRoom disk path tree = (.ok (), tree) := by
  rw [← String.ofList_toList (s := path)] at h
  rw [Files.makeRoom]
  by_cases hempty : (splitLast path.toList).1 = []
  · rw [if_pos (by simp [hempty])]
    rfl
  · rw [if_neg (by simpa using hempty)]
    obtain ⟨directory, hresolve, hdirectory⟩ := resolve_splitLast h hempty
    exact makeDirectories_of_resolve hresolve hdirectory

end FileTree

end ComponentTree
