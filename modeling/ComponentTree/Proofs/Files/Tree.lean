import ComponentTree.Files.Tree
import ComponentTree.Proofs.Assoc

/-!
# File trees

What the actions of a disk do to the regular files of a tree. Making directories does nothing to them,
whatever else has to be made on the way (`keepsFiles_makeDirectories`). Writing changes the file that
the path leads to and no other one, and afterwards the path still leads there
(`exists_place_of_write`), since a step starts from directories only and a file is never put in the
place of one. For the same reason every path leads where it did (`Grows.ways`, `resolve_of_write`).
-/

namespace ComponentTree

namespace FileTree

variable {tree tree' : FileTree} {place other : List String} {entry : FileEntry} {bytes : List UInt8}
variable {path : String}

/-! ## What is at a place -/

theorem at?_put_self (h : tree.at? place ≠ some .directory) (entry : FileEntry) :
    (tree.put place entry).at? place = some entry := by
  have hbelow : ¬ (decide (place = root) || isTop place) = true := by
    intro htop
    exact h (by rw [at?, if_pos htop])
  rw [at?, if_neg hbelow]
  exact Assoc.get?_set_self ..

theorem at?_put_of_ne (h : other ≠ place) (tree : FileTree) (entry : FileEntry) :
    (tree.put place entry).at? other = tree.at? other := by
  rw [at?, at?, put, Assoc.get?_set_of_ne h.symm]

/-- The bytes of the regular file at a place. -/
def fileAt? (tree : FileTree) (place : List String) : Option (List UInt8) :=
  match tree.at? place with
  | some (.file bytes) => some bytes
  | _ => none

theorem fileAt?_eq_some_iff : tree.fileAt? place = some bytes ↔ tree.at? place = some (.file bytes) := by
  rw [fileAt?]
  split <;> simp_all

theorem fileAt?_put_of_ne (h : other ≠ place) (tree : FileTree) (entry : FileEntry) :
    (tree.put place entry).fileAt? other = tree.fileAt? other := by
  rw [fileAt?, fileAt?, at?_put_of_ne h]

/-- The regular files of two trees are the same, with the same bytes. -/
def SameFiles (tree tree' : FileTree) : Prop := ∀ place, tree'.fileAt? place = tree.fileAt? place

theorem SameFiles.refl (tree : FileTree) : SameFiles tree tree := fun _ => rfl

theorem SameFiles.trans {tree'' : FileTree} (h : SameFiles tree tree') (h' : SameFiles tree' tree'') :
    SameFiles tree tree'' := fun place => (h' place).trans (h place)

/-- A directory where nothing was is no change to the files. -/
theorem sameFiles_put_directory (h : tree.at? place = none) :
    SameFiles tree (tree.put place .directory) := by
  intro other
  by_cases heq : other = place
  · subst heq
    rw [fileAt?, fileAt?, at?_put_self (by simp [h]), h]
  · exact fileAt?_put_of_ne heq ..

/-! ## Where a path leads -/

/-- What is put at a place that is no directory changes no way, since no step starts from there. -/
theorem walk_put (h : tree.at? place ≠ some .directory) (entry : FileEntry) {names : List String}
    {start end' : List String} (hwalk : tree.walk start names = .ok end') :
    (tree.put place entry).walk start names = .ok end' := by
  induction names generalizing start with
  | nil => exact hwalk
  | cons name names ih =>
    rw [walk] at hwalk ⊢
    split at hwalk
    · cases hwalk
    · cases hwalk
    · next hstart =>
      have hne : start ≠ place := by
        rintro rfl
        exact h hstart
      rw [at?_put_of_ne hne, hstart]
      dsimp only
      split at hwalk
      · cases hwalk
      · next hname =>
        rw [if_neg hname]
        exact ih hwalk

theorem resolve_put (h : tree.at? place ≠ some .directory) (entry : FileEntry)
    (hresolve : tree.resolve path = .ok other) : (tree.put place entry).resolve path = .ok other := by
  rw [resolve] at hresolve ⊢
  split at hresolve
  · cases hresolve
  · exact walk_put h entry hresolve

/-! ## Writing and making directories -/

/-- Writing puts a file where the path leads, and there is no directory there. -/
theorem exists_put_of_write (h : tree.write path bytes = .ok tree') :
    ∃ place, tree.resolve path = .ok place ∧ tree.at? place ≠ some .directory ∧
      tree' = tree.put place (.file bytes) := by
  rw [write] at h
  cases hresolve : tree.resolve path with
  | error cause =>
    rw [hresolve] at h
    cases h
  | ok place =>
    rw [hresolve] at h
    dsimp only [bind, Except.bind] at h
    have hplace : tree.at? place ≠ some .directory := by
      intro hdirectory
      rw [hdirectory] at h
      cases h
    split at h
    · cases h
    · cases h
      exact ⟨place, rfl, hplace, rfl⟩

/-- **Writing changes the file at the path and no other one.** -/
theorem exists_place_of_write (h : tree.write path bytes = .ok tree') :
    ∃ place, tree'.resolve path = .ok place ∧ tree'.fileAt? place = some bytes ∧
      ∀ other, other ≠ place → tree'.fileAt? other = tree.fileAt? other := by
  obtain ⟨place, hresolve, hplace, rfl⟩ := exists_put_of_write h
  refine ⟨place, resolve_put hplace _ hresolve, ?_, fun other hne => fileAt?_put_of_ne hne ..⟩
  exact fileAt?_eq_some_iff.mpr (at?_put_self hplace _)

theorem resolve_of_write (h : tree.write path bytes = .ok tree') {path' : String}
    (hresolve : tree.resolve path' = .ok place) : tree'.resolve path' = .ok place := by
  obtain ⟨_, -, hplace, rfl⟩ := exists_put_of_write h
  exact resolve_put hplace _ hresolve

/-- Where a path leads to what is no directory, it can be written to. -/
theorem write_of_resolve (hresolve : tree.resolve path = .ok place)
    (hplace : tree.at? place ≠ some .directory) (bytes : List UInt8) :
    tree.write path bytes = .ok (tree.put place (.file bytes)) := by
  rw [write, hresolve]
  dsimp only [bind, Except.bind]
  split
  · next h => exact absurd h hplace
  · rfl

theorem read_of_resolve (hresolve : tree.resolve path = .ok place)
    (hfile : tree.fileAt? place = some bytes) : tree.read path = .ok bytes := by
  rw [read, hresolve]
  dsimp only [bind, Except.bind]
  rw [fileAt?_eq_some_iff.mp hfile]
  rfl

/-- What is read at a path is the file at the place that the path leads to. -/
theorem exists_place_of_read (h : tree.read path = .ok bytes) :
    ∃ place, tree.resolve path = .ok place ∧ tree.fileAt? place = some bytes := by
  rw [read] at h
  cases hresolve : tree.resolve path with
  | error cause => rw [hresolve] at h; cases h
  | ok place =>
    rw [hresolve] at h
    dsimp only [bind, Except.bind] at h
    split at h
    · next hfile =>
      cases h
      exact ⟨place, rfl, fileAt?_eq_some_iff.mpr hfile⟩
    · cases h
    · cases h

/-- Directories may have come up where there was nothing: the files are the same, and every path leads
where it did. -/
structure Grows (tree tree' : FileTree) : Prop where
  files : SameFiles tree tree'
  ways : ∀ {path place}, tree.resolve path = .ok place → tree'.resolve path = .ok place

theorem Grows.refl (tree : FileTree) : Grows tree tree := ⟨.refl tree, id⟩

theorem Grows.trans {tree'' : FileTree} (h : Grows tree tree') (h' : Grows tree' tree'') :
    Grows tree tree'' := ⟨h.files.trans h'.files, fun hresolve => h'.ways (h.ways hresolve)⟩

theorem grows_of_makeDirectory (h : tree.makeDirectory path = .ok tree') : Grows tree tree' := by
  rw [makeDirectory] at h
  split at h
  · cases h
  · cases hwalk : tree.walk (start path) (steps (withoutFinalSlashes path)) with
    | error cause =>
      rw [hwalk] at h
      cases h
    | ok place =>
      rw [hwalk] at h
      dsimp only [bind, Except.bind] at h
      split at h
      · cases h
      · next hnone =>
        cases h
        exact ⟨sameFiles_put_directory hnone, resolve_put (by simp [hnone]) _⟩

/-! ## What the disk does -/

theorem disk_write (path : String) (bytes : List UInt8) (tree : FileTree) :
    disk.write path bytes tree = change path (·.write path bytes) tree := rfl

theorem disk_makeDirectory (path : String) (tree : FileTree) :
    disk.makeDirectory path tree = change path (·.makeDirectory path) tree := rfl

theorem disk_present (path : String) (tree : FileTree) :
    disk.present path tree = ((tree.find? path).isSome, tree) := rfl

theorem disk_isDirectory (path : String) (tree : FileTree) :
    disk.isDirectory path tree = (tree.find? path == some .directory, tree) := rfl

/-! ## Actions that keep the files -/

/-- Whatever tree an action finds, it leaves the same files in it and the ways to them. -/
def KeepsFiles {α : Type} (action : StateM FileTree α) : Prop :=
  ∀ tree, Grows tree (action tree).2

variable {α β : Type}

theorem keepsFiles_pure (a : α) : KeepsFiles (pure a) := fun tree => Grows.refl tree

theorem KeepsFiles.bind {action : StateM FileTree α} {next : α → StateM FileTree β}
    (h : KeepsFiles action) (hnext : ∀ a, KeepsFiles (next a)) : KeepsFiles (action >>= next) :=
  fun tree => (h tree).trans (hnext (action tree).1 (action tree).2)

theorem keepsFiles_present (path : String) : KeepsFiles (disk.present path) := Grows.refl

theorem keepsFiles_isDirectory (path : String) : KeepsFiles (disk.isDirectory path) := Grows.refl

theorem keepsFiles_makeDirectory (path : String) : KeepsFiles (disk.makeDirectory path) := by
  intro tree
  rw [disk_makeDirectory, change]
  split
  · next changed h => exact grows_of_makeDirectory h
  · exact Grows.refl tree

theorem keepsFiles_ensureDirectory (path : String) : KeepsFiles (disk.ensureDirectory path) := by
  refine (keepsFiles_makeDirectory path).bind fun result => ?_
  cases result with
  | ok => exact keepsFiles_pure _
  | error e =>
    refine (keepsFiles_isDirectory path).bind fun found => ?_
    cases found <;> exact keepsFiles_pure _

/-- **Making directories changes no file**, neither where the path leads nor on the way. -/
theorem keepsFiles_makeDirectories (path : List Char) : KeepsFiles (disk.makeDirectories path) := by
  induction hlength : path.length using Nat.strongRecOn generalizing path with
  | ind n ih =>
    have hensure := keepsFiles_ensureDirectory (String.ofList path)
    have hlast : ∀ name : List Char, KeepsFiles (if name = ['.'] then
        (pure (.ok ()) : StateM FileTree (Except DiskError Unit))
        else disk.ensureDirectory (String.ofList path)) := by
      intro name
      split
      · exact keepsFiles_pure _
      · exact hensure
    rw [Disk.makeDirectories]
    split
    · next hshorter =>
      have hparent := ih _ (hlength ▸ hshorter) (Disk.splitName path).1 rfl
      refine (keepsFiles_present _).bind fun found => ?_
      split
      · refine hparent.bind fun result => ?_
        cases result with
        | ok => exact hlast _
        | error e =>
          dsimp only
          split
          · exact hlast _
          · exact keepsFiles_pure _
      · exact hensure
    · exact hensure

end FileTree

end ComponentTree
