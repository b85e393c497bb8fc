import ComponentTree.Files.Text
import ComponentTree.Proofs.Files.Tree
import ComponentTree.Proofs.Text.LineEnds
import ComponentTree.Proofs.Text.Utf8

/-!
# Text files in a tree

Reading a text changes nothing. Writing a string is all or nothing: either it is done, and then the file at
the path holds the encoded string and all other files are the same, or every file is the same
(`writeText_cases`). A text that is no string is not written, but its file may be left empty
(`writeText_broken_cases`). What was written is read back with its line ends unified
(`TextWritten.readText_withLineFeeds`), so a text without carriage returns is read back as it was.
-/

namespace ComponentTree

namespace FileTree

variable {tree tree' : FileTree} {path text : String}

/-- One action after the other: the second one starts from the tree that the first one leaves. -/
theorem run_bind {α β : Type} (action : StateM FileTree α) (next : α → StateM FileTree β)
    (tree : FileTree) : (action >>= next) tree = next (action tree).1 (action tree).2 := rfl

/-! ## Reading -/

/-- What reading a text comes to. The tree is as it was. -/
theorem readText_eq (path : String) (tree : FileTree) :
    Files.readText disk path tree =
      (match tree.read path with
        | .error cause => .ofRefusal none "read" path ⟨cause, path⟩
        | .ok bytes =>
          match Text.Utf8.decode bytes with
          | .error e => .done none [⟨.error, Log.fileUtils,
              "Failed to read file " ++ path ++ ": " ++ e.message⟩]
          | .ok cs => .done (some (String.ofList (Text.unifyLineEnds cs))) [], tree) := by
  have hread : disk.read path tree = ((tree.read path).mapError (⟨·, path⟩), tree) := rfl
  rw [Files.readText, run_bind, hread]
  cases tree.read path with
  | error cause => rfl
  | ok bytes =>
    dsimp only [Except.mapError]
    cases Text.Utf8.decode bytes <;> rfl

/-- **Reading changes nothing**, and gives a text without a report or no text. -/
theorem readText_cases (path : String) (tree : FileTree) :
    (∃ text, Files.readText disk path tree = (.done (some text) [], tree)) ∨
      ∃ result, Files.readText disk path tree = (result, tree) ∧
        ∀ text log, result ≠ .done (some text) log := by
  rw [readText_eq]
  cases tree.read path with
  | error cause =>
    refine .inr ⟨_, rfl, fun text log => ?_⟩
    dsimp only
    rw [Files.Result.ofRefusal]
    split <;> simp
  | ok bytes =>
    dsimp only
    cases Text.Utf8.decode bytes with
    | error e => exact .inr ⟨_, rfl, by simp⟩
    | ok cs => exact .inl ⟨_, rfl⟩

/-- A file tree in which a text is the file at a path, and every other file is as in a tree before. -/
def TextWritten (path text : String) (tree tree' : FileTree) : Prop :=
  ∃ place, tree'.resolve path = .ok place ∧
    tree'.fileAt? place = some (Text.Utf8.encode text.toList) ∧
    ∀ other, other ≠ place → tree'.fileAt? other = tree.fileAt? other

/-- **A text is read back with line feeds** at the ends of its lines. -/
theorem TextWritten.readText_withLineFeeds (h : TextWritten path text tree tree') :
    Files.readText disk path tree' = (.done (some (Text.withLineFeeds text)) [], tree') := by
  obtain ⟨place, hresolve, hfile, -⟩ := h
  rw [readText_eq, read_of_resolve hresolve hfile]
  dsimp only
  rw [Text.Utf8.decode_encode]
  dsimp only
  rw [← Text.toList_withLineFeeds, String.ofList_toList]

/-- **A text is read back as it was written**, if there is no carriage return in it. -/
theorem TextWritten.readText (hreturn : '\r' ∉ text.toList) (h : TextWritten path text tree tree') :
    Files.readText disk path tree' = (.done (some text) [], tree') := by
  rw [h.readText_withLineFeeds, Text.withLineFeeds_of_not_mem hreturn]

/-! ## Writing -/

theorem keepsFiles_makeRoom (path : String) : KeepsFiles (Files.makeRoom disk path) := by
  rw [Files.makeRoom]
  split
  · exact keepsFiles_pure _
  · exact keepsFiles_makeDirectories _

theorem ofRefusal_ne_done_true (intent path : String) (e : DiskError) (log : List LogRecord) :
    Files.Result.ofRefusal false intent path e ≠ .done true log := by
  rw [Files.Result.ofRefusal]
  split <;> simp

/-- Whatever writing a text comes to, at most directories have been made before the text is put in its
file, and that is done last. -/
theorem exists_made_of_writeText (path : String) (text : Points) (tree : FileTree) :
    ∃ made, Grows tree made ∧
      ((∃ tree', Files.writeText disk path text tree =
          (.ofEncoded path (Text.Utf8.encodeText text), tree') ∧
        made.write path ((Text.Utf8.encodeText text).toOption.getD []) = .ok tree') ∨
      ∃ result, Files.writeText disk path text tree = (result, made) ∧
        ∀ log, result ≠ .done true log) := by
  have hroom := keepsFiles_makeRoom path tree
  rw [Files.writeText, run_bind]
  generalize Files.makeRoom disk path tree = room at hroom ⊢
  obtain ⟨result, made⟩ := room
  refine ⟨made, hroom, ?_⟩
  cases result with
  | error e => exact .inr ⟨_, rfl, ofRefusal_ne_done_true _ _ _⟩
  | ok =>
    dsimp only
    rw [run_bind, disk_write, change]
    cases made.write path ((Text.Utf8.encodeText text).toOption.getD []) with
    | error cause => exact .inr ⟨_, rfl, ofRefusal_ne_done_true _ _ _⟩
    | ok written => exact .inl ⟨written, rfl, rfl⟩

/-- The file that is written is not among those that making room for it could have changed. -/
theorem SameFiles.textWritten {made : FileTree} (hmade : SameFiles tree made)
    (h : made.write path (Text.Utf8.encode text.toList) = .ok tree') :
    TextWritten path text tree tree' := by
  obtain ⟨place, hresolve, hfile, hothers⟩ := exists_place_of_write h
  exact ⟨place, hresolve, hfile, fun other hne => (hothers other hne).trans (hmade other)⟩

/-- **Writing a string is all or nothing.** -/
theorem writeText_cases (path text : String) (tree : FileTree) :
    (∃ log, (Files.writeText disk path text tree).1 = .done true log ∧
      TextWritten path text tree (Files.writeText disk path text tree).2) ∨
    ((∀ log, (Files.writeText disk path text tree).1 ≠ .done true log) ∧
      SameFiles tree (Files.writeText disk path text tree).2) := by
  obtain ⟨made, hmade, ⟨tree', hdone, hwrite⟩ | ⟨result, hresult, hne⟩⟩ :=
    exists_made_of_writeText path text tree
  · rw [hdone, Text.Utf8.encodeText_ofString]
    rw [Text.Utf8.encodeText_ofString] at hwrite
    exact .inl ⟨_, rfl, hmade.files.textWritten hwrite⟩
  · rw [hresult]
    exact .inr ⟨hne, hmade.files⟩

/-- **A text without an encoding is never written.** Either its file is left empty, or every file is the
same. -/
theorem writeText_broken_cases (path : String) {text : Points} (h : text.string? = none)
    (tree : FileTree) :
    ((Files.writeText disk path text tree).1 = .raised (.unencodable (.firstIn text)) ∧
      TextWritten path "" tree (Files.writeText disk path text tree).2) ∨
    ((∀ log, (Files.writeText disk path text tree).1 ≠ .done true log) ∧
      SameFiles tree (Files.writeText disk path text tree).2) := by
  obtain ⟨made, hmade, ⟨tree', hdone, hwrite⟩ | ⟨result, hresult, hne⟩⟩ :=
    exists_made_of_writeText path text tree
  · rw [hdone, Text.Utf8.encodeText_broken h]
    rw [Text.Utf8.encodeText_broken h] at hwrite
    exact .inl ⟨rfl, hmade.files.textWritten hwrite⟩
  · rw [hresult]
    exact .inr ⟨hne, hmade.files⟩

/-- A string that has been written was put in its file when there was room for it. -/
theorem exists_made_of_done {log : List LogRecord}
    (h : Files.writeText disk path text tree = (.done true log, tree')) :
    ∃ made, Grows tree made ∧ made.write path (Text.Utf8.encode text.toList) = .ok tree' := by
  obtain ⟨made, hmade, ⟨tree'', hdone, hwrite⟩ | ⟨result, hresult, hne⟩⟩ :=
    exists_made_of_writeText path text tree
  · rw [Text.Utf8.encodeText_ofString] at hwrite
    obtain rfl := (Prod.mk.inj (hdone.symm.trans h)).2
    exact ⟨made, hmade, hwrite⟩
  · cases hresult.symm.trans h
    exact absurd rfl (hne log)

end FileTree

end ComponentTree
