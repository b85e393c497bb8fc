import ComponentTree.Proofs.Files.Room
import ComponentTree.Proofs.Json.Written

/-!
# What was written is read back

A text that was written is read back with line feeds for all its line ends. What is read back can be
written again and is then read as it is: the directories for it are there by now, and no line ends are
left to be unified. All of this is for the file that the path leads to, every other one is as it was, even
if directories had to be made for the new one (`writeText_readBack`).
-/

namespace ComponentTree

namespace FileTree

variable {tree tree' : FileTree} {path text : String} {log : List LogRecord} {place : List String}

/-- Once there is room, any text can be written where there is no directory. -/
theorem exists_done_of_makeRoom {made : FileTree}
    (hroom : Files.makeRoom disk path tree = (.ok (), made)) (hresolve : made.resolve path = .ok place)
    (hplace : made.at? place ≠ some .directory) (text : String) :
    ∃ log, Files.writeText disk path text tree =
      (.done true log, made.put place (.file (Text.Utf8.encode text.toList))) := by
  rw [Files.writeText, run_bind, hroom]
  dsimp only
  rw [Text.Utf8.encodeText_ofString, run_bind, disk_write, change]
  dsimp only [Except.toOption, Option.getD]
  rw [write_of_resolve hresolve hplace]
  exact ⟨_, rfl⟩

/-- A file can be written to again. -/
theorem TextWritten.exists_done (h : TextWritten path text tree tree') (text' : String) :
    ∃ log tree'', Files.writeText disk path text' tree' = (.done true log, tree'') := by
  obtain ⟨place, hresolve, hfile, -⟩ := h
  have hplace : tree'.at? place ≠ some .directory := by
    rw [fileAt?_eq_some_iff.mp hfile]
    simp
  obtain ⟨log, hdone⟩ := exists_done_of_makeRoom (makeRoom_of_resolve hresolve) hresolve hplace text'
  exact ⟨log, _, hdone⟩

/-- **What was written is read back with line feeds** at the ends of its lines, and it stays as it is when
it is written and read again. No other file has changed, at whatever path it is. -/
theorem writeText_readBack (h : Files.writeText disk path text tree = (.done true log, tree')) :
    Files.readText disk path tree' = (.done (some (Text.withLineFeeds text)) [], tree') ∧
    ('\r' ∉ text.toList → Text.withLineFeeds text = text) ∧
    (∀ (width : Option Int) (descriptor : Value),
      text = generate (width.bind Json.Indent.spaces) descriptor → Text.withLineFeeds text = text) ∧
    (∃ log' again,
      Files.writeText disk path (Text.withLineFeeds text) tree' = (.done true log', again) ∧
        Files.readText disk path again = (.done (some (Text.withLineFeeds text)) [], again)) ∧
    ∃ place, tree'.resolve path = .ok place ∧
      (∀ other, other ≠ place → tree'.fileAt? other = tree.fileAt? other) ∧
      ∀ path' bytes, tree.read path' = .ok bytes → tree'.resolve path' ≠ .ok place →
        tree'.read path' = .ok bytes := by
  obtain ⟨made, hmade, hwrite⟩ := exists_made_of_done h
  have hwritten : TextWritten path text tree tree' := hmade.files.textWritten hwrite
  obtain ⟨log', again, hagain⟩ := hwritten.exists_done (Text.withLineFeeds text)
  have hread := hwritten.readText_withLineFeeds
  obtain ⟨place, hresolve, -, hothers⟩ := hwritten
  refine ⟨hread, Text.withLineFeeds_of_not_mem, ?_, ⟨log', again, hagain, ?_⟩, place, hresolve,
    hothers, ?_⟩
  · intro width descriptor hgenerate
    have hindent : ∀ unit ∈ width.bind Json.Indent.spaces, Json.Legible (.ofChars unit) := by
      cases width with
      | none => simp
      | some n => exact Json.legible_spaces n
    have hreturn := return_not_mem_generate hindent descriptor
    rw [← hgenerate] at hreturn
    exact Text.withLineFeeds_of_not_mem fun hmem =>
      hreturn (Points.mem_ofChars.mpr ⟨_, hmem, rfl⟩)
  · obtain ⟨made', hmade', hwrite'⟩ := exists_made_of_done hagain
    rw [(hmade'.files.textWritten hwrite').readText_withLineFeeds, Text.withLineFeeds_withLineFeeds]
  · intro path' bytes' hbytes hne
    obtain ⟨place', hresolve', hfile'⟩ := exists_place_of_read hbytes
    have hstays := resolve_of_write hwrite (hmade.ways hresolve')
    have hplace : place' ≠ place := fun heq => hne (heq ▸ hstays)
    exact read_of_resolve hstays ((hothers place' hplace).trans hfile')

/-- A note in a directory. -/
def oneNote : FileTree := ⟨[(["notes"], .directory), (["notes", "old"], .file [104, 105])]⟩

/-- The note, and another directory. -/
def oneNoteAndRoom : FileTree := oneNote.put ["new"] .directory

theorem makeRoom_oneNote : Files.makeRoom disk "new/text" oneNote = (.ok (), oneNoteAndRoom) := by
  have hrefusal : refusal? "new" = none := by simp [refusal?]; decide
  have hwalk : oneNote.walk (start "new") (steps (withoutFinalSlashes "new")) = .ok ["new"] := by
    decide +kernel
  have hmake : oneNote.makeDirectory "new" = .ok oneNoteAndRoom := by
    rw [makeDirectory, hrefusal]
    dsimp only
    rw [hwalk]
    rfl
  have hensure : disk.ensureDirectory "new" oneNote = (.ok (), oneNoteAndRoom) := by
    rw [Disk.ensureDirectory, run_bind, disk_makeDirectory, change, hmake]
    rfl
  show disk.makeDirectories "new".toList oneNote = _
  rw [Disk.makeDirectories, dif_pos (by decide), run_bind]
  exact hensure

theorem resolve_oneNoteAndRoom : oneNoteAndRoom.resolve "new/text" = .ok ["new", "text"] := by
  have hrefusal : refusal? "new/text" = none := by simp [refusal?]; decide
  have hwalk : oneNoteAndRoom.walk (start "new/text") (steps "new/text") = .ok ["new", "text"] := by
    decide +kernel
  rw [resolve, hrefusal]
  exact hwalk

/-- A text with all kinds of line ends in a directory that has to be made, next to the note. -/
theorem writeText_readBack_oneNote :
    ∃ log tree', Files.writeText disk "new/text" "a\r\r\nb\n\r" oneNote = (.done true log, tree') ∧
      Files.readText disk "new/text" tree' = (.done (some "a\n\nb\n\n") [], tree') ∧
      tree'.fileAt? ["notes", "old"] = some [104, 105] := by
  have hplace : oneNoteAndRoom.at? ["new", "text"] ≠ some .directory := by decide
  obtain ⟨log, hdone⟩ := exists_done_of_makeRoom makeRoom_oneNote resolve_oneNoteAndRoom hplace
    "a\r\r\nb\n\r"
  obtain ⟨hread, -, -, -, place, hresolve, hothers, -⟩ := writeText_readBack hdone
  rw [resolve_put hplace _ resolve_oneNoteAndRoom] at hresolve
  have hother : ["notes", "old"] ≠ place := by
    rw [← Except.ok.inj hresolve]
    decide
  exact ⟨log, _, hdone, hread, hothers ["notes", "old"] hother⟩

end FileTree

end ComponentTree
