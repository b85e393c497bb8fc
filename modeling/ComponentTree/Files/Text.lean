import ComponentTree.Files.Disk
import ComponentTree.Log
import ComponentTree.Text.Newlines
import ComponentTree.Text.Utf8

/-!
# Text files

Reading and writing texts, with a report of what went wrong or well. A path that can lead nowhere and a
text that has no encoding are faults of the caller and not reported.
-/

namespace ComponentTree.Files

variable {m : Type → Type} [Monad m]

/-- A fault of the caller. -/
inductive Fault where
  /-- The path can lead nowhere. -/
  | unusablePath
  /-- The text has no encoding. -/
  | unencodable (halves : Text.Utf8.Halves)
  deriving DecidableEq, Repr

def Fault.message : Fault → String
  | .unusablePath => DiskCause.unusablePath.text
  | .unencodable halves => halves.message

/-- What using a file comes to. -/
inductive Result (α : Type) where
  /-- It is done, or reported why not. -/
  | done (a : α) (log : List LogRecord)
  /-- It is not done, and there is no report. -/
  | raised (fault : Fault)

/-- What a refusal of the disk comes to. -/
def Result.ofRefusal {α : Type} (a : α) (intent path : String) (e : DiskError) : Result α :=
  if e.cause = .unusablePath then .raised .unusablePath
  else
    .done a [⟨.error, Log.fileUtils,
      "Failed to " ++ intent ++ " file " ++ path ++ ": " ++ e.message⟩]

/-- The text of a file, with line ends unified, if it can be read and decoded. -/
def readText (disk : Disk m) (path : String) : m (Result (Option String)) := do
  match ← disk.read path with
  | .error e => return .ofRefusal none "read" path e
  | .ok bytes =>
    match Text.Utf8.decode bytes with
    | .error e =>
      return .done none [⟨.error, Log.fileUtils,
        "Failed to read file " ++ path ++ ": " ++ e.message⟩]
    | .ok cs => return .done (some (String.ofList (Text.unifyLineEnds cs))) []

/-- Makes the directory that a path lies in, with all above it. -/
def makeRoom (disk : Disk m) (path : String) : m (Except DiskError Unit) :=
  let directory := (Disk.splitLast path.toList).1
  if directory.isEmpty then return .ok () else disk.makeDirectories directory

/-- What writing an encoded text comes to if the disk does not refuse. -/
def Result.ofEncoded (path : String) : Except Text.Utf8.Halves (List UInt8) → Result Bool
  | .ok _ => .done true [⟨.debug, Log.fileUtils, "Successfully wrote file: " ++ path⟩]
  | .error halves => .raised (.unencodable halves)

/-- Makes a file hold a text, with the directories that it takes. Tells whether that was done. The file is
emptied before the text is encoded, so it is left empty if there is no encoding. -/
def writeText (disk : Disk m) (path : String) (text : Points) : m (Result Bool) := do
  match ← makeRoom disk path with
  | .error e => return .ofRefusal false "write" path e
  | .ok () =>
    let encoded := Text.Utf8.encodeText text
    match ← disk.write path (encoded.toOption.getD []) with
    | .error e => return .ofRefusal false "write" path e
    | .ok () => return .ofEncoded path encoded

end ComponentTree.Files
