import ComponentTree.Decimal.Basic
import ComponentTree.Value.Display

/-!
# Disks

The program needs little of a disk: reading and writing whole files, and making directories. What is
said here goes for any disk, a real one or a tree in memory.
-/

namespace ComponentTree

/-- Why a disk refuses something. -/
inductive DiskCause where
  | missing
  | exists
  | notDirectory
  | isDirectory
  | nameTooLong
  /-- The path holds a null character and can lead nowhere. -/
  | unusablePath
  /-- Any other cause, by its number and text. -/
  | other (number : Nat) (text : String)
  deriving DecidableEq, Repr

namespace DiskCause

/-- The customary number of a cause. -/
def number : DiskCause → Nat
  | .missing => 2
  | .exists => 17
  | .notDirectory => 20
  | .isDirectory => 21
  | .nameTooLong => 36
  | .unusablePath => 22
  | .other number _ => number

def text : DiskCause → String
  | .missing => "No such file or directory"
  | .exists => "File exists"
  | .notDirectory => "Not a directory"
  | .isDirectory => "Is a directory"
  | .nameTooLong => "File name too long"
  | .unusablePath => "embedded null byte"
  | .other _ text => text

end DiskCause

/-- A refusal of a disk. -/
structure DiskError where
  cause : DiskCause
  path : String
  deriving DecidableEq, Repr

def DiskError.message (e : DiskError) : String :=
  "[Errno " ++ String.ofList (integerText e.cause.number) ++ "] " ++ e.cause.text ++ ": "
    ++ (Value.str e.path).describe

/-- What a disk can do. -/
structure Disk (m : Type → Type) where
  /-- The bytes of a file. -/
  read : String → m (Except DiskError (List UInt8))
  /-- Makes a file hold the given bytes and nothing else. -/
  write : String → List UInt8 → m (Except DiskError Unit)
  makeDirectory : String → m (Except DiskError Unit)
  /-- Whether a path leads to anything. -/
  present : String → m Bool
  isDirectory : String → m Bool

namespace Disk

variable {m : Type → Type} [Monad m]

/-- The part of a path up to its last slash, and the part behind it. -/
def cutLast (path : List Char) : List Char × List Char :=
  ((path.reverse.dropWhile (· != '/')).reverse, (path.reverse.takeWhile (· != '/')).reverse)

/-- The directory part of a path, without slashes at its end unless there is nothing else, and the
name behind it. -/
def splitLast (path : List Char) : List Char × List Char :=
  let (head, tail) := cutLast path
  let trimmed := (head.reverse.dropWhile (· == '/')).reverse
  (if trimmed.isEmpty then head else trimmed, tail)

/-- The same for a path that may end with a slash. -/
def splitName (path : List Char) : List Char × List Char :=
  let (head, tail) := splitLast path
  if tail.isEmpty then splitLast head else (head, tail)

/-- Makes a directory; one that is there already will do. -/
def ensureDirectory (disk : Disk m) (path : String) : m (Except DiskError Unit) := do
  match ← disk.makeDirectory path with
  | .ok () => return .ok ()
  | .error e => if ← disk.isDirectory path then return .ok () else return .error e

/-- Makes a directory and the ones above it that are missing. -/
def makeDirectories (disk : Disk m) (path : List Char) : m (Except DiskError Unit) := do
  let parts := splitName path
  if _h : parts.1.length < path.length then
    if !parts.1.isEmpty && !parts.2.isEmpty && !(← disk.present (String.ofList parts.1)) then
      match ← makeDirectories disk parts.1 with
      | .ok () =>
        if parts.2 = ['.'] then return .ok () else disk.ensureDirectory (String.ofList path)
      | .error e =>
        if e.cause = .exists then
          if parts.2 = ['.'] then return .ok () else disk.ensureDirectory (String.ofList path)
        else return .error e
    else disk.ensureDirectory (String.ofList path)
  else disk.ensureDirectory (String.ofList path)
termination_by path.length

end Disk

end ComponentTree
