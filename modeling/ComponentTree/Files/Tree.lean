import ComponentTree.Assoc
import ComponentTree.Files.Disk
import ComponentTree.Text.Pieces

/-!
# A disk in memory

A tree of files is kept as a list of its places with what is there. A place is the row of names that
lead to it from the top. The top is always a directory, and so is all above it, where a place is the
row of steps upwards. Paths that start with a slash lead through places of their own, below the
root.
-/

namespace ComponentTree

/-- What is at a place of a file tree. -/
inductive FileEntry where
  | file (bytes : List UInt8)
  | directory
  deriving DecidableEq, Repr

/-- The files and directories apart from the top, what is above it, and the root. -/
structure FileTree where
  entries : List (List String × FileEntry)

namespace FileTree

def empty : FileTree := ⟨[]⟩

/-- The place that paths with a slash at their start lead from. -/
def root : List String := ["/"]

/-- Whether a place is the top or above it. -/
def isTop (place : List String) : Bool := place.all (· == "..")

/-- The place that a step upwards leads to. -/
def above (place : List String) : List String :=
  if place = root then root else if isTop place then place ++ [".."] else place.dropLast

/-- The place that a step leads to from a directory. -/
def next (place : List String) (name : String) : List String :=
  if name = "." then place else if name = ".." then above place else place ++ [name]

/-- What is at a place. -/
def at? (tree : FileTree) (place : List String) : Option FileEntry :=
  if place = root || isTop place then some .directory else Assoc.get? place tree.entries

/-- The tree with something else at a place. -/
def put (tree : FileTree) (place : List String) (entry : FileEntry) : FileTree :=
  ⟨Assoc.set place entry tree.entries⟩

/-- The place that a path leads from. -/
def start (path : String) : List String := if path.startsWith "/" then root else []

/-- The tree with something at a path, and directories at all places on the way. -/
def install (tree : FileTree) (path : String) (entry : FileEntry) : FileTree :=
  let names := (Text.pieces (· == '/') path.toList).map String.ofList
  let (tree, place) := names.dropLast.foldl (fun (tree, place) name =>
    let place := next place name
    (if (tree.at? place).isSome then tree else tree.put place .directory, place))
    (tree, start path)
  tree.put (next place (names.getLast?.getD ".")) entry

/-- The most bytes that a name may have. -/
def maxNameBytes : Nat := 255

/-- The most bytes that a path may have. -/
def maxPathBytes : Nat := 4095

/-- The steps that a path takes: the names between its slashes, and one step on the spot at its end
if it ends with a slash. -/
def steps (path : String) : List String :=
  let names := (Text.pieces (· == '/') path.toList).map String.ofList
  if path.toList.getLast? = some '/' then names ++ ["."] else names

/-- The place that steps lead to from a place. Every step has to start from a directory. -/
def walk (tree : FileTree) : List String → List String → Except DiskCause (List String)
  | place, [] => .ok place
  | place, name :: rest =>
    match tree.at? place with
    | none => .error .missing
    | some (.file _) => .error .notDirectory
    | some .directory =>
      if maxNameBytes < name.utf8ByteSize then .error .nameTooLong
      else walk tree (next place name) rest

/-- Why a path names nothing, whatever the tree: it holds a null character, is empty or too long. -/
def refusal? (path : String) : Option DiskCause :=
  if path.contains '\x00' then some .unusablePath
  else if path.isEmpty then some .missing
  else if maxPathBytes < path.utf8ByteSize then some .nameTooLong
  else none

def resolve (tree : FileTree) (path : String) : Except DiskCause (List String) :=
  match refusal? path with
  | some cause => .error cause
  | none => tree.walk (start path) (steps path)

/-- The bytes of the file at a path. -/
def read (tree : FileTree) (path : String) : Except DiskCause (List UInt8) := do
  match tree.at? (← tree.resolve path) with
  | some (.file bytes) => return bytes
  | some .directory => throw .isDirectory
  | none => throw .missing

def write (tree : FileTree) (path : String) (bytes : List UInt8) : Except DiskCause FileTree := do
  let place ← tree.resolve path
  match tree.at? place with
  | some .directory => throw .isDirectory
  | _ => return tree.put place (.file bytes)

/-- A path without the slashes at its end. -/
def withoutFinalSlashes (path : String) : String :=
  String.ofList (path.toList.reverse.dropWhile (· == '/')).reverse

def makeDirectory (tree : FileTree) (path : String) : Except DiskCause FileTree :=
  match refusal? path with
  | some cause => .error cause
  | none => do
    let place ← tree.walk (start path) (steps (withoutFinalSlashes path))
    match tree.at? place with
    | some _ => throw .exists
    | none => return tree.put place .directory

/-- What is at a path, if anything is. -/
def find? (tree : FileTree) (path : String) : Option FileEntry :=
  match tree.resolve path with
  | .ok place => tree.at? place
  | .error _ => none

/-- A change of a file tree that may be refused. -/
def change (path : String) (f : FileTree → Except DiskCause FileTree) :
    StateM FileTree (Except DiskError Unit) := fun tree =>
  match f tree with
  | .ok changed => (.ok (), changed)
  | .error cause => (.error ⟨cause, path⟩, tree)

/-- File trees as a disk. -/
def disk : Disk (StateM FileTree) where
  read := fun path tree => ((tree.read path).mapError (⟨·, path⟩), tree)
  write := fun path bytes => change path (·.write path bytes)
  makeDirectory := fun path => change path (·.makeDirectory path)
  present := fun path tree => ((tree.find? path).isSome, tree)
  isDirectory := fun path tree => (tree.find? path == some .directory, tree)

end FileTree

end ComponentTree
