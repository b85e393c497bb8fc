import ComponentTree.Command
import ComponentTree.Markup.Tree

/-!
# The program

Runs the command on the disk of the machine.
-/

namespace ComponentTree.Machine

/-- The cause that the machine gives for a failure. -/
def causeOf (e : IO.Error) : DiskCause :=
  match e with
  | .noFileOrDirectory _ _ _ => .missing
  | .alreadyExists _ _ _ => .exists
  | .inappropriateType _ code _ => if code = 21 then .isDirectory else .notDirectory
  | other => .other 5 (toString other)

/-- An action of the machine that may be refused. A path with a null character never gets there. -/
def attempt {α : Type} (path : String) (action : IO α) : IO (Except DiskError α) := do
  if path.contains '\x00' then return .error ⟨.unusablePath, path⟩
  match ← action.toBaseIO with
  | .ok a => return .ok a
  | .error e => return .error ⟨causeOf e, path⟩

/-- The disk of the machine. A path leads to a directory if the step on the spot from it exists. -/
def disk : Disk IO where
  read := fun path => attempt path do return (← IO.FS.readBinFile path).toList
  write := fun path bytes => attempt path (IO.FS.writeBinFile path ⟨bytes.toArray⟩)
  makeDirectory := fun path => attempt path (IO.FS.createDir path)
  present := fun path => do
    match ← attempt path (IO.FS.Handle.mk path .read) with
    | .ok _ => return true
    | .error e =>
      match e.cause with
      | .missing | .notDirectory | .unusablePath => return false
      | _ => return true
  isDirectory := fun path => do
    match ← attempt path (IO.FS.createDir (path ++ "/.")) with
    | .ok _ => return true
    | .error e => return e.cause = .exists

/-- The library that the program comes with, and the room that its stack leaves for nested data. -/
def runtime : Command.Runtime := ⟨Markup.library, 980⟩

end ComponentTree.Machine

/-- Runs the command with the arguments of the program. -/
def main (arguments : List String) : IO UInt32 := do
  match ← ComponentTree.Command.run ComponentTree.Machine.runtime ComponentTree.Machine.disk arguments with
  | .error breakdown =>
    IO.eprintln breakdown.message
    return 1
  | .ok outcome =>
    for line in outcome.errors do
      IO.eprintln line
    IO.print outcome.output
    return outcome.exit.toUInt32
