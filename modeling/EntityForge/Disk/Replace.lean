import EntityForge.Disk.Basic
import EntityForge.Value.Calendar

/-!
# Replacing files

A file is replaced as a whole: its new content is written to a temporary file beside it, which then
takes its name. If that cannot be done, the temporary file goes away again.
-/

namespace EntityForge.Disk

/-- The name of the temporary file with a number for a name. -/
def temporaryName (name : String) (n : Nat) : String :=
  "." ++ name ++ "." ++ zeroPadded 8 n ++ ".tmp"

/-- The path of the temporary file with a number for a path. -/
def temporaryPath (d : Disk) (p : Path) (n : Nat) : Path :=
  let directory := p.parent.resolve d.current
  ⟨directory.root, directory.names ++ [temporaryName p.name n]⟩

/-- A number whose temporary file does not stand in a directory. There is one among as many as there
are entries, and one more. -/
def freeNumber (d : Disk) (directory : Place) (name : String) : Nat :=
  let isFree (n : Nat) : Bool := (d.get? (directory ++ [temporaryName name n])).isNone
  ((List.range (d.entries.length + 1)).find? isFree).getD 0

/-- The path of a new temporary file for a path, and its place. Its name counts as one of eight
digits, whatever its number is. -/
def temporaryFile (d : Disk) (p : Path) : Except DiskFault (Path × Place) :=
  match d.placeFor (d.temporaryPath p 0) with
  | .error cause => .error ⟨cause, d.temporaryPath p 0, none⟩
  | .ok place =>
    let directory := place.dropLast
    let n := d.freeNumber directory p.name
    .ok (d.temporaryPath p n, directory ++ [temporaryName p.name n])

/-- The disk with the content of a file replaced as a whole, and why that cannot be done. -/
def replaceFile (d : Disk) (p : Path) (content : ByteArray) : Disk × Option DiskFault :=
  match d.temporaryFile p with
  | .error f => (d, some f)
  | .ok (path, place) =>
    let written := d.put place (.file content)
    match written.moveFile place p with
    | .ok replaced => (replaced, none)
    | .error cause => (written.remove place, some ⟨cause, path, some p⟩)

/-- The disk with the content of a file overwritten in its place, and why that cannot be done. -/
def overwriteFile (d : Disk) (p : Path) (content : ByteArray) : Disk × Option DiskFault :=
  match d.writeFile p content with
  | .ok d => (d, none)
  | .error f => (d, some f)

end EntityForge.Disk
