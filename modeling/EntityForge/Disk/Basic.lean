import EntityForge.Disk.Path
import EntityForge.Text.Quoted

/-!
# Disks

A disk is what stands at each place below its root: a directory or a file. A path is followed name by
name, and every name but the last has to be that of a directory that exists. What cannot be done
says why, and for which path.
-/

namespace EntityForge

/-- Where something stands: the names from the root on. -/
abbrev Place := List String

/-- What stands at a place. -/
inductive Entry where
  | directory
  | file (content : ByteArray)
  deriving Inhabited

/-- A directory, not a file. -/
def Entry.isDirectory : Entry → Bool
  | .directory => true
  | .file _ => false

/-- The directories and files of a disk, and the directory from which paths start. -/
structure Disk where
  entries : List (Place × Entry)
  current : Place := []
  deriving Inhabited

/-- Why something cannot be done on a disk. -/
inductive DiskCause where
  | missing
  | busy
  | exists
  | notDirectory
  | isDirectory
  | nameTooLong
  deriving DecidableEq, Repr

/-- What cannot be done, for a path and possibly the one it was to become. -/
structure DiskFault where
  cause : DiskCause
  path : Path
  target : Option Path := none
  deriving DecidableEq, Repr

namespace DiskCause

/-- The number of a cause. -/
def number : DiskCause → Nat
  | .missing => 2
  | .busy => 16
  | .exists => 17
  | .notDirectory => 20
  | .isDirectory => 21
  | .nameTooLong => 36

/-- The wording of a cause. -/
def text : DiskCause → String
  | .missing => "No such file or directory"
  | .busy => "Device or resource busy"
  | .exists => "File exists"
  | .notDirectory => "Not a directory"
  | .isDirectory => "Is a directory"
  | .nameTooLong => "File name too long"

/-- The kind of failure that a cause belongs to. -/
def kind : DiskCause → String
  | .missing => "FileNotFoundError"
  | .exists => "FileExistsError"
  | .notDirectory => "NotADirectoryError"
  | .isDirectory => "IsADirectoryError"
  | .busy | .nameTooLong => "OSError"

end DiskCause

namespace DiskFault

/-- The wording of a fault. -/
def message (f : DiskFault) : String :=
  s!"[Errno {f.cause.number}] " ++ f.cause.text ++ ": " ++ Text.quoted f.path.text ++
    (f.target.map fun t => " -> " ++ Text.quoted t.text).getD ""

/-- The wording of a fault with its kind. -/
def describe (f : DiskFault) : String := f.cause.kind ++ ": " ++ f.message

end DiskFault

/-- The most bytes of a name. -/
def longestName : Nat := 255

namespace Disk

/-- What stands at a place; the root is a directory. -/
def get? (d : Disk) (p : Place) : Option Entry :=
  if p = [] then some .directory else d.entries.lookup p

/-- A directory stands at the place. -/
def isDirectoryAt (d : Disk) (p : Place) : Bool := (d.get? p).any Entry.isDirectory

/-- The entries with one set. -/
def putEntry (p : Place) (e : Entry) : List (Place × Entry) → List (Place × Entry)
  | [] => [(p, e)]
  | (q, f) :: rest => if q = p then (q, e) :: rest else (q, f) :: putEntry p e rest

/-- The disk with something at a place. -/
def put (d : Disk) (p : Place) (e : Entry) : Disk := { d with entries := putEntry p e d.entries }

/-- The disk without a place and all that stands below it. -/
def remove (d : Disk) (p : Place) : Disk :=
  { d with entries := d.entries.filter fun (q, _) => !p.isPrefixOf q }

/-- The names of what stands in a directory. -/
def namesIn (d : Disk) (p : Place) : List String :=
  d.entries.filterMap fun (q, _) =>
    if q.dropLast = p then q.getLast? else none

/-- The place that names lead to from another, each of them being that of an entry. -/
def walk (d : Disk) : Place → List String → Except DiskCause Place
  | p, [] => .ok p
  | p, n :: ns =>
    if !d.isDirectoryAt p then .error .notDirectory
    else if n = Path.above then walk d p.dropLast ns
    else if longestName < n.utf8ByteSize then .error .nameTooLong
    else if (d.get? (p ++ [n])).isNone then .error .missing
    else walk d (p ++ [n]) ns

/-- The place at which a path starts. -/
def start (d : Disk) (p : Path) : Place := if p.root = "" then d.current else []

/-- The entry that a path leads to. -/
def lookup (d : Disk) (p : Path) : Except DiskCause Entry := do
  let place ← d.walk (d.start p) p.names
  match d.get? place with
  | some e => return e
  | none => throw .missing

/-- A path to be made: its place, or why there cannot be one. The last name has not to exist. -/
def placeFor (d : Disk) (p : Path) : Except DiskCause Place := do
  let place ← d.walk (d.start p) p.names.dropLast
  if !d.isDirectoryAt place then throw .notDirectory
  match p.names.getLast? with
  | none => throw .exists
  | some n =>
    if n = Path.above then throw .busy
    if longestName < n.utf8ByteSize then throw .nameTooLong
    return place ++ [n]

/-- The path leads to something; `none` if that cannot be known. -/
def holds (d : Disk) (test : Entry → Bool) (p : Path) : Except DiskFault Bool :=
  match d.lookup p with
  | .ok e => .ok (test e)
  | .error .nameTooLong => .error ⟨.nameTooLong, p, none⟩
  | .error _ => .ok false

/-- The path leads to something. -/
def hasEntry (d : Disk) (p : Path) : Except DiskFault Bool := d.holds (fun _ => true) p

/-- The path leads to a directory. -/
def hasDirectory (d : Disk) (p : Path) : Except DiskFault Bool := d.holds Entry.isDirectory p

/-- The path leads to a file. -/
def hasFile (d : Disk) (p : Path) : Except DiskFault Bool := d.holds (fun e => !e.isDirectory) p

/-- The disk with one new directory. -/
def makeDirectory (d : Disk) (p : Path) : Except DiskFault Disk :=
  match d.placeFor p with
  | .error .busy => .error ⟨.exists, p, none⟩
  | .error cause => .error ⟨cause, p, none⟩
  | .ok place =>
    if (d.get? place).isSome then .error ⟨.exists, p, none⟩ else .ok (d.put place .directory)

/-- The disk with a directory and those that hold it, all of which may exist. The number bounds how
many of them are made. What was made stays, also when a later one cannot be made. -/
def makeDirectories : Nat → Disk → Path → Disk × Option DiskFault
  | fuel, d, p => match d.makeDirectory p with
    | .ok d => (d, none)
    | .error f =>
      if f.cause = .missing then
        match fuel with
        | 0 => (d, some f)
        | fuel + 1 => match makeDirectories fuel d p.parent with
          | (d, some f) => (d, some f)
          | (d, none) => makeLast d p
      else (d, faultUnlessDirectory d p f)
where
  /-- The fault, unless the path is that of a directory anyway. -/
  faultUnlessDirectory (d : Disk) (p : Path) (f : DiskFault) : Option DiskFault :=
    match d.hasDirectory p with
    | .ok true => none
    | .ok false => some f
    | .error f => some f
  /-- The last directory, when all that hold it exist. -/
  makeLast (d : Disk) (p : Path) : Disk × Option DiskFault :=
    match d.makeDirectory p with
    | .ok d => (d, none)
    | .error f => (d, faultUnlessDirectory d p f)

/-- The disk with the content of a file. -/
def writeFile (d : Disk) (p : Path) (content : ByteArray) : Except DiskFault Disk :=
  match d.placeFor p with
  | .error .busy | .error .exists => .error ⟨.isDirectory, p, none⟩
  | .error cause => .error ⟨cause, p, none⟩
  | .ok place =>
    if d.isDirectoryAt place then .error ⟨.isDirectory, p, none⟩
    else .ok (d.put place (.file content))

/-- The disk with what stands at a place moved to a path, whose file it replaces. -/
def moveFile (d : Disk) (source : Place) (p : Path) : Except DiskCause Disk :=
  match d.placeFor p with
  | .error cause => .error cause
  | .ok target => match d.get? source with
    | none => .error .missing
    | some e =>
      if d.isDirectoryAt target then .error .isDirectory
      else .ok ((d.remove source).put target e)

end Disk

end EntityForge
