import EntityForge.CommandLine.Run
import Std.Time

/-!
# The program

The disk that a command line is run on is read from the file system as far as its arguments lead to
it, and what has changed on it is written back.
-/

namespace EntityForge.Main

open CommandLine

/-- The first moment of the clock, in seconds from the first moment of year one. -/
def clockStart : Int := 86400 * 719162

/-- The time of the clock. -/
def timestamp : IO String := do
  let now ← Std.Time.Timestamp.now
  let t := DateTime.ofSeconds (clockStart + now.toSecondsSinceUnixEpoch.val).toNat
  return { t with offset := none }.textWith "T" ++ "+0000"

/-- What stands at a place. -/
def entryAt (place : Place) : IO (List (Place × Entry)) := do
  let path := (← IO.currentDir) / ("/" ++ "/".intercalate place)
  if !(← path.pathExists) then return []
  else if ← path.isDir then return [(place, .directory)]
  else return [(place, .file (← IO.FS.readBinFile path))]

/-- What stands below a place. -/
def entriesBelow (place : Place) : IO (List (Place × Entry)) := do
  let path := (← IO.currentDir) / ("/" ++ "/".intercalate place)
  if !(← path.isDir) then return []
  let found ← path.walkDir
  let parts ← found.toList.mapM fun p => entryAt (Path.ofText p.toString).names
  return parts.flatten

/-- A place and those that hold it. -/
def leadingTo (place : Place) : List Place :=
  (List.range place.length).map fun n => place.take (n + 1)

/-- The part of the file system that arguments lead to. -/
def readDisk (current : Place) (arguments : List String) : IO Disk := do
  let place (s : String) : Place := ((Path.ofText s).resolve current).names
  let (sources, outputs) := match Arguments.ofList arguments with
    | .ok a => (a.entities.toList.map place, [place (a.output.getD "")])
    | .error _ => ([], [])
  let leading ← (((current :: sources ++ outputs).flatMap leadingTo).eraseDups).mapM entryAt
  let below ← outputs.mapM entriesBelow
  let entries := (leading.flatten ++ below.flatten).foldl
    (fun es (p, e) => Disk.putEntry p e es) []
  return ⟨entries, current⟩

/-- Two entries are the same. -/
def sameEntry : Entry → Entry → Bool
  | .directory, .directory => true
  | .file a, .file b => a.toList == b.toList
  | _, _ => false

/-- Writes back what has changed on a disk. -/
def writeDisk (old new : Disk) : IO Unit := do
  let path (place : Place) : String := "/" ++ "/".intercalate place
  for (place, e) in old.entries.reverse do
    if (new.get? place).isNone then
      match e with
      | .directory => IO.FS.removeDirAll (path place)
      | .file _ => IO.FS.removeFile (path place)
  for (place, e) in new.entries do
    unless (old.get? place).any (sameEntry e) do
      match e with
      | .directory => IO.FS.createDirAll (path place)
      | .file content => IO.FS.writeBinFile (path place) content

/-- The wording of what stops a run. -/
def interruptionText : Interruption → String
  | .input f => f.message
  | .generation f => f.message

end EntityForge.Main

open EntityForge EntityForge.Main

/-- Runs the command line and ends with its exit code. -/
def main (arguments : List String) : IO UInt32 := do
  let current := (Path.ofText (← IO.currentDir).toString).names
  let disk ← readDisk current arguments
  match CommandLine.run arguments (← timestamp) disk with
  | .error i =>
    IO.eprintln (interruptionText i)
    return 1
  | .ok a =>
    a.errors.forM IO.eprintln
    a.output.forM IO.println
    writeDisk disk a.disk
    return a.code.toUInt32
