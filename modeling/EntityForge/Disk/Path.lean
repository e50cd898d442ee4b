import EntityForge.Text.Blank

/-!
# Paths

A path is a row of names, from the root or from the current directory. Empty names and the name of
the same directory are left out when a path is read; the name of the directory above is kept, since
what it means is seen only on the disk.
-/

namespace EntityForge

/-- A path; `root` is empty for one that starts at the current directory. -/
structure Path where
  root : String
  names : List String
  deriving DecidableEq, Repr, Inhabited

namespace Path

/-- The name of the directory above. -/
def above : String := ".."

/-- The path written as a text; of slashes at the start, two count apart from one or more. -/
def ofText (s : String) : Path where
  root :=
    match s.toList.takeWhile (· = '/') with
    | [] => ""
    | ['/', '/'] => "//"
    | _ => "/"
  names := ((Text.splitOn '/' s.toList).map .ofList).filter fun n => n ≠ "" && n ≠ "."

/-- The written form of a path. -/
def text (p : Path) : String :=
  if p.root = "" ∧ p.names = [] then "." else p.root ++ "/".intercalate p.names

/-- The path below another; one that starts at the root stands for itself. -/
def join (p q : Path) : Path := if q.root = "" then ⟨p.root, p.names ++ q.names⟩ else q

/-- The directory that holds the last name. -/
def parent (p : Path) : Path := ⟨p.root, p.names.dropLast⟩

/-- The last name. -/
def name (p : Path) : String := p.names.getLastD ""

/-- The path with another last name. -/
def withName (p : Path) (name : String) : Path := ⟨p.root, p.names.dropLast ++ [name]⟩

/-- The last name from its last point on, unless the point is its first or last character. -/
def extension (p : Path) : String :=
  let back := p.name.toList.reverse
  let ending := back.takeWhile (· ≠ '.')
  if ending = [] ∨ back.length ≤ ending.length + 1 then ""
  else .ofList ('.' :: ending.reverse)

/-- Names without those of the directory above, each of which takes away the name before it. -/
def collapse (names : List String) : List String :=
  names.foldl (fun acc n => if n = above then acc.dropLast else acc ++ [n]) []

/-- The path from the root that a path means as written, seen from a directory. -/
def resolve (current : List String) (p : Path) : Path :=
  if p.root = "" then ⟨"/", collapse (current ++ p.names)⟩ else ⟨p.root, collapse p.names⟩

end Path

end EntityForge
