import EntityForge.Text.Blank

/-!
# Imports of a generated module

An import table holds the modules a generated module imports, each with the names taken from it,
both in increasing order of code points and without repetition. A module without names is imported
as a whole. The written block lists absolute modules before relative ones, which start with a dot.
-/

namespace EntityForge.Source

/-- A module and names taken from it. -/
abbrev Registration := String × List String

/-- The names with one more in its place, unless it is there already. -/
def insertName (name : String) : List String → List String
  | [] => [name]
  | x :: xs =>
    if name < x then name :: x :: xs else if name = x then x :: xs else x :: insertName name xs

/-- Opening registrations, of which a module that is listed again has only the last. -/
def lastPerModule : List Registration → List Registration
  | [] => []
  | r :: rs => if rs.any fun q => q.1 == r.1 then lastPerModule rs else r :: lastPerModule rs

/-- The modules that a generated module imports, in increasing order. -/
structure ImportTable where
  entries : List Registration
  deriving DecidableEq, Repr, Inhabited

namespace ImportTable

/-- Nothing is imported. -/
def empty : ImportTable := ⟨[]⟩

/-- The entries with names added to those of one module. -/
def insertEntry (module : String) (names : List String) : List Registration → List Registration
  | [] => [(module, names.foldr insertName [])]
  | (m, ns) :: rest =>
    if module < m then (module, names.foldr insertName []) :: (m, ns) :: rest
    else if module = m then (m, names.foldr insertName ns) :: rest
    else (m, ns) :: insertEntry module names rest

/-- The table with names taken from a module. -/
def register (t : ImportTable) (r : Registration) : ImportTable := ⟨insertEntry r.1 r.2 t.entries⟩

/-- The table with several registrations. -/
def registerAll (t : ImportTable) (rs : List Registration) : ImportTable := rs.foldl register t

/-- The table of some registrations, whatever their order. -/
def ofRegistrations (rs : List Registration) : ImportTable := empty.registerAll rs

/-- A module of the same package or of one above it. -/
def isRelative (module : String) : Bool := module.toList.head? = some '.'

/-- The line that imports a module or names of it. -/
def line (r : Registration) : String :=
  if r.2.isEmpty then "import " ++ r.1 else "from " ++ r.1 ++ " import " ++ ", ".intercalate r.2

/-- The entries in the order in which they are written. -/
def written (t : ImportTable) : List Registration :=
  t.entries.filter (fun r => !isRelative r.1) ++ t.entries.filter (fun r => isRelative r.1)

/-- The written lines. -/
def block (t : ImportTable) : List String := t.written.map line

end ImportTable

/-- The part of a dotted path before its last dot, and the part behind it. -/
def splitPath (path : String) : String × String :=
  let reversed := path.toList.reverse
  let name := reversed.takeWhile (· ≠ '.')
  (.ofList (reversed.drop (name.length + 1)).reverse, .ofList name.reverse)

/-- The bare name at the end of a dotted path. -/
def pathName (path : String) : String := (splitPath path).2

/-- What must be imported to use the bare name: nothing when the path has no module. -/
def pathRegistrations (path : String) : List Registration :=
  let (module, name) := splitPath path
  if module.isEmpty then [] else [(module, [name])]

end EntityForge.Source
