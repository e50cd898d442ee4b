import EntityForge.Source.Docstring
import EntityForge.Source.Imports

/-!
# Generated code

A generated module as data: its documentation, the names it imports, and the sections it is made
of. A section assigns module-level names, defines a function or defines a class; a class is made
of paragraphs of attributes and of methods. Only `Module.text` turns this into lines: sections
stand two blank lines apart, paragraphs one.
-/

namespace EntityForge.Source

/-- A line of code, moved in by a number of levels. -/
structure CodeLine where
  depth : Nat
  text : String
  deriving DecidableEq, Repr, Inhabited

/-- The number of columns of one level. -/
def levelWidth : Nat := 4

/-- A line as it is written inside a part that starts at a level. -/
def CodeLine.at (level : Nat) (l : CodeLine) : String :=
  .ofList (List.replicate (levelWidth * (level + l.depth)) ' ') ++ l.text

/-- Lines as they are written at a level. -/
def codeAt (level : Nat) (ls : List CodeLine) : List String := ls.map (CodeLine.at level)

/-- Lines without indentation of their own. -/
def flat (texts : List String) : List CodeLine := texts.map (CodeLine.mk 0)

/-- Groups of lines with a number of blank lines between them. -/
def spaced (blank : Nat) : List (List String) → List String
  | [] => []
  | [g] => g
  | g :: gs => g ++ List.replicate blank "" ++ spaced blank gs

/-- How the parameters of a function are laid out. -/
inductive ParameterLayout where
  /-- On the line of the name. -/
  | inline
  /-- Together on a line of their own. -/
  | together
  /-- Each on a line of its own. -/
  | separate
  deriving DecidableEq, Repr, Inhabited

/-- A function or method. -/
structure Function where
  name : String
  parameters : List String
  returns : String
  decorators : List String := []
  isAsync : Bool := false
  layout : ParameterLayout := .inline
  doc : Option String := none
  body : List CodeLine := []
  deriving DecidableEq, Repr, Inhabited

namespace Function

/-- The lines of the name, the parameters and the result. -/
def head (f : Function) : List CodeLine :=
  let start := (if f.isAsync then "async def " else "def ") ++ f.name ++ "("
  let finish := s!") -> {f.returns}:"
  match f.layout with
  | .inline => [⟨0, start ++ ", ".intercalate f.parameters ++ finish⟩]
  | .together => [⟨0, start⟩, ⟨1, ", ".intercalate f.parameters⟩, ⟨0, finish⟩]
  | .separate => [⟨0, start⟩] ++ f.parameters.map (fun p => ⟨1, p ++ ","⟩) ++ [⟨0, finish⟩]

/-- The lines of a function at a level. -/
def lines (level : Nat) (f : Function) : List String :=
  codeAt level (f.decorators.map fun d => ⟨0, "@" ++ d⟩) ++ codeAt level f.head ++
    (f.doc.map fun d => docstring d (levelWidth * (level + 1))).getD [] ++
    codeAt (level + 1) f.body

end Function

/-- A part of a class. -/
inductive Paragraph where
  | attributes (lines : List String)
  | method (f : Function)
  deriving DecidableEq, Repr, Inhabited

/-- The lines of a part of a class. -/
def Paragraph.lines : Paragraph → List String
  | .attributes ls => codeAt 1 (flat ls)
  | .method f => f.lines 1

/-- A class. -/
structure ClassBlock where
  name : String
  bases : List String := []
  decorators : List String := []
  doc : Option String := none
  paragraphs : List Paragraph := []
  deriving DecidableEq, Repr, Inhabited

namespace ClassBlock

/-- The line of the name and the bases. -/
def head (c : ClassBlock) : String :=
  "class " ++ c.name ++ (if c.bases.isEmpty then "" else "(" ++ ", ".intercalate c.bases ++ ")") ++ ":"

/-- The methods. -/
def methods (c : ClassBlock) : List Function :=
  c.paragraphs.filterMap fun
    | .method f => some f
    | .attributes _ => none

/-- The lines of a class. -/
def lines (c : ClassBlock) : List String :=
  let doc := (c.doc.map fun d => docstring d levelWidth).toList
  c.decorators.map (fun d => "@" ++ d) ++ [c.head] ++
    spaced 1 (doc ++ c.paragraphs.map Paragraph.lines)

end ClassBlock

/-- An assignment to a module-level name; the value may go on over further lines. -/
structure Assignment where
  name : String
  value : String
  annotation : Option String := none
  more : List CodeLine := []
  deriving DecidableEq, Repr, Inhabited

/-- The lines of an assignment. -/
def Assignment.lines (a : Assignment) : List String :=
  (a.name ++ (a.annotation.map fun t => ": " ++ t).getD "" ++ " = " ++ a.value) :: codeAt 0 a.more

/-- A section of a module. -/
inductive Section where
  /-- Assignments in groups with a blank line between them. -/
  | assignments (groups : List (List Assignment))
  | function (f : Function)
  | classDef (c : ClassBlock)
  deriving DecidableEq, Repr, Inhabited

namespace Section

/-- The names that a section defines. -/
def names : Section → List String
  | .assignments groups => groups.flatten.map Assignment.name
  | .function f => [f.name]
  | .classDef c => [c.name]

/-- The lines of a section. -/
def lines : Section → List String
  | .assignments groups => spaced 1 (groups.map fun g => g.flatMap Assignment.lines)
  | .function f => f.lines 0
  | .classDef c => c.lines

end Section

/-- The lines up to the last one that is not blank. -/
def dropTrailingBlank (lines : List String) : List String :=
  (lines.reverse.dropWhile fun l => Text.isAllBlank l.toList).reverse

/-- The text of a module with a documentation, imports and the lines of its body. -/
def moduleText (doc : String) (imports : ImportTable) (body : List String) : String :=
  let block := imports.block
  let lines := docstring doc 0 ++ ["", "from __future__ import annotations"] ++
    (if block.isEmpty then [] else "" :: block) ++ ["", ""] ++ body
  "\n".intercalate (dropTrailingBlank lines) ++ "\n"

/-- A generated module. -/
structure Module where
  doc : String
  imports : List Registration
  sections : List Section
  deriving DecidableEq, Repr, Inhabited

namespace Module

/-- What the module imports, in order. -/
def importTable (m : Module) : ImportTable := .ofRegistrations m.imports

/-- The module-level names that the module defines, in order. -/
def definedNames (m : Module) : List String := m.sections.flatMap Section.names

/-- The classes that the module defines. -/
def classes (m : Module) : List ClassBlock :=
  m.sections.filterMap fun
    | .classDef c => some c
    | _ => none

/-- The written module. -/
def text (m : Module) : String :=
  moduleText m.doc m.importTable (spaced 2 (m.sections.map Section.lines))

end Module

end EntityForge.Source
