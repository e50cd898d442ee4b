import EntityForge.Package.Repository

/-!
# The hooks module

A class of methods that do nothing, called before and after the operations of an entity.
-/

namespace EntityForge.Package

open Source

/-- A hook: its name and its parameters with their types. -/
abbrev Hook := String × List String

/-- The hooks around an operation on a row given by its identifier. -/
def hooksById (e : Entity) (operation : String) : List Hook :=
  [("before_" ++ operation, [idParameter e]), ("after_" ++ operation, [idParameter e])]

/-- The hooks of an entity. -/
def hooks (e : Entity) : List Hook :=
  let after : List String := [s!"entity: {e.name}"]
  let command := s!"command: {e.commandUnion}"
  (if e.createFields.isEmpty then []
    else [("before_create", [s!"dto: {e.createRequest}"]), ("after_create", after)]) ++
    (if e.updateFields.isEmpty then []
      else [("before_update", [idParameter e, s!"dto: {e.updateRequest}"]),
        ("after_update", after)]) ++
    hooksById e "delete" ++
    (if e.softDelete then hooksById e "hard_delete" ++ hooksById e "restore" else []) ++
    (if e.hasCommands then [("before_command", [command]),
      ("after_command", [command, s!"result: {e.resultUnion}"])] else [])

/-- What the declarations of the hooks need imported. -/
def hookImports (e : Entity) : List Registration :=
  e.idImports ++ requestImports e ++
    (if e.createFields.isEmpty && e.updateFields.isEmpty then [] else [(".entity", [e.name])]) ++
    if e.hasCommands then [(".commands", [e.commandUnion, e.resultUnion])] else []

/-- The module with the hooks of an entity. -/
def hooksModule (e : Entity) : Module where
  doc := s!"Lifecycle hooks of {e.name}." ++ generatedNote
  imports := hookImports e
  sections := [.classDef {
    name := e.hooksName
    doc := some (s!"Lifecycle hooks of {e.name}." ++
      "\n\nEvery hook does nothing by default.  Raise from a ``before_*`` hook\n" ++
      "to stop the operation.")
    paragraphs := (hooks e).map fun h => .method {
      name := h.1
      parameters := "self" :: h.2
      returns := "None"
      isAsync := true
      body := [⟨0, "return None"⟩] } }]

end EntityForge.Package
