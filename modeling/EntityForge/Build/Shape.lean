import EntityForge.Diagnostic
import EntityForge.Document.Declaration

/-!
# The shape of a declaration

Only a struct with named fields can become an entity. A declaration of any other shape is refused
before its attributes are read.
-/

namespace EntityForge.Build

/-- The context of findings about a declaration's shape. -/
def shapeContext (d : EntityDeclaration) : Context :=
  [("entity", .text d.name), ("kind", .text d.kind), ("shape", .text d.shape)]

/-- Every field of a declaration has a name. -/
def namedFields (d : EntityDeclaration) (fields : List FieldDeclaration) : Noted Unit :=
  Noted.each (fun (f, position) =>
    if (f.name.getD "").isEmpty then
      .error "UNNAMED_FIELDS"
        (s!"Entity '{d.name}': field #{position + 1} has no name; " ++
          "entity fields must be named.")
        (shapeContext d ++ [("position", .int (position : Nat))])
    else pure ()) fields.zipIdx

/-- The declaration is a struct with named fields, of which there is at least one. -/
def shape (d : EntityDeclaration) : Noted Unit :=
  if d.kind != "struct" then
    .error "NOT_A_STRUCT"
      (s!"Entity '{d.name}' must be a struct with named fields; " ++
        s!"'{d.kind}' declarations are not supported.") (shapeContext d)
  else match d.shape, d.fields with
    | "named", some [] =>
      .error "NO_FIELDS" s!"Entity '{d.name}' declares no fields." (shapeContext d)
    | "named", some fields => namedFields d fields
    | _, _ =>
      .error "UNNAMED_FIELDS"
        (s!"Entity '{d.name}' requires named fields; " ++
          s!"{d.shape} structs are not supported.") (shapeContext d)

end EntityForge.Build
