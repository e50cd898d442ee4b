import EntityForge.Package.Shape

/-!
# The entity module

The class of the entity itself, with every field in the order of declaration, read from a row of
its table.
-/

namespace EntityForge.Package

open Source

/-- The module with the class of an entity. -/
def entityModule (e : Entity) : Module where
  doc := s!"{e.name} entity stored in ``{e.fullTable}``." ++ generatedNote
  imports := [("pydantic", ["BaseModel", "ConfigDict"]), ("typing", ["Any", "Mapping"])] ++
    shapeImports false e.fields
  sections := [.classDef {
    name := e.name
    bases := ["BaseModel"]
    doc := some ((nonEmpty? e.doc).getD s!"Row of ``{e.fullTable}``.")
    paragraphs := [attributeReading, shapeAttributes false e.fields,
      .method (fromRow e.name e.fields)] }]

end EntityForge.Package
