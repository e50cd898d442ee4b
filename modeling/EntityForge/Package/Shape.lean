import EntityForge.Package.Names
import EntityForge.Source.Code
import EntityForge.Source.Literal

/-!
# Shapes

A shape is a class of the generated code that carries fields. A field of a shape has a type hint,
a default value unless it is required, and the documentation of the field. Optional fields default
to nothing.
-/

namespace EntityForge.Package

open Source

/-- The last paragraph of the documentation of every generated module. -/
def generatedNote : String := "\n\nGenerated by entitygen; do not edit."

/-- A field of a shape. -/
structure ShapeField where
  name : String
  hint : String
  /-- The expression of the default value. -/
  defaultValue : Option String := none
  doc : Option String := none
  deriving DecidableEq, Repr, Inhabited

namespace ShapeField

/-- The declaration of a field. -/
def text (f : ShapeField) : String :=
  match nonEmpty? f.doc, f.defaultValue with
  | some doc, default =>
    let value := (default.map fun d => "default=" ++ d).getD "..."
    s!"{f.name}: {f.hint} = Field({value}, description=" ++ literal (Text.trimmed doc) ++ ")"
  | none, some default => s!"{f.name}: {f.hint} = {default}"
  | none, none => s!"{f.name}: {f.hint}"

end ShapeField

/-- An entity's field as a field of a shape, optional in any case when `allOptional` is set. -/
def shapeField (allOptional : Bool) (f : Field) : ShapeField where
  name := f.name
  hint := (f.type.hint allOptional).text
  defaultValue := if allOptional || f.type.nullable then some "None" else none
  doc := f.doc

/-- What the declarations of fields in a shape need imported. -/
def shapeImports (allOptional : Bool) (fields : List Field) : List Registration :=
  fields.flatMap fun f => f.type.hintImports allOptional ++
    (nonEmpty? f.doc).toList.map fun _ => ("pydantic", ["Field"])

/-- The declarations of fields in a shape. -/
def shapeAttributes (allOptional : Bool) (fields : List Field) : Paragraph :=
  .attributes (fields.map fun f => (shapeField allOptional f).text)

/-- A call with one keyword argument a line, from which a method returns. -/
def returnCall (callee : String) (arguments : List (String × String)) : List CodeLine :=
  [⟨0, s!"return {callee}("⟩] ++
    arguments.map (fun a => ⟨1, a.1 ++ "=" ++ a.2 ++ ","⟩) ++ [⟨0, ")"⟩]

/-- The columns of a row that a shape is built from: each attribute with its column. -/
def rowColumns (fields : List Field) : List (String × String) :=
  fields.map fun f => (f.name, f.columnName)

/-- The constructor from a row of a table. -/
def fromRow (className : String) (fields : List Field) : Function where
  name := "from_row"
  parameters := ["cls", "row: Mapping[str, Any]"]
  returns := className
  decorators := ["classmethod"]
  doc := some "Build from a database record keyed by column name."
  body := returnCall "cls" ((rowColumns fields).map fun c => (c.1, "row[\"" ++ c.2 ++ "\"]"))

/-- The constructor from an entity. -/
def fromEntity (className entity : String) (fields : List Field) : Function where
  name := "from_entity"
  parameters := ["cls", s!"entity: {entity}"]
  returns := className
  decorators := ["classmethod"]
  body := returnCall "cls" (fields.map fun f => (f.name, "entity." ++ f.name))

/-- The setting by which a shape reads its fields off any object with attributes. -/
def attributeReading : Paragraph := .attributes ["model_config = ConfigDict(from_attributes=True)"]

end EntityForge.Package
