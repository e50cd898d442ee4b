import EntityForge.Package.Shape

/-!
# The events module

One class for every transition in the life of an entity, joined to a union by their kinds, and the
function that reads an event back from its payload. Marking as deleted and restoring are
transitions only of entities whose rows are marked.
-/

namespace EntityForge.Package

open Source

/-- An event. -/
structure EventVariant where
  suffix : String
  kind : String
  doc : String
  /-- The names of its fields with their types. -/
  fields : List (String × String)
  /-- The expression for the identifier of the entity concerned. -/
  idExpression : String
  deriving DecidableEq, Repr

/-- The class of an event. -/
def EventVariant.className (v : EventVariant) (e : Entity) : String := e.name ++ v.suffix

/-- The events of an entity. -/
def eventVariants (e : Entity) : List EventVariant :=
  let byId (suffix kind doc : String) : EventVariant :=
    ⟨suffix, kind, doc, [("id", e.idHint)], "self.id"⟩
  [⟨"Created", "created", s!"A {e.name} was inserted.", [("entity", e.name)],
      "self.entity." ++ e.idField.name⟩,
    ⟨"Updated", "updated", s!"A {e.name} was changed.", [("before", e.name), ("after", e.name)],
      "self.after." ++ e.idField.name⟩] ++
    (if e.softDelete then
      [byId "SoftDeleted" "soft_deleted" s!"A {e.name} was marked deleted.",
        byId "Restored" "restored" s!"A soft-deleted {e.name} was restored."] else []) ++
    [byId "HardDeleted" "hard_deleted" s!"A {e.name} row was removed."]

/-- The base class of the events. -/
def eventBase (e : Entity) : String := s!"_{e.name}EventBase"

/-- The class of an event. -/
def eventClass (e : Entity) (v : EventVariant) : ClassBlock where
  name := v.className e
  bases := [eventBase e]
  doc := some v.doc
  paragraphs := [
    .attributes ((s!"kind: Literal[\"{v.kind}\"] = \"{v.kind}\"") ::
      v.fields.map fun f => f.1 ++ ": " ++ f.2),
    .method {
      name := "entity_id"
      parameters := ["self"]
      returns := e.idHint
      body := [⟨0, "return " ++ v.idExpression⟩] }]

/-- The class that all events extend. -/
def eventBaseClass (e : Entity) : ClassBlock where
  name := eventBase e
  bases := ["BaseModel"]
  paragraphs := [.attributes ["model_config = ConfigDict(frozen=True)"], .method {
    name := "to_payload"
    parameters := ["self"]
    returns := "str"
    doc := some "JSON text carried by the notification channel."
    body := [⟨0, "return self.model_dump_json()"⟩] }]

/-- The union of the events and its reader. -/
def eventUnionSection (e : Entity) : Section :=
  let members := ", ".intercalate ((eventVariants e).map fun v => v.className e)
  let union := e.eventUnion
  .assignments [
    [⟨union, s!"Annotated[Union[{members}], Field(discriminator=\"kind\")]", none, []⟩],
    [⟨"_EVENT_ADAPTER", s!"TypeAdapter({union})", some s!"TypeAdapter[{union}]", []⟩]]

/-- The function that reads an event. -/
def decodeFunction (e : Entity) : Function where
  name := e.decodeFunction
  parameters := ["payload: Union[str, bytes]"]
  returns := e.eventUnion
  doc := some ("Inverse of ``to_payload()``.\n\n" ++
    "Raises ``pydantic.ValidationError`` (a ``ValueError``) when the payload is not a known event.")
  body := [⟨0, "return _EVENT_ADAPTER.validate_json(payload)"⟩]

/-- The module with the events of an entity. -/
def eventsModule (e : Entity) : Module where
  doc := s!"Lifecycle events of {e.name}." ++ generatedNote
  imports := [("pydantic", ["BaseModel", "ConfigDict", "Field", "TypeAdapter"]),
    ("typing", ["Annotated", "Literal", "Union"]), (".entity", [e.name])] ++ e.idImports
  sections := [.classDef (eventBaseClass e)] ++
    (eventVariants e).map (fun v => .classDef (eventClass e v)) ++
    [eventUnionSection e, .function (decodeFunction e)]

end EntityForge.Package
