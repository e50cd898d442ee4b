import EntityForge.Package.Shape

/-!
# The commands module

For every command of an entity its payload, unless the payload is declared elsewhere, the variant
that carries the payload, and the variant that carries the result. The handler has one method for
every command and a dispatcher that sends each variant to its own method.
-/

namespace EntityForge.Package

open Source

/-- The fields that the payload of a command takes from the entity. -/
def payloadFields (e : Entity) (c : Command) : List Field :=
  match c.source with
  | .create => e.createFields
  | .update => e.updateFields
  | .fields => e.fields.filter fun f => c.fields.contains f.name && !f.isId
  | .custom | .none => []

/-- The declarations of a payload, the identifier first where it is needed. -/
def payloadAttributes (e : Entity) (c : Command) : List ShapeField :=
  (if c.requiresId then [⟨"id", e.idHint, none, none⟩] else []) ++
    (payloadFields e c).map fun f => { shapeField (c.source == .update) f with doc := none }

/-- What the payload of a command needs imported. -/
def payloadImports (e : Entity) (c : Command) : List Registration :=
  (if c.requiresId then e.idImports else []) ++
    (payloadFields e c).flatMap fun f => f.type.hintImports (c.source == .update)

/-- The payload of a command. -/
def payloadClass (e : Entity) (c : Command) : ClassBlock where
  name := c.structName e.name
  decorators := ["dataclass(frozen=True, kw_only=True)"]
  doc := some s!"Payload of the {c.name} command on {e.name}."
  paragraphs :=
    if (payloadAttributes e c).isEmpty then []
    else [.attributes ((payloadAttributes e c).map ShapeField.text)]

/-- The last declared command with the name of a command. -/
def lastNamed (e : Entity) (c : Command) : Command :=
  (e.commands.reverse.find? fun d => d.name == c.name).getD c

/-- The type of the payload of a command. -/
def payloadType (e : Entity) (c : Command) : String :=
  let d := lastNamed e c
  (d.externalPayload?.map pathName).getD (d.structName e.name)

/-- The type of the result of a command, if it yields one. -/
def resultType (e : Entity) (c : Command) : Option String :=
  ((lastNamed e c).resultFor e.name).map pathName

/-- What the types of payload and result need imported. -/
def commandTypeImports (e : Entity) (c : Command) : List Registration :=
  (c.externalPayload?.map pathRegistrations).getD [] ++
    ((c.resultFor e.name).map pathRegistrations).getD []

/-- The base of the variants of commands or results. -/
def unionBase (name doc : String) : ClassBlock where
  name := name
  decorators := ["dataclass(frozen=True)"]
  doc := some doc
  paragraphs := [.attributes ["name: ClassVar[str] = \"\""]]

/-- A variant with the name of its command. -/
def variant (name base : String) (c : Command) (attributes : List String) : ClassBlock where
  name := name
  bases := [base]
  decorators := ["dataclass(frozen=True)"]
  paragraphs := [.attributes (("name: ClassVar[str] = \"" ++ c.name ++ "\"") :: attributes)]

/-- The variant that carries the payload of a command. -/
def commandVariant (e : Entity) (c : Command) : ClassBlock :=
  variant (e.variantName c) e.commandUnion c ["payload: " ++ payloadType e c]

/-- The variant that carries the result of a command. -/
def resultVariant (e : Entity) (c : Command) : ClassBlock :=
  variant (e.resultVariantName c) e.resultUnion c
    ((resultType e c).map fun t => "value: " ++ t).toList

/-- A branch of the dispatcher. -/
structure Branch where
  /-- The class of the commands it takes. -/
  variant : String
  /-- The method it calls. -/
  method : String
  /-- The class of the result. -/
  result : String
  /-- The result carries what the method returns. -/
  hasValue : Bool
  deriving DecidableEq, Repr

/-- The branch for a command. -/
def branch (e : Entity) (c : Command) : Branch :=
  ⟨e.variantName c, c.handlerMethod, e.resultVariantName c, (resultType e c).isSome⟩

/-- The lines of a branch. -/
def Branch.lines (b : Branch) : List CodeLine :=
  let call := s!"await self.{b.method}(command.payload, ctx)"
  ⟨0, s!"if isinstance(command, {b.variant}):"⟩ ::
    if b.hasValue then [⟨1, s!"return {b.result}({call})"⟩]
    else [⟨1, call⟩, ⟨1, s!"return {b.result}()"⟩]

/-- The dispatcher. -/
def dispatcher (e : Entity) : Paragraph := .method {
  name := "handle"
  parameters := ["self", s!"command: {e.commandUnion}", "ctx: ContextT"]
  returns := e.resultUnion
  isAsync := true
  body := e.commands.flatMap (fun c => (branch e c).lines) ++
    [⟨0, s!"raise TypeError(f\"Unknown {e.name} command: " ++ "\x7bcommand!r\x7d\")"⟩] }

/-- The method that handles a command. -/
def handlerMethod (e : Entity) (c : Command) : Paragraph := .method {
  name := c.handlerMethod
  parameters := ["self", "payload: " ++ payloadType e c, "ctx: ContextT"]
  returns := (nonEmpty? (resultType e c)).getD "None"
  decorators := ["abstractmethod"]
  isAsync := true
  doc := some (s!"Handle the {c.name} command." ++
    ((nonEmpty? c.security).map fun s => s!"  Security scheme: ``{s}``.").getD "") }

/-- The contract for handling commands. -/
def handlerClass (e : Entity) : ClassBlock where
  name := e.handlerName
  bases := ["ABC", "Generic[ContextT]"]
  doc := some (s!"Business logic for {e.name} commands." ++
    "\n\nImplement one ``handle_*`` coroutine per command; ``handle`` routes a\n" ++
    "command variant to it and wraps the return value in the matching\n" ++
    "result variant.  Failures are raised.")
  paragraphs := dispatcher e :: e.commands.map (handlerMethod e)

/-- The commands whose payload is defined here. -/
def ownPayloads (e : Entity) : List Command := e.commands.filter fun c => !c.isCustom

/-- The type of the caller's context. -/
def contextType : Section := .assignments [[⟨"ContextT", "TypeVar(\"ContextT\")", none, []⟩]]

/-- The module with the commands of an entity, if it declares any. -/
def commandsModule? (e : Entity) : Option Module :=
  if e.commands.isEmpty then none
  else some {
    doc := s!"Commands of {e.name}." ++ generatedNote
    imports := [("abc", ["ABC", "abstractmethod"]), ("dataclasses", ["dataclass"]),
      ("typing", ["ClassVar", "Generic", "TypeVar"]), (".entity", [e.name])] ++
      e.commands.flatMap (commandTypeImports e) ++ (ownPayloads e).flatMap (payloadImports e)
    sections := [contextType] ++ (ownPayloads e).map (fun c => .classDef (payloadClass e c)) ++
      [.classDef (unionBase e.commandUnion
        s!"Base of every {e.name} command; ``name`` identifies the variant.")] ++
      e.commands.map (fun c => .classDef (commandVariant e c)) ++
      [.classDef (unionBase e.resultUnion
        s!"Base of every {e.name} command result; ``name`` matches the command.")] ++
      e.commands.map (fun c => .classDef (resultVariant e c)) ++ [.classDef (handlerClass e)] }

end EntityForge.Package
