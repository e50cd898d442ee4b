import EntityForge.Package.Commands
import EntityForge.Package.Repository

/-!
# The policy module

The checks that decide on the operations of an entity, a policy that allows everything, and the
repository guarded by a policy: each of its methods first asks the check for its operation and
only then calls the repository, with its own arguments.
-/

namespace EntityForge.Package

open Source

/-- A check of a policy. -/
structure PolicyCheck where
  name : String
  /-- The parameters with their types, besides the caller's context. -/
  parameters : List String
  verb : String
  deriving DecidableEq, Repr

/-- What a check decides on. -/
def PolicyCheck.doc (c : PolicyCheck) (e : Entity) : String :=
  s!"Allow or refuse a {c.verb} of {e.name}; raise to refuse."

/-- The checks of an entity's policy. -/
def policyChecks (e : Entity) : List PolicyCheck :=
  let id := idParameter e
  (if e.createFields.isEmpty then []
    else [⟨"can_create", [s!"dto: {e.createRequest}"], "create"⟩]) ++
    [⟨"can_read", [id], "read"⟩] ++
    (if e.updateFields.isEmpty then []
      else [⟨"can_update", [id, s!"dto: {e.updateRequest}"], "update"⟩]) ++
    [⟨"can_delete", [id], "delete"⟩, ⟨"can_list", [], "list"⟩] ++
    (if e.hasCommands then [⟨"can_command", [s!"command: {e.commandUnion}"], "command"⟩] else [])

/-- What the declarations of the checks need imported. -/
def checkImports (e : Entity) : List Registration :=
  e.idImports ++ requestImports e ++
    if e.hasCommands then [(".commands", [e.commandUnion])] else []

/-- The call of a check: its name and the arguments in front of the context. -/
structure CheckCall where
  name : String
  arguments : List String
  deriving DecidableEq, Repr

/-- The expression of a call of a check. -/
def CheckCall.text (c : CheckCall) : String :=
  s!"self._policy.{c.name}(" ++ ", ".intercalate (c.arguments ++ ["ctx"]) ++ ")"

/-- The check that guards a method, asked with arguments of the method. -/
def checkFor (m : RepositoryMethod) : CheckCall :=
  match m.operation with
  | .create => ⟨"can_create", ["dto"]⟩
  | .update => ⟨"can_update", ["id", "dto"]⟩
  | .delete => ⟨"can_delete", ["id"]⟩
  | .list => ⟨"can_list", []⟩
  | .read | .command => ⟨"can_read", m.arguments.take 1⟩

/-- A method of the guarded repository. -/
structure GuardedMethod where
  method : RepositoryMethod
  check : CheckCall
  deriving DecidableEq, Repr

/-- A method behind the check for its operation. -/
def guarded (m : RepositoryMethod) : GuardedMethod := ⟨m, checkFor m⟩

/-- The methods of the guarded repository. -/
def guardedMethods (e : Entity) : List GuardedMethod := (repositoryMethods e).map guarded

namespace GuardedMethod

/-- The lines of a guarded method: first the check, then the call. -/
def body (g : GuardedMethod) : List CodeLine :=
  let operation := "PolicyOperation." ++ g.method.operation.constant
  flat [s!"await self._authorize({operation}, " ++ g.check.text ++ ")",
    s!"return await self._run({operation}, " ++ g.method.call "self._repo" ++ ")"]

/-- The guarded method as part of its class. -/
def paragraph (g : GuardedMethod) : Paragraph := .method {
  name := g.method.name
  parameters := "self" :: g.method.parameters ++ ["*", "ctx: ContextT"]
  returns := g.method.returns
  isAsync := true
  body := g.body }

end GuardedMethod

/-- The policy of an entity. -/
def policyClass (e : Entity) : ClassBlock where
  name := e.policyName
  bases := ["ABC", "Generic[ContextT]"]
  doc := some (s!"Authorization checks for {e.name}." ++
    "\n\nA check allows the operation by returning and refuses it by raising\n" ++
    "(``PermissionDenied`` or any exception of the caller's choice).")
  paragraphs := (policyChecks e).map fun c => .method {
    name := c.name
    parameters := "self" :: c.parameters ++ ["ctx: ContextT"]
    returns := "None"
    decorators := ["abstractmethod"]
    isAsync := true
    doc := some (c.doc e) }

/-- The policy that allows everything. -/
def allowAllClass (e : Entity) : ClassBlock where
  name := e.allowAllName
  bases := [s!"{e.policyName}[Any]"]
  doc := some (s!"Policy that allows every {e.name} operation." ++
    "\n\nFor development or when authorization happens elsewhere.")
  paragraphs := (policyChecks e).map fun c => .method {
    name := c.name
    parameters := "self" :: c.parameters ++ ["ctx: Any"]
    returns := "None"
    isAsync := true
    body := [⟨0, "return None"⟩] }

/-- A property that gives out a part of the guarded repository. -/
def partProperty (name returns part : String) : Paragraph := .method {
  name := name
  parameters := ["self"]
  returns := returns
  decorators := ["property"]
  body := [⟨0, "return self." ++ part⟩] }

/-- The method that awaits something and blames a failure on one side. -/
def awaitMethod (name parameter returns awaiting blame : String) : Paragraph := .method {
  name := name
  parameters := ["self", "operation: PolicyOperation", parameter]
  returns := returns
  isAsync := true
  body := [⟨0, "try:"⟩, ⟨1, awaiting⟩, ⟨0, "except Exception as exc:"⟩,
    ⟨1, s!"raise PolicyError.{blame}(exc, operation) from exc"⟩] }

/-- The method that runs a command behind its check, for an entity with commands. -/
def executeMethod (e : Entity) : List Paragraph :=
  if e.hasCommands then [.method {
    name := "execute"
    parameters := ["self", s!"handler: {e.handlerName}[ContextT]", s!"command: {e.commandUnion}",
      "*", "ctx: ContextT"]
    returns := e.resultUnion
    isAsync := true
    layout := .together
    doc := some "Check ``can_command`` and run *command* through *handler*."
    body := [⟨0, "await self._authorize("⟩,
      ⟨1, "PolicyOperation.COMMAND, self._policy.can_command(command, ctx)"⟩, ⟨0, ")"⟩,
      ⟨0, "return await self._run(PolicyOperation.COMMAND, handler.handle(command, ctx))"⟩] }]
  else []

/-- The repository guarded by a policy. -/
def guardedClass (e : Entity) : ClassBlock where
  name := e.guardedName
  bases := ["Generic[ContextT]"]
  doc := some (s!"{e.repositoryName} guarded by a {e.policyName}." ++
    "\n\nEvery method takes the caller's context as the keyword argument ``ctx``\n" ++
    "and raises ``PolicyError``: ``is_policy`` when the check refused the call,\n" ++
    "``is_repository`` when the repository failed.")
  paragraphs := [
    .method {
      name := "__init__"
      parameters := ["self", s!"repo: {e.repositoryName}", s!"policy: {e.policyName}[ContextT]"]
      returns := "None"
      body := [⟨0, s!"self._repo: {e.repositoryName} = repo"⟩,
        ⟨0, s!"self._policy: {e.policyName}[ContextT] = policy"⟩] },
    partProperty "inner" e.repositoryName "_repo",
    partProperty "policy" s!"{e.policyName}[ContextT]" "_policy",
    awaitMethod "_authorize" "check: Awaitable[None]" "None" "await check" "policy",
    awaitMethod "_run" "call: Awaitable[T]" "T" "return await call" "repository"] ++
    (guardedMethods e).map GuardedMethod.paragraph ++ executeMethod e

/-- What the guarded repository needs imported. -/
def guardedImports (runtime : String) (e : Entity) : List Registration :=
  [(runtime, ["PolicyError", "PolicyOperation"]), ("typing", ["Awaitable"]),
    (".repository", [e.repositoryName])] ++ methodImports e ++
    if e.hasCommands then [(".commands", [e.handlerName, e.commandUnion, e.resultUnion])] else []

/-- The module with the policy of an entity, and with the guarded repository if there is a
repository. -/
def policyModule (runtime : String) (e : Entity) : Module where
  doc := s!"Authorization policy for {e.name}." ++ generatedNote
  imports := [("abc", ["ABC", "abstractmethod"]), ("typing", ["Any", "Generic", "TypeVar"])] ++
    checkImports e ++ if e.hasRepository then guardedImports runtime e else []
  sections := [contextType, .classDef (policyClass e), .classDef (allowAllClass e)] ++
    if e.hasRepository then
      [.assignments [[⟨"T", "TypeVar(\"T\")", none, []⟩]], .classDef (guardedClass e)]
    else []

end EntityForge.Package
