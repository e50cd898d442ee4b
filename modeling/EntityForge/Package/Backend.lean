import EntityForge.Package.Repository
import EntityForge.Postgres.Statement

/-!
# The backend module

The implementation of an entity's storage contract. The module holds one constant for every static
statement; the methods pass a constant, or a statement put together for the call, to the executor
with its arguments. A body is a list of steps, so that the calls it makes can be read off it.
-/

namespace EntityForge.Package

open Source Postgres

/-- The way a statement is run. -/
inductive Verb where
  | fetch
  | fetchRow
  | execute
  deriving DecidableEq, Repr

namespace Verb

/-- The executor's method. -/
def word : Verb → String
  | .fetch => "fetch"
  | .fetchRow => "fetchrow"
  | .execute => "execute"

/-- What the executor's method returns. -/
def returns : Verb → String
  | .fetch => "List[Any]"
  | .fetchRow => "Any"
  | .execute => "str"

end Verb

/-- A statement run with arguments. -/
structure Call where
  verb : Verb
  statement : String
  arguments : List String
  deriving DecidableEq, Repr

/-- The expression of a call. -/
def Call.text (c : Call) : String :=
  s!"await self._{c.verb.word}(" ++ ", ".intercalate (c.statement :: c.arguments) ++ ")"

/-- A line of a method body, with or without a call. -/
inductive Step where
  | line (depth : Nat) (text : String)
  | call (before : String) (c : Call) (after : String)
  deriving DecidableEq, Repr

/-- The written step. -/
def Step.code : Step → CodeLine
  | .line depth text => ⟨depth, text⟩
  | .call before c after => ⟨0, before ++ c.text ++ after⟩

/-- The call of a step, if it makes one. -/
def Step.call? : Step → Option Call
  | .line _ _ => none
  | .call _ c _ => some c

/-- The constant that holds the statement of a method. -/
def constantName (method : String) : String := method.map Char.toUpper ++ "_SQL"

/-- The constants with the static statements. -/
def constants (e : Entity) : List (String × Statement) :=
  [("INSERT_SQL", insertion e), ("FIND_BY_ID_SQL", findById e), ("DELETE_SQL", deletion e),
    ("LIST_SQL", listing e)] ++
    (if e.softDelete then [("HARD_DELETE_SQL", hardDeletion e), ("RESTORE_SQL", restoring e),
      ("FIND_BY_ID_WITH_DELETED_SQL", findByIdWithDeleted e),
      ("LIST_WITH_DELETED_SQL", listingWithDeleted e)] else []) ++
    (parentLookups e ++ childLookups e ++ projectionLookups e).map fun l =>
      (constantName l.1, l.2)

/-- The columns of the fields that may be changed, by the names of the fields. -/
def updateColumns (e : Entity) : List (String × String) :=
  e.updateFields.map fun f => (f.name, f.columnName)

/-- The table of the columns of a change. -/
def updateTable (e : Entity) : List (List Assignment) :=
  if e.updateFields.isEmpty then []
  else [[⟨"UPDATE_COLUMNS", "\x7b", some "Dict[str, str]",
    (updateColumns e).map (fun c => ⟨1, "\"" ++ c.1 ++ "\": \"" ++ c.2 ++ "\","⟩) ++
      [⟨0, "\x7d"⟩]⟩]]

/-- The module-level names of the backend. -/
def backendConstants (e : Entity) : Section :=
  let constant (name value : String) : Assignment := ⟨name, literal value, none, []⟩
  .assignments ([[constant "TABLE" e.fullTable, constant "ID_COLUMN" e.idField.columnName],
    (constants e).map fun c => constant c.1 c.2.text] ++ updateTable e)

/-- The notification of an event. -/
def publish (e : Entity) (suffix arguments : String) : String :=
  s!"await self._publish({e.name}{suffix}({arguments}))"

/-- The steps that read one row. -/
def fetchOne (statement className argument : String) : List Step :=
  [.call "row = " ⟨.fetchRow, statement, [argument]⟩ "",
    .line 0 s!"return None if row is None else {className}.from_row(row)"]

/-- The steps that read several rows. -/
def fetchMany (statement className : String) (arguments : List String) : List Step :=
  [.call "rows = " ⟨.fetch, statement, arguments⟩ "",
    .line 0 s!"return [{className}.from_row(row) for row in rows]"]

/-- The values of a new row. -/
def insertArguments (e : Entity) : List String := e.fields.map fun f => "entity." ++ f.name

/-- The steps that insert a row. -/
def createSteps (e : Entity) : List Step :=
  let insert (verb : Verb) : Call := ⟨verb, "INSERT_SQL", insertArguments e⟩
  [.line 0 "entity = dto.to_entity()"] ++
    (match e.returning with
      | .full => [.call "row = " (insert .fetchRow) "",
        .line 0 s!"entity = {e.name}.from_row(row)"]
      | .id => [.call "" (insert .fetchRow) ""]
      | .none => [.call "" (insert .execute) ""]) ++
    (if e.features.streams then [.line 0 (publish e "Created" "entity=entity")] else []) ++
    [.line 0 "return entity"]

/-- A truth value of the generated code. -/
def boolText (b : Bool) : String := if b then "True" else "False"

/-- The steps that change a row. -/
def updateSteps (e : Entity) : List Step :=
  let full := e.returning == .full
  let streams := e.features.streams
  let notice := publish e "Updated" "before=before, after=updated"
  [.line 0 "changes = \x7bUPDATE_COLUMNS[k]: v for k, v in dto.changes().items()\x7d",
    .line 0 "if not changes:", .line 1 "return await self.find_by_id(id)"] ++
    (if streams then [.line 0 "before = await self.find_by_id(id)",
      .line 0 "if before is None:", .line 1 "return None"] else []) ++
    [.line 0 "sql, params = build_update(", .line 1 "TABLE, ID_COLUMN, id, changes,",
      .line 1 ("soft_delete=" ++ boolText e.softDelete ++ ", returning=" ++ boolText full ++ ","),
      .line 0 ")"] ++
    (if full then [.call "row = " ⟨.fetchRow, "sql", ["*params"]⟩ "",
        .line 0 "if row is None:", .line 1 "return None",
        .line 0 s!"updated = {e.name}.from_row(row)"]
      else [.call "if affected_rows(" ⟨.execute, "sql", ["*params"]⟩ ") == 0:",
        .line 1 "return None", .line 0 "updated = await self.find_by_id(id)"]) ++
    (if !streams then []
      else if full then [.line 0 notice]
      else [.line 0 "if updated is not None:", .line 1 notice]) ++
    [.line 0 "return updated"]

/-- The event of a removal. -/
def removalEvent (e : Entity) (method : String) : String :=
  if method = "restore" then "Restored"
  else if method = "delete" && e.softDelete then "SoftDeleted"
  else "HardDeleted"

/-- The steps that remove or restore a row. -/
def removalSteps (e : Entity) (method : String) : List Step :=
  [.call "done = affected_rows(" ⟨.execute, constantName method, ["id"]⟩ ") > 0"] ++
    (if e.features.streams then
      [.line 0 "if done:", .line 1 (publish e (removalEvent e method) "id=id")] else []) ++
    [.line 0 "return done"]

/-- The field by which a method looks up a parent. -/
def parentField? (e : Entity) (method : String) : Option Field :=
  e.relationFields.find? fun f => Entity.parentLookup f.parent == method

/-- The steps that look up a parent. -/
def parentSteps (e : Entity) (m : RepositoryMethod) : List Step :=
  let field := ((parentField? e m.name).map Field.name).getD ""
  [.line 0 "entity = await self.find_by_id(id)",
    .line 0 s!"if entity is None or entity.{field} is None:", .line 1 "return None"] ++
    fetchOne (constantName m.name) (m.target.getD "") ("entity." ++ field)

/-- The steps of a lookup. -/
def lookupSteps (e : Entity) (m : RepositoryMethod) : List Step :=
  match m.lookup with
  | some .parent => parentSteps e m
  | some .child => fetchMany (constantName m.name) (m.target.getD "") (m.arguments.take 1)
  | _ => fetchOne (constantName m.name) (m.target.getD "") "id"

/-- The steps of a method. A name that an operation of its own has stands for that operation. -/
def methodSteps (e : Entity) (m : RepositoryMethod) : List Step :=
  match m.name with
  | "create" => createSteps e
  | "update" => updateSteps e
  | "find_by_id" | "find_by_id_with_deleted" => fetchOne (constantName m.name) e.name "id"
  | "list" | "list_with_deleted" => fetchMany (constantName m.name) e.name ["limit", "offset"]
  | "delete" | "hard_delete" | "restore" => removalSteps e m.name
  | "query" => .line 0 s!"sql, params = {e.queryFunction}(query)" ::
    fetchMany "sql" e.name ["*params"]
  | _ => lookupSteps e m

/-- The calls that a method makes. -/
def methodCalls (e : Entity) (m : RepositoryMethod) : List Call :=
  (methodSteps e m).filterMap Step.call?

/-- What the steps of a method need imported. -/
def stepImports (runtime : String) (e : Entity) (m : RepositoryMethod) : List Registration :=
  let event (suffix : String) : List Registration :=
    if e.features.streams then [(".events", [e.name ++ suffix])] else []
  match m.name with
  | "create" => event "Created"
  | "update" => (runtime, ["build_update"]) :: event "Updated"
  | "delete" | "hard_delete" | "restore" => event (removalEvent e m.name)
  | "query" => [(".query", [e.queryFunction])]
  | _ => []

/-- A method of the backend. -/
def backendMethod (e : Entity) (m : RepositoryMethod) : Paragraph := .method {
  name := m.name
  parameters := "self" :: m.parameters
  returns := m.returns
  isAsync := true
  body := (methodSteps e m).map Step.code }

/-- The method that runs statements in one way; database errors become the entity's own. -/
def runMethod (e : Entity) (verb : Verb) : Paragraph :=
  let call := s!"await self._executor.{verb.word}(sql, *args)"
  .method {
    name := "_" ++ verb.word
    parameters := ["self", "sql: str", "*args: Any"]
    returns := verb.returns
    isAsync := true
    body := match nonEmpty? e.errorType with
      | none => [⟨0, "return " ++ call⟩]
      | some path => [⟨0, "try:"⟩, ⟨1, "return " ++ call⟩, ⟨0, "except PostgresError as exc:"⟩,
        ⟨1, "raise " ++ pathName path ++ "(str(exc)) from exc"⟩] }

/-- The method that publishes events, for an entity with streams. -/
def publishMethod (e : Entity) : List Paragraph :=
  if e.features.streams then [.method {
    name := "_publish"
    parameters := ["self", s!"event: {e.eventUnion}"]
    returns := "None"
    isAsync := true
    body := [⟨0, "await publish(self._executor, channel_name(" ++ literal e.table ++
      "), event.to_payload())"⟩] }]
  else []

/-- The documentation of the backend class. -/
def backendDoc (e : Entity) : String :=
  s!"{e.repositoryName} over an asyncpg connection or pool." ++
    ((nonEmpty? e.errorType).map fun path =>
      s!"\n\nDatabase errors are re-raised as ``{path}``.").getD "" ++
    (if e.features.streams then
      "\n\nEvery successful write publishes an event with ``pg_notify``." else "")

/-- The backend class. -/
def backendClass (e : Entity) : ClassBlock where
  name := e.backendName
  bases := [e.repositoryName]
  doc := some (backendDoc e)
  paragraphs := [.method {
      name := "__init__"
      parameters := ["self", "executor: Executor"]
      returns := "None"
      body := [⟨0, "self._executor: Executor = executor"⟩] }] ++
    [Verb.fetch, .fetchRow, .execute].map (runMethod e) ++ publishMethod e ++
    (repositoryMethods e).map (backendMethod e)

/-- What the backend module imports. -/
def backendImports (runtime : String) (e : Entity) : List Registration :=
  lastPerModule [("typing", ["Any", "List"]), (runtime, ["Executor", "affected_rows"]),
    (".repository", [e.repositoryName])] ++ methodImports e ++
    (if e.updateFields.isEmpty then [] else [("typing", ["Dict"])]) ++
    (if e.features.streams then
      [(runtime, ["channel_name", "publish"]), (".events", [e.eventUnion])] else []) ++
    ((nonEmpty? e.errorType).map fun path =>
      ("asyncpg", ["PostgresError"]) :: pathRegistrations path).getD [] ++
    (repositoryMethods e).flatMap (stepImports runtime e)

/-- The module with the backend of an entity. -/
def backendModule (runtime : String) (e : Entity) : Module where
  doc := s!"Postgres implementation of {e.repositoryName}." ++ generatedNote
  imports := backendImports runtime e
  sections := [backendConstants e, .classDef (backendClass e)]

end EntityForge.Package
