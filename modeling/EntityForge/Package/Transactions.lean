import EntityForge.Package.Shape

/-!
# The transactions module

The backend bound to a connection that is inside a transaction.
-/

namespace EntityForge.Package

open Source

/-- The backend inside a transaction. -/
def transactionClass (e : Entity) : ClassBlock where
  name := e.transactionName
  bases := [e.backendName]
  doc := some (s!"{e.backendName} running inside an open transaction." ++
    s!"\n\nUsage::\n\n    async with {e.transactionName}.begin(pool) as repo:\n        ...\n\n" ++
    "Leaving the block commits; an exception rolls back and is re-raised\n" ++
    "as ``TransactionError``.")
  paragraphs := [
    .method {
      name := "__init__"
      parameters := ["self", "connection: Any"]
      returns := "None"
      body := [⟨0, "if not connection.is_in_transaction():"⟩,
        ⟨1, s!"raise RuntimeError(\"{e.transactionName} needs a connection inside a transaction.\")"⟩,
        ⟨0, "super().__init__(connection)"⟩] },
    .method {
      name := "begin"
      parameters := ["cls", "pool: Any"]
      returns := s!"AsyncIterator[{e.transactionName}]"
      decorators := ["classmethod", "asynccontextmanager"]
      isAsync := true
      body := [⟨0, "async with transaction(pool) as connection:"⟩, ⟨1, "yield cls(connection)"⟩] }]

/-- The module with the backend of an entity inside a transaction. -/
def transactionsModule (runtime : String) (e : Entity) : Module where
  doc := s!"Transactional repository for {e.name}." ++ generatedNote
  imports := lastPerModule [("contextlib", ["asynccontextmanager"]),
    ("typing", ["Any", "AsyncIterator"]), (runtime, ["transaction"]),
    (".postgres", [e.backendName])]
  sections := [.classDef (transactionClass e)]

end EntityForge.Package
