import EntityForge.Entity.Relation
import EntityForge.FieldType.Hint

/-!
# Names in a package

The names of the classes and functions that the package of an entity defines, all made from the
name of the entity, and the type hint of its identifier, which is never optional.
-/

namespace EntityForge

namespace Entity

/-- The request that carries a new entity. -/
def createRequest (e : Entity) : String := s!"Create{e.name}Request"

/-- The request that carries a change. -/
def updateRequest (e : Entity) : String := s!"Update{e.name}Request"

/-- The shape in which the entity is returned. -/
def responseName (e : Entity) : String := e.name ++ "Response"

/-- The filter parameters. -/
def queryName (e : Entity) : String := e.name ++ "Query"

/-- The function that makes a statement from filter parameters. -/
def queryFunction (e : Entity) : String := s!"build_{e.snakeName}_query"

/-- The storage contract. -/
def repositoryName (e : Entity) : String := e.name ++ "Repository"

/-- The implementation of the storage contract. -/
def backendName (e : Entity) : String := "Postgres" ++ e.repositoryName

/-- The union of the events. -/
def eventUnion (e : Entity) : String := e.name ++ "Event"

/-- The function that reads an event. -/
def decodeFunction (e : Entity) : String := s!"decode_{e.snakeName}_event"

/-- The base of the commands. -/
def commandUnion (e : Entity) : String := e.name ++ "Command"

/-- The base of the results of commands. -/
def resultUnion (e : Entity) : String := e.name ++ "CommandResult"

/-- The contract for handling commands. -/
def handlerName (e : Entity) : String := e.name ++ "CommandHandler"

/-- The contract for checking operations. -/
def policyName (e : Entity) : String := e.name ++ "Policy"

/-- The policy that allows everything. -/
def allowAllName (e : Entity) : String := e.name ++ "AllowAllPolicy"

/-- The repository guarded by a policy. -/
def guardedName (e : Entity) : String := e.name ++ "PolicyRepository"

/-- The hooks. -/
def hooksName (e : Entity) : String := e.name ++ "Hooks"

/-- The subscriber to events. -/
def subscriberName (e : Entity) : String := e.name ++ "Subscriber"

/-- The repository inside a transaction. -/
def transactionName (e : Entity) : String := e.name ++ "TransactionRepo"

/-- The class that carries a command. -/
def variantName (e : Entity) (c : Command) : String := c.structName e.name ++ "Command"

/-- The class that carries the result of a command. -/
def resultVariantName (e : Entity) (c : Command) : String := c.structName e.name ++ "Result"

/-- The type of the identifier, which is always there. -/
def idType (e : Entity) : FieldType := { e.idField.type with nullable := false }

/-- The hint of the identifier. -/
def idHint (e : Entity) : String := (e.idType.hint false).text

/-- What the hint of the identifier needs imported. -/
def idImports (e : Entity) : List Source.Registration := e.idType.hintImports false

/-- The module that defines the class of a related entity, seen from this one. -/
def relatedModule (e : Entity) (target : String) : String :=
  if target = e.name then ".entity" else s!"..{Text.snakeCase target}.entity"

/-- The column by which children refer to the entity. -/
def childColumn (e : Entity) : String := e.snakeName ++ "_id"

/-- The lookup of a parent. -/
def parentLookup (parent : String) : String := "find_" ++ Text.snakeCase parent

/-- The lookup of children. -/
def childLookup (child : String) : String := "find_" ++ Text.plural (Text.snakeCase child)

/-- The lookup of a projection. -/
def projectionLookup (projection : String) : String := "find_by_id_" ++ Text.snakeCase projection

/-- The projections of which some field exists. -/
def livingProjections (e : Entity) : List Projection :=
  e.projections.filter fun p => !(e.projectionFields p).isEmpty

end Entity

end EntityForge
