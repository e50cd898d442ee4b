import EntityForge.Package.Shape
import EntityForge.Policy.Operation
import EntityForge.Sql.Query

/-!
# The repository module

The storage contract of an entity: one method for every operation that its fields, relations,
projections and settings give rise to. The contract, its implementation and the guarded repository
are all made from the same list of methods.
-/

namespace EntityForge.Package

open Source

/-- What a lookup finds. -/
inductive Lookup where
  | parent
  | child
  | projection
  deriving DecidableEq, Repr

/-- The word for what a lookup finds. -/
def Lookup.word : Lookup → String
  | .parent => "parent"
  | .child => "child"
  | .projection => "projection"

/-- An operation of a repository. -/
structure RepositoryMethod where
  name : String
  /-- The parameters with their types. -/
  parameters : List String
  /-- The same parameters as arguments of a call. -/
  arguments : List String
  returns : String
  doc : String
  /-- What a policy must allow for it. -/
  operation : Operation
  /-- The class that a lookup returns. -/
  target : Option String := none
  lookup : Option Lookup := none
  deriving DecidableEq, Repr

namespace RepositoryMethod

/-- The line that declares the method. -/
def signature (m : RepositoryMethod) : String :=
  let parameters := ", ".intercalate ("self" :: m.parameters)
  s!"async def {m.name}({parameters}) -> {m.returns}:"

/-- The call of the method on a receiver. -/
def call (m : RepositoryMethod) (receiver : String) : String :=
  let arguments := ", ".intercalate m.arguments
  s!"{receiver}.{m.name}({arguments})"

end RepositoryMethod

/-- The parameter for the identifier. -/
def idParameter (e : Entity) : String := "id: " ++ e.idHint

/-- The parameters for one page. -/
def pageParameters : List String :=
  [s!"limit: int = {Sql.defaultLimit}", s!"offset: int = {Sql.defaultOffset}"]

/-- A method that takes an identifier. -/
def methodById (e : Entity) (name returns doc : String) (operation : Operation) :
    RepositoryMethod :=
  ⟨name, [idParameter e], ["id"], returns, doc, operation, none, none⟩

/-- A method that lists one page. -/
def pageMethod (e : Entity) (name doc : String) : RepositoryMethod :=
  ⟨name, pageParameters, ["limit", "offset"], s!"List[{e.name}]", doc, .list, none, none⟩

/-- The method that inserts, for an entity with fields to take on creation. -/
def createMethod (e : Entity) : List RepositoryMethod :=
  if e.createFields.isEmpty then []
  else [⟨"create", [s!"dto: {e.createRequest}"], ["dto"], e.name,
    s!"Insert a new {e.name} built from *dto* and return it.", .create, none, none⟩]

/-- The method that changes, for an entity with fields that may be changed. -/
def updateMethod (e : Entity) : List RepositoryMethod :=
  if e.updateFields.isEmpty then []
  else [⟨"update", [idParameter e, s!"dto: {e.updateRequest}"], ["id", "dto"],
    s!"Optional[{e.name}]", "Write the fields set on *dto*; ``None`` when no row matches.",
    .update, none, none⟩]

/-- The method that deletes. -/
def deleteMethod (e : Entity) : RepositoryMethod :=
  methodById e "delete" "bool"
    (if e.softDelete then "Mark the row deleted; ``True`` when a live row was affected."
      else "Delete the row; ``True`` when a row was affected.") .delete

/-- The method that queries, for an entity with filters. -/
def queryMethod (e : Entity) : List RepositoryMethod :=
  if e.hasFilters then
    [⟨"query", [s!"query: {e.queryName}"], ["query"], s!"List[{e.name}]",
      s!"Rows matching *query*; see ``{e.queryFunction}``.", .list, none, none⟩]
  else []

/-- The relation fields, of which only the first for each parent counts. -/
def firstRelations (seen : List String) : List Field → List Field
  | [] => []
  | f :: fs =>
    if seen.contains f.parent then firstRelations seen fs
    else f :: firstRelations (f.parent :: seen) fs

/-- The fields by which parents are looked up. -/
def parentFields (e : Entity) : List Field := firstRelations [] e.relationFields

/-- The method that looks up a parent. -/
def parentMethod (e : Entity) (f : Field) : RepositoryMethod :=
  { methodById e (Entity.parentLookup f.parent) s!"Optional[{f.parent}]"
      s!"The {f.parent} referenced by ``{f.name}`` of the {e.name} *id*." .read with
    target := some f.parent, lookup := some .parent }

/-- The method that looks up children. -/
def childMethod (e : Entity) (child : String) : RepositoryMethod :=
  let column := e.childColumn
  ⟨Entity.childLookup child, [column ++ ": " ++ e.idHint], [column], s!"List[{child}]",
    s!"Every {child} whose ``{column}`` is *{column}*.", .read, some child, some .child⟩

/-- The method that looks up a projection. -/
def projectionMethod (e : Entity) (p : Projection) : RepositoryMethod :=
  let name := p.structName e.name
  { methodById e (Entity.projectionLookup p.name) s!"Optional[{name}]"
      s!"The {p.name} projection of the {e.name} *id*." .read with
    target := some name, lookup := some .projection }

/-- The methods for rows marked as deleted. -/
def softDeleteMethods (e : Entity) : List RepositoryMethod :=
  if e.softDelete then
    [methodById e "hard_delete" "bool" "Remove the row permanently, deleted or not." .delete,
      methodById e "restore" "bool"
        "Undo a soft delete; ``True`` when a deleted row was restored." .delete,
      methodById e "find_by_id_with_deleted" s!"Optional[{e.name}]"
        "Like ``find_by_id`` but also returns soft-deleted rows." .read,
      pageMethod e "list_with_deleted" "Like ``list`` but includes soft-deleted rows."]
  else []

/-- The operations of an entity's repository. -/
def repositoryMethods (e : Entity) : List RepositoryMethod :=
  createMethod e ++
    [methodById e "find_by_id" s!"Optional[{e.name}]"
      s!"The {e.name} with identifier *id*, or ``None``." .read] ++
    updateMethod e ++ [deleteMethod e, pageMethod e "list" "One page of rows, newest identifier first."] ++
    queryMethod e ++ (parentFields e).map (parentMethod e) ++ e.hasMany.map (childMethod e) ++
    e.livingProjections.map (projectionMethod e) ++ softDeleteMethods e

/-- The requests that methods and checks take, as names of the transfer module. -/
def requestImports (e : Entity) : List Registration :=
  (if e.createFields.isEmpty then [] else [(".dto", [e.createRequest])]) ++
    (if e.updateFields.isEmpty then [] else [(".dto", [e.updateRequest])])

/-- What the declarations of the methods need imported. -/
def methodImports (e : Entity) : List Registration :=
  let related (target : String) : Registration := (e.relatedModule target, [target])
  e.idImports ++ [("typing", ["List", "Optional"]), (".entity", [e.name])] ++ requestImports e ++
    (if e.hasFilters then [(".query", [e.queryName])] else []) ++
    (parentFields e).map (fun f => related f.parent) ++ e.hasMany.map related ++
    e.livingProjections.map fun p => (".dto", [p.structName e.name])

/-- The declaration of a method in the contract. -/
def abstractMethod (m : RepositoryMethod) : Paragraph := .method {
  name := m.name
  parameters := "self" :: m.parameters
  returns := m.returns
  decorators := ["abstractmethod"]
  isAsync := true
  doc := some m.doc }

/-- The module with the storage contract of an entity. -/
def repositoryModule (e : Entity) : Module where
  doc := s!"Repository contract for {e.name}." ++ generatedNote
  imports := ("abc", ["ABC", "abstractmethod"]) :: methodImports e
  sections := [.classDef {
    name := e.repositoryName
    bases := ["ABC"]
    doc := some (s!"Storage contract for {e.name} (``{e.fullTable}``)." ++
      (if e.softDelete then
        "\n\nDeletes are soft: reads skip rows whose ``deleted_at`` is set " ++
          "unless the method name says ``with_deleted``." else ""))
    paragraphs := (repositoryMethods e).map abstractMethod }]

end EntityForge.Package
