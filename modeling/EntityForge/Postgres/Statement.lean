import EntityForge.Package.Names

/-!
# Static statements

The statements of an entity's database backend that do not depend on what a call is given. A
statement is kept as data and written out by `Statement.text`. Where rows are marked as deleted
instead of being removed, reading leaves them out, except for the statements that are there to
read them.
-/

namespace EntityForge.Postgres

/-- A condition on a row. -/
inductive Condition where
  /-- The column has the value of a parameter. -/
  | equals (column : String) (parameter : Nat)
  /-- The row is not marked as deleted. -/
  | live
  /-- The row is marked as deleted. -/
  | deleted
  deriving DecidableEq, Repr

/-- The written condition. -/
def Condition.text : Condition → String
  | .equals column parameter => s!"{column} = ${parameter}"
  | .live => "deleted_at IS NULL"
  | .deleted => "deleted_at IS NOT NULL"

/-- The clause for conditions of which all must hold. -/
def whereText (conditions : List Condition) : String :=
  if conditions.isEmpty then "" else " WHERE " ++ " AND ".intercalate (conditions.map Condition.text)

/-- A selection of rows. -/
structure Select where
  /-- The columns read; all of them when there is none in the list. -/
  columns : List String
  table : String
  conditions : List Condition := []
  /-- The column by which one page of rows is ordered, from the largest. -/
  page : Option String := none
  deriving DecidableEq, Repr

/-- The written selection. -/
def Select.text (s : Select) : String :=
  "SELECT " ++ (if s.columns.isEmpty then "*" else ", ".intercalate s.columns) ++ " FROM " ++
    s.table ++ whereText s.conditions ++
    (s.page.map fun column => s!" ORDER BY {column} DESC LIMIT $1 OFFSET $2").getD ""

/-- A statement of the backend. -/
inductive Statement where
  /-- A row for all columns, of which something may be read back. -/
  | insert (table : String) (columns : List String) (returning : Option String)
  | select (s : Select)
  | delete (table : String) (conditions : List Condition)
  /-- Marks rows as deleted, or takes the mark away. -/
  | mark (table : String) (deleted : Bool) (conditions : List Condition)
  deriving DecidableEq, Repr

/-- The placeholders of an insertion. -/
def placeholders (count : Nat) : List String := (List.range count).map fun i => s!"${i + 1}"

/-- The written statement. -/
def Statement.text : Statement → String
  | .insert table columns returning =>
    let listed := ", ".intercalate columns
    let values := ", ".intercalate (placeholders columns.length)
    s!"INSERT INTO {table} ({listed}) VALUES ({values})" ++
      (returning.map fun r => " RETURNING " ++ r).getD ""
  | .select s => s.text
  | .delete table conditions => "DELETE FROM " ++ table ++ whereText conditions
  | .mark table deleted conditions =>
    let value := if deleted then "NOW()" else "NULL"
    s!"UPDATE {table} SET deleted_at = {value}" ++ whereText conditions

/-- The identifier is the first parameter. -/
def byId (e : Entity) : Condition := .equals e.idField.columnName 1

/-- The condition that leaves out rows marked as deleted, where rows are marked. -/
def liveOnly (e : Entity) : List Condition := if e.softDelete then [.live] else []

/-- What is read back of a new row. -/
def returningClause (e : Entity) : Option String :=
  match e.returning with
  | .full => some "*"
  | .id => some e.idField.columnName
  | .none => none

/-- The insertion of a row. -/
def insertion (e : Entity) : Statement := .insert e.fullTable e.columnNames (returningClause e)

/-- The selection of a row by its identifier. -/
def findById (e : Entity) : Statement :=
  .select { columns := e.columnNames, table := e.fullTable, conditions := byId e :: liveOnly e }

/-- The deletion of a row, or its mark. -/
def deletion (e : Entity) : Statement :=
  if e.softDelete then .mark e.fullTable true [byId e, .live] else .delete e.fullTable [byId e]

/-- The selection of one page. -/
def listing (e : Entity) : Statement := .select {
  columns := e.columnNames, table := e.fullTable, conditions := liveOnly e
  page := some e.idField.columnName }

/-- The removal of a row whether or not it is marked. -/
def hardDeletion (e : Entity) : Statement := .delete e.fullTable [byId e]

/-- The mark taken away from a row. -/
def restoring (e : Entity) : Statement := .mark e.fullTable false [byId e, .deleted]

/-- The selection of a row by its identifier whether or not it is marked. -/
def findByIdWithDeleted (e : Entity) : Statement :=
  .select { columns := e.columnNames, table := e.fullTable, conditions := [byId e] }

/-- The selection of one page of rows, marked or not. -/
def listingWithDeleted (e : Entity) : Statement := .select {
  columns := e.columnNames, table := e.fullTable, page := some e.idField.columnName }

/-- The statements of lookups by the names of their methods. -/
abbrev Lookups := List (String × Statement)

/-- The lookups with the statement of one method set. -/
def putLookup (name : String) (s : Statement) : Lookups → Lookups
  | [] => [(name, s)]
  | (n, t) :: rest => if n = name then (n, s) :: rest else (n, t) :: putLookup name s rest

/-- The lookups with the statement of a method added, unless the method has one. -/
def addLookup (lookups : Lookups) (entry : String × Statement) : Lookups :=
  if lookups.any fun l => l.1 == entry.1 then lookups else lookups ++ [entry]

/-- The statements that look up parents; of two for one method, the first counts. -/
def parentLookups (e : Entity) : Lookups :=
  (e.relationFields.map fun f => (Entity.parentLookup f.parent, Statement.select {
    columns := [], table := e.relatedTable f.parent, conditions := [.equals "id" 1] })).foldl
    addLookup []

/-- The statements that look up children; of two for one method, the last counts. -/
def childLookups (e : Entity) : Lookups :=
  (e.hasMany.map fun child => (Entity.childLookup child, Statement.select {
    columns := [], table := e.relatedTable child
    conditions := [.equals e.childColumn 1] })).foldl (fun ls l => putLookup l.1 l.2 ls) []

/-- The statement that looks up a projection. -/
def projectionSelect (e : Entity) (p : Projection) : Statement := .select {
  columns := (e.projectionFields p).map Field.columnName, table := e.fullTable
  conditions := byId e :: liveOnly e }

/-- The statements that look up projections; of two for one method, the last counts. -/
def projectionLookups (e : Entity) : Lookups :=
  (e.livingProjections.map fun p => (Entity.projectionLookup p.name, projectionSelect e p)).foldl
    (fun ls l => putLookup l.1 l.2 ls) []

/-- An entity of a database family without a backend. -/
structure NoBackend where
  entity : String
  dialect : Dialect
  deriving DecidableEq, Repr

/-- The wording for a missing backend. -/
def NoBackend.message (n : NoBackend) : String :=
  let dialect := Vocabulary.word n.dialect
  s!"Entity '{n.entity}': the '{dialect}' dialect has no backend. " ++
    "Use dialect 'postgres' or set 'sql: trait' and disable migrations."

/-- Refuses an entity of a database family without a backend. -/
def requireBackend (e : Entity) : Except NoBackend Unit :=
  if e.dialect = .postgres then .ok () else .error ⟨e.name, e.dialect⟩

end EntityForge.Postgres
