import EntityForge.Postgres.Statement

/-!
# Migrations

The table of an entity with its indexes, and the removal of both. The clauses of a column come in
a fixed order: name, type, key or presence, uniqueness, default, check, reference. An identifier is
the primary key; any other column that does not admit null says so.
-/

namespace EntityForge.Postgres

/-- A reference to the identifier of another table. -/
structure Reference where
  table : String
  onDelete : Option ReferentialAction
  deriving DecidableEq, Repr

/-- The written reference. -/
def Reference.text (r : Reference) : String :=
  s!"REFERENCES {r.table}(id)" ++
    (r.onDelete.map fun a => " ON DELETE " ++ Vocabulary.word a).getD ""

/-- The definition of a column. -/
structure Column where
  name : String
  type : String
  primaryKey : Bool
  notNull : Bool
  unique : Bool
  defaultValue : Option String
  constraint : Option String
  reference : Option Reference
  deriving DecidableEq, Repr

namespace Column

/-- The clauses of a column in order. -/
def clauses (c : Column) : List String :=
  [c.name, c.type] ++ (if c.primaryKey then ["PRIMARY KEY"] else []) ++
    (if c.notNull then ["NOT NULL"] else []) ++ (if c.unique then ["UNIQUE"] else []) ++
    (c.defaultValue.map fun d => "DEFAULT " ++ d).toList ++
    (c.constraint.map fun k => s!"CHECK ({k})").toList ++ (c.reference.map Reference.text).toList

/-- The written definition. -/
def text (c : Column) : String := " ".intercalate c.clauses

end Column

/-- The reference of a field, if it refers to an entity with a name. -/
def reference (e : Entity) (f : Field) : Option Reference :=
  (nonEmpty? f.storage.belongsTo).map fun parent => ⟨e.relatedTable parent, f.storage.onDelete⟩

/-- The column of a field. -/
def column (e : Entity) (f : Field) : Column where
  name := f.columnName
  type := f.columnType.text
  primaryKey := f.isId
  notNull := !f.isId && !f.columnType.nullable
  unique := f.column.unique
  defaultValue := f.column.defaultValue
  constraint := f.column.constraint
  reference := reference e f

/-- The statement that makes the table. -/
def createTable (e : Entity) : String :=
  let columns := ",\n".intercalate (e.fields.map fun f => "    " ++ (column e f).text)
  s!"CREATE TABLE IF NOT EXISTS {e.fullTable} (\n{columns}\n);\n"

/-- An index on a table. -/
structure Index where
  name : String
  columns : List String
  kind : IndexKind
  unique : Bool := false
  condition : Option String := none
  deriving DecidableEq, Repr

/-- The statement that makes an index. -/
def Index.text (i : Index) (table : String) : String :=
  let columns := ", ".intercalate i.columns
  (if i.unique then "CREATE UNIQUE INDEX" else "CREATE INDEX") ++
    s!" IF NOT EXISTS {i.name} ON {table}" ++ i.kind.usingClause ++ s!" ({columns})" ++
    ((nonEmpty? i.condition).map fun w => " WHERE " ++ w).getD "" ++ ";\n"

/-- The index of a single field. -/
def singleIndex (e : Entity) (f : Field) : Index where
  name := e.singleIndexName f
  columns := [f.columnName]
  kind := f.column.index.getD .btree

/-- A declared index. -/
def compositeIndex (e : Entity) (i : CompositeIndex) : Index where
  name := i.nameFor e.table
  columns := i.columns
  kind := i.kind
  unique := i.unique
  condition := i.condition

/-- The indexes of the table. -/
def indexes (e : Entity) : List Index :=
  e.indexedFields.map (singleIndex e) ++ e.indexes.map (compositeIndex e)

/-- A pair of scripts, one to make a table and one to remove it. -/
structure Migration where
  name : String
  up : String
  down : String
  deriving DecidableEq, Repr

namespace Migration

/-- The file of the script that makes the table. -/
def upFile (m : Migration) : String := m.name ++ ".up.sql"

/-- The file of the script that removes the table. -/
def downFile (m : Migration) : String := m.name ++ ".down.sql"

end Migration

/-- The migration of an entity. -/
def migration (e : Entity) : Migration where
  name := s!"{e.schema}_{e.table}"
  up := createTable e ++ .join ((indexes e).map fun i => i.text e.fullTable)
  down := s!"DROP TABLE IF EXISTS {e.fullTable} CASCADE;\n"

end EntityForge.Postgres
