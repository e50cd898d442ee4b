import EntityForge.Sql.Template
import EntityForge.Value.Basic

/-!
# Statements with numbered parameters

Statements that are put together when they are run: a selection of one page of rows under the
conditions whose values are present, and an update of the columns that changed. The parameters of
a statement are numbered from one in the order in which their values are bound.
-/

namespace EntityForge.Sql

/-- A statement with the values of its parameters. -/
structure Statement where
  text : String
  parameters : List Value
  deriving Repr

/-- The conditions whose values are present, with parameters numbered from `start`, and the values
they bind, in the same order. -/
def bind (start : Int) : List (String × Option Value) → Except TemplateFault (List String × List Value)
  | [] => .ok ([], [])
  | (_, none) :: rest => bind start rest
  | (template, some value) :: rest => do
    let condition ← Template.fill template start
    let (conditions, values) ← bind (start + 1) rest
    return (condition :: conditions, value :: values)

/-- The clause for a list of conditions, of which all must hold. -/
def whereClause (conditions : List String) : String :=
  if conditions.isEmpty then "" else " WHERE " ++ " AND ".intercalate conditions

/-- The number of rows on a page, unless another is asked for. -/
def defaultLimit : Int := 100

/-- The number of rows before a page, unless another is asked for. -/
def defaultOffset : Int := 0

/-- What a selection reads, from where and in which order, the largest first. -/
structure Selection where
  columns : String
  table : String
  /-- The conditions without a parameter. -/
  fixed : List String := []
  orderBy : String
  deriving DecidableEq, Repr

/-- One page of the rows for which the conditions with a present value hold. -/
def select (s : Selection) (candidates : List (String × Option Value)) (limit offset : Option Value) :
    Except TemplateFault Statement := do
  let (conditions, values) ← bind 1 candidates
  let n := values.length
  return {
    text := s!"SELECT {s.columns} FROM {s.table}" ++ whereClause (s.fixed ++ conditions) ++
      s!" ORDER BY {s.orderBy} DESC LIMIT ${n + 1} OFFSET ${n + 2}"
    parameters := values ++ [limit.getD (.int defaultLimit), offset.getD (.int defaultOffset)] }

/-- What an update changes and what it gives back. -/
structure Target where
  table : String
  idColumn : String
  /-- Rows that were marked as deleted are left alone. -/
  softDelete : Bool := false
  /-- The changed row is read back. -/
  returning : Bool := false
  deriving DecidableEq, Repr

/-- Assignments of parameters numbered from `start` to columns. -/
def assignments (start : Nat) : List String → List String
  | [] => []
  | column :: rest => s!"{column} = ${start}" :: assignments (start + 1) rest

/-- The update of the changed columns of one row; there is none without a change. -/
def update? (t : Target) (id : Value) (changes : List (String × Value)) : Option Statement :=
  if changes.isEmpty then none
  else
    let assigned := ", ".intercalate (assignments 1 (changes.map Prod.fst))
    some {
      text := s!"UPDATE {t.table} SET {assigned} WHERE {t.idColumn} = ${changes.length + 1}" ++
        (if t.softDelete then " AND deleted_at IS NULL" else "") ++
        (if t.returning then " RETURNING *" else "")
      parameters := changes.map Prod.snd ++ [id] }

/-- What is said of an update without a change. -/
def emptyUpdateMessage : String := "An UPDATE needs at least one changed column."

end EntityForge.Sql
