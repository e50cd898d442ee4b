/-!
# Reserved words

The words of the query language that a column name must be quoted for, and the names that the
classes of the generated code keep for themselves.
-/

namespace EntityForge.Validation

/-- Words of the query language. -/
def sqlWords : List String := [
  "select", "insert", "update", "delete", "drop", "create", "alter", "table", "column", "index",
  "from", "where", "join", "inner", "outer", "left", "right", "on", "and", "or", "not", "null",
  "true", "false", "in", "between", "like", "is", "as", "order", "by", "group", "having", "limit",
  "offset", "union", "all", "distinct", "case", "when", "then", "else", "end", "exists", "primary",
  "foreign", "key", "references", "constraint", "check", "default", "unique", "cascade", "set",
  "values", "into", "grant", "revoke", "user", "role", "schema", "with"]

/-- The name is kept by the classes of the generated code. -/
def isModelName (s : String) : Bool := s.startsWith "model_"

end EntityForge.Validation
