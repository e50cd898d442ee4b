import EntityForge.Entity.Vocabulary

/-!
# Guarded operations

The kinds of operation that an authorization policy decides on. An operation either only reads or
changes something.
-/

namespace EntityForge

/-- What a policy is asked to allow. -/
inductive Operation where
  | create
  | read
  | update
  | delete
  | list
  | command
  deriving DecidableEq, Repr, Inhabited

instance : Vocabulary Operation where
  members := [.create, .read, .update, .delete, .list, .command]
  word
    | .create => "create"
    | .read => "read"
    | .update => "update"
    | .delete => "delete"
    | .list => "list"
    | .command => "command"

namespace Operation

/-- The name of an operation in the generated code. -/
def constant : Operation → String
  | .create => "CREATE"
  | .read => "READ"
  | .update => "UPDATE"
  | .delete => "DELETE"
  | .list => "LIST"
  | .command => "COMMAND"

/-- The operation changes nothing. -/
def isReadOnly (o : Operation) : Bool := o == .read || o == .list

/-- The operation changes something. -/
def isMutation (o : Operation) : Bool := !o.isReadOnly

end Operation

end EntityForge
