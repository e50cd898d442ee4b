import EntityForge.Text.Blank
import EntityForge.Text.Letters

/-!
# Vocabularies

The fixed choices of the annotation language. A vocabulary lists its members in order and gives
each its written word; a written choice is matched in any case and with blanks around it.
-/

namespace EntityForge

/-- A closed list of choices with their written words. -/
class Vocabulary (α : Type) where
  members : List α
  word : α → String

namespace Vocabulary

variable {α : Type} [Vocabulary α]

/-- The member written exactly like this. -/
def ofWord? (s : String) : Option α := (members (α := α)).find? fun m => word m == s

/-- The member written like this in any case, with or without blanks around it. -/
def ofChoice? (s : String) : Option α :=
  ofWord? (.ofList (Text.smallLetters (Text.trim s.toList)))

/-- The words of all members in order. -/
def words (α : Type) [Vocabulary α] : List String := (members (α := α)).map word

end Vocabulary

/-- The database family an entity is stored in. -/
inductive Dialect where
  | postgres
  | clickhouse
  | mongodb
  deriving DecidableEq, Repr, Inhabited

instance : Vocabulary Dialect where
  members := [.postgres, .clickhouse, .mongodb]
  word
    | .postgres => "postgres"
    | .clickhouse => "clickhouse"
    | .mongodb => "mongodb"

/-- How fresh identifiers are made: ordered by time, or at random. -/
inductive UuidVersion where
  | v7
  | v4
  deriving DecidableEq, Repr, Inhabited

instance : Vocabulary UuidVersion where
  members := [.v7, .v4]
  word
    | .v7 => "v7"
    | .v4 => "v4"

/-- What is read back after a row was written. -/
inductive ReturningMode where
  | full
  | id
  | none
  deriving DecidableEq, Repr, Inhabited

instance : Vocabulary ReturningMode where
  members := [.full, .id, .none]
  word
    | .full => "full"
    | .id => "id"
    | .none => "none"

/-- How much of the repository layer is generated: contract and backend, the contract, nothing. -/
inductive SqlLevel where
  | full
  | contract
  | none
  deriving DecidableEq, Repr, Inhabited

instance : Vocabulary SqlLevel where
  members := [.full, .contract, .none]
  word
    | .full => "full"
    | .contract => "trait"
    | .none => "none"

/-- The query condition a field takes part in. -/
inductive FilterKind where
  | none
  | eq
  | like
  | range
  deriving DecidableEq, Repr, Inhabited

instance : Vocabulary FilterKind where
  members := [.none, .eq, .like, .range]
  word
    | .none => "none"
    | .eq => "eq"
    | .like => "like"
    | .range => "range"

/-- The access method of an index. -/
inductive IndexKind where
  | btree
  | hash
  | gin
  | gist
  | brin
  deriving DecidableEq, Repr, Inhabited

instance : Vocabulary IndexKind where
  members := [.btree, .hash, .gin, .gist, .brin]
  word
    | .btree => "btree"
    | .hash => "hash"
    | .gin => "gin"
    | .gist => "gist"
    | .brin => "brin"

/-- The clause that names the access method; the B-tree is what a database takes by itself. -/
def IndexKind.usingClause (k : IndexKind) : String :=
  if k = .btree then "" else " USING " ++ Vocabulary.word k

/-- What happens to a row when the row it refers to is deleted. -/
inductive ReferentialAction where
  | cascade
  | setNull
  | setDefault
  | restrict
  | noAction
  deriving DecidableEq, Repr, Inhabited

instance : Vocabulary ReferentialAction where
  members := [.cascade, .setNull, .setDefault, .restrict, .noAction]
  word
    | .cascade => "CASCADE"
    | .setNull => "SET NULL"
    | .setDefault => "SET DEFAULT"
    | .restrict => "RESTRICT"
    | .noAction => "NO ACTION"

/-- The action written in any case, with blanks or underscores between its words. -/
def ReferentialAction.ofText? (s : String) : Option ReferentialAction :=
  let spaced := s.toList.map fun c => if c = '_' then ' ' else c
  Vocabulary.ofWord? (.ofList (Text.capitalLetters (List.intercalate [' '] (Text.words spaced))))

/-- Where the payload of a command takes its fields from. -/
inductive CommandSource where
  | create
  | update
  | fields
  | custom
  | none
  deriving DecidableEq, Repr, Inhabited

instance : Vocabulary CommandSource where
  members := [.create, .update, .fields, .custom, .none]
  word
    | .create => "create"
    | .update => "update"
    | .fields => "fields"
    | .custom => "custom"
    | .none => "none"

/-- What a command does. -/
inductive CommandKind where
  | create
  | update
  | delete
  | custom
  deriving DecidableEq, Repr, Inhabited

instance : Vocabulary CommandKind where
  members := [.create, .update, .delete, .custom]
  word
    | .create => "create"
    | .update => "update"
    | .delete => "delete"
    | .custom => "custom"

end EntityForge
