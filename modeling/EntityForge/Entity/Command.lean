import EntityForge.Entity.Field
import EntityForge.Text.Snake

/-!
# Commands

A command on an entity: what it does, where its payload takes its fields from, and what it yields.
A command with a custom payload names the type of the payload.
-/

namespace EntityForge

/-- A declared command. -/
structure Command where
  name : String
  source : CommandSource := .create
  fields : List String := []
  payloadType : Option String := none
  requiresId : Bool := false
  kind : CommandKind := .create
  resultType : Option String := none
  security : Option String := none
  deriving DecidableEq, Repr, Inhabited

namespace Command

/-- The payload is of a type declared elsewhere. -/
def isCustom (c : Command) : Bool := c.source == .custom

/-- The name of the payload class. -/
def structName (c : Command) (entity : String) : String := c.name ++ entity

/-- The type declared elsewhere that the payload has, if it has one. -/
def externalPayload? (c : Command) : Option String :=
  if c.isCustom then nonEmpty? c.payloadType else none

/-- The type that the command carries. -/
def payloadName (c : Command) (entity : String) : String :=
  c.externalPayload?.getD (c.structName entity)

/-- The method that handles the command. -/
def handlerMethod (c : Command) : String := "handle_" ++ Text.snakeCase c.name

/-- What the command yields: the declared result if there is one; otherwise the entity, except
that a deletion and a custom command with a payload type of its own yield nothing. -/
def resultFor (c : Command) (entity : String) : Option String :=
  match nonEmpty? c.resultType with
  | some declared => some declared
  | none => match c.kind with
    | .create | .update => some entity
    | .delete => none
    | .custom => if c.isCustom then none else some entity

end Command

end EntityForge
