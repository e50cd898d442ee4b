import EntityForge.Policy.Operation
import EntityForge.Raised

/-!
# Failures of guarded calls

A call of a guarded repository fails on one of two sides: the policy refused it, or the repository
failed. The failure keeps what was raised there and the operation.
-/

namespace EntityForge.Policy

/-- A failed call. -/
structure Failure where
  /-- The side it failed on. -/
  side : String
  cause : Raised
  operation : Option Operation := none
  deriving DecidableEq, Repr

namespace Failure

/-- The word for the side of the policy. -/
def policySide : String := "policy"

/-- The word for the side of the repository. -/
def repositorySide : String := "repository"

/-- A refusal. -/
def ofPolicy (cause : Raised) (operation : Option Operation) : Failure :=
  ⟨policySide, cause, operation⟩

/-- A failure of the repository. -/
def ofRepository (cause : Raised) (operation : Option Operation) : Failure :=
  ⟨repositorySide, cause, operation⟩

/-- The policy refused the call. -/
def isPolicy (f : Failure) : Bool := f.side == policySide

/-- The repository failed. -/
def isRepository (f : Failure) : Bool := f.side == repositorySide

/-- The text of a failure. -/
def text (f : Failure) : String :=
  (if f.isPolicy then "authorization denied: " else "repository error: ") ++ f.cause.text

end Failure

/-- What is said of an unknown operation. -/
def unknownOperation (word : String) : String :=
  Text.quoted word ++ " is not a valid PolicyOperation"

end EntityForge.Policy
