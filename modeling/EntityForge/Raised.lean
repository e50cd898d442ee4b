import EntityForge.Text.Quoted

/-!
# Raised failures

What the code around a repository can raise: a failure of some kind with a message. Three kinds are
those by which a reader rejects its input; the message of a missing key is shown quoted.
-/

namespace EntityForge

/-- The kind of a failure. -/
inductive RaisedKind where
  | badValue
  | wrongType
  | missingKey
  | other (name : String)
  deriving DecidableEq, Repr

/-- A failure that was raised. -/
structure Raised where
  kind : RaisedKind
  message : String
  deriving DecidableEq, Repr

namespace Raised

/-- The text of a failure. -/
def text (r : Raised) : String := if r.kind = .missingKey then Text.quoted r.message else r.message

/-- The failure rejects an input. -/
def isRejection (r : Raised) : Bool :=
  match r.kind with
  | .badValue | .wrongType | .missingKey => true
  | .other _ => false

end Raised

end EntityForge
