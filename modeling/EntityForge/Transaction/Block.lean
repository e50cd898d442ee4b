import EntityForge.Raised

/-!
# Transaction blocks

A block takes a connection, starts a transaction, runs its body and ends the transaction: by a
commit when the body completed, by a rollback when it raised anything. A failure to start, commit
or roll back comes out with its stage; what a body raises comes out as a failed operation, except
that a failure of a transaction and an interruption come out as they are. What keeps a block from
getting a connection comes out as it is.
-/

namespace EntityForge.Transaction

/-- The stage of a transaction that failed. -/
inductive Stage where
  | start
  | commit
  | rollback
  | operation
  deriving DecidableEq, Repr

namespace Stage

/-- The word for a stage. -/
def word : Stage → String
  | .start => "begin"
  | .commit => "commit"
  | .rollback => "rollback"
  | .operation => "operation"

/-- The wording of a failure at a stage. -/
def phrase : Stage → String
  | .start => "failed to begin transaction"
  | .commit => "failed to commit transaction"
  | .rollback => "failed to rollback transaction"
  | .operation => "transaction operation failed"

end Stage

/-- A failure of a transaction. -/
structure Failure where
  stage : Stage
  inner : Raised
  deriving DecidableEq, Repr

/-- The text of a failure. -/
def Failure.message (f : Failure) : String := s!"{f.stage.phrase}: {f.inner.text}"

/-- What comes out of a body or a block when it does not complete. -/
inductive Escape where
  | raised (r : Raised)
  | failed (f : Failure)
  /-- What stops the program or the task, and is not a failure. -/
  | interrupted (r : Raised)
  deriving DecidableEq, Repr

/-- How the calls of the driver turn out: nothing is raised, or something. -/
structure Driver where
  start : Option Raised := none
  commit : Option Raised := none
  rollback : Option Raised := none
  deriving DecidableEq, Repr

/-- A step of a block. -/
inductive Action where
  | acquire
  | start
  | body
  | commit
  | rollback
  | release
  deriving DecidableEq, Repr

/-- What a block did and what came out of it. -/
structure Run where
  actions : List Action
  escape : Option Escape
  /-- What led to the escape, where the block itself raised it. -/
  cause : Option Escape := none
  deriving DecidableEq, Repr

/-- What comes out of a block after a rollback, together with what led to it. -/
def afterRollback : Escape → Escape × Option Escape
  | .raised r => (.failed ⟨.operation, r⟩, some (.raised r))
  | escape => (escape, none)

/-- The end of a block whose transaction was started and whose body ended in some way. -/
def finish (d : Driver) : Option Escape → List Action × Option Escape × Option Escape
  | none => match d.commit with
    | none => ([.commit], none, none)
    | some r => ([.commit], some (.failed ⟨.commit, r⟩), some (.raised r))
  | some escape => match d.rollback with
    | none => ([.rollback], some (afterRollback escape).1, (afterRollback escape).2)
    | some r => ([.rollback], some (.failed ⟨.rollback, r⟩), some escape)

/-- A block whose body ends in some way once it is run. -/
def block (d : Driver) (body : Option Escape) : Run :=
  match d.start with
  | some r => ⟨[.acquire, .start, .release], some (.failed ⟨.start, r⟩), some (.raised r)⟩
  | none =>
    let (actions, escape, cause) := finish d body
    ⟨[.acquire, .start, .body] ++ actions ++ [.release], escape, cause⟩

/-- A block on a pool that may refuse a connection, and whose body ends in some way once it is run. -/
def enter (refusal : Option Escape) (d : Driver) (body : Option Escape) : Run :=
  match refusal with
  | some escape => ⟨[.acquire], some escape, none⟩
  | none => block d body

/-- The body of such a block is run. -/
def begins (refusal : Option Escape) (d : Driver) : Bool := refusal.isNone && d.start.isNone

/-- A body: it ends, or runs a block inside and goes on with what came out of that. -/
inductive Body where
  | done (escape : Option Escape)
  | nested (refusal : Option Escape) (d : Driver) (inner : Body) (next : Option Escape → Body)

/-- Runs a body: the runs of the blocks inside in the order in which they end, and how it ends. -/
def Body.run : Body → List Run × Option Escape
  | .done escape => ([], escape)
  | .nested refusal d inner next =>
    let inside := if begins refusal d then inner.run else ([], none)
    let run := enter refusal d inside.2
    let rest := (next run.escape).run
    (inside.1 ++ run :: rest.1, rest.2)

end EntityForge.Transaction
