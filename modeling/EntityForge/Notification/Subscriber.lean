import EntityForge.Raised

/-!
# Subscribers

A subscriber keeps what its connection delivers on one channel in the order of arrival: payloads
and the end of the connection. Receiving takes the oldest item and reads it. A payload that its
reader rejects is lost alone; the end of the connection closes the subscriber, after which every
receipt fails in the same way.
-/

namespace EntityForge.Notification

/-- What a connection delivers. -/
inductive Signal where
  | payload (text : String)
  | ended
  deriving DecidableEq, Repr

/-- Why an event could not be received. -/
inductive StreamFailure where
  /-- The connection is gone or was left. -/
  | transport (channel : String)
  /-- The payload is not an event. -/
  | decode (detail : String)
  deriving DecidableEq, Repr

/-- The wording of a failure. -/
def StreamFailure.message : StreamFailure → String
  | .transport channel => s!"database error: connection listening on '{channel}' closed"
  | .decode detail => "deserialize error: " ++ detail

/-- What comes of receiving. -/
inductive Receipt (α : Type) where
  | event (a : α)
  | failed (f : StreamFailure)
  /-- The reader failed in a way that is no rejection. -/
  | raised (r : Raised)
  /-- Nothing has arrived. -/
  | nothing
  deriving Repr

/-- A subscriber to one channel. -/
structure Subscriber (α : Type) where
  channel : String
  /-- Reads an event from a payload. -/
  decode : String → Except Raised α
  queue : List Signal := []
  closed : Bool := false

namespace Subscriber

variable {α : Type}

/-- A payload or the end of the connection arrives. -/
def deliver (s : Subscriber α) (signal : Signal) : Subscriber α :=
  { s with queue := s.queue ++ [signal] }

/-- What a payload is read as. -/
def read (s : Subscriber α) (payload : String) : Receipt α :=
  match s.decode payload with
  | .ok a => .event a
  | .error r => if r.isRejection then .failed (.decode r.text) else .raised r

/-- Receives the oldest item. -/
def receive (s : Subscriber α) : Receipt α × Subscriber α :=
  if s.closed then (.failed (.transport s.channel), s)
  else match s.queue with
    | [] => (.nothing, s)
    | .payload text :: rest => (s.read text, { s with queue := rest })
    | .ended :: rest => (.failed (.transport s.channel), { s with queue := rest, closed := true })

/-- Leaves the connection; a subscriber that is closed has nothing to leave. -/
def close (s : Subscriber α) : Subscriber α := { s with closed := true }

/-- Closing takes the listeners off the connection. -/
def listens (s : Subscriber α) : Bool := !s.closed

end Subscriber

end EntityForge.Notification
