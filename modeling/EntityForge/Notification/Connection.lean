import EntityForge.Notification.Subscriber

/-!
# Connections

A connection has at most one listener for a channel, the latest, and tells all subscribers that
listen for its end. What is asked of it is kept in a log.
-/

namespace EntityForge.Notification

/-- What was asked of a connection. -/
inductive Request where
  | added (channel : String)
  | removed (channel : String)
  | ran (statement : String) (arguments : List String)
  deriving DecidableEq, Repr

/-- A connection with its subscribers. -/
structure Connection (α : Type) where
  subscribers : List (Subscriber α) := []
  /-- The listening subscriber of every channel, by its position. -/
  listeners : List (String × Nat) := []
  /-- The subscribers that listen for the end, by their positions. -/
  endListeners : List Nat := []
  log : List Request := []

/-- The statement that notifies. -/
def notifyStatement : String := "SELECT pg_notify($1, $2)"

namespace Connection

variable {α : Type}

/-- Adds a subscriber, which takes over its channel. -/
def listen (c : Connection α) (s : Subscriber α) : Connection α where
  subscribers := c.subscribers ++ [s]
  listeners := c.listeners.filter (fun l => l.1 != s.channel) ++ [(s.channel, c.subscribers.length)]
  endListeners := c.endListeners ++ [c.subscribers.length]
  log := c.log ++ [.added s.channel]

/-- Notifies a channel; the answer is whether anything listens on it. -/
def notify (c : Connection α) (channel payload : String) : Bool × Connection α :=
  match c.listeners.lookup channel with
  | none => (false, c)
  | some i =>
    (true, { c with subscribers := c.subscribers.modify i fun s => s.deliver (.payload payload) })

/-- Sends a payload through a statement. -/
def publish (c : Connection α) (channel payload : String) : Connection α :=
  { c with log := c.log ++ [.ran notifyStatement [channel, payload]] }

/-- The connection ends. -/
def terminate (c : Connection α) : Connection α :=
  let tell (ss : List (Subscriber α)) (i : Nat) := ss.modify i fun s => s.deliver .ended
  { c with subscribers := c.endListeners.foldl tell c.subscribers }

/-- Receives at one subscriber. -/
def receive (c : Connection α) (i : Nat) : Receipt α × Connection α :=
  match c.subscribers[i]? with
  | none => (.nothing, c)
  | some s =>
    let (receipt, after) := s.receive
    (receipt, { c with subscribers := c.subscribers.set i after })

/-- Closes one subscriber, which frees its channel. -/
def close (c : Connection α) (i : Nat) : Connection α :=
  match c.subscribers[i]? with
  | none => c
  | some s =>
    if s.listens then {
      subscribers := c.subscribers.set i s.close
      listeners := c.listeners.filter fun l => l.1 != s.channel
      endListeners := c.endListeners.erase i
      log := c.log ++ [.removed s.channel] }
    else c

end Connection

end EntityForge.Notification
