import EntityForge.Proofs.Notification

/-!
# What a subscriber delivers

A session follows one subscriber from the moment at which it begins to listen: payloads and the
end of the connection arrive, events are received with or without waiting, and the subscriber is
closed, in any order. Whatever happened, the session stands in one of three ways: it listens, and
what arrived is what was taken and what still waits; or the end of the connection was taken, after
all that had arrived before it; or the subscriber was closed. The main statement reads off these
ways what came of all receipts, in their order.
-/

namespace EntityForge.Notification

variable {α : Type}

/-- What can happen to one subscriber. -/
inductive Action where
  /-- A payload arrives. -/
  | notify (payload : String)
  /-- The end of the connection arrives. -/
  | terminate
  /-- The next item is received once there is one, or at once from a closed subscriber. -/
  | receive
  /-- The next item is received, if there is one. -/
  | poll
  | close
  deriving DecidableEq, Repr

/-- Receiving with or without waiting. -/
def Action.isReceipt : Action → Bool
  | .receive | .poll => true
  | .notify _ | .terminate | .close => false

/-- Nothing came of receiving. -/
def Receipt.isNothing : Receipt α → Bool
  | .nothing => true
  | .event _ | .failed _ | .raised _ => false

/-- A subscriber of which a receipt has to wait. -/
def Subscriber.waits (s : Subscriber α) : Bool := !s.closed && s.queue.isEmpty

/-- What comes of a payload whose reader does no more than reject. -/
def outcome (decode : String → Except Raised α) (payload : String) : Receipt α :=
  match decode payload with
  | .ok a => .event a
  | .error r => .failed (.decode r.text)

/-- What comes of the next item. -/
def Signal.answer (channel : String) (decode : String → Except Raised α) : Signal → Receipt α
  | .payload text => outcome decode text
  | .ended => .failed (.transport channel)

/-- What receiving does, by what stands first in the queue. -/
inductive Subscriber.Received (s : Subscriber α) : Receipt α × Subscriber α → Prop where
  | afterEnd (isClosed : s.closed = true) : Received s (.failed (.transport s.channel), s)
  | nothing (isOpen : s.closed = false) (queue : s.queue = []) : Received s (.nothing, s)
  | payload {text : String} {rest : List Signal} (isOpen : s.closed = false)
      (queue : s.queue = .payload text :: rest) :
      Received s (s.read text, { s with queue := rest })
  | ended {rest : List Signal} (isOpen : s.closed = false) (queue : s.queue = .ended :: rest) :
      Received s (.failed (.transport s.channel), { s with queue := rest, closed := true })

theorem Subscriber.received_receive (s : Subscriber α) : s.Received s.receive := by
  rw [Subscriber.receive]
  by_cases hclosed : s.closed = true
  · rw [if_pos hclosed]
    exact .afterEnd hclosed
  · rw [if_neg hclosed]
    have hopen : s.closed = false := Bool.eq_false_iff.mpr hclosed
    split
    · rename_i hqueue
      exact .nothing hopen hqueue
    · rename_i hqueue
      exact .payload hopen hqueue
    · rename_i hqueue
      exact .ended hopen hqueue

/-- A reader that only rejects makes an event or a failure of every payload. -/
theorem Subscriber.read_eq_outcome {s : Subscriber α}
    (hdecode : ∀ payload r, s.decode payload = .error r → r.isRejection = true)
    (payload : String) : s.read payload = outcome s.decode payload := by
  unfold Subscriber.read outcome
  cases h : s.decode payload with
  | ok a => rfl
  | error r => simp [hdecode payload r h]

theorem isNothing_outcome (decode : String → Except Raised α) (payload : String) :
    (outcome decode payload).isNothing = false := by
  unfold outcome
  split <;> rfl

/-- The listeners of a connection and all that was asked of it are those of another. -/
structure Connection.SameListeners (c c' : Connection α) : Prop where
  listeners : c.listeners = c'.listeners
  endListeners : c.endListeners = c'.endListeners
  log : c.log = c'.log

/-- One subscriber of a connection, with what arrived at it and what came of its receipts. -/
structure Session (α : Type) where
  connection : Connection α
  position : Nat
  arrived : List Signal := []
  receipts : List (Receipt α) := []

namespace Session

/-- A subscriber begins to listen. -/
def opened (c : Connection α) (channel : String) (decode : String → Except Raised α) :
    Session α where
  connection := c.listen { channel, decode }
  position := c.subscribers.length

def subscriber? (t : Session α) : Option (Subscriber α) := t.connection.subscribers[t.position]?

/-- A payload or the end of the connection arrives, which it may do after a close as well. -/
def arrive (t : Session α) (signal : Signal) : Session α :=
  { t with
    connection.subscribers := t.connection.subscribers.modify t.position (·.deliver signal)
    arrived := t.arrived ++ [signal] }

def receive (t : Session α) : Session α :=
  let (receipt, after) := t.connection.receive t.position
  { t with connection := after, receipts := t.receipts ++ [receipt] }

def close (t : Session α) : Session α :=
  { t with connection := t.connection.close t.position }

/-- One thing happens; a receipt that would have to wait is not taken yet. -/
def step (t : Session α) : Action → Session α
  | .notify payload => t.arrive (.payload payload)
  | .terminate => t.arrive .ended
  | .receive => if t.subscriber?.any Subscriber.waits then t else t.receive
  | .poll => t.receive
  | .close => t.close

def run (t : Session α) (actions : List Action) : Session α := actions.foldl step t

/-- What came of the receipts, without those for which there was nothing. -/
def answers (t : Session α) : List (Receipt α) := t.receipts.filter fun r => !r.isNothing

/-- The three ways in which a session can stand that took some payloads and failed some times. -/
inductive Course (start : Session α) (t : Session α) (s : Subscriber α) (taken : List String) :
    Nat → Prop where
  | listening (isOpen : s.closed = false) (arrived : t.arrived = taken.map .payload ++ s.queue)
      (asked : t.connection.SameListeners start.connection) : Course start t s taken 0
  | ended {failures : Nat} (isClosed : s.closed = true)
      (arrived : taken.map .payload ++ [.ended] <+: t.arrived)
      (asked : t.connection.SameListeners start.connection) :
      Course start t s taken (failures + 1)
  | left {failures : Nat} (isClosed : s.closed = true)
      (arrived : taken.map .payload <+: t.arrived)
      (asked : t.connection.SameListeners start.close.connection) :
      Course start t s taken failures

/-- What holds of a session at any time: its subscriber, the answers so far and its course. -/
structure Stands (start : Session α) (channel : String) (decode : String → Except Raised α)
    (t : Session α) (s : Subscriber α) (taken : List String) (failures : Nat) : Prop where
  position_eq : t.position = start.position
  subscriber?_eq : t.subscriber? = some s
  channel_eq : s.channel = channel
  decode_eq : s.decode = decode
  answers_eq : t.answers = taken.map (outcome decode) ++
    List.replicate failures (.failed (.transport channel))
  course : Course start t s taken failures

variable {channel : String} {decode : String → Except Raised α} {start t t' : Session α}
  {s : Subscriber α} {taken : List String} {failures : Nat}

/-! ## What one thing changes -/

theorem subscriber?_arrive (h : t.subscriber? = some s) (signal : Signal) :
    (t.arrive signal).subscriber? = some (s.deliver signal) := by
  rw [subscriber?] at h ⊢
  rw [arrive, List.getElem?_modify, h]
  simp

theorem receive_connection (h : t.subscriber? = some s) :
    t.connection.receive t.position = (s.receive.1, { t.connection with
      subscribers := t.connection.subscribers.set t.position s.receive.2 }) := by
  rw [subscriber?] at h
  rw [Connection.receive, h]

theorem receipts_receive (h : t.subscriber? = some s) :
    t.receive.receipts = t.receipts ++ [s.receive.1] := by
  rw [receive, receive_connection h]

theorem subscriber?_receive (h : t.subscriber? = some s) :
    t.receive.subscriber? = some s.receive.2 := by
  rw [subscriber?, receive, receive_connection h]
  rw [subscriber?] at h
  exact List.getElem?_set_self (List.getElem?_eq_some_iff.mp h).1

theorem sameListeners_receive (h : t.subscriber? = some s)
    {c : Connection α} (hasked : t.connection.SameListeners c) :
    t.receive.connection.SameListeners c := by
  rw [receive, receive_connection h]
  exact ⟨hasked.listeners, hasked.endListeners, hasked.log⟩

/-- A closed subscriber has nothing to leave. -/
theorem close_of_closed (h : t.subscriber? = some s) (hclosed : s.closed = true) : t.close = t := by
  rw [subscriber?] at h
  rw [close, Connection.close, h]
  simp [Subscriber.listens, hclosed]

theorem connection_close (h : t.subscriber? = some s) (hopen : s.closed = false) :
    t.close.connection = {
      subscribers := t.connection.subscribers.set t.position s.close
      listeners := t.connection.listeners.filter fun l => l.1 != s.channel
      endListeners := t.connection.endListeners.erase t.position
      log := t.connection.log ++ [.removed s.channel] } := by
  rw [subscriber?] at h
  rw [close, Connection.close, h]
  simp [Subscriber.listens, hopen]

theorem subscriber?_close (h : t.subscriber? = some s) (hopen : s.closed = false) :
    t.close.subscriber? = some s.close := by
  have hconnection := connection_close h hopen
  rw [subscriber?] at h ⊢
  rw [hconnection]
  exact List.getElem?_set_self (List.getElem?_eq_some_iff.mp h).1

theorem subscriber?_opened (c : Connection α) (channel : String)
    (decode : String → Except Raised α) :
    (Session.opened c channel decode).subscriber? = some { channel, decode } := by
  rw [subscriber?, Session.opened, Connection.listen, List.getElem?_concat_length]

theorem answers_receive (h : t.subscriber? = some s) :
    t.receive.answers = t.answers ++ if s.receive.1.isNothing then [] else [s.receive.1] := by
  rw [answers, receipts_receive h, List.filter_append, answers]
  cases hnothing : s.receive.1.isNothing <;> simp [hnothing]

/-! ## What lasts -/

/-- The course is kept by what lets nothing arrive and leaves the listeners as they are. -/
theorem Course.congr (h : Course start t s taken failures) (harrived : t'.arrived = t.arrived)
    (hasked : ∀ c : Connection α, t.connection.SameListeners c → t'.connection.SameListeners c) :
    Course start t' s taken failures := by
  cases h with
  | listening isOpen arrived asked => exact .listening isOpen (harrived ▸ arrived) (hasked _ asked)
  | ended isClosed arrived asked => exact .ended isClosed (harrived ▸ arrived) (hasked _ asked)
  | left isClosed arrived asked => exact .left isClosed (harrived ▸ arrived) (hasked _ asked)

/-- A closed subscriber may fail once more. -/
theorem Course.fail (h : Course start t s taken failures) (hclosed : s.closed = true) :
    Course start t s taken (failures + 1) := by
  cases h with
  | listening isOpen => rw [isOpen] at hclosed; cases hclosed
  | ended isClosed arrived asked => exact .ended isClosed arrived asked
  | left isClosed arrived asked => exact .left isClosed arrived asked

theorem Course.of_open (h : Course start t s taken failures) (hopen : s.closed = false) :
    failures = 0 ∧ t.arrived = taken.map .payload ++ s.queue ∧
      t.connection.SameListeners start.connection := by
  cases h with
  | listening _ arrived asked => exact ⟨rfl, arrived, asked⟩
  | ended isClosed => rw [isClosed] at hopen; cases hopen
  | left isClosed => rw [isClosed] at hopen; cases hopen

theorem stands_opened (c : Connection α) (channel : String) (decode : String → Except Raised α) :
    Stands (opened c channel decode) channel decode (opened c channel decode)
      { channel, decode } [] 0 where
  position_eq := rfl
  subscriber?_eq := subscriber?_opened c channel decode
  channel_eq := rfl
  decode_eq := rfl
  answers_eq := rfl
  course := .listening rfl rfl ⟨rfl, rfl, rfl⟩

theorem Stands.arrive (h : Stands start channel decode t s taken failures) (signal : Signal) :
    Stands start channel decode (t.arrive signal) (s.deliver signal) taken failures where
  position_eq := h.position_eq
  subscriber?_eq := subscriber?_arrive h.subscriber?_eq signal
  channel_eq := h.channel_eq
  decode_eq := h.decode_eq
  answers_eq := h.answers_eq
  course := by
    have hmore : t.arrived <+: (t.arrive signal).arrived := List.prefix_append _ _
    have hasked {c : Connection α} (asked : t.connection.SameListeners c) :
        (t.arrive signal).connection.SameListeners c :=
      ⟨asked.listeners, asked.endListeners, asked.log⟩
    cases h.course with
    | listening isOpen arrived asked =>
      refine .listening isOpen ?_ (hasked asked)
      rw [Session.arrive, Subscriber.deliver, arrived, List.append_assoc]
    | ended isClosed arrived asked => exact .ended isClosed (arrived.trans hmore) (hasked asked)
    | left isClosed arrived asked => exact .left isClosed (arrived.trans hmore) (hasked asked)

/-- What a receipt adds to a session, by what stands first in the queue. -/
theorem Stands.receive (h : Stands start channel decode t s taken failures)
    (hdecode : ∀ payload r, decode payload = .error r → r.isRejection = true) :
    ∃ s' taken' failures', Stands start channel decode t.receive s' taken' failures' := by
  have hsubscriber := subscriber?_receive h.subscriber?_eq
  have hanswers := answers_receive h.subscriber?_eq
  have hcourse {s' : Subscriber α} {taken' : List String} {failures' : Nat}
      (hc : Course start t s' taken' failures') : Course start t.receive s' taken' failures' :=
    hc.congr rfl fun _ asked => sameListeners_receive h.subscriber?_eq asked
  have hreceived := s.received_receive
  generalize s.receive = received at hsubscriber hanswers hreceived
  cases hreceived with
  | afterEnd isClosed =>
    refine ⟨s, taken, failures + 1, h.position_eq, hsubscriber, h.channel_eq, h.decode_eq, ?_,
      hcourse (h.course.fail isClosed)⟩
    rw [hanswers, h.answers_eq, h.channel_eq, List.replicate_succ', List.append_assoc]
    rfl
  | nothing isOpen queue =>
    refine ⟨s, taken, failures, h.position_eq, hsubscriber, h.channel_eq, h.decode_eq, ?_,
      hcourse h.course⟩
    rw [hanswers, h.answers_eq]
    exact List.append_nil _
  | @payload text rest isOpen queue =>
    obtain ⟨rfl, harrived, hasked⟩ := h.course.of_open isOpen
    have hread : s.read text = outcome decode text := by
      rw [← h.decode_eq] at hdecode ⊢
      exact Subscriber.read_eq_outcome hdecode text
    refine ⟨{ s with queue := rest }, taken ++ [text], 0, h.position_eq, hsubscriber, h.channel_eq,
      h.decode_eq, ?_, hcourse (.listening isOpen ?_ hasked)⟩
    · rw [hanswers, h.answers_eq, hread, isNothing_outcome]
      simp
    · rw [harrived, queue]
      simp
  | @ended rest isOpen queue =>
    obtain ⟨rfl, harrived, hasked⟩ := h.course.of_open isOpen
    refine ⟨{ s with queue := rest, closed := true }, taken, 1, h.position_eq, hsubscriber,
      h.channel_eq, h.decode_eq, ?_, hcourse (.ended rfl ⟨rest, ?_⟩ hasked)⟩
    · rw [hanswers, h.answers_eq, h.channel_eq, List.replicate_succ', List.append_assoc]
      rfl
    · rw [harrived, queue]
      simp

theorem Stands.close (h : Stands start channel decode t s taken failures)
    (hstart : start.subscriber? = some { channel, decode }) :
    ∃ s', Stands start channel decode t.close s' taken failures := by
  cases hclosed : s.closed with
  | true => exact ⟨s, by rwa [close_of_closed h.subscriber?_eq hclosed]⟩
  | false =>
    obtain ⟨rfl, harrived, hasked⟩ := h.course.of_open hclosed
    refine ⟨s.close, h.position_eq, subscriber?_close h.subscriber?_eq hclosed, h.channel_eq,
      h.decode_eq, h.answers_eq, .left rfl (harrived ▸ List.prefix_append _ _) ?_⟩
    rw [connection_close h.subscriber?_eq hclosed, connection_close hstart rfl, h.channel_eq,
      h.position_eq]
    exact ⟨congrArg (List.filter _) hasked.listeners, congrArg (List.erase · _) hasked.endListeners,
      congrArg (· ++ _) hasked.log⟩

theorem Stands.step (h : Stands start channel decode t s taken failures)
    (hdecode : ∀ payload r, decode payload = .error r → r.isRejection = true)
    (hstart : start.subscriber? = some { channel, decode }) (action : Action) :
    ∃ s' taken' failures', Stands start channel decode (t.step action) s' taken' failures' := by
  cases action with
  | notify payload => exact ⟨_, _, _, h.arrive (.payload payload)⟩
  | terminate => exact ⟨_, _, _, h.arrive .ended⟩
  | receive =>
    rw [Session.step]
    split
    · exact ⟨_, _, _, h⟩
    · exact h.receive hdecode
  | poll => exact h.receive hdecode
  | close =>
    obtain ⟨s', hs'⟩ := h.close hstart
    exact ⟨_, _, _, hs'⟩

theorem Stands.run (h : Stands start channel decode t s taken failures)
    (hdecode : ∀ payload r, decode payload = .error r → r.isRejection = true)
    (hstart : start.subscriber? = some { channel, decode }) (actions : List Action) :
    ∃ s' taken' failures', Stands start channel decode (t.run actions) s' taken' failures' := by
  induction actions generalizing t s taken failures with
  | nil => exact ⟨_, _, _, h⟩
  | cons action actions ih =>
    obtain ⟨_, _, _, hstep⟩ := h.step hdecode hstart action
    exact ih hstep

/-! ## After the end -/

theorem step_of_closed (h : t.subscriber? = some s) (hclosed : s.closed = true) (action : Action) :
    (t.step action).receipts = t.receipts ++
      (if action.isReceipt then [.failed (.transport s.channel)] else []) ∧
    ∃ s', (t.step action).subscriber? = some s' ∧ s'.closed = true ∧ s'.channel = s.channel := by
  have hfails : t.receive.receipts = t.receipts ++ [.failed (.transport s.channel)] ∧
      ∃ s', t.receive.subscriber? = some s' ∧ s'.closed = true ∧ s'.channel = s.channel := by
    have hreceive : s.receive = (.failed (.transport s.channel), s) := by
      rw [Subscriber.receive, if_pos hclosed]
    rw [receipts_receive h, subscriber?_receive h, hreceive]
    exact ⟨rfl, s, rfl, hclosed, rfl⟩
  cases action with
  | notify payload =>
    exact ⟨(List.append_nil _).symm, _, subscriber?_arrive h _, hclosed, rfl⟩
  | terminate => exact ⟨(List.append_nil _).symm, _, subscriber?_arrive h _, hclosed, rfl⟩
  | receive =>
    have hwaits : t.subscriber?.any Subscriber.waits = false := by
      simp [h, Subscriber.waits, hclosed]
    rw [step, hwaits]
    exact hfails
  | poll => exact hfails
  | close =>
    rw [step, close_of_closed h hclosed]
    exact ⟨(List.append_nil _).symm, s, h, hclosed, rfl⟩

/-- A closed subscriber fails at every receipt. -/
theorem run_of_closed (h : t.subscriber? = some s) (hclosed : s.closed = true)
    (actions : List Action) :
    (t.run actions).receipts = t.receipts ++
      List.replicate (actions.countP Action.isReceipt) (.failed (.transport s.channel)) := by
  induction actions generalizing t s with
  | nil => exact (List.append_nil _).symm
  | cons action actions ih =>
    obtain ⟨hreceipts, s', hs', hclosed', hchannel⟩ := step_of_closed h hclosed action
    have hrest := ih hs' hclosed'
    rw [hreceipts, hchannel] at hrest
    rw [List.countP_cons, run, List.foldl_cons]
    rw [run] at hrest
    rw [hrest, List.append_assoc]
    cases action.isReceipt <;> simp [List.replicate_succ]

/-- While something waits at an open subscriber, every receipt takes the next item alone, and only
the end of the connection closes the subscriber. -/
theorem step_of_signal (h : t.subscriber? = some s) (hopen : s.closed = false)
    (hdecode : ∀ payload r, s.decode payload = .error r → r.isRejection = true)
    {signal : Signal} {rest : List Signal} (hqueue : s.queue = signal :: rest)
    {action : Action} (haction : action.isReceipt = true) :
    (t.step action).receipts = t.receipts ++ [signal.answer s.channel s.decode] ∧
      (t.step action).subscriber? =
        some { s with queue := rest, closed := decide (signal = .ended) } := by
  have hreceive : s.receive = (signal.answer s.channel s.decode,
      { s with queue := rest, closed := decide (signal = .ended) }) := by
    rw [Subscriber.receive, hqueue, hopen]
    cases signal with
    | payload text => exact Prod.ext (Subscriber.read_eq_outcome hdecode text) (by simp)
    | ended => rfl
  have htaken : t.step action = t.receive := by
    cases action with
    | receive =>
      rw [step, if_neg]
      simp [h, Subscriber.waits, hqueue]
    | poll => rfl
    | notify | terminate | close => cases haction
  rw [htaken, receipts_receive h, subscriber?_receive h, hreceive]
  exact ⟨rfl, rfl⟩

theorem exists_closed_step_close (h : t.subscriber? = some s) :
    ∃ s', (t.step .close).subscriber? = some s' ∧ s'.closed = true := by
  rw [step]
  cases hclosed : s.closed with
  | true => exact ⟨s, by rwa [close_of_closed h hclosed], hclosed⟩
  | false => exact ⟨s.close, subscriber?_close h hclosed, rfl⟩

/-! ## Deliveries -/

/-- Of a subscriber whose reader does no more than reject, whatever happens to it: the answers are
what comes of the payloads in the order of their arrival, followed by failures of transport only.
While it is open nothing was lost and nothing has failed, and a payload is taken alone, also when it
is rejected. It is closed after the end of the connection, by which all that had arrived before was
taken, or by a close; from then on every receipt fails. However often it is closed, its listeners
are taken off as by one close. -/
theorem run_delivers (c : Connection α) (channel : String) (decode : String → Except Raised α)
    (hdecode : ∀ payload r, decode payload = .error r → r.isRejection = true)
    (actions : List Action) :
    let start := opened c channel decode
    let t := start.run actions
    ∃ (s : Subscriber α) (taken : List String) (failures : Nat), t.subscriber? = some s ∧
      t.answers = taken.map (outcome decode) ++
        List.replicate failures (.failed (.transport channel)) ∧
      (s.closed = false → failures = 0 ∧ t.arrived = taken.map .payload ++ s.queue ∧
        ∀ signal rest, s.queue = signal :: rest → ∀ action : Action, action.isReceipt = true →
          (t.step action).receipts = t.receipts ++ [signal.answer channel decode] ∧
            (t.step action).subscriber? =
              some { s with queue := rest, closed := decide (signal = .ended) }) ∧
      (s.closed = true →
        (taken.map .payload ++ [.ended] <+: t.arrived ∨
          taken.map .payload <+: t.arrived ∧
            t.connection.SameListeners start.close.connection) ∧
        ∀ later : List Action, (t.run later).receipts = t.receipts ++
          List.replicate (later.countP Action.isReceipt) (.failed (.transport channel))) ∧
      (∃ s', (t.step .close).subscriber? = some s' ∧ s'.closed = true) ∧
      (t.connection.SameListeners start.connection ∨
        t.connection.SameListeners start.close.connection) ∧
      start.close.connection.log = start.connection.log ++ [.removed channel] := by
  intro start t
  have hstart : start.subscriber? = some { channel, decode } := subscriber?_opened c channel decode
  obtain ⟨s, taken, failures, h⟩ := (stands_opened c channel decode).run hdecode hstart actions
  have hcourse := h.course
  refine ⟨s, taken, failures, h.subscriber?_eq, h.answers_eq, ?_, ?_,
    exists_closed_step_close h.subscriber?_eq, ?_, ?_⟩
  · intro hopen
    obtain ⟨hfailures, harrived, -⟩ := hcourse.of_open hopen
    refine ⟨hfailures, harrived, fun signal rest hqueue action haction => ?_⟩
    have hdecode : ∀ payload r, s.decode payload = .error r → r.isRejection = true :=
      h.decode_eq ▸ hdecode
    rw [← h.channel_eq, ← h.decode_eq]
    exact step_of_signal h.subscriber?_eq hopen hdecode hqueue haction
  · intro hclosed
    refine ⟨?_, fun later => h.channel_eq ▸ run_of_closed h.subscriber?_eq hclosed later⟩
    cases hcourse with
    | listening isOpen => rw [isOpen] at hclosed; cases hclosed
    | ended _ arrived _ => exact Or.inl arrived
    | left _ arrived asked => exact Or.inr ⟨arrived, asked⟩
  · cases hcourse with
    | listening _ _ asked => exact Or.inl asked
    | ended _ _ asked => exact Or.inl asked
    | left _ _ asked => exact Or.inr asked
  · rw [connection_close hstart rfl]

/-- A reader of one number, which rejects all else. -/
def readFive (payload : String) : Except Raised Nat :=
  if payload = "5" then .ok 5 else .error ⟨.badValue, "not a number: " ++ payload⟩

theorem isRejection_of_readFive (payload : String) (r : Raised)
    (h : readFive payload = .error r) : r.isRejection = true := by
  rw [readFive] at h
  split at h
  · cases h
  · cases h
    rfl

example : ((opened {} "orders" readFive).run [.notify "x", .notify "5", .poll, .receive, .poll,
    .notify "5", .terminate, .notify "6", .receive, .receive, .close, .poll]).receipts =
    [.failed (.decode "not a number: x"), .event 5, .nothing, .event 5,
      .failed (.transport "orders"), .failed (.transport "orders")] := rfl

theorem run_delivers_orders :
    let t := (opened {} "orders" readFive).run [.notify "x", .notify "5", .terminate, .poll, .close]
    (∀ payload r, readFive payload = .error r → r.isRejection = true) ∧
    ∃ (s : Subscriber Nat) (taken : List String) (failures : Nat), t.subscriber? = some s ∧
      t.answers = taken.map (outcome readFive) ++
        List.replicate failures (.failed (.transport "orders")) ∧
      s.closed = true ∧ t.connection.log = [.added "orders", .removed "orders"] := by
  refine ⟨isRejection_of_readFive, ?_⟩
  obtain ⟨s, taken, failures, hs, hanswers, -⟩ := run_delivers {} "orders" readFive
    isRejection_of_readFive [.notify "x", .notify "5", .terminate, .poll, .close]
  exact ⟨s, taken, failures, hs, hanswers, Option.some.inj hs ▸ rfl, rfl⟩

end Session

end EntityForge.Notification
