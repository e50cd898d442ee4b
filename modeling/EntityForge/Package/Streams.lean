import EntityForge.Package.Shape

/-!
# The streams module

The channel on which the events of an entity are notified and the subscriber that reads them.
-/

namespace EntityForge.Package

open Source

/-- The function that names the channel. -/
def channelFunction (e : Entity) : Function where
  name := "channel"
  parameters := []
  returns := "str"
  doc := some s!"Notification channel carrying {e.name} events."
  body := [⟨0, "return channel_name(TABLE)"⟩]

/-- The subscriber. -/
def subscriberClass (e : Entity) : ClassBlock where
  name := e.subscriberName
  bases := [s!"NotificationSubscriber[{e.eventUnion}]"]
  doc := some (s!"Receives {e.name} events from ``channel()``." ++
    "\n\n``recv()`` raises ``StreamTransportError`` once the connection is gone\n" ++
    s!"and ``StreamDecodeError`` for payloads that are not {e.name} events." ++
    s!"\n\nUsage::\n\n    subscriber = await {e.subscriberName}.subscribe(connection)\n" ++
    "    event = await subscriber.recv()")
  paragraphs := [.method {
    name := "subscribe"
    parameters := ["cls", "connection: Any"]
    returns := e.subscriberName
    decorators := ["classmethod"]
    isAsync := true
    body := [⟨0, s!"return await cls.listen(connection, channel(), {e.decodeFunction})"⟩] }]

/-- The module with the subscriber of an entity. -/
def streamsModule (runtime : String) (e : Entity) : Module where
  doc := s!"Change notifications of {e.name}." ++ generatedNote
  imports := lastPerModule [("typing", ["Any"]),
    (runtime, ["NotificationSubscriber", "channel_name"]),
    (".events", [e.eventUnion, e.decodeFunction])]
  sections := [.assignments [[⟨"TABLE", literal e.table, none, []⟩]],
    .function (channelFunction e), .classDef (subscriberClass e)]

end EntityForge.Package
