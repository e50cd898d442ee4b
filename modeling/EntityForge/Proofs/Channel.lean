import EntityForge.Package.Streams
import EntityForge.Proofs.Document
import EntityForge.Proofs.Lookup
import EntityForge.Proofs.Notification
import EntityForge.Sql.Status

/-!
# Channels of entities

The backend of an entity publishes on the channel of its table, and the streams module subscribes
to that channel. The channel is made from the name of the table without its schema, while
validation tells tables apart with their schemas: where it finds no error, two entities share a
channel exactly when their tables have one name in different schemas, and it takes that for a
subscriber to receive events of another entity.
-/

namespace EntityForge

/-! ## Literals -/

namespace Source

/-- The text of a literal without its quotes. -/
def unescape : List Char → List Char
  | '\\' :: 'n' :: cs => '\n' :: unescape cs
  | '\\' :: c :: cs => c :: unescape cs
  | c :: cs => c :: unescape cs
  | [] => []

theorem unescape_literalChar (c : Char) (cs : List Char) :
    unescape (literalChar c ++ cs) = c :: unescape cs := by
  simp only [literalChar]
  split
  · rename_i h
    rcases h with rfl | rfl
    · simp [unescape]
    · simp [unescape]
  · rename_i hplain
    rw [not_or] at hplain
    split
    · rename_i hfeed
      rw [hfeed]
      simp [unescape]
    · simp [unescape, hplain.1]

/-- What is read back from a literal is the text it was made for. -/
theorem unescape_flatMap_literalChar (cs : List Char) : unescape (cs.flatMap literalChar) = cs := by
  induction cs with
  | nil => rfl
  | cons c cs ih => rw [List.flatMap_cons, unescape_literalChar, ih]

/-- Literals of different texts are different. -/
theorem literal_inj {s t : String} : literal s = literal t ↔ s = t := by
  constructor
  · intro h
    have hchars : literalChars s.toList = literalChars t.toList := by
      simpa only [literal, String.ofList_inj] using h
    have hinner := List.append_cancel_right (List.tail_eq_of_cons_eq hchars)
    rw [escaped_eq_flatMap, escaped_eq_flatMap] at hinner
    rw [← String.toList_inj, ← unescape_flatMap_literalChar s.toList, hinner,
      unescape_flatMap_literalChar]
  · rintro rfl
    rfl

end Source

namespace Package

open Source Sql Notification

variable {e e' : Entity} {runtime channel : String}

/-! ## Channels of modules -/

/-- The channel of the events of an entity. -/
def channelOf (e : Entity) : String := channelName e.table

/-- The line that publishes an event on the channel of a table. -/
def publishLine (table : String) : CodeLine :=
  ⟨0, "await publish(self._executor, channel_name(" ++ literal table ++ "), event.to_payload())"⟩

/-- A class of the module has a method that publishes events on the channel. -/
def PublishesOn (m : Module) (channel : String) : Prop :=
  ∃ c ∈ m.classes, ∃ f ∈ c.methods, f.name = "_publish" ∧
    ∃ table, f.body = [publishLine table] ∧ channel = channelName table

/-- The function `channel` of the module names the channel of a table that the module assigns. -/
def NamesChannel (m : Module) (channel : String) : Prop :=
  ∃ f, Section.function f ∈ m.sections ∧ f.name = "channel" ∧
    f.body = [⟨0, "return channel_name(TABLE)"⟩] ∧
    ∃ table, (⟨"TABLE", literal table, none, []⟩ : Assignment) ∈ assignments m ∧
      channel = channelName table

/-- A class of the module has a method that listens on what the function `channel` names. -/
def SubscribesOn (m : Module) (channel : String) : Prop :=
  (∃ c ∈ m.classes, ∃ f ∈ c.methods, f.name = "subscribe" ∧
    ∃ decode : String,
      f.body = [⟨0, s!"return await cls.listen(connection, channel(), {decode})"⟩]) ∧
    NamesChannel m channel

theorem publishLine_inj {table table' : String} :
    publishLine table = publishLine table' ↔ table = table' := by
  simp only [publishLine, CodeLine.mk.injEq, true_and, String.append_left_inj,
    String.append_right_inj, literal_inj]

/-- No operation and no lookup is named like the method that publishes. -/
theorem name_ne_publish {m : RepositoryMethod} (hm : m ∈ repositoryMethods e) :
    m.name ≠ "_publish" := by
  have hname : m.name ∈ (repositoryMethods e).map RepositoryMethod.name := List.mem_map_of_mem hm
  rw [names_repositoryMethods] at hname
  intro h
  rw [h] at hname
  rcases List.mem_append.mp hname with hown | hname
  · exact absurd (ownNames_sublist.subset hown) (by decide)
  · rcases List.mem_append.mp hname with hlookup | hsoft
    · obtain ⟨x, hx⟩ := lookupNames_repositoryMethods.exists_find _ hlookup
      exact find_ne (by decide) hx.symm
    · have hnone : "_publish" ∉ softDeleteNames e := by
        unfold softDeleteNames
        split <;> decide
      exact hnone hsoft

theorem mem_methods {c : ClassBlock} {f : Function} :
    f ∈ c.methods ↔ Paragraph.method f ∈ c.paragraphs := by
  rw [ClassBlock.methods, List.mem_filterMap]
  constructor
  · rintro ⟨p, hp, hf⟩
    cases p with
    | attributes lines => cases hf
    | method g =>
      obtain rfl := Option.some.inj hf
      exact hp
  · intro hf
    exact ⟨_, hf, rfl⟩

/-- The methods of the backend make it, run its statements, publish its events, or are those of the
repository. -/
theorem mem_methods_backendClass {f : Function} (hf : f ∈ (backendClass e).methods) :
    f.name ∈ ["__init__", "_fetch", "_fetchrow", "_execute"] ∨
      Paragraph.method f ∈ publishMethod e ∨ ∃ m ∈ repositoryMethods e, f.name = m.name := by
  rw [mem_methods] at hf
  rcases List.mem_append.mp hf with hf | hf
  · rcases List.mem_append.mp hf with hf | hf
    · left
      simp only [List.map_cons, List.map_nil, List.singleton_append, List.mem_cons,
        List.not_mem_nil, or_false, runMethod, Paragraph.method.injEq] at hf
      rcases hf with rfl | rfl | rfl | rfl <;> simp [Verb.word]
    · exact Or.inr (Or.inl hf)
  · obtain ⟨m, hm, hf⟩ := List.mem_map.mp hf
    exact Or.inr (Or.inr ⟨m, hm, congrArg Function.name (Paragraph.method.inj hf).symm⟩)

/-- The backend publishes on the channel of the entity, if the entity has streams. -/
theorem publishesOn_backendModule : PublishesOn (backendModule runtime e) channel ↔
    e.features.streams = true ∧ channel = channelOf e := by
  have hclasses : (backendModule runtime e).classes = [backendClass e] := rfl
  rw [PublishesOn, hclasses]
  constructor
  · rintro ⟨c, hc, f, hf, hname, table, hbody, rfl⟩
    obtain rfl := List.mem_singleton.mp hc
    rcases mem_methods_backendClass hf with h | h | ⟨m, hm, h⟩
    · rw [hname] at h
      exact absurd h (by decide)
    · unfold publishMethod at h
      split at h
      · rename_i hstreams
        obtain rfl := Paragraph.method.inj (List.mem_singleton.mp h)
        have htable : e.table = table := publishLine_inj.mp (List.head_eq_of_cons_eq hbody)
        exact ⟨hstreams, by rw [channelOf, htable]⟩
      · exact absurd h List.not_mem_nil
    · exact absurd (h ▸ hname) (name_ne_publish hm)
  · rintro ⟨hstreams, rfl⟩
    obtain ⟨f, hf, hname, hbody⟩ : ∃ f, publishMethod e = [.method f] ∧ f.name = "_publish" ∧
        f.body = [publishLine e.table] := by
      rw [publishMethod, if_pos hstreams]
      exact ⟨_, rfl, rfl, rfl⟩
    have hmem : Paragraph.method f ∈ (backendClass e).paragraphs :=
      List.mem_append_left _ (List.mem_append_right _ (hf ▸ List.mem_singleton_self _))
    exact ⟨_, List.mem_singleton_self _, f, mem_methods.mpr hmem, hname, e.table, hbody, rfl⟩

/-- The streams module subscribes to the channel of the entity. -/
theorem subscribesOn_streamsModule : SubscribesOn (streamsModule runtime e) channel ↔
    channel = channelOf e := by
  constructor
  · rintro ⟨-, f, hf, -, -, table, htable, rfl⟩
    have hassigned : assignments (streamsModule runtime e) =
      [⟨"TABLE", literal e.table, none, []⟩] := rfl
    rw [hassigned, List.mem_singleton, Assignment.mk.injEq] at htable
    rw [channelOf, literal_inj.mp htable.2.1]
  · rintro rfl
    refine ⟨⟨subscriberClass e, List.mem_singleton_self _, _, List.mem_singleton_self _, rfl,
      e.decodeFunction, rfl⟩, channelFunction e, ?_, rfl, rfl, e.table, ?_, rfl⟩
    · exact List.mem_cons_of_mem _ List.mem_cons_self
    · exact List.mem_singleton_self _

/-! ## Channels of a document -/

/-- The entities with streams. -/
def streamEntities (es : List Entity) : List Entity := es.filter fun e => e.features.streams

/-- The package of an entity holds a module. -/
def Holds (runtime : String) (e : Entity) (k : ModuleKind) (m : Module) : Prop :=
  k ∈ moduleKinds e ∧ module? runtime e k = .ok (some m)

/-- The package of an entity publishes on the channel or subscribes to it. -/
def Uses (runtime : String) (e : Entity) (channel : String) : Prop :=
  (∃ m, Holds runtime e .backend m ∧ PublishesOn m channel) ∨
    ∃ m, Holds runtime e .streams m ∧ SubscribesOn m channel

/-- Entities with streams that lie in different schemas have tables of different names. -/
def TablesApart (es : List Entity) : Prop :=
  ∀ e ∈ streamEntities es, ∀ e' ∈ streamEntities es, e.schema ≠ e'.schema → e.table ≠ e'.table

instance (es : List Entity) : Decidable (TablesApart es) :=
  inferInstanceAs (Decidable (∀ e ∈ streamEntities es, _))

/-- Different entities with streams use different channels. -/
def ChannelsApart (es : List Entity) : Prop :=
  ∀ e ∈ streamEntities es, ∀ e' ∈ streamEntities es, e ≠ e' →
    ∀ runtime channel channel', Uses runtime e channel → Uses runtime e' channel' →
      channel ≠ channel'

/-- The notification of an event of an entity, by its channel and payload. -/
def announced (event : Entity × String) : String × String := (channelOf event.1, event.2)

/-- Whatever happens on a connection, a subscriber to the channel of an entity receives only what
was published for that entity. -/
def SubscribersServed (es : List Entity) : Prop :=
  ∀ (α : Type) (c : Connection α) (published : List (Entity × String)),
    (∀ event ∈ published, event.1 ∈ streamEntities es) → c.Ran (published.map announced) →
    ∀ e ∈ streamEntities es, ∀ i s a, c.subscribers[i]? = some s → s.channel = channelOf e →
      (c.receive i).1 = .event a → ∃ payload, (e, payload) ∈ published ∧ s.decode payload = .ok a

theorem module_of_holds_backend {m : Module} (h : Holds runtime e .backend m) :
    m = backendModule runtime e := by
  obtain ⟨found, hfound, h⟩ := exists_of_bind_eq_ok h.2
  obtain ⟨-, -, hmodule⟩ := exists_of_bind_eq_ok hfound
  obtain ⟨-, -, h⟩ := exists_of_bind_eq_ok h
  obtain rfl := Except.ok.inj h
  exact (Option.some.inj (Except.ok.inj hmodule)).symm

theorem holds_streams_iff {m : Module} :
    Holds runtime e .streams m ↔ e.features.streams = true ∧ m = streamsModule runtime e := by
  have hmodule : module? runtime e .streams = .ok (some (streamsModule runtime e)) := rfl
  have hkind : .streams ∈ moduleKinds e ↔ e.features.streams = true := by
    simp [moduleKinds]
  rw [Holds, hkind, hmodule, Except.ok.injEq, Option.some.injEq, eq_comm (a := m)]

/-- The package of an entity with streams uses the channel of the entity and no other. -/
theorem uses_iff (he : e.features.streams = true) :
    Uses runtime e channel ↔ channel = channelOf e := by
  constructor
  · rintro (⟨m, hm, hpublishes⟩ | ⟨m, hm, hsubscribes⟩)
    · obtain rfl := module_of_holds_backend hm
      exact (publishesOn_backendModule.mp hpublishes).2
    · obtain ⟨-, rfl⟩ := holds_streams_iff.mp hm
      exact subscribesOn_streamsModule.mp hsubscribes
  · intro hchannel
    exact Or.inr ⟨_, holds_streams_iff.mpr ⟨he, rfl⟩, subscribesOn_streamsModule.mpr hchannel⟩

theorem channelOf_inj : channelOf e = channelOf e' ↔ e.table = e'.table :=
  String.append_right_inj _

variable {es : List Entity}

theorem streams_of_mem (he : e ∈ streamEntities es) : e ∈ es ∧ e.features.streams = true :=
  List.mem_filter.mp he

/-- Entities use different channels if their channels are different. -/
theorem channelsApart_iff : ChannelsApart es ↔ ∀ e ∈ streamEntities es,
    ∀ e' ∈ streamEntities es, channelOf e = channelOf e' → e = e' := by
  constructor
  · intro h e he e' he' hchannel
    by_contra hne
    exact h e he e' he' hne "" _ _ ((uses_iff (streams_of_mem he).2).mpr rfl)
      ((uses_iff (streams_of_mem he').2).mpr rfl) hchannel
  · intro h e he e' he' hne runtime channel channel' huse huse' hchannel
    rw [uses_iff (streams_of_mem he).2] at huse
    rw [uses_iff (streams_of_mem he').2] at huse'
    exact hne (h e he e' he' (huse ▸ huse' ▸ hchannel))

/-- Where no error is found, different channels mean different tables across schemas. -/
theorem channelsApart_iff_tablesApart {strict : Bool}
    (h : (Validation.document es strict).Clean) : ChannelsApart es ↔ TablesApart es := by
  have htables := (Validation.nodup_of_clean_document h).2
  rw [channelsApart_iff]
  constructor
  · intro hone e he e' he' hschema htable
    exact hschema (congrArg Entity.schema (hone e he e' he' (channelOf_inj.mpr htable)))
  · intro happart e he e' he' hchannel
    have htable := channelOf_inj.mp hchannel
    have hschema : e.schema = e'.schema :=
      not_not.mp fun hne => happart e he e' he' hne htable
    have hfull : e.fullTable = e'.fullTable := by
      rw [Entity.fullTable, Entity.fullTable, hschema, htable]
    exact List.inj_on_of_nodup_map htables (streams_of_mem he).1 (streams_of_mem he').1 hfull

/-- Subscribers are served with events of their entities alone exactly when the channels of
different entities are different. -/
theorem subscribersServed_iff : SubscribersServed es ↔ ChannelsApart es := by
  rw [channelsApart_iff]
  constructor
  · intro h e he e' he' hchannel
    -- A subscriber of one entity, and then an event of the other.
    let subscriber : Subscriber String := { channel := channelOf e, decode := .ok }
    let before : Connection String := ({} : Connection String).listen subscriber
    have hran : (before.notify (channelOf e') "").2.Ran ([(e', "")].map announced) :=
      .notified _ _ (.listened subscriber .opened rfl)
    have hafter : (before.notify (channelOf e') "").2.subscribers =
        [subscriber.deliver (.payload "")] := by
      rw [← hchannel]
      simp [before, Connection.listen, Connection.notify, subscriber]
    have hfirst : (before.notify (channelOf e') "").2.subscribers[0]? =
        some (subscriber.deliver (.payload "")) := by
      rw [hafter]
      rfl
    have hreceives : ((before.notify (channelOf e') "").2.receive 0).1 = .event "" := by
      rw [Connection.receive, hfirst]
      rfl
    have hall : ∀ event ∈ [(e', "")], event.1 ∈ streamEntities es := by
      intro event hevent
      rw [List.mem_singleton.mp hevent]
      exact he'
    obtain ⟨payload, hpublished, -⟩ := h String _ _ hall hran e he 0 _ "" hfirst rfl hreceives
    exact congrArg Prod.fst (List.mem_singleton.mp hpublished)
  · intro h α c published hall hran e he i s a hs hchannel ha
    obtain ⟨s', payload, hs', hsent, hread⟩ := hran.of_receive_eq_event ha
    obtain rfl := Option.some.inj (hs.symm.trans hs')
    obtain ⟨event, hevent, hannounced⟩ := List.mem_map.mp hsent
    obtain ⟨hchannel', rfl⟩ := Prod.mk.inj hannounced
    have hchannels : channelOf e = channelOf event.1 := hchannel.symm.trans hchannel'.symm
    have hsame : e = event.1 := h e he event.1 (hall event hevent) hchannels
    exact ⟨event.2, hsame ▸ hevent, hread⟩

/-- Where no error is found, the channels of different entities are different, and every subscriber
receives events of its own entity only, exactly when entities with streams in different schemas have
tables of different names. -/
theorem channels_apart_iff {strict : Bool} (h : (Validation.document es strict).Clean) :
    (ChannelsApart es ↔ TablesApart es) ∧ (SubscribersServed es ↔ TablesApart es) := by
  have hchannels := channelsApart_iff_tablesApart h
  exact ⟨hchannels, subscribersServed_iff.trans hchannels⟩

/-- Two entities with streams in two schemas, with tables of different names. -/
def contactDocument : Document where
  entities := [
    { name := "Login"
      attributes := [(.text "table", .text "logins"), (.text "schema", .text "auth"),
        (.text "streams", .bool true)]
      fields := some [
        { name := some "id", type := "uuid", attributes := [(.text "id", .bool true)] }] },
    { name := "Contact"
      attributes := [(.text "table", .text "contacts"), (.text "schema", .text "crm"),
        (.text "streams", .bool true)]
      fields := some [
        { name := some "id", type := "uuid", attributes := [(.text "id", .bool true)] }] }]

/-- The channels of logins and contacts are different, and their subscribers are served. -/
theorem channels_apart_contact :
    (Validation.document contactDocument.built false).Clean ∧
      (streamEntities contactDocument.built).map Entity.fullTable =
        ["auth.logins", "crm.contacts"] ∧
      ChannelsApart contactDocument.built ∧ SubscribersServed contactDocument.built := by
  have hclean : (Validation.document contactDocument.built false).Clean := by decide +kernel
  have htables : TablesApart contactDocument.built := by decide +kernel
  obtain ⟨hchannels, hserved⟩ := channels_apart_iff hclean
  exact ⟨hclean, by decide +kernel, hchannels.mpr htables, hserved.mpr htables⟩

/-- Two entities with streams whose tables have one name in two schemas. -/
def userDocument : Document where
  entities := [
    { name := "Login"
      attributes := [(.text "table", .text "users"), (.text "schema", .text "auth"),
        (.text "streams", .bool true)]
      fields := some [
        { name := some "id", type := "uuid", attributes := [(.text "id", .bool true)] }] },
    { name := "Contact"
      attributes := [(.text "table", .text "users"), (.text "schema", .text "crm"),
        (.text "streams", .bool true)]
      fields := some [
        { name := some "id", type := "uuid", attributes := [(.text "id", .bool true)] }] }]

/-- Nothing is found about the two tables of users, but both entities use one channel, and a
subscriber of one receives events of the other. -/
theorem channels_shared_user :
    (Validation.document userDocument.built false).Quiet ∧
      userDocument.built.map Entity.fullTable = ["auth.users", "crm.users"] ∧
      (∀ e ∈ userDocument.built, ∀ runtime, Uses runtime e "entity_users") ∧
      ¬ ChannelsApart userDocument.built ∧ ¬ SubscribersServed userDocument.built := by
  have hquiet : (Validation.document userDocument.built false).Quiet := by decide +kernel
  have hchannels : ∀ e ∈ userDocument.built,
      e.features.streams = true ∧ "entity_users" = channelOf e := by decide +kernel
  have happart : ¬ ChannelsApart userDocument.built := by
    rw [channelsApart_iff_tablesApart hquiet.clean]
    decide +kernel
  refine ⟨hquiet, by decide +kernel, fun e he runtime => ?_, happart, ?_⟩
  · exact (uses_iff (hchannels e he).1).mpr (hchannels e he).2
  · rwa [subscribersServed_iff]

end Package

end EntityForge
