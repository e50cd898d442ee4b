import EntityForge.Notification.Connection

/-!
# What subscribers hear

A subscriber keeps the channel it came with, and whatever happens on the connection, all that waits
at it was notified on that channel. The invariant that carries this says so of every subscriber,
and of every listener that it is a subscriber of the channel it listens on; one lemma for each
thing that can happen shows that it lasts.
-/

namespace EntityForge.Notification

namespace Connection

variable {α : Type} {c : Connection α} {sent : List (String × String)}

/-- The channels of the subscribers, in the order in which they came. -/
def channels (c : Connection α) : List String := c.subscribers.map Subscriber.channel

/-- A connection after notifications, each of a channel with a payload. -/
inductive Ran : Connection α → List (String × String) → Prop where
  | opened : Ran {} []
  | listened {c : Connection α} {sent : List (String × String)} (s : Subscriber α)
      (h : Ran c sent) (hs : s.queue = []) : Ran (c.listen s) sent
  | notified {c : Connection α} {sent : List (String × String)} (channel payload : String)
      (h : Ran c sent) : Ran (c.notify channel payload).2 (sent ++ [(channel, payload)])
  | published {c : Connection α} {sent : List (String × String)} (channel payload : String)
      (h : Ran c sent) : Ran (c.publish channel payload) sent
  | terminated {c : Connection α} {sent : List (String × String)} (h : Ran c sent) :
      Ran c.terminate sent
  | received {c : Connection α} {sent : List (String × String)} (i : Nat) (h : Ran c sent) :
      Ran (c.receive i).2 sent
  | closed {c : Connection α} {sent : List (String × String)} (i : Nat) (h : Ran c sent) :
      Ran (c.close i) sent

/-- All that waits at a subscriber was notified on its channel. -/
def Heard (sent : List (String × String)) (s : Subscriber α) : Prop :=
  ∀ text, .payload text ∈ s.queue → (s.channel, text) ∈ sent

/-- Listeners are subscribers of their channels, and all subscribers hear their channels only. -/
structure Faithful (c : Connection α) (sent : List (String × String)) : Prop where
  listening : ∀ l ∈ c.listeners, c.channels[l.2]? = some l.1
  heard : ∀ s ∈ c.subscribers, Heard sent s

/-! ## Single subscribers -/

theorem Heard.mono {sent' : List (String × String)} {s : Subscriber α} (h : Heard sent s)
    (hsent : sent ⊆ sent') : Heard sent' s :=
  fun text hm => hsent (h text hm)

theorem Heard.deliver_payload {s : Subscriber α} (h : Heard sent s) (payload : String) :
    Heard (sent ++ [(s.channel, payload)]) (s.deliver (.payload payload)) := by
  intro text hm
  rcases List.mem_append.mp hm with hm | hm
  · exact List.mem_append_left _ (h text hm)
  · obtain rfl := Signal.payload.inj (List.mem_singleton.mp hm)
    exact List.mem_append_right _ (List.mem_singleton_self _)

theorem Heard.deliver_ended {s : Subscriber α} (h : Heard sent s) :
    Heard sent (s.deliver .ended) := by
  intro text hm
  rcases List.mem_append.mp hm with hm | hm
  · exact h text hm
  · cases List.mem_singleton.mp hm

theorem channel_receive (s : Subscriber α) : s.receive.2.channel = s.channel := by
  simp only [Subscriber.receive]
  split
  · rfl
  · split <;> rfl

/-- Receiving adds nothing to what waits. -/
theorem queue_receive_subset (s : Subscriber α) : s.receive.2.queue ⊆ s.queue := by
  simp only [Subscriber.receive]
  split
  · exact List.Subset.refl _
  · split
    · exact List.Subset.refl _
    · rename_i hq
      exact hq ▸ List.subset_cons_self _ _
    · rename_i hq
      exact hq ▸ List.subset_cons_self _ _

/-- An event that is received was read from a payload that waited. -/
theorem mem_queue_of_receive {s : Subscriber α} {a : α} (h : s.receive.1 = .event a) :
    ∃ text, .payload text ∈ s.queue ∧ s.decode text = .ok a := by
  simp only [Subscriber.receive] at h
  split at h
  · cases h
  · split at h
    · cases h
    · rename_i text rest hq
      refine ⟨text, hq ▸ List.mem_cons_self, ?_⟩
      simp only [Subscriber.read] at h
      split at h
      · rename_i b hb
        rw [hb, Receipt.event.inj h]
      · split at h <;> cases h
    · cases h

theorem Heard.receive {s : Subscriber α} (h : Heard sent s) : Heard sent s.receive.2 := by
  intro text hm
  rw [channel_receive]
  exact h text (queue_receive_subset s hm)

/-! ## What can happen -/

theorem map_channel_modify {f : Subscriber α → Subscriber α}
    (hf : ∀ s, (f s).channel = s.channel) (ss : List (Subscriber α)) (i : Nat) :
    (ss.modify i f).map Subscriber.channel = ss.map Subscriber.channel := by
  apply List.ext_getElem?
  intro j
  rw [List.getElem?_map, List.getElem?_map, List.getElem?_modify, Option.map_eq_map,
    Option.map_map]
  refine congrArg (fun g => Option.map g ss[j]?) (funext fun s => ?_)
  by_cases hj : i = j
  · simp [hj, hf]
  · simp [hj]

/-- What stands in a list after one place of it was changed stood there before, or is what the
change made of that place. -/
theorem mem_modify {f : Subscriber α → Subscriber α} {ss : List (Subscriber α)} {i : Nat}
    {s : Subscriber α} (h : s ∈ ss.modify i f) : s ∈ ss ∨ ∃ t, ss[i]? = some t ∧ s = f t := by
  obtain ⟨j, hj⟩ := List.mem_iff_getElem?.mp h
  rw [List.getElem?_modify, Option.map_eq_map, Option.map_eq_some_iff] at hj
  obtain ⟨t, ht, hs⟩ := hj
  by_cases hij : i = j
  · exact Or.inr ⟨t, hij ▸ ht, by simpa [hij] using hs.symm⟩
  · have hs : t = s := by simpa [hij] using hs
    exact Or.inl (hs ▸ List.mem_of_getElem? ht)

theorem set_eq_modify {f : Subscriber α → Subscriber α} {ss : List (Subscriber α)} {i : Nat}
    {s : Subscriber α} (h : ss[i]? = some s) : ss.set i (f s) = ss.modify i f := by
  apply List.ext_getElem?
  intro j
  rw [List.getElem?_set, List.getElem?_modify]
  by_cases hij : i = j
  · subst hij
    obtain ⟨hlt, rfl⟩ := List.getElem?_eq_some_iff.mp h
    simp [hlt]
  · simp [hij]

/-- A change to one subscriber that keeps its channel keeps the invariant if it keeps what the
subscriber heard. -/
theorem Faithful.modify {sent' : List (String × String)} (h : c.Faithful sent) {i : Nat}
    {f : Subscriber α → Subscriber α} (hf : ∀ s, (f s).channel = s.channel) (hsent : sent ⊆ sent')
    (hheard : ∀ s, c.subscribers[i]? = some s → Heard sent' (f s)) :
    ({ c with subscribers := c.subscribers.modify i f } : Connection α).Faithful sent' := by
  constructor
  · intro l hl
    rw [channels, map_channel_modify hf]
    exact h.listening l hl
  · intro s hs
    rcases mem_modify hs with hs | ⟨t, ht, rfl⟩
    · exact (h.heard s hs).mono hsent
    · exact hheard t ht

theorem Faithful.heard_of_getElem? (h : c.Faithful sent) {i : Nat} {s : Subscriber α}
    (hs : c.subscribers[i]? = some s) : Heard sent s :=
  h.heard s (List.mem_of_getElem? hs)

theorem Faithful.listen {s : Subscriber α} (h : c.Faithful sent) (hs : s.queue = []) :
    (c.listen s).Faithful sent := by
  have hchannels : (c.listen s).channels = c.channels ++ [s.channel] := by
    rw [channels, Connection.listen, List.map_append]
    rfl
  constructor
  · intro l hl
    rw [hchannels]
    rcases List.mem_append.mp hl with hl | hl
    · have hold := h.listening l (List.mem_filter.mp hl).1
      rwa [List.getElem?_append_left (List.getElem?_eq_some_iff.mp hold).1]
    · obtain rfl := List.mem_singleton.mp hl
      have hlength : c.channels.length = c.subscribers.length := List.length_map _
      rw [← hlength, List.getElem?_concat_length]
  · intro t ht
    rcases List.mem_append.mp ht with ht | ht
    · exact h.heard t ht
    · obtain rfl := List.mem_singleton.mp ht
      intro text hm
      rw [hs] at hm
      exact absurd hm List.not_mem_nil

theorem Faithful.notify (h : c.Faithful sent) (channel payload : String) :
    (c.notify channel payload).2.Faithful (sent ++ [(channel, payload)]) := by
  have hsent : sent ⊆ sent ++ [(channel, payload)] := List.subset_append_left _ _
  simp only [Connection.notify]
  split
  · exact ⟨h.listening, fun s hs => (h.heard s hs).mono hsent⟩
  · rename_i i hlookup
    refine h.modify (fun s => rfl) hsent fun s hs => ?_
    -- The listener that was found is a subscriber of the channel that is notified.
    have hmem : (channel, i) ∈ c.listeners := by
      obtain ⟨l, l', heq, -⟩ := List.lookup_eq_some_iff.mp hlookup
      exact heq ▸ List.mem_append_right _ List.mem_cons_self
    have hchannel : some s.channel = some channel := by
      rw [← h.listening _ hmem, channels, List.getElem?_map, hs]
      rfl
    rw [← Option.some.inj hchannel]
    exact (h.heard_of_getElem? hs).deliver_payload payload

theorem Faithful.terminate (h : c.Faithful sent) : c.terminate.Faithful sent := by
  let tell (ss : List (Subscriber α)) (i : Nat) := ss.modify i fun s => s.deliver .ended
  have hall (told : List Nat) (c : Connection α) (h : c.Faithful sent) :
      ({ c with subscribers := told.foldl tell c.subscribers } : Connection α).Faithful sent := by
    induction told generalizing c with
    | nil => exact h
    | cons i told ih =>
      have hstep := h.modify (i := i) (f := fun s => s.deliver .ended) (fun s => rfl)
        (List.Subset.refl _) fun s hs => (h.heard_of_getElem? hs).deliver_ended
      exact ih _ hstep
  exact hall c.endListeners c h

theorem Faithful.receive (h : c.Faithful sent) (i : Nat) : (c.receive i).2.Faithful sent := by
  simp only [Connection.receive]
  split
  · exact h
  · rename_i s hs
    have hreceived := h.modify (i := i) channel_receive (List.Subset.refl _)
      fun t ht => (h.heard_of_getElem? ht).receive
    rwa [← set_eq_modify hs] at hreceived

theorem Faithful.close (h : c.Faithful sent) (i : Nat) : (c.close i).Faithful sent := by
  simp only [Connection.close]
  split
  · exact h
  · rename_i s hs
    split
    · have hclosed := h.modify (i := i) (f := Subscriber.close) (fun s => rfl)
        (List.Subset.refl _) fun t ht => show Heard sent t from h.heard_of_getElem? ht
      rw [← set_eq_modify hs] at hclosed
      exact ⟨fun l hl => hclosed.listening l (List.mem_filter.mp hl).1, hclosed.heard⟩
    · exact h

/-- Whatever happened on a connection, its subscribers hear their channels only. -/
theorem Ran.faithful (h : c.Ran sent) : c.Faithful sent := by
  induction h with
  | opened => exact ⟨fun l hl => absurd hl List.not_mem_nil, fun s hs => absurd hs List.not_mem_nil⟩
  | listened s _ hs ih => exact ih.listen hs
  | notified channel payload _ ih => exact ih.notify channel payload
  | published channel payload _ ih => exact ⟨ih.listening, ih.heard⟩
  | terminated _ ih => exact ih.terminate
  | received i _ ih => exact ih.receive i
  | closed i _ ih => exact ih.close i

/-- An event that a subscriber receives was read from a payload notified on its channel. -/
theorem Ran.of_receive_eq_event (h : c.Ran sent) {i : Nat} {a : α}
    (ha : (c.receive i).1 = .event a) : ∃ s text, c.subscribers[i]? = some s ∧
      (s.channel, text) ∈ sent ∧ s.decode text = .ok a := by
  simp only [Connection.receive] at ha
  split at ha
  · cases ha
  · rename_i s hs
    have ha : s.receive.1 = .event a := ha
    obtain ⟨text, hm, hread⟩ := mem_queue_of_receive ha
    exact ⟨s, text, hs, h.faithful.heard_of_getElem? hs text hm, hread⟩

end Connection

end EntityForge.Notification
