import EntityForge.Proofs.Attribute

/-!
# What the options of a command leave of it

The options of a command are taken one after another, and each can overrule what an earlier one has
determined: where the payload takes its fields from, whether an identifier is needed and what the
command does. How these hang together is `CommandDraft.Sound`, and every option keeps it that is
taken without an error. The payload type is still open when the fields and the source are taken;
beside fields it would break the draft, and this is an error. A draft with an error is not returned,
so that a command that is returned is sound.
-/

namespace EntityForge

/-- A command whose options hang together, with a name that is one. -/
structure Command.Sound (c : Command) : Prop where
  name : Text.isName c.name.toList = true
  fields : c.fields ≠ [] ↔ c.source = .fields
  payload : c.source = .custom ↔ c.payloadType ≠ none
  identified : c.source = .fields ∨ c.source = .update → c.requiresId = true

namespace Attribute

/-- What the options have determined hangs together. -/
structure CommandDraft.Sound (d : CommandDraft) : Prop where
  fields : d.fields ≠ [] ↔ d.source = .fields
  payload : d.source = .custom ↔ d.payload ≠ none
  identified : d.source = .fields ∨ d.source = .update → d.requiresId = true

/-! ## Options -/

namespace CommandDraft

variable {entries : Entries} {site : Site} {d : CommandDraft}

theorem sound_empty : Sound {} := ⟨by simp, by simp, by simp⟩

/-- The fields leave the payload type open. -/
theorem payload_takeFields : (d.takeFields entries site).value.payload = d.payload := by
  refine given_induction (P := fun x : Noted CommandDraft => x.value.payload = d.payload) rfl
    fun v => ?_
  simp only [Noted.value_bind]
  split <;> rfl

theorem sound_takeFields (h : d.Sound) (hp : d.payload = none) :
    (d.takeFields entries site).value.Sound := by
  refine given_induction (P := fun x : Noted CommandDraft => x.value.Sound) h fun v => ?_
  simp only [Noted.value_bind]
  split
  · exact h
  · exact h
  · rename_i names hne _
    exact ⟨by simpa using hne, by simp [hp], fun _ => rfl⟩

/-- A source is taken only without fields. -/
theorem sound_takeSource (h : d.Sound) (hp : d.payload = none) :
    (d.takeSource entries site).value.Sound := by
  refine given_induction (P := fun x : Noted CommandDraft => x.value.Sound) h fun v => ?_
  split
  · exact h
  · rename_i hs
    have hfields : d.fields = [] := by simpa [hs] using h.fields
    split
    · exact ⟨by simp [hfields], by simp [hp], by simp⟩
    · exact ⟨by simp [hfields], by simp [hp], fun _ => rfl⟩
    · exact ⟨by simp [hfields], by simp [hp], by simp⟩
    · exact h

/-- A payload type is taken only without fields, as it is an error beside them. -/
theorem sound_takePayload (h : d.Sound) (hc : (d.takePayload entries site).Clean) :
    (d.takePayload entries site).value.Sound := by
  revert hc
  refine given_induction (P := fun x : Noted CommandDraft => x.Clean → x.value.Sound) (fun _ => h)
    fun v => ?_
  simp only [Noted.clean_bind, Noted.value_bind]
  rintro ⟨-, hc⟩
  cases hv : (text v "payload" site).value with
  | none => exact h
  | some p =>
    rw [hv] at hc
    dsimp only at hc ⊢
    split at hc
    · rename_i hempty
      have hfields : d.fields = [] := List.isEmpty_iff.mp hempty
      rw [if_pos hempty]
      exact ⟨by simp [hfields], by simp, by simp⟩
    · simp at hc

/-- A creation that needs an identifier is no creation any more. -/
theorem sound_takeRequiresId (h : d.Sound) : (d.takeRequiresId entries site).value.Sound := by
  refine given_induction (P := fun x : Noted CommandDraft => x.value.Sound) h fun v => ?_
  simp only [Noted.value_bind]
  split
  · split
    · rename_i hs
      have hfields : d.fields = [] := by simpa [hs] using h.fields
      have hpayload : d.payload = none := by simpa [hs] using h.payload
      exact ⟨by simp [hfields], by simp [hpayload], fun _ => rfl⟩
    · exact ⟨h.fields, h.payload, fun _ => rfl⟩
  · exact h

theorem sound_takeKind (h : d.Sound) : (d.takeKind entries site).value.Sound := by
  refine given_induction (P := fun x : Noted CommandDraft => x.value.Sound) h fun v => ?_
  simp only [Noted.value_bind]
  split
  · exact ⟨h.fields, h.payload, h.identified⟩
  · exact h

end CommandDraft

/-! ## Commands -/

variable {entries : Entries} {site : Site}

/-- Without an error the options that a mapping holds make a command, and a sound one. -/
theorem draftCommand_sound (h : (draftCommand entries site).Clean) :
    ∃ c, (draftCommand entries site).value = some c ∧ c.Sound := by
  simp only [draftCommand, Noted.clean_bind] at h
  obtain ⟨hname, -, -, -, hpayload, -⟩ := h
  obtain ⟨n, hn⟩ := Option.ne_none_iff_exists'.mp (clean_name.mp hname)
  have hfields : (CommandDraft.takeFields entries site {}).value.Sound :=
    CommandDraft.sound_takeFields CommandDraft.sound_empty rfl
  have hsource : (CommandDraft.takeSource entries site _).value.Sound :=
    CommandDraft.sound_takeSource hfields CommandDraft.payload_takeFields
  have hrequires : (CommandDraft.takeRequiresId entries site _).value.Sound :=
    CommandDraft.sound_takeRequiresId (CommandDraft.sound_takePayload hsource hpayload)
  have hsound : (CommandDraft.takeKind entries site _).value.Sound :=
    CommandDraft.sound_takeKind hrequires
  simp only [draftCommand, Noted.value_bind, Noted.value_pure, hn, Option.map_some]
  exact ⟨_, rfl, name_isName hn, hsound.fields, hsound.payload, hsound.identified⟩

/-- A result is dropped exactly if an error was recorded on the way to it. -/
theorem value_unlessFaulty {α : Type} (x : Noted (Option α)) :
    (unlessFaulty x).value = if x.Clean then x.value else none := by
  by_cases h : x.Clean
  · rw [if_pos h, unlessFaulty, show Diagnostics.hasErrors x.notes = false from h]
    rfl
  · rw [if_neg h, unlessFaulty, Noted.not_clean_iff.mp h]
    rfl

/-- What reading a command ends with: a sound command without an error, or no command with one. -/
structure ReadExactly (x : Noted (Option Command)) : Prop where
  made : ∀ c, x.value = some c → x.Clean ∧ c.Sound
  refused : x.value = none → ¬ x.Clean

theorem readExactly_commandOfEntries : ReadExactly (commandOfEntries entries site) := by
  have hclean : (commandOfEntries entries site).Clean ↔
      (draftCommand entries (commandSite entries site)).Clean := Iff.rfl
  by_cases h : (draftCommand entries (commandSite entries site)).Clean
  · obtain ⟨c, hc, hsound⟩ := draftCommand_sound h
    have hvalue : (commandOfEntries entries site).value = some c := by
      rw [commandOfEntries, value_unlessFaulty, if_pos h, hc]
    refine ⟨fun c' hc' => ?_, fun hnone => ?_⟩
    · obtain rfl : c = c' := Option.some_inj.mp (hvalue.symm.trans hc')
      exact ⟨hclean.mpr h, hsound⟩
    · simp [hvalue] at hnone
  · have hvalue : (commandOfEntries entries site).value = none := by
      rw [commandOfEntries, value_unlessFaulty, if_neg h]
    refine ⟨fun c hc => ?_, fun _ hc => h (hclean.mp hc)⟩
    simp [hvalue] at hc

theorem readExactly_command (value : Value) (site : Site) : ReadExactly (command value site) := by
  cases value with
  | text s =>
    rw [command]
    exact readExactly_commandOfEntries
  | map entries =>
    rw [command]
    exact readExactly_commandOfEntries
  | _ => exact ⟨by simp [command], by simp [command]⟩

/-- An option that is not written leaves everything as it is. -/
theorem given_bare {α : Type} {key : String} (h : "name" ≠ key) (s : String) (absent : α)
    (read : Value → Noted α) :
    given [(.text "name", .text s)] key absent read = pure absent := by
  simp [given, Value.lookup, h]

theorem present_bare {α : Type} {key : String} (h : "name" ≠ key) (s : String) (absent : α)
    (read : Value → Noted α) :
    present [(.text "name", .text s)] key absent read = pure absent := by
  simp [present, Value.lookupPresent, Value.lookup, h]

/-- A command that is declared by its name alone has nothing but the name. -/
theorem draftCommand_bare (s : String) (site : Site) :
    draftCommand [(.text "name", .text s)] site =
      (do pure ((← name (.text s) "name" site).map fun n => { name := n })) := by
  have hname : Value.lookup "name" [(.text "name", .text s)] = some (.text s) := by
    simp [Value.lookup]
  have hknown : refuseUnknownOptions [(.text "name", .text s)] site = pure () := by
    simp [refuseUnknownOptions, Noted.each, Value.isOneOf]
    rfl
  have hdraft (d : CommandDraft) :
      d.takeFields [(.text "name", .text s)] site = pure d ∧
      d.takeSource [(.text "name", .text s)] site = pure d ∧
      d.takePayload [(.text "name", .text s)] site = pure d ∧
      d.takeRequiresId [(.text "name", .text s)] site = pure d ∧
      d.takeKind [(.text "name", .text s)] site = pure d :=
    ⟨given_bare (by decide) _ _ _, given_bare (by decide) _ _ _, given_bare (by decide) _ _ _,
      given_bare (by decide) _ _ _, given_bare (by decide) _ _ _⟩
  have hstep {α β : Type} (a : α) (f : α → Noted β) : (pure a >>= f : Noted β) = f a := rfl
  simp only [draftCommand, hname, hknown, hdraft, hstep, Option.getD_some,
    present_bare (show "name" ≠ "result" by decide),
    present_bare (show "name" ≠ "security" by decide)]

/-- A text is read as a name if it is one without the blanks around it. -/
theorem value_name_text (s key : String) (site : Site) : (name (.text s) key site).value =
    if Text.isName (Text.trimmed s).toList = true then some (Text.trimmed s) else none := by
  by_cases hempty : Text.trimmed s = ""
  · simp [name, text, text.nonEmpty, hempty, Text.isName]
  · have htext : text.nonEmpty (Text.trimmed s) = some (Text.trimmed s) := by
      simp [text.nonEmpty, hempty]
    by_cases hn : Text.isName (Text.trimmed s).toList = true
    · simp [name, text, htext, Text.isNameLine_trimmed, hn]
    · simp [name, text, htext, Text.isNameLine_trimmed, hn]

/-- A name alone makes a command that has nothing else. -/
theorem value_command_text (s : String) (site : Site) : (command (.text s) site).value =
    if Text.isName (Text.trimmed s).toList = true then some { name := Text.trimmed s }
    else none := by
  have hname := value_name_text s "name" (commandSite [(.text "name", .text s)] site)
  rw [command, commandOfEntries, value_unlessFaulty, draftCommand_bare]
  simp only [Noted.clean_bind, Noted.clean_pure, and_true, clean_name, Noted.value_bind,
    Noted.value_pure, hname]
  split <;> simp

end Attribute

end EntityForge
