import EntityForge.Proofs.Listing

/-!
# Which option of a command prevails

An option says what a command has, and implies what it might have: fields and the source `update`
imply that an identifier is needed, a payload of its own implies the source, and a creation that
needs an identifier is taken for a change without fields. Of a command that is read, each option is
followed from the first to the last, so that its source and its need of an identifier can be told
from the options that are written, and a kind that is written is always the last word. A source and
a need of an identifier are not: the source `create` counts as if no source were written, and so
does the refusal of an identifier. Whether a command has all that its options say in so many words
is therefore a matter of these two.
-/

namespace EntityForge

/-- The value is the word for a choice, in any case and with or without blanks around it. -/
def Value.Chooses {α : Type} [Vocabulary α] (v : Value) (a : α) : Prop :=
  ∃ s, v = .text s ∧ Text.smallLetters (Text.trim s.toList) = (Vocabulary.word a).toList

/-- A command has what its options say in so many words. -/
structure Command.Follows (c : Command) (options : Entries) : Prop where
  kind : ∀ v, Value.lookup "kind" options = some v → v.Chooses c.kind
  source : Value.lookup "payload" options = none →
    ∀ v, Value.lookup "source" options = some v → v = .text (Vocabulary.word c.source)
  requiresId : ∀ b, Value.lookup "requires_id" options = some (.bool b) → c.requiresId = b

namespace Attribute

/-! ## What the options decide -/

section Options

variable (options : Entries)

/-- The option is written, whatever its value. -/
def hasOption (key : String) : Bool := (Value.lookup key options).isSome

/-- The identifier is asked for; a bare key counts. -/
def asksForId : Bool :=
  match Value.lookup "requires_id" options with
  | some .null | some (.bool true) => true
  | _ => false

/-- The source is written in so many words. -/
def writtenSource? : Option CommandSource :=
  match Value.lookup "source" options with
  | some (.text "create") => some .create
  | some (.text "update") => some .update
  | some (.text "none") => some .none
  | _ => none

/-- Where the payload takes its fields from. The source `create` is no more than the default. -/
def decidedSource : CommandSource :=
  let source := (writtenSource? options).getD .create
  if hasOption options "fields" then .fields
  else if hasOption options "payload" then .custom
  else if asksForId options = true ∧ source = .create then .none
  else source

/-- An identifier is needed. The option can add the need, but not take it away. -/
def decidedId : Bool :=
  hasOption options "fields" || writtenSource? options == some .update || asksForId options

/-- No option is one of the two that others overrule: the source `create` beside a need of an
identifier, and the refusal of an identifier beside what implies one. -/
structure Unopposed : Prop where
  create : writtenSource? options = some .create → Value.lookup "payload" options = none →
    asksForId options = false
  withoutId : Value.lookup "requires_id" options = some (.bool false) →
    Value.lookup "fields" options = none ∧ writtenSource? options ≠ some .update

end Options

/-! ## Single options -/

section Source

variable {options : Entries}

theorem hasOption_eq_false_iff {key : String} :
    hasOption options key = false ↔ Value.lookup key options = none := by
  rw [hasOption, Option.isSome_eq_false_iff, Option.isNone_iff_eq_none]

/-- Without the option no source is written. -/
theorem writtenSource?_eq_none (h : hasOption options "source" = false) :
    writtenSource? options = none := by
  rw [writtenSource?, hasOption_eq_false_iff.mp h]

/-- A source that is written is the word for it. -/
theorem eq_word_of_writtenSource? {s : CommandSource} (h : writtenSource? options = some s) :
    Value.lookup "source" options = some (.text (Vocabulary.word s)) := by
  unfold writtenSource? at h
  split at h <;> rename_i hv
  · obtain rfl := Option.some.inj h
    exact hv
  · obtain rfl := Option.some.inj h
    exact hv
  · obtain rfl := Option.some.inj h
    exact hv
  · simp at h

end Source

theorem chooses_of_choice {α : Type} [Vocabulary α] {value : Value} {key code : String}
    {site : Site} {a : α} (h : (choice α value key code site).value = some a) :
    value.Chooses a := by
  cases value with
  | text s =>
    cases hs : Vocabulary.ofChoice? (α := α) s with
    | none => simp [choice, hs] at h
    | some b =>
      obtain rfl : b = a := by simpa [choice, hs] using h
      have hword := List.find?_some hs
      exact ⟨s, rfl, by simpa using (congrArg String.toList (beq_iff_eq.mp hword)).symm⟩
  | _ => simp [choice] at h

namespace CommandDraft

variable {options : Entries} {site : Site} {d : CommandDraft}

/-- Fields decide the source and the need of an identifier. -/
theorem decided_takeFields (h : (takeFields options site {}).Clean) :
    (takeFields options site {}).value.source =
        (if hasOption options "fields" then .fields else .create) ∧
      (takeFields options site {}).value.requiresId = hasOption options "fields" := by
  unfold takeFields given hasOption at *
  cases hv : Value.lookup "fields" options with
  | none => exact ⟨rfl, rfl⟩
  | some v =>
    simp only [hv, Noted.clean_bind] at h
    have hvalue := value_nameList_of_clean h.1
    simp only [Noted.value_bind, hvalue] at h ⊢
    cases hlisted : v.listed with
    | nil => simp [hlisted] at h
    | cons n ns => exact ⟨rfl, rfl⟩

/-- A source is refused beside fields, and otherwise taken as it is written. -/
theorem decided_takeSource (h : (d.takeSource options site).Clean) :
    (d.takeSource options site).value.source = (writtenSource? options).getD d.source ∧
      (d.takeSource options site).value.requiresId =
        (d.requiresId || writtenSource? options == some .update) ∧
      (hasOption options "source" = true →
        d.source ≠ .fields ∧ writtenSource? options ≠ none) := by
  unfold takeSource given hasOption writtenSource? at *
  cases hv : Value.lookup "source" options with
  | none => exact ⟨rfl, (Bool.or_false _).symm, fun hnone => Bool.noConfusion hnone⟩
  | some v =>
    simp only [hv] at h ⊢
    by_cases hfields : d.source = .fields
    · rw [if_pos hfields] at h
      simp at h
    · rw [if_neg hfields] at h ⊢
      split at h
      · exact ⟨rfl, (Bool.or_false _).symm, fun _ => ⟨hfields, by simp⟩⟩
      · exact ⟨rfl, (Bool.or_true _).symm, fun _ => ⟨hfields, by simp⟩⟩
      · exact ⟨rfl, (Bool.or_false _).symm, fun _ => ⟨hfields, by simp⟩⟩
      · simp at h

/-- A payload is refused beside fields, and otherwise decides the source. -/
theorem decided_takePayload (h : (d.takePayload options site).Clean) :
    (d.takePayload options site).value.source =
        (if hasOption options "payload" then .custom else d.source) ∧
      (d.takePayload options site).value.requiresId = d.requiresId ∧
      (hasOption options "payload" = true → d.fields = []) := by
  unfold takePayload given hasOption at *
  cases hv : Value.lookup "payload" options with
  | none => exact ⟨rfl, rfl, fun hnone => Bool.noConfusion hnone⟩
  | some v =>
    simp only [hv, Noted.clean_bind] at h
    have hvalue := value_text_of_clean h.1
    simp only [Noted.value_bind, hvalue] at h ⊢
    by_cases hempty : d.fields.isEmpty = true
    · rw [if_pos hempty]
      exact ⟨rfl, rfl, fun _ => List.isEmpty_iff.mp hempty⟩
    · simp [hempty] at h

/-- An identifier that is asked for is needed, and leaves no creation. -/
theorem decided_takeRequiresId (h : (d.takeRequiresId options site).Clean) :
    (d.takeRequiresId options site).value.source =
        (if asksForId options = true ∧ d.source = .create then .none else d.source) ∧
      (d.takeRequiresId options site).value.requiresId = (d.requiresId || asksForId options) := by
  unfold takeRequiresId given asksForId at *
  cases hv : Value.lookup "requires_id" options with
  | none => exact ⟨by simp, (Bool.or_false _).symm⟩
  | some v =>
    simp only [hv, Noted.clean_bind] at h
    have hflag := isSome_flag_of_clean h.1
    cases v with
    | null =>
      by_cases hs : d.source = .create
      · simp [flag, hs]
      · simp [flag, hs]
    | bool b =>
      by_cases hs : d.source = .create
      · cases b <;> simp [flag, hs]
      · cases b <;> simp [flag, hs]
    | _ => simp [flag] at hflag

/-- A kind that is written is taken, and nothing else is changed. -/
theorem decided_takeKind (h : (d.takeKind options site).Clean) :
    (d.takeKind options site).value.source = d.source ∧
      (d.takeKind options site).value.requiresId = d.requiresId ∧
      ∀ v, Value.lookup "kind" options = some v →
        v.Chooses (d.takeKind options site).value.kind := by
  unfold takeKind given at *
  cases hv : Value.lookup "kind" options with
  | none => exact ⟨rfl, rfl, fun v hnone => nomatch hnone⟩
  | some v =>
    simp only [hv, Noted.clean_bind] at h
    obtain ⟨kind, hkind⟩ := Option.isSome_iff_exists.mp (isSome_choice_of_clean h.1)
    simp only [Noted.value_bind, hkind]
    refine ⟨rfl, rfl, fun w hw => ?_⟩
    obtain rfl := Option.some.inj hw
    exact chooses_of_choice hkind

end CommandDraft

/-! ## Commands -/

variable {options : Entries} {site : Site} {c : Command}

/-- What the options decide is what the command has. -/
structure Decides (options : Entries) (c : Command) : Prop where
  kind : ∀ v, Value.lookup "kind" options = some v → v.Chooses c.kind
  source : c.source = decidedSource options
  requiresId : c.requiresId = decidedId options
  /-- Beside fields there is neither a source nor a payload. -/
  alone : hasOption options "fields" = true →
    hasOption options "source" = false ∧ hasOption options "payload" = false
  /-- A source that is written is one of the three words. -/
  worded : hasOption options "source" = true → writtenSource? options ≠ none

theorem decides_draftCommand (h : (draftCommand options site).Clean)
    (hc : (draftCommand options site).value = some c) : Decides options c := by
  simp only [draftCommand, Noted.clean_bind] at h
  obtain ⟨-, -, hfields, hsource, hpayload, hrequires, hkind, -⟩ := h
  obtain ⟨sFields, iFields⟩ := CommandDraft.decided_takeFields hfields
  obtain ⟨sSource, iSource, refused⟩ := CommandDraft.decided_takeSource hsource
  obtain ⟨sPayload, iPayload, empty⟩ := CommandDraft.decided_takePayload hpayload
  obtain ⟨sRequires, iRequires⟩ := CommandDraft.decided_takeRequiresId hrequires
  obtain ⟨sKind, iKind, kind⟩ := CommandDraft.decided_takeKind hkind
  rw [CommandDraft.fields_takeSource] at empty
  have sound : (CommandDraft.takeFields options site {}).value.Sound :=
    CommandDraft.sound_takeFields CommandDraft.sound_empty rfl
  have alone : hasOption options "fields" = true →
      hasOption options "source" = false ∧ hasOption options "payload" = false := by
    intro hwritten
    have hs : (CommandDraft.takeFields options site {}).value.source = .fields := by
      rw [sFields, if_pos hwritten]
    constructor
    · exact Bool.eq_false_iff.mpr fun hother => (refused hother).1 hs
    · exact Bool.eq_false_iff.mpr fun hother => sound.fields.mpr hs (empty hother)
  simp only [draftCommand, Noted.value_bind, Noted.value_pure, Option.map_eq_some_iff] at hc
  obtain ⟨n, -, rfl⟩ := hc
  refine ⟨kind, ?_, ?_, alone, fun hs => (refused hs).2⟩
  · dsimp only
    rw [sKind, sRequires, sPayload, sSource, sFields, decidedSource]
    by_cases hf : hasOption options "fields" = true
    · obtain ⟨hs, hp⟩ := alone hf
      have hw : writtenSource? options = none := writtenSource?_eq_none hs
      simp [hf, hp, hw]
    · by_cases hp : hasOption options "payload" = true
      · simp [hf, hp]
      · simp [hf, hp]
  · dsimp only
    rw [iKind, iRequires, iPayload, iSource, iFields, decidedId]

/-- The source of a command without a payload of its own is the one written, unless it is `create`
and an identifier is asked for. -/
theorem Decides.source_of_written (h : Decides options c)
    (hpayload : Value.lookup "payload" options = none) {s : CommandSource}
    (hs : writtenSource? options = some s) :
    c.source = if asksForId options = true ∧ s = .create then .none else s := by
  have hsource : hasOption options "source" = true := by
    rw [hasOption, eq_word_of_writtenSource? hs]
    rfl
  have hfields : hasOption options "fields" = false :=
    Bool.eq_false_iff.mpr fun hf => Bool.noConfusion ((h.alone hf).1.symm.trans hsource)
  have hpayload : hasOption options "payload" = false := hasOption_eq_false_iff.mpr hpayload
  rw [h.source, decidedSource, hs, hfields, hpayload]
  rfl

/-- Whether a command has what its options say is a matter of the two that can be overruled. -/
theorem Decides.follows_iff (h : Decides options c) : c.Follows options ↔ Unopposed options := by
  constructor
  · intro hf
    constructor
    · intro hcreate hpayload
      have hsource := h.source_of_written hpayload hcreate
      have hword := hf.source hpayload _ (eq_word_of_writtenSource? hcreate)
      refine Bool.eq_false_iff.mpr fun hasks => ?_
      rw [if_pos ⟨hasks, rfl⟩] at hsource
      rw [hsource] at hword
      exact absurd (Value.text.inj hword) (by decide)
    · intro hfalse
      have hid := (hf.requiresId false hfalse).symm.trans h.requiresId
      simp only [decidedId, Bool.false_eq, Bool.or_eq_false_iff, beq_eq_false_iff_ne] at hid
      exact ⟨hasOption_eq_false_iff.mp hid.1.1, hid.1.2⟩
  · intro hu
    refine ⟨h.kind, fun hpayload v hv => ?_, fun b hb => ?_⟩
    · have hsource : hasOption options "source" = true := by rw [hasOption, hv]; rfl
      obtain ⟨s, hs⟩ := Option.ne_none_iff_exists'.mp (h.worded hsource)
      have hword : some v = some (.text (Vocabulary.word s)) :=
        hv.symm.trans (eq_word_of_writtenSource? hs)
      have hkept : ¬ (asksForId options = true ∧ s = .create) := by
        rintro ⟨hasks, rfl⟩
        exact Bool.noConfusion (hasks.symm.trans (hu.create hs hpayload))
      rw [h.source_of_written hpayload hs, if_neg hkept]
      exact Option.some.inj hword
    · cases b with
      | true =>
        have hasks : asksForId options = true := by rw [asksForId, hb]
        rw [h.requiresId, decidedId, hasks, Bool.or_true]
      | false =>
        obtain ⟨hfields, hupdate⟩ := hu.withoutId hb
        have hasks : asksForId options = false := by rw [asksForId, hb]
        rw [h.requiresId, decidedId, hasOption_eq_false_iff.mpr hfields, hasks,
          beq_eq_false_iff_ne.mpr hupdate]
        rfl

/-- Of a command that is read from a mapping, the kind that is written prevails, and its source and
its need of an identifier are those that the options decide. It has all that they say exactly if
none of them is overruled. -/
theorem command_follows_iff (h : (command (.map options) site).value = some c) :
    Decides options c ∧ (c.Follows options ↔ Unopposed options) := by
  rw [command, commandOfEntries, value_unlessFaulty] at h
  split at h
  · rename_i hclean
    have hdecides := decides_draftCommand hclean h
    exact ⟨hdecides, hdecides.follows_iff⟩
  · simp at h

/-- The options of a command with a source, a kind and a need of an identifier in so many words. -/
def archiveOptions : Entries :=
  [(.text "name", .text "Archive"), (.text "requires_id", .bool true),
    (.text "source", .text "update"), (.text "kind", .text " Delete ")]

/-- The archiving deletes what it updates. -/
theorem command_follows_archive : ∃ c,
    (command (.map archiveOptions) (entitySite "Widget")).value = some c ∧
      c = { name := "Archive", source := .update, requiresId := true, kind := .delete } ∧
      c.Follows archiveOptions := by
  have hread : (command (.map archiveOptions) (entitySite "Widget")).value =
      some { name := "Archive", source := .update, requiresId := true, kind := .delete } := by
    decide +kernel
  refine ⟨_, hread, rfl, (command_follows_iff hread).2.mpr ⟨?_, ?_⟩⟩
  · intro h
    exact absurd h (by decide)
  · intro h
    have hwritten : Value.lookup "requires_id" archiveOptions = some (.bool true) := rfl
    exact Bool.noConfusion (Value.bool.inj (Option.some.inj (hwritten.symm.trans h)))

/-- The options of a registration that say two things that others overrule. -/
def registerOptions (source : String) (requiresId : Bool) : Entries :=
  [(.text "name", .text "Register"), (.text "source", .text source),
    (.text "requires_id", .bool requiresId)]

/-- A creation that asks for an identifier loses its source, and an update that refuses one needs it
all the same. -/
theorem command_not_follows_register :
    (∃ c, (command (.map (registerOptions "create" true)) (entitySite "Widget")).value = some c ∧
      c = { name := "Register", source := .none, requiresId := true, kind := .update } ∧
      ¬ c.Follows (registerOptions "create" true)) ∧
    ∃ c, (command (.map (registerOptions "update" false)) (entitySite "Widget")).value = some c ∧
      c = { name := "Register", source := .update, requiresId := true, kind := .update } ∧
      ¬ c.Follows (registerOptions "update" false) := by
  refine ⟨⟨_, (by decide +kernel), rfl, fun h => ?_⟩, ⟨_, (by decide +kernel), rfl, fun h => ?_⟩⟩
  · exact absurd (Value.text.inj (h.source rfl _ rfl)) (by decide)
  · exact absurd (h.requiresId false rfl) (by decide)

end Attribute

end EntityForge
