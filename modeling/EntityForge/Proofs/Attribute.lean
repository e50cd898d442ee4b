import EntityForge.Attribute.Entity
import EntityForge.Attribute.Field
import EntityForge.Proofs.Finding
import EntityForge.Proofs.Name

/-!
# What reading attributes yields

A reader that finds no result records an error, so a clean reader has one; and a result satisfies
what its reader checks, whether the reader is clean or not. The facts about single values are
lifted to the attributes of a field and of an entity, which keep them for every declaration.
-/

namespace EntityForge

/-- A projection has a name. -/
def Projection.Complete (p : Projection) : Prop := p.name ≠ ""

/-- A composite index has a column. -/
def CompositeIndex.Complete (i : CompositeIndex) : Prop := i.columns ≠ []

/-- A command has a name, and with a custom source the type of its payload. -/
def Command.Complete (c : Command) : Prop :=
  c.name ≠ "" ∧ (c.isCustom = true → c.externalPayload? ≠ none)

theorem Command.complete_of_payload {c : Command} (hn : c.name ≠ "")
    (hp : c.source = .custom → ∃ p, c.payloadType = some p ∧ p ≠ "") : c.Complete := by
  refine ⟨hn, fun hc => ?_⟩
  obtain ⟨p, hp, hne⟩ := hp (by simpa [isCustom] using hc)
  simp [externalPayload?, hc, nonEmpty?, hp, hne]

end EntityForge

namespace EntityForge.Attribute

/-! ## Single values -/

section Scalar

variable {value : Value} {key : String} {site : Site} {s : String}

@[simp] theorem Site.not_clean_fault (code message : String) :
    ¬ (site.fault code key message).Clean :=
  Noted.not_clean_error _ _ _

/-- A text is read exactly when no error is recorded. -/
theorem clean_text : (text value key site).Clean ↔ (text value key site).value ≠ none := by
  cases value with
  | text s => cases h : text.nonEmpty (Text.trimmed s) <;> simp [text, h]
  | _ => simp [text]

/-- A text that is read is not empty and has no blanks around it. -/
theorem text_spec (h : (text value key site).value = some s) :
    s ≠ "" ∧ ∃ t, s = Text.trimmed t := by
  cases value with
  | text t =>
    cases hn : text.nonEmpty (Text.trimmed t) with
    | none => simp [text, hn] at h
    | some u =>
      obtain rfl : u = s := by simpa [text, hn] using h
      unfold text.nonEmpty at hn
      split at hn
      · simp at hn
      · rename_i hne
        obtain rfl : Text.trimmed t = u := by simpa using hn
        exact ⟨by simpa using hne, t, rfl⟩
  | _ => simp [text] at h

/-- A name is read exactly when no error is recorded. -/
theorem clean_name : (name value key site).Clean ↔ (name value key site).value ≠ none := by
  simp only [name, Noted.clean_bind, clean_text, Noted.value_bind]
  cases (text value key site).value with
  | none => simp
  | some s =>
    by_cases h : Text.isNameLine s.toList = true <;> simp [h]

/-- What is read as a name is a name: without the blanks around it, no line feed is overlooked. -/
theorem name_isName (h : (name value key site).value = some s) : Text.isName s.toList = true := by
  simp only [name, Noted.value_bind] at h
  cases ht : (text value key site).value with
  | none =>
    rw [ht] at h
    simp at h
  | some t =>
    rw [ht] at h
    obtain ⟨-, u, rfl⟩ := text_spec ht
    by_cases hn : Text.isNameLine (Text.trimmed u).toList = true
    · obtain rfl : Text.trimmed u = s := by simpa [hn] using h
      exact Text.isNameLine_trimmed u ▸ hn
    · simp [hn] at h

end Scalar

section Optional

variable {α : Type} {P : Noted α → Prop} {entries : Entries} {key : String} {absent : α}
  {read : Value → Noted α}

/-- What holds of the default and of all that can be read holds of an attribute. -/
theorem given_induction (hd : P (pure absent)) (hr : ∀ v, P (read v)) :
    P (given entries key absent read) := by
  unfold given
  split
  · exact hr _
  · exact hd

/-- What holds of the default and of all that can be read holds of an attribute without null. -/
theorem present_induction (hd : P (pure absent)) (hr : ∀ v, P (read v)) :
    P (present entries key absent read) := by
  unfold present
  split
  · exact hr _
  · exact hd

end Optional

/-! ## Fields -/

/-- The column that a hint names is a name. -/
theorem columnHints_name {value : Value} {site : Site} {s : String}
    (h : (columnHints value site).value.name = some s) : Text.isName s.toList = true := by
  cases value with
  | map entries =>
    revert h
    exact present_induction (P := fun x => x.value = some s → _) (by simp) fun v => name_isName
  | _ => simp [columnHints] at h

/-- A greatest length is positive. -/
theorem columnHints_width {value : Value} {site : Site} :
    (columnHints value site).value.width ≠ some 0 := by
  cases value with
  | map entries =>
    refine given_induction (P := fun x => x.value ≠ some 0) (by simp) fun v => ?_
    unfold width
    split <;> simp
  | _ => simp [columnHints]

/-- The column that the attributes of a field name is a name. -/
theorem fieldAttributes_columnName {entity field : String} {entries : Entries} {s : String}
    (h : (fieldAttributes entity field entries).value.column.name = some s) :
    Text.isName s.toList = true := by
  revert h
  exact present_induction (P := fun x : Noted ColumnHints => x.value.name = some s → _) (by simp)
    fun v => columnHints_name

/-- The attributes of a field give no length of zero. -/
theorem fieldAttributes_width {entity field : String} {entries : Entries} :
    (fieldAttributes entity field entries).value.column.width ≠ some 0 :=
  present_induction (P := fun x : Noted ColumnHints => x.value.width ≠ some 0) (by simp)
    fun _ => columnHints_width

/-! ## Commands -/

/-- A draft whose payload is of a type declared elsewhere names the type. -/
def CommandDraft.Payable (d : CommandDraft) : Prop :=
  d.source = .custom → ∃ p, d.payload = some p ∧ p ≠ ""

namespace CommandDraft

variable {entries : Entries} {site : Site} {d : CommandDraft}

theorem payable_takeFields (h : d.Payable) : (d.takeFields entries site).value.Payable := by
  refine given_induction (P := fun x : Noted CommandDraft => x.value.Payable) h fun v => ?_
  simp only [Noted.value_bind]
  split
  · exact h
  · exact h
  · exact fun hs => CommandSource.noConfusion hs

theorem payable_takeSource (h : d.Payable) : (d.takeSource entries site).value.Payable := by
  refine given_induction (P := fun x : Noted CommandDraft => x.value.Payable) h fun v => ?_
  split
  · exact h
  · split
    · exact fun hs => CommandSource.noConfusion hs
    · exact fun hs => CommandSource.noConfusion hs
    · exact fun hs => CommandSource.noConfusion hs
    · exact h

theorem payable_takePayload (h : d.Payable) : (d.takePayload entries site).value.Payable := by
  refine given_induction (P := fun x : Noted CommandDraft => x.value.Payable) h fun v => ?_
  simp only [Noted.value_bind]
  cases ht : (text v "payload" site).value with
  | none => exact h
  | some p =>
    have hp := (text_spec ht).1
    dsimp only
    split
    · exact fun _ => ⟨p, rfl, hp⟩
    · exact fun _ => ⟨p, rfl, hp⟩

theorem payable_takeRequiresId (h : d.Payable) :
    (d.takeRequiresId entries site).value.Payable := by
  refine given_induction (P := fun x : Noted CommandDraft => x.value.Payable) h fun v => ?_
  simp only [Noted.value_bind]
  split
  · split
    · exact fun hs => CommandSource.noConfusion hs
    · exact h
  · exact h

theorem payable_takeKind (h : d.Payable) : (d.takeKind entries site).value.Payable := by
  refine given_induction (P := fun x : Noted CommandDraft => x.value.Payable) h fun v => ?_
  simp only [Noted.value_bind]
  split
  · exact h
  · exact h

end CommandDraft

/-- A text that is a name is not empty. -/
theorem ne_empty_of_isName {s : String} (h : Text.isName s.toList = true) : s ≠ "" := by
  rintro rfl
  simp [Text.isName] at h

/-- The command that a mapping declares is complete, whatever its faults. -/
theorem draftCommand_complete {entries : Entries} {site : Site} {c : Command}
    (h : (draftCommand entries site).value = some c) : c.Complete := by
  simp only [draftCommand, Noted.value_bind, Noted.value_pure, Option.map_eq_some_iff] at h
  obtain ⟨n, hn, rfl⟩ := h
  refine Command.complete_of_payload (ne_empty_of_isName (name_isName hn)) ?_
  have hd : CommandDraft.Payable {} := fun hs => CommandSource.noConfusion hs
  exact CommandDraft.payable_takeKind (CommandDraft.payable_takeRequiresId
    (CommandDraft.payable_takePayload (CommandDraft.payable_takeSource
      (CommandDraft.payable_takeFields hd))))

theorem command_complete {value : Value} {site : Site} {c : Command}
    (h : (command value site).value = some c) : c.Complete := by
  have of_entries {entries : Entries} (h : (commandOfEntries entries site).value = some c) :
      c.Complete := by
    simp only [commandOfEntries, unlessFaulty] at h
    split at h
    · simp at h
    · exact draftCommand_complete h
  cases value with
  | text s => exact of_entries h
  | map entries => exact of_entries h
  | _ => simp [command] at h

/-! ## Entities -/

/-- A projection is read under a name. -/
theorem projection_complete {site : Site} {entry : Value × Value} {p : Projection}
    (h : (projection site entry).value = some p) : p.Complete := by
  obtain ⟨key, fields⟩ := entry
  cases key with
  | text s =>
    by_cases hs : Text.isNameLine s.toList = true
    · simp only [projection, hs, if_true, Noted.value_bind, Noted.value_pure,
        Option.map_eq_some_iff] at h
      obtain ⟨fs, -, rfl⟩ := h
      rintro rfl
      simp [Text.isNameLine, Text.dropFinalNewline, Text.isName] at hs
    · simp [projection, hs] at h
  | _ => simp [projection] at h

/-- The columns of an index are never none at all. -/
theorem indexColumns_ne_nil {entries : Entries} {site : Site} :
    (indexColumns entries site).value ≠ some [] := by
  unfold indexColumns
  split
  · simp
  · simp only [Noted.value_bind]
    split
    · simp
    · rename_i h
      simpa using h

/-- A composite index is read with its columns. -/
theorem compositeIndex_complete {site : Site} {item : Value × Nat} {i : CompositeIndex}
    (h : (compositeIndex site item).value = some i) : i.Complete := by
  obtain ⟨v, n⟩ := item
  cases v with
  | map entries =>
    simp only [compositeIndex, Noted.value_bind] at h
    split at h
    · rename_i columns kind unique hc _ _
      simp only [Noted.value_pure, Option.some.injEq] at h
      subst h
      rintro rfl
      exact indexColumns_ne_nil hc
    · simp at h
  | _ => simp [compositeIndex] at h

variable {entity : String} {entries : Entries}

/-- The table of an entity is a name. -/
theorem entityAttributes_table {t : String}
    (h : (entityAttributes entity entries).value.table = some t) : Text.isName t.toList = true := by
  revert h
  exact given_induction (P := fun x : Noted (Option String) => x.value = some t → _) (by simp)
    fun v => name_isName

/-- Clean attributes have a table if one is written. -/
theorem entityAttributes_table_of_clean (h : (entityAttributes entity entries).Clean)
    (ht : (Value.lookup "table" entries).isNone = false) :
    (entityAttributes entity entries).value.table ≠ none := by
  simp only [entityAttributes, Noted.clean_bind] at h
  have hc := h.2.1
  change (given entries "table" none fun v => name v "table" (entitySite entity)).value ≠ none
  unfold given at hc ⊢
  split at hc
  · exact clean_name.mp hc
  · rename_i hl
    simp [hl] at ht

/-- The schema of an entity is a name. -/
theorem entityAttributes_schema :
    Text.isName (entityAttributes entity entries).value.schema.toList = true := by
  refine given_induction
    (P := fun x : Noted (Option String) => Text.isName (x.value.getD "public").toList = true)
    rfl fun v => ?_
  cases h : (name v "schema" (entitySite entity)).value with
  | none => rfl
  | some s => exact name_isName h

/-- The projections of an entity are complete. -/
theorem entityAttributes_projections :
    ∀ p ∈ (entityAttributes entity entries).value.projections, p.Complete := by
  refine present_induction
    (P := fun x : Noted (List Projection) => ∀ p ∈ x.value, p.Complete) (by simp) fun v => ?_
  cases v with
  | map entries =>
    intro p hp
    obtain ⟨entry, -, h⟩ := Noted.mem_value_collect.mp hp
    exact projection_complete h
  | _ => simp [projections]

/-- The composite indexes of an entity are complete. -/
theorem entityAttributes_indexes :
    ∀ i ∈ (entityAttributes entity entries).value.indexes, i.Complete := by
  refine present_induction
    (P := fun x : Noted (List CompositeIndex) => ∀ i ∈ x.value, i.Complete) (by simp) fun v => ?_
  cases v with
  | list items =>
    intro i hi
    obtain ⟨item, -, h⟩ := Noted.mem_value_collect.mp hi
    exact compositeIndex_complete h
  | _ => simp [compositeIndexes]

/-- The commands of an entity are complete. -/
theorem entityAttributes_commands :
    ∀ c ∈ (entityAttributes entity entries).value.commands, c.Complete := by
  refine given_induction
    (P := fun x : Noted (List Command) => ∀ c ∈ x.value, c.Complete) (by simp) fun v => ?_
  cases v with
  | list items =>
    intro c hc
    obtain ⟨item, -, h⟩ := Noted.mem_value_collect.mp hc
    exact command_complete h
  | _ => simp [commands]

end EntityForge.Attribute
