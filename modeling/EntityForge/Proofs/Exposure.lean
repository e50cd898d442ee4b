import EntityForge.Proofs.ColumnList
import EntityForge.Proofs.CommandOption
import EntityForge.Proofs.Creation
import EntityForge.Proofs.IdentifierFinding
import EntityForge.Proofs.Listing
import EntityForge.Proofs.Repetition
import EntityForge.Proofs.Update

/-!
# Where a field appears

The outputs that a field is selected for can be written as a name, as a list of names or as a
mapping to truth values. What is written is carried into the entity as it stands, and from there
into the requests, the response and the payloads of commands: each of them has the fields that are
selected for it, in the order of declaration, less those that are skipped. Identifiers and fields
made by the database are left out of everything that a caller sends. The payload of a change has an
identifier of its own in front of them, since a change needs to be told which row it is about; it is
there whether or not the identifier of the entity is skipped.
-/

namespace EntityForge

/-! ## What is written -/

namespace Value

/-- The value switches something on: it is true, or left out behind its key. -/
def isOn : Value → Bool
  | .null | .bool true => true
  | _ => false

/-- A mapping switches something on. -/
def switchesOn (key : String) (entries : Entries) : Bool :=
  ((lookup key entries).map isOn).getD false

/-- The value selects an output: it is the name of the output, a list with the name in it, or a
mapping that switches the name on. Of several entries under one name the last counts. -/
def selects (output : String) : Value → Bool
  | .text s => s == output
  | .list items => items.any fun
    | .text s => s == output
    | _ => false
  | .map entries => switchesOn output entries.reverse
  | _ => false

end Value

namespace FieldDeclaration

/-- The declared field is selected for an output. -/
def selects (output : String) (g : FieldDeclaration) : Bool :=
  ((Value.lookup "field" g.attributes).map (Value.selects output)).getD false

/-- The declared field is made by the database. -/
def isMade (g : FieldDeclaration) : Bool := Value.switchesOn "auto" g.attributes

/-- A caller sends the declared field: it is selected and not skipped, it is no identifier, and the
database does not make it. -/
def isSent (output : String) (g : FieldDeclaration) : Bool :=
  !g.selects "skip" && g.selects output && !g.isMarked && !g.isMade

/-- The declared field is sent back: it is not skipped, and it is selected or an identifier. -/
def isReturned (g : FieldDeclaration) : Bool :=
  !g.selects "skip" && (g.selects "response" || g.isMarked)

/-- The outputs that are selected. -/
def exposure (g : FieldDeclaration) : Exposure :=
  ⟨g.selects "create", g.selects "update", g.selects "response", g.selects "skip"⟩

end FieldDeclaration

/-- The names of some of the declared fields, in the order of declaration. -/
def EntityDeclaration.namesOf (p : FieldDeclaration → Bool) (d : EntityDeclaration) : List String :=
  ((d.fields.getD []).filter p).map fun g => g.name.getD ""

/-- An output is selected. -/
def Exposure.selected (x : Exposure) : String → Bool
  | "create" => x.create
  | "update" => x.update
  | "response" => x.response
  | "skip" => x.skip
  | _ => false

/-! ## What is read -/

theorem Value.lookup_append (key : String) (entries others : Entries) :
    lookup key (entries ++ others) = (lookup key entries).or (lookup key others) := by
  induction entries with
  | nil => rfl
  | cons e entries ih =>
    obtain ⟨k, v⟩ := e
    cases k with
    | text s => by_cases hs : s = key <;> simp [lookup, hs, ih]
    | _ => simpa [lookup] using ih

namespace Attribute

variable {site : Site} {x : Exposure} {v : Value} {s output : String}

theorem selected_setExposure (hs : s ∈ exposureNames) (ho : output ∈ exposureNames) (b : Bool) :
    (setExposure s b x).selected output = if s = output then b else x.selected output := by
  simp only [exposureNames, List.mem_cons, List.not_mem_nil, or_false] at hs ho
  rcases hs with rfl | rfl | rfl | rfl <;> rcases ho with rfl | rfl | rfl | rfl <;> rfl

/-- A name of an output is read without an error, and nothing else is. -/
theorem exposureName_of_clean (h : (exposureName v site).Clean) :
    ∃ s ∈ exposureNames, v = .text s ∧ exposureName v site = pure (some s) := by
  cases v with
  | text s =>
    by_cases hs : s ∈ exposureNames
    · exact ⟨s, hs, rfl, by simp [exposureName, hs]⟩
    · simp [exposureName, hs] at h
  | _ => simp [exposureName] at h

/-- A truth value is read without an error, and a key alone counts as true. -/
theorem flag_of_clean {key : String} (h : (flag v key site).Clean) :
    (flag v key site).value = some v.isOn := by
  cases v with
  | null => rfl
  | bool b => cases b <;> rfl
  | _ => simp [flag] at h

/-- Names that are read select what they name. -/
theorem selected_exposureOfNames {items : List Value} (h : (exposureOfNames site x items).Clean)
    (ho : output ∈ exposureNames) : (exposureOfNames site x items).value.selected output =
      (x.selected output || Value.selects output (.list items)) := by
  induction items generalizing x with
  | nil => simp [exposureOfNames, Value.selects]
  | cons v items ih =>
    simp only [exposureOfNames, Noted.clean_bind] at h
    obtain ⟨s, hs, rfl, hread⟩ := exposureName_of_clean h.1
    simp only [hread, Noted.value_pure] at h
    simp only [exposureOfNames, hread, Noted.value_bind, Noted.value_pure]
    rw [ih h.2, selected_setExposure hs ho]
    by_cases hso : s = output
    · simp [Value.selects, hso]
    · simp [Value.selects, hso, beq_false_of_ne hso]

/-- A mapping that is read decides on the outputs that it names. -/
theorem selected_exposureOfFlags {entries : Entries} (h : (exposureOfFlags site x entries).Clean)
    (ho : output ∈ exposureNames) : (exposureOfFlags site x entries).value.selected output =
      ((Value.lookup output entries.reverse).map Value.isOn).getD (x.selected output) := by
  induction entries generalizing x with
  | nil => rfl
  | cons e entries ih =>
    obtain ⟨k, v⟩ := e
    simp only [exposureOfFlags, Noted.clean_bind] at h
    obtain ⟨s, hs, rfl, hread⟩ := exposureName_of_clean h.1
    simp only [hread, Noted.value_pure, Noted.clean_bind] at h
    have hflag := flag_of_clean h.2.1
    simp only [hflag] at h
    simp only [exposureOfFlags, hread, hflag, Noted.value_bind, Noted.value_pure]
    rw [ih h.2.2, selected_setExposure hs ho, List.reverse_cons, Value.lookup_append]
    cases Value.lookup output entries.reverse with
    | some w => rfl
    | none => by_cases hso : s = output <;> simp [Value.lookup, hso]

theorem selected_empty : ∀ output ∈ exposureNames, ({} : Exposure).selected output = false := by
  decide

/-- The outputs that are read without an error are those selected. -/
theorem selected_exposure (h : (exposure v site).Clean) (ho : output ∈ exposureNames) :
    (exposure v site).value.selected output = v.selects output := by
  cases v with
  | text s =>
    have hnames : (exposureOfNames site {} [.text s]).Clean := h
    have hread := selected_exposureOfNames hnames ho
    rw [selected_empty output ho, Bool.false_or] at hread
    exact hread.trans (Bool.or_false _)
  | list items =>
    have hnames : (exposureOfNames site {} items).Clean := h
    have hread := selected_exposureOfNames hnames ho
    rwa [selected_empty output ho, Bool.false_or] at hread
  | map entries =>
    have hflags : (exposureOfFlags site {} entries).Clean := h
    have hread := selected_exposureOfFlags hflags ho
    rwa [selected_empty output ho] at hread
  | _ => simp [exposure] at h

/-- What is selected is all there is to an exposure. -/
theorem eq_exposure_of_selected {g : FieldDeclaration}
    (h : ∀ output ∈ exposureNames, x.selected output = g.selects output) : x = g.exposure := by
  obtain ⟨create, update, response, skip⟩ := x
  rw [FieldDeclaration.exposure, Exposure.mk.injEq]
  exact ⟨h "create" (by decide), h "update" (by decide), h "response" (by decide),
    h "skip" (by decide)⟩

/-- What is read of an exposure without an error is what is written. -/
theorem exposure_fieldAttributes {entity name : String} {g : FieldDeclaration}
    (h : (fieldAttributes entity name g.attributes).Clean) :
    (fieldAttributes entity name g.attributes).value.exposure = g.exposure := by
  simp only [fieldAttributes, Noted.clean_bind] at h
  obtain ⟨-, -, -, -, hexposure, -⟩ := h
  refine eq_exposure_of_selected fun output ho => ?_
  simp only [fieldAttributes, Noted.value_bind, Noted.value_pure, FieldDeclaration.selects]
  unfold given at hexposure ⊢
  cases hv : Value.lookup "field" g.attributes with
  | none => exact selected_empty output ho
  | some v =>
    rw [hv] at hexposure
    exact selected_exposure hexposure ho

/-- A field is made by the database if that is switched on, whatever else is found. -/
theorem isAuto_fieldAttributes (entity name : String) (g : FieldDeclaration) :
    (fieldAttributes entity name g.attributes).value.storage.isAuto = g.isMade := by
  simp only [fieldAttributes, given, Noted.value_bind, Noted.value_pure, FieldDeclaration.isMade,
    Value.switchesOn]
  cases Value.lookup "auto" g.attributes with
  | none => rfl
  | some v => rcases v with _ | (_ | _) | _ | _ | _ | _ | _ <;> rfl

/-! ## Commands -/

namespace CommandDraft

variable {entries : Entries} {d : CommandDraft}

/-- Only a command with fields of its own needs an identifier before its source is taken. -/
theorem source_takeFields (h : (takeFields entries site {}).value.requiresId = true) :
    (takeFields entries site {}).value.source = .fields := by
  revert h
  refine given_induction
    (P := fun x : Noted CommandDraft => x.value.requiresId = true → x.value.source = .fields)
    (fun h => nomatch h) fun v => ?_
  simp only [Noted.value_bind]
  split
  · exact fun h => nomatch h
  · exact fun h => nomatch h
  · exact fun _ => rfl

/-- A creation needs no identifier. -/
def Unidentified (d : CommandDraft) : Prop := d.source = .create → d.requiresId = false

theorem unidentified_takeSource (h : d.requiresId = true → d.source = .fields) :
    (d.takeSource entries site).value.Unidentified := by
  refine given_induction (P := fun x : Noted CommandDraft => x.value.Unidentified) ?_ fun v => ?_
  · intro hs
    rw [← Bool.not_eq_true]
    intro hid
    exact CommandSource.noConfusion (hs.symm.trans (h hid))
  · split
    · rename_i hs
      exact fun hcreate => CommandSource.noConfusion (hcreate.symm.trans hs)
    · rename_i hs
      have hid : d.requiresId = false := Bool.eq_false_iff.mpr fun hid => hs (h hid)
      split
      · exact fun _ => hid
      · exact fun hcreate => CommandSource.noConfusion hcreate
      · exact fun hcreate => CommandSource.noConfusion hcreate
      · exact fun _ => hid

theorem unidentified_takePayload (h : d.Unidentified) :
    (d.takePayload entries site).value.Unidentified := by
  refine given_induction (P := fun x : Noted CommandDraft => x.value.Unidentified) h fun v => ?_
  simp only [Noted.value_bind]
  split
  · exact h
  · split
    · exact fun hcreate => CommandSource.noConfusion hcreate
    · exact h

theorem unidentified_takeRequiresId (h : d.Unidentified) :
    (d.takeRequiresId entries site).value.Unidentified := by
  refine given_induction (P := fun x : Noted CommandDraft => x.value.Unidentified) h fun v => ?_
  simp only [Noted.value_bind]
  split
  · split
    · exact fun hcreate => CommandSource.noConfusion hcreate
    · rename_i hs
      exact fun hcreate => absurd hcreate hs
  · exact h

theorem unidentified_takeKind (h : d.Unidentified) :
    (d.takeKind entries site).value.Unidentified := by
  refine given_induction (P := fun x : Noted CommandDraft => x.value.Unidentified) h fun v => ?_
  simp only [Noted.value_bind]
  split
  · exact h
  · exact h

end CommandDraft

/-- A command that creates needs no identifier, and one that changes fields needs it. -/
def Identifies (c : Command) : Prop :=
  (c.source = .create → c.requiresId = false) ∧ (c.source = .update → c.requiresId = true)

theorem draftCommand_unidentified {entries : Entries} {c : Command}
    (h : (draftCommand entries site).value = some c) (hc : c.source = .create) :
    c.requiresId = false := by
  simp only [draftCommand, Noted.value_bind, Noted.value_pure, Option.map_eq_some_iff] at h
  obtain ⟨n, -, rfl⟩ := h
  exact CommandDraft.unidentified_takeKind (CommandDraft.unidentified_takeRequiresId
    (CommandDraft.unidentified_takePayload (CommandDraft.unidentified_takeSource
      CommandDraft.source_takeFields))) hc

theorem command_identifies {c : Command} (h : (command v site).value = some c) :
    Identifies c := by
  have of_entries {entries : Entries} (h : (commandOfEntries entries site).value = some c) :
      c.source = .create → c.requiresId = false := by
    simp only [commandOfEntries, unlessFaulty] at h
    split at h
    · simp at h
    · exact draftCommand_unidentified h
  obtain ⟨-, hsound⟩ := (readExactly_command v site).made c h
  refine ⟨?_, fun hupdate => hsound.identified (Or.inr hupdate)⟩
  cases v with
  | text s => exact of_entries h
  | map entries => exact of_entries h
  | _ => simp [command] at h

theorem entityAttributes_identifies {entity : String} {entries : Entries} :
    ∀ c ∈ (entityAttributes entity entries).value.commands, Identifies c := by
  refine given_induction
    (P := fun x : Noted (List Command) => ∀ c ∈ x.value, Identifies c) (by simp) fun v => ?_
  cases v with
  | list items =>
    intro c hc
    obtain ⟨item, -, h⟩ := Noted.mem_value_collect.mp hc
    exact command_identifies h
  | _ => simp [commands]

end Attribute

/-! ## What is built -/

namespace Build

open Noted

variable {d : EntityDeclaration} {strict : Bool} {e : Entity} {notes : Diagnostics}

/-- What decides where a field appears: its name, the selected outputs, and whether it is identifier
or made by the database. -/
def marks (f : Field) : String × Exposure × Bool × Bool := (f.name, f.exposure, f.isId, f.isAuto)

/-- The same of a declared field. -/
def writtenMarks (g : FieldDeclaration) : String × Exposure × Bool × Bool :=
  (g.name.getD "", g.exposure, g.isMarked, g.isMade)

theorem marks_field {entity : String} {g : FieldDeclaration} (h : (field entity g).Clean) :
    (field entity g).value.map marks = some (writtenMarks g) := by
  simp only [field, Noted.clean_bind] at h
  have hexposure := Attribute.exposure_fieldAttributes h.1
  have hid := isId_fieldAttributes entity (g.name.getD "") g
  have hauto := Attribute.isAuto_fieldAttributes entity (g.name.getD "") g
  simp only [field, Noted.value_bind]
  cases hparse : FieldType.parse g.type with
  | error fault => simp [hparse] at h
  | ok type =>
    simp only [Noted.value_pure, Option.map_some, marks, writtenMarks, Field.isId, Field.isAuto,
      hexposure, hid, hauto]

/-- The fields of an entity that is built are marked as the declared ones. -/
theorem map_marks (hb : build d strict = .ok (e, notes)) :
    e.fields.map marks = (d.fields.getD []).map writtenMarks := by
  have hparts : Diagnostics.hasErrors (parts d strict).notes = false := clean_parts_of_build hb
  simp only [notes_parts, Diagnostics.hasErrors_append, Bool.or_eq_false_iff] at hparts
  have hfields : (collect (field d.name) (d.fields.getD [])).Clean := hparts.1.1.1.1.1.2
  rw [(madeFrom_of_assemble? (of_build_eq_ok hb).1).fields, fields_parts]
  exact map_value_collect marks hfields fun _ => marks_field

/-- Fields are picked by their marks, and declared fields by what is written for these. -/
theorem names_filter (hb : build d strict = .ok (e, notes))
    (picked : String × Exposure × Bool × Bool → Bool) :
    (e.fields.filter fun f => picked (marks f)).map Field.name =
      d.namesOf fun g => picked (writtenMarks g) := by
  have hmarks := congrArg (fun ms => (ms.filter picked).map Prod.fst) (map_marks hb)
  simp only [List.filter_map, List.map_map] at hmarks
  exact hmarks

theorem names_fields (hb : build d strict = .ok (e, notes)) :
    e.fields.map Field.name = d.namesOf fun _ => true := by
  have hnames := names_filter hb fun _ => true
  rwa [List.filter_true] at hnames

/-- The fields taken on creation are those that a caller sends for it. -/
theorem names_createFields (hb : build d strict = .ok (e, notes)) :
    e.createFields.map Field.name = d.namesOf (·.isSent "create") :=
  names_filter hb fun (_, x, isId, isAuto) => !x.skip && x.create && !isId && !isAuto

theorem names_updateFields (hb : build d strict = .ok (e, notes)) :
    e.updateFields.map Field.name = d.namesOf (·.isSent "update") :=
  names_filter hb fun (_, x, isId, isAuto) => !x.skip && x.update && !isId && !isAuto

theorem names_responseFields (hb : build d strict = .ok (e, notes)) :
    e.responseFields.map Field.name = d.namesOf FieldDeclaration.isReturned :=
  names_filter hb fun (_, x, isId, _) => !x.skip && (x.response || isId)

/-- No name is declared twice. -/
theorem nodup_namesOf (hb : build d strict = .ok (e, notes)) (p : FieldDeclaration → Bool) :
    (d.namesOf p).Nodup := by
  have hall : (d.namesOf fun _ => true).Nodup :=
    names_fields hb ▸ (consistent_of_build hb).fieldNames_nodup
  rw [EntityDeclaration.namesOf, List.filter_true] at hall
  exact hall.sublist (List.filter_sublist.map _)

theorem identifies_of_build (hb : build d strict = .ok (e, notes)) {c : Command}
    (hc : c ∈ e.commands) : Attribute.Identifies c := by
  rw [(madeFrom_of_assemble? (of_build_eq_ok hb).1).commands] at hc
  obtain ⟨c', hc', rfl⟩ := mem_parts_commands hc
  rw [attributes_parts] at hc'
  exact Attribute.entityAttributes_identifies c' hc'

end Build

namespace Package

open Source Postgres

variable {d : EntityDeclaration} {strict : Bool} {e : Entity} {notes : Diagnostics}

/-! ## What is emitted -/

/-- The names of the attributes that a class declares with a type, in order. -/
def attributeNames (c : ClassBlock) : List String :=
  (c.declarations.filter fun line => ':' ∈ line.toList).map declaredName

theorem colon_mem_text (f : ShapeField) : ':' ∈ f.text.toList := by
  obtain ⟨rest, htext⟩ := text_shape f
  rw [htext]
  simp

/-- A class with settings and then some fields declares the fields. -/
theorem attributeNames_eq {c : ClassBlock} {settings : List String} {optional : Bool}
    {fields : List Field}
    (hc : c.declarations = settings ++ fields.map fun f => (shapeField optional f).text)
    (hsettings : ∀ line ∈ settings, ':' ∉ line.toList)
    (hnames : ∀ f ∈ fields, ':' ∉ f.name.toList) :
    attributeNames c = fields.map Field.name := by
  have hdropped : settings.filter (fun line => decide (':' ∈ line.toList)) = [] :=
    List.filter_eq_nil_iff.mpr fun line hline => by simpa using hsettings line hline
  have hkept : (fields.map fun f => (shapeField optional f).text).filter
      (fun line => decide (':' ∈ line.toList)) = fields.map fun f => (shapeField optional f).text :=
    List.filter_eq_self.mpr (List.forall_mem_map.mpr fun f _ => decide_eq_true (colon_mem_text _))
  rw [attributeNames, hc, List.filter_append, hdropped, hkept, List.nil_append,
    declaredNames_shapeFields optional hnames]

theorem attributeNames_createRequest (he : e.Plain) :
    attributeNames (createRequest e) = e.createFields.map Field.name := by
  have hlines : (createRequest e).declarations =
      [] ++ e.createFields.map fun f => (shapeField false f).text := by
    simp only [ClassBlock.declarations, createRequest, shapeAttributes, List.flatMap_cons,
      List.flatMap_nil, List.append_nil, List.nil_append]
  exact attributeNames_eq hlines (List.forall_mem_nil _) fun f hf =>
    (he.fieldName f (mem_createFields.mp hf).1).not_mem (by decide)

theorem attributeNames_updateRequest (he : e.Plain) :
    attributeNames (updateRequest e) = e.updateFields.map Field.name := by
  have hlines : (updateRequest e).declarations =
      [] ++ e.updateFields.map fun f => (shapeField true f).text := by
    simp only [ClassBlock.declarations, updateRequest, shapeAttributes, List.flatMap_cons,
      List.flatMap_nil, List.append_nil, List.nil_append]
  exact attributeNames_eq hlines (List.forall_mem_nil _) fun f hf =>
    (he.fieldName f (mem_updateFields.mp hf).1).not_mem (by decide)

/-- The setting by which a shape reads attributes is no attribute. -/
theorem colon_not_mem_setting : ∀ line ∈ ["model_config = ConfigDict(from_attributes=True)"],
    ':' ∉ line.toList := by decide

theorem attributeNames_response (he : e.Plain) :
    attributeNames (response e) = e.responseFields.map Field.name := by
  have hlines : (response e).declarations = ["model_config = ConfigDict(from_attributes=True)"] ++
      e.responseFields.map fun f => (shapeField false f).text := by
    simp only [ClassBlock.declarations, response, attributeReading, shapeAttributes,
      List.flatMap_cons, List.flatMap_nil, List.append_nil]
  exact attributeNames_eq hlines colon_not_mem_setting fun f hf =>
    (he.fieldName f (List.mem_of_mem_filter hf)).not_mem (by decide)

theorem attributeNames_payloadClass (he : e.Plain) (c : Command) :
    attributeNames (payloadClass e c) = payloadNames e c := by
  have hlines : ∀ line ∈ (payloadClass e c).declarations, ':' ∈ line.toList := by
    rw [declarations_payloadClass, List.forall_mem_map]
    exact fun f _ => colon_mem_text f
  rw [attributeNames, List.filter_eq_self.mpr fun line hline => decide_eq_true (hlines line hline),
    declaredNames_payloadClass he]

/-- The payload of a creation has the fields of a creation, and that of a change has an identifier
of its own in front of the fields of a change. -/
theorem attributeNames_payload (hb : Build.build d strict = .ok (e, notes)) {c : Command}
    (hc : c ∈ e.commands) :
    (c.source = .create → attributeNames (payloadClass e c) = d.namesOf (·.isSent "create")) ∧
    (c.source = .update →
      attributeNames (payloadClass e c) = "id" :: d.namesOf (·.isSent "update")) := by
  obtain ⟨hcreate, hupdate⟩ := Build.identifies_of_build hb hc
  rw [attributeNames_payloadClass (Build.plain_of_build hb), payloadNames]
  constructor
  · intro hsource
    rw [hcreate hsource, payloadFields, hsource, if_neg Bool.false_ne_true, List.nil_append]
    exact Build.names_createFields hb
  · intro hsource
    rw [hupdate hsource, payloadFields, hsource, if_pos rfl, List.singleton_append]
    exact congrArg _ (Build.names_updateFields hb)

/-- A command that takes the fields of a creation or of a change has its payload in the module. -/
theorem payloadClass_mem_classes {c : Command} (hc : c ∈ e.commands)
    (hsource : c.source = .create ∨ c.source = .update) :
    ∃ m, commandsModule? e = some m ∧ payloadClass e c ∈ m.classes := by
  have hempty : e.commands.isEmpty = false :=
    List.isEmpty_eq_false_iff.mpr (List.ne_nil_of_mem hc)
  obtain ⟨m, hm⟩ : ∃ m, commandsModule? e = some m := by
    rw [commandsModule?, hempty, if_neg Bool.false_ne_true]
    exact ⟨_, rfl⟩
  have hown : c ∈ ownPayloads e := by
    refine List.mem_filter.mpr ⟨hc, ?_⟩
    rcases hsource with hs | hs <;> simp [Command.isCustom, hs]
  refine ⟨m, hm, ?_⟩
  rw [classes_commandsModule hm, List.append_assoc, List.append_assoc]
  exact List.mem_append_left _ (List.mem_map_of_mem hown)

/-- A class among the shapes of an entity is in the module that is written for them. -/
theorem mem_classes_of_shape {runtime : String} {c : ClassBlock}
    (h : ∃ imports, (c, imports) ∈ shapes runtime e) :
    ∃ m, transferModule? runtime e = some m ∧ c ∈ m.classes := by
  obtain ⟨imports, hshape⟩ := h
  exact shape_mem_classes hshape

/-- With fields of a change there is a table to rename them by. -/
theorem updateTable_mem_assignments {runtime : String} (h : e.updateFields.isEmpty = false) :
    "UPDATE_COLUMNS" ∈ (assignments (backendModule runtime e)).map Assignment.name := by
  have hmem : "UPDATE_COLUMNS" ∈ (updateTable e).flatten.map Assignment.name := by
    rw [updateTable, h, if_neg Bool.false_ne_true]
    exact List.mem_singleton_self _
  rw [assignments_backendModule, List.map_append, List.map_append]
  exact List.mem_append_right _ (List.mem_append_right _ hmem)

/-- Every output has the declared fields that are selected for it, in the order of declaration and
each once; and it is there if it has a field. -/
structure ShowsSelected (d : EntityDeclaration) (e : Entity) (runtime : String) : Prop where
  distinct : ∀ p, (d.namesOf p).Nodup
  creation : attributeNames (createRequest e) = d.namesOf (·.isSent "create") ∧
    (d.namesOf (·.isSent "create") ≠ [] →
      ∃ m, transferModule? runtime e = some m ∧ createRequest e ∈ m.classes)
  change : attributeNames (updateRequest e) = d.namesOf (·.isSent "update") ∧
    (d.namesOf (·.isSent "update") ≠ [] →
      ∃ m, transferModule? runtime e = some m ∧ updateRequest e ∈ m.classes)
  /-- The table through which the fields of a change are renamed has just these. -/
  table : (∀ a ∈ assignments (backendModule runtime e), a.name = "UPDATE_COLUMNS" →
      a.textPairs.map Prod.fst = d.namesOf (·.isSent "update")) ∧
    (d.namesOf (·.isSent "update") ≠ [] →
      "UPDATE_COLUMNS" ∈ (assignments (backendModule runtime e)).map Assignment.name)
  response : attributeNames (response e) = d.namesOf FieldDeclaration.isReturned ∧
    (d.namesOf FieldDeclaration.isReturned ≠ [] →
      ∃ m, transferModule? runtime e = some m ∧ Package.response e ∈ m.classes)
  creationPayload : ∀ c ∈ e.commands, c.source = .create →
    attributeNames (payloadClass e c) = d.namesOf (·.isSent "create") ∧
    ∃ m, commandsModule? e = some m ∧ payloadClass e c ∈ m.classes
  /-- The payload of a change says which row it is about, under a name of its own. -/
  changePayload : ∀ c ∈ e.commands, c.source = .update →
    attributeNames (payloadClass e c) = "id" :: d.namesOf (·.isSent "update") ∧
    ∃ m, commandsModule? e = some m ∧ payloadClass e c ∈ m.classes
  /-- The class of the entity has all fields. -/
  entity : e.fields.map Field.name = d.namesOf (fun _ => true) ∧
    ∃ c, (entityModule e).classes = [c] ∧ attributeNames c = d.namesOf fun _ => true
  /-- Every list of all columns has those of all fields. -/
  columns : ListsColumns e (e.fields.map Field.columnName)

/-- Whatever the spelling of the outputs that a field is selected for, the field of the entity that
is built appears in just these. -/
theorem shows_selected (hb : Build.build d strict = .ok (e, notes)) (runtime : String) :
    ShowsSelected d e runtime := by
  have he := Build.plain_of_build hb
  have hcreate := Build.names_createFields hb
  have hupdate := Build.names_updateFields hb
  have hresponse := Build.names_responseFields hb
  have hpayload {c : Command} (hc : c ∈ e.commands) := attributeNames_payload hb hc
  have nonempty {fields : List Field} {names : List String}
      (heq : fields.map Field.name = names) (hne : names ≠ []) : fields.isEmpty = false := by
    rw [← heq] at hne
    simpa using hne
  constructor
  case distinct => exact Build.nodup_namesOf hb
  case creation =>
    refine ⟨(attributeNames_createRequest he).trans hcreate, fun hne => ?_⟩
    exact mem_classes_of_shape (createRequest_mem_shapes (nonempty hcreate hne))
  case change =>
    refine ⟨(attributeNames_updateRequest he).trans hupdate, fun hne => ?_⟩
    exact mem_classes_of_shape (updateRequest_mem_shapes (nonempty hupdate hne))
  case table =>
    refine ⟨fun a ha hname => ?_, fun hne => updateTable_mem_assignments (nonempty hupdate hne)⟩
    rw [textPairs_updateTable he (mem_updateTable ha hname), updateColumns, List.map_map]
    exact hupdate
  case response =>
    refine ⟨(attributeNames_response he).trans hresponse, fun hne => ?_⟩
    exact mem_classes_of_shape (response_mem_shapes (nonempty hresponse hne))
  case creationPayload =>
    exact fun c hc hs => ⟨(hpayload hc).1 hs, payloadClass_mem_classes hc (Or.inl hs)⟩
  case changePayload =>
    exact fun c hc hs => ⟨(hpayload hc).2 hs, payloadClass_mem_classes hc (Or.inr hs)⟩
  case entity =>
    obtain ⟨c, hc, hlines⟩ := classes_entityModule e
    have hnames := Build.names_fields hb
    refine ⟨hnames, c, hc, ?_⟩
    rw [← hnames]
    exact attributeNames_eq hlines colon_not_mem_setting fun f hf =>
      (he.fieldName f hf).not_mem (by decide)
  case columns => exact listsColumns he

/-- A card with outputs in every spelling: a list with a repetition, a mapping with a key alone, and
a field that is skipped although it is selected. -/
def cardDeclaration : EntityDeclaration where
  name := "Card"
  attributes := [(.text "table", .text "cards"), (.text "commands", .list [.text "Issue",
    .map [(.text "name", .text "Rename"), (.text "source", .text "update")]])]
  fields := some [
    { name := "id", type := "uuid"
      attributes := [(.text "id", .bool true), (.text "field", .text "skip")] },
    { name := "title", type := "string"
      attributes := [(.text "field", .list [.text "update", .text "create", .text "update"])] },
    { name := "secret", type := "string"
      attributes := [(.text "field", .list [.text "response", .text "skip", .text "create"])] },
    { name := "note", type := "string"
      attributes := [(.text "field", .map [(.text "update", .bool false), (.text "response", .null),
        (.text "create", .bool true)])] },
    { name := "made_at", type := "datetime"
      attributes := [(.text "auto", .null), (.text "field", .list [.text "response",
        .text "create"])] }]

/-- The card shows what is selected, and nothing of its secret. -/
theorem shows_selected_card : ∃ e notes, Build.build cardDeclaration false = .ok (e, notes) ∧
    attributeNames (createRequest e) = ["title", "note"] ∧
    attributeNames (updateRequest e) = ["title"] ∧
    attributeNames (response e) = ["note", "made_at"] ∧
    ShowsSelected cardDeclaration e "entitygen.runtime" := by
  obtain ⟨e, notes, hb, -⟩ := Build.exists_of_build cardDeclaration false (fun _ => true)
    (by decide +kernel)
  have h := shows_selected hb "entitygen.runtime"
  refine ⟨e, notes, hb, h.creation.1.trans ?_, h.change.1.trans ?_, h.response.1.trans ?_, h⟩
  · decide
  · decide
  · decide

/-- The identifier of the card is skipped, and yet the payload that renames it has an identifier
under the same name. -/
theorem skipped_identifier_in_payload : ∃ e notes,
    Build.build cardDeclaration false = .ok (e, notes) ∧
    (∃ g ∈ cardDeclaration.fields.getD [], g.name = some "id" ∧ g.isMarked = true ∧
      g.selects "skip" = true) ∧
    ∃ c ∈ e.commands, c.source = .update ∧ "id" ∈ attributeNames (payloadClass e c) ∧
      ∃ m, commandsModule? e = some m ∧ payloadClass e c ∈ m.classes := by
  obtain ⟨e, notes, hb, h⟩ := Build.exists_of_build cardDeclaration false
    (fun e => decide (∃ c ∈ e.commands, c.source = .update ∧
      "id" ∈ attributeNames (payloadClass e c))) (by decide +kernel)
  obtain ⟨c, hc, hsource, hid⟩ := of_decide_eq_true h
  exact ⟨e, notes, hb, by decide, c, hc, hsource, hid,
    payloadClass_mem_classes hc (Or.inr hsource)⟩

end Package

end EntityForge
