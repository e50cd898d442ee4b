import EntityForge.Proofs.Attribute

/-!
# Whom a finding belongs to

Every finding about attributes is made at a site, and every site lies within that of the entity or
the field whose attributes are read: its label begins with the label of the owner, and its context
names the owner as the context of the owner does. A step to an inner site only adds to the label and
sets entries of other names, so that this is kept on the way to every finding, however deep in the
value it is made. The walk over the readers also collects the codes of their findings.
-/

namespace EntityForge

namespace Noted

variable {α β : Type} {P : Diagnostic → Prop}

/-- Every finding has a property. -/
def Every (P : Diagnostic → Prop) (x : Noted α) : Prop := ∀ n ∈ x.notes, P n

@[simp] theorem every_pure (a : α) : (pure a : Noted α).Every P := by
  intro n hn
  exact nomatch hn

/-- The findings of one computation after another are those of both. -/
@[simp] theorem every_bind (x : Noted α) (f : α → Noted β) :
    (x >>= f).Every P ↔ x.Every P ∧ (f x.value).Every P := by
  simp only [Every, notes_bind, List.mem_append, or_imp, forall_and]

@[simp] theorem every_note (d : Diagnostic) : (note d).Every P ↔ P d := by
  simp [Every, note]

/-- Running on every item finds nothing else than running on each of them. -/
theorem every_each {f : α → Noted Unit} (h : ∀ a, (f a).Every P) (as : List α) :
    (each f as).Every P := by
  induction as with
  | nil => exact every_pure _
  | cons a as ih =>
    rw [each, every_bind]
    exact ⟨h a, ih⟩

theorem every_collect {f : α → Noted (Option β)} (h : ∀ a, (f a).Every P) (as : List α) :
    (collect f as).Every P := by
  induction as with
  | nil => exact every_pure _
  | cons a as ih =>
    rw [collect, every_bind, every_bind]
    exact ⟨h a, ih, every_pure _⟩

end Noted

/-- Setting one name leaves the others as they are. -/
theorem Context.lookup_set_of_ne {name key : String} (h : key ≠ name) (value : Value)
    (context : Context) : (context.set name value).lookup key = context.lookup key := by
  induction context with
  | nil => simp [Context.set, h]
  | cons entry rest ih =>
    obtain ⟨n, v⟩ := entry
    rw [Context.set]
    split
    · rename_i hn
      subst hn
      have hkey : (key == n) = false := beq_eq_false_iff_ne.mpr h
      simp only [List.lookup_cons, hkey]
    · simp only [List.lookup_cons, ih]

namespace Attribute

open Noted

/-- The codes of what can be found about attributes. -/
def codes : List String := ["UNKNOWN_ATTRIBUTE", "INVALID_FLAG", "INVALID_ATTRIBUTE_VALUE",
  "INVALID_DIALECT", "INVALID_UUID_VERSION", "INVALID_RETURNING", "INVALID_SQL_LEVEL",
  "INVALID_ERROR_TYPE", "INVALID_PROJECTION", "INVALID_INDEX", "INVALID_INDEX_TYPE", "INVALID_API",
  "INVALID_COMMAND", "INVALID_COMMAND_OPTION", "INVALID_EXPOSURE", "INVALID_FILTER",
  "INVALID_ON_DELETE", "INVALID_RELATION", "INVALID_COLUMN_HINT"]

/-- The names under which a context holds the entity and the field that it belongs to. -/
def ownerNames : List String := ["entity", "field"]

/-! ## Sites -/

/-- A site lies within that of its owner. -/
structure Site.Within (site owner : Site) : Prop where
  label : owner.label.toList <+: site.label.toList
  context : ∀ key ∈ ownerNames, site.context.lookup key = owner.context.lookup key

/-- A finding about an owner: it has a code for attributes, speaks of the owner first and names it
in its context. -/
structure Attributed (owner : Site) (d : Diagnostic) : Prop where
  code : d.code ∈ codes
  message : owner.label.toList <+: d.message.toList
  context : ∀ key ∈ ownerNames, d.context.lookup key = owner.context.lookup key

namespace Site.Within

variable {owner site : Site}

theorem refl (owner : Site) : owner.Within owner := ⟨List.prefix_rfl, fun _ _ => rfl⟩

/-- A site with a longer label in the same context. -/
theorem relabel (h : site.Within owner) {label : String}
    (hl : site.label.toList <+: label.toList) : Within ⟨label, site.context⟩ owner :=
  ⟨h.label.trans hl, h.context⟩

/-- An inner site sets an entry that does not name the owner. -/
theorem set (h : site.Within owner) {name : String} (hn : name ∉ ownerNames) (value : Value) :
    Within ⟨site.label, site.context.set name value⟩ owner := by
  refine ⟨h.label, fun key hk => ?_⟩
  have hne : key ≠ name := fun heq => hn (heq ▸ hk)
  rw [Context.lookup_set_of_ne hne]
  exact h.context key hk

/-- The site of one attribute. -/
theorem contextFor (h : site.Within owner) (key : String) :
    Within ⟨site.label, site.contextFor key⟩ owner :=
  h.set (by decide) _

/-- What is found at a site belongs to its owner. -/
theorem attributed (h : site.Within owner) {severity : Severity} {code message : String}
    (hc : code ∈ codes) (hm : site.label.toList <+: message.toList) :
    Attributed owner ⟨severity, code, message, site.context⟩ :=
  ⟨hc, h.label.trans hm, h.context⟩

end Site.Within

variable {owner site : Site}

/-- A message that goes on after a label begins with it. -/
theorem startsWith_label (label rest : String) : label.toList <+: (label ++ rest).toList := by
  rw [String.toList_append]
  exact List.prefix_append _ _

theorem attributed_fault (h : site.Within owner) {code : String} (hc : code ∈ codes)
    (key message : String) : (site.fault code key message).Every (Attributed owner) := by
  refine (every_note _).mpr ((h.contextFor key).attributed hc ?_)
  exact (startsWith_label site.label ": ").trans (startsWith_label _ message)

/-- A reader that finds no result ends with a fault. -/
theorem attributed_refusal {α : Type} (h : site.Within owner) {code : String} (hc : code ∈ codes)
    (key message : String) (a : α) :
    (do site.fault code key message; pure a : Noted α).Every (Attributed owner) := by
  rw [every_bind]
  exact ⟨attributed_fault h hc key message, every_pure a⟩

/-! ## Single values -/

section Scalar

variable {value : Value} {key : String}

theorem attributed_flag (h : site.Within owner) :
    (flag value key site).Every (Attributed owner) := by
  unfold flag
  split
  · exact every_pure _
  · exact every_pure _
  · exact attributed_refusal h (by decide) _ _ _

theorem attributed_text (h : site.Within owner) :
    (text value key site).Every (Attributed owner) := by
  unfold text
  dsimp only
  split
  · exact every_pure _
  · exact attributed_refusal h (by decide) _ _ _

theorem attributed_name (h : site.Within owner) :
    (name value key site).Every (Attributed owner) := by
  rw [name, every_bind]
  refine ⟨attributed_text h, ?_⟩
  split
  · exact every_pure _
  · split
    · exact every_pure _
    · exact attributed_refusal h (by decide) _ _ _

theorem attributed_names (h : site.Within owner) (values : List Value) :
    (names key site values).Every (Attributed owner) := by
  induction values with
  | nil => exact every_pure _
  | cons v vs ih =>
    rw [names, every_bind]
    refine ⟨attributed_name h, ?_⟩
    split
    · exact every_pure _
    · rw [every_bind]
      exact ⟨ih, every_pure _⟩

theorem attributed_nameList (h : site.Within owner) :
    (nameList value key site).Every (Attributed owner) := by
  unfold nameList
  split
  · exact attributed_names h _
  · exact attributed_names h _
  · exact attributed_refusal h (by decide) _ _ _

theorem attributed_choice {α : Type} [Vocabulary α] (h : site.Within owner) {code : String}
    (hc : code ∈ codes) : (choice α value key code site).Every (Attributed owner) := by
  unfold choice
  dsimp only
  split
  · exact every_pure _
  · exact attributed_refusal h hc _ _ _

theorem attributed_noteUnknown (h : site.Within owner) (entries : Entries) (known : List String) :
    (noteUnknown entries known site).Every (Attributed owner) := by
  refine every_each (fun e => ?_) _
  split
  · exact every_pure _
  · refine (every_note _).mpr ((h.contextFor _).attributed (by decide) ?_)
    simp only [String.toList_append, List.append_assoc]
    exact List.prefix_append _ _

/-- An attribute is found nothing about but by its reader. -/
theorem attributed_given {α : Type} {entries : Entries} {absent : α} {read : Value → Noted α}
    (h : ∀ v, (read v).Every (Attributed owner)) :
    (given entries key absent read).Every (Attributed owner) :=
  given_induction (every_pure _) h

theorem attributed_present {α : Type} {entries : Entries} {absent : α} {read : Value → Noted α}
    (h : ∀ v, (read v).Every (Attributed owner)) :
    (present entries key absent read).Every (Attributed owner) :=
  present_induction (every_pure _) h

end Scalar

/-! ## Commands -/

section Command

variable {entries : Entries} {d : CommandDraft}

theorem attributed_takeFields (h : site.Within owner) :
    (d.takeFields entries site).Every (Attributed owner) := by
  refine attributed_given fun v => ?_
  rw [every_bind]
  refine ⟨attributed_nameList h, ?_⟩
  split
  · exact every_pure _
  · exact attributed_refusal h (by decide) _ _ _
  · exact every_pure _

theorem attributed_takeSource (h : site.Within owner) :
    (d.takeSource entries site).Every (Attributed owner) := by
  refine attributed_given fun v => ?_
  split
  · exact attributed_refusal h (by decide) _ _ _
  · split
    · exact every_pure _
    · exact every_pure _
    · exact every_pure _
    · exact attributed_refusal h (by decide) _ _ _

theorem attributed_takePayload (h : site.Within owner) :
    (d.takePayload entries site).Every (Attributed owner) := by
  refine attributed_given fun v => ?_
  rw [every_bind]
  refine ⟨attributed_text h, ?_⟩
  split
  · exact every_pure _
  · split
    · exact every_pure _
    · exact attributed_refusal h (by decide) _ _ _

theorem attributed_takeRequiresId (h : site.Within owner) :
    (d.takeRequiresId entries site).Every (Attributed owner) := by
  refine attributed_given fun v => ?_
  rw [every_bind]
  refine ⟨attributed_flag h, ?_⟩
  split
  · split <;> exact every_pure _
  · exact every_pure _

theorem attributed_takeKind (h : site.Within owner) :
    (d.takeKind entries site).Every (Attributed owner) := by
  refine attributed_given fun v => ?_
  rw [every_bind]
  refine ⟨attributed_choice h (by decide), ?_⟩
  split <;> exact every_pure _

theorem attributed_refuseUnknownOptions (h : site.Within owner) :
    (refuseUnknownOptions entries site).Every (Attributed owner) := by
  refine every_each (fun e => ?_) _
  split
  · exact every_pure _
  · exact attributed_fault h (by decide) _ _

theorem attributed_draftCommand (h : site.Within owner) :
    (draftCommand entries site).Every (Attributed owner) := by
  simp only [draftCommand, every_bind, every_pure, and_true]
  exact ⟨attributed_name h, attributed_refuseUnknownOptions h, attributed_takeFields h,
    attributed_takeSource h, attributed_takePayload h, attributed_takeRequiresId h,
    attributed_takeKind h, attributed_present fun _ => attributed_text h,
    attributed_present fun _ => attributed_text h⟩

/-- A command lies within the site it is declared at. -/
theorem within_commandSite (h : site.Within owner) (entries : Entries) :
    (commandSite entries site).Within owner := by
  refine (h.set (show "command" ∉ ownerNames by decide) _).relabel ?_
  simp only [String.toList_append, List.append_assoc]
  exact List.prefix_append _ _

/-- A faulty command is dropped, but not what was found about it. -/
theorem attributed_commandOfEntries (h : site.Within owner) :
    (commandOfEntries entries site).Every (Attributed owner) := by
  have hdraft : (draftCommand entries (commandSite entries site)).Every (Attributed owner) :=
    attributed_draftCommand (within_commandSite h entries)
  exact hdraft

theorem attributed_command (h : site.Within owner) (value : Value) :
    (command value site).Every (Attributed owner) := by
  unfold command
  split
  · exact attributed_commandOfEntries h
  · exact attributed_commandOfEntries h
  · rw [every_bind]
    refine ⟨(every_note _).mpr (h.attributed (by decide) ?_), every_pure _⟩
    simp only [String.toList_append, List.append_assoc]
    exact List.prefix_append _ _

end Command

/-! ## Entities -/

section Entity

variable {entries : Entries}

theorem attributed_projection (h : site.Within owner) (entry : Value × Value) :
    (projection site entry).Every (Attributed owner) := by
  unfold projection
  dsimp only
  split
  · exact attributed_refusal h (by decide) _ _ _
  · rw [every_bind]
    refine ⟨attributed_nameList ((h.set (by decide) _).relabel ?_), every_pure _⟩
    simp only [String.toList_append, List.append_assoc]
    exact List.prefix_append _ _

theorem attributed_projections (h : site.Within owner) (value : Value) :
    (projections value site).Every (Attributed owner) := by
  unfold projections
  split
  · exact every_collect (attributed_projection h) _
  · exact attributed_refusal h (by decide) _ _ _

theorem attributed_indexColumns (h : site.Within owner) :
    (indexColumns entries site).Every (Attributed owner) := by
  unfold indexColumns
  split
  · rw [every_bind]
    exact ⟨(every_note _).mpr (h.attributed (by decide) (startsWith_label _ _)), every_pure _⟩
  · rw [every_bind]
    refine ⟨attributed_nameList h, ?_⟩
    split
    · rw [every_bind]
      exact ⟨(every_note _).mpr (h.attributed (by decide) (startsWith_label _ _)), every_pure _⟩
    · exact every_pure _

theorem attributed_compositeIndex (h : site.Within owner) (item : Value × Nat) :
    (compositeIndex site item).Every (Attributed owner) := by
  have hinner : Site.Within ⟨s!"{site.label} index #{item.2 + 1}",
      site.context.set "index" (.int item.2)⟩ owner := by
    refine (h.set (by decide) _).relabel ?_
    simp only [String.toList_append, List.append_assoc]
    exact List.prefix_append _ _
  unfold compositeIndex
  dsimp only
  split
  · simp only [every_bind]
    refine ⟨attributed_noteUnknown hinner _ _, attributed_indexColumns hinner,
      attributed_given fun _ => attributed_choice hinner (by decide),
      attributed_given fun _ => attributed_flag hinner,
      attributed_present fun _ => attributed_name hinner,
      attributed_present fun _ => attributed_text hinner, ?_⟩
    split <;> exact every_pure _
  · rw [every_bind]
    exact ⟨(every_note _).mpr (hinner.attributed (by decide) (startsWith_label _ _)), every_pure _⟩

theorem attributed_compositeIndexes (h : site.Within owner) (value : Value) :
    (compositeIndexes value site).Every (Attributed owner) := by
  unfold compositeIndexes
  split
  · exact every_collect (attributed_compositeIndex h) _
  · exact attributed_refusal h (by decide) _ _ _

theorem attributed_handlers (h : site.Within owner) (value : Value) :
    (handlers value site).Every (Attributed owner) := by
  unfold handlers
  split
  · exact every_pure _
  · exact every_pure _
  · rw [every_bind]
    exact ⟨attributed_nameList h, every_pure _⟩

theorem attributed_apiSettings (h : site.Within owner) (value : Value) :
    (apiSettings value site).Every (Attributed owner) := by
  have hinner : Site.Within ⟨s!"{site.label} api", site.context⟩ owner :=
    h.relabel (startsWith_label _ _)
  unfold apiSettings
  split
  · simp only [every_bind, every_pure, and_true]
    exact ⟨attributed_noteUnknown hinner _ _, attributed_present fun _ => attributed_text hinner,
      attributed_present fun _ => attributed_text hinner,
      attributed_present fun _ => attributed_text hinner,
      attributed_present fun _ => attributed_text hinner,
      attributed_present fun _ => attributed_text hinner,
      attributed_given (attributed_handlers hinner)⟩
  · exact attributed_refusal h (by decide) _ _ _

theorem attributed_errorType (h : site.Within owner) (value : Value) :
    (errorType value site).Every (Attributed owner) := by
  rw [errorType, every_bind]
  refine ⟨attributed_text h, ?_⟩
  split
  · exact every_pure _
  · split
    · exact every_pure _
    · exact attributed_refusal h (by decide) _ _ _

theorem attributed_commands (h : site.Within owner) (value : Value) :
    (commands value site).Every (Attributed owner) := by
  unfold commands
  split
  · exact every_collect (attributed_command (h.contextFor _)) _
  · exact every_pure _

theorem attributed_feature (h : site.Within owner) (key : String) :
    (feature entries site key).Every (Attributed owner) := by
  refine attributed_given fun v => ?_
  split
  · exact every_pure _
  · rw [every_bind]
    exact ⟨attributed_flag h, every_pure _⟩

theorem attributed_features (h : site.Within owner) :
    (features entries site).Every (Attributed owner) := by
  simp only [features, every_bind, attributed_feature h, every_pure, and_self]

/-- All that is found about the attributes of an entity belongs to the entity. -/
theorem attributed_entityAttributes (entity : String) (entries : Entries) :
    (entityAttributes entity entries).Every (Attributed (entitySite entity)) := by
  have h := Site.Within.refl (entitySite entity)
  simp only [entityAttributes, every_bind, every_pure, and_true]
  exact ⟨attributed_noteUnknown h _ _, attributed_given fun _ => attributed_name h,
    attributed_given fun _ => attributed_name h,
    attributed_given fun _ => attributed_choice h (by decide),
    attributed_given fun _ => attributed_choice h (by decide),
    attributed_given fun _ => attributed_choice h (by decide),
    attributed_given fun _ => attributed_choice h (by decide),
    attributed_present (attributed_errorType h), attributed_given fun _ => attributed_flag h,
    attributed_given (attributed_commands h), attributed_features h,
    attributed_present fun _ => attributed_nameList h,
    attributed_present (attributed_projections h),
    attributed_present (attributed_compositeIndexes h),
    attributed_present (attributed_apiSettings h)⟩

end Entity

/-! ## Fields -/

section Field

theorem attributed_exposureName (h : site.Within owner) (value : Value) :
    (exposureName value site).Every (Attributed owner) := by
  unfold exposureName
  dsimp only
  split
  · exact every_pure _
  · exact attributed_refusal h (by decide) _ _ _

theorem attributed_exposureOfNames (h : site.Within owner) (values : List Value) (x : Exposure) :
    (exposureOfNames site x values).Every (Attributed owner) := by
  induction values generalizing x with
  | nil => exact every_pure _
  | cons v vs ih =>
    rw [exposureOfNames, every_bind]
    refine ⟨attributed_exposureName h v, ?_⟩
    split <;> exact ih _

theorem attributed_exposureOfFlags (h : site.Within owner) (entries : Entries) (x : Exposure) :
    (exposureOfFlags site x entries).Every (Attributed owner) := by
  induction entries generalizing x with
  | nil => exact every_pure _
  | cons entry rest ih =>
    obtain ⟨k, v⟩ := entry
    rw [exposureOfFlags, every_bind]
    refine ⟨attributed_exposureName h k, ?_⟩
    split
    · exact ih _
    · rw [every_bind]
      refine ⟨attributed_flag h, ?_⟩
      split <;> exact ih _

theorem attributed_exposure (h : site.Within owner) (value : Value) :
    (exposure value site).Every (Attributed owner) := by
  unfold exposure
  split
  · exact attributed_exposureOfNames h _ _
  · exact attributed_exposureOfNames h _ _
  · exact attributed_exposureOfFlags h _ _
  · exact attributed_refusal h (by decide) _ _ _

theorem attributed_filter (h : site.Within owner) (value : Value) :
    (filter value site).Every (Attributed owner) := by
  unfold filter
  split
  · exact every_pure _
  · exact every_pure _
  · exact every_pure _
  · rw [every_bind]
    exact ⟨attributed_choice h (by decide), every_pure _⟩

theorem attributed_onDelete (h : site.Within owner) (value : Value) :
    (onDelete value site).Every (Attributed owner) := by
  unfold onDelete
  dsimp only
  split
  · exact every_pure _
  · exact attributed_refusal h (by decide) _ _ _

theorem attributed_relation (h : site.Within owner) (value : Value) :
    (relation value site).Every (Attributed owner) := by
  have hrefuse : (relation.refuse site).Every (Attributed owner) := by
    exact attributed_refusal h (by decide) _ _ _
  unfold relation
  split
  · rw [every_bind]
    exact ⟨attributed_name h, every_pure _⟩
  · split
    · rw [every_bind, every_bind]
      exact ⟨attributed_name h, attributed_present (attributed_onDelete h), every_pure _⟩
    · exact hrefuse
  · exact hrefuse

theorem attributed_columnIndex (h : site.Within owner) (value : Value) :
    (columnIndex value site).Every (Attributed owner) := by
  unfold columnIndex
  split
  · exact every_pure _
  · exact every_pure _
  · exact every_pure _
  · exact attributed_choice h (by decide)

theorem attributed_width (h : site.Within owner) (value : Value) :
    (width value site).Every (Attributed owner) := by
  unfold width
  split
  · exact every_pure _
  · exact attributed_refusal h (by decide) _ _ _

theorem attributed_columnHints (h : site.Within owner) (value : Value) :
    (columnHints value site).Every (Attributed owner) := by
  have hinner : Site.Within ⟨s!"{site.label} column", site.context⟩ owner :=
    h.relabel (startsWith_label _ _)
  unfold columnHints
  split
  · simp only [every_bind, every_pure, and_true]
    exact ⟨attributed_noteUnknown hinner _ _, attributed_given fun _ => attributed_flag hinner,
      attributed_given fun _ => attributed_flag hinner,
      attributed_given (attributed_columnIndex hinner),
      attributed_present fun _ => every_pure _,
      attributed_present fun _ => attributed_text hinner,
      attributed_present fun _ => attributed_text hinner,
      attributed_present fun _ => attributed_name hinner,
      attributed_given (attributed_width hinner)⟩
  · exact attributed_refusal h (by decide) _ _ _

/-- All that is found about the attributes of a field belongs to the field. -/
theorem attributed_fieldAttributes (entity field : String) (entries : Entries) :
    (fieldAttributes entity field entries).Every (Attributed (fieldSite entity field)) := by
  have h := Site.Within.refl (fieldSite entity field)
  simp only [fieldAttributes, every_bind, every_pure, and_true]
  exact ⟨attributed_noteUnknown h _ _, attributed_given fun _ => attributed_flag h,
    attributed_given fun _ => attributed_flag h, attributed_given (attributed_relation h),
    attributed_given (attributed_exposure h), attributed_given (attributed_filter h),
    attributed_present (attributed_columnHints h)⟩

end Field

end Attribute

end EntityForge
