import EntityForge.Proofs.Attribution
import EntityForge.Proofs.Validation

/-!
# The codes of findings

Every reader and every check records findings under codes of its own. Findings are only ever
appended, so the codes of a computation are those of its steps, and two stages with different codes
never speak of the same fault.
-/

namespace EntityForge

namespace Noted

variable {α β : Type} {codes more : List String}

/-- Every finding has one of some codes. -/
def Coded (codes : List String) (x : Noted α) : Prop := ∀ n ∈ x.notes, n.code ∈ codes

theorem Coded.mono {x : Noted α} (h : x.Coded codes) (hs : codes ⊆ more) : x.Coded more :=
  fun n hn => hs (h n hn)

@[simp] theorem coded_pure (a : α) : (pure a : Noted α).Coded codes := every_pure a

/-- The findings of one computation after another are those of both. -/
@[simp] theorem coded_bind (x : Noted α) (f : α → Noted β) :
    (x >>= f).Coded codes ↔ x.Coded codes ∧ (f x.value).Coded codes :=
  every_bind x f

@[simp] theorem coded_note (d : Diagnostic) : (note d).Coded codes ↔ d.code ∈ codes :=
  every_note d

@[simp] theorem coded_error (code message : String) (context : Context) :
    (Noted.error code message context).Coded codes ↔ code ∈ codes :=
  coded_note _

@[simp] theorem coded_warning (code message : String) (context : Context) :
    (Noted.warning code message context).Coded codes ↔ code ∈ codes :=
  coded_note _

@[simp] theorem coded_info (code message : String) (context : Context) :
    (Noted.info code message context).Coded codes ↔ code ∈ codes :=
  coded_note _

/-- Running on every item finds nothing else than running on each of them. -/
theorem coded_each {f : α → Noted Unit} (h : ∀ a, (f a).Coded codes) (as : List α) :
    (each f as).Coded codes :=
  every_each h as

theorem coded_collect {f : α → Noted (Option β)} (h : ∀ a, (f a).Coded codes) (as : List α) :
    (collect f as).Coded codes :=
  every_collect h as

end Noted

/-! ## Attributes -/

namespace Attribute

/-- All that is found about the attributes of an entity has one of the codes for attributes. -/
theorem coded_entityAttributes (entity : String) (entries : Entries) :
    (entityAttributes entity entries).Coded codes :=
  fun n hn => (attributed_entityAttributes entity entries n hn).code

/-- All that is found about the attributes of a field has one of the codes for attributes. -/
theorem coded_fieldAttributes (entity field : String) (entries : Entries) :
    (fieldAttributes entity field entries).Coded codes :=
  fun n hn => (attributed_fieldAttributes entity field entries n hn).code

end Attribute

/-! ## Validation -/

namespace Validation

open Noted

/-- The codes of what can be found about a finished entity. -/
def codes : List String := ["DUPLICATE_FIELD_NAME", "DUPLICATE_COLUMN_NAME", "INVALID_FIELD_NAME",
  "FIELD_NAME_RESERVED", "COLUMN_NAME_SQL_RESERVED", "LIKE_FILTER_ON_NON_TEXT",
  "RANGE_FILTER_ON_UNORDERED", "SOFT_DELETE_COLUMN_MISSING", "DUPLICATE_COMMAND",
  "INVALID_COMMAND_NAME", "COMMANDS_EMPTY", "DUPLICATE_INDEX_NAME", "DUPLICATE_PROJECTION"]

theorem coded_when {cs : List String} {condition : Bool} {x : Noted Unit} (h : x.Coded cs) :
    (when condition x).Coded cs := by
  cases condition with
  | true => exact h
  | false => exact coded_pure _

theorem coded_eachWithRepeat {α : Type} {cs : List String} {key : α → String}
    {check : Bool → α → Noted Unit} (h : ∀ repeated a, (check repeated a).Coded cs)
    (seen : List String) (as : List α) : (eachWithRepeat key check seen as).Coded cs := by
  induction as generalizing seen with
  | nil => exact coded_pure _
  | cons a as ih =>
    rw [eachWithRepeat, coded_bind]
    exact ⟨h _ a, ih _⟩

variable {e : Entity}

theorem coded_fieldName (repeatedField repeatedColumn : Bool) (f : Field) :
    (fieldName e repeatedField repeatedColumn f).Coded codes := by
  simp only [fieldName, coded_bind]
  refine ⟨coded_when (by simp [codes]), coded_when (by simp [codes]), ?_⟩
  split
  · simp [codes]
  · rw [coded_bind]
    exact ⟨coded_when (by simp [codes]), coded_when (by simp [codes])⟩

theorem coded_fieldNamesFrom (names columns : List String) (fs : List Field) :
    (fieldNamesFrom e names columns fs).Coded codes := by
  induction fs generalizing names columns with
  | nil => exact coded_pure _
  | cons f fs ih =>
    rw [fieldNamesFrom, coded_bind]
    exact ⟨coded_fieldName _ _ f, ih _ _⟩

theorem coded_filters : (filters e).Coded codes := by
  refine coded_each (fun f => ?_) _
  rw [coded_bind]
  exact ⟨coded_when (by simp [codes]), coded_when (by simp [codes])⟩

theorem coded_commands : (commands e).Coded codes := by
  rw [commands, coded_bind]
  refine ⟨coded_eachWithRepeat (fun repeated c => ?_) _ _, coded_when (by simp [codes])⟩
  rw [coded_bind]
  exact ⟨coded_when (by simp [codes]), coded_when (by simp [codes])⟩

/-- All that is found about a finished entity has one of the codes for it. -/
theorem coded_entity (e : Entity) : (entity e).Coded codes := by
  simp only [entity, coded_bind]
  exact ⟨coded_fieldNamesFrom _ _ _, coded_filters, coded_when (by simp [codes]), coded_commands,
    coded_eachWithRepeat (fun _ _ => coded_when (by simp [codes])) _ _,
    coded_eachWithRepeat (fun _ _ => coded_when (by simp [codes])) _ _⟩

end Validation

end EntityForge
