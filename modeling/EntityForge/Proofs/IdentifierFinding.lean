import EntityForge.Proofs.Dangling
import EntityForge.Proofs.Generation

/-!
# What is found about the identifier of a declaration

The identifier is looked for among the fields that were read, and a field whose type cannot be read
is none of them. So the findings about identifiers are those about the fields that are marked and
whose types can be read, whatever else is found. They are the findings about all marked fields
unless such a type hides one: then an identifier is missed that is there, or one of two goes
unnoticed.
-/

namespace EntityForge

/-- A declared field is marked as the identifier: its `id` is true, or written without a value. -/
def FieldDeclaration.isMarked (d : FieldDeclaration) : Bool :=
  match Value.lookup "id" d.attributes with
  | some .null | some (.bool true) => true
  | _ => false

/-- The type of a declared field can be read. -/
def FieldDeclaration.isReadable (d : FieldDeclaration) : Bool := (FieldType.parse d.type).isOk

/-- The declared fields that are marked as the identifier. -/
def EntityDeclaration.marked (d : EntityDeclaration) : List FieldDeclaration :=
  (d.fields.getD []).filter FieldDeclaration.isMarked

/-- The marked fields of which the types can be read. -/
def EntityDeclaration.seen (d : EntityDeclaration) : List FieldDeclaration :=
  d.marked.filter FieldDeclaration.isReadable

/-- Something was found under a code. -/
def Diagnostics.Reports (ds : Diagnostics) (code : String) : Prop := ∃ n ∈ ds, n.code = code

instance (ds : Diagnostics) (code : String) : Decidable (ds.Reports code) :=
  inferInstanceAs (Decidable (∃ n ∈ ds, n.code = code))

theorem Diagnostics.reports_iff {ds : Diagnostics} {code : String} :
    ds.Reports code ↔ ds.under code ≠ [] := by
  simp [Reports, under, List.filter_eq_nil_iff]

/-- The findings about identifiers are those about all marked fields of a declaration. -/
structure Diagnostics.ExactFor (ds : Diagnostics) (d : EntityDeclaration) : Prop where
  missing : ds.Reports "MISSING_ID" ↔ d.marked = []
  several : ds.Reports "MULTIPLE_IDS" ↔ 2 ≤ d.marked.length

namespace Build

open Noted

variable {d : EntityDeclaration} {strict : Bool} {code : String}

/-! ## Fields -/

theorem isId_fieldAttributes (entity name : String) (g : FieldDeclaration) :
    (Attribute.fieldAttributes entity name g.attributes).value.storage.isId = g.isMarked := by
  simp only [Attribute.fieldAttributes, Attribute.given, value_bind, FieldDeclaration.isMarked]
  cases Value.lookup "id" g.attributes with
  | none => rfl
  | some v => rcases v with _ | (_ | _) | _ | _ | _ | _ | _ <;> rfl

/-- A field is read exactly when its type can be, and keeps its name and its mark. -/
theorem field_cases (entity : String) (g : FieldDeclaration) :
    (g.isReadable = false ∧ (field entity g).value = none) ∨
      (g.isReadable = true ∧ ∃ f, (field entity g).value = some f ∧
        f.name = g.name.getD "" ∧ f.isId = g.isMarked) := by
  have hid := isId_fieldAttributes entity (g.name.getD "") g
  simp only [field, value_bind, FieldDeclaration.isReadable]
  cases FieldType.parse g.type with
  | error fault => exact Or.inl ⟨rfl, rfl⟩
  | ok type => exact Or.inr ⟨rfl, _, rfl, rfl, hid⟩

/-- The identifiers among the fields that are read are the marked ones whose types can be read. -/
theorem names_identifiers (entity : String) (gs : List FieldDeclaration) :
    ((collect (field entity) gs).value.filter Field.isId).map Field.name =
      ((gs.filter FieldDeclaration.isMarked).filter FieldDeclaration.isReadable).map
        fun g => g.name.getD "" := by
  rw [value_collect]
  induction gs with
  | nil => rfl
  | cons g gs ih =>
    obtain ⟨hread, hvalue⟩ | ⟨hread, f, hvalue, hname, hid⟩ := field_cases entity g
    · cases hmark : g.isMarked <;> simp [hvalue, hmark, hread, ih]
    · cases hmark : g.isMarked <;> simp [hvalue, hid, hmark, hread, hname, ih]

theorem names_identifiers_parts : ((parts d strict).value.fields.filter Field.isId).map Field.name =
    d.seen.map fun g => g.name.getD "" := by
  rw [fields_parts]
  exact names_identifiers d.name _

/-! ## Findings -/

/-- The codes of what can be found about references. -/
def referenceCodes : List String := "PROJECTION_EMPTY" :: danglingCodes

theorem coded_references {known : String → Bool} (hcode : code ∈ referenceCodes)
    (message : String → String) (context : String → Context) (names : List String) :
    (each (fun n => if known n then pure () else dangling strict code (message n) (context n))
      names).Coded referenceCodes := by
  refine coded_each (fun n => ?_) names
  cases known n with
  | true => exact coded_pure _
  | false => exact (coded_note _).mpr hcode

theorem coded_projection (entity : String) (known : List String) (p : Projection) :
    (projection entity known strict p).Coded referenceCodes := by
  rw [projection, coded_bind]
  refine ⟨coded_references (by decide) _ _ _, ?_⟩
  dsimp only
  split
  · simp [referenceCodes]
  · exact coded_pure _

theorem coded_index (entity : String) (fields : List Field) (i : CompositeIndex) :
    (index entity fields strict i).Coded referenceCodes := by
  rw [index, coded_bind]
  exact ⟨coded_references (by decide) _ _ _, coded_pure _⟩

theorem coded_command (entity : String) (known : List String) (c : Command) :
    (command entity known strict c).Coded referenceCodes := by
  rw [command, coded_bind]
  exact ⟨coded_references (by decide) _ _ _, coded_pure _⟩

/-- What is found under a code that neither attributes, fields, tables nor references have is found
about the identifier. -/
theorem under_parts_identifier (hfields : code ∉ fieldCodes) (htable : code ≠ "MISSING_TABLE")
    (hreferences : code ∉ referenceCodes) :
    Diagnostics.under code (parts d strict).notes =
      Diagnostics.under code (identifier d.name (parts d strict).value.fields).notes := by
  have hattributes : code ∉ Attribute.codes := fun h => hfields (List.mem_cons_of_mem _ h)
  rw [notes_parts]
  simp only [Diagnostics.under_append, under_tableFindings htable,
    (Attribute.coded_entityAttributes _ _).under_eq_nil hattributes,
    (coded_collect (coded_field _) _).under_eq_nil hfields,
    (coded_collect (coded_projection _ _) _).under_eq_nil hreferences,
    (coded_collect (coded_index _ _) _).under_eq_nil hreferences,
    (coded_collect (coded_command _ _) _).under_eq_nil hreferences,
    List.nil_append, List.append_nil]

/-- Once the shape is right, all that validation does not find is found about the parts. -/
theorem under_findings (h : (shape d).Clean) (hvalidation : code ∉ Validation.codes) :
    Diagnostics.under code (findings strict d) =
      Diagnostics.under code (parts d strict).notes := by
  by_cases hp : (parts d strict).Clean
  · obtain ⟨e, he, -⟩ := complete_of_clean_parts hp
    have hnotes : findings strict d = (parts d strict).notes ++ (Validation.entity e).notes := by
      rw [findings, build_of_clean_parts h hp he]
      dsimp only
      split_ifs <;> rfl
    rw [hnotes, Diagnostics.under_append, (Validation.coded_entity e).under_eq_nil hvalidation,
      List.append_nil]
  · rw [findings, build_of_not_clean_parts h hp]

/-! ## Identifiers -/

/-- The finding that no field identifies an entity. -/
def missingIdentifier (entity : String) : Diagnostic :=
  ⟨.error, "MISSING_ID", s!"Entity '{entity}' has no identifier field; mark exactly " ++
    "one field with 'id: true'.", [("entity", .text entity)]⟩

/-- The finding that several fields identify an entity, of which there are the names. -/
def severalIdentifiers (entity : String) (names : List String) : Diagnostic :=
  let listed := ", ".intercalate names
  ⟨.error, "MULTIPLE_IDS",
    s!"Entity '{entity}' has {names.length} identifier fields ({listed}); " ++
      "exactly one is allowed.", [("entity", .text entity), ("fields", .text listed)]⟩

/-- What is found about the identifier, by the names of the fields that identify. -/
def identifierFindings (entity : String) : List String → Diagnostics
  | [] => [missingIdentifier entity]
  | [_] => []
  | names => [severalIdentifiers entity names]

theorem notes_identifier (entity : String) (fields : List Field) :
    (identifier entity fields).notes =
      identifierFindings entity ((fields.filter Field.isId).map Field.name) := by
  rw [identifier]
  rcases fields.filter Field.isId with _ | ⟨f, _ | ⟨g, fs⟩⟩
  · rfl
  · rfl
  · simp only [List.map_cons, identifierFindings, severalIdentifiers, List.length_cons,
      List.length_map]
    rfl

theorem reports_missing_iff {entity : String} {names : List String} :
    (identifierFindings entity names).Reports "MISSING_ID" ↔ names = [] := by
  rcases names with _ | ⟨n, _ | ⟨m, names⟩⟩ <;>
    simp [identifierFindings, Diagnostics.Reports, missingIdentifier, severalIdentifiers]

theorem reports_several_iff {entity : String} {names : List String} :
    (identifierFindings entity names).Reports "MULTIPLE_IDS" ↔ 2 ≤ names.length := by
  rcases names with _ | ⟨n, _ | ⟨m, names⟩⟩ <;>
    simp [identifierFindings, Diagnostics.Reports, missingIdentifier, severalIdentifiers]

/-- The codes of what can be found about the identifier. -/
def identifierCodes : List String := ["MISSING_ID", "MULTIPLE_IDS"]

/-- What is found about the identifier of a declaration of the right shape is found about the marked
fields that are seen. -/
theorem under_identifierFindings (h : (shape d).Clean) (hcode : code ∈ identifierCodes) :
    Diagnostics.under code (findings strict d) = Diagnostics.under code
      (identifierFindings d.name (d.seen.map fun g => g.name.getD "")) := by
  have hapart : ∀ c ∈ identifierCodes, c ∉ Validation.codes ∧ c ∉ fieldCodes ∧
      c ≠ "MISSING_TABLE" ∧ c ∉ referenceCodes := by decide
  obtain ⟨hvalidation, hfields, htable, hreferences⟩ := hapart code hcode
  rw [under_findings h hvalidation, under_parts_identifier hfields htable hreferences,
    notes_identifier, names_identifiers_parts]

/-- What is reported about the identifier speaks of the marked fields that are seen. -/
theorem reports_identifier_iff (h : (shape d).Clean) (strict : Bool) :
    ((findings strict d).Reports "MISSING_ID" ↔ d.seen = []) ∧
      ((findings strict d).Reports "MULTIPLE_IDS" ↔ 2 ≤ d.seen.length) := by
  constructor
  · rw [Diagnostics.reports_iff, under_identifierFindings h (by decide), ← Diagnostics.reports_iff,
      reports_missing_iff, List.map_eq_nil_iff]
  · rw [Diagnostics.reports_iff, under_identifierFindings h (by decide), ← Diagnostics.reports_iff,
      reports_several_iff, List.length_map]

/-- A fault of a type hides nothing when no marked field has one, or two are left without. -/
theorem seen_iff_marked : ((d.seen = [] ↔ d.marked = []) ∧
    (2 ≤ d.seen.length ↔ 2 ≤ d.marked.length)) ↔
      (∀ f ∈ d.marked, f.isReadable = true) ∨ 2 ≤ d.seen.length := by
  have hle : d.seen.length ≤ d.marked.length := List.length_filter_le _ _
  have hall : d.seen.length = d.marked.length ↔ ∀ f ∈ d.marked, f.isReadable = true :=
    List.length_filter_eq_length_iff
  rw [← hall, ← List.length_eq_zero_iff, ← List.length_eq_zero_iff]
  omega

/-- The findings about the identifier of a declaration of the right shape are those about the marked
fields whose types can be read. They are those about all marked fields exactly when all their types
can be read, or those of two of them at least. -/
theorem identifier_findings_exact_iff (h : (shape d).Clean) (strict : Bool) :
    (∀ code ∈ identifierCodes, Diagnostics.under code (findings strict d) = Diagnostics.under code
      (identifierFindings d.name (d.seen.map fun g => g.name.getD ""))) ∧
    ((findings strict d).ExactFor d ↔
      (∀ f ∈ d.marked, f.isReadable = true) ∨ 2 ≤ d.seen.length) := by
  refine ⟨fun code hcode => under_identifierFindings h hcode, ?_⟩
  obtain ⟨hmissing, hseveral⟩ := reports_identifier_iff h strict
  rw [← seen_iff_marked]
  constructor
  · intro hexact
    exact ⟨hmissing.symm.trans hexact.missing, hseveral.symm.trans hexact.several⟩
  · rintro ⟨hnone, htwo⟩
    exact ⟨hmissing.trans hnone, hseveral.trans htwo⟩

/-- A badge with two identifiers and faults of other kinds: a dialect that there is not, no table, a
filter that there is not, and a type that cannot be read. -/
def badge : EntityDeclaration where
  name := "Badge"
  attributes := [(.text "dialect", .text "oracle")]
  fields := some [
    { name := "id", type := "Uuid", attributes := [(.text "id", .bool true)] },
    { name := "code", type := "String",
      attributes := [(.text "id", .null), (.text "filter", .text "fuzzy")] },
    { name := "label", type := "Option<i32" }]

/-- Both identifiers of the badge are found, beside its other faults. -/
theorem identifier_findings_exact_badge :
    (shape badge).Clean ∧ (findings false badge).ExactFor badge ∧
    (findings false badge).map Diagnostic.code = ["INVALID_DIALECT", "INVALID_FILTER",
      "INVALID_TYPE", "MISSING_TABLE", "MULTIPLE_IDS"] := by
  have h : (shape badge).Clean := by decide
  exact ⟨h, (identifier_findings_exact_iff h false).2.mpr (Or.inr (by decide +kernel)),
    by decide +kernel⟩

/-- A badge with a table and an identifier whose type cannot be read, and some other fields. -/
def unreadableBadge (others : List FieldDeclaration) : EntityDeclaration where
  name := "Badge"
  attributes := [(.text "table", .text "badges")]
  fields := some ({ name := "id", type := "Vec<i32", attributes := [(.text "id", .bool true)] } ::
    others)

/-- The identifier of the badge is missed although it is marked; and with another beside it, nothing
is found about there being two. -/
theorem identifier_findings_inexact_badge :
    ((shape (unreadableBadge [])).Clean ∧
      (findings false (unreadableBadge [])).map Diagnostic.code = ["INVALID_TYPE", "MISSING_ID"] ∧
      ¬ (findings false (unreadableBadge [])).ExactFor (unreadableBadge [])) ∧
    ∃ other, (shape (unreadableBadge [other])).Clean ∧
      (findings false (unreadableBadge [other])).map Diagnostic.code = ["INVALID_TYPE"] ∧
      ¬ (findings false (unreadableBadge [other])).ExactFor (unreadableBadge [other]) := by
  constructor
  · refine ⟨by decide, by decide +kernel, fun h => ?_⟩
    have hmarked := h.missing.mp (by decide +kernel)
    exact absurd (congrArg List.length hmarked) (by decide)
  · refine ⟨{ name := "code", type := "Uuid", attributes := [(.text "id", .null)] }, by decide,
      by decide +kernel, fun h => ?_⟩
    exact absurd (h.several.mpr (by decide)) (by decide +kernel)

end Build

end EntityForge
