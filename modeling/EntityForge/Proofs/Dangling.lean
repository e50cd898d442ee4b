import EntityForge.Proofs.Listing
import EntityForge.Proofs.Strictness

/-!
# What a lenient build drops

A lenient build drops the names that stand for nothing and goes on. Of a projection and a command it
keeps the names of fields, of an index the columns that its names stand for, always in the order
declared; a projection or an index of which nothing is kept is dropped as a whole. There is one
finding for each name that is dropped, as often as it is written, and one for each projection that
is; an index that is dropped has none of its own, since there are those for its names.
-/

namespace EntityForge

theorem flatMap_const_nil {α β : Type} (as : List α) : (as.flatMap fun _ => ([] : List β)) = [] :=
  List.flatMap_eq_nil_iff.mpr fun _ _ => rfl

/-- One thing for each item that is looked for. -/
theorem flatMap_if {α β : Type} (p : α → Bool) (f : α → β) (as : List α) :
    (as.flatMap fun a => if p a then [f a] else []) = (as.filter p).map f := by
  induction as with
  | nil => rfl
  | cons a as ih =>
    rw [List.flatMap_cons, ih]
    cases h : p a <;> simp [h]

/-! ## Findings under one code -/

/-- The findings under a code, in the order in which they were made. -/
def Diagnostics.under (code : String) (ds : Diagnostics) : Diagnostics :=
  ds.filter fun d => d.code == code

namespace Diagnostics

variable {code : String}

@[simp] theorem under_nil : under code [] = [] := rfl

@[simp] theorem under_append (xs ys : Diagnostics) :
    under code (xs ++ ys) = under code xs ++ under code ys :=
  List.filter_append xs ys

@[simp] theorem under_cons (d : Diagnostic) (ds : Diagnostics) :
    under code (d :: ds) = if d.code = code then d :: under code ds else under code ds := by
  simp [under, List.filter_cons]

/-- Findings with one code are all under it, and none of them under another. -/
theorem under_map {α : Type} {f : α → Diagnostic} {own : String} (h : ∀ a, (f a).code = own)
    (as : List α) : under code (as.map f) = if own = code then as.map f else [] := by
  induction as with
  | nil => simp
  | cons a as ih =>
    rw [List.map_cons, under_cons, ih, h a]
    split <;> rfl

end Diagnostics

namespace Noted

variable {α β : Type} {code : String} {own : List String}

/-- What has other codes finds nothing under a code. -/
theorem Coded.under_eq_nil {x : Noted α} (h : x.Coded own) (hc : code ∉ own) :
    Diagnostics.under code x.notes = [] := by
  refine List.filter_eq_nil_iff.mpr fun d hd heq => hc ?_
  exact beq_iff_eq.mp heq ▸ h d hd

/-- What is found under a code about items is what is found about each of them. -/
theorem under_collect (f : α → Noted (Option β)) (as : List α) :
    Diagnostics.under code (collect f as).notes =
      as.flatMap fun a => Diagnostics.under code (f a).notes := by
  rw [notes_collect, Diagnostics.under, List.filter_flatMap]
  rfl

end Noted

/-! ## What names stand for -/

namespace Entity

variable (e : Entity)

/-- The entity has a field of the name. -/
def hasField (name : String) : Bool := (e.fields.map Field.name).contains name

/-- The column that a name stands for in an index: a column for itself, any other name for the
column of the field that it names. -/
def columnOf? (name : String) : Option String :=
  if name ∈ e.columnNames then some name else (e.field? name).map Field.columnName

/-- What is left of a declared projection: the names of fields, or nothing if it has none. -/
def leftOfProjection (p : Projection) : Option Projection :=
  match p.fields.filter e.hasField with
  | [] => none
  | known => some { p with fields := known }

/-- What is left of a declared index: the columns that its names stand for, or nothing if they stand
for none. -/
def leftOfIndex (i : CompositeIndex) : Option CompositeIndex :=
  match i.columns.filterMap e.columnOf? with
  | [] => none
  | columns => some { i with columns }

/-- What is left of a declared command, which is never dropped. -/
def leftOfCommand (c : Command) : Command := { c with fields := c.fields.filter e.hasField }

end Entity

namespace Build

open Noted

/-! ## What is found about names that are dropped -/

/-- A projection names a field that is not there. -/
def unknownProjectionField (entity : String) (p : Projection) (name : String) : Diagnostic where
  severity := .warning
  code := "PROJECTION_FIELD_UNKNOWN"
  message := s!"Projection '{p.name}' of '{entity}' names unknown field '{name}'; it is dropped."
  context := [("entity", .text entity), ("projection", .text p.name), ("field", .text name)]

/-- A projection is dropped. -/
def emptyProjection (entity : String) (p : Projection) : Diagnostic where
  severity := .warning
  code := "PROJECTION_EMPTY"
  message := s!"Projection '{p.name}' of '{entity}' has no known fields and will not be generated."
  context := [("entity", .text entity), ("projection", .text p.name)]

/-- An index names a column that is not there. -/
def unknownIndexColumn (entity : String) (i : CompositeIndex) (name : String) : Diagnostic :=
  let listed := ", ".intercalate i.columns
  { severity := .warning
    code := "INDEX_COLUMN_UNKNOWN"
    message := s!"Index on '{entity}' ({listed}) names unknown column '{name}'; it is dropped."
    context := [("entity", .text entity), ("column", .text name)] }

/-- A command names a field that is not there. -/
def unknownCommandField (entity : String) (c : Command) (name : String) : Diagnostic where
  severity := .warning
  code := "COMMAND_FIELD_UNKNOWN"
  message := s!"Command '{c.name}' of '{entity}' names unknown field '{name}'; it is dropped."
  context := [("entity", .text entity), ("command", .text c.name), ("field", .text name)]

section Code

variable (code entity : String) (names : List String)

@[simp] theorem under_unknownProjectionField (p : Projection) :
    Diagnostics.under code (names.map (unknownProjectionField entity p)) =
      if "PROJECTION_FIELD_UNKNOWN" = code then names.map (unknownProjectionField entity p)
      else [] :=
  Diagnostics.under_map (f := unknownProjectionField entity p) (fun _ => rfl) names

@[simp] theorem under_unknownIndexColumn (i : CompositeIndex) :
    Diagnostics.under code (names.map (unknownIndexColumn entity i)) =
      if "INDEX_COLUMN_UNKNOWN" = code then names.map (unknownIndexColumn entity i) else [] :=
  Diagnostics.under_map (f := unknownIndexColumn entity i) (fun _ => rfl) names

@[simp] theorem under_unknownCommandField (c : Command) :
    Diagnostics.under code (names.map (unknownCommandField entity c)) =
      if "COMMAND_FIELD_UNKNOWN" = code then names.map (unknownCommandField entity c) else [] :=
  Diagnostics.under_map (f := unknownCommandField entity c) (fun _ => rfl) names

@[simp] theorem code_emptyProjection (p : Projection) :
    (emptyProjection entity p).code = "PROJECTION_EMPTY" := rfl

end Code

/-! ## Single declarations -/

/-- Of names that are looked up one after another, each that is not known is found. -/
theorem notes_references (known : String → Bool) (code : String) (message : String → String)
    (context : String → Context) (names : List String) :
    (each (fun n => if known n then pure () else dangling false code (message n) (context n))
        names).notes =
      (names.filter fun n => !known n).map fun n => ⟨.warning, code, message n, context n⟩ := by
  rw [notes_each, ← flatMap_if]
  refine congrArg (names.flatMap ·) (funext fun n => ?_)
  cases known n <;> rfl

variable {e : Entity}

/-- Where the names of fields are distinct, a name stands for one column. -/
theorem columnFor?_eq (h : (e.fields.map Field.name).Nodup) :
    columnFor? e.fields = e.columnOf? := by
  funext n
  have hcolumn : (e.fields.any fun f => f.columnName == n) = true ↔ n ∈ e.columnNames := by
    simp [Entity.columnNames]
  rw [columnFor?, Entity.columnOf?, find?_reverse_of_nodup h, Entity.field?]
  by_cases hn : n ∈ e.columnNames
  · rw [if_pos (hcolumn.mpr hn), if_pos hn]
  · rw [if_neg fun hany => hn (hcolumn.mp hany), if_neg hn]

/-- A name that is a column stands for itself, and any other for the column of its field. -/
theorem columnOf?_eq_some_iff (h : (e.fields.map Field.name).Nodup) {name column : String} :
    e.columnOf? name = some column ↔ (name ∈ e.columnNames ∧ column = name) ∨
      (name ∉ e.columnNames ∧ ∃ f ∈ e.fields, f.name = name ∧ f.columnName = column) := by
  rw [Entity.columnOf?]
  by_cases hn : name ∈ e.columnNames
  · simp [hn, eq_comm]
  · rw [if_neg hn, Option.map_eq_some_iff]
    constructor
    · rintro ⟨f, hf, rfl⟩
      have hname : (f.name == name) = true := @List.find?_some _ _ f _ hf
      exact .inr ⟨hn, f, List.mem_of_find?_eq_some hf, beq_iff_eq.mp hname, rfl⟩
    · rintro (⟨hm, -⟩ | ⟨-, f, hf, rfl, rfl⟩)
      · exact absurd hm hn
      · exact ⟨f, find?_of_nodup h hf, rfl⟩

theorem value_projection (p : Projection) :
    (projection e.name (e.fields.map Field.name) false p).value = e.leftOfProjection p := by
  have hknown : p.fields.filter (e.fields.map Field.name).contains = p.fields.filter e.hasField :=
    rfl
  simp only [projection, value_bind, hknown, Entity.leftOfProjection]
  cases p.fields.filter e.hasField <;> rfl

theorem notes_projection (p : Projection) :
    (projection e.name (e.fields.map Field.name) false p).notes =
      (p.fields.filter fun n => !e.hasField n).map (unknownProjectionField e.name p) ++
        if (e.leftOfProjection p).isNone then [emptyProjection e.name p] else [] := by
  have hknown : p.fields.filter (e.fields.map Field.name).contains = p.fields.filter e.hasField :=
    rfl
  rw [projection, notes_bind]
  refine congrArg₂ (· ++ ·) (notes_references e.hasField _ _ _ p.fields) ?_
  dsimp only
  rw [hknown, Entity.leftOfProjection]
  cases p.fields.filter e.hasField <;> rfl

theorem value_index (h : (e.fields.map Field.name).Nodup) (i : CompositeIndex) :
    (index e.name e.fields false i).value = e.leftOfIndex i := by
  simp only [index, value_bind, value_pure, columnFor?_eq h, Entity.leftOfIndex]
  cases i.columns.filterMap e.columnOf? <;> rfl

theorem notes_index (h : (e.fields.map Field.name).Nodup) (i : CompositeIndex) :
    (index e.name e.fields false i).notes =
      (i.columns.filter fun n => !(e.columnOf? n).isSome).map (unknownIndexColumn e.name i) := by
  rw [index, notes_bind, notes_pure, List.append_nil, columnFor?_eq h]
  exact notes_references (fun n => (e.columnOf? n).isSome) _ _ _ i.columns

theorem value_command (c : Command) :
    (command e.name (e.fields.map Field.name) false c).value = some (e.leftOfCommand c) := rfl

theorem notes_command (c : Command) :
    (command e.name (e.fields.map Field.name) false c).notes =
      (c.fields.filter fun n => !e.hasField n).map (unknownCommandField e.name c) := by
  rw [command, notes_bind, notes_pure, List.append_nil]
  exact notes_references e.hasField _ _ _ c.fields

/-! ## The whole declaration -/

variable {d : EntityDeclaration} {strict : Bool} {code : String}

theorem under_tableFindings (h : code ≠ "MISSING_TABLE") :
    Diagnostics.under code (tableFindings d) = [] := by
  rw [tableFindings]
  split
  · simp [Noted.error, Noted.note, h.symm]
  · rfl

/-- What is found under a code of references is found where they are resolved. -/
theorem under_parts (h : code ∉ partCodes) :
    Diagnostics.under code (parts d strict).notes =
      Diagnostics.under code
        (collect (projection d.name ((parts d strict).value.fields.map Field.name) strict)
          (parts d strict).value.attributes.projections).notes ++
      Diagnostics.under code
        (collect (index d.name (parts d strict).value.fields strict)
          (parts d strict).value.attributes.indexes).notes ++
      Diagnostics.under code
        (collect (command d.name ((parts d strict).value.fields.map Field.name) strict)
          (parts d strict).value.attributes.commands).notes := by
  have hattributes :=
    (Attribute.coded_entityAttributes d.name d.attributes).mono attributeCodes_subset
  have hfields := (coded_collect (coded_field d.name) (d.fields.getD [])).mono fieldCodes_subset
  have htable : Diagnostics.under code (tableFindings d) = [] :=
    under_tableFindings fun hc => h (hc ▸ by simp [partCodes])
  simp only [notes_parts, Diagnostics.under_append, hattributes.under_eq_nil h,
    hfields.under_eq_nil h, htable, (coded_identifier _ _).under_eq_nil h, List.nil_append]

/-- What a lenient build makes of the references of a declaration, and what it finds about those
that it drops. -/
structure Resolves (d : EntityDeclaration) (declared : Attribute.EntityAttributes) (e : Entity)
    (notes : Diagnostics) : Prop where
  writtenProjections : declared.projections = Attribute.writtenProjections d.attributes
  writtenIndexes : declared.indexes.map CompositeIndex.columns =
    Attribute.writtenIndexes d.attributes
  writtenCommands : declared.commands.map (fun c => (c.name, c.fields)) =
    Attribute.writtenCommands d.attributes
  projections : e.projections = declared.projections.filterMap e.leftOfProjection
  columns : ∀ name column, e.columnOf? name = some column ↔
    (name ∈ e.columnNames ∧ column = name) ∨
      (name ∉ e.columnNames ∧ ∃ f ∈ e.fields, f.name = name ∧ f.columnName = column)
  indexes : e.indexes = declared.indexes.filterMap e.leftOfIndex
  commands : e.commands = declared.commands.map e.leftOfCommand
  projectionFields : notes.under "PROJECTION_FIELD_UNKNOWN" = declared.projections.flatMap fun p =>
    (p.fields.filter fun n => !e.hasField n).map (unknownProjectionField e.name p)
  emptyProjections : notes.under "PROJECTION_EMPTY" =
    (declared.projections.filter fun p => (e.leftOfProjection p).isNone).map
      (emptyProjection e.name)
  indexColumns : notes.under "INDEX_COLUMN_UNKNOWN" = declared.indexes.flatMap fun i =>
    (i.columns.filter fun n => (e.columnOf? n).isNone).map (unknownIndexColumn e.name i)
  commandFields : notes.under "COMMAND_FIELD_UNKNOWN" = declared.commands.flatMap fun c =>
    (c.fields.filter fun n => !e.hasField n).map (unknownCommandField e.name c)

variable {notes : Diagnostics}

/-- What a lenient build finds under a code of references is found about the declared ones. -/
theorem under_references (code : String) (h : build d false = .ok (e, notes))
    (hparts : code ∉ partCodes) (hvalidation : code ∉ Validation.codes) :
    let declared := (Attribute.entityAttributes d.name d.attributes).value
    notes.under code =
      (declared.projections.flatMap fun p => Diagnostics.under code
        ((p.fields.filter fun n => !e.hasField n).map (unknownProjectionField e.name p)) ++
        if (e.leftOfProjection p).isNone then
          Diagnostics.under code [emptyProjection e.name p] else []) ++
      (declared.indexes.flatMap fun i => Diagnostics.under code
        ((i.columns.filter fun n => !(e.columnOf? n).isSome).map
          (unknownIndexColumn e.name i))) ++
      (declared.commands.flatMap fun c => Diagnostics.under code
        ((c.fields.filter fun n => !e.hasField n).map (unknownCommandField e.name c))) := by
  have hnames := (consistent_of_build h).fieldNames_nodup
  obtain ⟨-, -, he, -, rfl⟩ := build_eq_ok_iff.mp h
  have hm := madeFrom_of_assemble? he
  rw [Diagnostics.under_append, (Validation.coded_entity e).under_eq_nil hvalidation,
    List.append_nil, under_parts hparts, attributes_parts, ← hm.fields, ← hm.name, under_collect,
    under_collect, under_collect]
  simp only [notes_projection, notes_index hnames, notes_command, Diagnostics.under_append,
    apply_ite (Diagnostics.under code), Diagnostics.under_nil]

/-- A lenient build keeps of every reference what stands for something, and records a finding for
every other one. -/
theorem lenient_build_exact (h : build d false = .ok (e, notes)) :
    Resolves d (Attribute.entityAttributes d.name d.attributes).value e notes := by
  have hnames := (consistent_of_build h).fieldNames_nodup
  obtain ⟨-, hparts, he, -, -⟩ := build_eq_ok_iff.mp h
  have hm := madeFrom_of_assemble? he
  have hclean : (Attribute.entityAttributes d.name d.attributes).Clean := by
    rw [parts, clean_bind] at hparts
    exact hparts.1
  obtain ⟨hprojections, hindexes, hcommands⟩ := Attribute.listing_entityAttributes hclean
  have hfields : e.fields = (collect (field d.name) (d.fields.getD [])).value :=
    hm.fields.trans fields_parts
  constructor
  case writtenProjections => exact hprojections
  case writtenIndexes => exact hindexes
  case writtenCommands => exact hcommands
  case projections =>
    rw [hm.projections, value_parts]
    dsimp only
    rw [← hfields, ← hm.name, value_collect]
    simp only [value_projection]
  case columns => exact fun _ _ => columnOf?_eq_some_iff hnames
  case indexes =>
    rw [hm.indexes, value_parts]
    dsimp only
    rw [← hfields, ← hm.name, value_collect]
    simp only [value_index hnames]
  case commands =>
    rw [hm.commands, value_parts]
    dsimp only
    rw [← hfields, ← hm.name, value_collect]
    simp only [value_command]
    exact congrFun (List.filterMap_eq_map (f := e.leftOfCommand)) _
  case projectionFields =>
    simpa [flatMap_const_nil] using
      under_references "PROJECTION_FIELD_UNKNOWN" h (by decide) (by decide)
  case emptyProjections =>
    rw [← flatMap_if]
    simpa [flatMap_const_nil] using
      under_references "PROJECTION_EMPTY" h (by decide) (by decide)
  case indexColumns =>
    simpa [flatMap_const_nil] using
      under_references "INDEX_COLUMN_UNKNOWN" h (by decide) (by decide)
  case commandFields =>
    simpa [flatMap_const_nil] using
      under_references "COMMAND_FIELD_UNKNOWN" h (by decide) (by decide)

/-- A review whose references dangle and repeat, with a field named like the column of another. -/
def reviewDeclaration : EntityDeclaration where
  name := "Review"
  attributes := [(.text "table", .text "reviews"),
    (.text "projections", .map [(.text "Card", .list [.text "title", .text "ghost", .text "title"]),
      (.text "Shade", .list [.text "ghost", .text "ghost"])]),
    (.text "indexes", .list [
      .map [(.text "columns", .list [.text "slug", .text "ghost", .text "title", .text "body"]),
        (.text "unique", .bool true)],
      .map [(.text "columns", .text "ghost")]]),
    (.text "commands", .list [.text "Open",
      .map [(.text "name", .text "Retitle"), (.text "fields", .list [.text "ghost", .text "title"])],
      .map [(.text "name", .text "Haunt"), (.text "fields", .text "ghost")]])]
  fields := some [
    { name := some "id", type := "uuid", attributes := [(.text "id", .bool true)] },
    { name := some "title", type := "string"
      attributes := [(.text "column", .map [(.text "name", .text "headline")])] },
    { name := some "slug", type := "string"
      attributes := [(.text "column", .map [(.text "name", .text "title")])] },
    { name := some "body", type := "string" }]

theorem lenient_build_exact_review : ∃ e notes,
    build reviewDeclaration false = .ok (e, notes) ∧
    Resolves reviewDeclaration
      (Attribute.entityAttributes reviewDeclaration.name reviewDeclaration.attributes).value
      e notes ∧
    e.projections = [⟨"Card", ["title", "title"]⟩] ∧
    e.indexes = [{ columns := ["title", "title", "body"], unique := true }] ∧
    e.commands.map (fun c => (c.name, c.fields)) =
      [("Open", []), ("Retitle", ["title"]), ("Haunt", [])] := by
  obtain ⟨e, notes, hb, hleft⟩ := exists_of_build reviewDeclaration false
    (fun e => decide (e.projections = [⟨"Card", ["title", "title"]⟩] ∧
      e.indexes = [{ columns := ["title", "title", "body"], unique := true }] ∧
      e.commands.map (fun c => (c.name, c.fields)) =
        [("Open", []), ("Retitle", ["title"]), ("Haunt", [])])) (by decide +kernel)
  exact ⟨e, notes, hb, lenient_build_exact hb, of_decide_eq_true hleft⟩

end Build

end EntityForge
