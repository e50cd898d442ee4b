import EntityForge.Build.Basic
import EntityForge.Proofs.Reference
import EntityForge.Proofs.Validation

/-!
# What a build guarantees

A build ends in one of two ways: with findings of which at least one is an error, or with an
entity, consistent in itself, and findings of which none is. There is no third way: every part is
complete when it is made, and parts without an error have a table and exactly one identifier, so
that an entity can always be assembled from them.
-/

namespace EntityForge

/-- A field type with a base and the text it was read from. -/
def FieldType.Complete (t : FieldType) : Prop := t.raw ≠ "" ∧ t.base ≠ ""

/-- A field with a name, a complete type and no greatest length of zero. -/
def Field.Complete (f : Field) : Prop :=
  f.name ≠ "" ∧ f.type.Complete ∧ f.column.width ≠ some 0

/-- An entity with a table, a schema and fields. -/
structure Entity.Complete (e : Entity) : Prop where
  table : e.table ≠ ""
  schema : e.schema ≠ ""
  fields : e.fields ≠ []

/-- The parts of an entity agree with each other. -/
structure Entity.Consistent (e : Entity) : Prop where
  identifier : ∀ i, (∃ f, e.fields[i]? = some f ∧ f.isId = true) ↔ i = e.idIndex
  fieldNames_nodup : (e.fields.map Field.name).Nodup
  columnNames_nodup : e.columnNames.Nodup
  projection_fields : ∀ p ∈ e.projections, p.fields ≠ [] ∧
    ∀ n ∈ p.fields, n ∈ e.fields.map Field.name
  index_columns : ∀ i ∈ e.indexes, i.columns ≠ [] ∧ ∀ c ∈ i.columns, c ∈ e.columnNames
  command_fields : ∀ c ∈ e.commands, ∀ n ∈ c.fields, n ∈ e.fields.map Field.name
  commandNames_nodup : (e.commands.map Command.name).Nodup
  indexNames_nodup : e.indexNames.Nodup

theorem BaseType.name_ne_empty (b : BaseType) : b.name ≠ "" := by
  cases b <;> decide

/-- The names of an entity hold no character with a meaning of its own. -/
structure Entity.Plain (e : Entity) : Prop where
  table : Text.Plain e.table
  schema : Text.Plain e.schema
  fieldName : ∀ f ∈ e.fields, Text.Plain f.name
  columnName : ∀ f ∈ e.fields, Text.Plain f.columnName

/-- A field type that can be read is complete. -/
theorem FieldType.parse_complete {raw : String} {t : FieldType} (h : parse raw = .ok t) :
    t.Complete := by
  simp only [parse] at h
  split at h
  · simp at h
  · rename_i hraw
    have hne : String.ofList (Text.trim raw.toList) ≠ "" := by simpa using hraw
    split at h
    · simp at h
    · split at h
      · rename_i b _
        obtain rfl := Except.ok.inj h
        exact ⟨hne, b.name_ne_empty⟩
      · split at h
        · simp at h
        · rename_i hb
          obtain rfl := Except.ok.inj h
          exact ⟨hne, by simpa using hb⟩

theorem BaseType.ofName?_name (b : BaseType) : ofName? b.name = some b := by
  cases b <;> decide

/-- The base of a field type that can be read is a custom one or the name of a base type. -/
theorem FieldType.parse_isDangling {raw : String} {t : FieldType} (h : parse raw = .ok t) :
    t.isDangling = false := by
  simp only [parse] at h
  split at h
  · simp at h
  · split at h
    · simp at h
    · split at h
      · obtain rfl := Except.ok.inj h
        simp [isDangling, BaseType.ofName?_name]
      · split at h
        · simp at h
        · obtain rfl := Except.ok.inj h
          rfl

/-- There are as many identifiers as fields that identify. -/
theorem length_identifierIndexes (fields : List Field) :
    (identifierIndexes fields).length = (fields.filter Field.isId).length := by
  have h : fields.filter Field.isId =
      (fields.zipIdx.filter fun p => p.1.isId).map Prod.fst := by
    conv => lhs; rw [← List.zipIdx_map_fst 0 fields]
    exact List.filter_map
  rw [identifierIndexes, h, List.length_map, List.length_map]

namespace Build

open Noted

/-- A declaration of the right shape has fields, and a name for each of them. -/
theorem fields_of_clean_shape {d : EntityDeclaration} (h : (shape d).Clean) :
    ∀ f ∈ d.fields.getD [], f.name.getD "" ≠ "" := by
  unfold shape at h
  split at h
  · simp at h
  · split at h
    · simp at h
    · rename_i fields _ _ hf
      rw [hf, Option.getD_some]
      simp only [namedFields, clean_each] at h
      intro f hm hn
      obtain ⟨i, hi, rfl⟩ := List.mem_iff_getElem.mp hm
      have hc := h (fields[i], i) (List.mem_zipIdx_iff_getElem?.mpr (by simp))
      simp [hn] at hc
    · simp at h

/-- No finding about the identifier is made exactly when there is one identifier. -/
theorem clean_identifier {entity : String} {fields : List Field} :
    (identifier entity fields).Clean ↔ ∃ i, identifierIndexes fields = [i] := by
  rw [← List.length_eq_one_iff, length_identifierIndexes, List.length_eq_one_iff, identifier]
  split
  · rename_i f h
    simp [h]
  · rename_i h
    simp [h]
  · rename_i fs hone hnil
    simpa using hone

/-- A field is complete if its declaration has a name. -/
theorem field_complete {entity : String} {d : FieldDeclaration} {f : Field}
    (hd : d.name.getD "" ≠ "") (h : (field entity d).value = some f) : f.Complete := by
  simp only [field, value_bind] at h
  split at h
  · rename_i t ht
    obtain rfl := Option.some.inj h
    exact ⟨hd, FieldType.parse_complete ht, Attribute.fieldAttributes_width⟩
  · simp at h

/-- The type of a field is one that was read. -/
theorem field_isDangling {entity : String} {d : FieldDeclaration} {f : Field}
    (h : (field entity d).value = some f) : f.type.isDangling = false := by
  simp only [field, value_bind] at h
  split at h
  · rename_i t ht
    obtain rfl := Option.some.inj h
    exact FieldType.parse_isDangling ht
  · simp at h

/-- The column that a field is given by a hint is a name. -/
theorem field_columnName {entity : String} {d : FieldDeclaration} {f : Field}
    (h : (field entity d).value = some f) {s : String} (hs : f.column.name = some s) :
    Text.isName s.toList = true := by
  simp only [field, value_bind] at h
  split at h
  · obtain rfl := Option.some.inj h
    exact Attribute.fieldAttributes_columnName hs
  · simp at h

/-! ## Parts -/

/-- Every part can be made: what its class demands of it holds. -/
structure Parts.Complete (p : Parts) : Prop where
  declaredProjections : ∀ q ∈ p.attributes.projections, q.Complete
  declaredIndexes : ∀ i ∈ p.attributes.indexes, i.Complete
  declaredCommands : ∀ c ∈ p.attributes.commands, c.Complete
  fields : ∀ f ∈ p.fields, f.Complete
  projections : ∀ q ∈ p.projections, q.Complete
  indexes : ∀ i ∈ p.indexes, i.Complete
  commands : ∀ c ∈ p.commands, c.Complete

variable {d : EntityDeclaration} {strict : Bool}

/-- What the parts are, whether or not a table is written. -/
theorem value_parts :
    (parts d strict).value =
      let attributes := (Attribute.entityAttributes d.name d.attributes).value
      let fields := (collect (field d.name) (d.fields.getD [])).value
      ⟨attributes, fields,
        (collect (projection d.name (fields.map Field.name) strict) attributes.projections).value,
        (collect (index d.name fields strict) attributes.indexes).value,
        (collect (command d.name (fields.map Field.name) strict) attributes.commands).value⟩ := by
  simp only [parts, value_bind]
  split <;> rfl

theorem attributes_parts : (parts d strict).value.attributes =
    (Attribute.entityAttributes d.name d.attributes).value := by
  rw [value_parts]

theorem fields_parts :
    (parts d strict).value.fields = (collect (field d.name) (d.fields.getD [])).value := by
  rw [value_parts]

/-- What is found about the table of a declaration. -/
def tableFindings (d : EntityDeclaration) : Diagnostics :=
  if (Value.lookup "table" d.attributes).isNone then
    (Noted.error "MISSING_TABLE" s!"Entity '{d.name}' requires a 'table' attribute."
      [("entity", .text d.name)]).notes
  else []

/-- What is found about the parts, stage by stage. -/
theorem notes_parts : (parts d strict).notes =
    (Attribute.entityAttributes d.name d.attributes).notes ++
    (collect (field d.name) (d.fields.getD [])).notes ++ tableFindings d ++
    (identifier d.name (parts d strict).value.fields).notes ++
    (collect (projection d.name ((parts d strict).value.fields.map Field.name) strict)
      (parts d strict).value.attributes.projections).notes ++
    (collect (index d.name (parts d strict).value.fields strict)
      (parts d strict).value.attributes.indexes).notes ++
    (collect (command d.name ((parts d strict).value.fields.map Field.name) strict)
      (parts d strict).value.attributes.commands).notes := by
  rw [attributes_parts, fields_parts]
  simp only [parts, notes_bind, tableFindings, List.append_assoc]
  split <;> simp only [notes_bind, notes_pure, List.append_nil, List.nil_append]

/-- A field of the parts is made from a declared field. -/
theorem mem_parts_fields {f : Field} (h : f ∈ (parts d strict).value.fields) :
    ∃ g ∈ d.fields.getD [], (field d.name g).value = some f := by
  rw [fields_parts] at h
  exact mem_value_collect.mp h

/-- A projection of the parts is a declared one, and is left with known fields. -/
theorem mem_parts_projections {q : Projection} (h : q ∈ (parts d strict).value.projections) :
    (∃ p ∈ (parts d strict).value.attributes.projections, q.name = p.name) ∧ q.fields ≠ [] ∧
      ∀ n ∈ q.fields, n ∈ (parts d strict).value.fields.map Field.name := by
  rw [value_parts] at h ⊢
  obtain ⟨p, hp, hv⟩ := mem_value_collect.mp h
  obtain ⟨hn, hne, hk⟩ := projection_spec hv
  exact ⟨⟨p, hp, hn⟩, hne, hk⟩

/-- An index of the parts is left with columns of the fields. -/
theorem mem_parts_indexes {i : CompositeIndex} (h : i ∈ (parts d strict).value.indexes) :
    i.columns ≠ [] ∧ ∀ c ∈ i.columns, c ∈ (parts d strict).value.fields.map Field.columnName := by
  rw [value_parts] at h ⊢
  obtain ⟨j, -, hv⟩ := mem_value_collect.mp h
  exact index_spec hv

/-- An index of the parts keeps the name of a declared one. -/
theorem name_of_mem_parts_indexes {i : CompositeIndex} (h : i ∈ (parts d strict).value.indexes) :
    ∃ j ∈ (parts d strict).value.attributes.indexes, i.name = j.name := by
  rw [value_parts] at h ⊢
  obtain ⟨j, hj, hv⟩ := mem_value_collect.mp h
  exact ⟨j, hj, index_name hv⟩

/-- A command of the parts is a declared one without the fields that are not known. -/
theorem mem_parts_commands {c : Command} (h : c ∈ (parts d strict).value.commands) :
    ∃ c' ∈ (parts d strict).value.attributes.commands, c = { c' with
      fields := c'.fields.filter ((parts d strict).value.fields.map Field.name).contains } := by
  rw [value_parts] at h ⊢
  obtain ⟨c', hc, hv⟩ := mem_value_collect.mp h
  rw [command_value] at hv
  exact ⟨c', hc, (Option.some.inj hv).symm⟩

/-- Parts without an error come from clean attributes, with a table and an identifier. -/
theorem of_clean_parts (h : (parts d strict).Clean) :
    (parts d strict).value.attributes.table ≠ none ∧
      ∃ i, identifierIndexes (parts d strict).value.fields = [i] := by
  rw [attributes_parts, fields_parts]
  simp only [parts, clean_bind] at h
  obtain ⟨ha, -, h⟩ := h
  split at h
  · simp at h
  · rename_i ht
    simp only [clean_bind] at h
    refine ⟨Attribute.entityAttributes_table_of_clean ha ((Bool.not_eq_true _).mp ht), ?_⟩
    exact clean_identifier.mp h.1

/-- The parts of a declaration of the right shape are complete, whatever is found about them. -/
theorem parts_complete (h : (shape d).Clean) : (parts d strict).value.Complete := by
  have declaredProjections : ∀ q ∈ (parts d strict).value.attributes.projections, q.Complete := by
    rw [attributes_parts]
    exact Attribute.entityAttributes_projections
  have declaredIndexes : ∀ i ∈ (parts d strict).value.attributes.indexes, i.Complete := by
    rw [attributes_parts]
    exact Attribute.entityAttributes_indexes
  have declaredCommands : ∀ c ∈ (parts d strict).value.attributes.commands, c.Complete := by
    rw [attributes_parts]
    exact Attribute.entityAttributes_commands
  refine ⟨declaredProjections, declaredIndexes, declaredCommands, fun f hf => ?_, fun q hq => ?_,
    fun i hi => (mem_parts_indexes hi).1, fun c hc => ?_⟩
  · obtain ⟨g, hg, hv⟩ := mem_parts_fields hf
    exact field_complete (fields_of_clean_shape h g hg) hv
  · obtain ⟨⟨p, hp, hn⟩, -⟩ := mem_parts_projections hq
    rw [Projection.Complete, hn]
    exact declaredProjections p hp
  · obtain ⟨c', hc', rfl⟩ := mem_parts_commands hc
    exact declaredCommands c' hc'

/-! ## Assembly -/

/-- An assembled entity is made of the parts, under the name of its declaration. -/
structure MadeFrom (d : EntityDeclaration) (p : Parts) (e : Entity) : Prop where
  name : e.name = d.name
  table : p.attributes.table = some e.table
  schema : e.schema = p.attributes.schema
  fields : e.fields = p.fields
  projections : e.projections = p.projections
  indexes : e.indexes = p.indexes
  commands : e.commands = p.commands

theorem madeFrom_of_assemble? {p : Parts} {e : Entity} (h : assemble? d p = some e) :
    MadeFrom d p e := by
  unfold assemble? at h
  split at h
  · rename_i table i ht _
    obtain rfl := Option.some.inj h
    exact ⟨rfl, ht, rfl, rfl, rfl, rfl, rfl⟩
  · simp at h

/-- With a table and an identifier an entity can be assembled. -/
theorem exists_assemble? {p : Parts} (ht : p.attributes.table ≠ none)
    (hi : ∃ i, identifierIndexes p.fields = [i]) : ∃ e, assemble? d p = some e := by
  obtain ⟨table, ht⟩ := Option.ne_none_iff_exists'.mp ht
  obtain ⟨i, hi⟩ := hi
  unfold assemble?
  split
  · exact ⟨_, rfl⟩
  · rename_i hnone
    exact absurd hi (hnone table i ht)

/-- Parts without an error make up an entity that can be made. -/
theorem complete_of_clean_parts (h : (parts d strict).Clean) :
    ∃ e, assemble? d (parts d strict).value = some e ∧ e.Complete := by
  obtain ⟨ht, hi⟩ := of_clean_parts h
  obtain ⟨e, he⟩ := exists_assemble? ht hi
  have hm := madeFrom_of_assemble? he
  refine ⟨e, he, ?_, ?_, List.ne_nil_of_length_pos (Nat.zero_lt_of_lt e.idIndex_lt)⟩
  · have := hm.table
    rw [attributes_parts] at this
    exact Attribute.ne_empty_of_isName (Attribute.entityAttributes_table this)
  · rw [hm.schema, attributes_parts]
    exact Attribute.ne_empty_of_isName Attribute.entityAttributes_schema

/-! ## The outcome -/

theorem build_of_not_clean_shape (h : ¬ (shape d).Clean) :
    build d strict = .error ⟨d.name, (shape d).notes⟩ := by
  rw [not_clean_iff] at h
  simp only [build, h, if_true]

theorem build_of_not_clean_parts (hs : (shape d).Clean) (h : ¬ (parts d strict).Clean) :
    build d strict = .error ⟨d.name, (parts d strict).notes⟩ := by
  have hs : Diagnostics.hasErrors (shape d).notes = false := hs
  rw [not_clean_iff] at h
  simp only [build, hs, h, Bool.false_eq_true, if_false]

/-- Once an entity is assembled, its validation decides. -/
theorem build_of_clean_parts {e : Entity} (hs : (shape d).Clean) (hp : (parts d strict).Clean)
    (he : assemble? d (parts d strict).value = some e) :
    build d strict =
      let findings := (parts d strict).notes ++ (Validation.entity e).notes
      if Diagnostics.hasErrors findings then .error ⟨d.name, findings⟩ else .ok (e, findings) := by
  have hs : Diagnostics.hasErrors (shape d).notes = false := hs
  have hp : Diagnostics.hasErrors (parts d strict).notes = false := hp
  simp only [build, hs, hp, he, Bool.false_eq_true, if_false]

/-- What a build that ends with an entity went through. -/
theorem of_build_eq_ok {e : Entity} {notes : Diagnostics} (h : build d strict = .ok (e, notes)) :
    assemble? d (parts d strict).value = some e ∧ e.Valid ∧
      Diagnostics.hasErrors notes = false := by
  by_cases hs : (shape d).Clean
  · by_cases hp : (parts d strict).Clean
    · obtain ⟨e', he, -⟩ := complete_of_clean_parts hp
      rw [build_of_clean_parts hs hp he] at h
      dsimp only at h
      split at h
      · simp at h
      · rename_i hf
        obtain ⟨rfl, rfl⟩ := Prod.mk.inj (Except.ok.inj h)
        have hc := (Bool.not_eq_true _).mp hf
        rw [Diagnostics.hasErrors_append, Bool.or_eq_false_iff] at hc
        exact ⟨he, Validation.clean_entity.mp hc.2, (Bool.not_eq_true _).mp hf⟩
    · rw [build_of_not_clean_parts hs hp] at h
      simp at h
  · rw [build_of_not_clean_shape hs] at h
    simp at h

/-- An entity is built from parts without an error. -/
theorem clean_parts_of_build {e : Entity} {notes : Diagnostics}
    (hb : build d strict = .ok (e, notes)) : (parts d strict).Clean := by
  by_cases hshape : (shape d).Clean
  · by_cases hparts : (parts d strict).Clean
    · exact hparts
    · rw [build_of_not_clean_parts hshape hparts] at hb
      exact nomatch hb
  · rw [build_of_not_clean_shape hshape] at hb
    exact nomatch hb

/-- A build that ends without an entity found an error. -/
theorem of_build_eq_error {f : Failure} (h : build d strict = .error f) :
    f.entity = d.name ∧ Diagnostics.hasErrors f.findings = true := by
  by_cases hs : (shape d).Clean
  · by_cases hp : (parts d strict).Clean
    · obtain ⟨e', he, -⟩ := complete_of_clean_parts hp
      rw [build_of_clean_parts hs hp he] at h
      dsimp only at h
      split at h
      · rename_i hf
        obtain rfl := Except.error.inj h
        exact ⟨rfl, hf⟩
      · simp at h
    · rw [build_of_not_clean_parts hs hp] at h
      obtain rfl := Except.error.inj h
      exact ⟨rfl, not_clean_iff.mp hp⟩
  · rw [build_of_not_clean_shape hs] at h
    obtain rfl := Except.error.inj h
    exact ⟨rfl, not_clean_iff.mp hs⟩

/-- An entity that is built agrees with itself. -/
theorem consistent_of_build {e : Entity} {notes : Diagnostics}
    (h : build d strict = .ok (e, notes)) : e.Consistent := by
  obtain ⟨he, hv, -⟩ := of_build_eq_ok h
  have hm := madeFrom_of_assemble? he
  refine ⟨fun i => ?_, hv.fieldNames_nodup, hv.columnNames_nodup, fun p hp => ?_, fun i hi => ?_,
    fun c hc n hn => ?_, hv.commandNames_nodup, hv.indexNames_nodup⟩
  · rw [← mem_identifierIndexes, e.identifier_unique, List.mem_singleton]
  · rw [hm.projections] at hp
    rw [hm.fields]
    exact (mem_parts_projections hp).2
  · rw [hm.indexes] at hi
    rw [Entity.columnNames, hm.fields]
    exact mem_parts_indexes hi
  · rw [hm.commands] at hc
    rw [hm.fields]
    obtain ⟨c', -, rfl⟩ := mem_parts_commands hc
    exact List.contains_iff_mem.mp (List.mem_filter.mp hn).2

/-- The names of an entity that is built are plain. -/
theorem plain_of_build {e : Entity} {notes : Diagnostics} (h : build d strict = .ok (e, notes)) :
    e.Plain := by
  obtain ⟨he, hv, -⟩ := of_build_eq_ok h
  have hm := madeFrom_of_assemble? he
  have fieldName : ∀ f ∈ e.fields, Text.Plain f.name := by
    intro f hf
    have hi := hv.fieldName_isIdentifier f hf
    simp only [Source.isIdentifier, Bool.and_eq_true] at hi
    exact Text.plain_of_isNameLine hi.1
  refine ⟨?_, ?_, fieldName, fun f hf => ?_⟩
  · have ht := hm.table
    rw [attributes_parts] at ht
    exact Text.plain_of_isName (Attribute.entityAttributes_table ht)
  · rw [hm.schema, attributes_parts]
    exact Text.plain_of_isName Attribute.entityAttributes_schema
  · rw [Field.columnName]
    cases hc : nonEmpty? f.column.name with
    | none => exact fieldName f hf
    | some s =>
      rw [hm.fields] at hf
      obtain ⟨g, -, hg⟩ := mem_parts_fields hf
      exact Text.plain_of_isName (field_columnName hg (Option.filter_eq_some_iff.mp hc).1)

/-- Every type of an entity that is built has a hint. -/
theorem isDangling_of_build {e : Entity} {notes : Diagnostics}
    (h : build d strict = .ok (e, notes)) : ∀ f ∈ e.fields, f.type.isDangling = false := by
  obtain ⟨he, -, -⟩ := of_build_eq_ok h
  intro f hf
  rw [(madeFrom_of_assemble? he).fields] at hf
  obtain ⟨g, -, hg⟩ := mem_parts_fields hf
  exact field_isDangling hg

/-- What can be computed of a build that ends with an entity. -/
theorem exists_of_build (d : EntityDeclaration) (strict : Bool) (P : Entity → Bool)
    (h : (match build d strict with
      | .ok (e, _) => P e
      | .error _ => false) = true) :
    ∃ e notes, build d strict = .ok (e, notes) ∧ P e = true := by
  split at h
  · rename_i e notes hb
    exact ⟨e, notes, hb, h⟩
  · simp at h

/-- An entity with filters of every kind and lookups of every kind, whose rows are marked as
deleted. -/
def articleDeclaration : EntityDeclaration where
  name := "Article"
  attributes := [(.text "table", .text "articles"), (.text "soft_delete", .bool true),
    (.text "has_many", .list [.text "Comment", .text "Tag"]),
    (.text "projections", .map [(.text "Card", .list [.text "id", .text "title"])])]
  fields := some [
    { name := some "id", type := "uuid", attributes := [(.text "id", .bool true)] },
    { name := some "title", type := "string"
      attributes := [(.text "field", .text "create"), (.text "filter", .text "like")] },
    { name := some "author_id", type := "uuid"
      attributes := [(.text "belongs_to", .text "User"), (.text "filter", .null)] },
    { name := some "written_at", type := "datetime"
      attributes := [(.text "field", .text "update"), (.text "filter", .text "range")] }]

end Build

end EntityForge
