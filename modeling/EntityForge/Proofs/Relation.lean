import EntityForge.Postgres.Migration
import EntityForge.Proofs.Build
import EntityForge.Proofs.Document
import EntityForge.Proofs.Statement

/-!
# Where relations lead

A foreign key and the lookups along a relation are made from the name of the related entity alone.
In a document without findings they reach the table of that entity by its name, but in the schema
of the entity that refers to it: the two are one table exactly when both entities have one schema.
The column is fixed as well, `id` for a parent and the column named after the entity for a child,
whatever columns the related entity has.
-/

namespace EntityForge

/-! ## Names of related entities -/

namespace Attribute

/-- The entity that a relation names is a name. -/
theorem relation_isName {value : Value} {site : Site} {s : String}
    (h : (relation value site).value.1 = some s) : Text.isName s.toList = true := by
  cases value with
  | text t =>
    simp only [relation, Noted.value_bind, Noted.value_pure] at h
    exact name_isName h
  | map entries =>
    simp only [relation] at h
    split at h
    · simp only [Noted.value_bind, Noted.value_pure] at h
      exact name_isName h
    · simp [relation.refuse] at h
  | _ => simp [relation, relation.refuse] at h

/-- The entity that the attributes of a field name is a name. -/
theorem fieldAttributes_belongsTo {entity field : String} {entries : Entries} {s : String}
    (h : (fieldAttributes entity field entries).value.storage.belongsTo = some s) :
    Text.isName s.toList = true := by
  revert h
  exact given_induction
    (P := fun x : Noted (Option String × Option ReferentialAction) => x.value.1 = some s → _)
    (by simp) fun v => relation_isName

/-- What is read as names are names. -/
theorem names_isName {key : String} {site : Site} {vs : List Value} {ns : List String}
    (h : (names key site vs).value = some ns) : ∀ n ∈ ns, Text.isName n.toList = true := by
  induction vs generalizing ns with
  | nil =>
    obtain rfl : [] = ns := Option.some.inj h
    exact List.forall_mem_nil _
  | cons v vs ih =>
    simp only [names, Noted.value_bind] at h
    split at h
    · simp at h
    · rename_i n hn
      simp only [Noted.value_bind, Noted.value_pure, Option.map_eq_some_iff] at h
      obtain ⟨rest, hrest, rfl⟩ := h
      exact List.forall_mem_cons.mpr ⟨name_isName hn, ih hrest⟩

theorem nameList_isName {value : Value} {key : String} {site : Site} {ns : List String}
    (h : (nameList value key site).value = some ns) : ∀ n ∈ ns, Text.isName n.toList = true := by
  cases value with
  | text t => exact names_isName h
  | list items => exact names_isName h
  | _ => simp [nameList] at h

/-- The entities that the attributes of an entity name as its children are names. -/
theorem entityAttributes_hasMany {entity : String} {entries : Entries} :
    ∀ n ∈ (entityAttributes entity entries).value.hasMany, Text.isName n.toList = true := by
  refine present_induction
    (P := fun x : Noted (Option (List String)) =>
      ∀ n ∈ x.value.getD [], Text.isName n.toList = true)
    (by simp) fun v => ?_
  cases h : (nameList v "has_many" (entitySite entity)).value with
  | none => simp
  | some ns => exact nameList_isName h

end Attribute

namespace Build

/-- The entity that a field of an entity refers to is a name. -/
theorem parent_isName_of_build {d : EntityDeclaration} {strict : Bool} {e : Entity}
    {notes : Diagnostics} (h : build d strict = .ok (e, notes)) {f : Field} (hf : f ∈ e.fields)
    {s : String} (hs : f.storage.belongsTo = some s) : Text.isName s.toList = true := by
  obtain ⟨he, -, -⟩ := of_build_eq_ok h
  rw [(madeFrom_of_assemble? he).fields] at hf
  obtain ⟨g, -, hg⟩ := mem_parts_fields hf
  simp only [field, Noted.value_bind] at hg
  split at hg
  · obtain rfl := Option.some.inj hg
    exact Attribute.fieldAttributes_belongsTo hs
  · simp at hg

/-- The children of an entity are names. -/
theorem child_isName_of_build {d : EntityDeclaration} {strict : Bool} {e : Entity}
    {notes : Diagnostics} (h : build d strict = .ok (e, notes)) :
    ∀ child ∈ e.hasMany, Text.isName child.toList = true := by
  obtain ⟨he, -, -⟩ := of_build_eq_ok h
  have hmany : e.hasMany = (parts d strict).value.attributes.hasMany := by
    unfold assemble? at he
    split at he
    · obtain rfl := Option.some.inj he
      rfl
    · simp at he
  rw [hmany, attributes_parts]
  exact Attribute.entityAttributes_hasMany

end Build

namespace Postgres

variable {e : Entity}

/-! ## Lookups along relations -/

section Lookups

variable {l : String × Statement} {step : Lookups → String × Statement → Lookups}

/-- Where entries of one name are equal, nothing is lost by keeping one of them. -/
theorem mem_foldl_lookups_iff (entry : String → String × Statement) {targets : List String}
    (hstep : ∀ ls m l, l ∈ step ls m → l ∈ ls ∨ l = m)
    (hnames : ∀ n ls m, n ∈ (step ls m).map Prod.fst ↔ n ∈ ls.map Prod.fst ∨ n = m.1)
    (hone : ∀ x y, (entry x).1 = (entry y).1 → entry x = entry y) :
    l ∈ (targets.map entry).foldl step [] ↔ ∃ x ∈ targets, entry x = l := by
  have hsub (m : String × Statement) (hm : m ∈ (targets.map entry).foldl step []) :
      ∃ x ∈ targets, entry x = m :=
    List.mem_map.mp ((mem_foldl_lookups hstep hm).resolve_left List.not_mem_nil)
  constructor
  · exact hsub l
  · rintro ⟨x, hx, rfl⟩
    have hname : (entry x).1 ∈ ((targets.map entry).foldl step []).map Prod.fst :=
      (names_foldl_lookups (hnames _)).mpr (Or.inr (List.mem_map_of_mem (List.mem_map_of_mem hx)))
    -- Some entry is kept under the name of this one; being an entry too, it is equal to it.
    obtain ⟨m, hm, hmx⟩ := List.mem_map.mp hname
    obtain ⟨y, -, rfl⟩ := hsub m hm
    rwa [hone x y hmx.symm]

end Lookups

/-- The selection of all columns of a table by one of them. -/
def selectBy (table column : String) : Statement :=
  .select { columns := [], table := table, conditions := [.equals column 1] }

/-- The lookup of a parent with its name. -/
def parentEntry (e : Entity) (parent : String) : String × Statement :=
  (Entity.parentLookup parent, selectBy (e.relatedTable parent) "id")

/-- The lookup of children with its name. -/
def childEntry (e : Entity) (child : String) : String × Statement :=
  (Entity.childLookup child, selectBy (e.relatedTable child) e.childColumn)

/-- Parents with one lookup have one table. -/
theorem parentEntry_congr {x y : String} (h : (parentEntry e x).1 = (parentEntry e y).1) :
    parentEntry e x = parentEntry e y := by
  have hname : Text.snakeCase x = Text.snakeCase y := (String.append_right_inj _).mp h
  have htable : e.relatedTable x = e.relatedTable y := by
    rw [Entity.relatedTable, Entity.relatedTable, relationTable, relationTable, hname]
  exact Prod.ext h (by rw [parentEntry, parentEntry, htable])

theorem childEntry_congr {x y : String} (h : (childEntry e x).1 = (childEntry e y).1) :
    childEntry e x = childEntry e y := by
  have hname : relationTable x = relationTable y := (String.append_right_inj _).mp h
  have htable : e.relatedTable x = e.relatedTable y := by
    rw [Entity.relatedTable, Entity.relatedTable, hname]
  exact Prod.ext h (by rw [childEntry, childEntry, htable])

/-- Every parent of an entity has its lookup, though lookups of one name are kept only once. -/
theorem mem_parentLookups {l : String × Statement} :
    l ∈ parentLookups e ↔ ∃ x ∈ e.relationFields.map Field.parent, parentEntry e x = l := by
  have hentries : (e.relationFields.map fun f => parentEntry e f.parent) =
      (e.relationFields.map Field.parent).map (parentEntry e) := by
    rw [List.map_map]
    rfl
  rw [← mem_foldl_lookups_iff (parentEntry e) (fun _ _ _ => mem_addLookup)
    (fun _ _ _ => names_addLookup) (fun _ _ => parentEntry_congr), ← hentries]
  rfl

/-- Every child of an entity has its lookup. -/
theorem mem_childLookups {l : String × Statement} :
    l ∈ childLookups e ↔ ∃ x ∈ e.hasMany, childEntry e x = l :=
  mem_foldl_lookups_iff (childEntry e) (fun _ _ _ => mem_putLookup)
    (fun _ _ _ => names_putLookup) (fun _ _ => childEntry_congr)

/-- A name stands for one statement among lookups and for no other. -/
def StandsFor (lookups : Lookups) (name : String) (s : Statement) : Prop :=
  ∀ t, (name, t) ∈ lookups ↔ t = s

/-- Among entries that their names tell apart, the name of an entry stands for its statement. -/
theorem standsFor_entry {entry : String → String × Statement} {targets : List String}
    {lookups : Lookups} (hmem : ∀ {l}, l ∈ lookups ↔ ∃ x ∈ targets, entry x = l)
    (hone : ∀ {x y}, (entry x).1 = (entry y).1 → entry x = entry y) {x : String}
    (hx : x ∈ targets) : StandsFor lookups (entry x).1 (entry x).2 := by
  intro t
  rw [hmem]
  constructor
  · rintro ⟨y, -, hy⟩
    have hname : (entry y).1 = (entry x).1 := by rw [hy]
    exact congrArg Prod.snd (hy.symm.trans (hone hname))
  · rintro rfl
    exact ⟨x, hx, rfl⟩

theorem standsFor_parentLookup {parent : String}
    (h : parent ∈ e.relationFields.map Field.parent) :
    StandsFor (parentLookups e) (Entity.parentLookup parent)
      (selectBy (e.relatedTable parent) "id") :=
  standsFor_entry mem_parentLookups parentEntry_congr h

theorem standsFor_childLookup {child : String} (h : child ∈ e.hasMany) :
    StandsFor (childLookups e) (Entity.childLookup child)
      (selectBy (e.relatedTable child) e.childColumn) :=
  standsFor_entry mem_childLookups childEntry_congr h

/-! ## Tables -/

/-- A table has the name of an entity's table, but in a schema of its own: it is the entity's
table exactly if the schemas agree. -/
structure NamedAfter (schema table : String) (target : Entity) : Prop where
  eq : table = schema ++ "." ++ target.table
  eq_fullTable_iff : table = target.fullTable ↔ schema = target.schema

/-- A relation to an entity that is stored under its name uses that name in its own schema. -/
theorem namedAfter_relatedTable {target : Entity} {name : String}
    (h : target.table = relationTable name) :
    NamedAfter e.schema (e.relatedTable name) target := by
  have htable : e.relatedTable name = e.schema ++ "." ++ target.table := by
    rw [h]
    rfl
  have hfull : target.fullTable = target.schema ++ "." ++ target.table := rfl
  refine ⟨htable, ?_⟩
  rw [htable, hfull, String.append_left_inj, String.append_left_inj]

/-- A field that refers to an entity has a reference to its table. -/
theorem reference_of_parent {f : Field} (hf : f.isRelation = true) (hne : f.parent ≠ "") :
    (column e f).reference = some ⟨e.relatedTable f.parent, f.storage.onDelete⟩ := by
  obtain ⟨parent, hp⟩ := Option.isSome_iff_exists.mp hf
  have hparent : f.parent = parent := by rw [Field.parent, hp, Option.getD_some]
  have hnonEmpty : nonEmpty? f.storage.belongsTo = some parent := by
    rw [hp, nonEmpty?, Option.filter_some, if_pos]
    simpa [hparent] using hne
  change reference e f = _
  rw [reference, hnonEmpty, hparent]
  rfl

/-- The written reference names the column `id`. -/
theorem reference_text (r : Reference) :
    ∃ action, r.text = "REFERENCES " ++ r.table ++ "(id)" ++ action :=
  ⟨_, rfl⟩

/-- The only entity of a document with a name. -/
def IsNamed (es : List Entity) (name : String) (target : Entity) : Prop :=
  ∀ other, (other ∈ es ∧ other.name = name) ↔ other = target

/-- In a document without findings, every target of an entity is the name of just one entity, which
is stored under that name. -/
theorem exists_isNamed {es : List Entity} (h : Validation.Related es) {e : Entity} (he : e ∈ es)
    {target : String × String} (ht : target ∈ Validation.targets e) :
    ∃ other, IsNamed es target.1 other ∧ NamedAfter e.schema (e.relatedTable target.1) other := by
  obtain ⟨other, hmem, hname, htable⟩ := h.target e he target ht
  refine ⟨other, fun another => ⟨?_, ?_⟩, namedAfter_relatedTable htable⟩
  · rintro ⟨ha, hn⟩
    exact List.inj_on_of_nodup_map h.names_nodup ha hmem (hn.trans hname.symm)
  · rintro rfl
    exact ⟨hmem, hname⟩

theorem parent_mem_targets {f : Field} (hf : f ∈ e.relationFields) :
    (f.parent, f.name) ∈ Validation.targets e :=
  List.mem_append_left _ (List.mem_map.mpr ⟨f, hf, rfl⟩)

theorem child_mem_targets {child : String} (h : child ∈ e.hasMany) :
    (child, "has_many") ∈ Validation.targets e :=
  List.mem_append_right _ (List.mem_map.mpr ⟨child, h, rfl⟩)

/-- The way from an entity to the one that a field refers to: the foreign key and the lookup use one
table, and in it the column `id`. -/
structure ParentPath (es : List Entity) (e : Entity) (f : Field) (target : Entity)
    (table : String) : Prop where
  named : IsNamed es f.parent target
  namedAfter : NamedAfter e.schema table target
  reference : ∃ r, (column e f).reference = some r ∧ r.table = table ∧
    ∃ action, r.text = "REFERENCES " ++ table ++ "(id)" ++ action
  lookup : StandsFor (parentLookups e) (Entity.parentLookup f.parent) (selectBy table "id")

/-- The way from an entity to those that refer to it, by the column named after it. -/
structure ChildPath (es : List Entity) (e : Entity) (child : String) (target : Entity)
    (table : String) : Prop where
  named : IsNamed es child target
  namedAfter : NamedAfter e.schema table target
  lookup : StandsFor (childLookups e) (Entity.childLookup child)
    (selectBy table (Text.snakeCase e.name ++ "_id"))

/-- The relations of an entity lead to the tables and columns that the related entities have. -/
def Aligned (es : List Entity) (e : Entity) : Prop :=
  (∀ f ∈ e.relationFields, ∀ target ∈ es, target.name = f.parent →
    (column e f).reference.map Reference.table = some target.fullTable ∧
      (Entity.parentLookup f.parent, selectBy target.fullTable "id") ∈ parentLookups e ∧
      target.idField.columnName = "id") ∧
  ∀ child ∈ e.hasMany, ∀ target ∈ es, target.name = child →
    (Entity.childLookup child, selectBy target.fullTable e.childColumn) ∈ childLookups e ∧
      e.childColumn ∈ target.columnNames

instance (es : List Entity) (e : Entity) : Decidable (Aligned es e) :=
  inferInstanceAs (Decidable (_ ∧ _))

/-- What lets the relations of an entity lead where they should: one schema, and columns with the
names that are taken for granted. -/
def Conventional (es : List Entity) (e : Entity) : Prop :=
  (∀ f ∈ e.relationFields, ∀ target ∈ es, target.name = f.parent →
    e.schema = target.schema ∧ target.idField.columnName = "id") ∧
  ∀ child ∈ e.hasMany, ∀ target ∈ es, target.name = child →
    e.schema = target.schema ∧ e.childColumn ∈ target.columnNames

theorem selectBy_table_inj {table other column : String} :
    selectBy table column = selectBy other column ↔ table = other := by
  constructor
  · intro h
    exact congrArg Select.table (Statement.select.inj h)
  · rintro rfl
    rfl

section Paths

variable {es : List Entity}

theorem exists_parentPath (h : Validation.Related es) (he : e ∈ es) {f : Field}
    (hf : f ∈ e.relationFields) (hne : f.parent ≠ "") :
    ∃ target table, ParentPath es e f target table := by
  obtain ⟨target, hnamed, hafter⟩ := exists_isNamed h he (parent_mem_targets hf)
  have hreference := reference_of_parent (List.mem_filter.mp hf).2 hne (e := e)
  have hlookup := standsFor_parentLookup (List.mem_map_of_mem (f := Field.parent) hf)
  obtain ⟨action, htext⟩ := reference_text ⟨e.relatedTable f.parent, f.storage.onDelete⟩
  exact ⟨target, _, hnamed, hafter, ⟨_, hreference, rfl, action, htext⟩, hlookup⟩

theorem exists_childPath (h : Validation.Related es) (he : e ∈ es) {child : String}
    (hc : child ∈ e.hasMany) : ∃ target table, ChildPath es e child target table := by
  obtain ⟨target, hnamed, hafter⟩ := exists_isNamed h he (child_mem_targets hc)
  exact ⟨target, _, hnamed, hafter, standsFor_childLookup hc⟩

/-- Relations lead where they should exactly if schemas and columns follow the convention. -/
theorem aligned_iff_conventional
    (hparents : ∀ f ∈ e.relationFields, ∃ target table, ParentPath es e f target table)
    (hchildren : ∀ child ∈ e.hasMany, ∃ target table, ChildPath es e child target table) :
    Aligned es e ↔ Conventional es e := by
  refine and_congr (forall₂_congr fun f hf => ?_) (forall₂_congr fun child hc => ?_)
  · obtain ⟨target, table, hpath⟩ := hparents f hf
    refine forall₂_congr fun other ho => forall_congr' fun hn => ?_
    obtain rfl : other = target := (hpath.named other).mp ⟨ho, hn⟩
    obtain ⟨r, hr, htable, -⟩ := hpath.reference
    rw [hr, Option.map_some, Option.some_inj, htable, hpath.lookup, selectBy_table_inj,
      eq_comm (a := other.fullTable), hpath.namedAfter.eq_fullTable_iff, ← and_assoc, and_self]
  · obtain ⟨target, table, hpath⟩ := hchildren child hc
    refine forall₂_congr fun other ho => forall_congr' fun hn => ?_
    obtain rfl : other = target := (hpath.named other).mp ⟨ho, hn⟩
    rw [hpath.lookup _, Entity.childColumn, Entity.snakeName, selectBy_table_inj,
      eq_comm (a := other.fullTable), hpath.namedAfter.eq_fullTable_iff]

end Paths

/-- In a document on which validation finds nothing, every relation leads to the one entity with
its name, by a table of that entity's name in the schema of the referring entity and by a column
that is fixed. It is the table and column that the related entity has exactly by convention. -/
theorem relations_lead_to_namesakes {doc : Document}
    (h : (Validation.document doc.built doc.config.strictReferences).Quiet) {e : Entity}
    (he : e ∈ doc.built) :
    (∀ f ∈ e.relationFields, ∃ target table, ParentPath doc.built e f target table) ∧
      (∀ child ∈ e.hasMany, ∃ target table, ChildPath doc.built e child target table) ∧
      (Aligned doc.built e ↔ Conventional doc.built e) := by
  have hrelated := Validation.quiet_document.mp h
  obtain ⟨d, -, notes, hb⟩ := Document.mem_built.mp he
  have hparents : ∀ f ∈ e.relationFields,
      ∃ target table, ParentPath doc.built e f target table := by
    intro f hf
    obtain ⟨hmem, hrel⟩ := List.mem_filter.mp hf
    obtain ⟨parent, hp⟩ := Option.isSome_iff_exists.mp hrel
    have hparent : f.parent = parent := by rw [Field.parent, hp, Option.getD_some]
    have hname := Build.parent_isName_of_build hb hmem hp
    exact exists_parentPath hrelated he hf (hparent ▸ Attribute.ne_empty_of_isName hname)
  have hchildren : ∀ child ∈ e.hasMany,
      ∃ target table, ChildPath doc.built e child target table :=
    fun child hc => exists_childPath hrelated he hc
  exact ⟨hparents, hchildren, aligned_iff_conventional hparents hchildren⟩

/-- Two entities in two schemas, related both ways, with columns of names of their own. -/
def libraryDocument : Document where
  entities := [
    { name := "Author"
      attributes := [(.text "table", .text "authors"), (.text "schema", .text "auth"),
        (.text "has_many", .list [.text "Post"]), (.text "migrations", .bool true)]
      fields := some [
        { name := some "id", type := "uuid"
          attributes := [(.text "id", .bool true),
            (.text "column", .map [(.text "name", .text "author_key")])] }] },
    { name := "Post"
      attributes := [(.text "table", .text "posts"), (.text "migrations", .bool true)]
      fields := some [
        { name := some "id", type := "uuid", attributes := [(.text "id", .bool true)] },
        { name := some "writer", type := "uuid"
          attributes := [(.text "belongs_to", .text "Author")] }] }]

/-- Nothing is found about the library; the relations of both its entities are followed. -/
theorem relations_lead_to_namesakes_library :
    libraryDocument.built.map Entity.name = ["Author", "Post"] ∧
      (Validation.document libraryDocument.built false).Quiet ∧
      (∃ e ∈ libraryDocument.built, ∃ f ∈ e.relationFields,
        ∃ target table, ParentPath libraryDocument.built e f target table) ∧
      ∃ e ∈ libraryDocument.built, ∃ child ∈ e.hasMany,
        ∃ target table, ChildPath libraryDocument.built e child target table := by
  have hquiet : (Validation.document libraryDocument.built false).Quiet := by decide +kernel
  obtain ⟨e, he, f, hf⟩ : ∃ e ∈ libraryDocument.built, ∃ f ∈ e.relationFields, True := by
    decide +kernel
  obtain ⟨e', he', child, hc⟩ : ∃ e ∈ libraryDocument.built, ∃ child ∈ e.hasMany, True := by
    decide +kernel
  exact ⟨by decide +kernel, hquiet,
    ⟨e, he, f, hf.1, (relations_lead_to_namesakes hquiet he).1 f hf.1⟩,
    ⟨e', he', child, hc.1, (relations_lead_to_namesakes hquiet he').2.1 child hc.1⟩⟩

/-- Nothing is found about the library, but no relation in it leads to the table it should. -/
theorem relations_miss_library :
    (Validation.document libraryDocument.built false).Quiet ∧
      libraryDocument.built.length = libraryDocument.entities.length ∧
      ∀ e ∈ libraryDocument.built, ¬ Aligned libraryDocument.built e := by
  decide +kernel

end Postgres

end EntityForge
