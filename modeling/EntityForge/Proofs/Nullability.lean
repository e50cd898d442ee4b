import EntityForge.Package.Model
import EntityForge.Package.Transfer
import EntityForge.Postgres.Migration
import EntityForge.Proofs.Build
import Mathlib.Data.List.Nodup

/-!
# Missing values

Whether a field may be without a value is said in two places: by the type that the class of the
entity declares, and by the presence clause of the column. The declared type follows the type of
the field alone, the column follows the hints on the column too. Both say the same of every field
exactly when no hint admits what the type does not, and then every row that the table can hold can
be read as an entity. The request that changes an entity sides with the column.
-/

namespace EntityForge

/-! ## Declared types -/

theorem Hint.isOptional_inLists (s : String) (n : Nat) :
    (FieldType.inLists (.name s) n).isOptional = false := by
  cases n <;> rfl

/-- A declared type is optional if the field type is, or if it is asked for. -/
theorem FieldType.isOptional_hint (t : FieldType) (optional : Bool) :
    (t.hint optional).isOptional = (t.nullable || optional) := by
  simp only [hint]
  split
  · rename_i h
    rw [h, Hint.isOptional]
  · rename_i h
    rw [Hint.isOptional_inLists, Bool.eq_false_iff.mpr h]

/-- The text begins with a letter other than that of the optional wrapper. -/
def BeginsApart (s : String) : Prop := ∃ c cs, s.toList = c :: cs ∧ c ≠ 'O'

theorem BaseType.beginsApart_valueClass (b : BaseType) : BeginsApart b.valueClass.1 := by
  cases b <;> exact ⟨_, _, rfl, by decide⟩

theorem FieldType.beginsApart_valueClass (t : FieldType) : BeginsApart t.valueClass.1 := by
  simp only [valueClass]
  split
  · exact BaseType.beginsApart_valueClass _
  · exact ⟨'A', _, rfl, by decide⟩

theorem Hint.beginsApart_inLists {s : String} (h : BeginsApart s) (n : Nat) :
    BeginsApart (FieldType.inLists (.name s) n).text := by
  cases n with
  | zero => exact h
  | succ n => exact ⟨'L', _, by simp only [FieldType.inLists, text, String.toList_append]; rfl,
      by decide⟩

/-- The written type begins like an optional one, whatever comes behind it, exactly when it is
one. -/
theorem FieldType.optional_prefix_hint (t : FieldType) (optional : Bool) (rest : List Char) :
    "Optional[".toList <+: (t.hint optional).text.toList ++ rest ↔
      (t.hint optional).isOptional = true := by
  simp only [hint]
  split
  · simp only [Hint.text, Hint.isOptional, String.toList_append, List.append_assoc]
    exact iff_of_true (List.prefix_append _ _) trivial
  · obtain ⟨c, cs, htext, hc⟩ := Hint.beginsApart_inLists t.beginsApart_valueClass t.arrayDim
    rw [Hint.isOptional_inLists, htext]
    refine iff_of_false (fun h => hc ?_) Bool.false_ne_true
    exact (List.cons_prefix_cons.mp h).1.symm

/-- Texts that agree up to a separator, which neither has before, go on alike behind it. -/
theorem separator_prefix_iff {c : Char} {a b x y : List Char} (ha : c ∉ a) (hb : c ∉ b) :
    a ++ c :: x <+: b ++ c :: y ↔ a = b ∧ x <+: y := by
  induction a generalizing b with
  | nil =>
    cases b with
    | nil => simp
    | cons d b =>
      have hd : c ≠ d := fun h => hb (h ▸ List.mem_cons_self)
      simp [List.cons_prefix_cons, hd]
  | cons d a ih =>
    have hd : d ≠ c := fun h => ha (h ▸ List.mem_cons_self)
    cases b with
    | nil => simp [List.cons_prefix_cons, hd]
    | cons d' b =>
      have ha' : c ∉ a := fun h => ha (List.mem_cons_of_mem _ h)
      have hb' : c ∉ b := fun h => hb (List.mem_cons_of_mem _ h)
      rw [List.cons_append, List.cons_append, List.cons_prefix_cons, ih ha' hb', List.cons.injEq,
        and_assoc]

/-- The declared type admits a missing value, being optional or any type at all. -/
def Hint.admitsNone : Hint → Bool
  | .name s => s == "Any"
  | .list _ => false
  | .optional _ => true

/-- A single value of a type that the generated code does not check. -/
def FieldType.isUnchecked (t : FieldType) : Bool := t.arrayDim == 0 && t.valueClass.1 == "Any"

theorem FieldType.admitsNone_hint (t : FieldType) :
    (t.hint false).admitsNone = (t.nullable || t.isUnchecked) := by
  cases hn : t.nullable with
  | true => simp [hint, hn, Hint.admitsNone]
  | false =>
    cases hd : t.arrayDim with
    | zero => simp [hint, hn, hd, inLists, Hint.admitsNone, isUnchecked]
    | succ n => simp [hint, hn, hd, inLists, Hint.admitsNone, isUnchecked]

namespace Source

/-- The declarations of attributes in a class, in order. -/
def ClassBlock.declarations (c : ClassBlock) : List String :=
  c.paragraphs.flatMap fun
    | .attributes lines => lines
    | .method _ => []

/-- Some class of the module declares the attribute with an optional type. -/
def Module.DeclaresOptional (m : Module) (name : String) : Prop :=
  ∃ c ∈ m.classes, ∃ line ∈ c.declarations, (name ++ ": Optional[").toList <+: line.toList

end Source

namespace Package

open Source

variable {d : EntityDeclaration} {strict : Bool} {e : Entity} {notes : Diagnostics} {f g : Field}

/-- A declaration begins with the name of the attribute and its type. -/
theorem text_shape (f : ShapeField) : ∃ rest, f.text = f.name ++ ": " ++ f.hint ++ rest := by
  simp only [ShapeField.text]
  split
  · exact ⟨" = Field(" ++ _ ++ ", description=" ++ _ ++ ")", by
      simp only [String.append_assoc, toString]; rfl⟩
  · exact ⟨" = " ++ _, by simp only [String.append_assoc, toString]; rfl⟩
  · exact ⟨"", by simp only [String.append_empty, toString]⟩

theorem text_shapeField (optional : Bool) (f : Field) : ∃ rest,
    (shapeField optional f).text = f.name ++ ": " ++ (f.type.hint optional).text ++ rest :=
  text_shape (shapeField optional f)

/-- The name of the attribute that a line declares. -/
def declaredName (line : String) : String := .ofList (line.toList.takeWhile (· ≠ ':'))

theorem declaredName_append {n rest : String} (h : ':' ∉ n.toList) :
    declaredName (n ++ ": " ++ rest) = n := by
  have hchars : (n ++ ": " ++ rest).toList = n.toList ++ ':' :: ' ' :: rest.toList := by
    simp only [String.toList_append, List.append_assoc]
    rfl
  rw [declaredName, hchars, Text.takeWhile_append_of_not_mem h, String.ofList_toList]

/-- Attributes are declared under their names. -/
theorem declaredNames_texts {fs : List ShapeField} (h : ∀ f ∈ fs, ':' ∉ f.name.toList) :
    (fs.map ShapeField.text).map declaredName = fs.map ShapeField.name := by
  rw [List.map_map]
  refine List.map_congr_left fun f hf => ?_
  obtain ⟨rest, htext⟩ := text_shape f
  rw [Function.comp_apply, htext, String.append_assoc]
  exact declaredName_append (h f hf)

theorem declaredNames_shapeFields (optional : Bool) {fields : List Field}
    (h : ∀ f ∈ fields, ':' ∉ f.name.toList) :
    (fields.map fun f => (shapeField optional f).text).map declaredName =
      fields.map Field.name := by
  have htexts : (fields.map fun f => (shapeField optional f).text) =
      (fields.map (shapeField optional)).map ShapeField.text := by
    rw [List.map_map]
    rfl
  rw [htexts, declaredNames_texts (List.forall_mem_map.mpr h), List.map_map]
  rfl

/-- The class of the entity declares the setting for reading it and then every field in order. -/
theorem classes_entityModule (e : Entity) : ∃ c, (entityModule e).classes = [c] ∧
    c.declarations = "model_config = ConfigDict(from_attributes=True)" ::
      e.fields.map fun f => (shapeField false f).text :=
  ⟨_, rfl, by
    simp only [ClassBlock.declarations, attributeReading, shapeAttributes, List.flatMap_cons,
      List.flatMap_nil, List.append_nil, List.singleton_append]⟩

/-- The declaration of a field begins with a name and an optional type exactly when the name is
that of the field and its type is optional. -/
theorem optional_prefix_shapeField {name : String} (hname : ':' ∉ name.toList)
    (hf : ':' ∉ f.name.toList) :
    (name ++ ": Optional[").toList <+: (shapeField false f).text.toList ↔
      name = f.name ∧ f.type.nullable = true := by
  obtain ⟨rest, hline⟩ := text_shapeField false f
  have hbegins : (name ++ ": Optional[").toList =
      name.toList ++ ':' :: ' ' :: "Optional[".toList := by
    rw [String.toList_append]; rfl
  have hgoes : (f.name ++ ": " ++ (f.type.hint false).text ++ rest).toList =
      f.name.toList ++ ':' :: ' ' :: ((f.type.hint false).text.toList ++ rest.toList) := by
    simp only [String.toList_append, List.append_assoc]; rfl
  rw [hline, hbegins, hgoes, separator_prefix_iff hname hf, List.cons_prefix_cons,
    FieldType.optional_prefix_hint, FieldType.isOptional_hint, Bool.or_false, String.toList_inj]
  simp only [true_and]

/-- The class of the entity declares a field as optional exactly when the type of the field is. -/
theorem declaresOptional_iff (hb : Build.build d strict = .ok (e, notes)) (hf : f ∈ e.fields) :
    (entityModule e).DeclaresOptional f.name ↔ f.type.nullable = true := by
  obtain ⟨c, hc, hlines⟩ := classes_entityModule e
  have hcolon : ∀ g ∈ e.fields, ':' ∉ g.name.toList := fun g hg =>
    ((Build.plain_of_build hb).fieldName g hg).not_mem (by decide)
  have hnames := (Build.consistent_of_build hb).fieldNames_nodup
  constructor
  · rintro ⟨c', hc', line, hline, hbegins⟩
    obtain rfl := List.mem_singleton.mp (hc ▸ hc')
    rw [hlines, List.mem_cons, List.mem_map] at hline
    rcases hline with rfl | ⟨g, hg, rfl⟩
    · -- The setting has no colon.
      have hmem := hbegins.subset (show ':' ∈ (f.name ++ ": Optional[").toList by simp)
      exact absurd hmem (by decide)
    · obtain ⟨hname, hnull⟩ := (optional_prefix_shapeField (hcolon f hf) (hcolon g hg)).mp hbegins
      rwa [List.inj_on_of_nodup_map hnames hf hg hname]
  · intro hnull
    refine ⟨c, hc ▸ List.mem_singleton_self c, _, ?_,
      (optional_prefix_shapeField (hcolon f hf) (hcolon f hf)).mpr ⟨rfl, hnull⟩⟩
    rw [hlines]
    exact List.mem_cons_of_mem _ (List.mem_map_of_mem hf)

end Package

namespace Postgres

variable {e : Entity} {f : Field}

/-! ## Columns -/

/-- The definition of a column says, behind its name and type, that there always is a value. -/
def Column.SaysNotNull (c : Column) : Prop := c.clauses[2]? = some "NOT NULL"

instance (c : Column) : Decidable c.SaysNotNull :=
  inferInstanceAs (Decidable (c.clauses[2]? = some "NOT NULL"))

/-- The column can be without a value. -/
def Column.admitsNull (c : Column) : Bool := !c.primaryKey && !c.notNull

/-- The clauses that can stand behind the one on presence. -/
def Column.furtherClauses (c : Column) : List String :=
  (if c.unique then ["UNIQUE"] else []) ++ (c.defaultValue.map fun d => "DEFAULT " ++ d).toList ++
    (c.constraint.map fun k => s!"CHECK ({k})").toList ++ (c.reference.map Reference.text).toList

/-- No clause behind the one on presence is mistaken for it. -/
theorem Column.notNull_not_mem_furtherClauses (c : Column) : "NOT NULL" ∉ c.furtherClauses := by
  have hfirst {s : String} (h : s.toList.head? ≠ some 'N') : s ≠ "NOT NULL" := by
    rintro rfl
    exact h rfl
  have hdefault (d : String) : "DEFAULT " ++ d ≠ "NOT NULL" := hfirst (by simp)
  have hcheck (k : String) : s!"CHECK ({k})" ≠ "NOT NULL" := hfirst (by simp [toString])
  have href (r : Reference) : r.text ≠ "NOT NULL" := hfirst (by simp [Reference.text, toString])
  simp only [furtherClauses, List.mem_append, Option.mem_toList, Option.map_eq_some_iff]
  rintro (((h | ⟨d, -, h⟩) | ⟨k, -, h⟩) | ⟨r, -, h⟩)
  · split at h
    · exact absurd (List.mem_singleton.mp h) (by decide)
    · exact List.not_mem_nil h
  · exact hdefault d h
  · exact hcheck k h
  · exact href r h

/-- A column says that there always is a value if it is marked so and is no key. -/
theorem Column.saysNotNull_iff {c : Column} :
    c.SaysNotNull ↔ c.primaryKey = false ∧ c.notNull = true := by
  have hclauses : c.clauses = c.name :: c.type :: ((if c.primaryKey then ["PRIMARY KEY"] else []) ++
      ((if c.notNull then ["NOT NULL"] else []) ++ c.furtherClauses)) := by
    simp only [clauses, furtherClauses, List.append_assoc, List.cons_append, List.nil_append]
  rw [SaysNotNull, hclauses, List.getElem?_cons_succ, List.getElem?_cons_succ]
  cases c.primaryKey with
  | true => simp
  | false =>
    cases c.notNull with
    | true => simp
    | false =>
      have hno : c.furtherClauses[0]? ≠ some "NOT NULL" := fun h =>
        c.notNull_not_mem_furtherClauses (List.mem_of_getElem? h)
      simpa using hno

theorem nullable_columnType (f : Field) : f.columnType.nullable = f.isNullable := by
  simp only [Field.columnType, ColumnType.ofField, Field.isNullable]
  cases f.column.sqlType with
  | none => rfl
  | some explicit => simp only; split <;> rfl

/-- The column of a field that is no identifier says that there always is a value exactly when
neither the type nor the hints admit that there is none. -/
theorem saysNotNull_column (h : f.isId = false) :
    (column e f).SaysNotNull ↔ f.isNullable = false := by
  have hkey : (column e f).primaryKey = false := h
  have hpresence : (column e f).notNull = !f.isNullable := by
    rw [column, nullable_columnType, h, Bool.not_false, Bool.true_and]
  rw [Column.saysNotNull_iff, hkey, hpresence, Bool.not_eq_true']
  simp only [true_and]

theorem admitsNull_column :
    (column e f).admitsNull = true ↔ f.isId = false ∧ f.isNullable = true := by
  have hkey : (column e f).primaryKey = f.isId := rfl
  have hpresence : (column e f).notNull = (!f.isId && !f.isNullable) := by
    rw [column, nullable_columnType]
  rw [Column.admitsNull, hkey, hpresence]
  cases f.isId <;> cases f.isNullable <;> decide

end Postgres

namespace Package

open Source

variable {d : EntityDeclaration} {strict : Bool} {e : Entity} {notes : Diagnostics} {f : Field}

/-! ## Rows and entities -/

theorem mem_updateFields : f ∈ e.updateFields ↔
    f ∈ e.fields ∧ f.inUpdate = true ∧ f.isId = false ∧ f.isAuto = false := by
  simp only [Entity.updateFields, List.mem_filter, Bool.and_eq_true, Bool.not_eq_true', and_assoc]

/-- A change cannot set a field to nothing exactly where its column cannot be without a value. -/
theorem mem_requiredChanges_iff (hb : Build.build d strict = .ok (e, notes))
    (hf : f ∈ e.updateFields) :
    f.name ∈ requiredChanges e ↔ (Postgres.column e f).SaysNotNull := by
  obtain ⟨hmem, hupdate, hid, hauto⟩ := mem_updateFields.mp hf
  rw [Postgres.saysNotNull_column hid, requiredChanges, List.mem_map]
  constructor
  · rintro ⟨g, hg, hname⟩
    obtain ⟨hg, hnull⟩ := List.mem_filter.mp hg
    have hnames := (Build.consistent_of_build hb).fieldNames_nodup
    obtain rfl := List.inj_on_of_nodup_map hnames (List.mem_of_mem_filter hg) hmem hname
    simpa using hnull
  · intro hnull
    exact ⟨f, List.mem_filter.mpr ⟨hf, by simp [hnull]⟩, rfl⟩

/-- A row of a table: the value in each column that has one. -/
abbrev Row := String → Option Value

/-- The table of an entity can hold a row without a value in some columns. -/
def CanHold (e : Entity) (row : Row) : Prop :=
  ∀ f ∈ e.fields, row f.columnName = none → (Postgres.column e f).admitsNull = true

/-- The class of an entity can be read from a row without a value in some columns. -/
def CanRead (e : Entity) (row : Row) : Prop :=
  ∀ f ∈ e.fields, row f.columnName = none → (f.type.hint false).admitsNone = true

/-- No hint on a column admits a missing value where the type of the field does not. -/
def HintsFollowTypes (e : Entity) : Prop :=
  ∀ f ∈ e.fields, f.isId = false → f.column.nullable = true → f.type.nullable = true

/-- No hint on a column admits a missing value where the generated code refuses it. -/
def HintsTolerated (e : Entity) : Prop :=
  ∀ f ∈ e.fields, f.isId = false → f.column.nullable = true →
    f.type.nullable = true ∨ f.type.isUnchecked = true

instance (e : Entity) : Decidable (HintsFollowTypes e) :=
  inferInstanceAs (Decidable (∀ f ∈ e.fields, _))

instance (e : Entity) : Decidable (HintsTolerated e) :=
  inferInstanceAs (Decidable (∀ f ∈ e.fields, _))

theorem HintsFollowTypes.tolerated (h : HintsFollowTypes e) : HintsTolerated e :=
  fun f hf hid hnull => Or.inl (h f hf hid hnull)

/-- Of a field, the class and the table say the same exactly when the hint follows the type. -/
theorem declaration_agrees_iff (hb : Build.build d strict = .ok (e, notes)) (hf : f ∈ e.fields)
    (hid : f.isId = false) :
    ((entityModule e).DeclaresOptional f.name ↔ ¬ (Postgres.column e f).SaysNotNull) ↔
      (f.column.nullable = true → f.type.nullable = true) := by
  rw [declaresOptional_iff hb hf, Postgres.saysNotNull_column hid, Field.isNullable]
  cases f.type.nullable <;> cases f.column.nullable <;> simp

/-- Every row that the table can hold can be read exactly when every missing value that a hint
admits is admitted by the class. -/
theorem rows_readable_iff (hb : Build.build d strict = .ok (e, notes)) :
    (∀ row, CanHold e row → CanRead e row) ↔ HintsTolerated e := by
  constructor
  · intro h f hf hid hnull
    -- A row where nothing but the value of this field is missing.
    let row : Row := fun column => if column = f.columnName then none else some .null
    have hholds : CanHold e row := by
      intro g hg hnone
      have hcolumn : g.columnName = f.columnName := by
        by_contra hne
        simp [row, hne] at hnone
      have hcolumns := (Build.consistent_of_build hb).columnNames_nodup
      obtain rfl := List.inj_on_of_nodup_map hcolumns hg hf hcolumn
      exact Postgres.admitsNull_column.mpr ⟨hid, by rw [Field.isNullable, hnull, Bool.or_true]⟩
    have hread := h row hholds f hf (if_pos rfl)
    rwa [FieldType.admitsNone_hint, Bool.or_eq_true] at hread
  · intro h row hholds f hf hnone
    obtain ⟨hid, hnull⟩ := Postgres.admitsNull_column.mp (hholds f hf hnone)
    rw [FieldType.admitsNone_hint, Bool.or_eq_true]
    rw [Field.isNullable, Bool.or_eq_true] at hnull
    exact hnull.elim Or.inl (h f hf hid)

/-- The class of an entity declares exactly those fields as optional whose columns can be without a
value, if and only if no hint on a column admits more than the type of its field; every row that
the table can hold can be read, if and only if such a hint stands only on types that the class does
not check. -/
theorem nullability_agrees_iff (hb : Build.build d strict = .ok (e, notes)) :
    ((∀ f ∈ e.fields, f.isId = false →
      ((entityModule e).DeclaresOptional f.name ↔ ¬ (Postgres.column e f).SaysNotNull)) ↔
        HintsFollowTypes e) ∧
      ((∀ row, CanHold e row → CanRead e row) ↔ HintsTolerated e) := by
  refine ⟨?_, rows_readable_iff hb⟩
  constructor
  · intro h f hf hid
    exact (declaration_agrees_iff hb hf hid).mp (h f hf hid)
  · intro h f hf hid
    exact (declaration_agrees_iff hb hf hid).mpr (h f hf hid)

/-- An entity with optional types, one of them with a hint that says the same. -/
def parcelDeclaration : EntityDeclaration where
  name := "Parcel"
  attributes := [(.text "table", .text "parcels"), (.text "migrations", .bool true)]
  fields := some [
    { name := some "id", type := "uuid", attributes := [(.text "id", .bool true)] },
    { name := some "label", type := "string" },
    { name := some "weight", type := "Option<f64>" },
    { name := some "stops", type := "Option<Vec<string>>"
      attributes := [(.text "column", .map [(.text "nullable", .bool true)])] }]

/-- The hints of the parcel follow its types, so that all its rows can be read. -/
theorem nullability_agrees_parcel :
    ∃ e notes, Build.build parcelDeclaration false = .ok (e, notes) ∧
      (∃ f ∈ e.fields, f.isId = false ∧ f.column.nullable = true) ∧
      (∀ f ∈ e.fields, f.isId = false →
        ((entityModule e).DeclaresOptional f.name ↔ ¬ (Postgres.column e f).SaysNotNull)) ∧
      ∀ row, CanHold e row → CanRead e row := by
  obtain ⟨e, notes, hb, h⟩ := Build.exists_of_build parcelDeclaration false
    (fun e => decide ((∃ f ∈ e.fields, f.isId = false ∧ f.column.nullable = true) ∧
      HintsFollowTypes e)) (by decide +kernel)
  obtain ⟨hhint, hfollow⟩ := of_decide_eq_true h
  obtain ⟨hfields, hrows⟩ := nullability_agrees_iff hb
  exact ⟨e, notes, hb, hhint, hfields.mpr hfollow, hrows.mpr hfollow.tolerated⟩

/-- An entity with a text that only the hint on its column allows to be missing. -/
def noteDeclaration : EntityDeclaration where
  name := "Note"
  attributes := [(.text "table", .text "notes"), (.text "migrations", .bool true)]
  fields := some [
    { name := some "id", type := "uuid", attributes := [(.text "id", .bool true)] },
    { name := some "body", type := "string"
      attributes := [(.text "column", .map [(.text "nullable", .bool true)])] }]

/-- The column of the note's text can be without a value, but the class demands one: a row that the
table can hold cannot be read. -/
theorem nullability_differs_note :
    ∃ e notes, Build.build noteDeclaration false = .ok (e, notes) ∧
      (∃ f ∈ e.fields, f.isId = false ∧ (Postgres.column e f).text = "body TEXT" ∧
        (shapeField false f).text = "body: str" ∧ ¬ (Postgres.column e f).SaysNotNull ∧
        ¬ (entityModule e).DeclaresOptional f.name) ∧
      ∃ row, CanHold e row ∧ ¬ CanRead e row := by
  obtain ⟨e, notes, hb, h⟩ := Build.exists_of_build noteDeclaration false
    (fun e => decide ((∃ f ∈ e.fields, f.isId = false ∧ (Postgres.column e f).text = "body TEXT" ∧
      (shapeField false f).text = "body: str" ∧ ¬ (Postgres.column e f).SaysNotNull ∧
      f.type.nullable ≠ true) ∧ ¬ HintsTolerated e)) (by decide +kernel)
  obtain ⟨⟨f, hf, hid, hcolumn, hline, hsays, hnull⟩, hhints⟩ := of_decide_eq_true h
  have hdeclares : ¬ (entityModule e).DeclaresOptional f.name := by
    rwa [declaresOptional_iff hb hf]
  refine ⟨e, notes, hb, ⟨f, hf, hid, hcolumn, hline, hsays, hdeclares⟩, ?_⟩
  by_contra hno
  have hreadable : ∀ row, CanHold e row → CanRead e row := fun row hholds =>
    not_not.mp fun hread => hno ⟨row, hholds, hread⟩
  exact hhints ((rows_readable_iff hb).mp hreadable)

end Package

end EntityForge
