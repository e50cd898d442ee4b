import EntityForge.Postgres.Migration
import EntityForge.Proofs.Build
import EntityForge.Proofs.Document
import EntityForge.Proofs.Split
import Mathlib.Data.List.Nodup
import Mathlib.Data.List.Pairwise

/-!
# Names of indexes

A database keeps the names of indexes for a whole schema, and passes over the making of an index
whose name is taken. The names on one table are checked to be distinct; those on two tables of a
schema are not, and can be one: as a name of its own that an index has, or because the names of
tables and columns, which a derived name joins with underscores, can be cut in more than one way.
-/

namespace EntityForge

/-! ## Names that are given -/

/-- A name of its own that an index is read with is a name. -/
theorem Attribute.compositeIndex_name {site : Site} {item : Value × Nat} {i : CompositeIndex}
    (h : (compositeIndex site item).value = some i) {n : String} (hn : i.name = some n) :
    Text.isName n.toList = true := by
  obtain ⟨v, position⟩ := item
  cases v with
  | map entries =>
    simp only [compositeIndex, Noted.value_bind] at h
    split at h
    · simp only [Noted.value_pure, Option.some.injEq] at h
      subst h
      revert hn
      exact present_induction (P := fun x : Noted (Option String) => x.value = some n → _) (by simp)
        fun v => name_isName
    · simp at h
  | _ => simp [compositeIndex] at h

theorem Attribute.entityAttributes_indexName {entity : String} {entries : Entries} :
    ∀ i ∈ (entityAttributes entity entries).value.indexes, ∀ n, i.name = some n →
      Text.isName n.toList = true := by
  refine present_induction (P := fun x : Noted (List CompositeIndex) =>
    ∀ i ∈ x.value, ∀ n, i.name = some n → Text.isName n.toList = true) (by simp) fun v => ?_
  cases v with
  | list items =>
    intro i hi n hn
    obtain ⟨item, -, h⟩ := Noted.mem_value_collect.mp hi
    exact compositeIndex_name h hn
  | _ => simp [compositeIndexes]

/-- A name of its own that an index of an entity has is a name. -/
theorem Build.indexName_isName {d : EntityDeclaration} {strict : Bool} {e : Entity}
    {notes : Diagnostics} (h : build d strict = .ok (e, notes)) {i : CompositeIndex}
    (hi : i ∈ e.indexes) {n : String} (hn : i.name = some n) : Text.isName n.toList = true := by
  obtain ⟨he, -, -⟩ := of_build_eq_ok h
  rw [(madeFrom_of_assemble? he).indexes] at hi
  obtain ⟨j, hj, hname⟩ := name_of_mem_parts_indexes hi
  rw [attributes_parts] at hj
  exact Attribute.entityAttributes_indexName j hj n (hname ▸ hn)

namespace Postgres

variable {e e' : Entity} {es : List Entity}

/-! ## Derived names -/

/-- The indexes declared for a table, on a single column or on several. -/
def declaredIndexes (e : Entity) : List CompositeIndex :=
  (e.indexedFields.map fun f => { columns := [f.columnName] }) ++ e.indexes

/-- The columns of an index as its derived name has them. -/
def joined (i : CompositeIndex) : String := "_".intercalate i.columns

/-- The name that an index has if it is given none. -/
def derivedName (table : String) (i : CompositeIndex) : String := s!"idx_{table}_" ++ joined i

theorem nameFor_single (column table : String) :
    CompositeIndex.nameFor { columns := [column] } table = s!"idx_{table}_{column}" := by
  simp [CompositeIndex.nameFor, nonEmpty?, toString, String.append_assoc]

/-- The names of the indexes made in a migration are those of the declared ones. -/
theorem names_indexes (e : Entity) :
    (indexes e).map Index.name = (declaredIndexes e).map fun i => i.nameFor e.table := by
  rw [indexes, declaredIndexes, List.map_append, List.map_append, List.map_map, List.map_map,
    List.map_map]
  refine congrArg₂ (· ++ ·) (List.map_congr_left fun f _ => ?_) rfl
  exact (nameFor_single f.columnName e.table).symm

/-- The name of a table goes on where that of another ends, and the columns of the other begin with
what it goes on with. -/
def Continues (table : String) (i : CompositeIndex) (table' : String) (j : CompositeIndex) : Prop :=
  ∃ word, table' = table ++ "_" ++ word ∧ joined i = word ++ "_" ++ joined j

/-- Two indexes on different tables have one name. -/
def Clash (table : String) (i : CompositeIndex) (table' : String) (j : CompositeIndex) : Prop :=
  match nonEmpty? i.name, nonEmpty? j.name with
  | some own, some own' => own = own'
  | some own, none => own = derivedName table' j
  | none, some own' => derivedName table i = own'
  | none, none => Continues table i table' j ∨ Continues table' j table i

theorem toList_joinedBy (s t : String) : (s ++ "_" ++ t).toList = s.toList ++ '_' :: t.toList := by
  simp

theorem continues_iff {table table' : String} {i j : CompositeIndex} :
    Continues table i table' j ↔ ∃ word, table'.toList = table.toList ++ '_' :: word ∧
      (joined i).toList = word ++ '_' :: (joined j).toList := by
  constructor
  · rintro ⟨word, ht, hi⟩
    exact ⟨word.toList, by rw [ht, toList_joinedBy], by rw [hi, toList_joinedBy]⟩
  · rintro ⟨word, ht, hi⟩
    refine ⟨.ofList word, String.toList_inj.mp ?_, String.toList_inj.mp ?_⟩
    · rw [toList_joinedBy, ht, String.toList_ofList]
    · rw [toList_joinedBy, hi, String.toList_ofList]

/-- Derived names on different tables are one exactly when one table continues the other. -/
theorem derivedName_eq_iff {table table' : String} (h : table ≠ table') {i j : CompositeIndex} :
    derivedName table i = derivedName table' j ↔
      Continues table i table' j ∨ Continues table' j table i := by
  have hne : table.toList ≠ table'.toList := fun heq => h (String.toList_inj.mp heq)
  have hsplit (t : String) (k : CompositeIndex) : (derivedName t k).toList =
      "idx_".toList ++ (t.toList ++ '_' :: (joined k).toList) := by
    simp [derivedName, toString]
  rw [← String.toList_inj, hsplit, hsplit, List.append_cancel_left_eq,
    Text.append_separator_eq_iff hne, continues_iff, continues_iff]

/-- Two indexes on different tables clash if their names are one. -/
theorem clash_iff {table table' : String} (h : table ≠ table') {i j : CompositeIndex} :
    Clash table i table' j ↔ i.nameFor table = j.nameFor table' := by
  rw [Clash, CompositeIndex.nameFor, CompositeIndex.nameFor]
  cases nonEmpty? i.name with
  | some own =>
    cases nonEmpty? j.name with
    | some own' => exact Iff.rfl
    | none => exact Iff.rfl
  | none =>
    cases nonEmpty? j.name with
    | some own' => exact Iff.rfl
    | none => exact (derivedName_eq_iff h).symm

/-- A name derived from plain names is plain, and so is one that an index has of its own. -/
theorem plain_nameFor {table : String} {i : CompositeIndex} (ht : Text.Plain table)
    (hc : ∀ c ∈ i.columns, Text.Plain c) (hn : ∀ n, i.name = some n → Text.Plain n) :
    Text.Plain (i.nameFor table) := by
  rw [CompositeIndex.nameFor]
  cases hown : nonEmpty? i.name with
  | some own => exact hn own (Option.filter_eq_some_iff.mp hown).1
  | none =>
    have hidx : Text.Plain "idx_" := Text.plain_of_isName rfl
    have hsep : Text.Plain "_" := Text.plain_of_isName rfl
    have hjoined : Text.Plain (joined i) := by
      intro c hmem
      rw [joined, String.toList_intercalate] at hmem
      rcases Text.mem_intercalate hmem with hmem | ⟨piece, hpiece, hmem⟩
      · exact hsep c hmem
      · obtain ⟨column, hcolumn, rfl⟩ := List.mem_map.mp hpiece
        exact hc column hcolumn c hmem
    exact ((hidx.append ht).append hsep).append hjoined

/-! ## Statements -/

/-- The piece behind the first that is a given word. -/
def pieceBehind (word : List Char) (pieces : List (List Char)) : List Char :=
  ((pieces.dropWhile (· ≠ word)).drop 1).headD []

theorem pieceBehind_append {word piece : List Char} {pieces rest : List (List Char)}
    (h : ∀ p ∈ pieces, p ≠ word) : pieceBehind word (pieces ++ word :: piece :: rest) = piece := by
  rw [pieceBehind, List.dropWhile_append_of_pos (by simpa using h),
    List.dropWhile_cons_of_neg (by simp)]
  rfl

/-- The word behind `EXISTS` in a statement. -/
def createdName (statement : String) : List Char :=
  pieceBehind "EXISTS".toList (Text.splitOn ' ' statement.toList)

/-- The words in front of the name of an index. -/
def creationWords (unique : Bool) : String :=
  (if unique then "CREATE UNIQUE INDEX" else "CREATE INDEX") ++ " IF NOT EXISTS"

theorem splitOn_creationWords (unique : Bool) : ∃ words,
    Text.splitOn ' ' (creationWords unique).toList = words ++ ["EXISTS".toList] ∧
      ∀ w ∈ words, w ≠ "EXISTS".toList := by
  cases unique with
  | false =>
    exact ⟨["CREATE".toList, "INDEX".toList, "IF".toList, "NOT".toList], by decide, by decide⟩
  | true =>
    exact ⟨["CREATE".toList, "UNIQUE".toList, "INDEX".toList, "IF".toList, "NOT".toList],
      by decide, by decide⟩

/-- The name of an index stands between blanks, behind the words that make it. -/
theorem toList_text (i : Index) (table : String) : ∃ rest, (i.text table).toList =
    (creationWords i.unique).toList ++ ' ' :: (i.name.toList ++ ' ' :: rest) := by
  let rest := "ON " ++ table ++ i.kind.usingClause ++ (" (" ++ ", ".intercalate i.columns ++ ")") ++
    ((nonEmpty? i.condition).map fun w => " WHERE " ++ w).getD "" ++ ";\n"
  have hwords : " IF NOT EXISTS " = " IF NOT EXISTS" ++ " " := rfl
  have hon : " ON " = " " ++ "ON " := rfl
  have htext : i.text table = creationWords i.unique ++ (" " ++ (i.name ++ (" " ++ rest))) := by
    have hopen : i.text table = (if i.unique then "CREATE UNIQUE INDEX" else "CREATE INDEX") ++
        (" IF NOT EXISTS " ++ i.name ++ " ON " ++ table) ++ i.kind.usingClause ++
        (" (" ++ ", ".intercalate i.columns ++ ")") ++
        ((nonEmpty? i.condition).map fun w => " WHERE " ++ w).getD "" ++ ";\n" := rfl
    rw [hopen, hwords, hon, creationWords]
    simp only [rest, String.append_assoc]
  refine ⟨rest.toList, ?_⟩
  rw [htext]
  simp only [String.toList_append]
  rfl

/-- The statement that makes an index names the index. -/
theorem createdName_text {i : Index} (h : ' ' ∉ i.name.toList) (table : String) :
    createdName (i.text table) = i.name.toList := by
  obtain ⟨rest, htext⟩ := toList_text i table
  obtain ⟨words, hwords, hne⟩ := splitOn_creationWords i.unique
  rw [createdName, htext, Text.splitOn_append, Text.splitOn_append, Text.splitOn_of_not_mem h,
    hwords, List.append_assoc]
  exact pieceBehind_append hne

/-! ## A schema -/

/-- The entity has a migration, in a database family for which there are migrations. -/
def hasMigration (e : Entity) : Bool := e.features.migrations && e.dialect == .postgres

/-- The entities with migrations whose tables lie in a schema. -/
def inSchema (es : List Entity) (schema : String) : List Entity :=
  es.filter fun e => hasMigration e && e.schema == schema

/-- The statements that make the indexes of a table. -/
def indexStatements (e : Entity) : List String := (indexes e).map fun i => i.text e.fullTable

/-- A migration makes the table and then its indexes. -/
theorem up_migration (e : Entity) :
    (migration e).up = createTable e ++ .join (indexStatements e) := rfl

/-- The names in the statements that make indexes, in all migrations of a schema. -/
def createdNames (es : List Entity) (schema : String) : List (List Char) :=
  (inSchema es schema).flatMap fun e => (indexStatements e).map createdName

/-- The indexes that the migrations make in a schema, each with its table. -/
def schemaIndexes (es : List Entity) (schema : String) : List (String × Index) :=
  (inSchema es schema).flatMap fun e => (indexes e).map fun i => (e.fullTable, i)

/-- The name of an index on a table. -/
def indexName (i : String × Index) : String := i.2.name

/-- What a schema holds after a statement that makes an index, which is passed over if the name is
taken. -/
def make (made : List (String × Index)) (i : String × Index) : List (String × Index) :=
  if indexName i ∈ made.map indexName then made else made ++ [i]

/-- What a schema holds after all migrations. -/
def madeIndexes (es : List Entity) (schema : String) : List (String × Index) :=
  (schemaIndexes es schema).foldl make []

theorem length_foldl_make_le (made wanted : List (String × Index)) :
    (wanted.foldl make made).length ≤ made.length + wanted.length := by
  induction wanted generalizing made with
  | nil => exact Nat.le_refl _
  | cons i wanted ih =>
    have hstep : (make made i).length ≤ made.length + 1 := by
      unfold make
      split <;> simp
    have hrest := ih (make made i)
    rw [List.foldl_cons, List.length_cons]
    omega

/-- All that is wanted is made exactly when no name is taken before or comes up twice. -/
theorem foldl_make_eq_iff {made wanted : List (String × Index)} :
    wanted.foldl make made = made ++ wanted ↔ (wanted.map indexName).Nodup ∧
      ∀ n ∈ wanted.map indexName, n ∉ made.map indexName := by
  induction wanted generalizing made with
  | nil => simp
  | cons i wanted ih =>
    by_cases htaken : indexName i ∈ made.map indexName
    · -- What is passed over is missing in the end.
      have hfewer := length_foldl_make_le made wanted
      have hne : (i :: wanted).foldl make made ≠ made ++ i :: wanted := by
        intro heq
        rw [List.foldl_cons, make, if_pos htaken] at heq
        rw [heq, List.length_append, List.length_cons] at hfewer
        omega
      refine iff_of_false hne fun h => ?_
      exact h.2 _ List.mem_cons_self htaken
    · rw [List.foldl_cons, make, if_neg htaken, List.append_cons made i wanted, ih, List.map_cons,
        List.nodup_cons, List.forall_mem_cons]
      simp only [List.map_append, List.map_cons, List.map_nil, List.mem_append, List.mem_singleton,
        not_or]
      constructor
      · rintro ⟨hnodup, hfree⟩
        exact ⟨⟨fun hm => (hfree _ hm).2 rfl, hnodup⟩, htaken, fun n hn => (hfree n hn).1⟩
      · rintro ⟨⟨hfirst, hnodup⟩, -, hfree⟩
        refine ⟨hnodup, fun n hn => ⟨hfree n hn, ?_⟩⟩
        rintro rfl
        exact hfirst hn

/-- Migrations make all their indexes exactly when the names of these are distinct. -/
theorem madeIndexes_eq_iff (schema : String) : madeIndexes es schema = schemaIndexes es schema ↔
    ((schemaIndexes es schema).map indexName).Nodup := by
  have h := @foldl_make_eq_iff [] (schemaIndexes es schema)
  rw [List.nil_append] at h
  rw [madeIndexes, h]
  simp

/-- Indexes on different tables of a schema do not clash. -/
def IndexesApart (es : List Entity) : Prop :=
  ∀ e ∈ es, ∀ e' ∈ es, hasMigration e = true → hasMigration e' = true → e.schema = e'.schema →
    e.table ≠ e'.table → ∀ i ∈ declaredIndexes e, ∀ j ∈ declaredIndexes e',
      ¬ Clash e.table i e'.table j

theorem mem_inSchema {schema : String} :
    e ∈ inSchema es schema ↔ e ∈ es ∧ hasMigration e = true ∧ e.schema = schema := by
  simp only [inSchema, List.mem_filter, Bool.and_eq_true, beq_iff_eq]

/-- The names of the indexes made in a schema, table by table. -/
theorem names_schemaIndexes (es : List Entity) (schema : String) :
    (schemaIndexes es schema).map indexName =
      (inSchema es schema).flatMap fun e => (declaredIndexes e).map fun i => i.nameFor e.table := by
  rw [schemaIndexes, List.map_flatMap]
  refine List.flatMap_congr fun e _ => ?_
  rw [← names_indexes, List.map_map]
  rfl

/-- The names on the tables of all schemas are distinct if they are on each table and no two
indexes on different tables of a schema clash. -/
theorem nodup_names_iff (hn : (es.map Entity.fullTable).Nodup)
    (hown : ∀ e ∈ es, ((declaredIndexes e).map fun i => i.nameFor e.table).Nodup) :
    (∀ schema, ((schemaIndexes es schema).map indexName).Nodup) ↔ IndexesApart es := by
  let names (e : Entity) := (declaredIndexes e).map fun i => i.nameFor e.table
  have hsymm : Std.Symm (Function.onFun List.Disjoint names) := ⟨fun _ _ h n hn hn' => h hn' hn⟩
  have htable {e e' : Entity} (he : e ∈ es) (he' : e' ∈ es) (hschema : e.schema = e'.schema)
      (htable : e.table = e'.table) : e = e' := by
    refine List.inj_on_of_nodup_map hn he he' ?_
    rw [Entity.fullTable, Entity.fullTable, hschema, htable]
  simp only [names_schemaIndexes, List.nodup_flatMap]
  constructor
  · intro h e he e' he' hm hm' hschema hne i hi j hj hclash
    have hin : e ∈ inSchema es e.schema := mem_inSchema.mpr ⟨he, hm, rfl⟩
    have hin' : e' ∈ inSchema es e.schema := mem_inSchema.mpr ⟨he', hm', hschema.symm⟩
    have hdiff : e ≠ e' := fun heq => hne (congrArg Entity.table heq)
    have hdisjoint := (h e.schema).2.forall hin hin' hdiff
    rw [clash_iff hne] at hclash
    exact hdisjoint (List.mem_map_of_mem hi) (hclash ▸ List.mem_map_of_mem hj)
  · intro h schema
    have hnodup : (inSchema es schema).Nodup := (List.Nodup.of_map _ hn).filter _
    refine ⟨fun e he => hown e (mem_inSchema.mp he).1, ?_⟩
    refine hnodup.pairwise_of_forall_ne fun e he e' he' hdiff name hname hname' => ?_
    obtain ⟨hmem, hm, hs⟩ := mem_inSchema.mp he
    obtain ⟨hmem', hm', hs'⟩ := mem_inSchema.mp he'
    have hschema : e.schema = e'.schema := hs.trans hs'.symm
    have hne : e.table ≠ e'.table := fun heq => hdiff (htable hmem hmem' hschema heq)
    obtain ⟨i, hi, rfl⟩ := List.mem_map.mp hname
    obtain ⟨j, hj, heq⟩ := List.mem_map.mp hname'
    exact h e hmem e' hmem' hm hm' hschema hne i hi j hj ((clash_iff hne).mpr heq.symm)

/-- The names on the table of an entity that is built are distinct. -/
theorem nodup_names_of_isBuilt (he : e.IsBuilt) :
    ((declaredIndexes e).map fun i => i.nameFor e.table).Nodup := by
  obtain ⟨d, strict, notes, hb⟩ := he
  have hnames : (indexes e).map Index.name = e.indexNames := by
    rw [indexes, List.map_append, List.map_map, List.map_map]
    rfl
  rw [← names_indexes, hnames]
  exact (Build.consistent_of_build hb).indexNames_nodup

/-- The name of an index on the table of an entity that is built is plain. -/
theorem plain_name_of_isBuilt (he : e.IsBuilt) {i : Index} (hi : i ∈ indexes e) :
    Text.Plain i.name := by
  obtain ⟨d, strict, notes, hb⟩ := he
  have hplain := Build.plain_of_build hb
  have hcolumns : ∀ c ∈ e.columnNames, Text.Plain c := by
    intro c hc
    obtain ⟨f, hf, rfl⟩ := List.mem_map.mp hc
    exact hplain.columnName f hf
  have hname : i.name ∈ (declaredIndexes e).map fun j => j.nameFor e.table := by
    rw [← names_indexes]
    exact List.mem_map_of_mem hi
  obtain ⟨j, hj, heq⟩ := List.mem_map.mp hname
  rw [← heq]
  rcases List.mem_append.mp hj with hj | hj
  · obtain ⟨f, hf, rfl⟩ := List.mem_map.mp hj
    refine plain_nameFor hplain.table (fun c hc => ?_) (fun n hn => by cases hn)
    rw [List.mem_singleton.mp hc]
    exact hplain.columnName f (List.mem_filter.mp hf).1
  · refine plain_nameFor hplain.table (fun c hc => ?_) fun n hn =>
      Text.plain_of_isName (Build.indexName_isName hb hj hn)
    exact hcolumns c (((Build.consistent_of_build hb).index_columns j hj).2 c hc)

/-- The names in the statements are those of the indexes. -/
theorem createdNames_eq (hes : ∀ e ∈ es, e.IsBuilt) (schema : String) : createdNames es schema =
    ((schemaIndexes es schema).map indexName).map String.toList := by
  rw [createdNames, schemaIndexes, List.map_flatMap, List.map_flatMap]
  refine List.flatMap_congr fun e he => ?_
  rw [indexStatements, List.map_map, List.map_map, List.map_map]
  refine List.map_congr_left fun i hi => ?_
  have hplain := plain_name_of_isBuilt (hes e (mem_inSchema.mp he).1) hi
  exact createdName_text (hplain.not_mem (by decide)) _

/-- A migration makes its table and then its indexes. If no error is found about entities that are
built, the names in all statements of the migrations of one schema that make indexes are distinct,
and all of these indexes are made, exactly when no two indexes on different tables of a schema
clash. -/
theorem index_names_nodup_iff {strict : Bool} (hes : ∀ e ∈ es, e.IsBuilt)
    (h : (Validation.document es strict).Clean) :
    (∀ e ∈ es, (migration e).up = createTable e ++ .join (indexStatements e)) ∧
      ((∀ schema, (createdNames es schema).Nodup) ↔ IndexesApart es) ∧
      ((∀ schema, madeIndexes es schema = schemaIndexes es schema) ↔ IndexesApart es) := by
  have htables := (Validation.nodup_of_clean_document h).2
  have hnames := nodup_names_iff htables fun e he => nodup_names_of_isBuilt (hes e he)
  have hinj : Function.Injective String.toList := fun s t => String.toList_inj.mp
  simp only [createdNames_eq hes, List.nodup_map_iff hinj, madeIndexes_eq_iff]
  exact ⟨fun e _ => up_migration e, hnames, hnames⟩

/-- Whether two indexes clash is seen from their names. -/
theorem indexesApart_iff : IndexesApart es ↔ ∀ e ∈ es, ∀ e' ∈ es, hasMigration e = true →
    hasMigration e' = true → e.schema = e'.schema → e.table ≠ e'.table →
      ∀ i ∈ declaredIndexes e, ∀ j ∈ declaredIndexes e',
        i.nameFor e.table ≠ j.nameFor e'.table := by
  constructor
  · intro h e he e' he' hm hm' hschema hne i hi j hj
    exact (clash_iff hne).not.mp (h e he e' he' hm hm' hschema hne i hi j hj)
  · intro h e he e' he' hm hm' hschema hne i hi j hj
    exact (clash_iff hne).not.mpr (h e he e' he' hm hm' hschema hne i hi j hj)

instance (es : List Entity) : Decidable (IndexesApart es) := decidable_of_iff' _ indexesApart_iff

/-- Two tables of one schema with indexes of all kinds. -/
def stockDocument : Document where
  entities := [
    { name := "Order"
      attributes := [(.text "table", .text "orders"), (.text "migrations", .bool true),
        (.text "indexes", .list [.map [(.text "columns", .list [.text "buyer", .text "item_sku"])],
          .map [(.text "columns", .list [.text "buyer"]), (.text "name", .text "by_buyer")]])]
      fields := some [
        { name := some "id", type := "uuid", attributes := [(.text "id", .bool true)] },
        { name := some "buyer", type := "uuid" },
        { name := some "item_sku", type := "string"
          attributes := [(.text "column", .map [(.text "index", .bool true)])] }] },
    { name := "OrderItem"
      attributes := [(.text "table", .text "order_items"), (.text "migrations", .bool true)]
      fields := some [
        { name := some "id", type := "uuid", attributes := [(.text "id", .bool true)] },
        { name := some "sku", type := "string"
          attributes := [(.text "column", .map [(.text "index", .bool true)])] }] }]

/-- The four indexes of the stock have distinct names and are all made. -/
theorem index_names_nodup_stock :
    (Validation.document stockDocument.built false).Clean ∧
      createdNames stockDocument.built "public" = ["idx_orders_item_sku".toList,
        "idx_orders_buyer_item_sku".toList, "by_buyer".toList, "idx_order_items_sku".toList] ∧
      (∀ schema, (createdNames stockDocument.built schema).Nodup) ∧
      ∀ schema, madeIndexes stockDocument.built schema =
        schemaIndexes stockDocument.built schema := by
  have hclean : (Validation.document stockDocument.built false).Clean := by decide +kernel
  have happart : IndexesApart stockDocument.built := by decide +kernel
  obtain ⟨-, hnames, hmade⟩ := index_names_nodup_iff (fun e => Document.isBuilt_of_mem) hclean
  exact ⟨hclean, by decide +kernel, hnames.mpr happart, hmade.mpr happart⟩

/-- Two tables of which the name of one continues that of the other. -/
def orderDocument : Document where
  entities := [
    { name := "Order"
      attributes := [(.text "table", .text "order"), (.text "migrations", .bool true)]
      fields := some [
        { name := some "id", type := "uuid", attributes := [(.text "id", .bool true)] },
        { name := some "item_sku", type := "string"
          attributes := [(.text "column", .map [(.text "index", .bool true)])] }] },
    { name := "OrderItem"
      attributes := [(.text "table", .text "order_item"), (.text "migrations", .bool true)]
      fields := some [
        { name := some "id", type := "uuid", attributes := [(.text "id", .bool true)] },
        { name := some "sku", type := "string"
          attributes := [(.text "column", .map [(.text "index", .bool true)])] }] }]

/-- Nothing is found about the two tables, but their indexes have one name, and only the first of
them is made. -/
theorem index_names_repeated_order :
    (Validation.document orderDocument.built false).Quiet ∧
      createdNames orderDocument.built "public" =
        ["idx_order_item_sku".toList, "idx_order_item_sku".toList] ∧
      ¬ (createdNames orderDocument.built "public").Nodup ∧
      (madeIndexes orderDocument.built "public").map Prod.fst = ["public.order"] ∧
      (schemaIndexes orderDocument.built "public").map Prod.fst =
        ["public.order", "public.order_item"] := by
  decide +kernel

end Postgres

end EntityForge
