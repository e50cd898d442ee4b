import EntityForge.Postgres.Statement
import EntityForge.Proofs.IndexName

/-!
# Identifiers in statements

The names that statements are made of are not quoted there, so they have to be names and nothing
else. The table, the schema, the columns and indexes that are named by an attribute, and whatever is
derived from the names of other entities, are. The name of a field is the one route that a blank can
take: it is not trimmed, and its check overlooks a line feed at the end, which then goes into the
column and into every index over it.
-/

namespace EntityForge

namespace Text

/-- A name is what passes for one and does not end in a line feed. -/
theorem isName_iff {cs : List Char} :
    isName cs = true ↔ isNameLine cs = true ∧ cs.getLast? ≠ some '\n' := by
  constructor
  · intro h
    have hlast : cs.getLast? ≠ some '\n' := fun hlast =>
      absurd (isNameChar_of_isName h (List.mem_of_getLast? hlast)) (by decide)
    exact ⟨by rwa [isNameLine, dropFinalNewline, if_neg hlast], hlast⟩
  · rintro ⟨h, hlast⟩
    rwa [isNameLine, dropFinalNewline, if_neg hlast] at h

/-- A name goes on as a name with any characters of names. -/
theorem isName_append {cs ds : List Char} (hcs : isName cs = true)
    (hds : ∀ d ∈ ds, isNameChar d = true) : isName (cs ++ ds) = true := by
  cases cs with
  | nil => exact absurd hcs (by decide)
  | cons c cs =>
    simp only [isName, Bool.and_eq_true, List.all_eq_true, List.cons_append,
      List.forall_mem_append] at hcs ⊢
    exact ⟨hcs.1, hcs.2, hds⟩

/-- Nothing but characters of names. -/
def Spelled (s : String) : Prop := ∀ c ∈ s.toList, isNameChar c = true

instance (s : String) : Decidable (Spelled s) :=
  decidable_of_iff (s.toList.all isNameChar = true) List.all_eq_true

theorem spelled_of_isName {s : String} (h : isName s.toList = true) : Spelled s :=
  fun _ => isNameChar_of_isName h

theorem Spelled.append {s t : String} (hs : Spelled s) (ht : Spelled t) : Spelled (s ++ t) := by
  intro c hc
  rw [String.toList_append, List.mem_append] at hc
  exact hc.elim (hs c) (ht c)

theorem Spelled.intercalate {sep : String} {pieces : List String} (hsep : Spelled sep)
    (hpieces : ∀ p ∈ pieces, Spelled p) : Spelled (sep.intercalate pieces) := by
  intro c hc
  rw [String.toList_intercalate] at hc
  rcases mem_intercalate hc with hc | ⟨piece, hpiece, hc⟩
  · exact hsep c hc
  · obtain ⟨p, hp, rfl⟩ := List.mem_map.mp hpiece
    exact hpieces p hp c hc

theorem spelled_snakeCase (s : String) : Spelled (snakeCase s) := by
  intro c hc
  rcases mem_snakeCase hc with rfl | ⟨d, hd, rfl⟩
  · rfl
  · simp only [isNameChar, isAlphanum_toLower hd, Bool.true_or]

theorem spelled_plural {s : String} (h : Spelled s) : Spelled (plural s) :=
  forall_mem_plural h rfl rfl rfl

end Text

/-- No field that names its column itself has a name that ends in a line feed. -/
def Entity.NamesEnd (e : Entity) : Prop :=
  ∀ f ∈ e.fields, nonEmpty? f.column.name = none → f.name.toList.getLast? ≠ some '\n'

instance (e : Entity) : Decidable e.NamesEnd := inferInstanceAs (Decidable (∀ f ∈ e.fields, _))

namespace Build

variable {d : EntityDeclaration} {strict : Bool} {e : Entity} {notes : Diagnostics} {f : Field}

theorem table_isName (hb : build d strict = .ok (e, notes)) :
    Text.isName e.table.toList = true := by
  obtain ⟨he, -, -⟩ := of_build_eq_ok hb
  have ht := (madeFrom_of_assemble? he).table
  rw [attributes_parts] at ht
  exact Attribute.entityAttributes_table ht

theorem schema_isName (hb : build d strict = .ok (e, notes)) :
    Text.isName e.schema.toList = true := by
  obtain ⟨he, -, -⟩ := of_build_eq_ok hb
  rw [(madeFrom_of_assemble? he).schema, attributes_parts]
  exact Attribute.entityAttributes_schema

/-- A column has a name of its own, or the name of its field, which passes for a name. -/
theorem columnName_cases (hb : build d strict = .ok (e, notes)) (hf : f ∈ e.fields) :
    (nonEmpty? f.column.name ≠ none ∧ Text.isName f.columnName.toList = true) ∨
      (nonEmpty? f.column.name = none ∧ f.columnName = f.name ∧
        Text.isNameLine f.name.toList = true) := by
  obtain ⟨he, hv, -⟩ := of_build_eq_ok hb
  rw [Field.columnName]
  cases hc : nonEmpty? f.column.name with
  | none =>
    have hi := hv.fieldName_isIdentifier f hf
    simp only [Source.isIdentifier, Bool.and_eq_true] at hi
    exact Or.inr ⟨rfl, rfl, hi.1⟩
  | some s =>
    rw [(madeFrom_of_assemble? he).fields] at hf
    obtain ⟨g, -, hg⟩ := mem_parts_fields hf
    exact Or.inl ⟨Option.some_ne_none s, field_columnName hg (Option.filter_eq_some_iff.mp hc).1⟩

/-- The columns have names and nothing else exactly if the names of fields end as they should. -/
theorem columnNames_isName_iff (hb : build d strict = .ok (e, notes)) :
    (∀ c ∈ e.columnNames, Text.isName c.toList = true) ↔ e.NamesEnd := by
  simp only [Entity.columnNames, List.forall_mem_map, Entity.NamesEnd]
  refine forall₂_congr fun f hf => ?_
  rcases columnName_cases hb hf with ⟨hhint, hname⟩ | ⟨hhint, hname, hline⟩
  · exact iff_of_true hname fun h => absurd h hhint
  · rw [hname, Text.isName_iff]
    exact ⟨fun h _ => h.2, fun h => ⟨hline, h hhint⟩⟩

/-- The name of an index over columns with names is one. -/
theorem indexNames_isName (hb : build d strict = .ok (e, notes))
    (hcolumns : ∀ c ∈ e.columnNames, Text.isName c.toList = true) :
    ∀ n ∈ e.indexNames, Text.isName n.toList = true := by
  have hsep : Text.Spelled "_" := Text.spelled_of_isName rfl
  have htable := Text.spelled_of_isName (table_isName hb)
  -- A derived name is the table and the columns behind a fixed beginning.
  have hderived {rest : String} (hrest : Text.Spelled rest) :
      Text.isName ("idx_" ++ e.table ++ "_" ++ rest).toList = true := by
    rw [String.append_assoc, String.append_assoc, String.toList_append]
    exact Text.isName_append rfl (htable.append (hsep.append hrest))
  intro n hn
  rcases List.mem_append.mp hn with hn | hn
  · obtain ⟨f, hf, rfl⟩ := List.mem_map.mp hn
    have hcolumn := hcolumns f.columnName (List.mem_map_of_mem (List.mem_of_mem_filter hf))
    exact hderived (Text.spelled_of_isName hcolumn)
  · obtain ⟨i, hi, rfl⟩ := List.mem_map.mp hn
    rw [CompositeIndex.nameFor]
    cases hown : nonEmpty? i.name with
    | some own => exact indexName_isName hb hi (Option.filter_eq_some_iff.mp hown).1
    | none =>
      refine hderived (hsep.intercalate fun c hc => ?_)
      exact Text.spelled_of_isName
        (hcolumns c (((consistent_of_build hb).index_columns i hi).2 c hc))

/-- The table and the schema are names and nothing else, and what relations refer to is spelled like
names. All columns and indexes have such names exactly if no field whose name becomes that of its
column ends in a line feed; and a column always has a name but for one line feed behind it. -/
theorem identifiers_exact_iff (hb : build d strict = .ok (e, notes)) :
    Text.isName e.table.toList = true ∧ Text.isName e.schema.toList = true ∧
      (∀ target, ∃ table, e.relatedTable target = e.schema ++ "." ++ table ∧ Text.Spelled table) ∧
      Text.Spelled e.childColumn ∧
      (∀ c ∈ e.columnNames, Text.isNameLine c.toList = true) ∧
      ((∀ c ∈ e.columnNames, Text.isName c.toList = true) ∧
        (∀ n ∈ e.indexNames, Text.isName n.toList = true) ↔ e.NamesEnd) := by
  refine ⟨table_isName hb, schema_isName hb, fun target => ?_, ?_, ?_, ?_⟩
  · exact ⟨_, rfl, Text.spelled_plural (Text.spelled_snakeCase target)⟩
  · exact (Text.spelled_snakeCase e.name).append (Text.spelled_of_isName rfl)
  · simp only [Entity.columnNames, List.forall_mem_map]
    intro f hf
    rcases columnName_cases hb hf with ⟨-, hname⟩ | ⟨-, hname, hline⟩
    · exact (Text.isName_iff.mp hname).1
    · exact hname ▸ hline
  · rw [← columnNames_isName_iff hb]
    exact and_iff_left_of_imp (indexNames_isName hb)

/-- An entity with names of every kind: given, taken from a field, and derived. -/
def accountDeclaration : EntityDeclaration where
  name := "Account"
  attributes := [(.text "table", .text " accounts "), (.text "schema", .text "bank"),
    (.text "indexes", .list [.map [(.text "columns", .list [.text "owner", .text "iban_code"])],
      .map [(.text "columns", .list [.text "owner"]), (.text "name", .text "by_owner")]])]
  fields := some [
    { name := some "id", type := "uuid", attributes := [(.text "id", .bool true)] },
    { name := some "owner", type := "uuid"
      attributes := [(.text "belongs_to", .text "Person")] },
    { name := some "iban", type := "string"
      attributes := [(.text "column", .map [(.text "name", .text "iban_code\n"),
        (.text "index", .bool true)])] }]

/-- The names of the account are names and nothing else, also where they were written with blanks
around them. -/
theorem identifiers_exact_account :
    ∃ e notes, build accountDeclaration false = .ok (e, notes) ∧ e.NamesEnd ∧
      e.fullTable = "bank.accounts" ∧ e.columnNames = ["id", "owner", "iban_code"] ∧
      e.indexNames = ["idx_accounts_iban_code", "idx_accounts_owner_iban_code", "by_owner"] ∧
      (∀ c ∈ e.columnNames, Text.isName c.toList = true) ∧
      ∀ n ∈ e.indexNames, Text.isName n.toList = true := by
  obtain ⟨e, notes, hb, h⟩ := exists_of_build accountDeclaration false
    (fun e => decide (e.NamesEnd ∧ e.fullTable = "bank.accounts" ∧
      e.columnNames = ["id", "owner", "iban_code"] ∧
      e.indexNames = ["idx_accounts_iban_code", "idx_accounts_owner_iban_code", "by_owner"]))
    (by decide +kernel)
  obtain ⟨hend, htable, hcolumns, hindexes⟩ := of_decide_eq_true h
  obtain ⟨-, -, -, -, -, hnames⟩ := identifiers_exact_iff hb
  exact ⟨e, notes, hb, hend, htable, hcolumns, hindexes, hnames.mpr hend⟩

/-- An entity with a field whose name ends in a line feed. -/
def memoDeclaration : EntityDeclaration where
  name := "Memo"
  attributes := [(.text "table", .text "memos"), (.text "migrations", .bool true)]
  fields := some [
    { name := some "id", type := "uuid", attributes := [(.text "id", .bool true)] },
    { name := some "body\n", type := "string"
      attributes := [(.text "column", .map [(.text "index", .bool true)])] }]

/-- The memo is built, and the line feed is in its column, its index and its statements. -/
theorem identifiers_inexact_memo :
    ∃ e notes, build memoDeclaration false = .ok (e, notes) ∧
      e.columnNames = ["id", "body\n"] ∧ e.indexNames = ["idx_memos_body\n"] ∧
      (Postgres.findById e).text = "SELECT id, body\n FROM public.memos WHERE id = $1" ∧
      ¬ (∀ c ∈ e.columnNames, Text.isName c.toList = true) ∧
      ¬ ∀ n ∈ e.indexNames, Text.isName n.toList = true := by
  obtain ⟨e, notes, hb, h⟩ := exists_of_build memoDeclaration false
    (fun e => decide (e.columnNames = ["id", "body\n"] ∧ e.indexNames = ["idx_memos_body\n"] ∧
      (Postgres.findById e).text = "SELECT id, body\n FROM public.memos WHERE id = $1"))
    (by decide +kernel)
  obtain ⟨hcolumns, hindexes, htext⟩ := of_decide_eq_true h
  refine ⟨e, notes, hb, hcolumns, hindexes, htext, ?_, ?_⟩
  · rw [hcolumns]
    decide
  · rw [hindexes]
    decide

end Build

end EntityForge
