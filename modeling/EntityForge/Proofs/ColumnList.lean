import EntityForge.Package.Model
import EntityForge.Postgres.Migration
import EntityForge.Proofs.Backend
import EntityForge.Proofs.Provision
import Mathlib.Data.List.Basic

/-!
# Lists of columns

The columns of an entity are listed in many places: by the class that is built from a row, by every
statement that reads or stores a row, and by the table itself. Here each list is read back from the
text it is written in, and all of them are the list of the fields' columns, in order. A projection
has a list of its own, which its class and its lookup share as long as no other projection takes
the lookup over.
-/

namespace EntityForge

namespace Text

/-! ## Reading lists -/

/-- The names at the front of a text, with a comma and a blank between any two. -/
def listed : List Char → List (List Char)
  | ',' :: ' ' :: cs => [] :: listed cs
  | c :: cs => if isNameLineChar c then prependToFirst c (listed cs) else [[]]
  | [] => [[]]

theorem listed_cons {c : Char} (h : c ≠ ',') (cs : List Char) :
    listed (c :: cs) = if isNameLineChar c then prependToFirst c (listed cs) else [[]] := by
  rw [listed]
  exact fun _ hc _ => h hc

/-- A list ends before a character that neither belongs to names nor separates them. -/
theorem listed_of_stop {c : Char} (h : isNameLineChar c = false) (hc : c ≠ ',') (cs : List Char) :
    listed (c :: cs) = [[]] := by
  rw [listed_cons hc, h, if_neg Bool.false_ne_true]

/-- A name in front of a text goes on with the first name there. -/
theorem listed_append {word cs first : List Char} {others : List (List Char)}
    (hword : ∀ c ∈ word, isNameLineChar c = true) (hcs : listed cs = first :: others) :
    listed (word ++ cs) = (word ++ first) :: others := by
  induction word with
  | nil => exact hcs
  | cons c word ih =>
    obtain ⟨hc, hword⟩ := List.forall_mem_cons.mp hword
    have hcomma : c ≠ ',' := by
      rintro rfl
      exact absurd hc (by decide)
    rw [List.cons_append, listed_cons hcomma, hc, if_pos rfl, ih hword]
    rfl

/-- A written list is read back, whatever comes behind it. -/
theorem listed_intercalate {names : List String} (hne : names ≠ [])
    (hnames : ∀ n ∈ names, Plain n) {rest : List Char} (hrest : listed rest = [[]]) :
    listed ((", ".intercalate names).toList ++ rest) = names.map String.toList := by
  rw [String.toList_intercalate]
  induction names with
  | nil => exact absurd rfl hne
  | cons n names ih =>
    obtain ⟨hn, hnames⟩ := List.forall_mem_cons.mp hnames
    cases names with
    | nil => simpa using listed_append hn hrest
    | cons m names =>
      have htail : listed (',' :: ' ' :: (List.intercalate ", ".toList
          ((m :: names).map String.toList) ++ rest)) =
          [] :: (m :: names).map String.toList := by
        rw [listed, ih (List.cons_ne_nil _ _) hnames]
      have hsplit : List.intercalate ", ".toList ((n :: m :: names).map String.toList) ++ rest =
          n.toList ++ ',' :: ' ' ::
            (List.intercalate ", ".toList ((m :: names).map String.toList) ++ rest) := by
        simp [List.intercalate]
      rw [hsplit, listed_append hn htail, List.append_nil]
      rfl

/-- What stands between the first two double quotes. -/
def quotedPart (cs : List Char) : List Char := ((cs.dropWhile (· ≠ '"')).drop 1).takeWhile (· ≠ '"')

/-- The text up to the first blank. -/
def firstWord (cs : List Char) : List Char := cs.takeWhile (· ≠ ' ')

theorem quotedPart_append {before word : List Char} (hbefore : '"' ∉ before) (hword : '"' ∉ word)
    (rest : List Char) : quotedPart (before ++ '"' :: (word ++ '"' :: rest)) = word := by
  rw [quotedPart, dropWhile_append_of_not_mem hbefore, List.drop_one, List.tail_cons,
    takeWhile_append_of_not_mem hword]

end Text

namespace Source

/-- The key by which a line reads a value of a row, if it reads one. -/
def CodeLine.rowKey? (l : CodeLine) : Option String :=
  if '"' ∈ l.text.toList then some (.ofList (Text.quotedPart l.text.toList)) else none

/-- The keys by which a function reads values of a row, in order. -/
def Function.rowKeys (f : Function) : List String := f.body.filterMap CodeLine.rowKey?

end Source

namespace Postgres

/-- The columns that a selection reads. -/
def selectedColumns (sql : String) : List String :=
  (Text.listed (sql.toList.drop "SELECT ".toList.length)).map .ofList

/-- The columns that an insertion fills. -/
def insertedColumns (sql : String) : List String :=
  (Text.listed ((sql.toList.dropWhile (· ≠ '(')).drop 1)).map .ofList

variable {e : Entity}

theorem map_ofList_listed {names : List String} (hne : names ≠ [])
    (hnames : ∀ n ∈ names, Text.Plain n) {rest : List Char} (hrest : Text.listed rest = [[]]) :
    (Text.listed ((", ".intercalate names).toList ++ rest)).map String.ofList = names := by
  rw [Text.listed_intercalate hne hnames hrest, List.map_map]
  exact List.map_id'' (fun _ => String.ofList_toList) names

/-- The columns of a selection are read back from its text. -/
theorem selectedColumns_text {s : Select} (hne : s.columns ≠ [])
    (hcolumns : ∀ c ∈ s.columns, Text.Plain c) : selectedColumns s.text = s.columns := by
  have hempty : s.columns.isEmpty = false := List.isEmpty_eq_false_iff.mpr hne
  obtain ⟨rest, htext⟩ : ∃ rest, s.text.toList =
      "SELECT ".toList ++ ((", ".intercalate s.columns).toList ++ ' ' :: rest) := by
    refine ⟨"FROM ".toList ++ (s.table ++ whereText s.conditions ++
      (s.page.map fun column => s!" ORDER BY {column} DESC LIMIT $1 OFFSET $2").getD "").toList, ?_⟩
    simp only [Select.text, hempty, Bool.false_eq_true, if_false, String.toList_append,
      List.append_assoc]
    rfl
  rw [selectedColumns, htext, List.drop_left]
  exact map_ofList_listed hne hcolumns (Text.listed_of_stop (by decide) (by decide) _)

/-- The columns of an insertion are read back from its text. -/
theorem insertedColumns_text {table : String} {columns : List String} {returning : Option String}
    (htable : '(' ∉ table.toList) (hne : columns ≠ []) (hcolumns : ∀ c ∈ columns, Text.Plain c) :
    insertedColumns (Statement.insert table columns returning).text = columns := by
  obtain ⟨rest, htext⟩ : ∃ rest : String, (Statement.insert table columns returning).text =
      "INSERT INTO " ++ (table ++ (" (" ++ (", ".intercalate columns ++ (")" ++ rest)))) := by
    refine ⟨" VALUES (" ++ (", ".intercalate (placeholders columns.length) ++ (")" ++
      (returning.map fun r => " RETURNING " ++ r).getD "")), ?_⟩
    change "INSERT INTO " ++ table ++ " (" ++ ", ".intercalate columns ++
      (")" ++ " VALUES (") ++ ", ".intercalate (placeholders columns.length) ++ ")" ++
        (returning.map fun r => " RETURNING " ++ r).getD "" = _
    simp only [String.append_assoc]
  have hchars : (Statement.insert table columns returning).text.toList =
      ("INSERT INTO ".toList ++ table.toList ++ [' ']) ++
        '(' :: ((", ".intercalate columns).toList ++ ')' :: rest.toList) := by
    rw [htext]
    simp only [String.toList_append, List.append_assoc]
    rfl
  have hbefore : '(' ∉ "INSERT INTO ".toList ++ table.toList ++ [' '] := by
    simp [htable]
  rw [insertedColumns, hchars, Text.dropWhile_append_of_not_mem hbefore, List.drop_one,
    List.tail_cons]
  exact map_ofList_listed hne hcolumns (Text.listed_of_stop (by decide) (by decide) _)

/-- The definition of a column begins with its name. -/
theorem firstWord_column {c : Column} (hname : ' ' ∉ c.name.toList) :
    Text.firstWord c.text.toList = c.name.toList := by
  have htext : c.text = c.name ++ " " ++ " ".intercalate (c.clauses.drop 1) := by
    simp only [Column.text, Column.clauses, List.append_assoc, List.cons_append, List.nil_append,
      String.intercalate_cons_cons, List.drop_one, List.tail_cons]
  rw [Text.firstWord, htext, String.append_assoc, String.toList_append, String.toList_append]
  exact Text.takeWhile_append_of_not_mem hname _

/-- The definitions of the columns in the order in which the table has them. -/
def columnLines (e : Entity) : List String := e.fields.map fun f => (column e f).text

theorem createTable_eq (e : Entity) :
    createTable e = "CREATE TABLE IF NOT EXISTS " ++ e.fullTable ++ " (\n" ++
      ",\n".intercalate ((columnLines e).map fun line => "    " ++ line) ++ "\n);\n" := by
  rw [columnLines, List.map_map]
  rfl

theorem firstWord_columnLines (he : e.Plain) :
    (columnLines e).map (fun line => String.ofList (Text.firstWord line.toList)) =
      e.columnNames := by
  rw [columnLines, List.map_map]
  refine List.map_congr_left fun f hf => ?_
  have hname : ' ' ∉ (column e f).name.toList := (he.columnName f hf).not_mem (by decide)
  rw [Function.comp_apply, firstWord_column hname, String.ofList_toList]
  rfl

/-- Of the lookups of projections, a name that no other projection uses has the statement of its
own projection and no other. -/
theorem mem_projectionLookups_iff {p : Projection} (hp : p ∈ e.livingProjections)
    (halone : ∀ q ∈ e.livingProjections,
      Entity.projectionLookup q.name = Entity.projectionLookup p.name → q = p) {s : Statement} :
    (Entity.projectionLookup p.name, s) ∈ projectionLookups e ↔ s = projectionSelect e p := by
  have hown {t : Statement} (h : (Entity.projectionLookup p.name, t) ∈ projectionLookups e) :
      t = projectionSelect e p := by
    rcases mem_foldl_lookups (fun _ _ _ => mem_putLookup) h with h | h
    · exact absurd h List.not_mem_nil
    · obtain ⟨q, hq, heq⟩ := List.mem_map.mp h
      obtain ⟨hname, rfl⟩ := Prod.mk.inj heq
      rw [halone q hq hname]
  constructor
  · exact hown
  · rintro rfl
    obtain ⟨⟨name, t⟩, ht, rfl⟩ := List.mem_map.mp (mem_names_projectionLookups.mpr ⟨p, hp, rfl⟩)
    exact hown ht ▸ ht

end Postgres

namespace Package

open Source Postgres

variable {d : EntityDeclaration} {strict : Bool} {e : Entity} {notes : Diagnostics}

/-! ## Rows -/

/-- The line that reads the value of a field of a row. -/
theorem rowKey?_read {name column : String} (hname : '"' ∉ name.toList)
    (hcolumn : '"' ∉ column.toList) :
    (CodeLine.mk 1 (name ++ "=" ++ ("row[\"" ++ column ++ "\"]") ++ ",")).rowKey? =
      some column := by
  have hchars : (name ++ "=" ++ ("row[\"" ++ column ++ "\"]") ++ ",").toList =
      (name.toList ++ "=row[".toList) ++ '"' :: (column.toList ++ '"' :: "],".toList) := by
    simp only [String.toList_append, List.append_assoc]
    rfl
  have hbefore : '"' ∉ name.toList ++ "=row[".toList := by
    simp [hname]
  rw [CodeLine.rowKey?, hchars, if_pos (by simp), Text.quotedPart_append hbefore hcolumn,
    String.ofList_toList]

/-- A class is built from the columns of its fields, in order. -/
theorem rowKeys_fromRow (className : String) {fields : List Field}
    (hnames : ∀ f ∈ fields, Text.Plain f.name) (hcolumns : ∀ f ∈ fields, Text.Plain f.columnName) :
    (fromRow className fields).rowKeys = fields.map Field.columnName := by
  have hread : ∀ f ∈ fields, (CodeLine.mk 1 (f.name ++ "=" ++
      ("row[\"" ++ f.columnName ++ "\"]") ++ ",")).rowKey? = some f.columnName := fun f hf =>
    rowKey?_read ((hnames f hf).not_mem (by decide)) ((hcolumns f hf).not_mem (by decide))
  have hfirst : (CodeLine.mk 0 (toString "return " ++ toString "cls" ++ toString "(")).rowKey? =
      none := by
    decide
  have hlast : (CodeLine.mk 0 ")").rowKey? = none := by decide
  simp only [Function.rowKeys, fromRow, returnCall, rowColumns, List.map_map, List.filterMap_append,
    List.filterMap_cons, List.filterMap_nil, hfirst, hlast, List.nil_append, List.append_nil,
    List.filterMap_map]
  exact List.filterMap_eq_map_iff_forall_eq_some.mpr hread

/-! ## Agreement -/

/-- The columns in the assignment of a constant, between its quotes. -/
def assignedColumns (a : Assignment) : List String :=
  (Text.listed (a.value.toList.drop 1)).map .ofList

theorem assignedColumns_quoted {name : String} {columns : List String} (hne : columns ≠ [])
    (hcolumns : ∀ c ∈ columns, Text.Plain c) :
    assignedColumns ⟨name, "\"" ++ ", ".intercalate columns ++ "\"", none, []⟩ = columns := by
  have hchars : ("\"" ++ ", ".intercalate columns ++ "\"").toList =
      '"' :: ((", ".intercalate columns).toList ++ ['"']) := by
    simp only [String.toList_append, List.append_assoc]
    rfl
  rw [assignedColumns, hchars, List.drop_one, List.tail_cons]
  exact map_ofList_listed hne hcolumns (Text.listed_of_stop (by decide) (by decide) _)

/-- Every list of all columns is one and the same. -/
structure ListsColumns (e : Entity) (columns : List String) : Prop where
  /-- The class of the entity reads them off a row. -/
  rows : ∃ c method, (entityModule e).classes = [c] ∧ c.methods = [method] ∧
    method.name = "from_row" ∧ method.rowKeys = columns
  /-- The statements that find one row or a page of rows select them. -/
  selections : ∀ s ∈ [findById e, listing e, findByIdWithDeleted e, listingWithDeleted e],
    selectedColumns s.text = columns
  /-- The query module, if there is one, holds them in a constant. -/
  query : ∀ runtime m, queryModule? runtime e = some m →
    "COLUMNS" ∈ (assignments m).map Assignment.name ∧
      ∀ a ∈ assignments m, a.name = "COLUMNS" → assignedColumns a = columns
  /-- A new row fills them. -/
  insertion : insertedColumns (insertion e).text = columns
  /-- The table has them. -/
  table : createTable e = "CREATE TABLE IF NOT EXISTS " ++ e.fullTable ++ " (\n" ++
      ",\n".intercalate ((columnLines e).map fun line => "    " ++ line) ++ "\n);\n" ∧
    (columnLines e).map (fun line => String.ofList (Text.firstWord line.toList)) = columns

/-- The shape of a projection reads off a row what the lookup of the projection selects. -/
def ReadsLookup (e : Entity) (p : Projection) : Prop :=
  ∀ runtime, ∃ m c method s, transferModule? runtime e = some m ∧ c ∈ m.classes ∧
    c.name = p.structName e.name ∧ method ∈ c.methods ∧ method.name = "from_row" ∧
    (∀ t, (Entity.projectionLookup p.name, t) ∈ projectionLookups e ↔ t = s) ∧
    method.rowKeys = selectedColumns s.text

theorem fields_ne_nil (e : Entity) : e.fields ≠ [] :=
  List.ne_nil_of_length_pos (Nat.zero_lt_of_lt e.idIndex_lt)

theorem listsColumns (he : e.Plain) : ListsColumns e e.columnNames := by
  have hne : e.columnNames ≠ [] := fun h => fields_ne_nil e (List.map_eq_nil_iff.mp h)
  have hcolumns : ∀ c ∈ e.columnNames, Text.Plain c := by
    intro c hc
    obtain ⟨f, hf, rfl⟩ := List.mem_map.mp hc
    exact he.columnName f hf
  have hselect (s : Select) (hs : s.columns = e.columnNames) :
      selectedColumns s.text = e.columnNames := by
    rw [selectedColumns_text (hs ▸ hne) (hs ▸ hcolumns), hs]
  refine ⟨⟨_, _, rfl, rfl, rfl, ?_⟩, ?_, ?_, ?_, createTable_eq e, firstWord_columnLines he⟩
  · exact rowKeys_fromRow e.name he.fieldName he.columnName
  · simp only [List.forall_mem_cons]
    exact ⟨hselect _ rfl, hselect _ rfl, hselect _ rfl, hselect _ rfl, List.forall_mem_nil _⟩
  · intro runtime m hm
    simp only [queryModule?] at hm
    split at hm
    · cases hm
    · obtain rfl := Option.some.inj hm
      refine ⟨List.mem_cons_of_mem _ List.mem_cons_self, fun a ha hname => ?_⟩
      have ha : a ∈ [⟨"TABLE", "\"" ++ e.fullTable ++ "\"", none, []⟩,
        ⟨"COLUMNS", "\"" ++ queryColumns e ++ "\"", none, []⟩] := ha
      simp only [List.mem_cons, List.not_mem_nil, or_false] at ha
      rcases ha with rfl | rfl
      · exact absurd (show "TABLE" = "COLUMNS" from hname) (by decide)
      · exact assignedColumns_quoted hne hcolumns
  · have htable : '(' ∉ e.fullTable.toList := by
      have hdot : ¬ '(' ∈ ".".toList := by decide
      have hschema : '(' ∉ e.schema.toList := he.schema.not_mem (by decide)
      have hname : '(' ∉ e.table.toList := he.table.not_mem (by decide)
      simp only [Entity.fullTable, toString, String.toList_append, List.mem_append, hschema, hdot,
        hname, or_self, not_false_iff]
    exact insertedColumns_text htable hne hcolumns

/-- A projection that no other takes the lookup from is read as it is selected. -/
theorem readsLookup (he : e.Plain) {p : Projection} (hp : p ∈ e.projections)
    (hfields : e.projectionFields p ≠ [])
    (halone : ∀ q ∈ e.projections,
      Entity.projectionLookup q.name = Entity.projectionLookup p.name → q = p) :
    ReadsLookup e p := by
  intro runtime
  have hliving : p ∈ e.livingProjections :=
    List.mem_filter.mpr ⟨hp, by simpa using hfields⟩
  obtain ⟨imports, hshape⟩ : ∃ imports, (projectionShape e p, imports) ∈ shapes runtime e :=
    projectionShape_mem_shapes hliving
  obtain ⟨m, hm, hclass⟩ := shape_mem_classes hshape
  have hmem : ∀ f ∈ e.projectionFields p, f ∈ e.fields := by
    intro f hf
    obtain ⟨n, -, hn⟩ := List.mem_filterMap.mp hf
    exact List.mem_of_find?_eq_some hn
  have hcolumns : ∀ c ∈ (e.projectionFields p).map Field.columnName, Text.Plain c := by
    intro c hc
    obtain ⟨f, hf, rfl⟩ := List.mem_map.mp hc
    exact he.columnName f (hmem f hf)
  have hkeys := rowKeys_fromRow (p.structName e.name) (fun f hf => he.fieldName f (hmem f hf))
    fun f hf => he.columnName f (hmem f hf)
  have hselected := selectedColumns_text
    (s := ⟨(e.projectionFields p).map Field.columnName, e.fullTable, byId e :: liveOnly e, none⟩)
    (by simpa using hfields) hcolumns
  refine ⟨m, projectionShape e p, _, projectionSelect e p, hm, hclass, rfl,
    List.mem_cons_of_mem _ List.mem_cons_self, rfl, fun t => ?_, ?_⟩
  · exact mem_projectionLookups_iff hliving fun q hq => halone q (List.mem_of_mem_filter hq)
  · exact hkeys.trans hselected.symm

/-- All lists of an entity's columns agree, and so do those of each projection whose lookup is not
taken over by another. -/
theorem column_lists_agree (hb : Build.build d strict = .ok (e, notes)) :
    ListsColumns e e.columnNames ∧ ∀ p ∈ e.projections,
      (∀ q ∈ e.projections, Entity.projectionLookup q.name = Entity.projectionLookup p.name →
        q = p) → ReadsLookup e p := by
  have he := Build.plain_of_build hb
  refine ⟨listsColumns he, fun p hp halone => readsLookup he hp ?_ halone⟩
  obtain ⟨hne, hknown⟩ := (Build.consistent_of_build hb).projection_fields p hp
  obtain ⟨n, ns, hn⟩ := List.exists_cons_of_ne_nil hne
  obtain ⟨f, hf, hname⟩ := List.mem_map.mp (hknown n (hn ▸ List.mem_cons_self))
  -- The first name of the projection is that of a field.
  have hfound : (e.field? n).isSome = true :=
    List.find?_isSome.mpr ⟨f, hf, beq_iff_eq.mpr hname⟩
  obtain ⟨g, hg⟩ := Option.isSome_iff_exists.mp hfound
  exact List.ne_nil_of_mem (List.mem_filterMap.mpr ⟨n, hn ▸ List.mem_cons_self, hg⟩)

/-- An entity with renamed columns and a projection in an order of its own. -/
def bookDeclaration : EntityDeclaration where
  name := "Book"
  attributes := [(.text "table", .text "books"), (.text "soft_delete", .bool true),
    (.text "migrations", .bool true),
    (.text "projections", .map [(.text "Spine", .list [.text "title", .text "id"])])]
  fields := some [
    { name := some "id", type := "uuid"
      attributes := [(.text "id", .bool true),
        (.text "column", .map [(.text "name", .text "key")])] },
    { name := some "title", type := "string"
      attributes := [(.text "filter", .text "like")] },
    { name := some "deleted_at", type := "datetime?" }]

/-- The projection of the book's back. -/
def spine : Projection where
  name := "Spine"
  fields := ["title", "id"]

/-- The lists of the book's columns agree, and so do those of its projection. -/
theorem column_lists_agree_book :
    ∃ e notes, Build.build bookDeclaration false = .ok (e, notes) ∧
      e.columnNames = ["key", "title", "deleted_at"] ∧ e.projections = [spine] ∧
      (projectionSelect e spine).text =
        "SELECT title, key FROM public.books WHERE key = $1 AND deleted_at IS NULL" ∧
      ListsColumns e e.columnNames ∧ ReadsLookup e spine := by
  obtain ⟨e, notes, hb, h⟩ := Build.exists_of_build bookDeclaration false
    (fun e => decide (e.columnNames = ["key", "title", "deleted_at"] ∧ e.projections = [spine] ∧
      (projectionSelect e spine).text =
        "SELECT title, key FROM public.books WHERE key = $1 AND deleted_at IS NULL"))
    (by decide +kernel)
  obtain ⟨hcolumns, hprojections, htext⟩ := of_decide_eq_true h
  obtain ⟨hlists, hreads⟩ := column_lists_agree hb
  refine ⟨e, notes, hb, hcolumns, hprojections, htext, hlists, ?_⟩
  refine hreads spine (hprojections ▸ List.mem_singleton_self _) fun q hq _ => ?_
  exact List.mem_singleton.mp (hprojections ▸ hq)

end Package

end EntityForge
