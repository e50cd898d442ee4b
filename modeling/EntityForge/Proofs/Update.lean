import EntityForge.Proofs.Backend
import EntityForge.Proofs.Nullability
import EntityForge.Proofs.Provision
import EntityForge.Proofs.Split
import EntityForge.Sql.Query
import Mathlib.Data.List.Forall2

/-!
# What an update writes

The changes of a request are keyed by the names of fields, the update by columns. The table that the
backend renames them through is read back from the lines it is written in. Since the columns of an
entity are distinct, no two changes come to one column, so that renaming keeps every change, in its
place; and the update assigns to each column the parameter that holds its new value, and takes the
identifier from the last one.
-/

namespace EntityForge

/-! ## Updates of one row -/

namespace Sql

theorem assignments_eq (start : Nat) (columns : List String) :
    assignments start columns =
      (columns.zipIdx start).map fun c => c.1 ++ (" = $" ++ toString c.2) := by
  induction columns generalizing start with
  | nil => rfl
  | cons c cs ih =>
    rw [assignments, ih, List.zipIdx_cons, List.map_cons, ← String.append_assoc]
    rfl

/-- The n-th column takes the n-th parameter. -/
theorem getElem?_assignments (columns : List String) (k : Nat) :
    (assignments 1 columns)[k]? = columns[k]?.map fun c => c ++ (" = $" ++ toString (k + 1)) := by
  rw [assignments_eq, List.getElem?_map, List.getElem?_zipIdx, Option.map_map, Nat.add_comm 1 k]
  rfl

theorem placeholders_assignments {columns : List String} (h : ∀ c ∈ columns, Dollarless c)
    (start : Nat) : (assignments start columns).flatMap placeholders =
      (List.range' start columns.length).map toString := by
  induction columns generalizing start with
  | nil => rfl
  | cons c cs ih =>
    obtain ⟨hc, hcs⟩ := List.forall_mem_cons.mp h
    have hassign : s!"{c} = ${start}" = c ++ (" = " ++ ("$" ++ toString start)) := by
      have hsign : " = $" = " = " ++ "$" := rfl
      change c ++ " = $" ++ toString start = _
      rw [hsign]
      simp only [String.append_assoc]
    rw [assignments, List.flatMap_cons, hassign, placeholders_skip hc, placeholders_skip (by decide),
      placeholders_parameter, ih hcs, List.length_cons, List.range'_succ, List.map_cons,
      List.singleton_append]

/-- What an update says behind the identifier. -/
def Target.ending (t : Target) : String :=
  (if t.softDelete then " AND deleted_at IS NULL" else "") ++
    (if t.returning then " RETURNING *" else "")

theorem Target.ending_apart (t : Target) : Apart t.ending ∧ Dollarless t.ending := by
  rw [ending]
  cases t.softDelete <;> cases t.returning <;> exact ⟨by simp [Apart], by decide⟩

/-- An update writes some changes to the row with an identifier: the n-th column takes the n-th
parameter, and the identifier is the last one. -/
structure Target.Writes (t : Target) (id : Value) (changes : List (String × Value))
    (s : Statement) : Prop where
  text : ∃ assigned : List String, s.text = "UPDATE " ++ t.table ++ " SET " ++
      ", ".intercalate assigned ++ " WHERE " ++ t.idColumn ++ " = $" ++
      toString (changes.length + 1) ++ t.ending ∧
    ∀ k, assigned[k]? = changes[k]?.map fun c => c.1 ++ (" = $" ++ toString (k + 1))
  placeholders : placeholders s.text = numbered (changes.length + 1)
  parameters : s.parameters = changes.map Prod.snd ++ [id]

theorem placeholders_update {t : Target} (htable : Dollarless t.table)
    (hid : Dollarless t.idColumn) (assigned : List String) (n : Nat) :
    placeholders ("UPDATE " ++ t.table ++ " SET " ++ ", ".intercalate assigned ++ " WHERE " ++
        t.idColumn ++ " = $" ++ toString n ++ t.ending) =
      assigned.flatMap placeholders ++ [toString n] := by
  obtain ⟨hapart, hending⟩ := t.ending_apart
  have htext : "UPDATE " ++ t.table ++ " SET " ++ ", ".intercalate assigned ++ " WHERE " ++
        t.idColumn ++ " = $" ++ toString n ++ t.ending =
      "UPDATE " ++ (t.table ++ (" SET " ++ (", ".intercalate assigned ++ (" WHERE " ++
        (t.idColumn ++ (" = " ++ (("$" ++ toString n) ++ t.ending))))))) := by
    have hsign : " = $" = " = " ++ "$" := rfl
    rw [hsign]
    simp only [String.append_assoc]
  rw [htext, placeholders_skip (by decide), placeholders_skip htable, placeholders_skip (by decide),
    placeholders_append (apart_append rfl), placeholders_intercalate (by decide) rfl,
    placeholders_skip (by decide), placeholders_skip hid, placeholders_skip (by decide),
    placeholders_append hapart, placeholders_parameter, placeholders_of_dollarless hending,
    List.append_nil]

/-- With a change there is an update, and it writes the changes. -/
theorem update?_writes {t : Target} (htable : Dollarless t.table) (hid : Dollarless t.idColumn)
    {changes : List (String × Value)} (hne : changes ≠ [])
    (hcolumns : ∀ c ∈ changes, Dollarless c.1) (id : Value) :
    ∃ s, update? t id changes = some s ∧ t.Writes id changes s := by
  have hempty : changes.isEmpty = false := List.isEmpty_eq_false_iff.mpr hne
  have hplaceholders : (assignments 1 (changes.map Prod.fst)).flatMap placeholders =
      numbered changes.length := by
    rw [placeholders_assignments (List.forall_mem_map.mpr hcolumns), List.length_map]
    rfl
  rw [update?, hempty, if_neg Bool.false_ne_true]
  refine ⟨_, rfl, ⟨assignments 1 (changes.map Prod.fst), String.append_assoc .., fun k => ?_⟩, ?_,
    rfl⟩
  · rw [getElem?_assignments, List.getElem?_map, Option.map_map]
    rfl
  · dsimp only
    rw [String.append_assoc]
    refine (placeholders_update htable hid _ _).trans ?_
    rw [hplaceholders, numbered_succ]

end Sql

/-! ## The table of columns -/

namespace Source

/-- The key and the value in a line of a written mapping between texts. -/
def CodeLine.textPair? (l : CodeLine) : Option (String × String) :=
  match Text.splitOn '"' l.text.toList with
  | [_, key, _, value, _] => some (.ofList key, .ofList value)
  | _ => none

/-- The entries of a written mapping between texts, in order. -/
def Assignment.textPairs (a : Assignment) : List (String × String) :=
  a.more.filterMap CodeLine.textPair?

/-- An entry is read back if no quote stands in it. -/
theorem textPair?_entry {key value : String} (hkey : '"' ∉ key.toList)
    (hvalue : '"' ∉ value.toList) :
    (CodeLine.mk 1 ("\"" ++ key ++ "\": \"" ++ value ++ "\",")).textPair? = some (key, value) := by
  have hchars : ("\"" ++ key ++ "\": \"" ++ value ++ "\",").toList =
      [] ++ '"' :: (key.toList ++ '"' :: (": ".toList ++ '"' :: (value.toList ++ '"' :: [',']))) := by
    simp only [String.toList_append, List.append_assoc]
    rfl
  have hpieces : Text.splitOn '"' ("\"" ++ key ++ "\": \"" ++ value ++ "\",").toList =
      [[], key.toList, ": ".toList, value.toList, [',']] := by
    rw [hchars, Text.splitOn_append, Text.splitOn_append, Text.splitOn_append, Text.splitOn_append,
      Text.splitOn_of_not_mem hkey, Text.splitOn_of_not_mem hvalue]
    rfl
  simp only [CodeLine.textPair?, hpieces, String.ofList_toList]

end Source

/-- The value that a mapping has under a key: of several entries the last counts. -/
def valueUnder? (entries : List (String × String)) (key : String) : Option String :=
  (entries.reverse.find? fun c => c.1 == key).map Prod.snd

/-- Values under new keys, which are looked up one after another; nothing if one is not found. A
later value takes the place of an earlier one under the same key. -/
def renamed? (table : List (String × String)) (changes : Context) : Option Context :=
  changes.foldlM (fun done c => (valueUnder? table c.1).map fun key => done.set key c.2) []

theorem set_of_not_mem {key : String} {value : Value} {done : Context}
    (h : key ∉ done.map Prod.fst) : done.set key value = done ++ [(key, value)] := by
  induction done with
  | nil => rfl
  | cons c done ih =>
    rw [List.map_cons, List.mem_cons, not_or] at h
    rw [Context.set, if_neg (Ne.symm h.1), ih h.2, List.cons_append]

/-- Renaming keeps every value in its place where the new keys are distinct. -/
theorem renamed?_of_nodup {table : List (String × String)} {key : String → String}
    {changes : Context} (hfound : ∀ c ∈ changes, valueUnder? table c.1 = some (key c.1))
    (hdistinct : (changes.map fun c => key c.1).Nodup) :
    renamed? table changes = some (changes.map fun c => (key c.1, c.2)) := by
  -- The values that are renamed already stand in front, under keys of their own.
  have hbehind (done : Context) :
      (done.map Prod.fst ++ changes.map fun c => key c.1).Nodup →
      changes.foldlM (fun done c => (valueUnder? table c.1).map fun k => done.set k c.2) done =
        some (done ++ changes.map fun c => (key c.1, c.2)) := by
    clear hdistinct
    induction changes generalizing done with
    | nil =>
      intro _
      rw [List.map_nil, List.append_nil]
      rfl
    | cons c changes ih =>
      intro hnodup
      obtain ⟨hc, hrest⟩ := List.forall_mem_cons.mp hfound
      rw [List.map_cons, List.append_cons] at hnodup
      have hfront := (List.nodup_append.mp hnodup).1
      have hnew : key c.1 ∉ done.map Prod.fst := fun hm =>
        (List.nodup_append.mp hfront).2.2 _ hm _ (List.mem_singleton_self _) rfl
      rw [List.foldlM_cons, hc, Option.map_some, Option.bind_eq_bind, Option.bind_some,
        set_of_not_mem hnew, ih hrest, List.append_assoc]
      · rfl
      · rwa [List.map_append]
  exact hbehind [] hdistinct

namespace Package

open Source Postgres

variable {d : EntityDeclaration} {strict : Bool} {e : Entity} {notes : Diagnostics} {f : Field}

/-- Nothing is assigned under the name of the table of columns but the table. -/
theorem mem_updateTable {runtime : String} {a : Assignment}
    (ha : a ∈ assignments (backendModule runtime e)) (hname : a.name = "UPDATE_COLUMNS") :
    a ∈ (updateTable e).flatten := by
  rw [assignments_backendModule, List.mem_append, List.mem_append] at ha
  rcases ha with h | h | h
  · simp only [List.mem_cons, List.not_mem_nil, or_false] at h
    rcases h with rfl | rfl <;> exact absurd hname (by simp)
  · obtain ⟨c, hc, rfl⟩ := List.mem_map.mp h
    have hlast : "UPDATE_COLUMNS".toList.getLast? = some 'L' := hname ▸ getLast?_of_mem_constants hc
    exact absurd hlast (by decide)
  · exact h

/-- The lines of the table hold an entry for each field that may be changed. -/
theorem textPairs_updateTable (he : e.Plain) {a : Assignment}
    (ha : a ∈ (updateTable e).flatten) : a.textPairs = updateColumns e := by
  have hread : ∀ f ∈ e.updateFields, (CodeLine.mk 1
      ("\"" ++ f.name ++ "\": \"" ++ f.columnName ++ "\",")).textPair? =
        some (f.name, f.columnName) := by
    intro f hf
    have hmem := (mem_updateFields.mp hf).1
    exact textPair?_entry ((he.fieldName f hmem).not_mem (by decide))
      ((he.columnName f hmem).not_mem (by decide))
  have hlast : (CodeLine.mk 0 "\x7d").textPair? = none := by decide
  rw [updateTable] at ha
  split at ha
  · exact absurd ha List.not_mem_nil
  · rw [List.flatten_singleton, List.mem_singleton] at ha
    rw [ha, Assignment.textPairs, List.filterMap_append, List.filterMap_cons, hlast,
      List.filterMap_nil, List.append_nil, updateColumns, List.map_map, List.filterMap_map]
    exact List.filterMap_eq_map_iff_forall_eq_some.mpr hread

/-- The class of the request declares the fields that may be changed. -/
theorem declaredNames_updateRequest (he : e.Plain) :
    (updateRequest e).declarations.map declaredName = e.updateFields.map Field.name := by
  have hcolon : ∀ f ∈ e.updateFields, ':' ∉ f.name.toList := fun f hf =>
    (he.fieldName f (mem_updateFields.mp hf).1).not_mem (by decide)
  have hlines : (updateRequest e).declarations =
      e.updateFields.map fun f => (shapeField true f).text := by
    simp only [ClassBlock.declarations, updateRequest, shapeAttributes, List.flatMap_cons,
      List.flatMap_nil, List.append_nil]
  rw [hlines, declaredNames_shapeFields true hcolon]

/-- The update aims at the table and the identifier of the entity. -/
def updateTarget (e : Entity) : Sql.Target where
  table := e.fullTable
  idColumn := e.idField.columnName
  softDelete := e.softDelete
  returning := e.returning == .full

/-- The method of the backend renames the changes of its request through the table of columns and
puts the update of the target together. -/
structure RunsUpdate (e : Entity) (runtime : String) : Prop where
  method : ∃ m ∈ repositoryMethods e, m.name = "update" ∧ methodSteps e m = updateSteps e
  table : ⟨"TABLE", literal (updateTarget e).table, none, []⟩ ∈
    assignments (backendModule runtime e)
  idColumn : ⟨"ID_COLUMN", literal (updateTarget e).idColumn, none, []⟩ ∈
    assignments (backendModule runtime e)
  renames : [.line 0 "changes = \x7bUPDATE_COLUMNS[k]: v for k, v in dto.changes().items()\x7d"] <+:
    updateSteps e
  building : [.line 0 "sql, params = build_update(", .line 1 "TABLE, ID_COLUMN, id, changes,",
    .line 1 ("soft_delete=" ++ boolText (updateTarget e).softDelete ++ ", returning=" ++
      boolText (updateTarget e).returning ++ ","), .line 0 ")"] <:+: updateSteps e

theorem runsUpdate (h : e.updateFields ≠ []) (runtime : String) : RunsUpdate e runtime := by
  have hgiven : e.updateFields.isEmpty = false := List.isEmpty_eq_false_iff.mpr h
  constructor
  case method =>
    have hmethod : ∃ m ∈ updateMethod e, m.name = "update" ∧ methodSteps e m = updateSteps e := by
      rw [updateMethod, hgiven, if_neg Bool.false_ne_true]
      exact ⟨_, List.mem_singleton_self _, rfl, rfl⟩
    obtain ⟨m, hm, hsteps⟩ := hmethod
    refine ⟨m, ?_, hsteps⟩
    simp only [repositoryMethods, List.mem_append, hm, true_or, or_true]
  case table =>
    rw [assignments_backendModule]
    exact List.mem_append_left _ List.mem_cons_self
  case idColumn =>
    rw [assignments_backendModule]
    exact List.mem_append_left _ (List.mem_cons_of_mem _ List.mem_cons_self)
  case renames =>
    exact ⟨_, rfl⟩
  case building =>
    exact ((List.infix_append _ _ _).trans (List.prefix_append _ _).isInfix).trans
      (List.prefix_append _ _).isInfix

/-- The changes of a request come to the columns of their fields. -/
structure Renames (e : Entity) (changes columns : Context) : Prop where
  fields : List.Forall₂ (fun c r => (∃ f ∈ e.updateFields, f.name = c.1 ∧ f.columnName = r.1) ∧
    r.2 = c.2) changes columns
  distinct : (columns.map Prod.fst).Nodup
  kept : ∀ f ∈ e.fields, f.isId = true ∨ f.isAuto = true ∨ f.exposure.skip = true →
    f.columnName ∉ columns.map Prod.fst

/-- Each field that may be changed is found in the table, with its column. -/
theorem valueUnder?_updateColumns (hnames : (e.fields.map Field.name).Nodup)
    (hf : f ∈ e.updateFields) : valueUnder? (updateColumns e) f.name = some f.columnName := by
  have hkeys : ((updateColumns e).map Prod.fst).Nodup := by
    rw [updateColumns, List.map_map]
    exact hnames.sublist (List.filter_sublist.map Field.name)
  have hmem : (f.name, f.columnName) ∈ updateColumns e :=
    List.mem_map.mpr ⟨f, hf, rfl⟩
  rw [valueUnder?, find?_reverse_of_nodup hkeys, find?_of_nodup hkeys hmem]
  rfl

/-- Changes of distinct fields come to the columns of the fields, and none is lost. -/
theorem exists_renames (he : e.Consistent) {changes : Context}
    (hdistinct : (changes.map Prod.fst).Nodup)
    (hfields : ∀ c ∈ changes, c.1 ∈ e.updateFields.map Field.name) :
    ∃ columns, renamed? (updateColumns e) changes = some columns ∧ Renames e changes columns := by
  let key (n : String) : String := (valueUnder? (updateColumns e) n).getD n
  have hkey : ∀ n ∈ changes.map Prod.fst, ∃ f ∈ e.updateFields, f.name = n ∧ f.columnName = key n ∧
      valueUnder? (updateColumns e) n = some (key n) := by
    intro n hn
    obtain ⟨c, hc, rfl⟩ := List.mem_map.mp hn
    obtain ⟨f, hf, hname⟩ := List.mem_map.mp (hfields c hc)
    have hfound := valueUnder?_updateColumns he.fieldNames_nodup hf
    rw [hname] at hfound
    have hcolumn : key c.1 = f.columnName := congrArg (Option.getD · c.1) hfound
    exact ⟨f, hf, hname, hcolumn.symm, hcolumn ▸ hfound⟩
  have hsame {f g : Field} (hf : f ∈ e.fields) (hg : g ∈ e.fields)
      (h : f.columnName = g.columnName) : f = g :=
    List.inj_on_of_nodup_map he.columnNames_nodup hf hg h
  have hnodup : (changes.map fun c => key c.1).Nodup := by
    have hmap : (changes.map fun c => key c.1) = (changes.map Prod.fst).map key := by
      rw [List.map_map]
      rfl
    rw [hmap]
    refine hdistinct.map_on fun m hm n hn heq => ?_
    obtain ⟨f, hf, rfl, hfm, -⟩ := hkey m hm
    obtain ⟨g, hg, rfl, hgn, -⟩ := hkey n hn
    rw [hsame (mem_updateFields.mp hf).1 (mem_updateFields.mp hg).1 (hfm.trans (heq.trans hgn.symm))]
  refine ⟨_, renamed?_of_nodup (fun c hc => ?_) hnodup, ?_, ?_, ?_⟩
  · obtain ⟨-, -, -, -, hfound⟩ := hkey c.1 (List.mem_map_of_mem hc)
    exact hfound
  · refine List.forall₂_map_right_iff.mpr (List.forall₂_same.mpr fun c hc => ⟨?_, rfl⟩)
    obtain ⟨f, hf, hname, hcolumn, -⟩ := hkey c.1 (List.mem_map_of_mem hc)
    exact ⟨f, hf, hname, hcolumn⟩
  · rwa [List.map_map]
  · intro f hf hkept hmem
    rw [List.map_map] at hmem
    obtain ⟨c, hc, hcolumn⟩ := List.mem_map.mp hmem
    obtain ⟨g, hg, -, hgc, -⟩ := hkey c.1 (List.mem_map_of_mem hc)
    obtain rfl : g = f := hsame (mem_updateFields.mp hg).1 hf (hgc.trans hcolumn)
    obtain ⟨-, hin, hid, hauto⟩ := mem_updateFields.mp hg
    simp only [Field.inUpdate, Bool.and_eq_true, Bool.not_eq_true'] at hin
    simp [hid, hauto, hin.1] at hkept

theorem Renames.mem_columnNames {changes columns : Context} (h : Renames e changes columns) :
    ∀ r ∈ columns, r.1 ∈ e.columnNames := by
  obtain ⟨hfields, -, -⟩ := h
  induction hfields with
  | nil => exact fun r hr => absurd hr List.not_mem_nil
  | cons hr _ ih =>
    obtain ⟨⟨f, hf, -, hcolumn⟩, -⟩ := hr
    refine List.forall_mem_cons.mpr ⟨?_, ih⟩
    exact List.mem_map.mpr ⟨f, (mem_updateFields.mp hf).1, hcolumn⟩

/-- For every entity that is built with fields that may be changed, the request declares these
fields, and the backend has a column for each of them and for no other. Whatever fields are changed,
each value comes to the column of its own field, none of which is that of the identifier, of a field
that the database makes or of a skipped one; and the update writes these columns to the row with the
identifier, unless it is marked as deleted. -/
theorem update_writes_changes (hb : Build.build d strict = .ok (e, notes))
    (hgiven : e.updateFields ≠ []) (runtime : String) :
    (∃ m, transferModule? runtime e = some m ∧ updateRequest e ∈ m.classes) ∧
    RunsUpdate e runtime ∧
    (∃ a ∈ assignments (backendModule runtime e), a.name = "UPDATE_COLUMNS") ∧
    ∀ a ∈ assignments (backendModule runtime e), a.name = "UPDATE_COLUMNS" →
      a.textPairs.map Prod.fst = (updateRequest e).declarations.map declaredName ∧
      (updateRequest e).declarations.map declaredName = e.updateFields.map Field.name ∧
      ∀ (id : Value) (changes : Context), changes ≠ [] → (changes.map Prod.fst).Nodup →
        (∀ c ∈ changes, c.1 ∈ e.updateFields.map Field.name) →
        ∃ columns s, renamed? a.textPairs changes = some columns ∧ Renames e changes columns ∧
          Sql.update? (updateTarget e) id columns = some s ∧
          (updateTarget e).Writes id columns s := by
  have he := Build.plain_of_build hb
  have hempty : e.updateFields.isEmpty = false := List.isEmpty_eq_false_iff.mpr hgiven
  refine ⟨?_, runsUpdate hgiven runtime, ?_, fun a ha hname => ?_⟩
  · obtain ⟨imports, hshape⟩ := updateRequest_mem_shapes hempty
    exact shape_mem_classes hshape
  · rw [assignments_backendModule, updateTable, hempty, if_neg Bool.false_ne_true]
    exact ⟨_, List.mem_append_right _ (List.mem_append_right _ (List.mem_singleton_self _)), rfl⟩
  · have hentries := textPairs_updateTable he (mem_updateTable ha hname)
    have hdeclared := declaredNames_updateRequest he
    refine ⟨?_, hdeclared, fun id changes hne hdistinct hfields => ?_⟩
    · rw [hentries, hdeclared, updateColumns, List.map_map]
      rfl
    · obtain ⟨columns, hcolumns, hrenames⟩ :=
        exists_renames (Build.consistent_of_build hb) hdistinct hfields
      have hcolumnsNe : columns ≠ [] := by
        rintro rfl
        exact hne (List.forall₂_nil_right_iff.mp hrenames.fields)
      have hdollarless : ∀ r ∈ columns, Sql.Dollarless r.1 := fun r hr =>
        he.columns_dollarless _ (hrenames.mem_columnNames r hr)
      obtain ⟨s, hs, hwrites⟩ := Sql.update?_writes (t := updateTarget e) he.fullTable_dollarless
        he.idColumn_dollarless hcolumnsNe hdollarless id
      exact ⟨columns, s, hentries ▸ hcolumns, hrenames, hs, hwrites⟩

/-- A memo with a renamed column, a field that the database makes and a skipped one, and with rows
that are marked as deleted. -/
def memoDeclaration : EntityDeclaration where
  name := "Memo"
  attributes := [(.text "table", .text "memos"), (.text "soft_delete", .bool true)]
  fields := some [
    { name := some "id", type := "uuid", attributes := [(.text "id", .bool true)] },
    { name := some "title", type := "string"
      attributes := [(.text "field", .text "update"),
        (.text "column", .map [(.text "name", .text "headline")])] },
    { name := some "text", type := "Option<string>", attributes := [(.text "field", .text "update")] },
    { name := some "changed_at", type := "datetime"
      attributes := [(.text "auto", .bool true), (.text "field", .text "update")] },
    { name := some "secret", type := "string"
      attributes := [(.text "field", .list [.text "skip", .text "update"])] },
    { name := some "deleted_at", type := "Option<datetime>" }]

theorem update_writes_changes_memo : ∃ e notes,
    Build.build memoDeclaration false = .ok (e, notes) ∧
    updateColumns e = [("title", "headline"), ("text", "text")] ∧
    ∃ a ∈ assignments (backendModule "forge" e), a.name = "UPDATE_COLUMNS" ∧
      ∃ columns s, renamed? a.textPairs [("text", .null), ("title", .text "New")] =
          some columns ∧
        Renames e [("text", .null), ("title", .text "New")] columns ∧
        Sql.update? (updateTarget e) (.int 7) columns = some s ∧
        (updateTarget e).Writes (.int 7) columns s := by
  obtain ⟨e, notes, hb, htable⟩ := Build.exists_of_build memoDeclaration false
    (fun e => decide (updateColumns e = [("title", "headline"), ("text", "text")]))
    (by decide +kernel)
  have htable := of_decide_eq_true htable
  have hnames : e.updateFields.map Field.name = ["title", "text"] := by
    have hfst := congrArg (List.map Prod.fst) htable
    rwa [updateColumns, List.map_map] at hfst
  have hgiven : e.updateFields ≠ [] := fun h => by
    rw [h] at hnames
    exact nomatch hnames
  obtain ⟨-, -, ⟨a, ha, hname⟩, hall⟩ := update_writes_changes hb hgiven "forge"
  obtain ⟨-, -, hchanges⟩ := hall a ha hname
  refine ⟨e, notes, hb, htable, a, ha, hname, hchanges (.int 7) _ (List.cons_ne_nil _ _)
    (by decide) ?_⟩
  rw [hnames]
  decide

end Package

end EntityForge
