import EntityForge.Postgres.Statement
import EntityForge.Proofs.Placeholder

/-!
# Placeholders of the static statements

The placeholders of a static statement can be told from its data: an insertion has one for each of
its columns, a condition on a column has its own, and a page has two. In every statement of an
entity they are the numbers from one on, so a statement is called with as many arguments.
-/

namespace EntityForge.Postgres

open Sql (Dollarless numbered)

/-! ## Conditions -/

/-- The parameters of a condition. -/
def Condition.parameters : Condition → List Nat
  | .equals _ parameter => [parameter]
  | .live | .deleted => []

/-- The column of a condition starts no placeholder. -/
def Condition.Dollarless : Condition → Prop
  | .equals column _ => Sql.Dollarless column
  | .live | .deleted => True

theorem placeholders_conditionText {c : Condition} (h : c.Dollarless) :
    Sql.placeholders c.text = c.parameters.map toString := by
  cases c with
  | equals column parameter =>
    have htext : (Condition.equals column parameter).text =
        column ++ (" = " ++ ("$" ++ toString parameter)) := by
      have hsign : " = $" = " = " ++ "$" := rfl
      change column ++ " = $" ++ toString parameter = _
      rw [hsign]
      simp only [String.append_assoc]
    rw [htext, Sql.placeholders_skip h, Sql.placeholders_skip (by decide),
      Sql.placeholders_parameter]
    rfl
  | live => rfl
  | deleted => rfl

/-- The clause for some conditions has the parameters of the conditions. -/
theorem placeholders_whereText {conditions : List Condition}
    (h : ∀ c ∈ conditions, c.Dollarless) :
    Sql.placeholders (whereText conditions) =
      (conditions.flatMap Condition.parameters).map toString := by
  have hflat : (conditions.map Condition.text).flatMap Sql.placeholders =
      (conditions.flatMap Condition.parameters).map toString := by
    rw [List.flatMap_map, List.map_flatMap, List.flatMap_def, List.flatMap_def]
    exact congrArg List.flatten
      (List.map_congr_left fun c hc => placeholders_conditionText (h c hc))
  cases conditions with
  | nil => rfl
  | cons c cs =>
    have hw : whereText (c :: cs) =
        " WHERE " ++ " AND ".intercalate ((c :: cs).map Condition.text) := rfl
    rw [hw, Sql.placeholders_skip (by decide),
      Sql.placeholders_intercalate (by decide) rfl, hflat]

/-! ## Statements -/

/-- The parameters of a statement, from left to right. -/
def Statement.parameters : Statement → List Nat
  | .insert _ columns _ => List.range' 1 columns.length
  | .select s => s.conditions.flatMap Condition.parameters ++ if s.page.isSome then [1, 2] else []
  | .delete _ conditions => conditions.flatMap Condition.parameters
  | .mark _ _ conditions => conditions.flatMap Condition.parameters

/-- No name in a statement starts a placeholder. -/
def Statement.Dollarless : Statement → Prop
  | .insert table columns returning => Sql.Dollarless table ∧ (∀ c ∈ columns, Sql.Dollarless c) ∧
    ∀ r ∈ returning, Sql.Dollarless r
  | .select s => (∀ c ∈ s.columns, Sql.Dollarless c) ∧ Sql.Dollarless s.table ∧
    (∀ c ∈ s.conditions, c.Dollarless) ∧ ∀ c ∈ s.page, Sql.Dollarless c
  | .delete table conditions => Sql.Dollarless table ∧ ∀ c ∈ conditions, c.Dollarless
  | .mark table _ conditions => Sql.Dollarless table ∧ ∀ c ∈ conditions, c.Dollarless

/-- The numbers of the placeholders of an insertion. -/
theorem placeholders_placeholders (count : Nat) :
    Sql.placeholders (", ".intercalate (placeholders count)) = numbered count := by
  have hone : (fun i => Sql.placeholders s!"${i + 1}") = fun i => [toString (1 + i)] := by
    funext i
    rw [Nat.add_comm 1 i]
    exact Sql.placeholders_parameter (i + 1)
  rw [Sql.placeholders_intercalate (by decide) rfl, placeholders, List.flatMap_map, hone,
    ← List.map_eq_flatMap, numbered, List.range'_eq_map_range, List.map_map]
  rfl

private theorem placeholders_insertText {table : String} {columns : List String}
    {returning : Option String} (h : (Statement.insert table columns returning).Dollarless) :
    Sql.placeholders (Statement.insert table columns returning).text =
      numbered columns.length := by
  obtain ⟨ht, hc, hr⟩ := h
  have hreturning : Sql.Dollarless ((returning.map fun r => " RETURNING " ++ r).getD "") := by
    cases returning with
    | none => exact (by decide : Sql.Dollarless "")
    | some r => exact Dollarless.append (by decide) (hr r rfl)
  have htext : (Statement.insert table columns returning).text =
      "INSERT INTO " ++ (table ++ (" (" ++ (", ".intercalate columns ++ (") VALUES (" ++
        (", ".intercalate (placeholders columns.length) ++ (")" ++
          (returning.map fun r => " RETURNING " ++ r).getD "")))))) := by
    change "INSERT INTO " ++ table ++ " (" ++ ", ".intercalate columns ++ ") VALUES (" ++
      ", ".intercalate (placeholders columns.length) ++ ")" ++
        (returning.map fun r => " RETURNING " ++ r).getD "" = _
    simp only [String.append_assoc]
  rw [htext, Sql.placeholders_skip (by decide), Sql.placeholders_skip ht,
    Sql.placeholders_skip (by decide),
    Sql.placeholders_skip (Sql.dollarless_intercalate (by decide) hc),
    Sql.placeholders_skip (by decide), Sql.placeholders_append (Sql.apart_append rfl),
    placeholders_placeholders, Sql.placeholders_skip (by decide),
    Sql.placeholders_of_dollarless hreturning, List.append_nil]

private theorem placeholders_selectText {s : Select} (h : (Statement.select s).Dollarless) :
    Sql.placeholders s.text = (Statement.select s).parameters.map toString := by
  obtain ⟨hc, ht, hw, hp⟩ := h
  have hcolumns :
      Sql.Dollarless (if s.columns.isEmpty then "*" else ", ".intercalate s.columns) := by
    split
    · decide
    · exact Sql.dollarless_intercalate (by decide) hc
  have hfront : Sql.Dollarless ("SELECT " ++
      (if s.columns.isEmpty then "*" else ", ".intercalate s.columns) ++ " FROM " ++ s.table) :=
    (((show Sql.Dollarless "SELECT " by decide).append hcolumns).append (by decide)).append ht
  rw [Select.text, String.append_assoc, Sql.placeholders_skip hfront]
  cases hpage : s.page with
  | none =>
    rw [Option.map_none, Option.getD_none, String.append_empty, placeholders_whereText hw]
    simp [Statement.parameters, hpage]
  | some column =>
    have htext : ((some column).map fun c => s!" ORDER BY {c} DESC LIMIT $1 OFFSET $2").getD "" =
        " ORDER BY " ++ (column ++ " DESC LIMIT $1 OFFSET $2") := String.append_assoc ..
    rw [htext, Sql.placeholders_append (Sql.apart_append rfl), placeholders_whereText hw,
      Sql.placeholders_skip (by decide), Sql.placeholders_skip (hp column hpage)]
    simp [Statement.parameters, hpage]
    rfl

/-- The placeholders of a statement are its parameters. -/
theorem placeholders_text {s : Statement} (h : s.Dollarless) :
    Sql.placeholders s.text = s.parameters.map toString := by
  cases s with
  | insert table columns returning =>
    rw [placeholders_insertText h]
    rfl
  | select s =>
    change Sql.placeholders s.text = _
    exact placeholders_selectText h
  | delete table conditions =>
    have hfront : Sql.Dollarless ("DELETE FROM " ++ table) := Dollarless.append (by decide) h.1
    change Sql.placeholders ("DELETE FROM " ++ table ++ whereText conditions) = _
    rw [Sql.placeholders_skip hfront, placeholders_whereText h.2]
    rfl
  | mark table deleted conditions =>
    have hvalue : Sql.Dollarless (if deleted then "NOW()" else "NULL") := by
      cases deleted <;> decide
    have hfront : Sql.Dollarless ("UPDATE " ++ table ++ " SET deleted_at = " ++
        (if deleted then "NOW()" else "NULL")) :=
      (((show Sql.Dollarless "UPDATE " by decide).append h.1).append (by decide)).append hvalue
    have htext : (Statement.mark table deleted conditions).text = ("UPDATE " ++ table ++
        " SET deleted_at = " ++ (if deleted then "NOW()" else "NULL")) ++ whereText conditions :=
      rfl
    rw [htext, Sql.placeholders_skip hfront, placeholders_whereText h.2]
    rfl

/-! ## Lookups -/

section Lookups

variable {l m : String × Statement} {ls entries : Lookups}

/-- A lookup is set in the place of another of its name, or behind all others. -/
theorem mem_putLookup (h : l ∈ putLookup m.1 m.2 ls) : l ∈ ls ∨ l = m := by
  induction ls with
  | nil => exact Or.inr (List.mem_singleton.mp h)
  | cons k ls ih =>
    simp only [putLookup] at h
    split at h
    · rename_i hname
      rcases List.mem_cons.mp h with h | h
      · exact Or.inr (by rw [h, hname])
      · exact Or.inl (List.mem_cons_of_mem _ h)
    · rcases List.mem_cons.mp h with h | h
      · exact Or.inl (h ▸ List.mem_cons_self)
      · exact (ih h).imp_left (List.mem_cons_of_mem _)

theorem names_putLookup {n : String} :
    n ∈ (putLookup m.1 m.2 ls).map Prod.fst ↔ n ∈ ls.map Prod.fst ∨ n = m.1 := by
  induction ls with
  | nil => simp [putLookup]
  | cons k ls ih =>
    simp only [putLookup]
    split
    · rename_i hname
      rw [List.map_cons, List.mem_cons, List.map_cons, List.mem_cons, hname, or_assoc,
        or_left_comm, or_self]
      exact or_comm
    · rw [List.map_cons, List.mem_cons, ih, List.map_cons, List.mem_cons, or_assoc]

theorem mem_addLookup (h : l ∈ addLookup ls m) : l ∈ ls ∨ l = m := by
  simp only [addLookup] at h
  split at h
  · exact Or.inl h
  · exact (List.mem_append.mp h).imp_right List.mem_singleton.mp

theorem names_addLookup {n : String} :
    n ∈ (addLookup ls m).map Prod.fst ↔ n ∈ ls.map Prod.fst ∨ n = m.1 := by
  simp only [addLookup]
  split
  · rename_i hany
    obtain ⟨k, hk, hname⟩ := List.any_eq_true.mp hany
    refine (or_iff_left_of_imp fun hn => ?_).symm
    exact List.mem_map.mpr ⟨k, hk, (beq_iff_eq.mp hname).trans hn.symm⟩
  · simp

/-- Lookups that are taken in one after another come from the entries. -/
theorem mem_foldl_lookups {step : Lookups → String × Statement → Lookups}
    (hstep : ∀ ls m l, l ∈ step ls m → l ∈ ls ∨ l = m) (h : l ∈ entries.foldl step ls) :
    l ∈ ls ∨ l ∈ entries := by
  induction entries generalizing ls with
  | nil => exact Or.inl h
  | cons m entries ih =>
    rcases ih h with h | h
    · rcases hstep ls m l h with h | rfl
      · exact Or.inl h
      · exact Or.inr List.mem_cons_self
    · exact Or.inr (List.mem_cons_of_mem _ h)

/-- Whatever is taken in one after another, every name has a statement in the end. -/
theorem names_foldl_lookups {step : Lookups → String × Statement → Lookups} {n : String}
    (hstep : ∀ ls m, n ∈ (step ls m).map Prod.fst ↔ n ∈ ls.map Prod.fst ∨ n = m.1) :
    n ∈ (entries.foldl step ls).map Prod.fst ↔
      n ∈ ls.map Prod.fst ∨ n ∈ entries.map Prod.fst := by
  induction entries generalizing ls with
  | nil => simp
  | cons m entries ih =>
    rw [List.foldl_cons, ih, hstep, List.map_cons, List.mem_cons, or_assoc]

theorem nodup_putLookup (h : (ls.map Prod.fst).Nodup) :
    ((putLookup m.1 m.2 ls).map Prod.fst).Nodup := by
  induction ls with
  | nil => simp [putLookup]
  | cons k ls ih =>
    rw [List.map_cons, List.nodup_cons] at h
    simp only [putLookup]
    split
    · rw [List.map_cons, List.nodup_cons]
      exact h
    · rename_i hname
      rw [List.map_cons, List.nodup_cons, names_putLookup]
      exact ⟨fun hk => hk.elim h.1 hname, ih h.2⟩

theorem nodup_addLookup (h : (ls.map Prod.fst).Nodup) :
    ((addLookup ls m).map Prod.fst).Nodup := by
  simp only [addLookup]
  split
  · exact h
  · rename_i hany
    rw [List.map_append, List.nodup_append]
    refine ⟨h, by simp, fun a ha b hb hab => hany ?_⟩
    obtain ⟨k, hk, rfl⟩ := List.mem_map.mp ha
    rw [List.map_singleton, List.mem_singleton] at hb
    exact List.any_eq_true.mpr ⟨k, hk, beq_iff_eq.mpr (hab.trans hb)⟩

/-- A step that gives no name a second statement gives none in the end. -/
theorem nodup_foldl_lookups {step : Lookups → String × Statement → Lookups}
    (hstep : ∀ ls m, (ls.map Prod.fst).Nodup → ((step ls m).map Prod.fst).Nodup)
    (h : (ls.map Prod.fst).Nodup) : ((entries.foldl step ls).map Prod.fst).Nodup := by
  induction entries generalizing ls with
  | nil => exact h
  | cons m entries ih => exact ih (hstep ls m h)

end Lookups

/-- A statement for the rows that one value selects. -/
structure Statement.ByOne (s : Statement) : Prop where
  dollarless : s.Dollarless
  parameters : s.parameters = [1]

variable {e : Entity}

theorem relatedTable_dollarless (he : e.Plain) (target : String) :
    Sql.Dollarless (e.relatedTable target) :=
  ((Sql.dollarless_of_plain he.schema).append (by decide)).append
    (Sql.dollarless_of_plain (Text.plain_plural (Text.plain_snakeCase target)))

theorem byId_dollarless (he : e.Plain) : (byId e).Dollarless := he.idColumn_dollarless

theorem liveOnly_dollarless : ∀ c ∈ liveOnly e, c.Dollarless := by
  intro c hc
  simp only [liveOnly] at hc
  split at hc
  · rw [List.mem_singleton.mp hc]
    trivial
  · simp at hc

theorem flatMap_liveOnly : (liveOnly e).flatMap Condition.parameters = [] := by
  unfold liveOnly
  split <;> rfl

/-- The insertion has a placeholder for every field. -/
theorem insertion_spec (he : e.Plain) :
    (insertion e).Dollarless ∧ (insertion e).parameters = List.range' 1 e.fields.length := by
  refine ⟨⟨he.fullTable_dollarless, he.columns_dollarless, fun r hr => ?_⟩, ?_⟩
  · unfold returningClause at hr
    split at hr
    · obtain rfl := Option.some.inj hr
      decide
    · obtain rfl := Option.some.inj hr
      exact he.idColumn_dollarless
    · simp at hr
  · rw [insertion, Statement.parameters, Entity.columnNames, List.length_map]

/-- A page has a placeholder for its limit and one for its offset. -/
theorem page_spec (he : e.Plain) {conditions : List Condition}
    (hd : ∀ c ∈ conditions, c.Dollarless) (hp : conditions.flatMap Condition.parameters = []) :
    (Statement.select
      ⟨e.columnNames, e.fullTable, conditions, some e.idField.columnName⟩).Dollarless ∧
    (Statement.select
      ⟨e.columnNames, e.fullTable, conditions, some e.idField.columnName⟩).parameters = [1, 2] := by
  refine ⟨⟨he.columns_dollarless, he.fullTable_dollarless, hd, fun c hc => ?_⟩, ?_⟩
  · obtain rfl := Option.some.inj hc
    exact he.idColumn_dollarless
  · simp [Statement.parameters, hp]

/-- Conditions of which the first is on the identifier. -/
private theorem byId_cons (he : e.Plain) {conditions : List Condition}
    (hd : ∀ c ∈ conditions, c.Dollarless) (hp : conditions.flatMap Condition.parameters = []) :
    (∀ c ∈ byId e :: conditions, c.Dollarless) ∧
      (byId e :: conditions).flatMap Condition.parameters = [1] := by
  refine ⟨List.forall_mem_cons.mpr ⟨byId_dollarless he, hd⟩, ?_⟩
  rw [List.flatMap_cons, hp]
  rfl

/-- A selection of rows by the identifier. -/
theorem byOne_selectById (he : e.Plain) {columns : List String} {conditions : List Condition}
    (hc : ∀ c ∈ columns, Sql.Dollarless c) (hd : ∀ c ∈ conditions, c.Dollarless)
    (hp : conditions.flatMap Condition.parameters = []) :
    (Statement.select ⟨columns, e.fullTable, byId e :: conditions, none⟩).ByOne := by
  obtain ⟨hd, hp⟩ := byId_cons he hd hp
  exact ⟨⟨hc, he.fullTable_dollarless, hd, by simp⟩, by simp [Statement.parameters, hp]⟩

theorem byOne_delete (he : e.Plain) : (Statement.delete e.fullTable [byId e]).ByOne :=
  ⟨⟨he.fullTable_dollarless, (byId_cons he (by simp) rfl).1⟩, rfl⟩

theorem byOne_mark (he : e.Plain) (deleted : Bool) {condition : Condition}
    (hd : condition.Dollarless) (hp : condition.parameters = []) :
    (Statement.mark e.fullTable deleted [byId e, condition]).ByOne := by
  have hp : [condition].flatMap Condition.parameters = [] := by simp [hp]
  obtain ⟨hd, hp⟩ := byId_cons he (List.forall_mem_singleton.mpr hd) hp
  exact ⟨⟨he.fullTable_dollarless, hd⟩, hp⟩

/-- A selection by one column of a table that exists in some schema. -/
private theorem byOne_select {columns : List String} {table column : String}
    (hc : ∀ c ∈ columns, Sql.Dollarless c) (ht : Sql.Dollarless table)
    (hk : Sql.Dollarless column) :
    (Statement.select ⟨columns, table, [.equals column 1], none⟩).ByOne := by
  refine ⟨⟨hc, ht, ?_, by simp⟩, rfl⟩
  intro c h
  rw [List.mem_singleton.mp h]
  exact hk

theorem byOne_projectionSelect (he : e.Plain) (p : Projection) : (projectionSelect e p).ByOne := by
  refine byOne_selectById he (fun c hc => ?_) liveOnly_dollarless flatMap_liveOnly
  obtain ⟨f, hf, rfl⟩ := List.mem_map.mp hc
  obtain ⟨n, -, hn⟩ := List.mem_filterMap.mp hf
  exact Sql.dollarless_of_plain (he.columnName f (List.mem_of_find?_eq_some hn))

/-- The lookup of a projection has a name like those of the other lookups. -/
theorem projectionLookup_eq (projection : String) : Entity.projectionLookup projection =
    "find_" ++ ("by_id_" ++ Text.snakeCase projection) := by
  rw [← String.append_assoc]
  rfl

/-- Every lookup is the statement of a method that finds something by one value. -/
theorem byOne_of_mem_lookups (he : e.Plain) {l : String × Statement}
    (h : l ∈ parentLookups e ++ childLookups e ++ projectionLookups e) :
    (∃ x, l.1 = "find_" ++ x) ∧ l.2.ByOne := by
  rcases List.mem_append.mp h with h | h
  · rcases List.mem_append.mp h with h | h
    · rcases mem_foldl_lookups (fun _ _ _ => mem_addLookup) h with h | h
      · simp at h
      · obtain ⟨f, -, rfl⟩ := List.mem_map.mp h
        exact ⟨⟨_, rfl⟩, byOne_select (by simp) (relatedTable_dollarless he _) (by decide)⟩
    · rcases mem_foldl_lookups (fun _ _ _ => mem_putLookup) h with h | h
      · simp at h
      · obtain ⟨child, -, rfl⟩ := List.mem_map.mp h
        have hk : Sql.Dollarless e.childColumn :=
          (Sql.dollarless_of_plain (Text.plain_snakeCase e.name)).append (by decide)
        exact ⟨⟨_, rfl⟩, byOne_select (by simp) (relatedTable_dollarless he _) hk⟩
  · rcases mem_foldl_lookups (fun _ _ _ => mem_putLookup) h with h | h
    · simp at h
    · obtain ⟨p, -, rfl⟩ := List.mem_map.mp h
      exact ⟨⟨_, projectionLookup_eq p.name⟩, byOne_projectionSelect he p⟩

theorem mem_names_parentLookups {n : String} : n ∈ (parentLookups e).map Prod.fst ↔
    ∃ f ∈ e.relationFields, Entity.parentLookup f.parent = n := by
  rw [parentLookups, names_foldl_lookups fun _ _ => names_addLookup, List.map_map]
  simp

theorem mem_names_childLookups {n : String} : n ∈ (childLookups e).map Prod.fst ↔
    ∃ child ∈ e.hasMany, Entity.childLookup child = n := by
  rw [childLookups, names_foldl_lookups fun _ _ => names_putLookup, List.map_map]
  simp

theorem mem_names_projectionLookups {n : String} : n ∈ (projectionLookups e).map Prod.fst ↔
    ∃ p ∈ e.livingProjections, Entity.projectionLookup p.name = n := by
  rw [projectionLookups, names_foldl_lookups fun _ _ => names_putLookup, List.map_map]
  simp

/-- Within one kind of lookups, every name has one statement. -/
theorem nodup_names_lookups : ((parentLookups e).map Prod.fst).Nodup ∧
    ((childLookups e).map Prod.fst).Nodup ∧ ((projectionLookups e).map Prod.fst).Nodup :=
  ⟨nodup_foldl_lookups (fun _ _ => nodup_addLookup) List.nodup_nil,
    nodup_foldl_lookups (fun _ _ => nodup_putLookup) List.nodup_nil,
    nodup_foldl_lookups (fun _ _ => nodup_putLookup) List.nodup_nil⟩

end EntityForge.Postgres
