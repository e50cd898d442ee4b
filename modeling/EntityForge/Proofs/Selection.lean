import EntityForge.Package.Filter
import EntityForge.Proofs.Placeholder
import EntityForge.Sql.Query

/-!
# Numbered selections

A selection numbers its placeholders in the order in which it binds their values. Every condition
template ends in its only placeholder, behind a dollar sign; filled in with a number it is a
condition with that one placeholder. The conditions of the present parameters therefore carry the
numbers from one on, and the page of rows takes the two numbers behind them.
-/

namespace EntityForge.Sql

/-! ## Templates -/

namespace Template

/-- A template ends in its only placeholder, behind a dollar sign. -/
structure EndsInSlot (template front : String) : Prop where
  eq : template = front ++ "$\x7b\x7d"
  dollarless : Dollarless front
  braceless : ∀ c ∈ front.toList, isBrace c = false

/-- An empty placeholder takes the parameter in digits. -/
private theorem fillSlot_empty (expand : Expand) (n : Int) :
    fillSlot expand n .unknown ⟨[], none, []⟩ = .ok ((toString n).toList, .automatic 1) := by
  have hselect : select n [] = .ok n := by rw [select]
  simp only [fillSlot, splitName, List.takeWhile_nil, List.length_nil, List.drop_nil, hselect]
  rfl

private theorem fillFrom_slot {stem : List Char} (h : ∀ c ∈ stem, isBrace c = false) (n : Int)
    (fuel : Nat) :
    fillFrom (expandLayout n) n (fuel + 1) .unknown (stem ++ ['\x7b', '\x7d']) =
      .ok (stem ++ (toString n).toList, .automatic 1) := by
  have htake : (stem ++ ['\x7b', '\x7d']).takeWhile (fun c => !isBrace c) = stem := by
    rw [List.takeWhile_append_of_pos (by simpa using h)]
    simp [isBrace]
  have hdrop : (stem ++ ['\x7b', '\x7d']).dropWhile (fun c => !isBrace c) = ['\x7b', '\x7d'] := by
    rw [List.dropWhile_append_of_pos (by simpa using h)]
    simp [isBrace]
  have hslot : readSlot ['\x7d'] = .ok (⟨[], none, []⟩, []) := by
    simp [readSlot, spanName, readOptions, Bind.bind, Except.bind]
  have hend (numbering : Numbering) :
      fillFrom (expandLayout n) n fuel numbering [] = .ok ([], numbering) := by
    cases fuel <;> rfl
  simp only [fillFrom, htake, hdrop]
  simp [hslot, fillSlot_empty, hend, Bind.bind, Except.bind, pure, Except.pure]

/-- A template that ends in its only placeholder has the number set behind the dollar sign. -/
theorem fill_of_endsInSlot {template front : String} (h : EndsInSlot template front) (n : Nat) :
    fill template n = .ok (front ++ ("$" ++ toString n)) := by
  have hstem : ∀ c ∈ front.toList ++ ['$'], isBrace c = false := by
    intro c hc
    rcases List.mem_append.mp hc with hc | hc
    · exact h.braceless c hc
    · rw [List.mem_singleton.mp hc]
      rfl
  have hcs : template.toList = (front.toList ++ ['$']) ++ ['\x7b', '\x7d'] := by
    rw [h.eq, String.toList_append, List.append_assoc]
    rfl
  have hfilled : String.ofList (front.toList ++ ['$'] ++ (toString (n : Int)).toList) =
      front ++ ("$" ++ toString n) := by
    rw [← String.toList_inj, String.toList_ofList, String.toList_append, String.toList_append,
      List.append_assoc]
    rfl
  simp only [fill, hcs, fillFrom_slot hstem, Bind.bind, Except.bind, pure, Except.pure, hfilled]

/-- A filled template has one placeholder, the number it was filled with. -/
theorem placeholders_of_endsInSlot {template front : String} (h : EndsInSlot template front)
    (n : Nat) : placeholders (front ++ ("$" ++ toString n)) = [toString n] := by
  rw [placeholders_skip h.dollarless, placeholders_parameter]

end Template

/-! ## Conditions -/

/-- The candidates whose value is present. -/
def present {α : Type} (candidates : List (α × Option Value)) : List (α × Value) :=
  candidates.filterMap fun c => c.2.map fun v => (c.1, v)

/-- The conditions of the present candidates, numbered from `start`: the n-th is the n-th template
with its number, and binds the n-th value. -/
theorem bind_of_endsInSlot {candidates : List (String × Option Value)}
    (h : ∀ c ∈ candidates, ∃ front, Template.EndsInSlot c.1 front) (start : Nat) :
    ∃ conditions, bind start candidates = .ok (conditions, (present candidates).map Prod.snd) ∧
      conditions.length = (present candidates).length ∧
      (∀ i c, (present candidates)[i]? = some c → ∃ front, c.1 = front ++ "${}" ∧
        conditions[i]? = some (front ++ ("$" ++ toString (start + i)))) ∧
      conditions.flatMap placeholders =
        (List.range' start (present candidates).length).map toString := by
  induction candidates generalizing start with
  | nil => exact ⟨[], rfl, rfl, by simp [present], rfl⟩
  | cons c rest ih =>
    obtain ⟨template, value⟩ := c
    rw [List.forall_mem_cons] at h
    cases value with
    | none =>
      exact ih h.2 start
    | some v =>
      obtain ⟨front, hf⟩ := h.1
      obtain ⟨conditions, hb, hl, hc, hp⟩ := ih h.2 (start + 1)
      have hpresent : present ((template, some v) :: rest) = (template, v) :: present rest := rfl
      refine ⟨(front ++ ("$" ++ toString start)) :: conditions, ?_, ?_, ?_, ?_⟩
      · rw [hpresent]
        have hb : bind ((start : Int) + 1) rest = .ok (conditions, (present rest).map Prod.snd) :=
          hb
        simp only [bind, Template.fill_of_endsInSlot hf, hb, Bind.bind, Except.bind, pure,
          Except.pure, List.map_cons]
      · rw [hpresent, List.length_cons, List.length_cons, hl]
      · intro i c hi
        rw [hpresent] at hi
        cases i with
        | zero =>
          obtain rfl := Option.some.inj hi
          exact ⟨front, hf.eq, rfl⟩
        | succ i =>
          obtain ⟨front', he, hc⟩ := hc i c hi
          refine ⟨front', he, ?_⟩
          rw [List.getElem?_cons_succ, hc, Nat.add_assoc, Nat.add_comm 1 i]
      · rw [hpresent, List.flatMap_cons, Template.placeholders_of_endsInSlot hf, hp,
          List.length_cons, List.range'_succ, List.map_cons, List.singleton_append]

/-! ## Selections -/

/-- Nothing in a selection starts a placeholder. -/
structure Selection.Dollarless (s : Selection) : Prop where
  columns : Sql.Dollarless s.columns
  table : Sql.Dollarless s.table
  fixed : ∀ c ∈ s.fixed, Sql.Dollarless c
  orderBy : Sql.Dollarless s.orderBy

/-- The clause for some conditions has the placeholders of the conditions. -/
theorem placeholders_whereClause (conditions : List String) :
    placeholders (whereClause conditions) = conditions.flatMap placeholders := by
  cases conditions with
  | nil => rfl
  | cons c cs =>
    have hw : whereClause (c :: cs) = " WHERE " ++ " AND ".intercalate (c :: cs) := rfl
    rw [hw, placeholders_skip (by decide), placeholders_intercalate (by decide) rfl]

/-- The text of one page, with `n` values bound before limit and offset. -/
def Selection.pageText (s : Selection) (conditions : List String) (n : Nat) : String :=
  s!"SELECT {s.columns} FROM {s.table}" ++ whereClause (s.fixed ++ conditions) ++
    s!" ORDER BY {s.orderBy} DESC LIMIT ${n + 1} OFFSET ${n + 2}"

/-- The placeholders of one page: those of its conditions, and two for limit and offset. -/
theorem placeholders_pageText {s : Selection} (hs : s.Dollarless) (conditions : List String)
    (n : Nat) :
    placeholders (s.pageText conditions n) =
      conditions.flatMap placeholders ++ [toString (n + 1), toString (n + 2)] := by
  have hfront : Dollarless s!"SELECT {s.columns} FROM {s.table}" :=
    (((show Dollarless "SELECT " by decide).append hs.columns).append (by decide)).append hs.table
  have htail : s!" ORDER BY {s.orderBy} DESC LIMIT ${n + 1} OFFSET ${n + 2}" =
      " ORDER BY " ++ (s.orderBy ++ (" DESC LIMIT " ++ (("$" ++ toString (n + 1)) ++
        (" OFFSET " ++ ("$" ++ toString (n + 2)))))) := by
    have hlimit : " DESC LIMIT $" = " DESC LIMIT " ++ "$" := rfl
    have hoffset : " OFFSET $" = " OFFSET " ++ "$" := rfl
    change " ORDER BY " ++ s.orderBy ++ " DESC LIMIT $" ++ toString (n + 1) ++ " OFFSET $" ++
      toString (n + 2) = _
    rw [hlimit, hoffset]
    simp only [String.append_assoc]
  have hfixed : s.fixed.flatMap placeholders = [] :=
    List.flatMap_eq_nil_iff.mpr fun c hc => placeholders_of_dollarless (hs.fixed c hc)
  rw [Selection.pageText, htail, placeholders_append (apart_append rfl), placeholders_skip hfront,
    placeholders_whereClause, List.flatMap_append, hfixed, List.nil_append,
    placeholders_skip (by decide), placeholders_skip hs.orderBy, placeholders_skip (by decide),
    placeholders_append (apart_append rfl), placeholders_parameter, placeholders_skip (by decide),
    placeholders_parameter]
  rfl

/-- A selection under the conditions whose values are present. -/
structure Selection.Page (s : Selection) (bound : List (String × Value))
    (limit offset : Option Value) (conditions : List String) (page : Statement) : Prop where
  text : page.text = s!"SELECT {s.columns} FROM {s.table}" ++
    (if s.fixed = [] ∧ bound = [] then ""
      else " WHERE " ++ " AND ".intercalate (s.fixed ++ conditions)) ++
    s!" ORDER BY {s.orderBy} DESC LIMIT ${bound.length + 1} OFFSET ${bound.length + 2}"
  placeholders : placeholders page.text = numbered (bound.length + 2)
  conditions_length : conditions.length = bound.length
  condition : ∀ i c, bound[i]? = some c → ∃ front, c.1 = front ++ "$\x7b\x7d" ∧
    conditions[i]? = some (front ++ ("$" ++ toString (i + 1)))
  parameters : page.parameters = bound.map Prod.snd ++
    [limit.getD (.int defaultLimit), offset.getD (.int defaultOffset)]

/-- Selecting succeeds and numbers every placeholder once, in order. -/
theorem select_page {s : Selection} (hs : s.Dollarless)
    {candidates : List (String × Option Value)}
    (h : ∀ c ∈ candidates, ∃ front, Template.EndsInSlot c.1 front) (limit offset : Option Value) :
    ∃ conditions page, select s candidates limit offset = .ok page ∧
      s.Page (present candidates) limit offset conditions page := by
  obtain ⟨conditions, hb, hl, hc, hp⟩ := bind_of_endsInSlot h 1
  have hlength : ((present candidates).map Prod.snd).length = (present candidates).length :=
    List.length_map Prod.snd
  have hb : bind 1 candidates = .ok (conditions, (present candidates).map Prod.snd) := hb
  have hempty : whereClause (s.fixed ++ conditions) =
      if s.fixed = [] ∧ present candidates = [] then ""
      else " WHERE " ++ " AND ".intercalate (s.fixed ++ conditions) := by
    have hnil : conditions = [] ↔ present candidates = [] := by
      rw [← List.length_eq_zero_iff, hl, List.length_eq_zero_iff]
    simp only [whereClause, List.isEmpty_iff, List.append_eq_nil_iff, hnil]
  refine ⟨conditions, ⟨s.pageText conditions (present candidates).length, _⟩, ?_, ?_, ?_, hl, ?_,
    rfl⟩
  · simp only [select, hb, Bind.bind, Except.bind, pure, Except.pure, hlength]
    rfl
  · rw [Selection.pageText, hempty]
  · rw [placeholders_pageText hs, hp, numbered_succ, numbered_succ, numbered, List.append_assoc]
    rfl
  · intro i c hi
    obtain ⟨front, he, hg⟩ := hc i c hi
    exact ⟨front, he, by rw [hg, Nat.add_comm 1 i]⟩

end EntityForge.Sql

namespace EntityForge.Package

open Sql

/-! ## Queries of an entity -/

private theorem endsInSlot_append {column : String} (hc : Text.Plain column)
    (operator : String) (hd : Dollarless operator)
    (hb : (operator.toList.all fun c => !Template.isBrace c) = true) :
    Template.EndsInSlot (column ++ (operator ++ "$\x7b\x7d")) (column ++ operator) := by
  refine ⟨(String.append_assoc ..).symm, (dollarless_of_plain hc).append hd, fun c hm => ?_⟩
  rw [String.toList_append, List.mem_append] at hm
  rcases hm with hm | hm
  · by_cases h : Template.isBrace c = true
    · simp only [Template.isBrace, Bool.or_eq_true, beq_iff_eq] at h
      rcases h with rfl | rfl
      · exact absurd hm (hc.not_mem rfl)
      · exact absurd hm (hc.not_mem rfl)
    · exact (Bool.not_eq_true _).mp h
  · simpa using List.all_eq_true.mp hb c hm

/-- The template of a filter parameter ends in its only placeholder. -/
theorem endsInSlot_of_mem_filterParameters {e : Entity} (he : e.Plain) {p : FilterParameter}
    (hp : p ∈ filterParameters e) : ∃ front, Template.EndsInSlot p.template front := by
  obtain ⟨f, hf, hp⟩ := List.mem_flatMap.mp hp
  have hc : Text.Plain f.columnName := he.columnName f (List.mem_filter.mp hf).1
  unfold fieldParameters at hp
  cases hk : f.filter with
  | none => simp [hk] at hp
  | eq =>
    obtain rfl : p = _ := by simpa [hk] using hp
    exact ⟨_, endsInSlot_append hc " = " (by decide) rfl⟩
  | like =>
    simp only [hk, List.mem_singleton] at hp
    subst hp
    dsimp only
    split
    · exact ⟨_, endsInSlot_append hc " ILIKE " (by decide) rfl⟩
    · rw [String.append_assoc]
      exact ⟨_, endsInSlot_append hc "::text ILIKE " (by decide) rfl⟩
  | range =>
    simp only [hk, List.mem_cons, List.not_mem_nil, or_false] at hp
    rcases hp with rfl | rfl
    · exact ⟨_, endsInSlot_append hc " >= " (by decide) rfl⟩
    · exact ⟨_, endsInSlot_append hc " <= " (by decide) rfl⟩

/-- The selection that the query function of an entity makes. -/
def pageSelection (e : Entity) (includeDeleted : Bool) : Selection :=
  ⟨queryColumns e, e.fullTable, fixedConditions e includeDeleted, e.idField.columnName⟩

theorem pageSelection_dollarless {e : Entity} (he : e.Plain) (includeDeleted : Bool) :
    (pageSelection e includeDeleted).Dollarless := by
  refine ⟨dollarless_intercalate (by decide) he.columns_dollarless, he.fullTable_dollarless,
    fun c hc => ?_, he.idColumn_dollarless⟩
  simp only [pageSelection, fixedConditions] at hc
  split at hc
  · rw [List.mem_singleton.mp hc]
    decide
  · simp at hc

theorem present_map {α β : Type} (f : α → β) (candidates : List (α × Option Value)) :
    present (candidates.map fun c => (f c.1, c.2)) =
      (present candidates).map fun c => (f c.1, c.2) := by
  rw [present, present, List.filterMap_map, List.map_filterMap]
  congr 1
  funext c
  cases h : c.2 <;> simp [h]

/-- The query of an entity, for any values of its filter parameters that are present: the
placeholders of the statement are the numbers from one on, each once and in order. The n-th
present parameter in the order of the fields makes the n-th condition and gives the n-th value;
limit and offset give the last two. -/
theorem queryPage_numbered {d : EntityDeclaration} {strict : Bool} {e : Entity}
    {notes : Diagnostics} (hb : Build.build d strict = .ok (e, notes))
    (filled : List (FilterParameter × Option Value))
    (hf : filled.map Prod.fst = filterParameters e) (includeDeleted : Bool)
    (limit offset : Option Value) :
    ∃ k conditions page, k = (present filled).length ∧
      select (pageSelection e includeDeleted) (filled.map fun c => (c.1.template, c.2))
        limit offset = .ok page ∧
      page.text = s!"SELECT {queryColumns e} FROM {e.fullTable}" ++
        (if (e.softDelete && !includeDeleted) = false ∧ k = 0 then ""
          else " WHERE " ++ " AND ".intercalate (fixedConditions e includeDeleted ++ conditions)) ++
        s!" ORDER BY {e.idField.columnName} DESC LIMIT ${k + 1} OFFSET ${k + 2}" ∧
      placeholders page.text = numbered (k + 2) ∧
      conditions.length = k ∧ page.parameters.length = k + 2 ∧
      (∀ n p v, (present filled)[n]? = some (p, v) → page.parameters[n]? = some v ∧
        ∃ front, p.template = front ++ "$\x7b\x7d" ∧
          conditions[n]? = some (front ++ ("$" ++ toString (n + 1)))) ∧
      page.parameters.drop k = [limit.getD (.int 100), offset.getD (.int 0)] := by
  have he := Build.plain_of_build hb
  have hslots : ∀ c ∈ filled.map fun c => (c.1.template, c.2),
      ∃ front, Template.EndsInSlot c.1 front := by
    intro c hc
    obtain ⟨p, hp, rfl⟩ := List.mem_map.mp hc
    exact endsInSlot_of_mem_filterParameters he (hf ▸ List.mem_map_of_mem hp)
  obtain ⟨conditions, page, hs, hpage⟩ :=
    select_page (pageSelection_dollarless he includeDeleted) hslots limit offset
  have hbound := present_map FilterParameter.template filled
  have hlength : (present (filled.map fun c => (c.1.template, c.2))).length =
      (present filled).length := by rw [hbound, List.length_map]
  have hfixed : (pageSelection e includeDeleted).fixed = [] ↔
      (e.softDelete && !includeDeleted) = false := by
    cases h : e.softDelete && !includeDeleted <;> simp [pageSelection, fixedConditions, h]
  have hnil : present (filled.map fun c => (c.1.template, c.2)) = [] ↔
      (present filled).length = 0 := by rw [← List.length_eq_zero_iff, hlength]
  refine ⟨_, conditions, page, rfl, hs, ?_, ?_, ?_, ?_, fun n p v hn => ?_, ?_⟩
  · rw [hpage.text, hlength]
    simp only [hfixed, hnil]
    rfl
  · rw [hpage.placeholders, hlength]
  · rw [hpage.conditions_length, hlength]
  · rw [hpage.parameters, List.length_append, List.length_map, hlength]
    rfl
  · have hb : (present (filled.map fun c => (c.1.template, c.2)))[n]? = some (p.template, v) := by
      rw [hbound, List.getElem?_map, hn]
      rfl
    refine ⟨?_, hpage.condition n _ hb⟩
    obtain ⟨hlt, -⟩ := List.getElem?_eq_some_iff.mp hb
    rw [hpage.parameters, List.getElem?_append_left (by simpa using hlt), List.getElem?_map, hb]
    rfl
  · rw [hpage.parameters]
    exact List.drop_left' (by rw [List.length_map, hlength])

/-- Some of the filter parameters of an entity are present. -/
theorem queryPage_numbered_article :
    ∃ e notes, Build.build Build.articleDeclaration false = .ok (e, notes) ∧
      ∃ (conditions : List String) (page : Statement),
        select (pageSelection e false)
          ((filterParameters e).map fun p =>
            (p.template, if p.pattern then none else some (.int 1)))
          none none = .ok page ∧
        placeholders page.text = ["1", "2", "3", "4", "5"] ∧ conditions.length = 3 := by
  let fill (p : FilterParameter) : FilterParameter × Option Value :=
    (p, if p.pattern then none else some (.int 1))
  obtain ⟨e, notes, hb, hlength⟩ := Build.exists_of_build Build.articleDeclaration false
    (fun e => (present ((filterParameters e).map fill)).length == 3) (by decide +kernel)
  obtain ⟨k, conditions, page, rfl, hs, -, hp, hc, -⟩ := queryPage_numbered hb
    ((filterParameters e).map fill) (by simp [fill, Function.comp_def]) false none none
  rw [beq_iff_eq] at hlength
  rw [hlength] at hp hc
  refine ⟨e, notes, hb, conditions, page, ?_, hp, hc⟩
  rw [← hs, List.map_map]
  rfl

end EntityForge.Package
