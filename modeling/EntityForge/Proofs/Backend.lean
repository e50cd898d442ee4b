import EntityForge.Package.Files
import EntityForge.Proofs.Statement

/-!
# Calls and constants of the backend

Every method of the backend makes one call. It passes either a statement put together for the call
or one of the constants of the module; a constant is called with as many arguments as its
statement has placeholders. Names of lookups are made from names of other entities and may repeat
each other or an operation of the entity itself. A constant then has several statements, but
all of them take one argument, and so does the call.
-/

namespace EntityForge.Package

open Source Postgres

variable {e : Entity} {m : RepositoryMethod}

/-! ## Calls -/

@[simp] private theorem filterMap_call?_cons_line (depth : Nat) (text : String)
    (steps : List Step) :
    (Step.line depth text :: steps).filterMap Step.call? = steps.filterMap Step.call? := rfl

@[simp] private theorem filterMap_call?_cons_call (before after : String) (c : Call)
    (steps : List Step) :
    (Step.call before c after :: steps).filterMap Step.call? = c :: steps.filterMap Step.call? :=
  rfl

/-- A creation inserts the values of all fields, whatever it reads back. -/
theorem methodCalls_create (h : m.name = "create") :
    ∃ verb, methodCalls e m = [⟨verb, "INSERT_SQL", insertArguments e⟩] := by
  have hs : methodSteps e m = createSteps e := by simp only [methodSteps, h]
  rw [methodCalls, hs, createSteps]
  cases e.returning <;> cases e.features.streams <;> simp

/-- A change runs a statement put together for it. -/
theorem methodCalls_update (h : m.name = "update") :
    ∃ verb, methodCalls e m = [⟨verb, "sql", ["*params"]⟩] := by
  have hs : methodSteps e m = updateSteps e := by simp only [methodSteps, h]
  rw [methodCalls, hs, updateSteps]
  cases e.returning == .full <;> cases e.features.streams <;> simp

theorem methodCalls_query (h : m.name = "query") :
    methodCalls e m = [⟨.fetch, "sql", ["*params"]⟩] := by
  simp only [methodCalls, methodSteps, h]
  rfl

/-- Reading one row passes the constant of the method and the identifier. -/
theorem methodCalls_findById (h : m.name = "find_by_id" ∨ m.name = "find_by_id_with_deleted") :
    methodCalls e m = [⟨.fetchRow, constantName m.name, ["id"]⟩] := by
  rcases h with h | h
  · simp only [methodCalls, methodSteps, h]
    rfl
  · simp only [methodCalls, methodSteps, h]
    rfl

/-- Reading a page passes the constant of the method, limit and offset. -/
theorem methodCalls_list (h : m.name = "list" ∨ m.name = "list_with_deleted") :
    methodCalls e m = [⟨.fetch, constantName m.name, ["limit", "offset"]⟩] := by
  rcases h with h | h
  · simp only [methodCalls, methodSteps, h]
    rfl
  · simp only [methodCalls, methodSteps, h]
    rfl

/-- Removing or restoring a row passes the constant of the method and the identifier. -/
theorem methodCalls_removal
    (h : m.name = "delete" ∨ m.name = "hard_delete" ∨ m.name = "restore") :
    methodCalls e m = [⟨.execute, constantName m.name, ["id"]⟩] := by
  have hs : methodSteps e m = removalSteps e m.name := by
    rcases h with h | h | h <;> simp only [methodSteps, h]
  rw [methodCalls, hs, removalSteps]
  cases e.features.streams <;> simp

/-- A name that starts like a lookup's is none of the other names. -/
theorem find_ne {x name : String} (h : name.toList.head? ≠ some 'f') : "find_" ++ x ≠ name := by
  rintro rfl
  simp at h

/-- A lookup passes the constant of its method and one argument, also where its name is that of a
reading by the identifier. -/
theorem methodCalls_lookup {x : String} (hn : m.name = "find_" ++ x) (ha : m.arguments ≠ []) :
    ∃ verb argument, methodCalls e m = [⟨verb, constantName m.name, [argument]⟩] := by
  -- A lookup with such a name gets the body of the operation, which passes one argument too.
  by_cases hid : m.name = "find_by_id" ∨ m.name = "find_by_id_with_deleted"
  · exact ⟨_, _, methodCalls_findById hid⟩
  · have hs : methodSteps e m = lookupSteps e m := by
      unfold methodSteps
      split
      case h_3 h => exact absurd (Or.inl h) hid
      case h_4 h => exact absurd (Or.inr h) hid
      case h_11 => rfl
      all_goals
        rename_i h
        rw [hn] at h
        exact absurd h (find_ne (by decide))
    rw [methodCalls, hs, lookupSteps]
    split
    · exact ⟨_, _, rfl⟩
    · obtain ⟨argument, rest, ha⟩ := List.exists_cons_of_ne_nil ha
      exact ⟨.fetch, argument, by simp [fetchMany, ha]⟩
    · exact ⟨_, _, rfl⟩

/-! ## Constants -/

/-- The statements of operations by the names of their methods. A creation goes by `insert`. -/
def operationStatements (e : Entity) : Lookups :=
  [("insert", insertion e), ("find_by_id", findById e), ("delete", deletion e),
    ("list", listing e)] ++
    if e.softDelete then [("hard_delete", hardDeletion e), ("restore", restoring e),
      ("find_by_id_with_deleted", findByIdWithDeleted e),
      ("list_with_deleted", listingWithDeleted e)] else []

/-- The operations that every backend has a statement for. -/
def commonNames : List String := ["insert", "find_by_id", "delete", "list"]

/-- The names of the operations on rows marked as deleted. -/
def softDeleteNames (e : Entity) : List String :=
  if e.softDelete then ["hard_delete", "restore", "find_by_id_with_deleted", "list_with_deleted"]
  else []

theorem names_operationStatements :
    (operationStatements e).map Prod.fst = commonNames ++ softDeleteNames e := by
  unfold operationStatements softDeleteNames
  cases e.softDelete <;> rfl

/-- The statements of all methods that have one of their own. -/
def methodStatements (e : Entity) : Lookups :=
  operationStatements e ++ (parentLookups e ++ childLookups e ++ projectionLookups e)

/-- A constant is the name of its method in capitals, with an ending. -/
theorem constantName_eq_iff {name constant : String} : constantName name = constant ↔
    name.toList.map Char.toUpper ++ "_SQL".toList = constant.toList := by
  rw [← String.toList_inj, constantName, String.toList_append, String.toList_map]

/-- Every constant is named after the method that passes it. -/
theorem constants_eq (e : Entity) :
    constants e = (methodStatements e).map fun l => (constantName l.1, l.2) := by
  have hinsert : constantName "insert" = "INSERT_SQL" := constantName_eq_iff.mpr (by decide)
  have hfind : constantName "find_by_id" = "FIND_BY_ID_SQL" := constantName_eq_iff.mpr (by decide)
  have hdelete : constantName "delete" = "DELETE_SQL" := constantName_eq_iff.mpr (by decide)
  have hlist : constantName "list" = "LIST_SQL" := constantName_eq_iff.mpr (by decide)
  have hhard : constantName "hard_delete" = "HARD_DELETE_SQL" :=
    constantName_eq_iff.mpr (by decide)
  have hrestore : constantName "restore" = "RESTORE_SQL" := constantName_eq_iff.mpr (by decide)
  have hfindDeleted : constantName "find_by_id_with_deleted" = "FIND_BY_ID_WITH_DELETED_SQL" :=
    constantName_eq_iff.mpr (by decide)
  have hlistDeleted : constantName "list_with_deleted" = "LIST_WITH_DELETED_SQL" :=
    constantName_eq_iff.mpr (by decide)
  rw [constants, methodStatements, operationStatements]
  cases e.softDelete <;>
    simp only [if_true, if_false, Bool.false_eq_true, List.map_append, List.map_cons, List.map_nil,
      hinsert, hfind, hdelete, hlist, hhard, hrestore, hfindDeleted, hlistDeleted]

theorem constantName_mem {name : String} (h : name ∈ (methodStatements e).map Prod.fst) :
    constantName name ∈ (constants e).map Prod.fst := by
  obtain ⟨l, hl, rfl⟩ := List.mem_map.mp h
  rw [constants_eq, List.map_map]
  exact List.mem_map.mpr ⟨l, hl, rfl⟩

/-- The methods that pass an identifier alone. -/
def identifierNames : List String :=
  ["find_by_id", "delete", "hard_delete", "restore", "find_by_id_with_deleted"]

/-- The methods that pass what is asked of a page. -/
def pageNames : List String := ["list", "list_with_deleted"]

/-- The constants that they pass. -/
def pageConstants : List String := ["LIST_SQL", "LIST_WITH_DELETED_SQL"]

/-- The number of arguments that a constant of the module takes. -/
def argumentCount (e : Entity) (constant : String) : Nat :=
  if constant = "INSERT_SQL" then e.fields.length
  else if constant ∈ pageConstants then 2 else 1

theorem constantName_ne_insert : ∀ n ∈ identifierNames ++ pageNames,
    constantName n ≠ "INSERT_SQL" := by
  simp only [ne_eq, constantName_eq_iff]
  decide

theorem argumentCount_insert : argumentCount e (constantName "insert") = e.fields.length :=
  if_pos (constantName_eq_iff.mpr (by decide))

theorem argumentCount_identifier {name : String} (h : name ∈ identifierNames) :
    argumentCount e (constantName name) = 1 := by
  have hpage : ∀ n ∈ identifierNames, constantName n ∉ pageConstants := by
    simp only [pageConstants, List.mem_cons, List.not_mem_nil, or_false, constantName_eq_iff]
    decide
  rw [argumentCount, if_neg (constantName_ne_insert name (List.mem_append_left _ h)),
    if_neg (hpage name h)]

theorem argumentCount_page {name : String} (h : name ∈ pageNames) :
    argumentCount e (constantName name) = 2 := by
  have hpage : ∀ n ∈ pageNames, constantName n ∈ pageConstants := by
    simp only [pageConstants, List.mem_cons, List.not_mem_nil, or_false, constantName_eq_iff]
    decide
  rw [argumentCount, if_neg (constantName_ne_insert name (List.mem_append_right _ h)),
    if_pos (hpage name h)]

/-- The constant of a lookup is none of those that start otherwise. -/
theorem constantName_find_ne {x constant : String} (h : constant.toList.head? ≠ some 'F') :
    constantName ("find_" ++ x) ≠ constant := by
  rintro rfl
  simp [constantName] at h

theorem argumentCount_lookup (x : String) : argumentCount e (constantName ("find_" ++ x)) = 1 := by
  have hinsert : constantName ("find_" ++ x) ≠ "INSERT_SQL" := constantName_find_ne (by decide)
  have hpage : constantName ("find_" ++ x) ∉ pageConstants := by
    have hall : ∀ n ∈ pageConstants, n.toList.head? ≠ some 'F' := by decide
    exact fun h => constantName_find_ne (hall _ h) rfl
  rw [argumentCount, if_neg hinsert, if_neg hpage]

/-- A method has the insertion, a statement about one row, one page, or a lookup. -/
theorem methodStatements_cases (he : e.Plain) {l : String × Statement}
    (h : l ∈ methodStatements e) :
    l = ("insert", insertion e) ∨ (l.1 ∈ identifierNames ∧ l.2.ByOne) ∨
      (l.1 ∈ pageNames ∧ l.2.Dollarless ∧ l.2.parameters = [1, 2]) ∨
      (∃ x, l.1 = "find_" ++ x) ∧ l.2.ByOne := by
  have hnone : ∀ c ∈ ([] : List Condition), c.Dollarless := by simp
  have hdeletion : (deletion e).ByOne := by
    unfold deletion
    split
    · exact byOne_mark he true trivial rfl
    · exact byOne_delete he
  have hfind : (findById e).ByOne :=
    byOne_selectById he he.columns_dollarless liveOnly_dollarless flatMap_liveOnly
  have hfindDeleted : (findByIdWithDeleted e).ByOne :=
    byOne_selectById he he.columns_dollarless hnone rfl
  rw [methodStatements, operationStatements, List.mem_append, List.mem_append] at h
  rcases h with (h | h) | h
  · simp only [List.mem_cons, List.not_mem_nil, or_false] at h
    rcases h with rfl | rfl | rfl | rfl
    · exact Or.inl rfl
    · exact Or.inr (Or.inl ⟨by simp [identifierNames], hfind⟩)
    · exact Or.inr (Or.inl ⟨by simp [identifierNames], hdeletion⟩)
    · refine Or.inr (Or.inr (Or.inl ⟨by simp [pageNames], ?_⟩))
      exact page_spec he liveOnly_dollarless flatMap_liveOnly
  · split at h
    · simp only [List.mem_cons, List.not_mem_nil, or_false] at h
      rcases h with rfl | rfl | rfl | rfl
      · exact Or.inr (Or.inl ⟨by simp [identifierNames], byOne_delete he⟩)
      · exact Or.inr (Or.inl ⟨by simp [identifierNames], byOne_mark he false trivial rfl⟩)
      · exact Or.inr (Or.inl ⟨by simp [identifierNames], hfindDeleted⟩)
      · exact Or.inr (Or.inr (Or.inl ⟨by simp [pageNames], page_spec he hnone rfl⟩))
    · simp at h
  · exact Or.inr (Or.inr (Or.inr (byOne_of_mem_lookups he h)))

/-- The statement of a constant has the placeholders for the arguments that the constant takes. -/
theorem placeholders_of_mem_constants (he : e.Plain) {c : String × Statement}
    (h : c ∈ constants e) :
    Sql.placeholders c.2.text = Sql.numbered (argumentCount e c.1) := by
  have of_spec {s : Statement} {n : Nat} (hs : s.Dollarless ∧ s.parameters = List.range' 1 n) :
      Sql.placeholders s.text = Sql.numbered n := by
    rw [placeholders_text hs.1, hs.2]
    rfl
  rw [constants_eq] at h
  obtain ⟨⟨name, s⟩, hl, rfl⟩ := List.mem_map.mp h
  rcases methodStatements_cases he hl with hl | ⟨hn, hs⟩ | ⟨hn, hs⟩ | ⟨⟨x, hx⟩, hs⟩
  · obtain ⟨rfl, rfl⟩ := Prod.mk.inj hl
    rw [argumentCount_insert]
    exact of_spec (insertion_spec he)
  · rw [argumentCount_identifier hn]
    exact of_spec ⟨hs.dollarless, hs.parameters⟩
  · rw [argumentCount_page hn]
    exact of_spec hs
  · obtain rfl : name = "find_" ++ x := hx
    rw [argumentCount_lookup]
    exact of_spec ⟨hs.dollarless, hs.parameters⟩

/-- The names of constants have an ending of their own. -/
theorem getLast?_of_mem_constants {c : String × Statement} (h : c ∈ constants e) :
    c.1.toList.getLast? = some 'L' := by
  rw [constants_eq] at h
  obtain ⟨l, -, rfl⟩ := List.mem_map.mp h
  rw [constantName, String.toList_append, List.getLast?_append]
  rfl

/-- The insertion is the only statement with its name. -/
theorem eq_insertion_of_mem_constants (he : e.Plain) {c : String × Statement}
    (h : c ∈ constants e) (hn : c.1 = "INSERT_SQL") : c.2 = insertion e := by
  rw [constants_eq] at h
  obtain ⟨⟨name, s⟩, hl, rfl⟩ := List.mem_map.mp h
  rcases methodStatements_cases he hl with hl | ⟨hm, -⟩ | ⟨hm, -⟩ | ⟨⟨x, hx⟩, -⟩
  · exact (Prod.mk.inj hl).2
  · exact absurd hn (constantName_ne_insert name (List.mem_append_left _ hm))
  · exact absurd hn (constantName_ne_insert name (List.mem_append_right _ hm))
  · obtain rfl : name = "find_" ++ x := hx
    exact absurd hn (constantName_find_ne (by decide))

/-- A call of a method: of a statement put together for it, or of a constant with the arguments
that the constant takes. -/
def Call.Fits (e : Entity) (c : Call) : Prop :=
  (c.statement = "sql" ∧ c.arguments = ["*params"]) ∨
    (c.statement ∈ (constants e).map Prod.fst ∧ c.arguments.length = argumentCount e c.statement)

/-- The calls of a lookup that has a statement fit. -/
theorem fits_lookup {x : String} (hn : m.name = "find_" ++ x) (ha : m.arguments ≠ [])
    (hl : m.name ∈ (parentLookups e ++ childLookups e ++ projectionLookups e).map Prod.fst) :
    ∀ c ∈ methodCalls e m, c.Fits e := by
  obtain ⟨verb, argument, h⟩ := methodCalls_lookup (e := e) hn ha
  rw [h, List.forall_mem_singleton]
  refine Or.inr ⟨constantName_mem ?_, ?_⟩
  · rw [methodStatements, List.map_append]
    exact List.mem_append_right _ hl
  · rw [hn, argumentCount_lookup]
    rfl

theorem mem_firstRelations {seen : List String} {fs : List Field} {f : Field}
    (h : f ∈ firstRelations seen fs) : f ∈ fs := by
  induction fs generalizing seen with
  | nil => simp [firstRelations] at h
  | cons g fs ih =>
    simp only [firstRelations] at h
    split at h
    · exact List.mem_cons_of_mem _ (ih h)
    · rcases List.mem_cons.mp h with rfl | h
      · exact List.mem_cons_self
      · exact List.mem_cons_of_mem _ (ih h)

theorem operationName_mem {name : String} (h : name ∈ commonNames ∨ name ∈ softDeleteNames e) :
    name ∈ (methodStatements e).map Prod.fst := by
  rw [methodStatements, List.map_append, names_operationStatements]
  exact List.mem_append_left _ (List.mem_append.mpr h)

/-- The one call of a method fits if it passes a constant with the arguments it takes. -/
private theorem fits_constant {verb : Verb} {arguments : List String} (name : String)
    (hc : methodCalls e m = [⟨verb, constantName name, arguments⟩])
    (hn : name ∈ (methodStatements e).map Prod.fst)
    (ha : arguments.length = argumentCount e (constantName name)) :
    ∀ c ∈ methodCalls e m, c.Fits e := by
  rw [hc, List.forall_mem_singleton]
  exact Or.inr ⟨constantName_mem hn, ha⟩

private theorem fits_built {verb : Verb} (hc : methodCalls e m = [⟨verb, "sql", ["*params"]⟩]) :
    ∀ c ∈ methodCalls e m, c.Fits e := by
  rw [hc, List.forall_mem_singleton]
  exact Or.inl ⟨rfl, rfl⟩

/-- The methods for rows marked as deleted make calls that fit. -/
private theorem fits_softDelete (hm : m ∈ softDeleteMethods e) :
    ∀ c ∈ methodCalls e m, c.Fits e := by
  unfold softDeleteMethods at hm
  split at hm
  · rename_i hs
    have hname {name : String} (h : name ∈ ["hard_delete", "restore", "find_by_id_with_deleted",
        "list_with_deleted"]) : name ∈ (methodStatements e).map Prod.fst := by
      refine operationName_mem (Or.inr ?_)
      rw [softDeleteNames, if_pos hs]
      exact h
    simp only [List.mem_cons, List.not_mem_nil, or_false] at hm
    rcases hm with rfl | rfl | rfl | rfl
    · exact fits_constant "hard_delete" (methodCalls_removal (Or.inr (Or.inl rfl)))
        (hname (by decide)) (argumentCount_identifier (by decide)).symm
    · exact fits_constant "restore" (methodCalls_removal (Or.inr (Or.inr rfl)))
        (hname (by decide)) (argumentCount_identifier (by decide)).symm
    · exact fits_constant "find_by_id_with_deleted" (methodCalls_findById (Or.inr rfl))
        (hname (by decide)) (argumentCount_identifier (by decide)).symm
    · exact fits_constant "list_with_deleted" (methodCalls_list (Or.inr rfl))
        (hname (by decide)) (argumentCount_page (by decide)).symm
  · simp at hm

theorem name_of_mem_createMethod (hm : m ∈ createMethod e) : m.name = "create" := by
  unfold createMethod at hm
  split at hm
  · simp at hm
  · rw [List.mem_singleton.mp hm]

theorem name_of_mem_updateMethod (hm : m ∈ updateMethod e) : m.name = "update" := by
  unfold updateMethod at hm
  split at hm
  · simp at hm
  · rw [List.mem_singleton.mp hm]

theorem name_of_mem_queryMethod (hm : m ∈ queryMethod e) : m.name = "query" := by
  unfold queryMethod at hm
  split at hm
  · rw [List.mem_singleton.mp hm]
  · simp at hm

/-- Every call that a method of the repository makes fits. -/
theorem fits_of_mem_repositoryMethods (hm : m ∈ repositoryMethods e) :
    ∀ c ∈ methodCalls e m, c.Fits e := by
  simp only [repositoryMethods, List.mem_append, or_assoc] at hm
  rcases hm with hm | hm | hm | hm | hm | hm | hm | hm | hm
  · obtain ⟨verb, hc⟩ := methodCalls_create (e := e) (name_of_mem_createMethod hm)
    have hinsert : constantName "insert" = "INSERT_SQL" := constantName_eq_iff.mpr (by decide)
    rw [← hinsert] at hc
    refine fits_constant "insert" hc (operationName_mem (Or.inl (by decide))) ?_
    rw [insertArguments, List.length_map, argumentCount_insert]
  · rw [List.mem_singleton.mp hm]
    exact fits_constant "find_by_id" (methodCalls_findById (Or.inl rfl))
      (operationName_mem (Or.inl (by decide))) (argumentCount_identifier (by decide)).symm
  · obtain ⟨verb, hc⟩ := methodCalls_update (e := e) (name_of_mem_updateMethod hm)
    exact fits_built hc
  · simp only [List.mem_cons, List.not_mem_nil, or_false] at hm
    rcases hm with rfl | rfl
    · exact fits_constant "delete" (methodCalls_removal (Or.inl rfl))
        (operationName_mem (Or.inl (by decide))) (argumentCount_identifier (by decide)).symm
    · exact fits_constant "list" (methodCalls_list (Or.inl rfl))
        (operationName_mem (Or.inl (by decide))) (argumentCount_page (by decide)).symm
  · exact fits_built (methodCalls_query (name_of_mem_queryMethod hm))
  · obtain ⟨f, hf, rfl⟩ := List.mem_map.mp hm
    have hl := mem_names_parentLookups.mpr ⟨f, mem_firstRelations hf, rfl⟩
    refine fits_lookup (x := Text.snakeCase f.parent) rfl (List.cons_ne_nil _ _) ?_
    rw [List.map_append, List.map_append]
    exact List.mem_append_left _ (List.mem_append_left _ hl)
  · obtain ⟨child, hc, rfl⟩ := List.mem_map.mp hm
    have hl := mem_names_childLookups.mpr ⟨child, hc, rfl⟩
    refine fits_lookup (x := Text.plural (Text.snakeCase child)) rfl (List.cons_ne_nil _ _) ?_
    rw [List.map_append, List.map_append]
    exact List.mem_append_left _ (List.mem_append_right _ hl)
  · obtain ⟨p, hp, rfl⟩ := List.mem_map.mp hm
    have hl := mem_names_projectionLookups.mpr ⟨p, hp, rfl⟩
    refine fits_lookup (projectionLookup_eq p.name) (List.cons_ne_nil _ _) ?_
    rw [List.map_append]
    exact List.mem_append_right _ hl
  · exact fits_softDelete hm

/-! ## The module -/

/-- The module-level assignments of a module. -/
def assignments (m : Module) : List Assignment :=
  m.sections.flatMap fun
    | .assignments groups => groups.flatten
    | _ => []

/-- The assignment of a constant. -/
def constantAssignment (c : String × Statement) : Assignment := ⟨c.1, literal c.2.text, none, []⟩

/-- The backend assigns its table, its identifier, the constants and the columns of a change. -/
theorem assignments_backendModule (runtime : String) :
    assignments (backendModule runtime e) =
      [⟨"TABLE", literal e.fullTable, none, []⟩,
        ⟨"ID_COLUMN", literal e.idField.columnName, none, []⟩] ++
        ((constants e).map constantAssignment ++ (updateTable e).flatten) := by
  have h : assignments (backendModule runtime e) =
      ([[⟨"TABLE", literal e.fullTable, none, []⟩,
        ⟨"ID_COLUMN", literal e.idField.columnName, none, []⟩],
        (constants e).map constantAssignment] ++ updateTable e).flatten ++ [] := rfl
  rw [h, List.append_nil, List.flatten_append, List.flatten_cons, List.flatten_singleton,
    List.append_assoc]

/-- An assignment of the backend is that of a constant, or has a name that is no constant's. -/
theorem mem_assignments_backendModule {runtime : String} {a : Assignment}
    (h : a ∈ assignments (backendModule runtime e)) :
    (∃ c ∈ constants e, a = constantAssignment c) ∨
      a.name ∈ ["TABLE", "ID_COLUMN", "UPDATE_COLUMNS"] := by
  rw [assignments_backendModule, List.mem_append, List.mem_append] at h
  rcases h with h | h | h
  · simp only [List.mem_cons, List.not_mem_nil, or_false] at h
    rcases h with rfl | rfl <;> exact Or.inr (by simp)
  · obtain ⟨c, hc, rfl⟩ := List.mem_map.mp h
    exact Or.inl ⟨c, hc, rfl⟩
  · unfold updateTable at h
    split at h
    · simp at h
    · rw [List.flatten_singleton, List.mem_singleton] at h
      exact Or.inr (by simp [h])

/-- What is assigned under the name of a constant is a statement of that constant. -/
theorem mem_assignments_of_constant {runtime : String} {a : Assignment}
    (h : a ∈ assignments (backendModule runtime e))
    (hn : a.name ∈ (constants e).map Prod.fst) : ∃ c ∈ constants e, a = constantAssignment c := by
  have hall : ∀ n ∈ ["TABLE", "ID_COLUMN", "UPDATE_COLUMNS"], n.toList.getLast? ≠ some 'L' := by
    decide
  rcases mem_assignments_backendModule h with h | h
  · exact h
  · obtain ⟨c, hc, hn⟩ := List.mem_map.mp hn
    exact absurd (hn ▸ getLast?_of_mem_constants hc) (hall _ h)

/-- A call agrees with a module: it runs a statement put together for the call, or a constant that
the module assigns, with an argument for every placeholder of what is assigned to it. -/
def Call.Agrees (m : Module) (c : Call) : Prop :=
  (c.statement = "sql" ∧ c.arguments = ["*params"]) ∨
    (c.statement ∈ (assignments m).map Assignment.name ∧
      ∀ a ∈ assignments m, a.name = c.statement →
        ∃ text, a = ⟨c.statement, literal text, none, []⟩ ∧
          Sql.placeholders text = Sql.numbered c.arguments.length)

/-- Calls that fit agree with the module of the backend. -/
theorem Call.Fits.agrees {c : Call} (h : c.Fits e) (he : e.Plain) (runtime : String) :
    c.Agrees (backendModule runtime e) := by
  rcases h with h | ⟨hc, hl⟩
  · exact Or.inl h
  · refine Or.inr ⟨?_, fun a ha hn => ?_⟩
    · obtain ⟨s, hs, hn⟩ := List.mem_map.mp hc
      refine List.mem_map.mpr ⟨constantAssignment s, ?_, hn⟩
      rw [assignments_backendModule]
      exact List.mem_append_right _ (List.mem_append_left _ (List.mem_map_of_mem hs))
    · rw [← hn] at hc
      obtain ⟨s, hs, rfl⟩ := mem_assignments_of_constant ha hc
      refine ⟨s.2.text, ?_, ?_⟩
      · rw [← hn]
        rfl
      · rw [placeholders_of_mem_constants he hs, hl, ← hn]
        rfl

/-- The columns of an insertion, its placeholders and the values passed to it belong to the fields
in turn. -/
structure Aligned (e : Entity) (columns values : List String) : Prop where
  columns_length : columns.length = e.fields.length
  values_length : values.length = e.fields.length
  field : ∀ i f, e.fields[i]? = some f → columns[i]? = some f.columnName ∧
    (placeholders columns.length)[i]? = some s!"${i + 1}" ∧ values[i]? = some ("entity." ++ f.name)

theorem aligned_insertion (e : Entity) : Aligned e e.columnNames (insertArguments e) := by
  have hlength : e.columnNames.length = e.fields.length := List.length_map ..
  refine ⟨hlength, List.length_map .., fun i f hf => ?_⟩
  obtain ⟨hi, -⟩ := List.getElem?_eq_some_iff.mp hf
  rw [hlength, Entity.columnNames, insertArguments, placeholders]
  simp only [List.getElem?_map, hf, List.getElem?_range hi, Option.map_some, and_self]

variable {d : EntityDeclaration} {strict : Bool} {notes : Diagnostics}

/-- The backend of an entity that is built can be generated, if its database has one. -/
theorem module?_backend (hb : Build.build d strict = .ok (e, notes)) (hd : e.dialect = .postgres)
    (runtime : String) : module? runtime e .backend = .ok (some (backendModule runtime e)) := by
  have hbackend : requireBackend e = .ok () := by
    rw [requireBackend, Postgres.requireBackend, if_pos hd]
    rfl
  have htype : e.idType.isDangling = false :=
    Build.isDangling_of_build hb e.idField (List.get_mem ..)
  have hhints : requireHints e .backend = .ok () := by
    rw [requireHints, hintedTypes, List.find?_cons, htype]
    rfl
  rw [module?, moduleOf?, hbackend, hhints]
  rfl

/-- In the backend of an entity that is built, every call of a method agrees with the module; and
creating a row passes the values of the fields to an insertion whose columns and placeholders are
those of the fields. -/
theorem backend_calls_agree (hb : Build.build d strict = .ok (e, notes))
    (hd : e.dialect = .postgres) (runtime : String) :
    module? runtime e .backend = .ok (some (backendModule runtime e)) ∧
      (∀ m ∈ repositoryMethods e, backendMethod e m ∈ (backendClass e).paragraphs ∧
        ∀ c ∈ methodCalls e m, c.Agrees (backendModule runtime e)) ∧
      ∀ m ∈ repositoryMethods e, m.name = "create" →
        ∃ verb columns values returning, methodCalls e m = [⟨verb, "INSERT_SQL", values⟩] ∧
          Aligned e columns values ∧
          ∀ a ∈ assignments (backendModule runtime e), a.name = "INSERT_SQL" →
            a = constantAssignment ("INSERT_SQL", .insert e.fullTable columns returning) := by
  have he := Build.plain_of_build hb
  refine ⟨module?_backend hb hd runtime, fun m hm => ⟨?_, fun c hc => ?_⟩, fun m _ hn => ?_⟩
  · exact List.mem_append_right _ (List.mem_map_of_mem hm)
  · exact (fits_of_mem_repositoryMethods hm c hc).agrees he runtime
  · obtain ⟨verb, hc⟩ := methodCalls_create (e := e) hn
    refine ⟨verb, e.columnNames, insertArguments e, returningClause e, hc, aligned_insertion e, ?_⟩
    intro a ha hn
    have hinsert : constantName "insert" = a.name := by
      rw [hn, constantName_eq_iff]
      decide
    have hconstant : a.name ∈ (constants e).map Prod.fst :=
      hinsert ▸ constantName_mem (operationName_mem (Or.inl (by decide)))
    obtain ⟨⟨name, s⟩, hs, rfl⟩ := mem_assignments_of_constant ha hconstant
    obtain rfl : name = "INSERT_SQL" := hn
    obtain rfl : s = insertion e := eq_insertion_of_mem_constants he hs rfl
    rfl

/-- The article has a backend to which this applies. -/
theorem backend_calls_agree_article :
    ∃ e notes, Build.build Build.articleDeclaration false = .ok (e, notes) ∧
      e.dialect = .postgres ∧
      ∀ m ∈ repositoryMethods e, ∀ c ∈ methodCalls e m, c.Agrees (backendModule "runtime" e) := by
  obtain ⟨e, notes, hb, hd⟩ := Build.exists_of_build Build.articleDeclaration false
    (fun e => e.dialect == .postgres) (by decide +kernel)
  have hd : e.dialect = .postgres := by simpa using hd
  exact ⟨e, notes, hb, hd, fun m hm => ((backend_calls_agree hb hd "runtime").2.1 m hm).2⟩

end EntityForge.Package
