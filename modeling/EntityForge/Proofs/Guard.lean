import EntityForge.Package.Guard
import EntityForge.Proofs.Lookup

/-!
# What the guarded repository lets through

The guarded repository has one method for each operation of the repository, in the same order.
Such a method first asks a check that the policy declares, the one for its operation, with as many
arguments as the check takes, all of them parameters of the method; then it calls the operation
with all its parameters. Where two operations have one name, the later method stands in for the
earlier. This opens no gap, since the name of an operation decides on its check.
-/

namespace EntityForge.Package

open Source Postgres

variable {e : Entity} {m : RepositoryMethod}

/-! ## Parameters -/

/-- The name of a parameter, which a colon parts from its type. -/
def parameterName (parameter : String) : String :=
  .ofList (parameter.toList.takeWhile (· ≠ ':'))

theorem parameterName_typed (key type : String) (h : ':' ∉ key.toList) :
    parameterName (key ++ ": " ++ type) = key := by
  have hkey : ∀ c ∈ key.toList, decide (c ≠ ':') = true := by
    intro c hc
    exact decide_eq_true fun hcolon => h (hcolon ▸ hc)
  rw [parameterName, String.append_assoc, String.toList_append, List.takeWhile_append_of_pos hkey,
    String.toList_append]
  simp

theorem parameterName_idParameter : parameterName (idParameter e) = "id" :=
  parameterName_typed "id" e.idHint (by decide)

theorem parameterName_dto (type : String) : parameterName s!"dto: {type}" = "dto" :=
  parameterName_typed "dto" type (by decide)

theorem parameterName_query (type : String) : parameterName s!"query: {type}" = "query" :=
  parameterName_typed "query" type (by decide)

theorem childColumn_colon : ':' ∉ e.childColumn.toList := by
  have hending : Text.Plain "_id" := Text.plain_of_isName rfl
  exact ((Text.plain_snakeCase e.name).append hending).not_mem rfl

/-! ## Methods -/

/-- The forms of the methods of a repository: the name, the operation that it is, the parameters
and the arguments passed on for them. -/
inductive Takes (e : Entity) : String → Operation → List String → List String → Prop
  | create (given : e.createFields.isEmpty = false) :
    Takes e "create" .create [s!"dto: {e.createRequest}"] ["dto"]
  | update (given : e.updateFields.isEmpty = false) :
    Takes e "update" .update [idParameter e, s!"dto: {e.updateRequest}"] ["id", "dto"]
  | delete {name : String} (named : name ∈ ["delete", "hard_delete", "restore"]) :
    Takes e name .delete [idParameter e] ["id"]
  | page {name : String} (named : name ∈ ["list", "list_with_deleted"]) :
    Takes e name .list pageParameters ["limit", "offset"]
  | query : Takes e "query" .list [s!"query: {e.queryName}"] ["query"]
  | find (x : String) {key : String} (colon : ':' ∉ key.toList) :
    Takes e ("find_" ++ x) .read [key ++ ": " ++ e.idHint] [key]

/-- The methods of a repository have one of the forms. -/
theorem takes_of_mem_repositoryMethods (hm : m ∈ repositoryMethods e) :
    Takes e m.name m.operation m.parameters m.arguments := by
  have hid : ':' ∉ "id".toList := by decide
  simp only [repositoryMethods, List.mem_append, or_assoc] at hm
  rcases hm with hm | hm | hm | hm | hm | hm | hm | hm | hm
  · unfold createMethod at hm
    split at hm
    · simp at hm
    · rename_i hgiven
      rw [List.mem_singleton.mp hm]
      exact .create ((Bool.not_eq_true _).mp hgiven)
  · rw [List.mem_singleton.mp hm]
    exact .find "by_id" hid
  · unfold updateMethod at hm
    split at hm
    · simp at hm
    · rename_i hgiven
      rw [List.mem_singleton.mp hm]
      exact .update ((Bool.not_eq_true _).mp hgiven)
  · simp only [List.mem_cons, List.not_mem_nil, or_false] at hm
    rcases hm with rfl | rfl
    · exact @Takes.delete e "delete" (by decide)
    · exact @Takes.page e "list" (by decide)
  · unfold queryMethod at hm
    split at hm
    · rw [List.mem_singleton.mp hm]
      exact .query
    · simp at hm
  · obtain ⟨f, -, rfl⟩ := List.mem_map.mp hm
    exact .find (Text.snakeCase f.parent) hid
  · obtain ⟨child, -, rfl⟩ := List.mem_map.mp hm
    exact .find (Text.plural (Text.snakeCase child)) childColumn_colon
  · obtain ⟨p, -, rfl⟩ := List.mem_map.mp hm
    have hname : (projectionMethod e p).name = "find_" ++ ("by_id_" ++ Text.snakeCase p.name) :=
      projectionLookup_eq p.name
    rw [hname]
    exact .find ("by_id_" ++ Text.snakeCase p.name) hid
  · unfold softDeleteMethods at hm
    split at hm
    · simp only [List.mem_cons, List.not_mem_nil, or_false] at hm
      rcases hm with rfl | rfl | rfl | rfl
      · exact @Takes.delete e "hard_delete" (by decide)
      · exact @Takes.delete e "restore" (by decide)
      · exact .find "by_id_with_deleted" hid
      · exact @Takes.page e "list_with_deleted" (by decide)
    · simp at hm

/-- The operation that a method of some name is. -/
def operationNamed : String → Operation
  | "create" => .create
  | "update" => .update
  | "delete" | "hard_delete" | "restore" => .delete
  | "list" | "list_with_deleted" | "query" => .list
  | _ => .read

/-- What looks something up reads. -/
theorem operationNamed_find (x : String) : operationNamed ("find_" ++ x) = .read := by
  unfold operationNamed
  split
  case h_9 => rfl
  -- None of the words with an operation of their own starts like a lookup.
  all_goals
    rename_i h
    exact absurd h (find_ne (by decide))

/-- The methods of the guarded repository that belong to no operation of the repository. -/
def wrapperNames : List String := ["__init__", "inner", "policy", "_authorize", "_run", "execute"]

namespace Takes

variable {name : String} {operation : Operation} {parameters arguments : List String}

/-- A method passes on all its parameters, in their order. -/
theorem arguments_eq (h : Takes e name operation parameters arguments) :
    arguments = parameters.map parameterName := by
  cases h with
  | create => rw [List.map_singleton, parameterName_dto]
  | update => rw [List.map_cons, List.map_singleton, parameterName_idParameter, parameterName_dto]
  | delete => rw [List.map_singleton, parameterName_idParameter]
  | page => decide
  | query => rw [List.map_singleton, parameterName_query]
  | find x colon => rw [List.map_singleton, parameterName_typed _ e.idHint colon]

/-- The name of a method decides on the operation that it is. -/
theorem operation_eq (h : Takes e name operation parameters arguments) :
    operation = operationNamed name := by
  cases h with
  | create => rfl
  | update => rfl
  | delete named =>
    revert name
    decide
  | page named =>
    revert name
    decide
  | query => rfl
  | find x => exact (operationNamed_find x).symm

/-- No operation has the name of another method of the guarded repository. -/
theorem name_not_mem (h : Takes e name operation parameters arguments) : name ∉ wrapperNames := by
  cases h with
  | create => decide
  | update => decide
  | delete named =>
    revert name
    decide
  | page named =>
    revert name
    decide
  | query => decide
  | find x =>
    have hother : ∀ n ∈ wrapperNames, n.toList.head? ≠ some 'f' := by decide
    exact fun hm => find_ne (hother _ hm) rfl

end Takes

/-! ## Checks -/

/-- The call asks the declared check for an operation, with an argument for each parameter. -/
structure CheckCall.Asks (k : CheckCall) (c : PolicyCheck) (operation : Operation) : Prop where
  name : k.name = c.name
  verb : c.verb = Vocabulary.word operation
  arguments_length : k.arguments.length = c.parameters.length

theorem names_policyChecks : (policyChecks e).map PolicyCheck.name =
    (if e.createFields.isEmpty then [] else ["can_create"]) ++ ["can_read"] ++
      (if e.updateFields.isEmpty then [] else ["can_update"]) ++ ["can_delete", "can_list"] ++
      (if e.hasCommands then ["can_command"] else []) := by
  unfold policyChecks
  cases e.createFields.isEmpty <;> cases e.updateFields.isEmpty <;> cases e.hasCommands <;> rfl

/-- No two checks have one name. -/
theorem nodup_policyChecks : ((policyChecks e).map PolicyCheck.name).Nodup := by
  rw [names_policyChecks]
  cases e.createFields.isEmpty <;> cases e.updateFields.isEmpty <;> cases e.hasCommands <;> decide

/-- The check that guards a method is declared, and is asked with parameters of the method. -/
theorem exists_asks (h : Takes e m.name m.operation m.parameters m.arguments) :
    (∃ c ∈ policyChecks e, (checkFor m).Asks c m.operation) ∧
      ∀ a ∈ (checkFor m).arguments, a ∈ m.parameters.map parameterName := by
  rw [← h.arguments_eq]
  obtain ⟨name, parameters, arguments, returns, doc, operation, target, lookup⟩ := m
  dsimp only at h
  cases h with
  | create given =>
    refine ⟨⟨⟨"can_create", [s!"dto: {e.createRequest}"], "create"⟩, ?_, rfl, rfl, rfl⟩, ?_⟩
    · simp [policyChecks, given]
    · exact fun a ha => ha
  | update given =>
    refine ⟨⟨⟨"can_update", [idParameter e, s!"dto: {e.updateRequest}"], "update"⟩, ?_, rfl, rfl,
      rfl⟩, ?_⟩
    · simp [policyChecks, given]
    · exact fun a ha => ha
  | delete =>
    refine ⟨⟨⟨"can_delete", [idParameter e], "delete"⟩, ?_, rfl, rfl, rfl⟩, ?_⟩
    · simp [policyChecks]
    · exact fun a ha => ha
  | page =>
    refine ⟨⟨⟨"can_list", [], "list"⟩, ?_, rfl, rfl, rfl⟩, ?_⟩
    · simp [policyChecks]
    · simp [checkFor]
  | query =>
    refine ⟨⟨⟨"can_list", [], "list"⟩, ?_, rfl, rfl, rfl⟩, ?_⟩
    · simp [policyChecks]
    · simp [checkFor]
  | find x =>
    refine ⟨⟨⟨"can_read", [idParameter e], "read"⟩, ?_, rfl, rfl, rfl⟩, ?_⟩
    · simp [policyChecks]
    · exact fun a ha => ha

/-! ## The classes -/

/-- The declaration of a check in the policy. -/
def PolicyCheck.declaration (e : Entity) (c : PolicyCheck) : Function where
  name := c.name
  parameters := "self" :: c.parameters ++ ["ctx: ContextT"]
  returns := "None"
  decorators := ["abstractmethod"]
  isAsync := true
  doc := some (c.doc e)

/-- The function of a guarded method. -/
def GuardedMethod.function (g : GuardedMethod) : Function where
  name := g.method.name
  parameters := "self" :: g.method.parameters ++ ["*", "ctx: ContextT"]
  returns := g.method.returns
  isAsync := true
  body := g.body

/-- The function of a paragraph that is a method. -/
def methodOf? : Paragraph → Option Function
  | .method f => some f
  | .attributes _ => none

/-- Of paragraphs that are all methods, every one counts. -/
theorem filterMap_methodOf? {α : Type} (f : α → Function) (as : List α) :
    (as.map fun a => Paragraph.method (f a)).filterMap methodOf? = as.map f := by
  rw [List.filterMap_map, ← List.filterMap_eq_map]
  rfl

theorem methods_policyClass :
    (policyClass e).methods = (policyChecks e).map (PolicyCheck.declaration e) :=
  filterMap_methodOf? (PolicyCheck.declaration e) (policyChecks e)

/-- The methods of the guarded repository: what it needs to work, one for each operation, and the
one that runs commands. -/
theorem methods_guardedClass : ∃ own run : List Function,
    (guardedClass e).methods = own ++ (guardedMethods e).map GuardedMethod.function ++ run ∧
      own.map Function.name = ["__init__", "inner", "policy", "_authorize", "_run"] ∧
      run.map Function.name = if e.hasCommands then ["execute"] else [] := by
  refine ⟨((guardedClass e).paragraphs.take 5).filterMap methodOf?,
    (executeMethod e).filterMap methodOf?, ?_, rfl, ?_⟩
  · rw [← filterMap_methodOf? GuardedMethod.function (guardedMethods e), ← List.filterMap_append,
      ← List.filterMap_append]
    rfl
  · unfold executeMethod
    cases e.hasCommands <;> rfl

/-- A function guards a method: it asks the declared check for the operation, with parameters of
the method, and then calls the method with all its parameters. -/
structure Guards (e : Entity) (m : RepositoryMethod) (f : Function) : Prop where
  name : f.name = m.name
  parameters : f.parameters = "self" :: m.parameters ++ ["*", "ctx: ContextT"]
  returns : f.returns = m.returns
  body : ∃ c ∈ policyChecks e, ∃ arguments : List String,
    c.verb = Vocabulary.word m.operation ∧ arguments.length = c.parameters.length ∧
      (∀ a ∈ arguments, a ∈ m.parameters.map parameterName) ∧
      f.body = flat [
        "await self._authorize(PolicyOperation." ++ m.operation.constant ++ ", self._policy." ++
          c.name ++ "(" ++ ", ".intercalate (arguments ++ ["ctx"]) ++ "))",
        "return await self._run(PolicyOperation." ++ m.operation.constant ++ ", self._repo." ++
          m.name ++ "(" ++ ", ".intercalate (m.parameters.map parameterName) ++ "))"]

theorem guards_of_mem_repositoryMethods (hm : m ∈ repositoryMethods e) :
    Guards e m (guarded m).function := by
  have htakes := takes_of_mem_repositoryMethods hm
  obtain ⟨⟨c, hc, hasks⟩, harguments⟩ := exists_asks htakes
  refine ⟨rfl, rfl, rfl, c, hc, (checkFor m).arguments, hasks.verb, hasks.arguments_length,
    harguments, ?_⟩
  have hbody : (guarded m).function.body = flat [
      "await self._authorize(" ++ ("PolicyOperation." ++ m.operation.constant) ++ ", " ++
        ("self._policy." ++ (checkFor m).name ++ "(" ++
          ", ".intercalate ((checkFor m).arguments ++ ["ctx"]) ++ ")") ++ ")",
      "return await self._run(" ++ ("PolicyOperation." ++ m.operation.constant) ++ ", " ++
        ("self._repo" ++ "." ++ m.name ++ "(" ++ ", ".intercalate m.arguments ++ ")") ++ ")"] := rfl
  have hauthorize : "await self._authorize(PolicyOperation." =
      "await self._authorize(" ++ "PolicyOperation." := rfl
  have hpolicy : ", self._policy." = ", " ++ "self._policy." := rfl
  have hrun : "return await self._run(PolicyOperation." =
      "return await self._run(" ++ "PolicyOperation." := rfl
  have hrepo : ", self._repo." = ", " ++ ("self._repo" ++ ".") := rfl
  have hclose : "))" = ")" ++ ")" := rfl
  rw [hbody, ← hasks.name, ← htakes.arguments_eq, hauthorize, hpolicy, hrun, hrepo, hclose]
  simp only [String.append_assoc]

/-- With a repository, the policy module guards it: the methods of its class are those that the
class needs to work, and one for each operation of the repository, in the same order, that guards
it. Checks have distinct names, all declared by the policy with their parameters in front of the
context. Operations of one name are asked for as the same operation, and none has the name of
another method of the class. -/
theorem guarded_repository (runtime : String) (e : Entity) :
    (policyModule runtime e).classes = [policyClass e, allowAllClass e] ++
        (if e.hasRepository then [guardedClass e] else []) ∧
      (∃ own operations run : List Function,
        (guardedClass e).methods = own ++ operations ++ run ∧
          (∀ f ∈ own ++ run, f.name ∈ wrapperNames) ∧
          List.Forall₂ (Guards e) (repositoryMethods e) operations) ∧
      ((policyChecks e).map PolicyCheck.name).Nodup ∧
      (policyClass e).methods = (policyChecks e).map (PolicyCheck.declaration e) ∧
      ∀ m ∈ repositoryMethods e, m.name ∉ wrapperNames ∧
        ∀ n ∈ repositoryMethods e, m.name = n.name → m.operation = n.operation := by
  refine ⟨?_, ?_, nodup_policyChecks, methods_policyClass, fun m hm => ⟨?_, fun n hn h => ?_⟩⟩
  · unfold policyModule
    cases e.hasRepository <;> rfl
  · obtain ⟨own, run, hmethods, hown, hrun⟩ := methods_guardedClass (e := e)
    refine ⟨own, _, run, hmethods, fun f hf => ?_, ?_⟩
    · have hname := List.mem_map_of_mem (f := Function.name) hf
      rw [List.map_append, hown, hrun] at hname
      have hall : ∀ n ∈ ["__init__", "inner", "policy", "_authorize", "_run"] ++
          (if e.hasCommands then ["execute"] else []), n ∈ wrapperNames := by
        cases e.hasCommands <;> decide
      exact hall _ hname
    · rw [guardedMethods, List.map_map, List.forall₂_map_right_iff, List.forall₂_same]
      exact fun m hm => guards_of_mem_repositoryMethods hm
  · exact (takes_of_mem_repositoryMethods hm).name_not_mem
  · rw [(takes_of_mem_repositoryMethods hm).operation_eq,
      (takes_of_mem_repositoryMethods hn).operation_eq, h]

end EntityForge.Package
