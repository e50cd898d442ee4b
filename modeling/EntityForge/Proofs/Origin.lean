import EntityForge.Proofs.Importing
import EntityForge.Proofs.Linking

/-!
# Where imports come from

Most of what the modules of a package import is the same for all entities, or is made from the name
of the entity alone, so that it can be written whenever that name can. Besides, there are the
classes of related entities, the projections, the error class and the types of commands, each of
which some modules only import.
-/

namespace EntityForge.Package

open Source

variable {runtime : String} {e : Entity} {k : ModuleKind} {m : Module}

/-- The names of the entities that an entity is related to. -/
def relatives (e : Entity) : List String := (parentFields e).map Field.parent ++ e.hasMany

/-- What a registration depends on: the name of the entity at most, a related entity, a projection,
the error class, or the types of a command. -/
inductive Origin (e : Entity) : Registration → Prop
  | own {r : Registration} (named : r.2 ≠ []) (fits : isNameList e.name.toList = true → Fits r) :
    Origin e r
  | related {target : String} (asked : e.hasRepository = true) (relative : target ∈ relatives e) :
    Origin e (e.relatedModule target, [target])
  | projection {p : Projection} (asked : e.hasRepository = true)
    (living : p ∈ e.livingProjections) : Origin e (".dto", [p.structName e.name])
  | error {path : String} {r : Registration} (asked : e.hasBackend = true)
    (declared : nonEmpty? e.errorType = some path) (registered : r ∈ pathRegistrations path) :
    Origin e r
  | command {c : Command} {r : Registration} (asked : e.hasCommands = true)
    (declared : c ∈ e.commands) (registered : r ∈ commandTypeImports e c) : Origin e r

/-- All registrations have an origin. -/
abbrev AllOrigin (e : Entity) : List Registration → Prop := Every (Origin e)

theorem origin_fixed {r : Registration} (h : Fits r) : Origin e r := .own h.2.1 fun _ => h

theorem origin_of_fits {rs : List Registration} (h : Every Fits rs) : AllOrigin e rs :=
  fun r hr => origin_fixed (h r hr)

/-- Registrations for a value that may be missing. -/
theorem every_getD_map {α : Type} {P : Registration → Prop} {f : α → List Registration}
    {o : Option α} : Every P ((o.map f).getD []) ↔ ∀ a ∈ o.toList, Every P (f a) := by
  cases o with
  | none => exact iff_of_true .nil (List.forall_mem_nil _)
  | some a => exact (List.forall_mem_singleton (p := fun a => Every P (f a))).symm

/-! ## Names of the package -/

/-- Names of a module of the package that can be written if the name of the entity can. -/
theorem origin_sibling {path : String} {names : List String} (k : ModuleKind)
    (hpath : path = "." ++ k.name) (hne : names ≠ [])
    (h : isNameList e.name.toList = true → ∀ n ∈ names, isNameList n.toList = true) :
    Origin e (path, names) := by
  have hmodule : isModulePath ("." ++ k.name).toList = true := by cases k <;> decide
  exact .own hne fun hname => ⟨hpath ▸ hmodule, hne, h hname⟩

theorem origin_one {path name : String} (k : ModuleKind) (hpath : path = "." ++ k.name)
    (h : isNameList e.name.toList = true → isNameList name.toList = true) :
    Origin e (path, [name]) :=
  origin_sibling k hpath (List.cons_ne_nil _ _) fun hname => List.forall_mem_singleton.mpr (h hname)

theorem origin_entity : Origin e (".entity", [e.name]) := origin_one .entity rfl id

/-- The name of the entity with different endings. -/
theorem origin_endings {path : String} (endings : List String) (k : ModuleKind)
    (hpath : path = "." ++ k.name) (hne : endings ≠ []) (h : ∀ s ∈ endings, Ending s) :
    Origin e (path, endings.map (e.name ++ ·)) := by
  refine origin_sibling k hpath (mt List.map_eq_nil_iff.mp hne) fun hname => ?_
  exact List.forall_mem_map.mpr fun s hs => isNameList_append hname (h s hs)

theorem origin_ending {path ending : String} (k : ModuleKind) (hpath : path = "." ++ k.name)
    (h : Ending ending) : Origin e (path, [e.name ++ ending]) :=
  origin_endings [ending] k hpath (List.cons_ne_nil _ _) (List.forall_mem_singleton.mpr h)

theorem origin_request {verb : String} (h : Beginning verb) :
    Origin e (".dto", [verb ++ e.name ++ "Request"]) :=
  origin_one .transfer rfl fun hname => isNameList_append (isNameList_prepend hname h) (by decide)

theorem origin_repository : Origin e (".repository", [e.repositoryName]) :=
  origin_ending .repository rfl (by decide)

theorem origin_backendName : Origin e (".postgres", [e.backendName]) := by
  refine origin_one .backend rfl fun hname => ?_
  have hrepository : isNameList e.repositoryName.toList = true :=
    isNameList_append hname (by decide)
  exact isNameList_prepend hrepository (by decide)

/-- With a snake-case name in it, a name with an underscore is an identifier. -/
theorem isNameList_around_snakeName {front behind : String}
    (hfront : Text.isName front.toList = true) (hunderscore : '_' ∈ front.toList)
    (hbehind : Text.Spelled behind) :
    isNameList (front ++ e.snakeName ++ behind).toList = true := by
  have hrest := (Text.spelled_snakeCase e.name).append hbehind
  rw [String.append_assoc, String.toList_append]
  exact isNameList_of_isProper (isProper_of_underscore (Text.isName_append hfront hrest)
    (List.mem_append_left _ hunderscore))

/-! ## Modules -/

theorem fits_fieldImports : Every Fits fieldImports := by decide

theorem origin_of_fields {rs : List Registration} (h : OfFields rs) : AllOrigin e rs :=
  fun r hr => origin_fixed (fits_fieldImports r (h r hr))

theorem origin_idImports : AllOrigin e e.idImports := origin_of_fields ofFields_idImports

theorem origin_requestImports : AllOrigin e (requestImports e) :=
  .append (.ifElse fun _ => .single (origin_request (by decide)))
    (.ifElse fun _ => .single (origin_request (by decide)))

theorem origin_methodImports (h : e.hasRepository = true) : AllOrigin e (methodImports e) := by
  have hfixed : AllOrigin e [("typing", ["List", "Optional"]), (".entity", [e.name])] :=
    .cons (origin_fixed (by decide)) (.single origin_entity)
  have hquery : AllOrigin e (if e.hasFilters then [(".query", [e.queryName])] else []) :=
    .ifThen fun _ => .single (origin_ending .query rfl (by decide))
  have hparents : AllOrigin e ((parentFields e).map fun f =>
      (e.relatedModule f.parent, [f.parent])) :=
    .map fun f hf => .related h (List.mem_append_left _ (List.mem_map_of_mem hf))
  have hchildren : AllOrigin e (e.hasMany.map fun child => (e.relatedModule child, [child])) :=
    .map fun child hc => .related h (List.mem_append_right _ hc)
  have hprojections : AllOrigin e (e.livingProjections.map fun p =>
      (".dto", [p.structName e.name])) := .map fun _ hp => .projection h hp
  exact .append (.append (.append (.append (.append (.append origin_idImports hfixed)
    origin_requestImports) hquery) hparents) hchildren) hprojections

theorem origin_errorImports (h : e.hasBackend = true) :
    AllOrigin e (((nonEmpty? e.errorType).map fun path =>
      ("asyncpg", ["PostgresError"]) :: pathRegistrations path).getD []) :=
  every_getD_map.mpr fun _ hpath =>
    .cons (origin_fixed (by decide)) fun _ hr => .error h (Option.mem_toList.mp hpath) hr

section Runtime

variable (hruntime : isDottedPath runtime.toList = true)

include hruntime

theorem origin_runtime {names : List String}
    (h : names ≠ [] ∧ ∀ n ∈ names, isNameList n.toList = true) : Origin e (runtime, names) :=
  origin_fixed ⟨isModulePath_of_isDottedPath hruntime, h⟩

/-- The function that makes fresh identifiers, whichever it is. -/
theorem origin_freshFunction (v : UuidVersion) : Origin e (runtime, [freshFunction v]) := by
  refine origin_runtime hruntime ?_
  cases v <;> decide

theorem origin_transfer (h : transferModule? runtime e = some m) : AllOrigin e m.imports := by
  simp only [transferModule?] at h
  split at h
  · simp at h
  · obtain rfl := Option.some.inj h
    have hshapes : AllOrigin e ((shapes runtime e).flatMap Prod.snd) := by
      refine .flatMap fun shape hshape r hr => ?_
      rcases ofShapes_of_mem_shapes hshape r hr with rfl | hfield
      · exact origin_freshFunction hruntime _
      · exact origin_fixed (fits_fieldImports r hfield)
    exact .append (.cons (origin_fixed (by decide)) (.single origin_entity)) hshapes

theorem origin_query (h : queryModule? runtime e = some m) : AllOrigin e m.imports := by
  simp only [queryModule?] at h
  split at h
  · simp at h
  · obtain rfl := Option.some.inj h
    have hfixed : AllOrigin e [("pydantic", ["BaseModel", "Field"]),
        ("typing", ["Any", "List", "Optional", "Tuple"]), (runtime, ["build_select"])] :=
      .cons (origin_fixed (by decide)) (.cons (origin_fixed (by decide))
        (.single (origin_runtime hruntime (by decide))))
    exact .append (.append hfixed.lastPerModule
      (.ifThen fun _ => .single (origin_runtime hruntime (by decide))))
      (.flatMap fun p _ => origin_of_fields (ofFields_hintImports _ _))

theorem origin_stepImports (method : RepositoryMethod) :
    AllOrigin e (stepImports runtime e method) := by
  unfold stepImports
  extract_lets event
  have hevent {ending : String} (h : Ending ending) : AllOrigin e (event ending) :=
    .ifThen fun _ => .single (origin_ending .events rfl h)
  have hremoval : AllOrigin e (event (removalEvent e method.name)) := by
    refine hevent ?_
    unfold removalEvent
    split
    · decide
    · split <;> decide
  split
  · exact hevent (by decide)
  · exact .cons (origin_runtime hruntime (by decide)) (hevent (by decide))
  · exact hremoval
  · exact hremoval
  · exact hremoval
  · exact .single (origin_one .query rfl fun _ =>
      isNameList_around_snakeName (by decide) (by decide) (by decide))
  · exact .nil

theorem origin_backend (h : e.hasBackend = true) : AllOrigin e (backendImports runtime e) := by
  have hfixed : AllOrigin e [("typing", ["Any", "List"]),
      (runtime, ["Executor", "affected_rows"]), (".repository", [e.repositoryName])] :=
    .cons (origin_fixed (by decide)) (.cons (origin_runtime hruntime (by decide))
      (.single origin_repository))
  have hupdate : AllOrigin e (if e.updateFields.isEmpty then [] else [("typing", ["Dict"])]) :=
    .ifElse fun _ => origin_of_fits (by decide)
  have hstreams : AllOrigin e (if e.features.streams then
      [(runtime, ["channel_name", "publish"]), (".events", [e.eventUnion])] else []) :=
    .ifThen fun _ => .cons (origin_runtime hruntime (by decide))
      (.single (origin_ending .events rfl (by decide)))
  exact .append (.append (.append (.append (.append hfixed.lastPerModule
    (origin_methodImports (hasRepository_of_hasBackend h))) hupdate) hstreams)
    (origin_errorImports h)) (.flatMap fun method _ => origin_stepImports hruntime method)

theorem origin_policy : AllOrigin e (policyModule runtime e).imports := by
  have hchecks : AllOrigin e (checkImports e) :=
    .append (.append origin_idImports origin_requestImports)
      (.ifThen fun _ => .single (origin_ending .commands rfl (by decide)))
  refine .append (.append (origin_of_fits (by decide)) hchecks) (.ifThen fun h => ?_)
  have hfixed : AllOrigin e [(runtime, ["PolicyError", "PolicyOperation"]),
      ("typing", ["Awaitable"]), (".repository", [e.repositoryName])] :=
    .cons (origin_runtime hruntime (by decide))
      (.cons (origin_fixed (by decide)) (.single origin_repository))
  have hcommands : Origin e (".commands", [e.handlerName, e.commandUnion, e.resultUnion]) :=
    origin_endings ["CommandHandler", "Command", "CommandResult"] .commands rfl (by decide)
      (by decide)
  exact .append (.append hfixed (origin_methodImports h)) (.ifThen fun _ => .single hcommands)

theorem origin_streams : AllOrigin e (streamsModule runtime e).imports := by
  have hevents : Origin e (".events", [e.eventUnion, e.decodeFunction]) := by
    refine origin_sibling .events rfl (List.cons_ne_nil _ _) fun hname => ?_
    refine List.forall_mem_cons.mpr ⟨?_, List.forall_mem_singleton.mpr ?_⟩
    · exact isNameList_append hname (by decide)
    · exact isNameList_around_snakeName (by decide) (by decide) (by decide)
  exact .lastPerModule (.cons (origin_fixed (by decide))
    (.cons (origin_runtime hruntime (by decide)) (.single hevents)))

theorem origin_transactions : AllOrigin e (transactionsModule runtime e).imports :=
  .lastPerModule (.cons (origin_fixed (by decide)) (.cons (origin_fixed (by decide))
    (.cons (origin_runtime hruntime (by decide)) (.single origin_backendName))))

end Runtime

theorem origin_hooks : AllOrigin e (hooksModule e).imports := by
  have hcommands : Origin e (".commands", [e.commandUnion, e.resultUnion]) :=
    origin_endings ["Command", "CommandResult"] .commands rfl (by decide) (by decide)
  exact .append (.append (.append origin_idImports origin_requestImports)
    (.ifElse fun _ => .single origin_entity)) (.ifThen fun _ => .single hcommands)

theorem origin_commands (hasked : e.hasCommands = true) (h : commandsModule? e = some m) :
    AllOrigin e m.imports := by
  simp only [commandsModule?] at h
  split at h
  · simp at h
  · obtain rfl := Option.some.inj h
    have hfixed : AllOrigin e [("abc", ["ABC", "abstractmethod"]), ("dataclasses", ["dataclass"]),
        ("typing", ["ClassVar", "Generic", "TypeVar"]), (".entity", [e.name])] :=
      .cons (origin_fixed (by decide)) (.cons (origin_fixed (by decide))
        (.cons (origin_fixed (by decide)) (.single origin_entity)))
    have htypes : AllOrigin e (e.commands.flatMap (commandTypeImports e)) :=
      .flatMap fun _ hc _ hr => .command hasked hc hr
    exact .append (.append hfixed htypes)
      (.flatMap fun c _ => origin_of_fields (ofFields_payloadImports c))

/-- Whatever a module imports has an origin. -/
theorem origin_imports (hruntime : isDottedPath runtime.toList = true) (ha : asksFor e k = true)
    (hm : moduleFor runtime e k = some m) : AllOrigin e m.imports := by
  cases k with
  | entity =>
    obtain rfl := Option.some.inj hm
    exact .append (origin_of_fits (by decide)) (origin_of_fields (ofFields_shapeImports _ _))
  | transfer => exact origin_transfer hruntime hm
  | query => exact origin_query hruntime hm
  | repository =>
    obtain rfl := Option.some.inj hm
    exact .cons (origin_fixed (by decide)) (origin_methodImports ha)
  | backend =>
    obtain rfl := Option.some.inj hm
    exact origin_backend hruntime ha
  | events =>
    obtain rfl := Option.some.inj hm
    have hfixed : AllOrigin e [("pydantic", ["BaseModel", "ConfigDict", "Field", "TypeAdapter"]),
        ("typing", ["Annotated", "Literal", "Union"]), (".entity", [e.name])] :=
      .cons (origin_fixed (by decide)) (.cons (origin_fixed (by decide)) (.single origin_entity))
    exact .append hfixed origin_idImports
  | commands => exact origin_commands ha hm
  | policy =>
    obtain rfl := Option.some.inj hm
    exact origin_policy hruntime
  | streams =>
    obtain rfl := Option.some.inj hm
    exact origin_streams hruntime
  | hooks =>
    obtain rfl := Option.some.inj hm
    exact origin_hooks
  | transactions =>
    obtain rfl := Option.some.inj hm
    exact origin_transactions hruntime

end EntityForge.Package
