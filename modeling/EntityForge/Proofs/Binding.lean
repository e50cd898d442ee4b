import EntityForge.Proofs.MadeName
import EntityForge.Proofs.Origin

/-!
# What the names of a module are bound to

A module binds names by its imports and by its classes. Every name that it binds is traced to where
it was chosen, or to how it is made. Since it is known where a name that is made comes from, a name
is bound twice only if it was chosen with the entity; and distinguished names never are.
-/

namespace EntityForge.Package

open Source

variable {runtime : String} {e : Entity} {k : ModuleKind} {m : Module}

/-! ## Bindings -/

/-- A module binds a name: it takes it from a module, or it defines a class of that name. -/
def Binds (m : Module) (home : Option String) (n : String) : Prop :=
  match home with
  | some path => m.importTable.Takes path n
  | none => n ∈ m.classes.map ClassBlock.name

/-- A module takes a name from one module at most, and only if it has no class of that name. -/
structure OneHome (m : Module) (n : String) : Prop where
  imported : ∀ path path', m.importTable.Takes path n → m.importTable.Takes path' n → path = path'
  defined : ∀ path, m.importTable.Takes path n → n ∉ m.classes.map ClassBlock.name

theorem oneHome_iff {n : String} : OneHome m n ↔
    ∀ home home', Binds m home n → Binds m home' n → home = home' := by
  constructor
  · rintro ⟨himported, hdefined⟩ (_ | path) (_ | path') h h'
    · rfl
    · exact absurd h (hdefined path' h')
    · exact absurd h' (hdefined path h)
    · exact congrArg some (himported path path' h h')
  · intro h
    exact ⟨fun path path' hp hp' => Option.some.inj (h (some path) (some path') hp hp'),
      fun path hp hc => nomatch h (some path) none hp hc⟩

/-- What a module binds, as a list: each name with its home. -/
def bindings (m : Module) : List (Option String × String) :=
  (takenNames m.imports).map (fun p => (some p.1, p.2)) ++ m.classes.map fun c => (none, c.name)

theorem mem_bindings {home : Option String} {n : String} :
    (home, n) ∈ bindings m ↔ Binds m home n := by
  rw [bindings, List.mem_append]
  cases home with
  | some path =>
    rw [or_iff_left (by simp), Binds, Module.importTable, ImportTable.takes_ofRegistrations,
      ← mem_takenNames]
    simp
  | none =>
    rw [or_iff_right (by simp), Binds]
    simp

instance (m : Module) (home : Option String) (n : String) : Decidable (Binds m home n) :=
  decidable_of_iff _ mem_bindings

/-! ## Where the names of a module come from -/

/-- A name that is bound to a home was chosen, or made in a way that has this home. -/
def Traced (runtime : String) (e : Entity) (k : ModuleKind) (home : Option String) (n : String) :
    Prop := Chosen e k home n ∨ ∃ mark, Made e mark n ∧ mark.home runtime k = home

/-- All names of a registration can be traced. -/
def TracedImport (runtime : String) (e : Entity) (k : ModuleKind) (r : Registration) : Prop :=
  ∀ n ∈ r.2, Traced runtime e k (some r.1) n

/-- All names of registrations can be traced. -/
abbrev AllTraced (runtime : String) (e : Entity) (k : ModuleKind) : List Registration → Prop :=
  Every (TracedImport runtime e k)

/-- A registration takes names of a library. -/
def OfLibrary (r : Registration) : Prop := ∀ n ∈ r.2, (n, Mark.library r.1) ∈ fixedNames

instance : DecidablePred OfLibrary :=
  fun r => inferInstanceAs (Decidable (∀ n ∈ r.2, (n, Mark.library r.1) ∈ fixedNames))

theorem traced_library {r : Registration} (h : OfLibrary r) : TracedImport runtime e k r :=
  fun n hn => Or.inr ⟨_, .fixed (h n hn), rfl⟩

theorem traced_runtime {names : List String} (h : ∀ n ∈ names, (n, Mark.runtime) ∈ fixedNames) :
    TracedImport runtime e k (runtime, names) :=
  fun n hn => Or.inr ⟨_, .fixed (h n hn), rfl⟩

theorem traced_chosen {path n : String} (h : Chosen e k (some path) n) :
    TracedImport runtime e k (path, [n]) := List.forall_mem_singleton.mpr (Or.inl h)

/-- Names that another module of the package defines. -/
theorem traced_sibling {path : String} {names : List String} (j : ModuleKind) (hj : j ≠ k)
    (hpath : path = "." ++ j.name) (h : ∀ n ∈ names, Made e (.package j) n) :
    TracedImport runtime e k (path, names) :=
  fun n hn => Or.inr ⟨_, h n hn, hpath ▸ packageHome_of_ne hj⟩

theorem traced_class {n : String} (h : Made e (.package k) n) : Traced runtime e k none n :=
  Or.inr ⟨_, h, if_pos rfl⟩

theorem ofLibrary_fieldImports : Every OfLibrary fieldImports := by decide +kernel

theorem traced_of_fields {rs : List Registration} (h : OfFields rs) : AllTraced runtime e k rs :=
  fun r hr => traced_library (ofLibrary_fieldImports r (h r hr))

theorem traced_of_library {rs : List Registration} (h : Every OfLibrary rs) :
    AllTraced runtime e k rs := fun r hr => traced_library (h r hr)

/-! ### Imports -/

theorem traced_one {path n : String} (j : ModuleKind) (hj : j ≠ k) (hpath : path = "." ++ j.name)
    (h : Made e (.package j) n) : TracedImport runtime e k (path, [n]) :=
  traced_sibling j hj hpath (List.forall_mem_singleton.mpr h)

theorem traced_entity (hk : .entity ≠ k) : TracedImport runtime e k (".entity", [e.name]) := by
  refine traced_chosen ?_
  have hchosen : Chosen e k (packageHome k .entity) e.name := .entity
  rwa [packageHome_of_ne hk] at hchosen

theorem traced_idImports : AllTraced runtime e k e.idImports := traced_of_fields ofFields_idImports

theorem traced_requestImports (hk : .transfer ≠ k) : AllTraced runtime e k (requestImports e) :=
  .append (.ifElse fun _ => .single (traced_one .transfer hk rfl made_createRequest))
    (.ifElse fun _ => .single (traced_one .transfer hk rfl made_updateRequest))

theorem traced_projection {p : Projection} (hk : DeclaresMethods k)
    (hp : p ∈ e.livingProjections) :
    TracedImport runtime e k (".dto", [p.structName e.name]) := by
  refine traced_chosen ?_
  have hchosen : Chosen e k (packageHome k .transfer) (p.structName e.name) :=
    .projection (Or.inl hk) hp
  rwa [packageHome_of_ne (hk.ne (by decide))] at hchosen

theorem traced_methodImports (hk : DeclaresMethods k) :
    AllTraced runtime e k (methodImports e) := by
  have hfixed : AllTraced runtime e k [("typing", ["List", "Optional"]), (".entity", [e.name])] :=
    .cons (traced_library (by decide)) (.single (traced_entity (hk.ne (by decide))))
  have hquery : AllTraced runtime e k (if e.hasFilters then [(".query", [e.queryName])] else []) :=
    .ifThen fun _ => .single (traced_one .query (hk.ne (by decide)) rfl made_queryName)
  have hparents : AllTraced runtime e k ((parentFields e).map fun f =>
      (e.relatedModule f.parent, [f.parent])) :=
    .map fun f hf => traced_chosen (.related hk (List.mem_append_left _ (List.mem_map_of_mem hf)))
  have hchildren : AllTraced runtime e k (e.hasMany.map fun child =>
      (e.relatedModule child, [child])) :=
    .map fun child hc => traced_chosen (.related hk (List.mem_append_right _ hc))
  have hprojections : AllTraced runtime e k (e.livingProjections.map fun p =>
      (".dto", [p.structName e.name])) := .map fun _ hp => traced_projection hk hp
  exact .append (.append (.append (.append (.append (.append traced_idImports hfixed)
    (traced_requestImports (hk.ne (by decide)))) hquery) hparents) hchildren) hprojections

theorem traced_errorImports :
    AllTraced runtime e .backend (((nonEmpty? e.errorType).map fun path =>
      ("asyncpg", ["PostgresError"]) :: pathRegistrations path).getD []) := by
  refine every_getD_map.mpr fun path hpath => .cons (traced_library (by decide)) ?_
  intro r hr n hn
  have hnamed : (r.1, n) ∈ errorNames e := by
    rw [errorNames, Option.mem_toList.mp hpath]
    exact mem_takenNames.mpr ⟨r, hr, rfl, hn⟩
  exact Or.inl (.error rfl hnamed)

theorem traced_transfer (h : transferModule? runtime e = some m) :
    AllTraced runtime e .transfer m.imports := by
  simp only [transferModule?] at h
  split at h
  · simp at h
  · obtain rfl := Option.some.inj h
    have hfresh : ∀ v, (freshFunction v, Mark.runtime) ∈ fixedNames := by
      intro v
      cases v <;> decide
    have hshapes : AllTraced runtime e .transfer ((shapes runtime e).flatMap Prod.snd) := by
      refine .flatMap fun shape hshape r hr => ?_
      rcases ofShapes_of_mem_shapes hshape r hr with rfl | hfield
      · exact traced_runtime (List.forall_mem_singleton.mpr (hfresh _))
      · exact traced_library (ofLibrary_fieldImports r hfield)
    exact .append (.cons (traced_library (by decide)) (.single (traced_entity (by decide)))) hshapes

theorem traced_query (h : queryModule? runtime e = some m) : AllTraced runtime e k m.imports := by
  simp only [queryModule?] at h
  split at h
  · simp at h
  · obtain rfl := Option.some.inj h
    have hfixed : AllTraced runtime e k [("pydantic", ["BaseModel", "Field"]),
        ("typing", ["Any", "List", "Optional", "Tuple"]), (runtime, ["build_select"])] :=
      .cons (traced_library (by decide)) (.cons (traced_library (by decide))
        (.single (traced_runtime (by decide))))
    exact .append (.append hfixed.lastPerModule
      (.ifThen fun _ => .single (traced_runtime (by decide))))
      (.flatMap fun p _ => traced_of_fields (ofFields_hintImports _ _))

theorem traced_stepImports (hq : .query ≠ k) (he : .events ≠ k) (method : RepositoryMethod) :
    AllTraced runtime e k (stepImports runtime e method) := by
  unfold stepImports
  extract_lets event
  have hevent {suffix : String} (h : (suffix, Mark.package .events) ∈ markedEndings) :
      AllTraced runtime e k (event suffix) :=
    .ifThen fun _ => .single (traced_one .events he rfl (made_event h))
  have hremoval : AllTraced runtime e k (event (removalEvent e method.name)) := by
    refine hevent ?_
    unfold removalEvent
    split
    · decide
    · split <;> decide
  split
  · exact hevent (by decide)
  · exact .cons (traced_runtime (by decide)) (hevent (by decide))
  · exact hremoval
  · exact hremoval
  · exact hremoval
  · exact .single (traced_one .query hq rfl made_queryFunction)
  · exact .nil

theorem traced_backend : AllTraced runtime e .backend (backendImports runtime e) := by
  have hfixed : AllTraced runtime e .backend [("typing", ["Any", "List"]),
      (runtime, ["Executor", "affected_rows"]), (".repository", [e.repositoryName])] :=
    .cons (traced_library (by decide)) (.cons (traced_runtime (by decide))
      (.single (traced_one .repository (by decide) rfl made_repositoryName)))
  have hupdate : AllTraced runtime e .backend
      (if e.updateFields.isEmpty then [] else [("typing", ["Dict"])]) :=
    .ifElse fun _ => traced_of_library (by decide)
  have hstreams : AllTraced runtime e .backend (if e.features.streams then
      [(runtime, ["channel_name", "publish"]), (".events", [e.eventUnion])] else []) :=
    .ifThen fun _ => .cons (traced_runtime (by decide))
      (.single (traced_one .events (by decide) rfl made_eventUnion))
  exact .append (.append (.append (.append (.append hfixed.lastPerModule
    (traced_methodImports (by decide))) hupdate) hstreams) traced_errorImports)
    (.flatMap fun method _ => traced_stepImports (by decide) (by decide) method)

theorem traced_policy : AllTraced runtime e .policy (policyModule runtime e).imports := by
  have hchecks : AllTraced runtime e .policy (checkImports e) :=
    .append (.append traced_idImports (traced_requestImports (by decide)))
      (.ifThen fun _ => .single (traced_one .commands (by decide) rfl made_commandUnion))
  refine .append (.append (traced_of_library (by decide)) hchecks) (.ifThen fun _ => ?_)
  have hfixed : AllTraced runtime e .policy [(runtime, ["PolicyError", "PolicyOperation"]),
      ("typing", ["Awaitable"]), (".repository", [e.repositoryName])] :=
    .cons (traced_runtime (by decide)) (.cons (traced_library (by decide))
      (.single (traced_one .repository (by decide) rfl made_repositoryName)))
  have hcommands : TracedImport runtime e .policy
      (".commands", [e.handlerName, e.commandUnion, e.resultUnion]) :=
    traced_sibling .commands (by decide) rfl (List.forall_mem_cons.mpr ⟨made_handlerName,
      List.forall_mem_cons.mpr ⟨made_commandUnion, List.forall_mem_singleton.mpr made_resultUnion⟩⟩)
  exact .append (.append hfixed (traced_methodImports (by decide)))
    (.ifThen fun _ => .single hcommands)

theorem traced_streams : AllTraced runtime e .streams (streamsModule runtime e).imports := by
  have hevents : TracedImport runtime e .streams (".events", [e.eventUnion, e.decodeFunction]) :=
    traced_sibling .events (by decide) rfl (List.forall_mem_cons.mpr ⟨made_eventUnion,
      List.forall_mem_singleton.mpr made_decodeFunction⟩)
  exact .lastPerModule (.cons (traced_library (by decide))
    (.cons (traced_runtime (by decide)) (.single hevents)))

theorem traced_transactions :
    AllTraced runtime e .transactions (transactionsModule runtime e).imports :=
  .lastPerModule (.cons (traced_library (by decide)) (.cons (traced_library (by decide))
    (.cons (traced_runtime (by decide))
      (.single (traced_one .backend (by decide) rfl made_backendName)))))

theorem traced_hooks : AllTraced runtime e .hooks (hooksModule e).imports := by
  have hcommands : TracedImport runtime e .hooks (".commands", [e.commandUnion, e.resultUnion]) :=
    traced_sibling .commands (by decide) rfl (List.forall_mem_cons.mpr ⟨made_commandUnion,
      List.forall_mem_singleton.mpr made_resultUnion⟩)
  exact .append (.append (.append traced_idImports (traced_requestImports (by decide)))
    (.ifElse fun _ => .single (traced_entity (by decide)))) (.ifThen fun _ => .single hcommands)

theorem traced_commands (h : commandsModule? e = some m) :
    AllTraced runtime e .commands m.imports := by
  simp only [commandsModule?] at h
  split at h
  · simp at h
  · obtain rfl := Option.some.inj h
    have hfixed : AllTraced runtime e .commands [("abc", ["ABC", "abstractmethod"]),
        ("dataclasses", ["dataclass"]), ("typing", ["ClassVar", "Generic", "TypeVar"]),
        (".entity", [e.name])] :=
      .cons (traced_library (by decide)) (.cons (traced_library (by decide))
        (.cons (traced_library (by decide)) (.single (traced_entity (by decide)))))
    have htypes : AllTraced runtime e .commands (e.commands.flatMap (commandTypeImports e)) :=
      fun r hr _ hn => Or.inl (.type rfl (mem_takenNames.mpr ⟨r, hr, rfl, hn⟩))
    exact .append (.append hfixed htypes)
      (.flatMap fun c _ => traced_of_fields (ofFields_payloadImports c))

theorem traced_imports (hm : moduleFor runtime e k = some m) : AllTraced runtime e k m.imports := by
  cases k with
  | entity =>
    obtain rfl := Option.some.inj hm
    exact .append (traced_of_library (by decide)) (traced_of_fields (ofFields_shapeImports _ _))
  | transfer => exact traced_transfer hm
  | query => exact traced_query hm
  | repository =>
    obtain rfl := Option.some.inj hm
    exact .cons (traced_library (by decide)) (traced_methodImports (by decide))
  | backend =>
    obtain rfl := Option.some.inj hm
    exact traced_backend
  | events =>
    obtain rfl := Option.some.inj hm
    have hfixed : AllTraced runtime e .events
        [("pydantic", ["BaseModel", "ConfigDict", "Field", "TypeAdapter"]),
          ("typing", ["Annotated", "Literal", "Union"]), (".entity", [e.name])] :=
      .cons (traced_library (by decide))
        (.cons (traced_library (by decide)) (.single (traced_entity (by decide))))
    exact .append hfixed traced_idImports
  | commands => exact traced_commands hm
  | policy =>
    obtain rfl := Option.some.inj hm
    exact traced_policy
  | streams =>
    obtain rfl := Option.some.inj hm
    exact traced_streams
  | hooks =>
    obtain rfl := Option.some.inj hm
    exact traced_hooks
  | transactions =>
    obtain rfl := Option.some.inj hm
    exact traced_transactions

/-! ### Classes -/

theorem classes_eventsModule : (eventsModule e).classes =
    eventBaseClass e :: (eventVariants e).map (eventClass e) := by
  have hsections : (eventsModule e).sections = [.classDef (eventBaseClass e)] ++
      (eventVariants e).map (fun v => .classDef (eventClass e v)) ++
      [eventUnionSection e, .function (decodeFunction e)] := rfl
  have hbase : [Section.classDef (eventBaseClass e)].filterMap classOf? = [eventBaseClass e] := rfl
  have hrest : [eventUnionSection e, .function (decodeFunction e)].filterMap classOf? = [] := rfl
  rw [classes_eq, hsections, List.filterMap_append, List.filterMap_append, hbase, hrest,
    filterMap_classOf?, List.append_nil, List.singleton_append]

theorem classes_policyModule : (policyModule runtime e).classes =
    [policyClass e, allowAllClass e] ++ if e.hasRepository then [guardedClass e] else [] := by
  unfold policyModule
  cases e.hasRepository <;> rfl

theorem marked_of_mem_suffixes : ∀ suffix ∈ (eventVariants e).map EventVariant.suffix,
    (suffix, Mark.package .events) ∈ markedEndings := by
  rw [suffixes_eventVariants]
  cases e.softDelete <;> decide +kernel

theorem allEnd_policies : AllEnd "Policy" [e.policyName, e.allowAllName] := by
  refine List.forall_mem_cons.mpr ⟨⟨_, rfl⟩, List.forall_mem_singleton.mpr
    ⟨e.name ++ "AllowAll", ?_⟩⟩
  rw [Entity.allowAllName, String.append_assoc]
  rfl

/-- The names of the classes of a module can be traced to it. -/
theorem traced_classes (hm : moduleFor runtime e k = some m) :
    ∀ n ∈ m.classes.map ClassBlock.name, Traced runtime e k none n := by
  cases k with
  | entity =>
    obtain rfl := Option.some.inj hm
    exact List.forall_mem_singleton.mpr (Or.inl .entity)
  | transfer =>
    rw [classes_transferModule hm, List.map_map]
    intro n hn
    have hn : n ∈ (shapes runtime e).map fun s => s.1.name := hn
    rw [names_shapes, mem_ifElse_append, mem_ifElse_append, mem_ifElse_append] at hn
    rcases hn with ⟨-, rfl⟩ | ⟨-, rfl⟩ | ⟨-, rfl⟩ | hn
    · exact traced_class made_createRequest
    · exact traced_class made_updateRequest
    · exact traced_class made_responseName
    · obtain ⟨p, hp, rfl⟩ := List.mem_map.mp hn
      exact Or.inl (.projection (Or.inr rfl) hp)
  | query =>
    simp only [moduleFor, queryModule?] at hm
    split at hm
    · simp at hm
    · obtain rfl := Option.some.inj hm
      exact List.forall_mem_singleton.mpr (traced_class made_queryName)
  | repository =>
    obtain rfl := Option.some.inj hm
    exact List.forall_mem_singleton.mpr (traced_class made_repositoryName)
  | backend =>
    obtain rfl := Option.some.inj hm
    exact List.forall_mem_singleton.mpr (traced_class made_backendName)
  | events =>
    obtain rfl := Option.some.inj hm
    intro n hn
    rw [classes_eventsModule, List.map_cons, List.map_map] at hn
    rcases List.mem_cons.mp hn with rfl | hn
    · exact traced_class (.ending ("_" ++ e.name) (by decide))
    · obtain ⟨v, hv, rfl⟩ := List.mem_map.mp hn
      exact traced_class (made_event (marked_of_mem_suffixes _ (List.mem_map_of_mem hv)))
  | commands =>
    rw [names_classes_commandsModule hm]
    intro n hn
    simp only [List.mem_append] at hn
    rcases hn with hn | hn | hn | hn
    · obtain ⟨c, hc, rfl⟩ := List.mem_map.mp hn
      exact Or.inl (.payload rfl hc)
    · exact traced_class (made_variants n hn)
    · exact traced_class (made_results n hn)
    · rw [List.mem_singleton.mp hn]
      exact traced_class made_handlerName
  | policy =>
    obtain rfl := Option.some.inj hm
    intro n hn
    rw [classes_policyModule, List.map_append] at hn
    rcases List.mem_append.mp hn with hn | hn
    · exact traced_class (made_of_allEnd (by decide) allEnd_policies n hn)
    · split at hn
      · rw [List.mem_singleton.mp hn]
        exact traced_class made_guardedName
      · simp at hn
  | streams =>
    obtain rfl := Option.some.inj hm
    exact List.forall_mem_singleton.mpr (Or.inl (.subscriber rfl))
  | hooks =>
    obtain rfl := Option.some.inj hm
    exact List.forall_mem_singleton.mpr (traced_class (.ending _ (by decide)))
  | transactions =>
    obtain rfl := Option.some.inj hm
    exact List.forall_mem_singleton.mpr (traced_class (.ending _ (by decide)))

/-! ## Modules -/

theorem traced_of_binds (hm : moduleFor runtime e k = some m) {home : Option String} {n : String}
    (h : Binds m home n) : Traced runtime e k home n := by
  cases home with
  | none => exact traced_classes hm n h
  | some path =>
    obtain ⟨r, hr, rfl, hn⟩ := ImportTable.takes_ofRegistrations.mp h
    exact traced_imports hm r hr n hn

/-- Where a module binds a name that was chosen, it binds it nowhere else: neither as another name
that was chosen nor as one that is made. -/
structure ChosenApart (runtime : String) (e : Entity) (k : ModuleKind) (m : Module) : Prop where
  chosen : ∀ home home' n, Chosen e k home n → Chosen e k home' n →
    Binds m home n → Binds m home' n → home = home'
  made : ∀ home mark n, Chosen e k home n → Made e mark n →
    Binds m home n → Binds m (mark.home runtime k) n → home = mark.home runtime k

/-- A name that is bound twice was chosen, for it is known where one that is made comes from. -/
theorem oneHome_iff_chosenApart (hm : moduleFor runtime e k = some m) :
    (∀ n, OneHome m n) ↔ ChosenApart runtime e k m := by
  simp only [oneHome_iff]
  constructor
  · intro h
    exact ⟨fun home home' n _ _ => h n home home', fun home _ n _ _ => h n home _⟩
  · intro h n home home' hb hb'
    rcases traced_of_binds hm hb with hc | ⟨mark, hmade, rfl⟩
    · rcases traced_of_binds hm hb' with hc' | ⟨mark', hmade', rfl⟩
      · exact h.chosen home home' n hc hc' hb hb'
      · exact h.made home mark' n hc hmade' hb hb'
    · rcases traced_of_binds hm hb' with hc' | ⟨mark', hmade', rfl⟩
      · exact (h.made home' mark n hc' hmade hb' hb).symm
      · rw [hmade.unique hmade']

theorem Distinguished.chosenApart (h : Distinguished e) (hk : asksFor e k = true) :
    ChosenApart runtime e k m where
  chosen home home' n hc hc' _ _ := h.unique k hk home home' n hc hc'
  made home _ n hc hmade _ _ := absurd hmade.reserved (h.unreserved k hk home n hc)

/-- How much longer the exports of a package are than the name of the entity. -/
def exportLengths : List (String × Nat) :=
  [(".entity", 0), (".repository", "Repository".length),
    (".postgres", "Postgres".length + "Repository".length)]

theorem exists_exportLength {r : Registration} (h : r ∈ packageExports e) {n : String}
    (hn : n ∈ r.2) : ∃ p ∈ exportLengths, p.1 = r.1 ∧ n.length = e.name.length + p.2 := by
  simp only [packageExports, List.mem_append] at h
  rcases h with (h | h) | h
  · obtain rfl := List.mem_singleton.mp h
    obtain rfl := List.mem_singleton.mp hn
    exact ⟨_, List.mem_cons_self, rfl, rfl⟩
  · split at h
    · obtain rfl := List.mem_singleton.mp h
      obtain rfl := List.mem_singleton.mp hn
      exact ⟨_, List.mem_cons_of_mem _ List.mem_cons_self, rfl, String.length_append _ _⟩
    · cases h
  · split at h
    · obtain rfl := List.mem_singleton.mp h
      obtain rfl := List.mem_singleton.mp hn
      refine ⟨_, List.mem_cons_of_mem _ (List.mem_cons_of_mem _ List.mem_cons_self), rfl, ?_⟩
      rw [Entity.backendName, Entity.repositoryName, String.length_append, String.length_append]
      omega
    · cases h

/-- No name is exported from two modules. -/
theorem eq_of_mem_packageExports {r r' : Registration} (h : r ∈ packageExports e)
    (h' : r' ∈ packageExports e) {n : String} (hn : n ∈ r.2) (hn' : n ∈ r'.2) : r.1 = r'.1 := by
  have hpaths : ∀ p ∈ exportLengths, ∀ q ∈ exportLengths, p.2 = q.2 → p.1 = q.1 := by decide
  obtain ⟨p, hp, hpath, hlength⟩ := exists_exportLength h hn
  obtain ⟨q, hq, hpath', hlength'⟩ := exists_exportLength h' hn'
  rw [← hpath, ← hpath']
  exact hpaths p hp q hq (by omega)

/-- In all modules names are bound once exactly when those are apart there that were chosen with
the entity, and so they are when these names are distinguished. The initial file takes each name
from one module. -/
theorem oneHome_iff_chosen {ms : List (ModuleKind × Module)} (hms : modules runtime e = .ok ms) :
    ((∀ p ∈ ms, ∀ n, OneHome p.2 n) ↔ ∀ p ∈ ms, ChosenApart runtime e p.1 p.2) ∧
      (Distinguished e → ∀ p ∈ ms, ∀ n, OneHome p.2 n) ∧
      ∀ r ∈ packageExports e, ∀ r' ∈ packageExports e, ∀ n ∈ r.2, n ∈ r'.2 → r.1 = r'.1 := by
  have hiff : ∀ p ∈ ms, (∀ n, OneHome p.2 n) ↔ ChosenApart runtime e p.1 p.2 :=
    fun p hp => oneHome_iff_chosenApart ((mem_modules hms).mp hp).2
  refine ⟨forall₂_congr hiff, fun h p hp => ?_, fun r hr r' hr' n hn hn' =>
    eq_of_mem_packageExports hr hr' hn hn'⟩
  exact (hiff p hp).mpr (h.chosenApart ((mem_modules hms).mp hp).1)

/-- In all modules of the order, names are bound once. -/
theorem oneHome_order : ∃ e notes ms,
    Build.build orderDeclaration false = .ok (e, notes) ∧
      modules ({} : GenerationConfig).runtimeModule e = .ok ms ∧ ms.length = 11 ∧
      Distinguished e ∧ ∀ p ∈ ms, ∀ n, OneHome p.2 n := by
  obtain ⟨e, notes, ms, hb, hms, hgood⟩ := exists_modules_of_build orderDeclaration false
    ({} : GenerationConfig).runtimeModule
    (fun e ms => decide (ms.length = 11 ∧ ∀ k ∈ moduleKinds e, ∀ p ∈ chosenNames e k,
      ¬ Reserved p.2 ∧ ∀ q ∈ chosenNames e k, p.2 = q.2 → p.1 = q.1)) (by decide +kernel)
  obtain ⟨hlength, hchosen⟩ := of_decide_eq_true hgood
  have hdistinguished : Distinguished e := distinguished_of_chosenNames hchosen
  exact ⟨e, notes, ms, hb, hms, hlength, hdistinguished,
    (oneHome_iff_chosen hms).2.1 hdistinguished⟩

/-- An entity with two commands whose payloads are types of one name from two modules. -/
def invoiceDeclaration : EntityDeclaration where
  name := "Invoice"
  attributes := [(.text "table", .text "invoices"),
    (.text "commands", .list [
      .map [(.text "name", .text "Draft"), (.text "payload", .text "app.drafts.Payload")],
      .map [(.text "name", .text "Send"), (.text "payload", .text "app.mail.Payload")]])]
  fields := some [
    { name := some "id", type := "uuid", attributes := [(.text "id", .bool true)] }]

/-- The invoice is built, though its commands module takes one name from two modules. -/
theorem not_oneHome_invoice : ∃ e notes ms m,
    Build.build invoiceDeclaration false = .ok (e, notes) ∧
      modules ({} : GenerationConfig).runtimeModule e = .ok ms ∧
      (ModuleKind.commands, m) ∈ ms ∧ m.importTable.Takes "app.drafts" "Payload" ∧
      m.importTable.Takes "app.mail" "Payload" ∧ ¬ OneHome m "Payload" := by
  obtain ⟨e, notes, ms, hb, hms, hgood⟩ := exists_modules_of_build invoiceDeclaration false
    ({} : GenerationConfig).runtimeModule
    (fun _ ms => decide (∃ p ∈ ms, p.1 = .commands ∧
      Binds p.2 (some "app.drafts") "Payload" ∧ Binds p.2 (some "app.mail") "Payload"))
    (by decide +kernel)
  obtain ⟨⟨_, m⟩, hm, rfl, hdrafts, hmail⟩ := of_decide_eq_true hgood
  refine ⟨e, notes, ms, m, hb, hms, hm, hdrafts, hmail, fun h => ?_⟩
  exact absurd (h.imported _ _ hdrafts hmail) (by decide)

end EntityForge.Package
