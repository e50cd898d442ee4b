import EntityForge.Proofs.Lookup
import EntityForge.Proofs.Provision

/-!
# What the modules of a package import

Whatever a module imports leads out of the package, or to a name that another module provides. The
types of commands are the exception: they lead wherever the path leads that names them.
-/

namespace EntityForge.Package

open Source

variable {runtime : String} {e : Entity} {k : ModuleKind} {m : Module}

/-! ## Registrations -/

/-- The registration leads out of the package, or to names that a module of it defines. -/
def Linked (e : Entity) (r : Registration) : Prop :=
  (∀ file, ¬ Sibling r.1 file) ∨ ∃ k : ModuleKind, r.1 = "." ++ k.name ∧ ∀ n ∈ r.2, Provides e k n

theorem linked_of_absolute {r : Registration} (h : ImportTable.isRelative r.1 = false) :
    Linked e r := Or.inl (not_sibling_of_absolute h)

theorem linked_sibling {path : String} {names : List String} (k : ModuleKind)
    (hpath : path = "." ++ k.name) (h : ∀ n ∈ names, Provides e k n) : Linked e (path, names) :=
  Or.inr ⟨k, hpath, h⟩

theorem linked_one {path name : String} (k : ModuleKind) (hpath : path = "." ++ k.name)
    (h : Provides e k name) : Linked e (path, [name]) :=
  linked_sibling k hpath (List.forall_mem_singleton.mpr h)

theorem linked_entity : Linked e (".entity", [e.name]) := linked_one .entity rfl .entity

/-- All registrations have a property. -/
def Every (P : Registration → Prop) (rs : List Registration) : Prop := ∀ r ∈ rs, P r

instance (P : Registration → Prop) [DecidablePred P] (rs : List Registration) :
    Decidable (Every P rs) := inferInstanceAs (Decidable (∀ r ∈ rs, P r))

namespace Every

variable {P : Registration → Prop} {r : Registration} {rs qs : List Registration}

theorem nil : Every P [] := List.forall_mem_nil _

theorem cons (h : P r) (hrs : Every P rs) : Every P (r :: rs) := List.forall_mem_cons.mpr ⟨h, hrs⟩

theorem single (h : P r) : Every P [r] := List.forall_mem_singleton.mpr h

theorem append (hrs : Every P rs) (hqs : Every P qs) : Every P (rs ++ qs) :=
  List.forall_mem_append.mpr ⟨hrs, hqs⟩

theorem lastPerModule (h : Every P rs) : Every P (lastPerModule rs) :=
  fun r hr => h r (mem_of_mem_lastPerModule hr)

theorem flatMap {α : Type} {f : α → List Registration} {as : List α}
    (h : ∀ a ∈ as, Every P (f a)) : Every P (as.flatMap f) := by
  intro r hr
  obtain ⟨a, ha, hr⟩ := List.mem_flatMap.mp hr
  exact h a ha r hr

theorem map {α : Type} {f : α → Registration} {as : List α} (h : ∀ a ∈ as, P (f a)) :
    Every P (as.map f) := List.forall_mem_map.mpr h

theorem ifThen {c : Prop} [Decidable c] (h : c → Every P rs) : Every P (if c then rs else []) := by
  split
  · exact h ‹c›
  · exact nil

theorem ifElse {c : Prop} [Decidable c] (h : ¬ c → Every P rs) :
    Every P (if c then [] else rs) := by
  split
  · exact nil
  · exact h ‹¬ c›

end Every

/-- All registrations lead out of the package, or to what a module of it defines. -/
abbrev AllLinked (e : Entity) : List Registration → Prop := Every (Linked e)

/-- All registrations are of absolute modules. -/
abbrev Absolute : List Registration → Prop := Every fun r => ImportTable.isRelative r.1 = false

theorem Absolute.linked {rs : List Registration} (h : Absolute rs) : AllLinked e rs :=
  fun r hr => linked_of_absolute (h r hr)

/-! ### Fields -/

/-- What fields and the shapes they stand in need imported, whatever the entity is. -/
def fieldImports : List Registration := [
  ("typing", ["Any"]), ("typing", ["List"]), ("typing", ["Optional"]), ("typing", ["Any", "Dict"]),
  ("typing", ["Any", "Mapping"]), ("uuid", ["UUID"]), ("datetime", ["datetime"]),
  ("datetime", ["datetime", "timezone"]), ("datetime", ["date"]), ("datetime", ["time"]),
  ("decimal", ["Decimal"]), ("pydantic", ["IPvAnyAddress"]), ("pydantic", ["Field"]),
  ("pydantic", ["ConfigDict"])]

/-- All registrations are such as fields need. -/
abbrev OfFields : List Registration → Prop := Every (· ∈ fieldImports)

theorem ofFields_hintImports (t : FieldType) (optional : Bool) :
    OfFields (t.hintImports optional) := by
  have hwrapper (h : Hint) : OfFields h.wrapperImports := by
    induction h with
    | name s => exact .nil
    | list item ih => exact ih.append (by decide)
    | optional inner ih => exact ih.append (by decide)
  have hvalue : ∀ path ∈ t.valueClass.2, (path, [t.valueClass.1]) ∈ fieldImports := by
    unfold FieldType.valueClass
    split
    · rename_i b _
      cases b <;> decide
    · decide
  refine Every.append (fun r hr => ?_) (hwrapper _)
  obtain ⟨path, hpath, rfl⟩ := Option.map_eq_some_iff.mp (Option.mem_toList.mp hr)
  exact hvalue path hpath

theorem ofFields_idImports : OfFields e.idImports := ofFields_hintImports _ _

theorem ofFields_zeroValue (t : FieldType) : OfFields t.zeroValue.2 := by
  unfold FieldType.zeroValue
  split
  · exact .nil
  · split
    · exact .nil
    · cases t.baseType? with
      | none => exact .nil
      | some b => cases b <;> decide

theorem ofFields_shapeImports (allOptional : Bool) (fields : List Field) :
    OfFields (shapeImports allOptional fields) := by
  refine .flatMap fun f _ => (ofFields_hintImports _ _).append (.map fun x _ => ?_)
  decide

theorem ofFields_payloadImports (c : Command) : OfFields (payloadImports e c) :=
  .append (.ifThen fun _ => ofFields_idImports) (.flatMap fun _ _ => ofFields_hintImports _ _)

/-- Shapes need no more than fields do, apart from the function that makes fresh identifiers. -/
def OfShapes (runtime : String) (e : Entity) (r : Registration) : Prop :=
  r = (runtime, [freshFunction e.uuidVersion]) ∨ r ∈ fieldImports

theorem ofShapes_initialImports (f : Field) :
    Every (OfShapes runtime e) (initialImports runtime e f) := by
  unfold initialImports
  split
  · rename_i function h
    refine .single (Or.inl ?_)
    unfold initial at h
    split at h
    · split at h
      · rw [← Initial.fresh.inj h]
      · simp at h
    · split at h <;> simp at h
  · exact .nil
  · exact fun r hr => Or.inr (ofFields_zeroValue _ r hr)

theorem ofShapes_of_mem_shapes {shape : Importing} (h : shape ∈ shapes runtime e) :
    Every (OfShapes runtime e) shape.2 := by
  have hfields {rs : List Registration} (hrs : OfFields rs) : Every (OfShapes runtime e) rs :=
    fun r hr => Or.inr (hrs r hr)
  simp only [shapes, List.mem_append, or_assoc] at h
  rcases h with h | h | h | h
  · split at h
    · simp at h
    · rw [List.mem_singleton.mp h]
      exact (hfields (ofFields_shapeImports _ _)).append
        (.flatMap fun f _ => ofShapes_initialImports f)
  · split at h
    · simp at h
    · rw [List.mem_singleton.mp h]
      exact hfields (.cons (by decide) (ofFields_shapeImports _ _))
  · split at h
    · simp at h
    · rw [List.mem_singleton.mp h]
      exact hfields (.cons (by decide) (ofFields_shapeImports _ _))
  · obtain ⟨p, -, rfl⟩ := List.mem_map.mp h
    exact hfields (.cons (by decide) (ofFields_shapeImports _ _))

theorem absolute_fieldImports : Absolute fieldImports := by decide

theorem absolute_of_fields {rs : List Registration} (h : OfFields rs) : Absolute rs :=
  fun r hr => absolute_fieldImports r (h r hr)

theorem absolute_idImports : Absolute e.idImports := absolute_of_fields ofFields_idImports

/-! ### Shapes and filters -/

section Runtime

variable (hruntime : ImportTable.isRelative runtime = false)

include hruntime

theorem linked_transfer (h : transferModule? runtime e = some m) : AllLinked e m.imports := by
  simp only [transferModule?] at h
  split at h
  · simp at h
  · obtain rfl := Option.some.inj h
    have hshapes : Absolute ((shapes runtime e).flatMap Prod.snd) := by
      refine .flatMap fun shape hshape r hr => ?_
      rcases ofShapes_of_mem_shapes hshape r hr with rfl | hfield
      · exact hruntime
      · exact absolute_fieldImports r hfield
    exact .append (.cons (linked_of_absolute (by decide)) (.single linked_entity)) hshapes.linked

theorem linked_query (h : queryModule? runtime e = some m) : AllLinked e m.imports := by
  simp only [queryModule?] at h
  split at h
  · simp at h
  · obtain rfl := Option.some.inj h
    have hfixed : Absolute [("pydantic", ["BaseModel", "Field"]),
        ("typing", ["Any", "List", "Optional", "Tuple"]), (runtime, ["build_select"])] :=
      .cons (by decide) (.cons (by decide) (.cons hruntime .nil))
    have hhints : Absolute ((filterParameters e).flatMap fun p => p.field.type.hintImports true) :=
      .flatMap fun p _ => absolute_of_fields (ofFields_hintImports _ _)
    exact Absolute.linked (.append (.append hfixed.lastPerModule
      (.ifThen fun _ => .single hruntime)) hhints)

end Runtime

/-! ### The repository and what is made after it -/

/-- The requests are imported only where the transfer module has them. -/
theorem linked_requestImports : AllLinked e (requestImports e) := by
  refine .append (.ifElse fun hgiven => ?_) (.ifElse fun hgiven => ?_)
  · exact .single (linked_one .transfer rfl (.createRequest ((Bool.not_eq_true _).mp hgiven)))
  · exact .single (linked_one .transfer rfl (.updateRequest ((Bool.not_eq_true _).mp hgiven)))

/-- A related entity is another package's, or the entity itself. -/
theorem linked_related (target : String) : Linked e (e.relatedModule target, [target]) := by
  unfold Entity.relatedModule
  split
  · rename_i h
    exact linked_one .entity rfl (h ▸ .entity)
  · -- Two dots in front, then the name of the other package.
    refine Or.inl fun file hfile => not_sibling_parent (Text.snakeCase target ++ ".entity") file ?_
    rw [← String.append_assoc]
    exact hfile

theorem linked_methodImports (h : e.hasRepository = true) : AllLinked e (methodImports e) := by
  have hquery : AllLinked e (if e.hasFilters then [(".query", [e.queryName])] else []) :=
    .ifThen fun hfilters =>
      .single (linked_one .query rfl (.query (Bool.and_eq_true_iff.mpr ⟨h, hfilters⟩)))
  have hparents : AllLinked e ((parentFields e).map fun f =>
      (e.relatedModule f.parent, [f.parent])) := .map fun f _ => linked_related f.parent
  have hchildren : AllLinked e (e.hasMany.map fun child => (e.relatedModule child, [child])) :=
    .map fun child _ => linked_related child
  have hprojections : AllLinked e (e.livingProjections.map fun p =>
      (".dto", [p.structName e.name])) :=
    .map fun p hp => linked_one .transfer rfl (.projection hp)
  exact .append (.append (.append (.append (.append (.append absolute_idImports.linked
    (.cons (linked_of_absolute (by decide)) (.single linked_entity))) linked_requestImports) hquery)
    hparents) hchildren) hprojections

theorem linked_checkImports : AllLinked e (checkImports e) := by
  refine .append (.append absolute_idImports.linked linked_requestImports) (.ifThen fun h => ?_)
  exact .single (linked_one .commands rfl (.command h))

theorem linked_hookImports : AllLinked e (hookImports e) := by
  refine .append (.append (.append absolute_idImports.linked linked_requestImports)
    (.ifElse fun _ => .single linked_entity)) (.ifThen fun h => ?_)
  refine .single (linked_sibling .commands rfl ?_)
  exact List.forall_mem_cons.mpr ⟨.command h, List.forall_mem_singleton.mpr (.result h)⟩

/-- What the guarded repository needs beside the policy. -/
theorem linked_guardedImports (hruntime : ImportTable.isRelative runtime = false)
    (h : e.hasRepository = true) : AllLinked e (guardedImports runtime e) := by
  have hrepository : Linked e (".repository", [e.repositoryName]) :=
    linked_one .repository rfl (.repository h)
  refine .append (.append (.cons (linked_of_absolute hruntime)
    (.cons (linked_of_absolute (by decide)) (.single hrepository))) (linked_methodImports h))
    (.ifThen fun hcommands => ?_)
  refine .single (linked_sibling .commands rfl ?_)
  exact List.forall_mem_cons.mpr ⟨.handler hcommands, List.forall_mem_cons.mpr
    ⟨.command hcommands, List.forall_mem_singleton.mpr (.result hcommands)⟩⟩

theorem linked_policy (hruntime : ImportTable.isRelative runtime = false) :
    AllLinked e (policyModule runtime e).imports := by
  refine .append (.append (Absolute.linked (by decide)) linked_checkImports) (.ifThen fun h => ?_)
  exact linked_guardedImports hruntime h

/-! ### Events and the backend -/

theorem linked_events : AllLinked e (eventsModule e).imports := by
  exact .append (.cons (linked_of_absolute (by decide))
    (.cons (linked_of_absolute (by decide)) (.single linked_entity))) absolute_idImports.linked

theorem linked_streams (hruntime : ImportTable.isRelative runtime = false)
    (h : asksFor e .events = true) : AllLinked e (streamsModule runtime e).imports := by
  have hevents : Linked e (".events", [e.eventUnion, e.decodeFunction]) :=
    linked_sibling .events rfl
      (List.forall_mem_cons.mpr ⟨.eventUnion h, List.forall_mem_singleton.mpr (.decode h)⟩)
  exact .lastPerModule (.cons (linked_of_absolute (by decide))
    (.cons (linked_of_absolute hruntime) (.single hevents)))

theorem linked_transactions (hruntime : ImportTable.isRelative runtime = false)
    (h : e.hasBackend = true) : AllLinked e (transactionsModule runtime e).imports := by
  have hbackend : Linked e (".postgres", [e.backendName]) := linked_one .backend rfl (.backend h)
  exact .lastPerModule (.cons (linked_of_absolute (by decide)) (.cons
    (linked_of_absolute (by decide)) (.cons (linked_of_absolute hruntime) (.single hbackend))))

/-- A method is an operation of its own, a lookup, or one on rows marked as deleted. -/
theorem name_of_mem_repositoryMethods {method : RepositoryMethod}
    (h : method ∈ repositoryMethods e) : method.name ∈ ownNames e ∨
      (∃ x, method.name = "find_" ++ x) ∨ method.name ∈ softDeleteNames e := by
  have hname := List.mem_map_of_mem (f := RepositoryMethod.name) h
  rw [names_repositoryMethods, List.mem_append, List.mem_append] at hname
  rcases hname with hname | hname | hname
  · exact Or.inl hname
  · exact Or.inr (Or.inl (lookupNames_repositoryMethods.exists_find _ hname))
  · exact Or.inr (Or.inr hname)

theorem softDelete_of_restore {method : RepositoryMethod} (h : method ∈ repositoryMethods e)
    (hn : method.name = "restore") : e.softDelete = true := by
  rcases name_of_mem_repositoryMethods h with hown | ⟨x, hx⟩ | hsoft
  · rw [hn] at hown
    exact absurd (ownNames_sublist.subset hown) (by decide)
  · exact absurd (hx.symm.trans hn) (find_ne (by decide))
  · unfold softDeleteNames at hsoft
    split at hsoft
    · assumption
    · simp at hsoft

theorem hasFilters_of_query {method : RepositoryMethod} (h : method ∈ repositoryMethods e)
    (hn : method.name = "query") : e.hasFilters = true := by
  rcases name_of_mem_repositoryMethods h with hown | ⟨x, hx⟩ | hsoft
  · rw [hn] at hown
    by_contra hfilters
    simp only [ownNames, if_neg hfilters, List.append_nil] at hown
    revert hown
    cases e.createFields.isEmpty <;> cases e.updateFields.isEmpty <;> decide
  · exact absurd (hx.symm.trans hn) (find_ne (by decide))
  · rw [hn] at hsoft
    exact absurd (by decide) (softDeleteNames_apart _ hsoft)

/-- What tells the events of an entity apart. -/
theorem suffixes_eventVariants : (eventVariants e).map EventVariant.suffix =
    ["Created", "Updated"] ++ (if e.softDelete then ["SoftDeleted", "Restored"] else []) ++
      ["HardDeleted"] := by
  unfold eventVariants
  cases e.softDelete <;> rfl

theorem linked_event (h : asksFor e .events = true) {suffix : String}
    (hs : suffix ∈ (eventVariants e).map EventVariant.suffix) :
    Linked e (".events", [e.name ++ suffix]) := by
  obtain ⟨v, hv, rfl⟩ := List.mem_map.mp hs
  exact linked_one .events rfl (.event h hv)

/-- The event of a removal is among those of the entity: only a marked row is ever restored. -/
theorem removalEvent_mem {method : RepositoryMethod} (h : method ∈ repositoryMethods e) :
    removalEvent e method.name ∈ (eventVariants e).map EventVariant.suffix := by
  rw [suffixes_eventVariants, removalEvent]
  by_cases hrestore : method.name = "restore"
  · rw [if_pos hrestore, softDelete_of_restore h hrestore]
    simp
  · rw [if_neg hrestore]
    by_cases hdelete : (method.name = "delete" && e.softDelete) = true
    · rw [if_pos hdelete, (Bool.and_eq_true_iff.mp hdelete).2]
      simp
    · rw [if_neg hdelete]
      simp

/-- The steps of a method need an event only with streams, and the query only with filters. -/
theorem linked_stepImports (hruntime : ImportTable.isRelative runtime = false)
    (hb : e.hasRepository = true) {method : RepositoryMethod} (h : method ∈ repositoryMethods e) :
    AllLinked e (stepImports runtime e method) := by
  unfold stepImports
  extract_lets event
  have hevent {suffix : String} (hs : suffix ∈ (eventVariants e).map EventVariant.suffix) :
      AllLinked e (event suffix) := by
    refine .ifThen fun hstreams => ?_
    have hasked : asksFor e .events = true := by simp [asksFor, hstreams]
    exact .single (linked_event hasked hs)
  have hcreated : "Created" ∈ (eventVariants e).map EventVariant.suffix := by
    simp [suffixes_eventVariants]
  have hupdated : "Updated" ∈ (eventVariants e).map EventVariant.suffix := by
    simp [suffixes_eventVariants]
  split
  · exact hevent hcreated
  · exact .cons (linked_of_absolute hruntime) (hevent hupdated)
  · exact hevent (removalEvent_mem h)
  · exact hevent (removalEvent_mem h)
  · exact hevent (removalEvent_mem h)
  · rename_i hquery
    have hasked : asksFor e .query = true :=
      Bool.and_eq_true_iff.mpr ⟨hb, hasFilters_of_query h hquery⟩
    exact .single (linked_one .query rfl (.queryFunction hasked))
  · exact .nil

theorem hasRepository_of_hasBackend (h : e.hasBackend = true) : e.hasRepository = true := by
  have hlevel : e.sqlLevel = .full := beq_iff_eq.mp h
  rw [Entity.hasRepository, hlevel]
  rfl

/-- The error class of the entity is found by an absolute path. -/
def AbsoluteError (e : Entity) : Prop := ∀ path, e.errorType = some path →
  path.toList.head? ≠ some '.'

theorem linked_errorImports (h : AbsoluteError e) :
    AllLinked e (((nonEmpty? e.errorType).map fun path =>
      ("asyncpg", ["PostgresError"]) :: pathRegistrations path).getD []) := by
  cases hpath : nonEmpty? e.errorType with
  | none => exact .nil
  | some path =>
    have hhead := h path (Option.filter_eq_some_iff.mp hpath).1
    have hregistrations : Absolute (pathRegistrations path) :=
      fun r hr => isRelative_of_mem_pathRegistrations hhead hr
    exact .cons (linked_of_absolute (by decide)) hregistrations.linked

theorem linked_backend (hruntime : ImportTable.isRelative runtime = false)
    (herror : AbsoluteError e) (hb : e.hasBackend = true) :
    AllLinked e (backendImports runtime e) := by
  have hrepository := hasRepository_of_hasBackend hb
  have hcontract : Linked e (".repository", [e.repositoryName]) :=
    linked_one .repository rfl (.repository hrepository)
  have hupdate : AllLinked e (if e.updateFields.isEmpty then [] else [("typing", ["Dict"])]) :=
    .ifElse fun _ => .single (linked_of_absolute (by decide))
  have hstreams : AllLinked e (if e.features.streams then
      [(runtime, ["channel_name", "publish"]), (".events", [e.eventUnion])] else []) := by
    refine .ifThen fun h => ?_
    have hasked : asksFor e .events = true := by simp [asksFor, h]
    exact .cons (linked_of_absolute hruntime) (.single (linked_one .events rfl (.eventUnion hasked)))
  have hsteps : AllLinked e ((repositoryMethods e).flatMap (stepImports runtime e)) :=
    .flatMap fun method hm => linked_stepImports hruntime hrepository hm
  have hfixed : AllLinked e [("typing", ["Any", "List"]),
      (runtime, ["Executor", "affected_rows"]), (".repository", [e.repositoryName])] :=
    .cons (linked_of_absolute (by decide)) (.cons (linked_of_absolute hruntime) (.single hcontract))
  exact .append (.append (.append (.append (.append hfixed.lastPerModule
    (linked_methodImports hrepository)) hupdate) hstreams) (linked_errorImports herror)) hsteps

/-! ### Commands -/

/-- What the commands module imports: the types of its commands, and besides them the entity. -/
theorem mem_imports_commands (h : commandsModule? e = some m) {r : Registration} :
    r ∈ m.imports → Linked e r ∨ ∃ c ∈ e.commands, r ∈ commandTypeImports e c := by
  simp only [commandsModule?] at h
  split at h
  · simp at h
  · obtain rfl := Option.some.inj h
    have hfixed : AllLinked e [("abc", ["ABC", "abstractmethod"]), ("dataclasses", ["dataclass"]),
        ("typing", ["ClassVar", "Generic", "TypeVar"]), (".entity", [e.name])] :=
      .cons (linked_of_absolute (by decide)) (.cons (linked_of_absolute (by decide))
        (.cons (linked_of_absolute (by decide)) (.single linked_entity)))
    have hpayloads : Absolute ((ownPayloads e).flatMap (payloadImports e)) :=
      .flatMap fun c _ => absolute_of_fields (ofFields_payloadImports c)
    intro hr
    rcases List.mem_append.mp hr with hr | hr
    · rcases List.mem_append.mp hr with hr | hr
      · exact Or.inl (hfixed r hr)
      · exact Or.inr (List.mem_flatMap.mp hr)
    · exact Or.inl (hpayloads.linked r hr)

/-- The commands module takes in what its commands yield. -/
theorem commandTypeImports_subset (h : commandsModule? e = some m) {c : Command}
    (hc : c ∈ e.commands) : commandTypeImports e c ⊆ m.imports := by
  simp only [commandsModule?] at h
  split at h
  · simp at h
  · obtain rfl := Option.some.inj h
    intro r hr
    exact List.mem_append_left _ (List.mem_append_right _ (List.mem_flatMap.mpr ⟨c, hc, hr⟩))

/-! ## Modules -/

/-- What a module imports leads out of the package or to what a module of it defines, unless it is
the type of a command. -/
theorem linked_imports (hruntime : ImportTable.isRelative runtime = false)
    (herror : AbsoluteError e) (ha : asksFor e k = true) (hm : moduleFor runtime e k = some m)
    {r : Registration} (hr : r ∈ m.imports) :
    Linked e r ∨ k = .commands ∧ ∃ c ∈ e.commands, r ∈ commandTypeImports e c := by
  cases k with
  | entity =>
    obtain rfl := Option.some.inj hm
    have himports : Absolute (entityModule e).imports :=
      .append (by decide) (absolute_of_fields (ofFields_shapeImports _ _))
    exact Or.inl (himports.linked r hr)
  | transfer => exact Or.inl (linked_transfer hruntime hm r hr)
  | query => exact Or.inl (linked_query hruntime hm r hr)
  | repository =>
    obtain rfl := Option.some.inj hm
    have himports : AllLinked e (repositoryModule e).imports :=
      .cons (linked_of_absolute (by decide)) (linked_methodImports ha)
    exact Or.inl (himports r hr)
  | backend =>
    obtain rfl := Option.some.inj hm
    exact Or.inl (linked_backend hruntime herror ha r hr)
  | events =>
    obtain rfl := Option.some.inj hm
    exact Or.inl (linked_events r hr)
  | commands => exact (mem_imports_commands hm hr).imp_right fun h => ⟨rfl, h⟩
  | policy =>
    obtain rfl := Option.some.inj hm
    exact Or.inl (linked_policy hruntime r hr)
  | streams =>
    obtain rfl := Option.some.inj hm
    have hstreams : e.features.streams = true := ha
    have hevents : asksFor e .events = true := by simp [asksFor, hstreams]
    exact Or.inl (linked_streams hruntime hevents r hr)
  | hooks =>
    obtain rfl := Option.some.inj hm
    exact Or.inl (linked_hookImports r hr)
  | transactions =>
    obtain rfl := Option.some.inj hm
    exact Or.inl (linked_transactions hruntime (Bool.and_eq_true_iff.mp ha).2 r hr)

end EntityForge.Package
