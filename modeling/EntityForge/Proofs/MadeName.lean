import EntityForge.Proofs.ClassName
import EntityForge.Proofs.Origin

/-!
# Names that are made and names that are chosen

Most names in the modules of a package are made by the generator: they are those of a library or of
the support code, or they have an ending of their own, which tells the module of the package that
defines them. No two lists of such names have a name or an ending in common, so it is known of each
where it comes from. The other names are chosen with the entity: that of the entity itself or of a
related one, that of a projection, of the error class or of a payload, and the types that a command
carries or yields. The subscriber counts with these, for the class that it extends has the same
ending.
-/

namespace EntityForge.Package

open Source

variable {e : Entity} {k : ModuleKind}

/-! ## Where a name is found -/

/-- Where a name that is made comes from. -/
inductive Mark where
  | library (path : String)
  | runtime
  | package (k : ModuleKind)
  deriving DecidableEq, Repr

/-- Where a name of a module of the package is found: in this module or another. -/
def packageHome (k j : ModuleKind) : Option String :=
  if j = k then none else some ("." ++ j.name)

/-- Where a name that is made is found. -/
def Mark.home (runtime : String) (k : ModuleKind) : Mark → Option String
  | .library path => some path
  | .runtime => some runtime
  | .package j => packageHome k j

theorem packageHome_of_ne {j : ModuleKind} (h : j ≠ k) : packageHome k j = some ("." ++ j.name) :=
  if_neg h

/-! ## Made names -/

/-- The names of libraries that modules use. -/
def libraryNames : List Registration := [
  ("abc", ["ABC", "abstractmethod"]),
  ("asyncpg", ["PostgresError"]),
  ("contextlib", ["asynccontextmanager"]),
  ("dataclasses", ["dataclass"]),
  ("datetime", ["date", "datetime", "time", "timezone"]),
  ("decimal", ["Decimal"]),
  ("pydantic", ["BaseModel", "ConfigDict", "Field", "IPvAnyAddress", "TypeAdapter"]),
  ("typing", ["Annotated", "Any", "AsyncIterator", "Awaitable", "ClassVar", "Dict", "Generic",
    "List", "Literal", "Mapping", "Optional", "Tuple", "TypeVar", "Union"]),
  ("uuid", ["UUID"])]

/-- The names of the support code that modules use. -/
def runtimeNames : List String := ["Executor", "NotificationSubscriber", "PolicyError",
  "PolicyOperation", "affected_rows", "build_select", "build_update", "channel_name",
  "like_pattern", "publish", "transaction", "uuid4", "uuid7"]

/-- The names that are the same for all entities. -/
def fixedNames : List (String × Mark) :=
  libraryNames.flatMap (fun r => r.2.map fun n => (n, .library r.1)) ++
    runtimeNames.map fun n => (n, .runtime)

/-- The endings by which the names that a module of the package defines are known. -/
def markedEndings : List (String × Mark) := [
  ("Request", .package .transfer), ("Response", .package .transfer),
  ("Query", .package .query), ("_query", .package .query),
  ("Event", .package .events), ("EventBase", .package .events), ("Created", .package .events),
  ("Updated", .package .events), ("SoftDeleted", .package .events),
  ("Restored", .package .events), ("HardDeleted", .package .events), ("_event", .package .events),
  ("Command", .package .commands), ("Result", .package .commands),
  ("CommandHandler", .package .commands), ("Policy", .package .policy),
  ("Hooks", .package .hooks), ("TransactionRepo", .package .transactions)]

/-- What stands in the names of the three repositories before and behind that of the entity. -/
def repositoryParts : List (ModuleKind × String × String) :=
  [(.repository, "", ""), (.backend, "Postgres", ""), (.policy, "", "Policy")]

/-- A name is made in one of these ways. -/
inductive Made (e : Entity) : Mark → String → Prop
  | fixed {mark : Mark} {n : String} (listed : (n, mark) ∈ fixedNames) : Made e mark n
  | ending {mark : Mark} {s : String} (stem : String) (listed : (s, mark) ∈ markedEndings) :
    Made e mark (stem ++ s)
  | repository {k : ModuleKind} {front middle : String}
    (listed : (k, front, middle) ∈ repositoryParts) :
    Made e (.package k) (front ++ e.name ++ middle ++ "Repository")

theorem nodup_fixedNames : (fixedNames.map Prod.fst).Nodup := by decide +kernel

theorem apart_fixedNames : ∀ p ∈ fixedNames, ∀ q ∈ markedEndings, Apart p.1 q.1 := by
  decide +kernel

theorem apart_markedEndings : ∀ p ∈ markedEndings, ∀ q ∈ markedEndings,
    p.2 = q.2 ∨ Apart p.1 q.1 := by decide +kernel

theorem apart_fixedNames_repository : ∀ p ∈ fixedNames, Apart p.1 "Repository" := by
  decide +kernel

theorem apart_markedEndings_repository : ∀ p ∈ markedEndings, Apart p.1 "Repository" := by
  decide +kernel

/-- The repositories differ in how much longer their names are than that of the entity. -/
theorem repositoryParts_eq : ∀ p ∈ repositoryParts, ∀ q ∈ repositoryParts,
    p.2.1.length + p.2.2.length = q.2.1.length + q.2.2.length → p.1 = q.1 := by decide

theorem Apart.ne_append {s t : String} (h : Apart s t) (x : String) : s ≠ x ++ t := by
  have happend := h.append_ne "" x
  rwa [String.empty_append] at happend

/-- It is known where a name that is made comes from. -/
theorem Made.unique {a b : Mark} {n : String} (h : Made e a n) (h' : Made e b n) : a = b := by
  induction h with
  | @fixed mark n listed =>
    generalize hn : n = n' at h'
    cases h' with
    | fixed listed' =>
      subst hn
      exact congrArg Prod.snd (List.inj_on_of_nodup_map nodup_fixedNames listed listed' rfl)
    | ending stem listed' =>
      exact absurd hn ((apart_fixedNames _ listed _ listed').ne_append stem)
    | repository listed' =>
      exact absurd hn ((apart_fixedNames_repository _ listed).ne_append _)
  | @ending mark s stem listed =>
    generalize hn : stem ++ s = n' at h'
    cases h' with
    | fixed listed' =>
      exact absurd hn.symm ((apart_fixedNames _ listed' _ listed).ne_append stem)
    | ending stem' listed' =>
      rcases apart_markedEndings _ listed _ listed' with hmark | hends
      · exact hmark
      · exact absurd hn (hends.append_ne stem stem')
    | repository listed' =>
      exact absurd hn ((apart_markedEndings_repository _ listed).append_ne stem _)
  | @repository k front middle listed =>
    generalize hn : front ++ e.name ++ middle ++ "Repository" = n' at h'
    cases h' with
    | fixed listed' =>
      exact absurd hn.symm ((apart_fixedNames_repository _ listed').ne_append _)
    | ending stem' listed' =>
      exact absurd hn.symm ((apart_markedEndings_repository _ listed').append_ne stem' _)
    | @repository _ front' middle' listed' =>
      have hlength := congrArg String.length hn
      simp only [String.length_append] at hlength
      have hparts : front.length + middle.length = front'.length + middle'.length := by omega
      exact congrArg Mark.package (repositoryParts_eq _ listed _ listed' hparts)

/-! ### Names that modules of the package define -/

theorem made_createRequest : Made e (.package .transfer) e.createRequest :=
  .ending ("Create" ++ e.name) (by decide)

theorem made_updateRequest : Made e (.package .transfer) e.updateRequest :=
  .ending ("Update" ++ e.name) (by decide)

theorem made_responseName : Made e (.package .transfer) e.responseName := .ending _ (by decide)

theorem made_queryName : Made e (.package .query) e.queryName := .ending _ (by decide)

theorem made_queryFunction : Made e (.package .query) e.queryFunction :=
  .ending ("build_" ++ e.snakeName) (by decide)

theorem made_repositoryName : Made e (.package .repository) e.repositoryName := by
  have h : Made e (.package .repository) ("" ++ e.name ++ "" ++ "Repository") :=
    .repository (by decide)
  rwa [String.empty_append, String.append_empty] at h

theorem made_backendName : Made e (.package .backend) e.backendName := by
  have h : Made e (.package .backend) ("Postgres" ++ e.name ++ "" ++ "Repository") :=
    .repository (by decide)
  rwa [String.append_empty, String.append_assoc] at h

theorem made_guardedName : Made e (.package .policy) e.guardedName := by
  have h : Made e (.package .policy) ("" ++ e.name ++ "Policy" ++ "Repository") :=
    .repository (by decide)
  rwa [String.empty_append, String.append_assoc] at h

theorem made_event {suffix : String} (h : (suffix, Mark.package .events) ∈ markedEndings) :
    Made e (.package .events) (e.name ++ suffix) := .ending _ h

theorem made_eventUnion : Made e (.package .events) e.eventUnion := made_event (by decide)

theorem made_decodeFunction : Made e (.package .events) e.decodeFunction :=
  .ending ("decode_" ++ e.snakeName) (by decide)

/-- Names with an ending are made in the module that the ending tells. -/
theorem made_of_allEnd {mark : Mark} {ending : String} {names : List String}
    (h : (ending, mark) ∈ markedEndings) (hall : AllEnd ending names) :
    ∀ n ∈ names, Made e mark n := by
  intro n hn
  obtain ⟨x, rfl⟩ := hall n hn
  exact .ending x h

theorem made_variants :
    ∀ n ∈ e.commandUnion :: e.commands.map e.variantName, Made e (.package .commands) n :=
  made_of_allEnd (by decide) allEnd_variants

theorem made_results :
    ∀ n ∈ e.resultUnion :: e.commands.map e.resultVariantName, Made e (.package .commands) n :=
  made_of_allEnd (by decide) allEnd_results

theorem made_commandUnion : Made e (.package .commands) e.commandUnion :=
  made_variants _ List.mem_cons_self

theorem made_resultUnion : Made e (.package .commands) e.resultUnion :=
  made_results _ List.mem_cons_self

theorem made_handlerName : Made e (.package .commands) e.handlerName := .ending _ (by decide)

/-! ### Reserved names -/

/-- A name could be taken for one that is made. -/
def Reserved (n : String) : Prop :=
  n ∈ fixedNames.map Prod.fst ∨
    ∃ s ∈ "Repository" :: markedEndings.map Prod.fst, s.toList <:+ n.toList

instance : DecidablePred Reserved := fun n =>
  inferInstanceAs (Decidable (n ∈ fixedNames.map Prod.fst ∨
    ∃ s ∈ "Repository" :: markedEndings.map Prod.fst, s.toList <:+ n.toList))

theorem reserved_of_ends {s : String} (h : s ∈ "Repository" :: markedEndings.map Prod.fst)
    (stem : String) : Reserved (stem ++ s) :=
  Or.inr ⟨s, h, String.toList_append ▸ List.suffix_append _ _⟩

theorem Made.reserved {mark : Mark} {n : String} (h : Made e mark n) : Reserved n := by
  cases h with
  | fixed listed => exact Or.inl (List.mem_map_of_mem listed)
  | ending stem listed =>
    exact reserved_of_ends (List.mem_cons_of_mem _ (List.mem_map_of_mem listed)) stem
  | repository => exact reserved_of_ends List.mem_cons_self _

/-! ## Chosen names -/

/-- Registrations name by name, each with its module. -/
def takenNames (rs : List Registration) : List (String × String) :=
  rs.flatMap fun r => r.2.map fun n => (r.1, n)

theorem mem_takenNames {rs : List Registration} {path n : String} :
    (path, n) ∈ takenNames rs ↔ ∃ r ∈ rs, r.Takes path n := by
  simp only [takenNames, List.mem_flatMap, List.mem_map, Prod.mk.injEq, Registration.Takes]
  constructor
  · rintro ⟨r, hr, _, hn, hpath, rfl⟩
    exact ⟨r, hr, hpath, hn⟩
  · rintro ⟨r, hr, hpath, hn⟩
    exact ⟨r, hr, n, hn, hpath, rfl⟩

/-- The name of the error class. -/
def errorNames (e : Entity) : List (String × String) :=
  takenNames (((nonEmpty? e.errorType).map pathRegistrations).getD [])

/-- The names of the types that commands carry and yield. -/
def typeNames (e : Entity) : List (String × String) :=
  takenNames (e.commands.flatMap (commandTypeImports e))

/-- The modules that declare the methods of a repository. -/
def DeclaresMethods (k : ModuleKind) : Prop := k = .repository ∨ k = .backend ∨ k = .policy

instance : DecidablePred DeclaresMethods :=
  fun k => inferInstanceAs (Decidable (k = .repository ∨ k = .backend ∨ k = .policy))

theorem DeclaresMethods.ne {j : ModuleKind} (hk : DeclaresMethods k)
    (hj : ¬ DeclaresMethods j) : j ≠ k := fun h => hj (h ▸ hk)

/-- A name is chosen with an entity, or ends like the class that the subscriber extends, and a
module finds it in some place. -/
inductive Chosen (e : Entity) (k : ModuleKind) : Option String → String → Prop
  | entity : Chosen e k (packageHome k .entity) e.name
  | related {target : String} (methods : DeclaresMethods k) (relative : target ∈ relatives e) :
    Chosen e k (some (e.relatedModule target)) target
  | projection {p : Projection} (methods : DeclaresMethods k ∨ k = .transfer)
    (living : p ∈ e.livingProjections) :
    Chosen e k (packageHome k .transfer) (p.structName e.name)
  | error {path n : String} (backend : k = .backend) (named : (path, n) ∈ errorNames e) :
    Chosen e k (some path) n
  | payload {c : Command} (commands : k = .commands) (own : c ∈ ownPayloads e) :
    Chosen e k none (c.structName e.name)
  | type {path n : String} (commands : k = .commands) (named : (path, n) ∈ typeNames e) :
    Chosen e k (some path) n
  | subscriber (streams : k = .streams) : Chosen e k none e.subscriberName

/-- The names that were chosen, as a list: each with its home in a module. -/
def chosenNames (e : Entity) (k : ModuleKind) : List (Option String × String) :=
  [(packageHome k .entity, e.name)] ++
    (if DeclaresMethods k then (relatives e).map fun t => (some (e.relatedModule t), t) else []) ++
    (if DeclaresMethods k ∨ k = .transfer then
      e.livingProjections.map fun p => (packageHome k .transfer, p.structName e.name) else []) ++
    (if k = .backend then (errorNames e).map fun p => (some p.1, p.2) else []) ++
    (if k = .commands then (ownPayloads e).map fun c => (none, c.structName e.name) else []) ++
    (if k = .commands then (typeNames e).map fun p => (some p.1, p.2) else []) ++
    if k = .streams then [(none, e.subscriberName)] else []

theorem Chosen.mem_chosenNames {home : Option String} {n : String} (h : Chosen e k home n) :
    (home, n) ∈ chosenNames e k := by
  simp only [chosenNames, List.mem_append]
  cases h with
  | entity => simp
  | related methods relative => simp [methods, relative]
  | @projection p methods living =>
    have hmem : (packageHome k .transfer, p.structName e.name) ∈ e.livingProjections.map fun p =>
        (packageHome k .transfer, p.structName e.name) := List.mem_map_of_mem living
    simp only [if_pos methods, hmem, or_true, true_or]
  | error backend named => simp [backend, named]
  | @payload c commands own =>
    have hmem : ((none : Option String), c.structName e.name) ∈ (ownPayloads e).map fun c =>
        (none, c.structName e.name) := List.mem_map_of_mem own
    simp only [if_pos commands, hmem, or_true, true_or]
  | type commands named => simp [commands, named]
  | subscriber streams => simp [streams]

/-- In each module, the names that were chosen are apart from each other and from those that are
made. -/
structure Distinguished (e : Entity) : Prop where
  unreserved : ∀ k, asksFor e k = true → ∀ home n, Chosen e k home n → ¬ Reserved n
  unique : ∀ k, asksFor e k = true → ∀ home home' n,
    Chosen e k home n → Chosen e k home' n → home = home'

theorem distinguished_of_chosenNames (h : ∀ k ∈ moduleKinds e, ∀ p ∈ chosenNames e k,
    ¬ Reserved p.2 ∧ ∀ q ∈ chosenNames e k, p.2 = q.2 → p.1 = q.1) : Distinguished e where
  unreserved k hk _ _ hc := (h k (mem_moduleKinds.mpr hk) _ hc.mem_chosenNames).1
  unique k hk _ _ _ hc hc' :=
    (h k (mem_moduleKinds.mpr hk) _ hc.mem_chosenNames).2 _ hc'.mem_chosenNames rfl

end EntityForge.Package
