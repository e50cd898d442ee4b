import EntityForge.Proofs.Build
import EntityForge.Proofs.Document

/-!
# What the steps of a run report

Each step of a run adds to the report and takes nothing away. What it adds is read off the entities
alone: those that could not be built or generated, and what was found about them. A build that fails
always adds an error, and so does an entity that cannot be generated, so that a report without an
error is one on which every entity went through.
-/

namespace EntityForge

/-! ## Findings about declarations -/

namespace Build

variable {d : EntityDeclaration} {strict : Bool}

/-- A declaration cannot be built. -/
def Fails (strict : Bool) (d : EntityDeclaration) : Prop := ∃ f, build d strict = .error f

instance : Decidable (Fails strict d) :=
  match h : build d strict with
  | .ok _ => .isFalse fun ⟨_, hf⟩ => nomatch h.symm.trans hf
  | .error f => .isTrue ⟨f, h⟩

/-- What is found when a declaration is built. -/
def findings (strict : Bool) (d : EntityDeclaration) : Diagnostics :=
  match build d strict with
  | .ok (_, notes) => notes
  | .error f => f.findings

/-- A declaration cannot be built exactly when there is an error among its findings. -/
theorem fails_iff : Fails strict d ↔ Diagnostics.hasErrors (findings strict d) = true := by
  rw [Fails, findings]
  cases h : build d strict with
  | ok result =>
    obtain ⟨e, notes⟩ := result
    obtain ⟨-, -, hnotes⟩ := of_build_eq_ok h
    simp [hnotes]
  | error f =>
    obtain ⟨-, hfindings⟩ := of_build_eq_error h
    simp [hfindings]

end Build

namespace Diagnostics

variable {ds : Diagnostics}

theorem warnings_eq_nil_iff : warnings ds = [] ↔ hasWarnings ds = false := by
  rw [warnings, List.filter_eq_nil_iff, hasWarnings, List.any_eq_false]

end Diagnostics

namespace Generator

open Build

variable {g : Generator} {doc : Document} {es : List Entity} {r r' : Report}

/-! ## The first step -/

/-- The texts of some findings about a declaration, under its name. -/
def reported (select : Diagnostics → List Diagnostic) (strict : Bool) (d : EntityDeclaration) :
    List String :=
  underName d.name (select (findings strict d))

/-- The report of a build names the entities that failed, and all errors and warnings. -/
theorem buildAll_report (strict : Bool) (ds : List EntityDeclaration) (r : Report) :
    (buildAll strict r ds).1 = { r with
      failedEntities :=
        r.failedEntities ++ (ds.filter fun d => Fails strict d).map EntityDeclaration.name
      validationErrors :=
        r.validationErrors ++ ds.flatMap (reported Diagnostics.errors strict)
      validationWarnings :=
        r.validationWarnings ++ ds.flatMap (reported Diagnostics.warnings strict) } := by
  induction ds generalizing r with
  | nil => simp [buildAll]
  | cons d ds ih =>
    rw [buildAll]
    simp only [ih]
    cases h : build d strict with
    | ok result =>
      obtain ⟨e, notes⟩ := result
      obtain ⟨he, -, hnotes⟩ := of_build_eq_ok h
      have hname : e.name = d.name := (madeFrom_of_assemble? he).name
      have hfails : ¬ Fails strict d := by
        rintro ⟨f, hf⟩
        cases h.symm.trans hf
      have herrors : Diagnostics.errors notes = [] := Diagnostics.errors_eq_nil_iff.mpr hnotes
      simp [buildOne, h, hname, hfails, reported, findings, herrors, underName]
    | error f =>
      obtain ⟨hname, -⟩ := of_build_eq_error h
      have hfails : Fails strict d := ⟨f, h⟩
      simp [buildOne, h, hname, hfails, reported, findings]

/-- A report on which nothing was found and nothing was done yet. -/
structure Untouched (r : Report) : Prop where
  inputErrors : r.inputErrors = []
  validationErrors : r.validationErrors = []
  validationWarnings : r.validationWarnings = []
  generationErrors : r.generationErrors = []
  exportErrors : r.exportErrors = []
  failedEntities : r.failedEntities = []
  generatedEntities : r.generatedEntities = []
  artifacts : r.artifacts = []

theorem reported_eq_nil {select : Diagnostics → List Diagnostic} {strict : Bool}
    {d : EntityDeclaration} : reported select strict d = [] ↔ select (findings strict d) = [] := by
  rw [reported, underName, List.map_eq_nil_iff]

/-- The first step leaves an error for each declaration that fails, and nothing but warnings for the
others. -/
theorem buildStep_spec (doc : Document) (hr : Untouched r) :
    ((buildStep doc r).1.validationErrors = [] ↔
      ∀ d ∈ doc.entities, ¬ Fails doc.config.strictReferences d) ∧
    ((buildStep doc r).1.validationWarnings = [] ↔ ∀ d ∈ doc.entities,
      Diagnostics.hasWarnings (findings doc.config.strictReferences d) = false) ∧
    (buildStep doc r).1.failedEntities = (doc.entities.filter fun d =>
      Fails doc.config.strictReferences d).map EntityDeclaration.name := by
  -- The entry for the step is all that is added to the report of the builds.
  have hreport (field : Report → List String)
      (hfield : ∀ r step, field (Report.addStep r step) = field r) :
      field (buildStep doc r).1 = field (buildAll doc.config.strictReferences r doc.entities).1 :=
    hfield _ _
  rw [hreport Report.validationErrors fun _ _ => rfl,
    hreport Report.validationWarnings fun _ _ => rfl,
    hreport Report.failedEntities fun _ _ => rfl, buildAll_report]
  simp only [hr.validationErrors, hr.validationWarnings, hr.failedEntities, List.nil_append,
    List.flatMap_eq_nil_iff, reported_eq_nil, Diagnostics.errors_eq_nil_iff,
    Diagnostics.warnings_eq_nil_iff, fails_iff, Bool.not_eq_true, and_self]

/-! ## The second step -/

/-- The second step succeeds exactly when it leaves no error. -/
theorem validateStep_spec (g : Generator) (doc : Document) (es : List Entity) (r : Report) :
    ((g.validateStep doc es r).2 = true ↔
      (g.validateStep doc es r).1.validationErrors = []) ∧
    ((g.validateStep doc es r).1.validationErrors = [] ↔
      r.validationErrors = [] ∧ (Validation.document es doc.config.strictReferences).Clean ∧
        (g.failOnWarnings = true → r.validationWarnings = [] ∧ Diagnostics.hasWarnings
          (Validation.document es doc.config.strictReferences).notes = false)) := by
  have hraised {warnings : List String} : (if g.failOnWarnings then
      warnings.map fun w => "warning treated as error: " ++ w else []) = [] ↔
      (g.failOnWarnings = true → warnings = []) := by
    cases g.failOnWarnings <;> simp
  simp only [validateStep, Report.addStep, Bool.and_eq_true, List.isEmpty_iff, hraised,
    List.append_eq_nil_iff, List.map_eq_nil_iff, Diagnostics.errors_eq_nil_iff,
    Diagnostics.warnings_eq_nil_iff, Noted.Clean, and_assoc, true_and]

/-- Nothing that is found about a document counts as an error. -/
structure Accepts (g : Generator) (doc : Document) : Prop where
  builds : ∀ d ∈ doc.entities, ¬ Fails doc.config.strictReferences d
  clean : (Validation.document doc.built doc.config.strictReferences).Clean
  quiet : g.failOnWarnings = true →
    (∀ d ∈ doc.entities,
      Diagnostics.hasWarnings (findings doc.config.strictReferences d) = false) ∧
      Diagnostics.hasWarnings
        (Validation.document doc.built doc.config.strictReferences).notes = false

/-- The report after the first two steps, and whether nothing failed so far. -/
def examined (g : Generator) (doc : Document) (r : Report) : Report × Bool :=
  g.validateStep doc doc.built (buildStep doc r).1

/-- What a report says after the first two steps. -/
structure Examined (g : Generator) (doc : Document) (r : Report) : Prop where
  inputErrors : r.inputErrors = []
  validationErrors : r.validationErrors = [] ↔ g.Accepts doc
  generationErrors : r.generationErrors = []
  exportErrors : r.exportErrors = []
  failedEntities : r.failedEntities = (doc.entities.filter fun d =>
    Fails doc.config.strictReferences d).map EntityDeclaration.name
  generatedEntities : r.generatedEntities = []
  artifacts : r.artifacts = []

/-- Nothing failed in the first two steps exactly when the document is accepted. -/
theorem examined_spec (g : Generator) (doc : Document) (hr : Untouched r) :
    g.Examined doc (g.examined doc r).1 ∧ ((g.examined doc r).2 = true ↔ g.Accepts doc) := by
  obtain ⟨herrors, hwarnings, hfailed⟩ := buildStep_spec doc hr
  obtain ⟨hok, hvalidated⟩ :=
    validateStep_spec g doc doc.built (buildStep doc r).1
  have haccepts : (g.examined doc r).1.validationErrors = [] ↔ g.Accepts doc := by
    rw [examined, hvalidated, herrors, hwarnings]
    exact ⟨fun ⟨hb, hc, hq⟩ => ⟨hb, hc, hq⟩, fun h => ⟨h.builds, h.clean, h.quiet⟩⟩
  -- Neither step touches the lists of the later ones.
  have hleft {α : Type} {field : Report → List α} (hr : field r = [])
      (hfield : field (g.examined doc r).1 =
        field (buildAll doc.config.strictReferences r doc.entities).1)
      (hbuild : field (buildAll doc.config.strictReferences r doc.entities).1 = field r) :
      field (g.examined doc r).1 = [] :=
    hfield.trans (hbuild.trans hr)
  refine ⟨⟨hleft hr.inputErrors rfl ?_, haccepts, hleft hr.generationErrors rfl ?_,
    hleft hr.exportErrors rfl ?_, hfailed, hleft hr.generatedEntities rfl ?_,
    hleft hr.artifacts rfl ?_⟩, hok.trans haccepts⟩
  all_goals rw [buildAll_report]

end Generator

/-! ## The third step -/

namespace Package

variable {c : GenerationConfig} {e : Entity} {es : List Entity} {as : List Artifact}

/-- The files of an entity can be generated. -/
def Generates (c : GenerationConfig) (e : Entity) : Prop := ∃ as, entityArtifacts c e = .ok as

instance : Decidable (Generates c e) :=
  match h : entityArtifacts c e with
  | .ok as => .isTrue ⟨as, h⟩
  | .error _ => .isFalse fun ⟨_, has⟩ => nomatch h.symm.trans has

/-- Every type that a module declares hints for has one, if those of the fields have. -/
theorem isDangling_of_mem_hintedTypes {k : ModuleKind} {t : FieldType}
    (hfields : ∀ f ∈ e.fields, f.type.isDangling = false) (h : t ∈ hintedTypes e k) :
    t.isDangling = false := by
  have hall {fs : List Field} (hsub : ∀ f ∈ fs, f ∈ e.fields) (ht : t ∈ fs.map Field.type) :
      t.isDangling = false := by
    obtain ⟨f, hf, rfl⟩ := List.mem_map.mp ht
    exact hfields f (hsub f hf)
  have hid (ht : t ∈ [e.idType]) : t.isDangling = false := by
    rw [List.mem_singleton.mp ht]
    exact hfields e.idField (List.get_mem _ _)
  have hfiltered (P : Field → Bool) : ∀ f ∈ e.fields.filter P, f ∈ e.fields :=
    fun f hf => (List.mem_filter.mp hf).1
  cases k with
  | entity => exact hall (fun f hf => hf) h
  | transfer =>
    refine hall (fun f hf => ?_) h
    simp only [List.mem_append, List.mem_flatMap] at hf
    rcases hf with ((hf | hf) | hf) | ⟨p, -, hf⟩
    · exact hfiltered _ f hf
    · exact hfiltered _ f hf
    · exact hfiltered _ f hf
    · obtain ⟨n, -, hn⟩ := List.mem_filterMap.mp hf
      exact List.mem_of_find?_eq_some hn
  | query => exact hall (hfiltered _) h
  | commands =>
    obtain ⟨c, -, hc⟩ := List.mem_flatMap.mp h
    rcases List.mem_append.mp hc with hc | hc
    · split at hc
      · exact hid hc
      · exact nomatch hc
    · refine hall (fun f hf => ?_) hc
      rw [payloadFields] at hf
      split at hf
      · exact hfiltered _ f hf
      · exact hfiltered _ f hf
      · exact hfiltered _ f hf
      · exact nomatch hf
      · exact nomatch hf
  | repository | backend | events | policy | hooks => exact hid h
  | streams | transactions => exact nomatch h

theorem requireHints_eq_ok {k : ModuleKind}
    (hfields : ∀ f ∈ e.fields, f.type.isDangling = false) : requireHints e k = .ok () := by
  rw [requireHints]
  split
  · rename_i t ht
    have hdangling := List.find?_some ht
    rw [isDangling_of_mem_hintedTypes hfields (List.mem_of_find?_eq_some ht)] at hdangling
    exact Bool.noConfusion hdangling
  · rfl

theorem requireBackend_ne_unknownBase {base : String} :
    requireBackend e ≠ .error (.unknownBase base) := by
  rw [requireBackend]
  cases Postgres.requireBackend e <;> simp [Except.mapError]

theorem moduleOf?_ne_unknownBase {runtime base : String} {k : ModuleKind} :
    moduleOf? runtime e k ≠ .error (.unknownBase base) := by
  intro h
  cases k <;> simp only [moduleOf?, reduceCtorEq] at h
  case query => split at h <;> simp at h
  case commands => split at h <;> simp at h
  case backend | transactions =>
    rcases eq_error_of_bind h with h | ⟨-, -, h⟩
    · exact requireBackend_ne_unknownBase h
    · exact nomatch h

theorem collectModules_ne_unknownBase {runtime base : String} {ks : List ModuleKind}
    (hfields : ∀ f ∈ e.fields, f.type.isDangling = false) :
    collectModules runtime e ks ≠ .error (.unknownBase base) := by
  induction ks with
  | nil => exact fun h => nomatch h
  | cons k ks ih =>
    intro h
    rcases eq_error_of_bind h with h | ⟨found, -, h⟩
    · rcases eq_error_of_bind h with h | ⟨found, -, h⟩
      · exact moduleOf?_ne_unknownBase h
      · rw [requireHints_eq_ok hfields] at h
        exact nomatch h
    · rcases eq_error_of_bind h with h | ⟨rest, -, h⟩
      · exact ih h
      · exact nomatch h

/-- What keeps an entity from being generated is never a type without a hint. -/
theorem entityArtifacts_ne_unknownBase {base : String}
    (hfields : ∀ f ∈ e.fields, f.type.isDangling = false) :
    entityArtifacts c e ≠ .error (.unknownBase base) := by
  intro h
  rcases eq_error_of_bind h with h | ⟨ms, -, h⟩
  · simp only [modules] at h
    split at h
    · rcases eq_error_of_bind h with h | ⟨-, -, h⟩
      · exact requireBackend_ne_unknownBase h
      · exact collectModules_ne_unknownBase hfields h
    · exact collectModules_ne_unknownBase hfields h
  · exact nomatch h

/-- The files of an entity, if they can be generated. -/
def ownArtifacts (c : GenerationConfig) (e : Entity) : List Artifact :=
  match entityArtifacts c e with
  | .ok as => as
  | .error _ => []

/-- The entities that can be generated. -/
def generated (c : GenerationConfig) (es : List Entity) : List Entity :=
  es.filter fun e => Generates c e

/-- The files of a run: those of the entities that can be generated, and that of the root package,
if there is anything in it. -/
def runArtifacts (c : GenerationConfig) (es : List Entity) : List Artifact :=
  es.flatMap (ownArtifacts c) ++
    if (generated c es).isEmpty then [] else [rootInit c (generated c es)]

theorem ownArtifacts_eq (h : entityArtifacts c e = .ok as) : ownArtifacts c e = as := by
  rw [ownArtifacts, h]

/-- If every entity can be generated, so can all together. -/
theorem allArtifacts_eq_ok (hne : es ≠ []) (h : ∀ e ∈ es, Generates c e) :
    allArtifacts c es = .ok (runArtifacts c es) := by
  have hentities : artifactsOf c es = .ok (es.flatMap (ownArtifacts c)) := by
    clear hne
    induction es with
    | nil => rfl
    | cons e es ih =>
      obtain ⟨as, has⟩ := h e List.mem_cons_self
      rw [artifactsOf, has, ih fun e he => h e (List.mem_cons_of_mem _ he), List.flatMap_cons,
        ownArtifacts_eq has]
      rfl
  have hgenerated : generated c es = es :=
    List.filter_eq_self.mpr fun e he => decide_eq_true (h e he)
  rw [allArtifacts, hentities, runArtifacts, hgenerated, List.isEmpty_eq_false_iff.mpr hne]
  rfl

end Package

namespace Generator

open Build Package

variable {g : Generator} {doc : Document} {c : GenerationConfig} {es es' : List Entity}
  {r r' : Report}

/-- The wording of what keeps an entity from being generated, if anything does. -/
def faultText? (c : GenerationConfig) (e : Entity) : Option String :=
  match entityArtifacts c e with
  | .ok _ => none
  | .error f => some (faultText e.name f)

/-- The third step adds the files of the entities that can be generated, and an error for each of
the others. -/
theorem generateAll_report (h : generateAll c r es = .ok (r', es')) :
    es' = generated c es ∧ r' = { r with
      artifacts := r.artifacts ++ es.flatMap (ownArtifacts c)
      generatedEntities := r.generatedEntities ++ (generated c es).map Entity.name
      generationErrors := r.generationErrors ++ es.filterMap (faultText? c)
      failedEntities :=
        r.failedEntities ++ (es.filter fun e => ¬ Generates c e).map Entity.name } := by
  induction es generalizing r r' es' with
  | nil =>
    obtain ⟨rfl, rfl⟩ := Prod.mk.inj (Except.ok.inj h)
    simp [generated]
  | cons e es ih =>
    rw [generateAll] at h
    split at h
    · rename_i own hown
      obtain ⟨⟨r₁, rest⟩, hrest, h⟩ := exists_of_bind_eq_ok h
      obtain ⟨rfl, rfl⟩ := Prod.mk.inj (Except.ok.inj h)
      obtain ⟨rfl, rfl⟩ := ih hrest
      have hgenerates : Generates c e := ⟨own, hown⟩
      simp [generated, hgenerates, ownArtifacts, faultText?, hown]
    · exact nomatch h
    · rename_i f hf
      obtain ⟨rfl, rfl⟩ := ih h
      have hgenerates : ¬ Generates c e := fun ⟨as, has⟩ => nomatch hf.symm.trans has
      simp [generated, hgenerates, ownArtifacts, faultText?, hf]

/-- The third step goes through if no type is without a hint. -/
theorem exists_generateAll (h : ∀ e ∈ es, ∀ f ∈ e.fields, f.type.isDangling = false) :
    ∃ result, generateAll c r es = .ok result := by
  induction es generalizing r with
  | nil => exact ⟨_, rfl⟩
  | cons e es ih =>
    have hrest (left : Report) : ∃ result, generateAll c left es = .ok result :=
      ih fun e he => h e (List.mem_cons_of_mem _ he)
    rw [generateAll]
    split
    · rename_i own hown
      obtain ⟨result, hall⟩ := hrest { r with
        artifacts := r.artifacts ++ own
        generatedEntities := r.generatedEntities ++ [e.name] }
      exact ⟨(result.1, e :: result.2), by simp only [hall]; rfl⟩
    · rename_i hbase
      exact absurd hbase (entityArtifacts_ne_unknownBase (h e List.mem_cons_self))
    · exact hrest _

theorem exists_generateStep (doc : Document) (r : Report) :
    ∃ w, generateStep doc doc.built r = .ok w := by
  have hfields : ∀ e ∈ doc.built, ∀ f ∈ e.fields, f.type.isDangling = false := by
    intro e he
    obtain ⟨d, -, notes, hbuild⟩ := Document.mem_built.mp he
    exact isDangling_of_build hbuild
  obtain ⟨result, hall⟩ := exists_generateAll hfields
  exact ⟨_, by rw [generateStep, hall]; rfl⟩

/-- What a report says after the third step. -/
structure Generated (g : Generator) (doc : Document) (r : Report) : Prop where
  inputErrors : r.inputErrors = []
  validationErrors : r.validationErrors = [] ↔ g.Accepts doc
  generationErrors : r.generationErrors = [] ↔ ∀ e ∈ doc.built, Generates doc.config e
  exportErrors : r.exportErrors = []
  failedEntities : r.failedEntities =
    (doc.entities.filter fun d => Fails doc.config.strictReferences d).map EntityDeclaration.name ++
      (doc.built.filter fun e => ¬ Generates doc.config e).map Entity.name
  generatedEntities : r.generatedEntities = (generated doc.config doc.built).map Entity.name
  artifacts : r.artifacts = runArtifacts doc.config doc.built

theorem filterMap_faultText_eq_nil :
    es.filterMap (faultText? c) = [] ↔ ∀ e ∈ es, Generates c e := by
  rw [List.filterMap_eq_nil_iff]
  refine forall₂_congr fun e _ => ?_
  rw [faultText?, Generates]
  cases entityArtifacts c e <;> simp

theorem generateStep_spec (hr : g.Examined doc r) (h : generateStep doc doc.built r = .ok r') :
    g.Generated doc r' := by
  obtain ⟨⟨left, es⟩, hall, h⟩ := exists_of_bind_eq_ok h
  obtain ⟨rfl, rfl⟩ := generateAll_report hall
  obtain rfl := Except.ok.inj h
  constructor
  case inputErrors => exact hr.inputErrors
  case validationErrors => exact hr.validationErrors
  case exportErrors => exact hr.exportErrors
  case generationErrors =>
    show r.generationErrors ++ _ = [] ↔ _
    rw [hr.generationErrors, List.nil_append, filterMap_faultText_eq_nil]
  case failedEntities =>
    show r.failedEntities ++ _ = _
    rw [hr.failedEntities]
  case generatedEntities =>
    show r.generatedEntities ++ _ = _
    rw [hr.generatedEntities, List.nil_append]
  case artifacts =>
    show r.artifacts ++ _ ++ _ = _
    rw [hr.artifacts, List.nil_append, runArtifacts]

end Generator

end EntityForge
