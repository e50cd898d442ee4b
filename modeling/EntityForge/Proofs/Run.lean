import EntityForge.Proofs.Export
import EntityForge.Proofs.Generation

/-!
# What a run comes to

A run goes one of few ways: it stops after the validation, after the generation, or it exports its
files. All but the last leave the disk alone, and so does an export that is dry or refused. A run
that ends without an error has gone the last way, or was asked to stop after the validation.
-/

namespace EntityForge

open Package

/-! ## Reports -/

namespace Report

variable {r : Report}

theorem isClean_iff : r.isClean = true ↔ r.inputErrors = [] ∧ r.validationErrors = [] ∧
    r.generationErrors = [] ∧ r.exportErrors = [] := by
  simp only [isClean, Bool.and_eq_true, List.isEmpty_iff, and_assoc]

/-- A finished report has the exit code of success exactly when it is a success. -/
theorem exitCode_finished : r.finished.exitCode = 0 ↔ r.finished.success = true := by
  rw [show r.finished.success = r.isClean from rfl, isClean_iff]
  simp only [exitCode, outcome, finished, Bool.not_eq_true', List.isEmpty_eq_false_iff]
  by_cases hinput : r.inputErrors = []
  · by_cases hvalidation : r.validationErrors = []
    · by_cases hgeneration : r.generationErrors = []
      · by_cases hexport : r.exportErrors = []
        · have hclean : r.isClean = true :=
            isClean_iff.mpr ⟨hinput, hvalidation, hgeneration, hexport⟩
          simp [hinput, hvalidation, hgeneration, hexport, hclean, Outcome.code]
        · simp [hinput, hvalidation, hgeneration, hexport, Outcome.code]
      · simp [hinput, hvalidation, hgeneration, Outcome.code]
    · simp [hinput, hvalidation, Outcome.code]
  · simp [hinput, Outcome.code]

end Report

namespace Generator

variable {g : Generator} {doc : Document} {output : Path} {r r' : Report} {d d' : Disk}

/-! ## Ways of a run -/

/-- The report that a document is met with. -/
def titled (doc : Document) (r : Report) : Report :=
  { r with projectName := doc.config.projectName, totalEntities := doc.entities.length }

/-- The ways in which a run on a document can go, each with the report and the disk it ends with. -/
inductive Course (g : Generator) (doc : Document) (output : Path) (r : Report) (d : Disk) :
    Report → Disk → Prop
  /-- The run stops after the validation. -/
  | checked
    (stops : (g.examined doc (titled doc r)).2 = false ∧ g.strict = true ∨ g.validateOnly = true) :
    Course g doc output r d (g.examined doc (titled doc r)).1.finished d
  /-- Not every entity can be generated. -/
  | refused {w : Report}
    (generate : generateStep doc doc.built (g.examined doc (titled doc r)).1 = .ok w)
    (errors : w.generationErrors ≠ []) (strict : g.strict = true) :
    Course g doc output r d w.finished d
  /-- No entity can be generated. -/
  | empty {w : Report} {notice : String}
    (generate : generateStep doc doc.built (g.examined doc (titled doc r)).1 = .ok w)
    (none : w.generatedEntities = []) : Course g doc output r d
      { w with generationErrors := w.generationErrors ++ [notice] }.finished d
  /-- The files are exported. -/
  | exported {w : Report}
    (accepted : (g.examined doc (titled doc r)).2 = true ∨ g.strict = false)
    (goes : g.validateOnly = false)
    (generate : generateStep doc doc.built (g.examined doc (titled doc r)).1 = .ok w)
    (errors : w.generationErrors = [] ∨ g.strict = false) (some : w.generatedEntities ≠ []) :
    Course g doc output r d
      (g.exportStep doc output w d).1.finished (g.exportStep doc output w d).2

/-- Every run on a document goes one of these ways, and returns a report. -/
theorem exists_course (g : Generator) (doc : Document) (output : Path) (r : Report) (d : Disk) :
    ∃ r' d', g.runDocument doc output r d = .ok (r', d') ∧ g.Course doc output r d r' d' := by
  -- The steps are named, which leaves the decisions between them.
  have hrun : g.runDocument doc output r d =
      if (!(g.examined doc (titled doc r)).2 && g.strict) || g.validateOnly then
        .ok ((g.examined doc (titled doc r)).1.finished, d)
      else generateStep doc doc.built (g.examined doc (titled doc r)).1 >>= fun w =>
        if !w.generationErrors.isEmpty && g.strict then .ok (w.finished, d)
        else if w.generatedEntities.isEmpty then
          .ok ({ w with generationErrors := w.generationErrors ++
            ["No entity was generated — aborting export."] }.finished, d)
        else .ok ((g.exportStep doc output w d).1.finished, (g.exportStep doc output w d).2) := by
    rw [examined, ← buildStep_entities doc (titled doc r)]
    rfl
  rw [hrun]
  split
  · rename_i hstops
    exact ⟨_, _, rfl, .checked (by simpa using hstops)⟩
  · rename_i hgoes
    simp only [Bool.not_eq_true, Bool.or_eq_false_iff, Bool.and_eq_false_iff,
      Bool.not_eq_false'] at hgoes
    obtain ⟨w, hgenerate⟩ := exists_generateStep doc (g.examined doc (titled doc r)).1
    simp only [hgenerate, bind, Except.bind]
    split
    · rename_i hrefused
      simp only [Bool.and_eq_true, Bool.not_eq_true', List.isEmpty_eq_false_iff] at hrefused
      exact ⟨_, _, rfl, .refused hgenerate hrefused.1 hrefused.2⟩
    · rename_i hclean
      simp only [Bool.not_eq_true, Bool.and_eq_false_iff, Bool.not_eq_false',
        List.isEmpty_iff] at hclean
      split
      · rename_i hempty
        exact ⟨_, _, rfl, .empty hgenerate (List.isEmpty_iff.mp hempty)⟩
      · rename_i hsome
        exact ⟨_, _, rfl, .exported hgoes.1 hgoes.2 hgenerate hclean (by simpa using hsome)⟩

/-! ## Inputs -/

/-- What a run is started on. -/
inductive Input where
  | document (doc : Document)
  | file (source : Path) (overrides : Entries)

/-- The document that a run is started on, if it can be read. -/
def Input.read (d : Disk) : Input → Except InputFault Document
  | .document doc => .ok doc
  | .file source overrides => Document.ofFile d source overrides

/-- A run on whatever it is started on. -/
def start (g : Generator) (input : Input) (output : Path) (d : Disk) :
    Except Interruption (Report × Disk) :=
  match input with
  | .document doc => g.run doc output d
  | .file source overrides => g.runFile source overrides output d

variable {input : Input}

theorem untouched_blankReport (g : Generator) (output : Path) : Untouched (g.blankReport output) :=
  ⟨rfl, rfl, rfl, rfl, rfl, rfl, rfl, rfl⟩

theorem Untouched.addStep (hr : Untouched r) (step : Step) : Untouched (r.addStep step) :=
  ⟨hr.1, hr.2, hr.3, hr.4, hr.5, hr.6, hr.7, hr.8⟩

theorem Untouched.titled (doc : Document) (hr : Untouched r) : Untouched (titled doc r) :=
  ⟨hr.1, hr.2, hr.3, hr.4, hr.5, hr.6, hr.7, hr.8⟩

/-- A run on a document that can be read is one on the document. -/
theorem start_of_read (g : Generator) (output : Path) (h : input.read d = .ok doc) :
    ∃ r, Untouched r ∧
      g.start input output d = g.runDocument doc (output.resolve d.current) r d := by
  cases input with
  | document given =>
    obtain rfl := Except.ok.inj h
    exact ⟨_, untouched_blankReport g _, rfl⟩
  | file source overrides =>
    rw [start, runFile, show Document.ofFile d source overrides = .ok doc from h]
    exact ⟨_, (untouched_blankReport g _).addStep _, rfl⟩

/-- A run on a document that can be read is never interrupted. -/
theorem exists_report (g : Generator) (output : Path) (h : input.read d = .ok doc) :
    ∃ r d', g.start input output d = .ok (r, d') := by
  obtain ⟨r₀, -, hstart⟩ := start_of_read g output h
  obtain ⟨r, d', hrun, -⟩ := exists_course g doc (output.resolve d.current) r₀ d
  exact ⟨r, d', hstart.trans hrun⟩

/-- A run on what cannot be read says so, or is interrupted. -/
theorem start_of_unread (g : Generator) (output : Path) {fault : InputFault}
    (h : input.read d = .error fault) :
    (∃ r : Report, r.inputErrors ≠ [] ∧ g.start input output d = .ok (r.finished, d)) ∨
      g.start input output d = .error (.input fault) := by
  cases input with
  | document given => exact nomatch h
  | file source overrides =>
    rw [start, runFile, show Document.ofFile d source overrides = .error fault from h]
    dsimp only
    split
    · exact Or.inl ⟨_, List.cons_ne_nil _ _, rfl⟩
    · exact Or.inr rfl

/-! ## Runs that leave the disk alone -/

/-- The disk that a run leaves. One that is interrupted has not come to its export. -/
def diskAfter (g : Generator) (input : Input) (output : Path) (d : Disk) : Disk :=
  match g.start input output d with
  | .ok (_, d') => d'
  | .error _ => d

/-- What keeps a run from touching the disk, given what was read. -/
inductive Withheld (g : Generator) : Except InputFault Document → Prop
  | dryRun {read : Except InputFault Document} (asked : g.dryRun = true) : Withheld g read
  | validateOnly {read : Except InputFault Document} (asked : g.validateOnly = true) :
    Withheld g read
  | unread (fault : InputFault) : Withheld g (.error fault)
  /-- An entity cannot be built. -/
  | unbuilt {doc : Document} {d : EntityDeclaration} (strict : g.strict = true)
    (declared : d ∈ doc.entities) (fails : Build.Fails doc.config.strictReferences d) :
    Withheld g (.ok doc)
  /-- The entities do not fit together. -/
  | invalid {doc : Document} (strict : g.strict = true)
    (errors : ¬ (Validation.document doc.built doc.config.strictReferences).Clean) :
    Withheld g (.ok doc)
  /-- There is a warning about an entity. -/
  | warnedEntity {doc : Document} {d : EntityDeclaration} (strict : g.strict = true)
    (failOnWarnings : g.failOnWarnings = true) (declared : d ∈ doc.entities)
    (warning : Diagnostics.hasWarnings (Build.findings doc.config.strictReferences d) = true) :
    Withheld g (.ok doc)
  /-- There is a warning about how the entities fit together. -/
  | warnedDocument {doc : Document} (strict : g.strict = true)
    (failOnWarnings : g.failOnWarnings = true) (warning : Diagnostics.hasWarnings
      (Validation.document doc.built doc.config.strictReferences).notes = true) :
    Withheld g (.ok doc)
  /-- An entity cannot be generated. -/
  | ungenerated {doc : Document} {e : Entity} (strict : g.strict = true) (built : e ∈ doc.built)
    (fails : ¬ Generates doc.config e) : Withheld g (.ok doc)
  /-- No entity can be generated. -/
  | empty {doc : Document} (fails : ∀ e ∈ doc.built, ¬ Generates doc.config e) :
    Withheld g (.ok doc)
  /-- Two files have the same path. -/
  | duplicate {doc : Document}
    (paths : ¬ ((runArtifacts doc.config doc.built).map Artifact.path).Nodup) :
    Withheld g (.ok doc)

/-- What a run that comes to its export has passed. -/
theorem not_withheld_of_exported {w : Report} (hw : g.Generated doc w)
    (haccepted : g.Accepts doc ∨ g.strict = false) (hgoes : g.validateOnly = false)
    (herrors : w.generationErrors = [] ∨ g.strict = false) (hsome : w.generatedEntities ≠ [])
    (h : g.Withheld (.ok doc)) :
    g.dryRun = true ∨ ¬ (w.artifacts.map Artifact.path).Nodup := by
  have haccepts (hstrict : g.strict = true) : g.Accepts doc :=
    haccepted.resolve_right (Bool.not_eq_false _ ▸ hstrict)
  have hgenerates (hstrict : g.strict = true) : ∀ e ∈ doc.built, Generates doc.config e :=
    hw.generationErrors.mp (herrors.resolve_right (Bool.not_eq_false _ ▸ hstrict))
  cases h with
  | dryRun asked => exact Or.inl asked
  | validateOnly asked => exact absurd asked (Bool.not_eq_true _ ▸ hgoes)
  | unbuilt strict declared fails => exact absurd fails ((haccepts strict).builds _ declared)
  | invalid strict errors => exact absurd (haccepts strict).clean errors
  | warnedEntity strict failOnWarnings declared warning =>
    have hquiet := ((haccepts strict).quiet failOnWarnings).1 _ declared
    exact Bool.noConfusion (hquiet.symm.trans warning)
  | warnedDocument strict failOnWarnings warning =>
    have hquiet := ((haccepts strict).quiet failOnWarnings).2
    exact Bool.noConfusion (hquiet.symm.trans warning)
  | ungenerated strict built fails => exact absurd (hgenerates strict _ built) fails
  | empty fails =>
    refine absurd ?_ hsome
    rw [hw.generatedEntities, List.map_eq_nil_iff, generated, List.filter_eq_nil_iff]
    exact fun e he => by simpa using fails e he
  | duplicate paths => exact Or.inr (hw.artifacts ▸ paths)

/-- A run that is withheld leaves the disk exactly as it was. -/
theorem diskAfter_of_withheld (h : g.Withheld (input.read d)) :
    g.diskAfter input output d = d := by
  rw [diskAfter]
  cases hread : input.read d with
  | error fault =>
    rcases start_of_unread g output hread with ⟨r, -, hstart⟩ | hstart
    · rw [hstart]
    · rw [hstart]
  | ok doc =>
    rw [hread] at h
    obtain ⟨r, hr, hstart⟩ := start_of_read g output hread
    obtain ⟨hexamined, hok⟩ := examined_spec g doc (hr.titled doc)
    obtain ⟨r', d', hrun, hcourse⟩ := exists_course g doc (output.resolve d.current) r d
    rw [hstart, hrun]
    cases hcourse with
    | checked stops => rfl
    | refused generate errors strict => rfl
    | empty generate none => rfl
    | exported accepted goes generate errors some =>
      rcases not_withheld_of_exported (generateStep_spec hexamined generate)
        (accepted.imp_left hok.mp) goes errors some h with hdry | hduplicate
      · exact Exporter.run_of_dryRun hdry
      · exact Exporter.run_of_duplicate hduplicate

/-- An entity that can be built, and one that has no table. -/
def draftDocument : Document where
  entities := [Build.articleDeclaration,
    { name := "Draft"
      fields := some [
        { name := some "id", type := "uuid", attributes := [(.text "id", .bool true)] }] }]

/-- A directory with files in it is not emptied for a run that comes to nothing. -/
theorem diskAfter_of_withheld_draft :
    ({ cleanOutput := true } : Generator).Withheld
        ((Input.document draftDocument).read Exporter.siteDisk) ∧
      ({ cleanOutput := true } : Generator).diskAfter (.document draftDocument) ⟨"", ["site"]⟩
        Exporter.siteDisk = Exporter.siteDisk := by
  have hdeclared : ∃ d ∈ draftDocument.entities,
      Build.Fails draftDocument.config.strictReferences d := by
    decide +kernel
  obtain ⟨d, hd, hfails⟩ := hdeclared
  have hwithheld : ({ cleanOutput := true } : Generator).Withheld
      ((Input.document draftDocument).read Exporter.siteDisk) := .unbuilt rfl hd hfails
  exact ⟨hwithheld, diskAfter_of_withheld hwithheld⟩

/-! ## Runs without an error -/

/-- What an export without an error leaves on the report. -/
theorem exportStep_files {w : Report} (hw : w.exportErrors = [])
    (h : (g.exportStep doc (output.resolve d.current) w d).1.exportErrors = []) :
    ∃ m, (g.exportStep doc (output.resolve d.current) w d).1.manifest = some m ∧
      m.files = w.artifacts.map Artifact.toRecord := by
  have hsuccess : ((g.exporter doc (output.resolve d.current)).run d w.artifacts).1.success =
      true := by
    have herrors : w.exportErrors ++ ((g.exporter doc (output.resolve d.current)).run d
        w.artifacts).1.errors = [] := h
    rw [hw, List.nil_append, ExportResult.errors, List.map_eq_nil_iff] at herrors
    exact List.isEmpty_iff.mpr herrors
  exact ⟨_, rfl, Exporter.run_files Path.root_resolve hsuccess⟩

/-- A document of which every entity can be built has the names of its declarations. -/
theorem names_built (h : ∀ d ∈ doc.entities, ¬ Build.Fails doc.config.strictReferences d) :
    doc.built.map Entity.name = doc.entities.map EntityDeclaration.name := by
  rw [Document.built]
  generalize doc.entities = ds at h ⊢
  induction ds with
  | nil => rfl
  | cons d ds ih =>
    cases hbuild : Build.build d doc.config.strictReferences with
    | error f => exact absurd ⟨f, hbuild⟩ (h d List.mem_cons_self)
    | ok result =>
      obtain ⟨e, notes⟩ := result
      obtain ⟨he, -, -⟩ := Build.of_build_eq_ok hbuild
      have hname : e.name = d.name := (Build.madeFrom_of_assemble? he).name
      rw [List.filterMap_cons_some (b := e) (by rw [hbuild]; rfl), List.map_cons, List.map_cons,
        hname, ih fun d hd => h d (List.mem_cons_of_mem _ hd)]

/-- A report tells of a complete run on a document: every entity went through, and the manifest has
the record of every file. -/
structure Complete (doc : Document) (r : Report) : Prop where
  failedEntities : r.failedEntities = []
  generatedEntities : r.generatedEntities = doc.entities.map EntityDeclaration.name
  artifacts : allArtifacts doc.config doc.built = .ok r.artifacts
  manifest : ∃ m, r.manifest = some m ∧ m.files = r.artifacts.map Artifact.toRecord

/-- An export without an error completes a run. -/
theorem complete_of_isClean {w : Report} (hw : g.Generated doc w) (hsome : w.generatedEntities ≠ [])
    (h : (g.exportStep doc (output.resolve d.current) w d).1.isClean = true) :
    Complete doc (g.exportStep doc (output.resolve d.current) w d).1.finished := by
  obtain ⟨-, hvalidation, hgeneration, hexport⟩ := Report.isClean_iff.mp h
  have haccepts : g.Accepts doc := hw.validationErrors.mp hvalidation
  have hgenerates := hw.generationErrors.mp hgeneration
  have hgenerated : generated doc.config doc.built = doc.built :=
    List.filter_eq_self.mpr fun e he => decide_eq_true (hgenerates e he)
  have hbuilt : doc.built ≠ [] := by
    rintro hnil
    rw [hw.generatedEntities, hgenerated, hnil] at hsome
    exact hsome rfl
  constructor
  case failedEntities =>
    refine hw.failedEntities.trans (List.append_eq_nil_iff.mpr ⟨?_, ?_⟩)
    · rw [List.map_eq_nil_iff, List.filter_eq_nil_iff]
      exact fun d hd => by simpa using haccepts.builds d hd
    · rw [List.map_eq_nil_iff, List.filter_eq_nil_iff]
      exact fun e he => by simpa using hgenerates e he
  case generatedEntities =>
    refine hw.generatedEntities.trans ?_
    rw [hgenerated, names_built haccepts.builds]
  case artifacts =>
    refine (allArtifacts_eq_ok hbuilt hgenerates).trans (congrArg _ ?_)
    exact hw.artifacts.symm
  case manifest => exact exportStep_files hw.exportErrors hexport

/-- A report of success tells of a complete run, unless only a validation was asked for. -/
theorem report_sound (h : g.start input output d = .ok (r, d')) :
    (r.exitCode = 0 ↔ r.success = true) ∧
    (r.success = true ↔ r.inputErrors = [] ∧ r.validationErrors = [] ∧ r.generationErrors = [] ∧
      r.exportErrors = []) ∧
    (r.exitCode = 0 → g.validateOnly = false →
      ∃ doc, input.read d = .ok doc ∧ Complete doc r) := by
  -- Every report is finished, and what the third part says is left to the single ways of a run.
  suffices hfinished : ∃ w : Report, r = w.finished ∧
      (w.isClean = true → g.validateOnly = false →
        ∃ doc, input.read d = .ok doc ∧ Complete doc w.finished) by
    obtain ⟨w, rfl, hcomplete⟩ := hfinished
    exact ⟨Report.exitCode_finished, Report.isClean_iff,
      fun hzero => hcomplete (Report.exitCode_finished.mp hzero)⟩
  cases hread : input.read d with
  | error fault =>
    rcases start_of_unread g output hread with ⟨w, hinput, hstart⟩ | hstart
    · rw [hstart] at h
      obtain ⟨rfl, rfl⟩ := Prod.mk.inj (Except.ok.inj h)
      exact ⟨w, rfl, fun hclean => absurd (Report.isClean_iff.mp hclean).1 hinput⟩
    · exact nomatch hstart.symm.trans h
  | ok doc =>
    obtain ⟨r₀, hr, hstart⟩ := start_of_read g output hread
    obtain ⟨hexamined, hok⟩ := examined_spec g doc (hr.titled doc)
    obtain ⟨r', left, hrun, hcourse⟩ := exists_course g doc (output.resolve d.current) r₀ d
    rw [hstart, hrun] at h
    obtain ⟨rfl, -⟩ := Prod.mk.inj (Except.ok.inj h)
    cases hcourse with
    | checked stops =>
      refine ⟨_, rfl, fun hclean hgoes => ?_⟩
      have haccepts := hexamined.validationErrors.mp (Report.isClean_iff.mp hclean).2.1
      rcases stops with ⟨hrefused, -⟩ | hasked
      · exact Bool.noConfusion ((hok.mpr haccepts).symm.trans hrefused)
      · exact Bool.noConfusion (hgoes.symm.trans hasked)
    | refused generate errors strict =>
      exact ⟨_, rfl, fun hclean => absurd (Report.isClean_iff.mp hclean).2.2.1 errors⟩
    | empty generate none =>
      refine ⟨_, rfl, fun hclean => absurd (Report.isClean_iff.mp hclean).2.2.1 ?_⟩
      exact List.append_ne_nil_of_right_ne_nil _ (List.cons_ne_nil _ _)
    | exported accepted goes generate errors some =>
      exact ⟨_, rfl, fun hclean _ => ⟨doc, rfl,
        complete_of_isClean (generateStep_spec hexamined generate) some hclean⟩⟩

/-- A document with one entity. -/
def articleDocument : Document where
  entities := [Build.articleDeclaration]

/-- The run on an article ends with success, and so it is complete. -/
theorem report_sound_article : ∃ r d',
    ({} : Generator).start (.document articleDocument) ⟨"", ["site"]⟩ Exporter.siteDisk =
        .ok (r, d') ∧
      r.exitCode = 0 ∧ Complete articleDocument r := by
  have hzero : (match ({} : Generator).start (.document articleDocument) ⟨"", ["site"]⟩
      Exporter.siteDisk with
    | .ok (r, _) => decide (r.exitCode = 0)
    | .error _ => false) = true := by
    decide +kernel
  split at hzero
  · rename_i r d' hstart
    have hcode : r.exitCode = 0 := of_decide_eq_true hzero
    obtain ⟨doc, hread, hcomplete⟩ := (report_sound hstart).2.2 hcode rfl
    obtain rfl : articleDocument = doc := Except.ok.inj hread
    exact ⟨r, d', hstart, hcode, hcomplete⟩
  · exact Bool.noConfusion hzero

end Generator

end EntityForge
