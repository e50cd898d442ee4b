import EntityForge.Proofs.Run
import Mathlib.Data.List.Perm.Basic

/-!
# Runs in which entities leave each other alone

A run that is not strict goes through all entities, in two loops: some drop out when they are
built, others when their files are generated. Neither loop keeps anything of one entity for the
next, so what a run records of an entity is what comes of it on its own. It follows that two runs
record the same files for the declarations that their documents share, whatever else is declared.
-/

namespace EntityForge

open Package

/-! ## One entity on its own -/

/-- An entity with its files, if they can be generated. -/
def Package.withFiles? (c : GenerationConfig) (e : Entity) : Option (Entity × List Artifact) :=
  match entityArtifacts c e with
  | .error _ => none
  | .ok files => some (e, files)

/-- The entity that a declaration describes with its files, built and generated on its own. -/
def EntityDeclaration.alone? (c : GenerationConfig) (d : EntityDeclaration) :
    Option (Entity × List Artifact) :=
  match Build.build d c.strictReferences with
  | .error _ => none
  | .ok (e, _) => withFiles? c e

/-- The entities of some declarations, with their files, that come about on their own. -/
def comeAbout (c : GenerationConfig) (ds : List EntityDeclaration) :
    List (Entity × List Artifact) :=
  ds.filterMap (EntityDeclaration.alone? c)

namespace Package

variable {c : GenerationConfig} {e : Entity} {es : List Entity} {as : List Artifact}

/-- The entities that can be generated are those with files. -/
theorem generated_eq_map : generated c es = (es.filterMap (withFiles? c)).map Prod.fst := by
  rw [generated]
  induction es with
  | nil => rfl
  | cons e es ih =>
    cases hfiles : entityArtifacts c e with
    | error f =>
      have hnot : ¬ Generates c e := by
        rintro ⟨as, has⟩
        cases hfiles.symm.trans has
      simp [withFiles?, hfiles, hnot, ih]
    | ok own =>
      have hgenerates : Generates c e := ⟨own, hfiles⟩
      simp [withFiles?, hfiles, hgenerates, ih]

theorem flatMap_ownArtifacts :
    es.flatMap (ownArtifacts c) = (es.filterMap (withFiles? c)).flatMap Prod.snd := by
  induction es with
  | nil => rfl
  | cons e es ih =>
    cases hfiles : entityArtifacts c e with
    | error f => simp [withFiles?, ownArtifacts, hfiles, ih]
    | ok own => simp [withFiles?, ownArtifacts, hfiles, ih]

/-- The files generated for an entity belong to it. -/
theorem entity_of_entityArtifacts (h : entityArtifacts c e = .ok as) :
    ∀ a ∈ as, a.entity = e.name := by
  obtain ⟨found, -, h⟩ := exists_of_bind_eq_ok h
  obtain rfl := Except.ok.inj h
  intro a ha
  simp only [List.mem_append, List.mem_singleton, List.mem_map] at ha
  rcases ha with (rfl | ⟨m, -, rfl⟩) | ha
  · rfl
  · rfl
  · rw [migrationFiles] at ha
    split at ha
    · simp only [List.mem_cons, List.not_mem_nil, or_false] at ha
      rcases ha with rfl | rfl
      · rfl
      · rfl
    · exact nomatch ha

/-- The root package imports the packages of its entities, in their order, and nothing else. -/
theorem rootInit_content (hne : es ≠ []) :
    (rootInit c es).content = "\n".intercalate
      (["\"\"\"", c.packageName ++ " package.", "", "Generated by entitygen; do not edit.",
        "\"\"\"", ""] ++ es.map fun e => "from . import " ++ e.snakeName) ++ "\n" := by
  have hline (e : Entity) : Source.ImportTable.line (".", [e.snakeName]) =
      "from . import " ++ e.snakeName := by
    simp [Source.ImportTable.line]
  have hlines : (rootExports es).map Source.ImportTable.line =
      es.map fun e => "from . import " ++ e.snakeName := by
    rw [rootExports, List.map_map]
    exact List.map_congr_left fun e _ => hline e
  have hsome : (es.map fun e => "from . import " ++ e.snakeName).isEmpty = false := by
    simpa using hne
  rw [rootInit, initText, hlines, hsome]
  rfl

end Package

section Alone

variable {c : GenerationConfig} {d : EntityDeclaration} {ds : List EntityDeclaration} {e : Entity}
  {files : List Artifact}

/-- What comes of a declaration has its name. -/
theorem EntityDeclaration.alone?_spec (h : d.alone? c = some (e, files)) :
    e.name = d.name ∧ ∀ a ∈ files, a.entity = d.name := by
  rw [alone?] at h
  split at h
  · exact nomatch h
  · rename_i built notes hbuild
    rw [withFiles?] at h
    split at h
    · exact nomatch h
    · rename_i own hown
      obtain ⟨rfl, rfl⟩ := Prod.mk.inj (Option.some.inj h)
      obtain ⟨he, -, -⟩ := Build.of_build_eq_ok hbuild
      have hname : built.name = d.name := (Build.madeFrom_of_assemble? he).name
      exact ⟨hname, fun a ha => (entity_of_entityArtifacts hown a ha).trans hname⟩

/-- The two loops of a run drop the declarations of which nothing comes on their own. -/
theorem comeAbout_entities (doc : Document) :
    comeAbout doc.config doc.entities = doc.built.filterMap (withFiles? doc.config) := by
  rw [comeAbout, Document.built, List.filterMap_filterMap]
  refine List.filterMap_congr fun d _ => ?_
  rw [EntityDeclaration.alone?]
  cases Build.build d doc.config.strictReferences with
  | error f => rfl
  | ok result => rfl

/-- What comes about under a name comes of the declarations with that name. -/
theorem filter_comeAbout (c : GenerationConfig) (ds : List EntityDeclaration) (n : String) :
    (comeAbout c ds).filter (fun p => p.1.name = n) =
      comeAbout c (ds.filter fun d => d.name = n) := by
  rw [comeAbout, comeAbout, List.filter_filterMap, List.filterMap_filter]
  refine List.filterMap_congr fun d _ => ?_
  cases halone : d.alone? c with
  | none => simp
  | some own =>
    have hname : own.1.name = d.name := (EntityDeclaration.alone?_spec halone).1
    by_cases hn : d.name = n
    · simp [hname, hn]
    · simp [hname, hn]

/-- The files recorded under a name come of the declarations with that name. -/
theorem filter_files_comeAbout (c : GenerationConfig) (ds : List EntityDeclaration) (n : String) :
    ((comeAbout c ds).flatMap Prod.snd).filter (fun a => a.entity = n) =
      (comeAbout c (ds.filter fun d => d.name = n)).flatMap Prod.snd := by
  rw [← filter_comeAbout]
  have hown : ∀ p ∈ comeAbout c ds, ∀ a ∈ p.2, a.entity = p.1.name := by
    intro p hp a ha
    obtain ⟨d, -, halone⟩ := List.mem_filterMap.mp hp
    obtain ⟨hname, hfiles⟩ := EntityDeclaration.alone?_spec halone
    exact (hfiles a ha).trans hname.symm
  generalize comeAbout c ds = ps at hown ⊢
  induction ps with
  | nil => rfl
  | cons p ps ih =>
    obtain ⟨hp, hps⟩ := List.forall_mem_cons.mp hown
    by_cases hn : p.1.name = n
    · have hall : p.2.filter (fun a => a.entity = n) = p.2 :=
        List.filter_eq_self.mpr fun a ha => by simp [hp a ha, hn]
      simp [hn, hall, ih hps]
    · have hnone : p.2.filter (fun a => a.entity = n) = [] :=
        List.filter_eq_nil_iff.mpr fun a ha => by simp [hp a ha, hn]
      simp [hn, hnone, ih hps]

/-- What is built has the names of the declarations that do not fail, in their order. -/
theorem Document.names_built (doc : Document) : doc.built.map Entity.name =
    (doc.entities.filter fun d => ¬ Build.Fails doc.config.strictReferences d).map
      EntityDeclaration.name := by
  rw [Document.built]
  induction doc.entities with
  | nil => rfl
  | cons d ds ih =>
    cases hbuild : Build.build d doc.config.strictReferences with
    | error f =>
      have hfails : Build.Fails doc.config.strictReferences d := ⟨f, hbuild⟩
      simpa [hbuild, hfails, Except.toOption] using ih
    | ok result =>
      obtain ⟨e, notes⟩ := result
      have hfails : ¬ Build.Fails doc.config.strictReferences d := by
        rintro ⟨f, hf⟩
        cases hbuild.symm.trans hf
      obtain ⟨he, -, -⟩ := Build.of_build_eq_ok hbuild
      have hname : e.name = d.name := (Build.madeFrom_of_assemble? he).name
      simpa [hbuild, hfails, hname, Except.toOption] using ih

end Alone

namespace Generator

variable {g : Generator} {input : Input} {d : Disk} {doc doc' : Document} {r r' : Report}

/-! ## Reports -/

/-- A report tells of every entity what comes of it on its own, and of the root package of those
that were generated. -/
structure Isolated (doc : Document) (r : Report) : Prop where
  /-- Every entity was generated or failed, and as often as it is declared. -/
  accounted : (r.generatedEntities ++ r.failedEntities).Perm
    (doc.entities.map EntityDeclaration.name)
  generated : r.generatedEntities =
    (comeAbout doc.config doc.entities).map fun p => p.1.name
  /-- Nothing is recorded if nothing was generated. -/
  nothing : r.generatedEntities = [] → r.artifacts = []
  artifacts : r.generatedEntities ≠ [] → ∃ root : Artifact,
    r.artifacts = (comeAbout doc.config doc.entities).flatMap Prod.snd ++ [root] ∧
    root.path = doc.config.packageName ++ "/__init__.py" ∧
    root.content = "\n".intercalate (["\"\"\"", doc.config.packageName ++ " package.", "",
      "Generated by entitygen; do not edit.", "\"\"\"", ""] ++
        (comeAbout doc.config doc.entities).map fun p => "from . import " ++ p.1.snakeName) ++ "\n"

/-- Each declaration fails to be built, or is built and fails to be generated, or is generated. -/
theorem perm_names (doc : Document) :
    ((generated doc.config doc.built).map Entity.name ++
      ((doc.entities.filter fun d => Build.Fails doc.config.strictReferences d).map
          EntityDeclaration.name ++
        (doc.built.filter fun e => ¬ Generates doc.config e).map Entity.name)).Perm
      (doc.entities.map EntityDeclaration.name) := by
  have hbuilt : ((generated doc.config doc.built).map Entity.name ++
      (doc.built.filter fun e => ¬ Generates doc.config e).map Entity.name).Perm
        (doc.built.map Entity.name) := by
    rw [← List.map_append]
    refine List.Perm.map _ ?_
    simpa [generated] using
      List.filter_append_perm (fun e => decide (Generates doc.config e)) doc.built
  have hdeclared : ((doc.entities.filter fun d =>
      Build.Fails doc.config.strictReferences d).map EntityDeclaration.name ++
        doc.built.map Entity.name).Perm (doc.entities.map EntityDeclaration.name) := by
    rw [doc.names_built, ← List.map_append]
    refine List.Perm.map _ ?_
    simpa using List.filter_append_perm
      (fun d => decide (Build.Fails doc.config.strictReferences d)) doc.entities
  rw [← List.append_assoc]
  refine ((List.perm_append_comm.append_right _).trans ?_).trans hdeclared
  rw [List.append_assoc]
  exact hbuilt.append_left _

/-- After the third step a report tells what comes of each entity on its own. -/
theorem isolated_of_generated (hr : g.Generated doc r) : Isolated doc r := by
  have hnames : r.generatedEntities =
      (comeAbout doc.config doc.entities).map fun p => p.1.name := by
    rw [hr.generatedEntities, generated_eq_map, ← comeAbout_entities, List.map_map]
    rfl
  constructor
  case accounted =>
    rw [hr.generatedEntities, hr.failedEntities]
    exact perm_names doc
  case generated => exact hnames
  case nothing =>
    intro hnil
    rw [hnames, List.map_eq_nil_iff] at hnil
    rw [hr.artifacts, runArtifacts, flatMap_ownArtifacts, generated_eq_map, ← comeAbout_entities, hnil]
    rfl
  case artifacts =>
    intro hsome
    have hne : (comeAbout doc.config doc.entities).map Prod.fst ≠ [] := by
      rw [hnames, ne_eq, List.map_eq_nil_iff] at hsome
      rwa [ne_eq, List.map_eq_nil_iff]
    refine ⟨rootInit doc.config ((comeAbout doc.config doc.entities).map Prod.fst), ?_, rfl, ?_⟩
    · rw [hr.artifacts, runArtifacts, flatMap_ownArtifacts, generated_eq_map, ← comeAbout_entities,
        List.isEmpty_eq_false_iff.mpr hne]
      rfl
    · rw [rootInit_content hne, List.map_map]
      rfl

/-- A run that is neither strict nor a mere validation comes to an isolated report. -/
theorem exists_isolated (output : Path) (hstrict : g.strict = false)
    (hgoes : g.validateOnly = false) (hread : input.read d = .ok doc) :
    ∃ r d', g.start input output d = .ok (r, d') ∧ Isolated doc r := by
  obtain ⟨r₀, hr, hstart⟩ := start_of_read g output hread
  obtain ⟨hexamined, -⟩ := examined_spec g doc (hr.titled doc)
  obtain ⟨r, d', hrun, hcourse⟩ := exists_course g doc (output.resolve d.current) r₀ d
  refine ⟨r, d', hstart.trans hrun, ?_⟩
  cases hcourse with
  | checked stops =>
    rcases stops with ⟨-, hasked⟩ | hasked
    · exact Bool.noConfusion (hstrict.symm.trans hasked)
    · exact Bool.noConfusion (hgoes.symm.trans hasked)
  | refused generate errors strict => exact Bool.noConfusion (hstrict.symm.trans strict)
  | empty generate none =>
    -- What is left of the run adds an error, and no field the report is read for.
    obtain ⟨haccounted, hgenerated, hnothing, hartifacts⟩ :=
      isolated_of_generated (generateStep_spec hexamined generate)
    exact ⟨haccounted, hgenerated, hnothing, hartifacts⟩
  | exported accepted goes generate errors some =>
    obtain ⟨haccounted, hgenerated, hnothing, hartifacts⟩ :=
      isolated_of_generated (generateStep_spec hexamined generate)
    exact ⟨haccounted, hgenerated, hnothing, hartifacts⟩

/-! ## Two runs -/

/-- The files of a report that belong to entities are all but the last. -/
theorem Isolated.dropLast_artifacts (h : Isolated doc r) :
    r.artifacts.dropLast = (comeAbout doc.config doc.entities).flatMap Prod.snd := by
  by_cases hnil : r.generatedEntities = []
  · have hnone := hnil
    rw [h.generated, List.map_eq_nil_iff] at hnone
    rw [h.nothing hnil, hnone]
    rfl
  · obtain ⟨root, hartifacts, -, -⟩ := h.artifacts hnil
    rw [hartifacts, List.dropLast_concat]

/-- Two reports agree on a name when they record the same files of its entities, and say as often
that it was generated and that it failed. -/
structure AgreeOn (n : String) (r r' : Report) : Prop where
  artifacts : r.artifacts.dropLast.filter (fun a => a.entity = n) =
    r'.artifacts.dropLast.filter (fun a => a.entity = n)
  generated : r.generatedEntities.count n = r'.generatedEntities.count n
  failed : r.failedEntities.count n = r'.failedEntities.count n

/-- Two reports agree on a name that their documents declare alike. -/
theorem Isolated.agreeOn {n : String} (h : Isolated doc r) (h' : Isolated doc' r')
    (hconfig : doc.config = doc'.config)
    (hsame : doc.entities.filter (fun d => d.name = n) =
      doc'.entities.filter (fun d => d.name = n)) : AgreeOn n r r' := by
  have hcount {α : Type} (name : α → String) (as : List α) :
      (as.map name).count n = (as.filter fun a => name a = n).length := by
    rw [List.count, List.countP_map, List.countP_eq_length_filter]
    rfl
  have hgenerated : r.generatedEntities.count n = r'.generatedEntities.count n := by
    rw [h.generated, h'.generated, hcount, hcount, filter_comeAbout, filter_comeAbout, hsame,
      hconfig]
  have hdeclared : (doc.entities.map EntityDeclaration.name).count n =
      (doc'.entities.map EntityDeclaration.name).count n := by
    rw [hcount, hcount, hsame]
  constructor
  case artifacts =>
    rw [h.dropLast_artifacts, h'.dropLast_artifacts, filter_files_comeAbout,
      filter_files_comeAbout, hsame, hconfig]
  case generated => exact hgenerated
  case failed =>
    have hall := h.accounted.count_eq n
    have hall' := h'.accounted.count_eq n
    rw [List.count_append] at hall hall'
    omega

end Generator

end EntityForge
