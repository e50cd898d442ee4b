import EntityForge.Proofs.ArtifactPath
import EntityForge.Proofs.Origin
import EntityForge.Proofs.Relation
import EntityForge.Proofs.Resolution

/-!
# Importable packages

All import lines of all files can be read exactly if the parts of the entities that go into them can
stand there: the name and its snake-case form, the names of projections and of related entities, and
the paths of the error class and of the types of commands. None of them is checked against the
keywords, and some are not checked at all.
-/

namespace EntityForge.Package

open Source

variable {c : GenerationConfig} {runtime : String} {e : Entity} {es : List Entity}
  {as : List Artifact} {k : ModuleKind} {m : Module} {ms : List (ModuleKind × Module)}

/-! ## Parts of import lines -/

/-- The types that a command declares for its payload and its result. -/
def declaredTypes (c : Command) : List String :=
  c.externalPayload?.toList ++ (nonEmpty? c.resultType).toList

/-- The parts of an entity that go into import lines can stand there. -/
structure Importable (e : Entity) : Prop where
  name : isNameList e.name.toList = true
  package : isProper e.snakeName.toList = true
  related : e.hasRepository = true → ∀ target ∈ relatives e, target ≠ e.name →
    target ∉ keywords ∧
      (Text.snakeCase target = "" ∨ isProper (Text.snakeCase target).toList = true)
  projections : e.hasRepository = true → ∀ p ∈ e.livingProjections,
    isNameList (p.structName e.name).toList = true
  error : e.hasBackend = true → ∀ path ∈ (nonEmpty? e.errorType).toList, PathFits path
  commands : e.hasCommands = true → ∀ c ∈ e.commands, ∀ t ∈ declaredTypes c, PathFits t

theorem importable_iff : Importable e ↔
    isNameList e.name.toList = true ∧ isProper e.snakeName.toList = true ∧
      (e.hasRepository = true → ∀ target ∈ relatives e, target ≠ e.name →
        target ∉ keywords ∧
          (Text.snakeCase target = "" ∨ isProper (Text.snakeCase target).toList = true)) ∧
      (e.hasRepository = true → ∀ p ∈ e.livingProjections,
        isNameList (p.structName e.name).toList = true) ∧
      (e.hasBackend = true → ∀ path ∈ (nonEmpty? e.errorType).toList, PathFits path) ∧
      (e.hasCommands = true → ∀ c ∈ e.commands, ∀ t ∈ declaredTypes c, PathFits t) :=
  ⟨fun h => ⟨h.name, h.package, h.related, h.projections, h.error, h.commands⟩,
    fun ⟨hn, hp, hr, hj, he, hc⟩ => ⟨hn, hp, hr, hj, he, hc⟩⟩

instance : DecidablePred Importable := fun _ => decidable_of_iff _ importable_iff.symm

/-- Among names, those that are no keywords are identifiers. -/
theorem isNameList_iff_not_mem_keywords {s : String} (h : Text.isName s.toList = true) :
    isNameList s.toList = true ↔ s ∉ keywords := by
  rw [isNameList_of_no_comma (comma_not_mem (Text.spelled_of_isName h)), isProper, h,
    Bool.true_and, String.ofList_toList, Bool.not_eq_true', Bool.eq_false_iff, ne_eq,
    List.contains_iff_mem]

/-- A related entity is imported from its own package, or from the entity's own module. -/
theorem fits_related {target : String} (htarget : Text.isName target.toList = true)
    (hname : isNameList e.name.toList = true) : Fits (e.relatedModule target, [target]) ↔
      (target ≠ e.name → target ∉ keywords ∧
        (Text.snakeCase target = "" ∨ isProper (Text.snakeCase target).toList = true)) := by
  rw [fits_one, Entity.relatedModule]
  split
  · rename_i heq
    exact iff_of_true ⟨by decide, heq ▸ hname⟩ fun hne => absurd heq hne
  · rename_i hne
    have hmodule := isModulePath_related (Text.spelled_snakeCase target)
    rw [isNameList_iff_not_mem_keywords htarget, and_comm, forall_prop_of_true hne]
    exact and_congr_right fun _ => hmodule

/-- Of what a command yields, only the declared types are imported if the entity has a name. -/
theorem fits_commandTypeImports {c : Command} (hname : isNameList e.name.toList = true) :
    Every Fits (commandTypeImports e c) ↔ ∀ t ∈ declaredTypes c, PathFits t := by
  have htypes (o : Option String) : Every Fits ((o.map pathRegistrations).getD []) ↔
      ∀ t ∈ o.toList, PathFits t :=
    every_getD_map.trans (forall₂_congr fun _ _ => fits_pathRegistrations)
  have hresult : (∀ t ∈ (c.resultFor e.name).toList, PathFits t) ↔
      ∀ t ∈ (nonEmpty? c.resultType).toList, PathFits t := by
    cases hd : nonEmpty? c.resultType with
    | some t =>
      have htype : c.resultFor e.name = some t := by simp [Command.resultFor, hd]
      rw [htype]
    | none =>
      refine iff_of_true (fun t ht => ?_) (List.forall_mem_nil _)
      obtain rfl := eq_of_resultFor hd (Option.mem_toList.mp ht)
      -- The name of the entity is no path, and nothing is registered for it.
      rw [← fits_pathRegistrations, pathRegistrations_of_no_dot (dot_not_mem_nameList hname)]
      exact List.forall_mem_nil _
  rw [declaredTypes, List.forall_mem_append, ← hresult, ← htypes, ← htypes]
  exact List.forall_mem_append

/-! ## Registrations -/

theorem names_ne_nil_of_origin {r : Registration} (h : Origin e r) : r.2 ≠ [] := by
  cases h with
  | own named fits => exact named
  | related asked relative => exact List.cons_ne_nil _ _
  | projection asked living => exact List.cons_ne_nil _ _
  | error asked declared registered => exact names_ne_nil_pathRegistrations r registered
  | command asked declared registered =>
    have htypes (o : Option String) :
        Every (fun r => r.2 ≠ []) ((o.map pathRegistrations).getD []) :=
      every_getD_map.mpr fun _ _ => names_ne_nil_pathRegistrations
    exact (htypes _).append (htypes _) r registered

/-- The names of related entities are names. -/
theorem relative_isName (he : e.IsBuilt) {target : String} (h : target ∈ relatives e) :
    Text.isName target.toList = true := by
  obtain ⟨d, strict, notes, hb⟩ := he
  rcases List.mem_append.mp h with h | h
  · obtain ⟨f, hf, rfl⟩ := mem_parentFields.mp h
    obtain ⟨hmem, hrelation⟩ := List.mem_filter.mp hf
    obtain ⟨parent, hp⟩ := Option.isSome_iff_exists.mp hrelation
    have hname := Build.parent_isName_of_build hb hmem hp
    rwa [Field.parent, hp]
  · exact Build.child_isName_of_build hb target h

/-- Whatever an importable entity registers can be written. -/
theorem fits_of_origin (he : e.IsBuilt) (hi : Importable e) {r : Registration} (h : Origin e r) :
    Fits r := by
  cases h with
  | own named fits => exact fits hi.name
  | related asked relative =>
    exact (fits_related (relative_isName he relative) hi.name).mpr (hi.related asked _ relative)
  | projection asked living => exact fits_one.mpr ⟨by decide, hi.projections asked _ living⟩
  | error asked declared registered =>
    have hpath := hi.error asked _ (Option.mem_toList.mpr declared)
    exact fits_pathRegistrations.mpr hpath r registered
  | command asked declared registered =>
    exact (fits_commandTypeImports hi.name).mpr (hi.commands asked _ declared) r registered

/-- What the methods of a repository need is registered by its module. -/
theorem related_mem_methodImports {target : String} (h : target ∈ relatives e) :
    (e.relatedModule target, [target]) ∈ methodImports e := by
  refine List.mem_append_left _ ?_
  rcases List.mem_append.mp h with h | h
  · obtain ⟨f, hf, rfl⟩ := List.mem_map.mp h
    exact List.mem_append_left _ (List.mem_append_right _ (List.mem_map.mpr ⟨f, hf, rfl⟩))
  · exact List.mem_append_right _ (List.mem_map.mpr ⟨target, h, rfl⟩)

theorem projection_mem_methodImports {p : Projection} (h : p ∈ e.livingProjections) :
    (".dto", [p.structName e.name]) ∈ methodImports e :=
  List.mem_append_right _ (List.mem_map.mpr ⟨p, h, rfl⟩)

theorem error_mem_backendImports {path : String} (h : nonEmpty? e.errorType = some path)
    {r : Registration} (hr : r ∈ pathRegistrations path) : r ∈ backendImports runtime e := by
  refine List.mem_append_left _ (List.mem_append_right _ ?_)
  rw [h, Option.map_some, Option.getD_some]
  exact List.mem_cons_of_mem _ hr

/-- An entity is importable if everything can be written that its files register. -/
theorem importable_of_fits (he : e.IsBuilt)
    (hmodules : ∀ k m, asksFor e k = true → moduleFor runtime e k = some m → Every Fits m.imports)
    (hinit : Every Fits (packageExports e)) (hroot : Fits (".", [e.snakeName])) :
    Importable e := by
  have hentity : (".entity", [e.name]) ∈ packageExports e :=
    List.mem_append_left _ (List.mem_append_left _ List.mem_cons_self)
  have hname : isNameList e.name.toList = true := (fits_one.mp (hinit _ hentity)).2
  have hmethods (h : e.hasRepository = true) : Every Fits (methodImports e) := fun r hr =>
    hmodules .repository _ h rfl r (List.mem_cons_of_mem _ hr)
  refine ⟨hname, ?_, fun h target ht => ?_, fun h p hp => ?_, fun h path hpath => ?_,
    fun h c hc => ?_⟩
  · have hcomma := comma_not_mem (Text.spelled_snakeCase e.name)
    exact (isNameList_of_no_comma hcomma).symm.trans (fits_one.mp hroot).2
  · exact (fits_related (relative_isName he ht) hname).mp
      (hmethods h _ (related_mem_methodImports ht))
  · exact (fits_one.mp (hmethods h _ (projection_mem_methodImports hp))).2
  · exact fits_pathRegistrations.mp fun r hr =>
      hmodules .backend _ h rfl r (error_mem_backendImports (Option.mem_toList.mp hpath) hr)
  · obtain ⟨m, hm, -⟩ := @introduces_commands runtime _ h
    exact (fits_commandTypeImports hname).mp fun r hr =>
      hmodules .commands m h hm r (commandTypeImports_subset hm hc hr)

/-! ## Files -/

/-- A text made of lines, of which this is one. -/
def HasLine (text line : String) : Prop :=
  ∃ before behind, text = "\n".intercalate (before ++ line :: behind) ++ "\n"

theorem hasLine_of_mem {line : String} {lines : List String} (h : line ∈ lines) :
    HasLine ("\n".intercalate lines ++ "\n") line := by
  obtain ⟨before, behind, rfl⟩ := List.append_of_mem h
  exact ⟨before, behind, rfl⟩

/-- Only blank lines are left out at the end. -/
theorem mem_dropTrailingBlank {line : String} {lines : List String} (h : line ∈ lines)
    (hblank : Text.isAllBlank line.toList = false) : line ∈ dropTrailingBlank lines := by
  rw [dropTrailingBlank, List.mem_reverse]
  have hall : line ∈ lines.reverse.takeWhile (fun l => Text.isAllBlank l.toList) ++
      lines.reverse.dropWhile fun l => Text.isAllBlank l.toList := by
    rwa [List.takeWhile_append_dropWhile, List.mem_reverse]
  refine (List.mem_append.mp hall).resolve_left fun htake => ?_
  have hline := List.mem_takeWhile_imp htake
  exact Bool.false_ne_true (hblank.symm.trans hline)

theorem isAllBlank_importLine (r : Registration) :
    Text.isAllBlank (ImportTable.line r).toList = false := by
  rw [ImportTable.line]
  split
  · rw [String.toList_append]
    rfl
  · simp only [String.toList_append, List.append_assoc]
    rfl

/-- The import lines of a module, of which the first is the same everywhere. -/
def importLines (m : Module) : List String :=
  "from __future__ import annotations" :: m.importTable.block

theorem hasLine_module {line : String} (h : line ∈ importLines m) : HasLine m.text line := by
  have hblank : Text.isAllBlank line.toList = false := by
    rcases List.mem_cons.mp h with rfl | h
    · decide
    · obtain ⟨r, -, rfl⟩ := List.mem_map.mp h
      exact isAllBlank_importLine r
  rw [Module.text, moduleText]
  refine hasLine_of_mem (mem_dropTrailingBlank ?_ hblank)
  simp only [List.mem_append]
  rcases List.mem_cons.mp h with rfl | h
  · exact Or.inl (Or.inl (Or.inl (Or.inr (by simp))))
  · have hne : m.importTable.block.isEmpty = false :=
      List.isEmpty_eq_false_iff.mpr (List.ne_nil_of_mem h)
    refine Or.inl (Or.inl (Or.inr ?_))
    rw [hne, if_neg Bool.false_ne_true]
    exact List.mem_cons_of_mem _ h

theorem hasLine_init {name line : String} {exports : List String} (h : line ∈ exports) :
    HasLine (initText name exports) line := by
  refine hasLine_of_mem (List.mem_append_right _ ?_)
  rw [List.isEmpty_eq_false_iff.mpr (List.ne_nil_of_mem h), if_neg Bool.false_ne_true]
  exact List.mem_cons_of_mem _ h

/-- The files with code that are generated for some entities, each with its import lines. -/
inductive Imports (c : GenerationConfig) (es : List Entity) : Artifact → List String → Prop
  | module {e : Entity} {ms : List (ModuleKind × Module)} {k : ModuleKind} {m : Module}
    (entity : e ∈ es) (generated : modules c.runtimeModule e = .ok ms) (mem : (k, m) ∈ ms) :
    Imports c es ⟨directory c e ++ "/" ++ k.file, m.text, e.name, k.name⟩ (importLines m)
  | package {e : Entity} (entity : e ∈ es) :
    Imports c es ⟨directory c e ++ "/__init__.py", packageInit e, e.name, "package"⟩
      ((packageExports e).map ImportTable.line)
  | root : Imports c es (rootInit c es) ((rootExports es).map ImportTable.line)

theorem Imports.hasLine {a : Artifact} {lines : List String} (h : Imports c es a lines) :
    ∀ l ∈ lines, HasLine a.content l := by
  cases h with
  | module entity generated mem => exact fun l hl => hasLine_module hl
  | package entity => exact fun l hl => hasLine_init hl
  | root => exact fun l hl => hasLine_init hl

theorem kind_of_mem_migrationFiles {a : Artifact} (h : a ∈ migrationFiles c e) :
    a.kind = "migration" := by
  simp only [migrationFiles] at h
  split at h
  · simp only [List.mem_cons, List.not_mem_nil, or_false] at h
    rcases h with rfl | rfl <;> rfl
  · exact absurd h List.not_mem_nil

/-- All files but the migrations are files with code. -/
theorem exists_imports_iff (ha : allArtifacts c es = .ok as) (a : Artifact) :
    (∃ lines, Imports c es a lines) ↔ a ∈ as ∧ a.kind ≠ "migration" := by
  obtain ⟨own, hown, ha⟩ := exists_of_bind_eq_ok ha
  obtain ⟨hgenerates, rfl⟩ := artifactsOf_eq_ok hown
  obtain rfl := Except.ok.inj ha
  have hfiles {e : Entity} (he : e ∈ es) : ∃ ms, modules c.runtimeModule e = .ok ms ∧
      ownArtifacts c e = [⟨directory c e ++ "/__init__.py", packageInit e, e.name, "package"⟩] ++
        ms.map (fun m => ⟨directory c e ++ "/" ++ m.1.file, m.2.text, e.name, m.1.name⟩) ++
        migrationFiles c e := by
    obtain ⟨files, hfiles⟩ := hgenerates e he
    obtain ⟨ms, hms, hall⟩ := exists_of_bind_eq_ok hfiles
    exact ⟨ms, hms, (ownArtifacts_eq hfiles).trans (Except.ok.inj hall).symm⟩
  have hown {e : Entity} (he : e ∈ es) {b : Artifact} (hb : b ∈ ownArtifacts c e) :
      b ∈ es.flatMap (ownArtifacts c) ++ [rootInit c es] :=
    List.mem_append_left _ (List.mem_flatMap.mpr ⟨e, he, hb⟩)
  constructor
  · rintro ⟨lines, h⟩
    cases h with
    | @module e ms k m entity generated mem =>
      obtain ⟨ms', hms, hall⟩ := hfiles entity
      obtain rfl := Except.ok.inj (generated.symm.trans hms)
      have hkind : k.name ≠ "migration" := by cases k <;> decide
      refine ⟨hown entity ?_, hkind⟩
      rw [hall]
      exact List.mem_append_left _ (List.mem_append_right _ (List.mem_map.mpr ⟨(k, m), mem, rfl⟩))
    | package entity =>
      obtain ⟨ms, -, hall⟩ := hfiles entity
      refine ⟨hown entity ?_, (by decide : "package" ≠ "migration")⟩
      rw [hall]
      exact List.mem_append_left _ (List.mem_append_left _ List.mem_cons_self)
    | root => exact ⟨List.mem_append_right _ (List.mem_singleton_self _),
        (by decide : "package" ≠ "migration")⟩
  · rintro ⟨ha, hkind⟩
    rcases List.mem_append.mp ha with ha | ha
    · obtain ⟨e, he, ha⟩ := List.mem_flatMap.mp ha
      obtain ⟨ms, hms, hall⟩ := hfiles he
      rw [hall] at ha
      rcases List.mem_append.mp ha with ha | ha
      · rcases List.mem_append.mp ha with ha | ha
        · rw [List.mem_singleton.mp ha]
          exact ⟨_, .package he⟩
        · obtain ⟨⟨k, m⟩, hm, rfl⟩ := List.mem_map.mp ha
          exact ⟨_, .module he hms hm⟩
      · exact absurd (kind_of_mem_migrationFiles ha) hkind
    · rw [List.mem_singleton.mp ha]
      exact ⟨_, .root⟩

/-- The import lines of a module can be read exactly if all it registers can be written. -/
theorem wellFormed_importLines (hruntime : isDottedPath c.runtimeModule.toList = true)
    (hms : modules c.runtimeModule e = .ok ms) (hm : (k, m) ∈ ms) :
    (∀ l ∈ importLines m, WellFormed l) ↔ Every Fits m.imports := by
  obtain ⟨ha, hfor⟩ := (mem_modules hms).mp hm
  have hne : ∀ r ∈ m.imports, r.2 ≠ [] := fun r hr =>
    names_ne_nil_of_origin (origin_imports hruntime ha hfor r hr)
  have hfuture : WellFormed "from __future__ import annotations" := by
    have hfits : Fits ("__future__", ["annotations"]) := by decide
    exact (wellFormed_line hfits.2.1).mpr hfits
  rw [importLines, List.forall_mem_cons, and_iff_right hfuture]
  exact ImportTable.wellFormed_block hne

theorem wellFormed_exports {rs : List Registration} (h : Every (fun r => r.2 ≠ []) rs) :
    (∀ l ∈ rs.map ImportTable.line, WellFormed l) ↔ Every Fits rs := by
  rw [List.forall_mem_map]
  exact forall₂_congr fun r hr => wellFormed_line (h r hr)

theorem origin_packageExports : AllOrigin e (packageExports e) :=
  .append (.append (.single origin_entity) (.ifThen fun _ => .single origin_repository))
    (.ifThen fun _ => .single origin_backendName)

theorem wellFormed_packageExports :
    (∀ l ∈ (packageExports e).map ImportTable.line, WellFormed l) ↔ Every Fits (packageExports e) :=
  wellFormed_exports fun r hr => names_ne_nil_of_origin (origin_packageExports r hr)

theorem wellFormed_rootExports :
    (∀ l ∈ (rootExports es).map ImportTable.line, WellFormed l) ↔ Every Fits (rootExports es) :=
  wellFormed_exports (.map fun _ _ => List.cons_ne_nil _ _)

/-- The files generated for entities that are built are those with their import lines and the
migrations. All import lines can be read exactly if all entities are importable. -/
theorem imports_well_formed_iff (hes : ∀ e ∈ es, e.IsBuilt)
    (hruntime : isDottedPath c.runtimeModule.toList = true) (ha : allArtifacts c es = .ok as) :
    (∀ a, (∃ lines, Imports c es a lines) ↔ a ∈ as ∧ a.kind ≠ "migration") ∧
      (∀ a lines, Imports c es a lines → ∀ l ∈ lines, HasLine a.content l) ∧
      ((∀ a lines, Imports c es a lines → ∀ l ∈ lines, WellFormed l) ↔
        ∀ e ∈ es, Importable e) := by
  refine ⟨exists_imports_iff ha, fun a lines h => h.hasLine, fun h e he => ?_,
    fun h a lines hlines => ?_⟩
  · -- Each part of the entity stands in an import line of some file.
    obtain ⟨own, hown, -⟩ := exists_of_bind_eq_ok ha
    obtain ⟨files, hfiles⟩ := (artifactsOf_eq_ok hown).1 e he
    obtain ⟨ms, hms, -⟩ := exists_of_bind_eq_ok hfiles
    have hmodules (k : ModuleKind) (m : Module) (hk : asksFor e k = true)
        (hm : moduleFor c.runtimeModule e k = some m) : Every Fits m.imports := by
      have hmem := (mem_modules hms).mpr ⟨hk, hm⟩
      exact (wellFormed_importLines hruntime hms hmem).mp (h _ _ (.module he hms hmem))
    have hinit := wellFormed_packageExports.mp (h _ _ (.package he))
    have hroot := wellFormed_rootExports.mp (h _ _ .root)
    exact importable_of_fits (hes e he) hmodules hinit (hroot _ (List.mem_map.mpr ⟨e, he, rfl⟩))
  · cases hlines with
    | @module e ms k m he hms hm =>
      obtain ⟨hk, hfor⟩ := (mem_modules hms).mp hm
      exact (wellFormed_importLines hruntime hms hm).mpr fun r hr =>
        fits_of_origin (hes e he) (h e he) (origin_imports hruntime hk hfor r hr)
    | @package e he =>
      exact wellFormed_packageExports.mpr fun r hr =>
        fits_of_origin (hes e he) (h e he) (origin_packageExports r hr)
    | root =>
      refine wellFormed_rootExports.mpr (.map fun e he => ?_)
      exact fits_one.mpr ⟨by decide, isNameList_of_isProper (h e he).package⟩

/-- The order alone, whose import lines have parts of every kind. -/
def orderDocument : Document where
  entities := [orderDeclaration]

/-- The order is importable, with all its files. -/
theorem imports_well_formed_order :
    isDottedPath ({} : GenerationConfig).runtimeModule.toList = true ∧
      (∃ e ∈ orderDocument.built, (moduleKinds e).length = 11 ∧ relatives e ≠ [] ∧
        e.livingProjections ≠ [] ∧ ∃ c ∈ e.commands, declaredTypes c ≠ []) ∧
      ∃ as, allArtifacts {} orderDocument.built = .ok as ∧
        ∀ a lines, Imports {} orderDocument.built a lines → ∀ l ∈ lines, WellFormed l := by
  have hruntime : isDottedPath ({} : GenerationConfig).runtimeModule.toList = true := by decide
  have hgenerates : ∀ e ∈ orderDocument.built, Generates {} e := by decide +kernel
  have hparts : ∃ e ∈ orderDocument.built, (moduleKinds e).length = 11 ∧ relatives e ≠ [] ∧
      e.livingProjections ≠ [] ∧ ∃ c ∈ e.commands, declaredTypes c ≠ [] := by
    decide +kernel
  have hne : orderDocument.built ≠ [] := by
    obtain ⟨e, he, -⟩ := hparts
    exact List.ne_nil_of_mem he
  have hall := allArtifacts_eq_ok hne hgenerates
  obtain ⟨-, -, hiff⟩ := imports_well_formed_iff (fun e => Document.isBuilt_of_mem) hruntime hall
  exact ⟨hruntime, hparts, _, hall, hiff.mpr (by decide +kernel)⟩

/-- An entity whose name in snake case is a keyword. -/
def classDocument : Document where
  entities := [
    { name := "Class"
      attributes := [(.text "table", .text "classes")]
      fields := some [
        { name := some "id", type := "uuid", attributes := [(.text "id", .bool true)] }] }]

/-- Nothing is found about the entity, but the root package imports a keyword. -/
theorem imports_ill_formed_class :
    classDocument.built.map Entity.name = ["Class"] ∧
      (Validation.document classDocument.built false).Quiet ∧
      isDottedPath ({} : GenerationConfig).runtimeModule.toList = true ∧
      ∃ as, allArtifacts {} classDocument.built = .ok as ∧
        ∃ a ∈ as, ∃ lines, Imports {} classDocument.built a lines ∧
          "from . import class" ∈ lines ∧ HasLine a.content "from . import class" ∧
          ¬ WellFormed "from . import class" := by
  have hnames : classDocument.built.map Entity.name = ["Class"] := by decide +kernel
  have hquiet : (Validation.document classDocument.built false).Quiet := by decide +kernel
  have hgenerates : ∀ e ∈ classDocument.built, Generates {} e := by decide +kernel
  have hne : classDocument.built ≠ [] := by
    intro hnil
    rw [hnil] at hnames
    exact absurd hnames (by decide)
  have hline : "from . import class" ∈ (rootExports classDocument.built).map ImportTable.line := by
    decide +kernel
  have hall := allArtifacts_eq_ok hne hgenerates
  have hroot : Imports {} classDocument.built (rootInit {} classDocument.built)
      ((rootExports classDocument.built).map ImportTable.line) := .root
  refine ⟨hnames, hquiet, by decide, _, hall, _, ((exists_imports_iff hall _).mp ⟨_, hroot⟩).1, _,
    hroot, hline, hroot.hasLine _ hline, fun h => ?_⟩
  have hfits : Fits (".", ["class"]) := (wellFormed_line (List.cons_ne_nil _ _)).mp h
  exact absurd hfits (by decide)

end EntityForge.Package
