import EntityForge.Proofs.Generation
import EntityForge.Proofs.Relation

/-!
# When the paths of files are distinct

The files of an entity lie in a directory named after it in snake case, and its migration is named
after its schema and its table, joined by an underscore. Both forms can be those of other entities
too. The files of several entities have distinct paths exactly when this does not happen: the files
of one entity never meet, nor do its modules meet a migration or the file of the root package.
-/

namespace EntityForge.Package

open Text

variable {c : GenerationConfig} {e e' : Entity} {es : List Entity} {as : List Artifact}
  {paths paths' : List String} {file file' ending ending' : String}

/-! ## Paths of single files -/

/-- The path of a file in the package of an entity. -/
def packagePath (c : GenerationConfig) (e : Entity) (file : String) : String :=
  directory c e ++ "/" ++ file

/-- The name of the migration of an entity. -/
def migrationName (e : Entity) : String := (Postgres.migration e).name

/-- The path of a script of an entity's migration. -/
def migrationPath (c : GenerationConfig) (e : Entity) (ending : String) : String :=
  migrationsDirectory c ++ "/" ++ (migrationName e ++ ending)

/-- The path of the file of the root package. -/
def rootPath (c : GenerationConfig) : String := c.packageName ++ "/__init__.py"

/-- The endings of the scripts of a migration. -/
def migrationEndings : List String := [".up.sql", ".down.sql"]

/-- A file of a package: its name has no slash, and it is no script of a migration. -/
structure IsPackageFile (file : String) : Prop where
  no_slash : '/' ∉ file.toList
  last : file.toList.getLast? = some 'y'

theorem isPackageFile_init : IsPackageFile "__init__.py" := ⟨by decide, by decide⟩

theorem isPackageFile_module (k : ModuleKind) : IsPackageFile k.file := by
  cases k <;> exact ⟨by decide, by decide⟩

theorem file_inj {k l : ModuleKind} : k.file = l.file ↔ k = l := by
  cases k <;> cases l <;> decide

theorem init_ne_file (k : ModuleKind) : "__init__.py" ≠ k.file := by
  cases k <;> decide

/-- There is one way to split a path at its last slash. -/
theorem append_slash_inj {a b f g : List Char} (hf : '/' ∉ f) (hg : '/' ∉ g) :
    a ++ '/' :: f = b ++ '/' :: g ↔ a = b ∧ f = g := by
  constructor
  · intro h
    rcases List.append_eq_append_iff.mp h with ⟨between, rfl, hbetween⟩ | ⟨between, rfl, hbetween⟩
    · cases between with
      | nil => exact ⟨(List.append_nil a).symm, List.tail_eq_of_cons_eq hbetween⟩
      | cons x xs => exact absurd (List.tail_eq_of_cons_eq hbetween ▸ by simp) hf
    · cases between with
      | nil => exact ⟨List.append_nil b, (List.tail_eq_of_cons_eq hbetween).symm⟩
      | cons x xs => exact absurd (List.tail_eq_of_cons_eq hbetween ▸ by simp) hg
  · rintro ⟨rfl, rfl⟩
    rfl

theorem toList_packagePath : (packagePath c e file).toList =
    (c.packageName.toList ++ '/' :: e.snakeName.toList) ++ '/' :: file.toList := by
  have hdirectory : directory c e = c.packageName ++ "/" ++ e.snakeName := rfl
  rw [packagePath, hdirectory]
  simp

/-- Files of packages are the same only in the same directory. -/
theorem packagePath_inj (h : IsPackageFile file) (h' : IsPackageFile file') :
    packagePath c e file = packagePath c e' file' ↔ e.snakeName = e'.snakeName ∧ file = file' := by
  rw [← String.toList_inj, toList_packagePath, toList_packagePath,
    append_slash_inj h.no_slash h'.no_slash, List.append_cancel_left_eq, List.cons.injEq,
    String.toList_inj, String.toList_inj]
  simp only [true_and]

/-- The file of the root package lies in no directory of an entity. -/
theorem packagePath_ne_rootPath : packagePath c e file ≠ rootPath c := by
  intro h
  have hrest : '/' ∈ "__init__.py".toList := by
    have hlists := String.toList_inj.mpr h
    rw [toList_packagePath, rootPath, String.toList_append, List.append_assoc,
      List.append_cancel_left_eq] at hlists
    have htail := List.tail_eq_of_cons_eq (show _ :: _ = '/' :: "__init__.py".toList from hlists)
    rw [← htail]
    simp
  exact absurd hrest (by decide)

/-- A script that makes a table is never one that removes a table. -/
theorem upScript_ne_downScript {name name' : String} :
    name ++ ".up.sql" ≠ name' ++ ".down.sql" := by
  intro h
  have hfifth := congrArg (fun s : String => s.toList.reverse[4]?) h
  simp at hfifth

/-- Scripts of migrations are the same only for migrations of one name. -/
theorem migrationPath_inj (h : ending ∈ migrationEndings) (h' : ending' ∈ migrationEndings) :
    migrationPath c e ending = migrationPath c e' ending' ↔
      migrationName e = migrationName e' ∧ ending = ending' := by
  rw [migrationPath, migrationPath, String.append_right_inj]
  simp only [migrationEndings, List.mem_cons, List.not_mem_nil, or_false] at h h'
  rcases h with rfl | rfl <;> rcases h' with rfl | rfl
  · rw [String.append_left_inj, and_iff_left rfl]
  · exact iff_of_false upScript_ne_downScript fun h => absurd h.2 (by decide)
  · exact iff_of_false (Ne.symm upScript_ne_downScript) fun h => absurd h.2 (by decide)
  · rw [String.append_left_inj, and_iff_left rfl]

/-- The last character of a path with a last character of its own. -/
theorem getLast?_append (front : String) {last : Char} (h : file.toList.getLast? = some last) :
    (front ++ file).toList.getLast? = some last := by
  rw [String.toList_append, List.getLast?_append, h, Option.some_or]

/-- No script of a migration is a file of a package, wherever they lie. -/
theorem migrationPath_ne {front : String} (h : ending ∈ migrationEndings)
    (hfile : file.toList.getLast? = some 'y') : front ++ file ≠ migrationPath c e ending := by
  have hlast : ∀ other ∈ migrationEndings, other.toList.getLast? = some 'l' := by decide
  intro heq
  have hends := getLast?_append front hfile
  rw [heq, migrationPath, getLast?_append _ (getLast?_append _ (hlast ending h))] at hends
  exact absurd hends (by decide)

/-! ## Paths of an entity -/

/-- The paths of the files of an entity. -/
structure OwnPaths (c : GenerationConfig) (e : Entity) (paths : List String) : Prop where
  nodup : paths.Nodup
  cases : ∀ p ∈ paths, (∃ file, IsPackageFile file ∧ p = packagePath c e file) ∨
    e.features.migrations = true ∧ ∃ ending ∈ migrationEndings, p = migrationPath c e ending
  init : packagePath c e "__init__.py" ∈ paths
  up : e.features.migrations = true → migrationPath c e ".up.sql" ∈ paths

/-- The modules of a package are of distinct kinds, each of which is asked for by itself. -/
theorem moduleKinds_nodup (e : Entity) : (moduleKinds e).Nodup := by
  have hgiven {ks all : List ModuleKind} (h : ks.Sublist all) (asked : Bool) (k : ModuleKind) :
      (ks ++ if asked then [k] else []).Sublist (all ++ [k]) := by
    refine h.append ?_
    cases asked <;> simp
  have hall := hgiven (hgiven (hgiven (hgiven (hgiven (hgiven (hgiven (hgiven (hgiven
    (List.Sublist.refl [.entity, .transfer])
    (e.hasRepository && e.hasFilters) .query) e.hasRepository .repository) e.hasBackend .backend)
    (e.features.events || e.features.streams) .events) e.hasCommands .commands)
    e.features.policy .policy) e.features.streams .streams) e.features.hooks .hooks)
    (e.features.transactions && e.hasBackend) .transactions
  exact List.Sublist.nodup hall (by decide)

theorem collectModules_sublist {runtime : String} {ks : List ModuleKind}
    {ms : List (ModuleKind × Source.Module)} (h : collectModules runtime e ks = .ok ms) :
    (ms.map Prod.fst).Sublist ks := by
  induction ks generalizing ms with
  | nil =>
    rw [← Except.ok.inj h]
    exact List.Sublist.refl _
  | cons k ks ih =>
    obtain ⟨found, -, h⟩ := exists_of_bind_eq_ok h
    obtain ⟨rest, hrest, h⟩ := exists_of_bind_eq_ok h
    rw [← Except.ok.inj h, List.map_append, ← List.singleton_append]
    refine List.Sublist.append ?_ (ih hrest)
    cases found <;> simp

/-- The files of an entity are those of its modules and the scripts of its migration. -/
theorem map_path_entityArtifacts (h : entityArtifacts c e = .ok as) :
    ∃ kinds : List ModuleKind, kinds.Nodup ∧ as.map Artifact.path =
      ("__init__.py" :: kinds.map ModuleKind.file).map (packagePath c e) ++
        if e.features.migrations then migrationEndings.map (migrationPath c e) else [] := by
  obtain ⟨ms, hms, h⟩ := exists_of_bind_eq_ok h
  have hcollect : collectModules c.runtimeModule e (moduleKinds e) = .ok ms := by
    simp only [modules] at hms
    split at hms
    · obtain ⟨-, -, hms⟩ := exists_of_bind_eq_ok hms
      exact hms
    · exact hms
  refine ⟨ms.map Prod.fst, (collectModules_sublist hcollect).nodup (moduleKinds_nodup e), ?_⟩
  have hmigrations : (migrationFiles c e).map Artifact.path =
      if e.features.migrations then migrationEndings.map (migrationPath c e) else [] := by
    rw [migrationFiles]
    split <;> rfl
  have hinit : directory c e ++ "/__init__.py" = packagePath c e "__init__.py" := by
    rw [packagePath, String.append_assoc]
    rfl
  rw [← Except.ok.inj h]
  simp only [List.map_append, hmigrations, List.map_cons, List.map_nil, List.map_map, hinit]
  rfl

theorem ownPaths (h : entityArtifacts c e = .ok as) : OwnPaths c e (as.map Artifact.path) := by
  obtain ⟨kinds, hkinds, hpaths⟩ := map_path_entityArtifacts h
  rw [hpaths]
  have hfiles : ∀ file ∈ "__init__.py" :: kinds.map ModuleKind.file, IsPackageFile file := by
    intro file hfile
    rcases List.mem_cons.mp hfile with rfl | hfile
    · exact isPackageFile_init
    · obtain ⟨k, -, rfl⟩ := List.mem_map.mp hfile
      exact isPackageFile_module k
  have hscripts : ∀ p ∈ (if e.features.migrations then migrationEndings.map (migrationPath c e)
      else []), e.features.migrations = true ∧
        ∃ ending ∈ migrationEndings, p = migrationPath c e ending := by
    intro p hp
    split at hp
    · rename_i hasked
      obtain ⟨ending, hending, rfl⟩ := List.mem_map.mp hp
      exact ⟨hasked, ending, hending, rfl⟩
    · exact nomatch hp
  constructor
  case nodup =>
    refine List.nodup_append.mpr ⟨?_, ?_, ?_⟩
    · refine List.Nodup.map_on (fun file hfile file' hfile' heq => ?_) ?_
      · exact ((packagePath_inj (hfiles file hfile) (hfiles file' hfile')).mp heq).2
      · refine List.nodup_cons.mpr ⟨fun hinit => ?_, hkinds.map fun k l hkl => file_inj.mp hkl⟩
        obtain ⟨k, -, hk⟩ := List.mem_map.mp hinit
        exact init_ne_file k hk.symm
    · split
      · refine List.Nodup.map_on (fun ending hending ending' hending' heq => ?_) (by decide)
        exact ((migrationPath_inj hending hending').mp heq).2
      · exact List.nodup_nil
    · rintro p hp _ hscript rfl
      obtain ⟨file, hfile, rfl⟩ := List.mem_map.mp hp
      obtain ⟨-, ending, hending, heq⟩ := hscripts _ hscript
      exact migrationPath_ne hending (hfiles file hfile).last heq
  case cases =>
    intro p hp
    rcases List.mem_append.mp hp with hp | hp
    · obtain ⟨file, hfile, rfl⟩ := List.mem_map.mp hp
      exact Or.inl ⟨file, hfiles file hfile, rfl⟩
    · exact Or.inr (hscripts p hp)
  case init =>
    exact List.mem_append_left _ (List.mem_map.mpr ⟨_, List.mem_cons_self, rfl⟩)
  case up =>
    intro hasked
    rw [if_pos hasked]
    exact List.mem_append_right _ (List.mem_map.mpr ⟨".up.sql", by decide, rfl⟩)

/-- The file of the root package is none of an entity. -/
theorem OwnPaths.rootPath_not_mem (h : OwnPaths c e paths) : rootPath c ∉ paths := by
  intro hmem
  rcases h.cases _ hmem with ⟨file, -, hroot⟩ | ⟨-, ending, hending, hroot⟩
  · exact packagePath_ne_rootPath hroot.symm
  · exact migrationPath_ne hending (by decide : "/__init__.py".toList.getLast? = some 'y') hroot

/-- Two entities share no file exactly when their directories and their migrations differ. -/
theorem OwnPaths.disjoint_iff (h : OwnPaths c e paths) (h' : OwnPaths c e' paths') :
    paths.Disjoint paths' ↔ e.snakeName ≠ e'.snakeName ∧
      (e.features.migrations = true → e'.features.migrations = true →
        migrationName e ≠ migrationName e') := by
  constructor
  · intro hdisjoint
    refine ⟨fun hname => ?_, fun hasked hasked' hname => ?_⟩
    · refine hdisjoint h.init ?_
      rw [(packagePath_inj isPackageFile_init isPackageFile_init).mpr ⟨hname, rfl⟩]
      exact h'.init
    · refine hdisjoint (h.up hasked) ?_
      have hup : ".up.sql" ∈ migrationEndings := by decide
      rw [(migrationPath_inj hup hup).mpr ⟨hname, rfl⟩]
      exact h'.up hasked'
  · rintro ⟨hsnake, hmigration⟩ p hp hp'
    rcases h.cases p hp with ⟨file, hfile, rfl⟩ | ⟨hasked, ending, hending, rfl⟩
    · rcases h'.cases _ hp' with ⟨file', hfile', heq⟩ | ⟨-, ending, hending, heq⟩
      · exact hsnake ((packagePath_inj hfile hfile').mp heq).1
      · exact migrationPath_ne hending hfile.last heq
    · rcases h'.cases _ hp' with ⟨file', hfile', heq⟩ | ⟨hasked', ending', hending', heq⟩
      · exact migrationPath_ne hending hfile'.last heq.symm
      · exact hmigration hasked hasked' ((migrationPath_inj hending hending').mp heq).1

/-! ## Paths of several entities -/

/-- The files of several entities are those of each, if all of them can be generated. -/
theorem artifactsOf_eq_ok (h : artifactsOf c es = .ok as) :
    (∀ e ∈ es, Generates c e) ∧ as = es.flatMap (ownArtifacts c) := by
  induction es generalizing as with
  | nil => exact ⟨fun e he => (nomatch he), (Except.ok.inj h).symm⟩
  | cons e es ih =>
    obtain ⟨own, hown, h⟩ := exists_of_bind_eq_ok h
    obtain ⟨rest, hrest, h⟩ := exists_of_bind_eq_ok h
    obtain ⟨hes, rfl⟩ := ih hrest
    refine ⟨List.forall_mem_cons.mpr ⟨⟨own, hown⟩, hes⟩, ?_⟩
    rw [List.flatMap_cons, ownArtifacts_eq hown]
    exact (Except.ok.inj h).symm

/-- Entities lie in directories of their own and have migrations of their own. -/
structure PathsApart (es : List Entity) : Prop where
  directories : (es.map Entity.snakeName).Nodup
  migrations : ((es.filter fun e => e.features.migrations).map migrationName).Nodup

theorem pathsApart_iff_nodup : PathsApart es ↔ (es.map Entity.snakeName).Nodup ∧
    ((es.filter fun e => e.features.migrations).map migrationName).Nodup :=
  ⟨fun h => ⟨h.directories, h.migrations⟩, fun ⟨hd, hm⟩ => ⟨hd, hm⟩⟩

instance (es : List Entity) : Decidable (PathsApart es) :=
  decidable_of_iff _ pathsApart_iff_nodup.symm

/-- Entities are apart when any two of them are. -/
theorem pathsApart_iff_pairwise : PathsApart es ↔ es.Pairwise fun e e' =>
    e.snakeName ≠ e'.snakeName ∧ (e.features.migrations = true → e'.features.migrations = true →
      migrationName e ≠ migrationName e') := by
  rw [pathsApart_iff_nodup, List.pairwise_and_iff]
  simp only [List.Nodup, List.pairwise_map, List.pairwise_filter]

/-- All files of several entities have distinct paths exactly when the directories of the entities
and the names of their migrations are distinct. -/
theorem paths_nodup_iff (h : allArtifacts c es = .ok as) :
    (as.map Artifact.path).Nodup ↔ PathsApart es := by
  obtain ⟨own, hown, h⟩ := exists_of_bind_eq_ok h
  obtain ⟨hgenerates, rfl⟩ := artifactsOf_eq_ok hown
  obtain rfl := Except.ok.inj h
  have hpaths : ∀ e ∈ es, OwnPaths c e ((ownArtifacts c e).map Artifact.path) := by
    intro e he
    obtain ⟨files, hfiles⟩ := hgenerates e he
    rw [ownArtifacts_eq hfiles]
    exact ownPaths hfiles
  have hroot : ∀ p ∈ (es.flatMap (ownArtifacts c)).map Artifact.path, p ≠ rootPath c := by
    rintro p hp rfl
    rw [List.map_flatMap, List.mem_flatMap] at hp
    obtain ⟨e, he, hp⟩ := hp
    exact (hpaths e he).rootPath_not_mem hp
  have hall : (((es.flatMap (ownArtifacts c)) ++ [rootInit c es]).map Artifact.path).Nodup ↔
      ((es.flatMap (ownArtifacts c)).map Artifact.path).Nodup := by
    rw [List.map_append, List.nodup_append]
    refine ⟨fun h => h.1, fun h => ⟨h, List.nodup_singleton _, fun p hp q hq => ?_⟩⟩
    rw [List.mem_singleton.mp hq]
    exact hroot p hp
  rw [hall, List.map_flatMap, List.nodup_flatMap, and_iff_right fun e he => (hpaths e he).nodup,
    pathsApart_iff_pairwise]
  exact List.Pairwise.iff_of_mem fun he he' => (hpaths _ he).disjoint_iff (hpaths _ he')

/-- Two entities of different names and tables, both with migrations. -/
theorem paths_nodup_library : ∃ as,
    allArtifacts {} Postgres.libraryDocument.built = .ok as ∧
      (Postgres.libraryDocument.built.filter fun e => e.features.migrations).length = 2 ∧
      (as.map Artifact.path).Nodup := by
  have hgenerates : ∀ e ∈ Postgres.libraryDocument.built, Generates {} e := by decide +kernel
  have hnumber :
      (Postgres.libraryDocument.built.filter fun e => e.features.migrations).length = 2 := by
    decide +kernel
  have hne : Postgres.libraryDocument.built ≠ [] := by
    intro hnil
    rw [hnil] at hnumber
    exact absurd hnumber (by decide)
  have hall := allArtifacts_eq_ok hne hgenerates
  exact ⟨_, hall, hnumber, (paths_nodup_iff hall).mpr (by decide +kernel)⟩

/-- Two entities whose names are the same in snake case. -/
def apiKeyDocument : Document where
  entities := [
    { name := "ApiKey"
      attributes := [(.text "table", .text "api_keys")]
      fields := some [
        { name := some "id", type := "uuid", attributes := [(.text "id", .bool true)] }] },
    { name := "APIKey"
      attributes := [(.text "table", .text "legacy_keys")]
      fields := some [
        { name := some "id", type := "uuid", attributes := [(.text "id", .bool true)] }] }]

/-- Nothing is found about the two entities, but they share a directory. -/
theorem paths_not_nodup_apiKey :
    apiKeyDocument.built.map Entity.name = ["ApiKey", "APIKey"] ∧
      (Validation.document apiKeyDocument.built false).Quiet ∧
      ∃ as, allArtifacts {} apiKeyDocument.built = .ok as ∧ ¬ (as.map Artifact.path).Nodup := by
  have hnames : apiKeyDocument.built.map Entity.name = ["ApiKey", "APIKey"] := by decide +kernel
  have hgenerates : ∀ e ∈ apiKeyDocument.built, Generates {} e := by decide +kernel
  have hne : apiKeyDocument.built ≠ [] := by
    intro hnil
    rw [hnil] at hnames
    exact absurd hnames (by decide)
  have hquiet : (Validation.document apiKeyDocument.built false).Quiet := by decide +kernel
  have hsame : ¬ ((runArtifacts {} apiKeyDocument.built).map Artifact.path).Nodup := by
    decide +kernel
  exact ⟨hnames, hquiet, _, allArtifacts_eq_ok hne hgenerates, hsame⟩

end EntityForge.Package
