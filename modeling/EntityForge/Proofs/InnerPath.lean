import EntityForge.Disk.Path
import EntityForge.Proofs.ArtifactPath
import EntityForge.Proofs.Configuration
import EntityForge.Proofs.Split

/-!
# Paths that stay inside

A path stays inside the directory it starts from if it is relative and each of its segments goes
down. The path of the root package always does, and so do the files of an entity package, unless the
name of the entity has no letter or digit to make a directory of; scripts of migrations do if their
directory does, which the settings can name freely.
-/

namespace EntityForge

/-- The segments that do not go down: the empty one, with which an absolute path begins, and those
of the same directory and the one above. -/
def idleSegments : List (List Char) := [[], ['.'], ['.', '.']]

/-- The path is relative and goes down with every segment. -/
def IsInner (path : String) : Prop :=
  ∀ segment ∈ Text.splitOn '/' path.toList, segment ∉ idleSegments

instance (path : String) : Decidable (IsInner path) :=
  inferInstanceAs (Decidable (∀ segment ∈ Text.splitOn '/' path.toList, _))

variable {s t : String}

theorem isInner_join : IsInner (s ++ "/" ++ t) ↔ IsInner s ∧ IsInner t := by
  have hpieces : Text.splitOn '/' (s ++ "/" ++ t).toList =
      Text.splitOn '/' s.toList ++ Text.splitOn '/' t.toList := by
    rw [← Text.splitOn_append, String.toList_append, String.toList_append, List.append_assoc]
    rfl
  simp only [IsInner, hpieces, List.mem_append, or_imp, forall_and]

theorem isInner_of_no_slash (h : '/' ∉ s.toList) : IsInner s ↔ s.toList ∉ idleSegments := by
  rw [IsInner, Text.splitOn_of_not_mem h]
  simp only [List.mem_singleton, forall_eq]

/-- A plain text is a path that goes down if there is something of it. -/
theorem isInner_of_plain (h : Text.Plain s) : IsInner s ↔ s ≠ "" := by
  have hslash : '/' ∉ s.toList := h.not_mem (by decide)
  have hdot : '.' ∉ s.toList := h.not_mem (by decide)
  rw [isInner_of_no_slash hslash, not_iff_not, ← String.toList_eq_nil_iff]
  constructor
  · intro hidle
    simp only [idleSegments, List.mem_cons, List.not_mem_nil, or_false] at hidle
    rcases hidle with hnil | hsame | habove
    · exact hnil
    · exact absurd (hsame ▸ List.mem_cons_self) hdot
    · exact absurd (habove ▸ List.mem_cons_self) hdot
  · intro hnil
    rw [hnil]
    exact List.mem_cons_self

namespace Path

/-- A path that goes down starts at the current directory, and its names are its segments. -/
theorem ofText_of_isInner (h : IsInner s) :
    ofText s = ⟨"", (Text.splitOn '/' s.toList).map .ofList⟩ := by
  have hroot : s.toList.takeWhile (· = '/') = [] := by
    cases hs : s.toList with
    | nil => rfl
    | cons c cs =>
      -- A slash in front would leave an empty segment before it.
      have hc : c ≠ '/' := by
        rintro rfl
        refine h [] ?_ List.mem_cons_self
        rw [hs, Text.splitOn, if_pos rfl]
        exact List.mem_cons_self
      simp [hc]
  have hnames : ((Text.splitOn '/' s.toList).map String.ofList).filter
      (fun n => n ≠ "" && n ≠ ".") = (Text.splitOn '/' s.toList).map .ofList := by
    rw [List.filter_eq_self]
    intro n hn
    obtain ⟨segment, hsegment, rfl⟩ := List.mem_map.mp hn
    have hgoes := h segment hsegment
    have hempty : String.ofList segment ≠ "" := by
      intro heq
      have hnil : segment = [] := by simpa using heq
      exact hgoes (hnil ▸ List.mem_cons_self)
    have hsame : String.ofList segment ≠ "." := by
      intro heq
      have hdot : segment = ['.'] := by simpa using congrArg String.toList heq
      exact hgoes (hdot ▸ List.mem_cons_of_mem _ List.mem_cons_self)
    simp [hempty, hsame]
  rw [ofText, hroot, hnames]

/-- A path that goes down has a name, and none of the directory above. -/
theorem names_ofText_of_isInner (h : IsInner s) :
    (ofText s).names ≠ [] ∧ above ∉ (ofText s).names := by
  rw [ofText_of_isInner h]
  constructor
  · intro hnil
    exact Text.splitOn_ne_nil '/' s.toList (List.map_eq_nil_iff.mp hnil)
  · intro habove
    obtain ⟨segment, hsegment, heq⟩ := List.mem_map.mp habove
    have hdots : segment = ['.', '.'] := by
      rw [← String.toList_ofList (l := segment), heq]
      rfl
    exact h segment hsegment (hdots ▸ by decide)

/-- Paths that go down and have the same names are the same. -/
theorem ofText_inj_of_isInner (hs : IsInner s) (ht : IsInner t)
    (h : (ofText s).names = (ofText t).names) : s = t := by
  rw [ofText_of_isInner hs, ofText_of_isInner ht] at h
  have hpieces : Text.splitOn '/' s.toList = Text.splitOn '/' t.toList :=
    List.map_injective_iff.mpr (fun _ _ => String.ofList_injective) h
  rw [← String.toList_inj, ← Text.intercalate_splitOn '/' s.toList, hpieces,
    Text.intercalate_splitOn]

end Path

namespace Package

variable {c : GenerationConfig} {d : EntityDeclaration} {strict : Bool} {e : Entity}
  {notes : Diagnostics} {as : List Artifact}

theorem isInner_file (k : ModuleKind) : IsInner k.file := by
  cases k <;> decide

/-- The name of the package is a path that goes down. -/
theorem isInner_packageName (hc : c.Validated) : IsInner c.packageName := by
  have hid := hc.packageName
  rw [Source.isIdentifier, Bool.and_eq_true] at hid
  refine (isInner_of_plain (Text.plain_of_isNameLine hid.1)).mpr ?_
  intro hempty
  rw [hempty] at hid
  exact absurd hid.1 (by decide)

/-- A file of an entity package stays inside if the entity has a name in snake case. -/
theorem isInner_packagePath (hc : c.Validated) {file : String} (hfile : IsInner file) :
    IsInner (packagePath c e file) ↔ e.snakeName ≠ "" := by
  have hpath : packagePath c e file = c.packageName ++ "/" ++ e.snakeName ++ "/" ++ file := rfl
  have hsnake : Text.Plain e.snakeName := Text.plain_snakeCase e.name
  rw [hpath, isInner_join, isInner_join, isInner_of_plain hsnake]
  constructor
  · rintro ⟨⟨-, hname⟩, -⟩
    exact hname
  · intro hname
    exact ⟨⟨isInner_packageName hc, hname⟩, hfile⟩

/-- A script of a migration stays inside if the directory of the migrations does. -/
theorem isInner_migrationPath (hb : Build.build d strict = .ok (e, notes)) {ending : String}
    (he : ending ∈ migrationEndings) :
    IsInner (migrationPath c e ending) ↔ IsInner (migrationsDirectory c) := by
  have hplain := Build.plain_of_build hb
  have hname : Text.Plain (migrationName e) := by
    have hsep : Text.Plain "_" := Text.plain_of_isName rfl
    exact (hplain.schema.append hsep).append hplain.table
  have hscript : IsInner (migrationName e ++ ending) := by
    have hending : '/' ∉ ending.toList ∧ 2 < ending.toList.length := by
      revert ending
      decide
    have hslash : '/' ∉ (migrationName e ++ ending).toList := by
      rw [String.toList_append, List.mem_append, not_or]
      exact ⟨hname.not_mem (by decide), hending.1⟩
    rw [isInner_of_no_slash hslash]
    intro hidle
    have hshort : ∀ segment ∈ idleSegments, segment.length ≤ 2 := by decide
    have hlength := hshort _ hidle
    rw [String.toList_append, List.length_append] at hlength
    omega
  rw [migrationPath, isInner_join]
  exact and_iff_left hscript

theorem isInner_rootInit (hc : c.Validated) (es : List Entity) : IsInner (rootInit c es).path := by
  have hpath : (rootInit c es).path = c.packageName ++ "/" ++ "__init__.py" := by
    rw [String.append_assoc]
    rfl
  rw [hpath, isInner_join]
  exact ⟨isInner_packageName hc, by decide⟩

/-- What the files of an entity need to stay inside: a name of its directory, and the directory of
its migration. -/
structure Descends (c : GenerationConfig) (e : Entity) : Prop where
  named : e.snakeName ≠ ""
  migrations : e.features.migrations = true → IsInner (migrationsDirectory c)

theorem descends_iff : Descends c e ↔
    e.snakeName ≠ "" ∧ (e.features.migrations = true → IsInner (migrationsDirectory c)) :=
  ⟨fun h => ⟨h.named, h.migrations⟩, fun ⟨hname, hdirectory⟩ => ⟨hname, hdirectory⟩⟩

instance (c : GenerationConfig) (e : Entity) : Decidable (Descends c e) :=
  decidable_of_iff _ descends_iff.symm

/-- In a valid configuration, the files of an entity stay inside exactly when its directory has a
name and that of its migration stays inside. -/
theorem isInner_entityArtifacts (hc : c.Validated) (hb : Build.build d strict = .ok (e, notes))
    (h : entityArtifacts c e = .ok as) : (∀ a ∈ as, IsInner a.path) ↔ Descends c e := by
  obtain ⟨kinds, -, hpaths⟩ := map_path_entityArtifacts h
  have hfiles : ∀ file ∈ "__init__.py" :: kinds.map ModuleKind.file, IsInner file := by
    intro file hfile
    rcases List.mem_cons.mp hfile with rfl | hfile
    · decide
    · obtain ⟨k, -, rfl⟩ := List.mem_map.mp hfile
      exact isInner_file k
  have hall : (∀ a ∈ as, IsInner a.path) ↔ ∀ p ∈ as.map Artifact.path, IsInner p := by
    rw [List.forall_mem_map]
  rw [hall, hpaths, List.forall_mem_append, descends_iff]
  refine and_congr ?_ ?_
  · rw [List.forall_mem_map]
    constructor
    · intro hinner
      exact (isInner_packagePath hc (by decide)).mp (hinner _ List.mem_cons_self)
    · intro hname file hfile
      exact (isInner_packagePath hc (hfiles file hfile)).mpr hname
  · cases e.features.migrations with
    | false => simp
    | true =>
      rw [if_pos rfl, List.forall_mem_map]
      constructor
      · intro hinner _
        exact (isInner_migrationPath hb List.mem_cons_self).mp (hinner _ List.mem_cons_self)
      · intro hdirectory ending he
        exact (isInner_migrationPath hb he).mpr (hdirectory rfl)

end Package

end EntityForge
