import EntityForge.Proofs.Export
import EntityForge.Proofs.InnerPath
import Mathlib.Data.List.Induction

/-!
# What an export can reach

An export makes its output directory and what is missing on the way there; everything else that it
does happens below that directory, if the paths of its artifacts stay inside. Each step is a change
to one place below the directory, also where it fails and undoes what it did.
-/

namespace EntityForge

namespace Disk

variable {d d' d'' : Disk} {top p q : Place} {n : String} {e : Entry}

/-! ## Places below a place -/

/-- A place lies below another. -/
def Below (top p : Place) : Prop := top <+: p ∧ p ≠ top

instance (top p : Place) : Decidable (Below top p) :=
  inferInstanceAs (Decidable (_ ∧ _))

theorem below_concat : Below top (p ++ [n]) ↔ top <+: p := by
  constructor
  · rintro ⟨hin, hne⟩
    exact (List.prefix_concat_iff.mp hin).resolve_left (Ne.symm hne)
  · intro hin
    refine ⟨hin.trans (List.prefix_append p [n]), fun heq => ?_⟩
    have hlength := (heq ▸ hin).length_le
    rw [List.length_append, List.length_singleton] at hlength
    omega

theorem Below.ne_nil (h : Below top p) : p ≠ [] := by
  rintro rfl
  exact h.2 (List.prefix_nil.mp h.1).symm

/-- What lies below a place below another lies below that. -/
theorem Below.of_prefix (h : Below top p) (hq : p <+: q) : Below top q := by
  refine ⟨h.1.trans hq, ?_⟩
  rintro rfl
  exact h.2 (hq.eq_of_length_le h.1.length_le)

/-! ## Changes below a place -/

/-- Only what is below a place changed, but for directories that were made where nothing stood, at
the place or on the way there. -/
def ChangedBelow (top : Place) (d d' : Disk) : Prop :=
  ∀ p, ¬ Below top p → d'.get? p = d.get? p ∨
    p <+: top ∧ d.get? p = none ∧ d'.get? p = some .directory

theorem ChangedBelow.refl (top : Place) (d : Disk) : ChangedBelow top d d :=
  fun _ _ => Or.inl rfl

theorem ChangedBelow.trans (h : ChangedBelow top d d') (h' : ChangedBelow top d' d'') :
    ChangedBelow top d d'' := by
  intro p hp
  rcases h' p hp with hsame' | ⟨hin, hfree, hmade⟩
  · rw [hsame']
    exact h p hp
  · rcases h p hp with hsame | ⟨-, -, hmade'⟩
    · exact Or.inr ⟨hin, hsame ▸ hfree, hmade⟩
    · exact nomatch hmade'.symm.trans hfree

theorem changedBelow_put (h : Below top p) : ChangedBelow top d (d.put p e) := by
  intro q hq
  rw [get?_put h.ne_nil, if_neg fun heq : q = p => hq (heq ▸ h)]
  exact Or.inl rfl

theorem changedBelow_remove (h : Below top p) : ChangedBelow top d (d.remove p) := by
  intro q hq
  rw [get?_remove h.ne_nil, if_neg fun hin : p <+: q => hq (h.of_prefix hin)]
  exact Or.inl rfl

/-- What goes from a directory is below it. -/
theorem changedBelow_removeAll (top : Place) (d : Disk) (names : List String) :
    ChangedBelow top d (names.foldl (fun d n => d.remove (top ++ [n])) d) := by
  induction names generalizing d with
  | nil => exact ChangedBelow.refl top d
  | cons n names ih =>
    have hremoved : ChangedBelow top d (d.remove (top ++ [n])) :=
      changedBelow_remove (below_concat.mpr (List.prefix_refl top))
    exact hremoved.trans (ih _)

/-- A directory may be made on the way to a place too. -/
theorem changedBelow_put_directory (hp : p <+: top ∨ top <+: p) (hfree : d.get? p = none) :
    ChangedBelow top d (d.put p .directory) := by
  have hne : p ≠ [] := by
    rintro rfl
    exact nomatch (get?_nil d).symm.trans hfree
  intro q hq
  rw [get?_put hne]
  by_cases heq : q = p
  · subst heq
    -- A place that is not below the top, though in line with it, is on the way there.
    have hin : q <+: top := by
      rcases hp with hin | hin
      · exact hin
      · by_cases htop : q = top
        · exact htop ▸ List.prefix_refl q
        · exact absurd ⟨hin, htop⟩ hq
    exact Or.inr ⟨hin, hfree, if_pos rfl⟩
  · rw [if_neg heq]
    exact Or.inl rfl

end Disk

/-! ## Paths written out -/

/-- A path from the root on that never goes up. -/
structure Path.Direct (p : Path) : Prop where
  root : p.root ≠ ""
  names : above ∉ p.names

namespace Path

variable {p q : Path}

/-- A path that is resolved is written out. -/
theorem direct_resolve {current : List String} : (p.resolve current).Direct := by
  refine ⟨root_resolve, ?_⟩
  rw [resolve]
  split <;> exact above_not_mem_collapse _

namespace Direct

theorem place_eq (h : p.Direct) : p.place = p.names := collapse_eq_self h.names

theorem parent (h : p.Direct) : p.parent.Direct :=
  ⟨h.root, fun habove => h.names (List.dropLast_subset _ habove)⟩

/-- A path that stays inside goes on from a path that is written out. -/
theorem join_ofText {s : String} (h : p.Direct) (hs : IsInner s) :
    (p.join (ofText s)).Direct ∧ Disk.Below p.names (p.join (ofText s)).names := by
  obtain ⟨hne, habove⟩ := names_ofText_of_isInner hs
  have hjoin : p.join (ofText s) = ⟨p.root, p.names ++ (ofText s).names⟩ := by
    rw [join, ofText_of_isInner hs, if_pos rfl]
  rw [hjoin]
  refine ⟨⟨h.root, ?_⟩, List.prefix_append _ _, ?_⟩
  · rw [List.mem_append, not_or]
    exact ⟨h.names, habove⟩
  · intro heq
    exact hne (List.append_right_eq_self.mp heq)

end Direct

end Path

/-! ## The steps of an export -/

namespace Disk

variable {d d' : Disk} {top : Place} {path : Path} {content : ByteArray}

/-- The parent of a path below a place is that place or below it. -/
theorem Below.parent {ns : List String} (h : Below top ns) : top <+: ns.dropLast := by
  obtain ⟨p, n, rfl⟩ := List.eq_nil_or_concat' ns |>.resolve_left h.ne_nil
  rw [List.dropLast_concat]
  exact below_concat.mp h

theorem makeDirectory_changedBelow (hpath : path.Direct)
    (hline : path.names <+: top ∨ top <+: path.names) (h : d.makeDirectory path = .ok d') :
    ChangedBelow top d d' := by
  rw [makeDirectory] at h
  split at h
  · cases h
  · cases h
  · rename_i q hq
    obtain ⟨p, n, hp, rfl⟩ := (placeFor_eq_ok hpath.root).mp hq
    rw [hp.place_eq, hpath.place_eq] at h
    split at h
    · cases h
    · rename_i hfree
      obtain rfl := Except.ok.inj h
      exact changedBelow_put_directory hline (by simpa using hfree)

/-- Directories are made below a place, at the place or on the way there, also when one of them
cannot be made. -/
theorem makeDirectories_changedBelow (fuel : Nat) (hpath : path.Direct)
    (hline : path.names <+: top ∨ top <+: path.names) :
    ChangedBelow top d (makeDirectories fuel d path).1 := by
  induction fuel generalizing path with
  | zero =>
    rw [makeDirectories]
    split
    · rename_i hmade
      exact makeDirectory_changedBelow hpath hline hmade
    · split <;> exact ChangedBelow.refl top d
  | succ fuel ih =>
    rw [makeDirectories]
    split
    · rename_i hmade
      exact makeDirectory_changedBelow hpath hline hmade
    · split
      · have hparent_line : path.parent.names <+: top ∨ top <+: path.parent.names := by
          rcases hline with hin | hin
          · exact Or.inl ((List.dropLast_prefix _).trans hin)
          · exact List.prefix_or_prefix_of_prefix (List.dropLast_prefix _) hin
        have hparent := ih hpath.parent hparent_line
        dsimp only
        split
        · rename_i hfault
          rwa [hfault] at hparent
        · rename_i made hmade
          rw [hmade] at hparent
          rw [makeDirectories.makeLast]
          split
          · rename_i hlast
            exact hparent.trans (makeDirectory_changedBelow hpath hline hlast)
          · exact hparent
      · exact ChangedBelow.refl top d

theorem overwriteFile_changedBelow (hpath : path.Direct) (hbelow : Below top path.names) :
    ChangedBelow top d (d.overwriteFile path content).1 := by
  rw [overwriteFile]
  split
  · rename_i written hwritten
    obtain ⟨p, n, hp, -, rfl⟩ := (writeFile_eq_ok hpath.root).mp hwritten
    rw [hp.place_eq, hpath.place_eq]
    exact changedBelow_put hbelow
  · exact ChangedBelow.refl top d

theorem replaceFile_changedBelow (hpath : path.Direct) (hbelow : Below top path.names) :
    ChangedBelow top d (d.replaceFile path content).1 := by
  obtain ⟨f, -, hr⟩ | ⟨other, t, ht, -, -, hmoved⟩ :=
    replaceFile_cases hpath.root (rfl : d.replaceFile path content = _)
  · rw [hr]
    exact ChangedBelow.refl top d
  · obtain ⟨m, rfl, -, -⟩ := temporaryFile_eq_ok hpath.root ht
    have htemporary : Below top (path.parent.place ++ [m]) := by
      rw [hpath.parent.place_eq]
      exact below_concat.mpr hbelow.parent
    have hput := changedBelow_put (d := d) (e := .file content) htemporary
    have hremoved := hput.trans (changedBelow_remove htemporary)
    obtain ⟨p, n, hp, -, hr⟩ | ⟨f, -, hr⟩ := hmoved
    · rw [hr, hp.place_eq, hpath.place_eq]
      exact hremoved.trans (changedBelow_put hbelow)
    · rw [hr]
      exact hremoved

end Disk

namespace Exporter

open Disk

variable {x : Exporter} {d d' : Disk} {as : List Artifact} {directory path : Path} {text : String}
  {top : Place}

theorem store_changedBelow (hdirectory : directory.Direct)
    (hline : directory.names <+: top ∨ top <+: directory.names) (hpath : path.Direct)
    (hbelow : Below top path.names) :
    ChangedBelow top d (x.store directory path text d).1 := by
  have hmade := makeDirectories_changedBelow (d := d) directory.names.length hdirectory hline
  rw [store]
  split
  · rename_i hfault
    rwa [hfault] at hmade
  · rename_i made hmake
    rw [hmake] at hmade
    refine hmade.trans ?_
    split
    · exact replaceFile_changedBelow hpath hbelow
    · exact overwriteFile_changedBelow hpath hbelow

/-- Artifacts whose paths stay inside are written below the output directory. -/
theorem writeAll_changedBelow (hx : x.output.Direct) (has : ∀ a ∈ as, IsInner a.path) :
    ChangedBelow x.output.names d (x.writeAll d as).1 := by
  induction as generalizing d with
  | nil => exact ChangedBelow.refl _ d
  | cons a as ih =>
    obtain ⟨ha, has⟩ := List.forall_mem_cons.mp has
    obtain ⟨hpath, hbelow⟩ := hx.join_ofText ha
    have hstored : ChangedBelow x.output.names d
        (x.store (x.target a).parent (x.target a) a.content d).1 :=
      store_changedBelow hpath.parent (Or.inr hbelow.parent) hpath hbelow
    rw [writeAll]
    split
    · rename_i stored hstore
      rw [hstore] at hstored
      exact hstored.trans (ih has)
    · rename_i stored fault hstore
      rw [hstore] at hstored
      exact hstored.trans (ih has)

theorem writeManifest_changedBelow {m : Manifest} (hx : x.output.Direct) :
    ChangedBelow x.output.names d (x.writeManifest m d).1 := by
  rw [writeManifest]
  split
  · obtain ⟨hpath, hbelow⟩ := hx.join_ofText (by decide : IsInner manifestName)
    exact store_changedBelow hx (Or.inl (List.prefix_refl _)) hpath hbelow
  · exact ChangedBelow.refl _ d

/-- Emptying the output directory changes only what is below it. -/
theorem cleaned_changedBelow (hx : x.output.Direct) (h : x.cleaned d = .ok d') :
    ChangedBelow x.output.names d d' := by
  rw [cleaned, start, if_neg hx.root] at h
  split at h
  · obtain rfl := Except.ok.inj h
    exact ChangedBelow.refl _ d
  · split at h
    · cases h
    · obtain rfl := Except.ok.inj h
      exact ChangedBelow.refl _ d
    · rename_i place hplace
      obtain ⟨rfl, -⟩ := walk_spec (stands_nil d) hplace
      rw [← collapse_eq_follow, Path.collapse_eq_self hx.names] at h
      split at h
      · obtain rfl := Except.ok.inj h
        exact changedBelow_removeAll _ d _
      · cases h

/-- An export of artifacts whose paths stay inside changes only what is below its output
directory. -/
theorem run_changedBelow (hx : x.output.Direct) (has : ∀ a ∈ as, IsInner a.path) :
    ChangedBelow x.output.names d (x.run d as).2 := by
  rw [run]
  split
  · exact ChangedBelow.refl _ d
  · split
    · exact ChangedBelow.refl _ d
    · split
      · exact ChangedBelow.refl _ d
      · rename_i cleaned hcleaned
        have hwritten := (cleaned_changedBelow hx hcleaned).trans (writeAll_changedBelow hx has)
        exact hwritten.trans (writeManifest_changedBelow hx)

end Exporter

namespace Package

variable {c : GenerationConfig} {es : List Entity} {as : List Artifact}

/-- In a valid configuration, the paths of all files of some entities stay inside exactly when the
directory of each entity has a name and that of its migration, if it has one, stays inside. An
export of the files then changes only what is below its output directory. -/
theorem files_inside_iff (hc : c.Validated) (hes : ∀ e ∈ es, e.IsBuilt)
    (h : allArtifacts c es = .ok as) :
    ((∀ a ∈ as, IsInner a.path) ↔ ∀ e ∈ es, Descends c e) ∧
      ((∀ e ∈ es, Descends c e) → ∀ (x : Exporter) (disk : Disk),
        disk.ChangedBelow (x.seenFrom disk).output.place ((x.seenFrom disk).run disk as).2) := by
  have hpaths : (∀ a ∈ as, IsInner a.path) ↔ ∀ e ∈ es, Descends c e := by
    obtain ⟨own, hown, h⟩ := exists_of_bind_eq_ok h
    obtain ⟨hgenerates, rfl⟩ := artifactsOf_eq_ok hown
    obtain rfl := Except.ok.inj h
    rw [List.forall_mem_append, List.forall_mem_singleton, and_iff_left (isInner_rootInit hc es),
      List.forall_mem_flatMap]
    refine forall₂_congr fun e he => ?_
    obtain ⟨d, strict, notes, hb⟩ := hes e he
    obtain ⟨files, hfiles⟩ := hgenerates e he
    rw [ownArtifacts_eq hfiles]
    exact isInner_entityArtifacts hc hb hfiles
  refine ⟨hpaths, fun hdescend x disk => ?_⟩
  have hdirect : (x.seenFrom disk).output.Direct := Path.direct_resolve
  rw [hdirect.place_eq]
  exact Exporter.run_changedBelow hdirect (hpaths.mpr hdescend)

/-- The migrations of two entities, in a directory of several names. -/
theorem files_inside_library : ∃ c as,
    GenerationConfig.check (.map [(.text "migrations_dir", .text "db/migrations/")]) = .accepted c ∧
      allArtifacts c Postgres.libraryDocument.built = .ok as ∧
      "db/migrations/auth_authors.up.sql" ∈ as.map Artifact.path ∧ (∀ a ∈ as, IsInner a.path) ∧
      Exporter.siteDisk.ChangedBelow ["home", "site"]
        ((Exporter.siteExporter.seenFrom Exporter.siteDisk).run Exporter.siteDisk as).2 := by
  have hcheck : GenerationConfig.check
      (.map [(.text "migrations_dir", .text "db/migrations/")]) =
        .accepted { migrationsDir := "db/migrations/" } := rfl
  have hgenerates : ∀ e ∈ Postgres.libraryDocument.built,
      Generates { migrationsDir := "db/migrations/" } e := by
    decide +kernel
  have hscript : "db/migrations/auth_authors.up.sql" ∈ (runArtifacts
      { migrationsDir := "db/migrations/" } Postgres.libraryDocument.built).map Artifact.path := by
    decide +kernel
  have hne : Postgres.libraryDocument.built ≠ [] := by decide +kernel
  have hes : ∀ e ∈ Postgres.libraryDocument.built, e.IsBuilt := fun e => Document.isBuilt_of_mem
  have hdescend : ∀ e ∈ Postgres.libraryDocument.built,
      Descends { migrationsDir := "db/migrations/" } e := by
    decide +kernel
  have hall := allArtifacts_eq_ok hne hgenerates
  have hplace : (Exporter.siteExporter.seenFrom Exporter.siteDisk).output.place =
      ["home", "site"] := by
    decide
  obtain ⟨hpaths, hchanged⟩ := files_inside_iff (.read hcheck) hes hall
  refine ⟨_, _, hcheck, hall, hscript, hpaths.mpr hdescend, ?_⟩
  rw [← hplace]
  exact hchanged hdescend Exporter.siteExporter Exporter.siteDisk

/-- With a directory of migrations that is the empty text, the scripts go to the root of the disk,
wherever the output directory is. -/
theorem files_outside_library : ∃ c as,
    GenerationConfig.check (.map [(.text "migrations_dir", .text "")]) = .accepted c ∧
      allArtifacts c Postgres.libraryDocument.built = .ok as ∧
      (∃ a ∈ as, a.path = "/auth_authors.up.sql" ∧ ¬ IsInner a.path) ∧
      ¬ Exporter.siteDisk.ChangedBelow ["home", "site"]
        ((Exporter.siteExporter.seenFrom Exporter.siteDisk).run Exporter.siteDisk as).2 := by
  have hcheck : GenerationConfig.check (.map [(.text "migrations_dir", .text "")]) =
      .accepted { migrationsDir := "" } := rfl
  have hgenerates : ∀ e ∈ Postgres.libraryDocument.built, Generates { migrationsDir := "" } e := by
    decide +kernel
  have hscript : ∃ a ∈ runArtifacts { migrationsDir := "" } Postgres.libraryDocument.built,
      a.path = "/auth_authors.up.sql" ∧ ¬ IsInner a.path := by
    decide +kernel
  have hne : Postgres.libraryDocument.built ≠ [] := by decide +kernel
  have hfree : Exporter.siteDisk.get? ["auth_authors.up.sql"] = none := by decide +kernel
  have hwritten : (((Exporter.siteExporter.seenFrom Exporter.siteDisk).run Exporter.siteDisk
      (runArtifacts { migrationsDir := "" } Postgres.libraryDocument.built)).2.get?
        ["auth_authors.up.sql"]).isSome = true := by
    decide +kernel
  refine ⟨_, _, hcheck, allArtifacts_eq_ok hne hgenerates, hscript, fun hchanged => ?_⟩
  rcases hchanged ["auth_authors.up.sql"] (by decide) with hsame | ⟨hway, -⟩
  · rw [hsame, hfree] at hwritten
    exact Bool.noConfusion hwritten
  · exact absurd hway (by decide)

end Package

end EntityForge
