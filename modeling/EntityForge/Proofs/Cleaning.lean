import EntityForge.Proofs.Confinement
import EntityForge.Proofs.Storing

/-!
# What an emptied directory keeps

The output directory can be emptied before an export. Everything in it goes, however deep, but for
three names that are kept at its top with all that is below them. What an export then leaves below
the directory are the kept files, its own and the manifest.
-/

namespace EntityForge

namespace Disk

variable {d d' : Disk} {top p q : Place} {e : Entry} {n : String} {names ns : List String}

theorem Stands.exists_of_isPrefix (h : d.Stands p e) (hq : q <+: p) : ∃ f, d.Stands q f := by
  by_cases hne : q = p
  · exact ⟨e, hne ▸ h⟩
  · exact ⟨.directory, h.of_prefix hq hne⟩

/-- Whatever can be reached is found by its names, unless one of them is too long. -/
theorem walk_of_stands (h : d.Stands (p ++ ns) e) (hns : Path.above ∉ ns) :
    d.walk p ns = .ok (p ++ ns) ∨ d.walk p ns = .error .nameTooLong := by
  induction ns generalizing p with
  | nil =>
    rw [List.append_nil]
    exact Or.inl rfl
  | cons n ns ih =>
    rw [List.mem_cons, not_or] at hns
    have hstep : p ++ n :: ns = p ++ [n] ++ ns := List.append_cons p n ns
    have hp : d.Stands p .directory := h.of_prefix (List.prefix_append p _) (by simp)
    obtain ⟨f, hnext⟩ := h.exists_of_isPrefix (hstep ▸ List.prefix_append (p ++ [n]) ns)
    rw [walk_cons hp, if_neg (Ne.symm hns.1), hnext.entry, Option.isNone_some,
      if_neg Bool.false_ne_true, hstep]
    split
    · exact Or.inr rfl
    · exact ih (hstep ▸ h) hns.2

/-! ## What goes -/

theorem mem_namesIn (h : d.get? (p ++ [n]) = some e) : n ∈ d.namesIn p := by
  obtain ⟨w, hw, hplace⟩ := List.mem_map.mp (mem_entries concat_ne_nil h)
  refine List.mem_filterMap.mpr ⟨w, hw, ?_⟩
  simp [hplace]

/-- What is left when entries of a directory go. -/
theorem get?_removeAll {names : List String} :
    (names.foldl (fun d n => d.remove (top ++ [n])) d).get? q = some e ↔
      d.get? q = some e ∧ ∀ n ∈ names, ¬ top ++ [n] <+: q := by
  induction names generalizing d with
  | nil => exact ⟨fun h => ⟨h, nofun⟩, And.left⟩
  | cons n names ih =>
    rw [List.foldl_cons, ih, get?_remove concat_ne_nil, List.forall_mem_cons]
    split
    · rename_i hq
      exact ⟨fun h => (nomatch h.1), fun h => absurd hq h.2.1⟩
    · rename_i hq
      exact ⟨fun ⟨he, hrest⟩ => ⟨he, hq, hrest⟩, fun ⟨he, _, hrest⟩ => ⟨he, hrest⟩⟩

theorem isTree_removeAll (h : d.IsTree) (top : Place) (names : List String) :
    (names.foldl (fun d n => d.remove (top ++ [n])) d).IsTree := by
  induction names generalizing d with
  | nil => exact h
  | cons n names ih => exact ih (h.remove concat_ne_nil)

/-- A place below a directory, in an entry whose name is not kept. -/
def Swept (top q : Place) : Prop := ∃ n, n ∉ preservedNames ∧ top ++ [n] <+: q

/-- A place below a directory, in an entry whose name is kept. -/
def Preserved (top q : Place) : Prop := ∃ n ∈ preservedNames, top ++ [n] <+: q

instance (top q : Place) : Decidable (Preserved top q) :=
  inferInstanceAs (Decidable (∃ n ∈ preservedNames, _))

theorem not_swept_iff (h : Below top q) : ¬ Swept top q ↔ Preserved top q := by
  obtain ⟨⟨rest, rfl⟩, hne⟩ := h
  obtain ⟨n, rest, rfl⟩ := List.exists_cons_of_ne_nil fun hnil : rest = [] => hne (by simp [hnil])
  have hentry (m : String) : top ++ [m] <+: top ++ n :: rest ↔ m = n := by
    rw [List.prefix_append_right_inj, List.cons_prefix_cons, and_iff_left List.nil_prefix]
  simp only [Swept, Preserved, hentry]
  constructor
  · intro h
    by_contra hnot
    exact h ⟨n, fun hn => hnot ⟨n, hn, rfl⟩, rfl⟩
  · rintro ⟨m, hm, rfl⟩ ⟨k, hk, rfl⟩
    exact hk hm

end Disk

namespace Exporter

open Disk

variable {x : Exporter} {d d' : Disk} {as : List Artifact} {result : ExportResult}
  {p q : Place} {e : Entry}

/-- If it is to be emptied, the output directory loses what is in it but for the kept names. -/
theorem cleaned_spec (hx : x.output.Direct) (htree : d.IsTree) (h : x.cleaned d = .ok d') :
    d'.IsTree ∧ ∀ q e, d'.Stands q e ↔
      d.Stands q e ∧ ¬ (x.clean = true ∧ Swept x.output.names q) := by
  rw [cleaned, start, if_neg hx.root] at h
  split at h
  · rename_i hclean
    obtain rfl := Except.ok.inj h
    have hclean : ¬ x.clean = true := by simpa using hclean
    exact ⟨htree, fun q e => (and_iff_left fun hswept => hclean hswept.1).symm⟩
  · rename_i hclean
    have hclean : x.clean = true := by simpa using hclean
    simp only [hclean, true_and]
    split at h
    · cases h
    · -- Nothing is in a directory that does not exist.
      rename_i cause hother hwalk
      obtain rfl := Except.ok.inj h
      refine ⟨htree, fun q e => (and_iff_left_of_imp ?_).symm⟩
      rintro hq ⟨n, -, hn⟩
      obtain ⟨f, hf⟩ := hq.exists_of_isPrefix ((List.prefix_append _ [n]).trans hn)
      rcases walk_of_stands (p := []) hf hx.names with hok | hlong
      · cases hok.symm.trans hwalk
      · exact hother (Except.error.inj (hwalk.symm.trans hlong))
    · rename_i place hplace
      obtain ⟨rfl, -⟩ := walk_spec (stands_nil d) hplace
      rw [← collapse_eq_follow, Path.collapse_eq_self hx.names] at h
      split at h
      · obtain rfl := Except.ok.inj h
        have hleft := isTree_removeAll htree x.output.names
          ((d.namesIn x.output.names).filter fun n => !preservedNames.contains n)
        refine ⟨hleft, fun q e => ?_⟩
        rw [hleft.stands_iff, get?_removeAll, htree.stands_iff]
        refine and_congr_right fun hq => ⟨?_, ?_⟩
        · rintro hnot ⟨n, hn, hbelow⟩
          obtain ⟨f, hf⟩ := (htree q e hq).exists_of_isPrefix hbelow
          exact hnot n (List.mem_filter.mpr ⟨mem_namesIn hf.entry, by simpa using hn⟩) hbelow
        · intro hnot n hn hbelow
          exact hnot ⟨n, by simpa using (List.mem_filter.mp hn).2, hbelow⟩
      · cases h

/-- The output directory cannot be emptied if it is a file, or if a name on the way to it is too
long. -/
theorem of_not_cleaned {f : DiskFault} (hx : x.output.Direct) (h : x.cleaned d = .error f) :
    x.clean = true ∧ (d.walk [] x.output.names = .error .nameTooLong ∨
      ∃ content, d.Stands x.output.names (.file content)) := by
  rw [cleaned, start, if_neg hx.root] at h
  split at h
  · cases h
  · rename_i hclean
    refine ⟨by simpa using hclean, ?_⟩
    split at h
    · exact Or.inl ‹_›
    · cases h
    · rename_i place hplace
      obtain ⟨rfl, e, he⟩ := walk_spec (stands_nil d) hplace
      rw [← collapse_eq_follow, Path.collapse_eq_self hx.names] at h he
      split at h
      · cases h
      · rename_i hnot
        cases e with
        | directory => exact absurd (isDirectoryAt_iff.mpr he.entry) hnot
        | file content => exact Or.inr ⟨content, he⟩

theorem not_cleaned_of_file {content : ByteArray} (hx : x.output.Direct) (hclean : x.clean = true)
    (hfile : d.Stands x.output.names (.file content)) : ∃ f, x.cleaned d = .error f := by
  have hnot : ¬ d.isDirectoryAt x.output.names = true := fun hd =>
    nomatch hfile.entry.symm.trans (isDirectoryAt_iff.mp hd)
  rw [cleaned, hclean, Bool.not_true, if_neg Bool.false_ne_true, start, if_neg hx.root]
  rcases walk_of_stands (p := []) hfile hx.names with hok | hlong
  · simp only [hok, List.nil_append, if_neg hnot]
    exact ⟨_, rfl⟩
  · simp only [hlong]
    exact ⟨_, rfl⟩

theorem isTree_run (hx : x.output.Direct) (htree : d.IsTree) : (x.run d as).2.IsTree := by
  rcases @run_cases x d as with hsame | ⟨cleaned, hcleaned, hrun⟩
  · rw [hsame]
    exact htree
  · rw [hrun]
    exact isTree_fill (cleaned_spec hx htree hcleaned).1 hx.root

/-- The files of a disk were there before, are those of artifacts or the manifest: no other file is
left behind. -/
def LeavesOnly (x : Exporter) (as : List Artifact) (m : Manifest) (d d' : Disk) : Prop :=
  ∀ p content, d'.get? p = some (.file content) →
    d.get? p = some (.file content) ∨
    (∃ a ∈ as, p = (x.target a).place ∧ content = a.content.toUTF8) ∨
    (x.withManifest = true ∧ p = x.manifestPath.place ∧ content = m.text.toUTF8)

theorem run_leavesOnly (hx : x.output.Direct) (htree : d.IsTree) :
    x.LeavesOnly as (x.run d as).1.manifest d (x.run d as).2 := by
  intro p content h
  have hstands := (isTree_run hx htree).stands_iff.mpr h
  rcases @run_cases x d as with hsame | ⟨cleaned, hcleaned, hrun⟩
  · rw [hsame] at h
    exact Or.inl h
  · rw [hrun] at hstands ⊢
    obtain ⟨hleft, hcleaned_iff⟩ := cleaned_spec hx htree hcleaned
    exact (of_fill hleft hx.root hstands).imp_left fun hp => ((hcleaned_iff p _).mp hp).1.entry

/-! ## What is there in the end -/

/-- An artifact whose path goes down is written at the place that its names lead to. -/
theorem place_target {a : Artifact} (hx : x.output.Direct) (ha : IsInner a.path) :
    (x.target a).place = x.output.names ++ (Path.ofText a.path).names := by
  obtain ⟨htarget, -⟩ := hx.join_ofText ha
  rw [target, htarget.place_eq, Path.join, Path.ofText_of_isInner ha, if_pos rfl]

theorem place_manifestPath (hx : x.output.Direct) :
    x.manifestPath.place = x.output.names ++ [manifestName] := by
  have hinner : IsInner manifestName := by decide
  have hnames : (Path.ofText manifestName).names = [manifestName] := by decide
  obtain ⟨htarget, -⟩ := hx.join_ofText hinner
  rw [manifestPath, htarget.place_eq, Path.join, Path.ofText_of_isInner hinner, if_pos rfl,
    ← hnames, Path.ofText_of_isInner hinner]

/-- Artifacts whose paths go down and are all different go to places of their own. -/
theorem apart_of_inner (hx : x.output.Direct)
    (has : ∀ a ∈ as, IsInner a.path ∧ a.path ≠ manifestName)
    (hpaths : (as.map Artifact.path).Nodup) : x.Apart as := by
  constructor
  · have hplaces : (as.map fun a => (x.target a).place) = (as.map Artifact.path).map fun s =>
        x.output.names ++ (Path.ofText s).names := by
      rw [List.map_map]
      exact List.map_congr_left fun a ha => place_target hx (has a ha).1
    rw [hplaces]
    refine hpaths.map_on fun s hs t ht hst => ?_
    obtain ⟨a, ha, rfl⟩ := List.mem_map.mp hs
    obtain ⟨b, hb, rfl⟩ := List.mem_map.mp ht
    exact Path.ofText_inj_of_isInner (has a ha).1 (has b hb).1 (List.append_cancel_left hst)
  · intro a ha heq
    obtain ⟨hinner, hne⟩ := has a ha
    have hnames : (Path.ofText manifestName).names = [manifestName] := by decide
    rw [place_target hx hinner, place_manifestPath hx, ← hnames] at heq
    exact hne (Path.ofText_inj_of_isInner hinner (by decide) (List.append_cancel_left heq))

/-- The manifest is written last. -/
theorem lastAt_manifest (hasked : x.withManifest = true) (hfault : result.manifestFault = none) :
    lastAt (x.writes as result) x.manifestPath.place = some result.manifest.text.toUTF8 := by
  rw [writes, if_pos ⟨hasked, hfault⟩, lastAt, List.reverse_append, List.reverse_singleton,
    List.singleton_append, List.lookup_cons_self]

theorem lastAt_writes_eq_none (htarget : ∀ a ∈ as, p ≠ (x.target a).place)
    (hmanifest : p ≠ x.manifestPath.place) : lastAt (x.writes as result) p = none := by
  rw [lastAt_eq_none, writes, List.map_append, List.mem_append, not_or]
  constructor
  · intro hp
    obtain ⟨w, hw, rfl⟩ := List.mem_map.mp hp
    obtain ⟨a, ha, rfl⟩ := List.mem_map.mp hw
    exact htarget a ha rfl
  · split
    · exact fun hp => hmanifest (List.mem_singleton.mp hp)
    · exact List.not_mem_nil

/-- The manifest is at the top of the output directory, and its name is not kept. -/
theorem ne_manifest_of_preserved (hx : x.output.Direct) (h : Preserved x.output.names p) :
    p ≠ x.manifestPath.place := by
  rintro rfl
  obtain ⟨n, hn, hprefix⟩ := h
  rw [place_manifestPath hx, List.prefix_append_right_inj, List.cons_prefix_cons] at hprefix
  obtain ⟨rfl, -⟩ := hprefix
  exact absurd hn (by decide)

/-- A file below an emptied output directory is that of an artifact, the manifest or a kept one that
no artifact has replaced. -/
theorem file_iff_of_clean {content : ByteArray} (hx : x.output.Direct) (htree : d.IsTree)
    (hclean : x.clean = true) (hdry : x.dryRun = false)
    (has : ∀ a ∈ as, IsInner a.path ∧ a.path ≠ manifestName) (hrun : x.run d as = (result, d'))
    (hsuccess : result.success = true) (hwarnings : result.warnings = [])
    (hbelow : Below x.output.names p) :
    d'.get? p = some (.file content) ↔
      (∃ a ∈ as, p = (x.target a).place ∧ content = a.content.toUTF8) ∨
      (x.withManifest = true ∧ p = x.manifestPath.place ∧
        content = result.manifest.text.toUTF8) ∨
      (Preserved x.output.names p ∧ d.get? p = some (.file content) ∧
        ∀ a ∈ as, p ≠ (x.target a).place) := by
  have hpaths : (as.map Artifact.path).Nodup := nodup_of_success hrun hsuccess
  have hapart := apart_of_inner hx has hpaths
  have hfault : result.manifestFault = none := by simpa [ExportResult.warnings] using hwarnings
  obtain ⟨-, ⟨cleaned, hcleaned, hwrote⟩, -⟩ := run_wrote hx.root hrun hdry hsuccess
  obtain ⟨hleft, hcleaned_iff⟩ := cleaned_spec hx htree hcleaned
  constructor
  · intro hfile
    by_cases htarget : ∃ a ∈ as, p = (x.target a).place
    · obtain ⟨a, ha, rfl⟩ := htarget
      have hlast := (hwrote.stands (hapart.lastAt_writes ha)).entry
      exact Or.inl ⟨a, ha, rfl, Entry.file.inj (Option.some.inj (hfile.symm.trans hlast))⟩
    · -- What was not written was there when the directory had been emptied.
      have hfill : x.fill cleaned as = (result, d') := by
        rw [← hrun, run_of_cleaned hpaths hdry hcleaned]
      have hstands : (x.fill cleaned as).2.Stands p (.file content) :=
        (isTree_fill hleft hx.root).stands_iff.mpr (by rwa [hfill])
      rcases of_fill hleft hx.root hstands with hp | ⟨a, ha, hplace, -⟩ | hmanifest
      · obtain ⟨hp, hkept⟩ := (hcleaned_iff p _).mp hp
        have hpreserved := (not_swept_iff hbelow).mp fun hswept => hkept ⟨hclean, hswept⟩
        exact Or.inr (Or.inr ⟨hpreserved, hp.entry, fun a ha hplace => htarget ⟨a, ha, hplace⟩⟩)
      · exact absurd ⟨a, ha, hplace⟩ htarget
      · rw [hfill] at hmanifest
        exact Or.inr (Or.inl hmanifest)
  · rintro (⟨a, ha, rfl, rfl⟩ | ⟨hasked, rfl, rfl⟩ | ⟨hpreserved, hfile, htarget⟩)
    · exact (hwrote.stands (hapart.lastAt_writes ha)).entry
    · exact (hwrote.stands (lastAt_manifest hasked hfault)).entry
    · have hstands : cleaned.Stands p (.file content) :=
        (hcleaned_iff p _).mpr ⟨htree p _ hfile, fun hswept =>
          (not_swept_iff hbelow).mpr hpreserved hswept.2⟩
      have hlast : lastAt (x.writes as result) p = none :=
        lastAt_writes_eq_none htarget (ne_manifest_of_preserved hx hpreserved)
      exact (hwrote.kept hlast hstands).entry

/-- After an export to an emptied directory that succeeds and could write its manifest, the files
below the directory are those of the artifacts, the manifest and the kept files of before that no
artifact has replaced. Outside the directory nothing changes but for directories that were missing
on the way to it. -/
theorem clean_run_files (htree : d.IsTree) (hclean : x.clean = true) (hdry : x.dryRun = false)
    (has : ∀ a ∈ as, IsInner a.path ∧ a.path ≠ manifestName)
    (hrun : (x.seenFrom d).run d as = (result, d')) (hsuccess : result.success = true)
    (hwarnings : result.warnings = []) :
    (∀ p content, Below (x.seenFrom d).output.place p →
      (d'.get? p = some (.file content) ↔
        (∃ a ∈ as, p = ((x.seenFrom d).target a).place ∧ content = a.content.toUTF8) ∨
        (x.withManifest = true ∧ p = (x.seenFrom d).manifestPath.place ∧
          content = result.manifest.text.toUTF8) ∨
        (Preserved (x.seenFrom d).output.place p ∧ d.get? p = some (.file content) ∧
          ∀ a ∈ as, p ≠ ((x.seenFrom d).target a).place))) ∧
      d.ChangedBelow (x.seenFrom d).output.place d' := by
  have hx : (x.seenFrom d).output.Direct := Path.direct_resolve
  rw [hx.place_eq]
  refine ⟨fun p content hbelow => ?_, ?_⟩
  · exact file_iff_of_clean hx htree hclean hdry has hrun hsuccess hwarnings hbelow
  · have hchanged := run_changedBelow (d := d) hx fun a ha => (has a ha).1
    rwa [hrun] at hchanged

/-- The exporter of some files, whose directory is emptied first. -/
def freshExporter : Exporter := { siteExporter with clean := true }

/-- A file that is no longer made, in a directory under version control. -/
def usedDisk : Disk where
  entries := [(["home"], .directory), (["home", "site"], .directory),
    (["home", "site", "old.py"], .file "old".toUTF8), (["home", "site", ".git"], .directory),
    (["home", "site", ".git", "HEAD"], .file "ref".toUTF8)]
  current := ["home"]

theorem isTree_usedDisk : usedDisk.IsTree := isTree_of_entries (by decide +kernel)

theorem clean_run_files_used : ∃ result d',
    (freshExporter.seenFrom usedDisk).run usedDisk siteFiles = (result, d') ∧
      result.success = true ∧ result.warnings = [] ∧
      d'.get? ["home", "site", "b", "c.py"] = some (.file "y = 22\n".toUTF8) ∧
      d'.get? ["home", "site", ".git", "HEAD"] = some (.file "ref".toUTF8) ∧
      (∀ content, d'.get? ["home", "site", "old.py"] ≠ some (.file content)) ∧
      usedDisk.ChangedBelow ["home", "site"] d' := by
  have hsuccess :
      ((freshExporter.seenFrom usedDisk).run usedDisk siteFiles).1.success = true := by
    decide +kernel
  have hwarnings : ((freshExporter.seenFrom usedDisk).run usedDisk siteFiles).1.warnings = [] := by
    decide +kernel
  have hplace : (freshExporter.seenFrom usedDisk).output.place = ["home", "site"] := by decide
  obtain ⟨hfiles, hchanged⟩ := clean_run_files isTree_usedDisk rfl rfl
    (by decide : ∀ a ∈ siteFiles, IsInner a.path ∧ a.path ≠ manifestName) rfl hsuccess hwarnings
  rw [hplace] at hfiles hchanged
  refine ⟨_, _, rfl, hsuccess, hwarnings, ?_, ?_, fun content hold => ?_, hchanged⟩
  · refine (hfiles _ _ (by decide)).mpr (Or.inl ⟨_, List.mem_cons_of_mem _ List.mem_cons_self, ?_⟩)
    exact ⟨by decide +kernel, rfl⟩
  · exact (hfiles _ _ (by decide)).mpr (Or.inr (Or.inr ⟨by decide, rfl, by decide +kernel⟩))
  · rcases (hfiles _ _ (by decide)).mp hold with ⟨a, ha, hp, -⟩ | ⟨-, hp, -⟩ | ⟨hpreserved, -⟩
    · revert a
      decide +kernel
    · revert hp
      decide +kernel
    · exact absurd hpreserved (by decide)

/-- A dry run that is to empty the directory succeeds and leaves what was there; and an export makes
a directory outside of its own if one is missing on the way. -/
theorem clean_run_stale :
    (∃ result, ({ freshExporter with dryRun := true }.seenFrom usedDisk).run usedDisk siteFiles =
        (result, usedDisk) ∧ result.success = true ∧ result.warnings = [] ∧
      usedDisk.get? ["home", "site", "old.py"] = some (.file "old".toUTF8) ∧
      ¬ Preserved ["home", "site"] ["home", "site", "old.py"] ∧
      ∀ a ∈ siteFiles, ["home", "site", "old.py"] ≠
        (({ freshExporter with dryRun := true }.seenFrom usedDisk).target a).place) ∧
    ∃ result d', ({ freshExporter with output := ⟨"", ["new", "site"]⟩ }.seenFrom usedDisk).run
        usedDisk siteFiles = (result, d') ∧ result.success = true ∧ result.warnings = [] ∧
      ¬ Below ["home", "new", "site"] ["home", "new"] ∧ usedDisk.get? ["home", "new"] = none ∧
      d'.get? ["home", "new"] = some .directory := by
  have hsuccess : ((({ freshExporter with dryRun := true }).seenFrom usedDisk).run usedDisk
      siteFiles).1.success = true := by
    decide +kernel
  have hwarnings : ((({ freshExporter with dryRun := true }).seenFrom usedDisk).run usedDisk
      siteFiles).1.warnings = [] := by
    decide +kernel
  have hmade : ((({ freshExporter with output := ⟨"", ["new", "site"]⟩ }).seenFrom usedDisk).run
      usedDisk siteFiles).2.isDirectoryAt ["home", "new"] = true := by
    decide +kernel
  constructor
  · exact ⟨_, Prod.ext rfl (run_of_dryRun rfl), hsuccess, hwarnings, rfl, by decide,
      by decide +kernel⟩
  · exact ⟨_, _, rfl, by decide +kernel, by decide +kernel, by decide, rfl,
      isDirectoryAt_iff.mp hmade⟩

end Exporter

end EntityForge
