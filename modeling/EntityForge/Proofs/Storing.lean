import EntityForge.Proofs.Export
import EntityForge.Proofs.Passage

/-!
# What storing a file does

A file is stored in two steps: the directory that is to hold it comes about as the names of the
directory are followed, and then the file is put there. Whether it can be put there is seen from the
directories that were made, and if it cannot, these are all that is left of the attempt. An export
stores the files of its artifacts one after another, and those that cannot be stored do not keep the
others from it.
-/

namespace EntityForge

namespace Disk

variable {d d' : Disk} {p q : Place} {e : Entry} {path : Path} {content : ByteArray}

/-! ## Trees stay trees -/

theorem IsTree.overwriteFile (h : d.IsTree) (hroot : path.root ≠ "") :
    (d.overwriteFile path content).1.IsTree := by
  rw [Disk.overwriteFile]
  split
  · rename_i written hwritten
    obtain ⟨p, n, hp, hnot, rfl⟩ := (writeFile_eq_ok hroot).mp hwritten
    exact h.put hp.stands hnot
  · exact h

theorem IsTree.replaceFile (h : d.IsTree) (hroot : path.root ≠ "") :
    (d.replaceFile path content).1.IsTree := by
  obtain ⟨f, -, hr⟩ | ⟨other, t, hok, ht, hfree, hmoved⟩ :=
    replaceFile_cases hroot (rfl : d.replaceFile path content = _)
  · rw [hr]
    exact h
  · obtain ⟨m, rfl, hparent, -⟩ := temporaryFile_eq_ok hroot hok
    have hwritten : (d.put (path.parent.place ++ [m]) (.file content)).IsTree :=
      h.put hparent (by simp [hfree])
    have hgone := hwritten.remove ht
    obtain ⟨p, n, hp, hnot, hr⟩ | ⟨f, -, hr⟩ := hmoved
    · rw [hr]
      -- The temporary file is neither the directory of the target nor the target as a directory.
      refine hgone.put ((sameTree_remove_put ht hfree).kept _ _ (hp.of_put ht hfree))
        fun hd => hnot ?_
      rw [get?_remove ht] at hd
      split at hd
      · exact nomatch hd
      · exact hd
    · rw [hr]
      exact hgone

/-! ## Files put in a directory -/

/-- A file is put at a place if that can be done, and otherwise nothing changes. -/
structure Tried (d : Disk) (p : Place) (content : ByteArray) (able : Prop)
    (r : Disk × Option DiskFault) : Prop where
  succeeds_iff : r.2 = none ↔ able
  puts : r.2 = none → d.Puts r.1 p content
  same : r.2 ≠ none → d.SameTree r.1
  tree : d.IsTree → r.1.IsTree

variable {held : Place}

theorem replaceFile_tried (hroot : path.root ≠ "")
    (hwalk : d.walk [] path.parent.names = .ok held) (hheld : d.Stands held .directory) :
    d.Tried path.place content
      (Fits path temporaryExcess ∧ d.get? path.place ≠ some .directory)
      (d.replaceFile path content) where
  succeeds_iff := replaceFile_succeeds_iff hroot hwalk hheld
  puts h := by
    obtain ⟨p, n, hp, -, hputs⟩ := replaceFile_puts hroot (Prod.ext rfl h)
    exact hp.place_eq ▸ hputs
  same h := by
    obtain ⟨f, hf⟩ := Option.ne_none_iff_exists'.mp h
    exact replaceFile_sameTree hroot (Prod.ext rfl hf)
  tree h := h.replaceFile hroot

theorem overwriteFile_tried (hroot : path.root ≠ "")
    (hwalk : d.walk [] path.parent.names = .ok held) (hheld : d.Stands held .directory) :
    d.Tried path.place content (Fits path 0 ∧ d.get? path.place ≠ some .directory)
      (d.overwriteFile path content) where
  succeeds_iff := overwriteFile_succeeds_iff hroot hwalk hheld
  puts h := by
    obtain ⟨p, n, hp, -, hputs⟩ := overwriteFile_puts hroot (Prod.ext rfl h)
    exact hp.place_eq ▸ hputs
  same h := by
    obtain ⟨f, hf⟩ := Option.ne_none_iff_exists'.mp h
    exact overwriteFile_sameTree (Prod.ext rfl hf)
  tree h := h.overwriteFile hroot

end Disk

/-- The path of the artifact that a fault is about. -/
def ExportFault.path? : ExportFault → Option String
  | .duplicatePath path => some path
  | .notWritten path _ => some path
  | .notCleaned _ => none

/-- The paths of the artifacts that are at fault. -/
def ExportResult.failing (r : ExportResult) : List String := r.faults.filterMap ExportFault.path?

namespace Exporter

open Disk

variable {x : Exporter} {d d' : Disk} {as : List Artifact} {path : Path} {text : String}
  {p : Place} {e : Entry}

/-! ## One file -/

/-- How much longer a name gets while its file is stored. -/
def excess (x : Exporter) : Nat := if x.atomic then temporaryExcess else 0

/-- The disk with the directory that is to hold a file, as far as it can be made. -/
def prepared (d : Disk) (path : Path) : Disk := (d.advance [] path.parent.names).1

/-- A file can be stored: its directory can be made, its name is not too long and no directory has
its place. -/
structure Admits (x : Exporter) (d : Disk) (path : Path) : Prop where
  passage : (d.advance [] path.parent.names).2 = true
  fits : Fits path x.excess
  free : (prepared d path).get? path.place ≠ some .directory

/-- A file is put in its directory as far as that can be made, if it can be stored. -/
theorem store_tried (hpath : path.root ≠ "") :
    (prepared d path).Tried path.place text.toUTF8 (x.Admits d path)
      (x.store path.parent path text d) := by
  have hparent : path.parent.root ≠ "" := hpath
  obtain ⟨hdisk, hmade⟩ := makeDirectories_spec (d := d) hparent (Nat.le_refl _)
  rw [store]
  split
  · rename_i left f hmake
    rw [hmake] at hdisk hmade
    obtain rfl : left = prepared d path := hdisk
    have hnot : ¬ x.Admits d path := by
      intro hadmits
      cases hmade.mpr hadmits.passage
    exact ⟨iff_of_false (by simp) hnot, by simp, fun _ => SameTree.refl _, fun h => h⟩
  · rename_i made hmake
    rw [hmake] at hdisk hmade
    obtain rfl : made = prepared d path := hdisk
    obtain ⟨hwalk, hstands⟩ := advance_walk (stands_nil d) (hmade.mp rfl)
    have hadmits : x.Admits d path ↔
        Fits path x.excess ∧ (prepared d path).get? path.place ≠ some .directory :=
      ⟨fun h => ⟨h.fits, h.free⟩, fun h => ⟨hmade.mp rfl, h.1, h.2⟩⟩
    rw [hadmits, excess]
    split
    · exact replaceFile_tried hpath hwalk hstands
    · exact overwriteFile_tried hpath hwalk hstands

theorem isTree_prepared (h : d.IsTree) : (prepared d path).IsTree := h.advance (stands_nil d)

theorem isTree_store (h : d.IsTree) (hpath : path.root ≠ "") :
    (x.store path.parent path text d).1.IsTree :=
  (store_tried hpath).tree (isTree_prepared h)

/-- What stands after a file was stored stood before, is a directory on the way to the file or the
file itself. -/
theorem of_store (htree : d.IsTree) (hpath : path.root ≠ "")
    (h : (x.store path.parent path text d).1.Stands p e) :
    d.Stands p e ∨ (e = .directory ∧ ∃ ms, ms <+: path.parent.names ∧ p = follow [] ms) ∨
      ((x.store path.parent path text d).2 = none ∧ p = path.place ∧
        e = .file text.toUTF8) := by
  have htried : (prepared d path).Tried path.place text.toUTF8 (x.Admits d path)
      (x.store path.parent path text d) := store_tried hpath
  have hprepared (hp : (prepared d path).Stands p e) : d.Stands p e ∨
      (e = .directory ∧ ∃ ms, ms <+: path.parent.names ∧ p = follow [] ms) :=
    htree.of_advance (stands_nil d) hp
  by_cases hstored : (x.store path.parent path text d).2 = none
  · rw [htried.puts hstored p e] at h
    split at h
    · rename_i hp
      exact Or.inr (Or.inr ⟨hstored, hp, h⟩)
    · exact (hprepared h).imp_right Or.inl
  · exact (hprepared ((htried.same hstored p e).mpr h)).imp_right Or.inl

/-- No name of the place of a file that can be stored is too long. -/
theorem Admits.size_le (h : x.Admits d path) : ∀ n ∈ path.place, n.utf8ByteSize ≤ longestName := by
  obtain ⟨hwalk, -⟩ := advance_walk (stands_nil d) h.passage
  have hheld : ∀ n ∈ path.parent.place, n.utf8ByteSize ≤ longestName :=
    walk_size_le hwalk fun n hn => nomatch hn
  obtain ⟨n, hlast, hne, hsize⟩ := h.fits
  obtain ⟨ns, hnames⟩ := List.getLast?_eq_some_iff.mp hlast
  have hplace : path.place = path.parent.place ++ [n] := by
    rw [Path.place, Path.place, Path.parent, hnames, List.dropLast_concat, Path.collapse_concat,
      if_neg hne]
  rw [hplace]
  intro m hm
  rcases List.mem_append.mp hm with hm | hm
  · exact hheld m hm
  · exact (List.mem_singleton.mp hm) ▸ Nat.le_of_add_right_le hsize

/-! ## The files of an export -/

/-- The artifacts that are written, each of them to the disk that those before it leave. -/
def written (x : Exporter) : Disk → List Artifact → List Artifact
  | _, [] => []
  | d, a :: as =>
    match x.store (x.target a).parent (x.target a) a.content d with
    | (d, none) => a :: x.written d as
    | (d, some _) => x.written d as

variable {a : Artifact} {f : DiskFault} {result : ExportResult}

theorem writeAll_cons_of_stored
    (h : x.store (x.target a).parent (x.target a) a.content d = (d', none)) (as : List Artifact) :
    x.writeAll d (a :: as) = ((x.writeAll d' as).1, a.toRecord :: (x.writeAll d' as).2.1,
      (x.writeAll d' as).2.2) ∧ x.written d (a :: as) = a :: x.written d' as := by
  rw [writeAll, written, h]
  exact ⟨rfl, rfl⟩

theorem writeAll_cons_of_fault
    (h : x.store (x.target a).parent (x.target a) a.content d = (d', some f)) (as : List Artifact) :
    x.writeAll d (a :: as) = ((x.writeAll d' as).1, (x.writeAll d' as).2.1,
      .notWritten a.path f :: (x.writeAll d' as).2.2) ∧
        x.written d (a :: as) = x.written d' as := by
  rw [writeAll, written, h]
  exact ⟨rfl, rfl⟩

theorem written_sublist : (x.written d as).Sublist as := by
  induction as generalizing d with
  | nil => exact List.Sublist.refl []
  | cons a as ih =>
    rcases hstore : x.store (x.target a).parent (x.target a) a.content d with ⟨d', _ | f⟩
    · rw [(writeAll_cons_of_stored hstore as).2]
      exact ih.cons_cons a
    · rw [(writeAll_cons_of_fault hstore as).2]
      exact ih.cons a

theorem written_eq_nil (hroot : x.output.root ≠ "")
    (h : ∀ a ∈ as, ∀ d, ¬ x.Admits d (x.target a)) : x.written d as = [] := by
  induction as generalizing d with
  | nil => rfl
  | cons a as ih =>
    obtain ⟨ha, has⟩ := List.forall_mem_cons.mp h
    have htarget : (x.target a).root ≠ "" := Path.root_join hroot
    have htried : (prepared d (x.target a)).Tried _ _ (x.Admits d (x.target a))
        (x.store (x.target a).parent (x.target a) a.content d) := store_tried htarget
    rcases hstore : x.store (x.target a).parent (x.target a) a.content d with ⟨d', _ | f⟩
    · exact absurd (htried.succeeds_iff.mp (by rw [hstore])) (ha d)
    · rw [(writeAll_cons_of_fault hstore as).2]
      exact ih has

/-- Those that are written have their records, in their order. -/
theorem writeAll_records : (x.writeAll d as).2.1 = (x.written d as).map Artifact.toRecord := by
  induction as generalizing d with
  | nil => rfl
  | cons a as ih =>
    rcases hstore : x.store (x.target a).parent (x.target a) a.content d with ⟨d', _ | f⟩
    · obtain ⟨hwrite, hwritten⟩ := writeAll_cons_of_stored hstore as
      rw [hwrite, hwritten, List.map_cons, ih]
    · obtain ⟨hwrite, hwritten⟩ := writeAll_cons_of_fault hstore as
      rw [hwrite, hwritten, ih]

/-- Those that are written were written in a row, whatever could not be written between them. -/
theorem writeAll_wroteAll (hroot : x.output.root ≠ "") :
    d.WroteAll (x.artifactWrites (x.written d as)) (x.writeAll d as).1 := by
  induction as generalizing d with
  | nil => exact .nil (Kept.refl d)
  | cons a as ih =>
    have htarget : (x.target a).root ≠ "" := Path.root_join hroot
    rcases hstore : x.store (x.target a).parent (x.target a) a.content d with ⟨d', _ | f⟩
    · obtain ⟨hwrite, hwritten⟩ := writeAll_cons_of_stored hstore as
      obtain ⟨p, n, hp, hwrote⟩ := store_wrote (Path.root_parent ▸ htarget) htarget hstore
      rw [hwrite, hwritten]
      rw [hp.place_eq] at hwrote
      exact .cons hwrote ih
    · obtain ⟨hwrite, hwritten⟩ := writeAll_cons_of_fault hstore as
      have hkept := store_kept (Path.root_parent ▸ htarget) htarget hstore
      rw [hwrite, hwritten]
      exact WroteAll.append (.nil hkept) ih

/-- Whether or not an artifact can be written, the others are written to what its writing leaves. -/
theorem writeAll_disk_cons : (x.writeAll d (a :: as)).1 =
    (x.writeAll (x.store (x.target a).parent (x.target a) a.content d).1 as).1 := by
  rcases hstore : x.store (x.target a).parent (x.target a) a.content d with ⟨d', _ | f⟩
  · rw [(writeAll_cons_of_stored hstore as).1]
  · rw [(writeAll_cons_of_fault hstore as).1]

theorem isTree_writeAll (h : d.IsTree) (hroot : x.output.root ≠ "") :
    (x.writeAll d as).1.IsTree := by
  induction as generalizing d with
  | nil => exact h
  | cons a as ih =>
    have htarget : (x.target a).root ≠ "" := Path.root_join hroot
    rw [writeAll_disk_cons]
    exact ih (isTree_store h htarget)

/-- What stands after artifacts were written stood before, is a directory on the way to one of them
or the file of one that was written. -/
theorem of_writeAll (htree : d.IsTree) (hroot : x.output.root ≠ "")
    (h : (x.writeAll d as).1.Stands p e) :
    d.Stands p e ∨
      (e = .directory ∧ ∃ a ∈ as, ∃ ms, ms <+: (x.target a).parent.names ∧ p = follow [] ms) ∨
      ∃ a ∈ x.written d as, p = (x.target a).place ∧ e = .file a.content.toUTF8 := by
  induction as generalizing d with
  | nil => exact Or.inl h
  | cons a as ih =>
    have htarget : (x.target a).root ≠ "" := Path.root_join hroot
    have hwritten {b : Artifact}
        (hb : b ∈ x.written (x.store (x.target a).parent (x.target a) a.content d).1 as ∨
          (x.store (x.target a).parent (x.target a) a.content d).2 = none ∧ b = a) :
        b ∈ x.written d (a :: as) := by
      rcases hstore : x.store (x.target a).parent (x.target a) a.content d with ⟨d', _ | f⟩
      · rw [hstore] at hb
        rw [(writeAll_cons_of_stored hstore as).2, List.mem_cons]
        exact hb.symm.imp_left And.right
      · rw [hstore] at hb
        rw [(writeAll_cons_of_fault hstore as).2]
        exact hb.resolve_right fun hab => nomatch hab.1
    rw [writeAll_disk_cons] at h
    rcases ih (isTree_store htree htarget) h with hp | ⟨hdir, b, hb, hway⟩ | ⟨b, hb, hfile⟩
    · rcases of_store htree htarget hp with hp | ⟨hdir, hway⟩ | ⟨hstored, hfile⟩
      · exact Or.inl hp
      · exact Or.inr (Or.inl ⟨hdir, a, List.mem_cons_self, hway⟩)
      · exact Or.inr (Or.inr ⟨a, hwritten (Or.inr ⟨hstored, rfl⟩), hfile⟩)
    · exact Or.inr (Or.inl ⟨hdir, b, List.mem_cons_of_mem a hb, hway⟩)
    · exact Or.inr (Or.inr ⟨b, hwritten (Or.inl hb), hfile⟩)

/-! ## The manifest -/

theorem parent_manifestPath : x.manifestPath.parent = x.output := by
  have hname : Path.ofText manifestName = ⟨"", [manifestName]⟩ := by decide
  rw [manifestPath, Path.join, hname, if_pos rfl, Path.parent, List.dropLast_concat]

/-- The manifest is stored as other files are. -/
theorem writeManifest_eq {m : Manifest} (hasked : x.withManifest = true) :
    x.writeManifest m d =
      { x with atomic := true }.store x.manifestPath.parent x.manifestPath m.text d := by
  rw [writeManifest, if_pos hasked, parent_manifestPath]
  rfl

theorem isTree_writeManifest {m : Manifest} (h : d.IsTree) (hroot : x.output.root ≠ "") :
    (x.writeManifest m d).1.IsTree := by
  by_cases hasked : x.withManifest = true
  · rw [writeManifest_eq hasked]
    exact isTree_store h (Path.root_join hroot)
  · rw [writeManifest, if_neg hasked]
    exact h

/-- A file after the manifest was written is the manifest or was there before. -/
theorem of_writeManifest {m : Manifest} {content : ByteArray} (htree : d.IsTree)
    (hroot : x.output.root ≠ "") (h : (x.writeManifest m d).1.Stands p (.file content)) :
    d.Stands p (.file content) ∨
      (x.withManifest = true ∧ (x.writeManifest m d).2 = none) ∧ p = x.manifestPath.place ∧
        content = m.text.toUTF8 := by
  by_cases hasked : x.withManifest = true
  · rw [writeManifest_eq hasked] at h ⊢
    rcases of_store htree (Path.root_join hroot) h with hp | ⟨hdir, -⟩ | ⟨hstored, hp, hfile⟩
    · exact Or.inl hp
    · exact nomatch hdir
    · exact Or.inr ⟨⟨hasked, hstored⟩, hp, Entry.file.inj hfile⟩
  · rw [writeManifest, if_neg hasked] at h
    exact Or.inl h

/-! ## The whole export -/

/-- The outcome of writing artifacts and their manifest, and the disk afterwards. -/
def fill (x : Exporter) (d : Disk) (as : List Artifact) : ExportResult × Disk :=
  let m := x.manifestOf (x.writeAll d as).2.1
  let (left, manifestFault) := x.writeManifest m (x.writeAll d as).1
  (⟨m, (x.writeAll d as).2.2, manifestFault, false⟩, left)

/-- What an export does that is neither refused nor dry and finds its output directory emptied. -/
theorem run_of_cleaned {cleaned : Disk} (hpaths : (as.map Artifact.path).Nodup)
    (hdry : x.dryRun = false) (hcleaned : x.cleaned d = .ok cleaned) :
    x.run d as = x.fill cleaned as := by
  rw [run, duplicatePaths_eq_nil.mpr hpaths, hdry, hcleaned]
  rfl

/-- An export whose output directory cannot be emptied touches nothing. -/
theorem run_of_not_cleaned (hpaths : (as.map Artifact.path).Nodup) (hdry : x.dryRun = false)
    (hfault : x.cleaned d = .error f) :
    x.run d as = (⟨x.manifestOf [], [.notCleaned f], none, false⟩, d) := by
  rw [run, duplicatePaths_eq_nil.mpr hpaths, hdry, hfault]
  rfl

/-- A dry run has the records of all artifacts. -/
theorem run_eq_of_dryRun (hpaths : (as.map Artifact.path).Nodup) (hdry : x.dryRun = true) :
    x.run d as = (⟨x.manifestOf (as.map Artifact.toRecord), [], none, true⟩, d) := by
  rw [run, duplicatePaths_eq_nil.mpr hpaths, hdry]
  rfl

/-- An export that is refused has no records, and its faults are the paths that are not alone. -/
theorem run_eq_of_duplicate (hpaths : ¬ (as.map Artifact.path).Nodup) :
    x.run d as =
      (⟨x.manifestOf [], (duplicatePaths as).map .duplicatePath, none, x.dryRun⟩, d) := by
  rw [run]
  split
  · rename_i hduplicate
    rw [hduplicate]
  · rename_i hnil
    exact absurd (duplicatePaths_eq_nil.mp hnil) hpaths

theorem nodup_of_success (h : x.run d as = (result, d')) (hsuccess : result.success = true) :
    (as.map Artifact.path).Nodup := by
  rw [← duplicatePaths_eq_nil]
  rw [run] at h
  split at h
  · rw [← (Prod.mk.inj h).1] at hsuccess
    cases hsuccess
  · assumption

/-- The manifest of an export is that of its records. -/
theorem manifest_eq (h : x.run d as = (result, d')) :
    result.manifest = x.manifestOf result.manifest.files := by
  rw [run] at h
  split at h
  · rw [← (Prod.mk.inj h).1]
    rfl
  · split at h
    · rw [← (Prod.mk.inj h).1]
      rfl
    · split at h
      · rw [← (Prod.mk.inj h).1]
        rfl
      · rw [← (Prod.mk.inj h).1]
        rfl

/-- An export touches nothing or writes to what is left of its output directory. -/
theorem run_cases : (x.run d as).2 = d ∨
    ∃ cleaned, x.cleaned d = .ok cleaned ∧ x.run d as = x.fill cleaned as := by
  by_cases hpaths : (as.map Artifact.path).Nodup
  · cases hdry : x.dryRun with
    | true => exact Or.inl (run_of_dryRun hdry)
    | false =>
      cases hcleaned : x.cleaned d with
      | error f => exact Or.inl (by rw [run_of_not_cleaned hpaths hdry hcleaned])
      | ok cleaned => exact Or.inr ⟨cleaned, rfl, run_of_cleaned hpaths hdry hcleaned⟩
  · exact Or.inl (run_of_duplicate hpaths)

theorem isTree_fill (htree : d.IsTree) (hroot : x.output.root ≠ "") : (x.fill d as).2.IsTree :=
  isTree_writeManifest (isTree_writeAll htree hroot) hroot

/-- A file after artifacts and their manifest were written was there before, is that of an artifact
or the manifest. -/
theorem of_fill {content : ByteArray} (htree : d.IsTree) (hroot : x.output.root ≠ "")
    (h : (x.fill d as).2.Stands p (.file content)) :
    d.Stands p (.file content) ∨
      (∃ a ∈ as, p = (x.target a).place ∧ content = a.content.toUTF8) ∨
      (x.withManifest = true ∧ p = x.manifestPath.place ∧
        content = (x.fill d as).1.manifest.text.toUTF8) := by
  rcases of_writeManifest (isTree_writeAll htree hroot) hroot h with hp | ⟨hasked, hmanifest⟩
  · rcases of_writeAll htree hroot hp with hp | ⟨hdir, -⟩ | ⟨a, ha, hplace, hfile⟩
    · exact Or.inl hp
    · exact nomatch hdir
    · exact Or.inr (Or.inl ⟨a, written_sublist.subset ha, hplace, Entry.file.inj hfile⟩)
  · exact Or.inr (Or.inr ⟨hasked.1, hmanifest⟩)

end Exporter

end EntityForge
