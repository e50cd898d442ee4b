import EntityForge.Artifact.Export
import EntityForge.Proofs.Replacement

/-!
# What an export leaves on the disk

An export writes its artifacts one after another and then the manifest. What was written to a place
stays until something else is written to the same place, so that in the end each place holds the
text written there last. Paths written in different ways can lead to one place, and only the written
paths are compared before the export.
-/

namespace EntityForge

namespace Disk

/-! ## Files written in a row -/

/-- Files were written in a row, and all else that stood somewhere still stands there. -/
inductive WroteAll : Disk → List (Place × ByteArray) → Disk → Prop
  | nil {d d' : Disk} (kept : d.Kept d') : WroteAll d [] d'
  | cons {d d' d'' : Disk} {p : Place} {content : ByteArray} {ws : List (Place × ByteArray)}
    (first : d.Wrote d' p content) (rest : WroteAll d' ws d'') : WroteAll d ((p, content) :: ws) d''

variable {d d' d'' : Disk} {p q : Place} {e : Entry} {content : ByteArray}
  {ws vs : List (Place × ByteArray)}

/-- What was written to a place last. -/
def lastAt (ws : List (Place × ByteArray)) (p : Place) : Option ByteArray := ws.reverse.lookup p

theorem lastAt_cons : lastAt ((q, content) :: ws) p =
    (lastAt ws p).or (if p = q then some content else none) := by
  rw [lastAt, lastAt, List.reverse_cons, List.lookup_append]
  by_cases h : p = q
  · rw [if_pos h, List.lookup_cons, beq_iff_eq.mpr h]
  · rw [if_neg h, List.lookup_cons, beq_eq_false_iff_ne.mpr h, List.lookup_nil]

/-- Something was written last to each place to which something was written. -/
theorem exists_lastAt (h : (p, content) ∈ ws) : ∃ last, lastAt ws p = some last := by
  rw [lastAt, ← Option.isSome_iff_exists, List.lookup_isSome_iff]
  exact ⟨(p, content), List.mem_reverse.mpr h, beq_iff_eq.mpr rfl⟩

theorem lastAt_eq_none : lastAt ws p = none ↔ p ∉ ws.map Prod.fst := by
  rw [lastAt, List.lookup_eq_none_iff, List.mem_map]
  simp only [List.mem_reverse, bne_iff_ne]
  exact ⟨fun h ⟨w, hw, hp⟩ => h w hw hp.symm, fun h w hw hp => h ⟨w, hw, hp.symm⟩⟩

/-- What is written once to a place was written there last. -/
theorem lastAt_of_nodup (hws : (ws.map Prod.fst).Nodup) (h : (p, content) ∈ ws) :
    lastAt ws p = some content := by
  induction ws with
  | nil => exact nomatch h
  | cons w ws ih =>
    obtain ⟨q, first⟩ := w
    rw [List.map_cons, List.nodup_cons] at hws
    rw [lastAt_cons]
    rcases List.mem_cons.mp h with heq | hrest
    · obtain ⟨rfl, rfl⟩ := Prod.mk.inj heq
      rw [lastAt_eq_none.mpr hws.1, if_pos rfl, Option.none_or]
    · rw [ih hws.2 hrest, Option.some_or]

theorem WroteAll.append (h : d.WroteAll ws d') (h' : d'.WroteAll vs d'') :
    d.WroteAll (ws ++ vs) d'' := by
  induction h with
  | nil kept =>
    cases h' with
    | nil kept' => exact .nil (kept.trans kept')
    | cons first rest => exact .cons (kept.wrote first) rest
  | cons first rest ih => exact .cons first (ih h')

theorem WroteAll.directories (h : d.WroteAll ws d') : d.DirectoriesKept d' := by
  induction h with
  | nil kept => exact kept.directories
  | cons first rest ih => exact first.directories.trans ih

/-- What stands where nothing is written still stands there. -/
theorem WroteAll.kept (h : d.WroteAll ws d') (hp : lastAt ws p = none) (he : d.Stands p e) :
    d'.Stands p e := by
  induction h with
  | nil kept => exact kept p e he
  | cons first rest ih =>
    rw [lastAt_cons, Option.or_eq_none_iff] at hp
    refine ih hp.1 (first.kept p e ?_ he)
    rintro rfl
    exact Option.some_ne_none _ ((if_pos rfl).symm.trans hp.2)

/-- A place holds what was written to it last. -/
theorem WroteAll.stands (h : d.WroteAll ws d') (hp : lastAt ws p = some content) :
    d'.Stands p (.file content) := by
  induction h with
  | nil kept => exact nomatch hp
  | cons first rest ih =>
    rw [lastAt_cons, Option.or_eq_some_iff] at hp
    rcases hp with hp | ⟨hrest, hp⟩
    · exact ih hp
    · obtain ⟨rfl, rfl⟩ : p = _ ∧ _ = content := by simpa using hp
      exact rest.kept hrest first.stands

end Disk

/-! ## The steps of an export -/

section

variable {x : Exporter} {d d' : Disk} {as : List Artifact} {directory path : Path} {text : String}
  {result : ExportResult}

namespace Exporter

open Disk

/-- A file that is stored has its new content, and nothing else changes. -/
theorem store_wrote (hdirectory : directory.root ≠ "") (hpath : path.root ≠ "")
    (h : x.store directory path text d = (d', none)) :
    ∃ p n, d'.LeadsTo path p n ∧ d.Wrote d' (p ++ [n]) text.toUTF8 := by
  rw [store] at h
  have hmade := makeDirectories_kept d directory.names.length hdirectory
  split at h
  · exact nomatch (Prod.mk.inj h).2
  · rename_i made hmake
    rw [hmake] at hmade
    have hputs : ∃ p n, d'.LeadsTo path p n ∧ ¬ made.Stands (p ++ [n]) .directory ∧
        made.Puts d' (p ++ [n]) text.toUTF8 := by
      split at h
      · exact replaceFile_puts hpath h
      · exact overwriteFile_puts hpath h
    obtain ⟨p, n, hp, hnot, hputs⟩ := hputs
    exact ⟨p, n, hp, hmade.wrote (hputs.wrote hnot)⟩

/-- A file that cannot be stored leaves the disk as it was, but for directories. -/
theorem store_kept {fault : DiskFault} (hdirectory : directory.root ≠ "") (hpath : path.root ≠ "")
    (h : x.store directory path text d = (d', some fault)) : d.Kept d' := by
  rw [store] at h
  have hmade := makeDirectories_kept d directory.names.length hdirectory
  split at h
  · rename_i hmake
    rw [hmake] at hmade
    rwa [← (Prod.mk.inj h).1]
  · rename_i made hmake
    rw [hmake] at hmade
    refine hmade.trans ?_
    split at h
    · exact (replaceFile_sameTree hpath h).kept
    · exact (overwriteFile_sameTree h).kept

/-- The writes of artifacts. -/
def artifactWrites (x : Exporter) (as : List Artifact) : List (Place × ByteArray) :=
  as.map fun a => ((x.target a).place, a.content.toUTF8)

/-- Artifacts that are all written have their records, and their paths lead somewhere. -/
theorem writeAll_wrote {records : List FileRecord} (hroot : x.output.root ≠ "")
    (h : x.writeAll d as = (d', records, [])) :
    records = as.map Artifact.toRecord ∧ d.WroteAll (x.artifactWrites as) d' ∧
      ∀ a ∈ as, ∃ p n, d'.LeadsTo (x.target a) p n := by
  induction as generalizing d records with
  | nil =>
    rw [writeAll] at h
    obtain ⟨rfl, hnone⟩ := Prod.mk.inj h
    obtain ⟨rfl, -⟩ := Prod.mk.inj hnone
    exact ⟨rfl, .nil (Kept.refl d), fun a ha => nomatch ha⟩
  | cons a as ih =>
    rw [writeAll] at h
    split at h
    · rename_i stored hstore
      have htarget : (x.target a).root ≠ "" := Path.root_join hroot
      obtain ⟨p, n, hp, hwrote⟩ :=
        store_wrote (Path.root_parent ▸ htarget) htarget hstore
      generalize hrest : x.writeAll stored as = rest at h
      obtain ⟨left, others, faults⟩ := rest
      obtain ⟨rfl, hleft⟩ := Prod.mk.inj h
      obtain ⟨rfl, rfl⟩ := Prod.mk.inj hleft
      obtain ⟨rfl, hall, hlead⟩ := ih hrest
      rw [hp.place_eq] at hwrote
      refine ⟨rfl, .cons hwrote hall, fun b hb => ?_⟩
      rcases List.mem_cons.mp hb with rfl | hb
      · exact ⟨p, n, hp.mono hall.directories⟩
      · exact hlead b hb
    · generalize x.writeAll _ as = rest at h
      obtain ⟨left, others, faults⟩ := rest
      exact nomatch (Prod.mk.inj (Prod.mk.inj h).2).2

/-- The path of the manifest. -/
def manifestPath (x : Exporter) : Path := x.output.join (.ofText manifestName)

/-- The writes of an export: its artifacts, and then the manifest if it could be written. -/
def writes (x : Exporter) (as : List Artifact) (result : ExportResult) : List (Place × ByteArray) :=
  x.artifactWrites as ++
    if x.withManifest ∧ result.manifestFault = none then
      [(x.manifestPath.place, result.manifest.text.toUTF8)]
    else []

theorem writeManifest_wrote {m : Manifest} {fault : Option DiskFault} (hroot : x.output.root ≠ "")
    (h : x.writeManifest m d = (d', fault)) :
    d.WroteAll (if x.withManifest ∧ fault = none then [(x.manifestPath.place, m.text.toUTF8)]
      else []) d' := by
  rw [writeManifest] at h
  by_cases hasked : x.withManifest
  · rw [if_pos hasked] at h
    cases fault with
    | none =>
      obtain ⟨p, n, hp, hwrote⟩ := store_wrote hroot (Path.root_join hroot) h
      rw [hp.place_eq] at hwrote
      rw [if_pos ⟨hasked, rfl⟩]
      exact .cons hwrote (.nil (Kept.refl d'))
    | some f =>
      rw [if_neg fun h => nomatch h.2]
      exact .nil (store_kept hroot (Path.root_join hroot) h)
  · rw [if_neg hasked] at h
    rw [if_neg fun h => hasked h.1, ← (Prod.mk.inj h).1]
    exact .nil (Kept.refl d)

theorem duplicatePaths_eq_nil : duplicatePaths as = [] ↔ (as.map Artifact.path).Nodup := by
  rw [duplicatePaths, ← List.length_eq_zero_iff, (List.mergeSort_perm _ _).length_eq,
    List.length_eq_zero_iff, List.filter_eq_nil_iff, List.nodup_iff_count_le_one]
  simp only [List.mem_eraseDups, decide_eq_true_eq, Nat.not_lt]
  constructor
  · intro h p
    by_cases hp : p ∈ as.map Artifact.path
    · exact h p hp
    · rw [List.count_eq_zero_of_not_mem hp]
      exact Nat.zero_le 1
  · exact fun h p _ => h p

/-- An export is refused before anything is touched. -/
theorem run_of_duplicate (h : ¬ (as.map Artifact.path).Nodup) : (x.run d as).2 = d := by
  rw [run]
  split
  · rfl
  · rename_i hnil
    exact absurd (duplicatePaths_eq_nil.mp hnil) h

/-- A dry run touches nothing. -/
theorem run_of_dryRun (h : x.dryRun = true) : (x.run d as).2 = d := by
  rw [run]
  split
  · rfl
  · rw [if_pos h]

/-- What an export that was not refused has done. -/
theorem run_of_success (h : x.run d as = (result, d')) (hdry : x.dryRun = false)
    (hsuccess : result.success = true) : ∃ cleaned written,
      x.cleaned d = .ok cleaned ∧
      x.writeAll cleaned as = (written, result.manifest.files, []) ∧
      x.writeManifest result.manifest written = (d', result.manifestFault) := by
  rw [run] at h
  split at h
  · rw [← (Prod.mk.inj h).1] at hsuccess
    exact nomatch hsuccess
  · rw [hdry, if_neg Bool.false_ne_true] at h
    split at h
    · rw [← (Prod.mk.inj h).1] at hsuccess
      exact nomatch hsuccess
    · rename_i cleaned hcleaned
      refine ⟨cleaned, (x.writeAll cleaned as).1, hcleaned, ?_⟩
      obtain ⟨rfl, rfl⟩ := Prod.mk.inj h
      have hfaults : (x.writeAll cleaned as).2.2 = [] := List.isEmpty_iff.mp hsuccess
      exact ⟨by rw [← hfaults]; rfl, rfl⟩

/-- An export that succeeds has written its artifacts and the manifest, and each record is that of
an artifact. -/
theorem run_wrote (hroot : x.output.root ≠ "") (h : x.run d as = (result, d'))
    (hdry : x.dryRun = false) (hsuccess : result.success = true) :
    result.manifest.files = as.map Artifact.toRecord ∧
      (∃ cleaned, x.cleaned d = .ok cleaned ∧ cleaned.WroteAll (x.writes as result) d') ∧
      ∀ a ∈ as, ∃ p n, d'.LeadsTo (x.target a) p n := by
  obtain ⟨cleaned, written, hcleaned, hwrite, hmanifest⟩ := run_of_success h hdry hsuccess
  obtain ⟨hrecords, hwritten, hlead⟩ := writeAll_wrote hroot hwrite
  have hlast := writeManifest_wrote hroot hmanifest
  refine ⟨hrecords, ⟨cleaned, hcleaned, hwritten.append hlast⟩, fun a ha => ?_⟩
  obtain ⟨p, n, hp⟩ := hlead a ha
  exact ⟨p, n, hp.mono hlast.directories⟩

/-- The manifest of an export that succeeds has the records of its artifacts, also in a dry run. -/
theorem run_files (hroot : x.output.root ≠ "") (hsuccess : (x.run d as).1.success = true) :
    (x.run d as).1.manifest.files = as.map Artifact.toRecord := by
  by_cases hdry : x.dryRun = true
  · rw [run] at hsuccess ⊢
    split
    · rename_i hduplicate
      rw [hduplicate] at hsuccess
      exact nomatch hsuccess
    · rw [if_pos hdry]
      rfl
  · exact (run_wrote hroot rfl (Bool.not_eq_true _ ▸ hdry) hsuccess).1

/-- Something is written to the place of every artifact, and what was written there last stands
there in the end. -/
theorem run_stands {a : Artifact} (hroot : x.output.root ≠ "") (h : x.run d as = (result, d'))
    (hdry : x.dryRun = false) (hsuccess : result.success = true) (ha : a ∈ as) :
    ∃ content, lastAt (x.writes as result) (x.target a).place = some content ∧
      d'.lookup (x.target a) = .ok (.file content) := by
  obtain ⟨-, ⟨cleaned, -, hwrote⟩, hlead⟩ := run_wrote hroot h hdry hsuccess
  obtain ⟨p, n, hp⟩ := hlead a ha
  have hwritten : ((x.target a).place, a.content.toUTF8) ∈ x.writes as result :=
    List.mem_append_left _ (List.mem_map.mpr ⟨a, ha, rfl⟩)
  obtain ⟨content, hlast⟩ := exists_lastAt hwritten
  refine ⟨content, hlast, hp.lookup_eq (Path.root_join hroot) ?_⟩
  rw [hp.place_eq]
  exact hwrote.stands hlast

end Exporter

/-! ## Records -/

/-- A record says what is true of the bytes of a file. -/
structure FileRecord.Describes (r : FileRecord) (content : ByteArray) : Prop where
  size : content.size = r.size
  digest : Digest.sha256 content = r.sha256
  lines : ∃ text : String, text.toUTF8 = content ∧ Text.lineCount text = r.lineCount

/-- A record is true on a disk: the file that it names exists and is as it says. -/
def FileRecord.TrueOn (r : FileRecord) (d : Disk) (output : Path) : Prop :=
  ∃ content, d.lookup (output.join (.ofText r.path)) = .ok (.file content) ∧ r.Describes content

/-- The size of the file that a path leads to. -/
def Disk.sizeOf? (d : Disk) (path : Path) : Option Nat :=
  match d.lookup path with
  | .ok (.file content) => some content.size
  | _ => none

theorem FileRecord.TrueOn.sizeOf?_eq {r : FileRecord} {output : Path} (h : r.TrueOn d output) :
    d.sizeOf? (output.join (.ofText r.path)) = some r.size := by
  obtain ⟨content, hlookup, hdescribes⟩ := h
  rw [Disk.sizeOf?, hlookup, ← hdescribes.size]

/-- A record is true of what it was taken from. -/
theorem Artifact.describes_toRecord (a : Artifact) : a.toRecord.Describes a.content.toUTF8 where
  size := rfl
  digest := rfl
  lines := ⟨a.content, rfl, rfl⟩

namespace Exporter

open Disk

/-- The exporter with its output directory seen from the current directory of a disk. -/
def seenFrom (x : Exporter) (d : Disk) : Exporter :=
  { x with output := x.output.resolve d.current }

/-- The record of an artifact is true exactly if it describes what the export wrote to the place of
the artifact last. -/
theorem trueOn_iff {a : Artifact} (hrun : (x.seenFrom d).run d as = (result, d'))
    (hdry : x.dryRun = false) (hsuccess : result.success = true) (ha : a ∈ as) :
    a.toRecord.TrueOn d' (x.seenFrom d).output ↔ ∃ content,
      lastAt ((x.seenFrom d).writes as result) ((x.seenFrom d).target a).place = some content ∧
        a.toRecord.Describes content := by
  obtain ⟨content, hlast, hlookup⟩ := run_stands Path.root_resolve hrun hdry hsuccess ha
  constructor
  · rintro ⟨found, hfound, hdescribes⟩
    obtain rfl : content = found := Entry.file.inj (Except.ok.inj (hlookup.symm.trans hfound))
    exact ⟨content, hlast, hdescribes⟩
  · rintro ⟨last, hlast', hdescribes⟩
    obtain rfl : content = last := Option.some.inj (hlast.symm.trans hlast')
    exact ⟨content, hlookup, hdescribes⟩

/-- The records of an export are all true exactly if each of them describes what the export wrote to
its place last. -/
theorem records_true_iff (hrun : (x.seenFrom d).run d as = (result, d'))
    (hdry : x.dryRun = false) (hsuccess : result.success = true) :
    (∀ r ∈ result.manifest.files, r.TrueOn d' (x.seenFrom d).output) ↔
      ∀ a ∈ as, ∃ content,
        lastAt ((x.seenFrom d).writes as result) ((x.seenFrom d).target a).place = some content ∧
          a.toRecord.Describes content := by
  obtain ⟨hrecords, -, -⟩ := run_wrote Path.root_resolve hrun hdry hsuccess
  rw [hrecords, List.forall_mem_map]
  exact forall₂_congr fun a ha => trueOn_iff hrun hdry hsuccess ha

/-- Artifacts go to places of their own, none of which is that of the manifest. -/
structure Apart (x : Exporter) (as : List Artifact) : Prop where
  places : (as.map fun a => (x.target a).place).Nodup
  manifest : ∀ a ∈ as, (x.target a).place ≠ x.manifestPath.place

instance (x : Exporter) (as : List Artifact) : Decidable (x.Apart as) :=
  decidable_of_iff ((as.map fun a => (x.target a).place).Nodup ∧
      ∀ a ∈ as, (x.target a).place ≠ x.manifestPath.place)
    ⟨fun ⟨hplaces, hmanifest⟩ => ⟨hplaces, hmanifest⟩, fun h => ⟨h.places, h.manifest⟩⟩

/-- What an artifact in a place of its own holds is written there last. -/
theorem Apart.lastAt_writes {a : Artifact} (h : x.Apart as) (ha : a ∈ as) :
    lastAt (x.writes as result) (x.target a).place = some a.content.toUTF8 := by
  refine lastAt_of_nodup ?_ (List.mem_append_left _ (List.mem_map.mpr ⟨a, ha, rfl⟩))
  have hplaces : (x.artifactWrites as).map Prod.fst = as.map fun a => (x.target a).place := by
    rw [artifactWrites, List.map_map]
    rfl
  rw [writes, List.map_append, hplaces]
  split
  · refine List.nodup_append.mpr ⟨h.places, List.nodup_singleton _, ?_⟩
    intro p hp q hq
    obtain ⟨b, hb, rfl⟩ := List.mem_map.mp hp
    obtain rfl := List.mem_singleton.mp hq
    exact h.manifest b hb
  · rw [List.map_nil, List.append_nil]
    exact h.places

/-- The records of an export are true if its files go to places of their own. -/
theorem Apart.records_true (h : (x.seenFrom d).Apart as)
    (hrun : (x.seenFrom d).run d as = (result, d')) (hdry : x.dryRun = false)
    (hsuccess : result.success = true) :
    ∀ r ∈ result.manifest.files, r.TrueOn d' (x.seenFrom d).output := by
  obtain ⟨hrecords, -, -⟩ := run_wrote Path.root_resolve hrun hdry hsuccess
  rw [hrecords, List.forall_mem_map]
  intro a ha
  exact (trueOn_iff hrun hdry hsuccess ha).mpr ⟨_, h.lastAt_writes ha, a.describes_toRecord⟩

/-- An exporter for some files. -/
def siteExporter : Exporter where
  config := {}
  output := ⟨"", ["site"]⟩

/-- Two modules beside each other. -/
def siteFiles : List Artifact := [
  { path := "a.py", content := "x = 1\n", entity := "A", kind := "model" },
  { path := "b/c.py", content := "y = 22\n", entity := "C", kind := "model" }]

/-- Files in two directories, one of which has a file of theirs already. -/
def siteDisk : Disk where
  entries := [(["home"], .directory), (["home", "site"], .directory),
    (["home", "site", "a.py"], .file "old".toUTF8)]
  current := ["home"]

theorem records_true_site : ∃ result d',
    (siteExporter.seenFrom siteDisk).run siteDisk siteFiles = (result, d') ∧
      siteExporter.dryRun = false ∧ result.success = true ∧ result.manifest.files.length = 2 ∧
      ∀ r ∈ result.manifest.files, r.TrueOn d' (siteExporter.seenFrom siteDisk).output := by
  have hsuccess :
      ((siteExporter.seenFrom siteDisk).run siteDisk siteFiles).1.success = true := by
    decide +kernel
  have hlength : ((siteExporter.seenFrom siteDisk).run siteDisk
      siteFiles).1.manifest.files.length = 2 := by
    decide +kernel
  have hapart : (siteExporter.seenFrom siteDisk).Apart siteFiles := by decide +kernel
  exact ⟨_, _, rfl, rfl, hsuccess, hlength, (records_true_iff rfl rfl hsuccess).mpr fun a ha =>
    ⟨_, hapart.lastAt_writes ha, a.describes_toRecord⟩⟩

/-- Two files of one place, whose paths are written in different ways. -/
def sameFiles : List Artifact := [
  { path := "a.py", content := "x = 1\n", entity := "A", kind := "model" },
  { path := "./a.py", content := "y = 22\n", entity := "A", kind := "model" }]

/-- The second file replaces the first, whose record stays as it was. -/
theorem records_untrue_same : ∃ result d',
    (siteExporter.seenFrom siteDisk).run siteDisk sameFiles = (result, d') ∧
      siteExporter.dryRun = false ∧ result.success = true ∧
      ∃ r ∈ result.manifest.files, ¬ r.TrueOn d' (siteExporter.seenFrom siteDisk).output := by
  have hsuccess :
      ((siteExporter.seenFrom siteDisk).run siteDisk sameFiles).1.success = true := by
    decide +kernel
  have hfirst : ∃ r ∈ ((siteExporter.seenFrom siteDisk).run siteDisk sameFiles).1.manifest.files,
      ((siteExporter.seenFrom siteDisk).run siteDisk sameFiles).2.sizeOf?
        ((siteExporter.seenFrom siteDisk).output.join (.ofText r.path)) ≠ some r.size := by
    decide +kernel
  obtain ⟨r, hr, hsize⟩ := hfirst
  exact ⟨_, _, rfl, rfl, hsuccess, r, hr, fun htrue => hsize htrue.sizeOf?_eq⟩

end Exporter

end

end EntityForge
