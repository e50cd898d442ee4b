import EntityForge.Proofs.Storing

/-!
# The records of a manifest

A dry run takes the records of all artifacts at once, an export one by one as their files are
written; where all are written the two manifests say the same. In an export that fails in part, each
artifact has either its record or its fault. Records take their measures from the content, and they
are those that the artifacts give for themselves.
-/

namespace EntityForge

variable {as : List Artifact}

/-! ## Measures -/

/-- The lines of a file are counted as those of its artifact are. -/
theorem Artifact.lineCount_eq (a : Artifact) : a.lineCount = Text.lineCount a.content := by
  rw [Artifact.lineCount, Text.lineCount]
  by_cases hempty : a.content = ""
  · rw [if_pos hempty, hempty]
    rfl
  · have hne : a.content.toList ≠ [] := mt String.toList_eq_nil_iff.mp hempty
    by_cases hlast : a.content.toList.getLast? = some '\n'
    · simp [hempty, hlast]
    · simp [hempty, hne, hlast]

/-- What a manifest says of its files as a whole is what some artifacts come to. -/
structure Manifest.Sums (m : Manifest) (as : List Artifact) : Prop where
  files : m.totalFiles = as.length
  size : m.totalSize = Text.total (as.map Artifact.size)
  lines : m.totalLines = Text.total (as.map Artifact.lineCount)

/-- The totals of a manifest are the sums of what the artifacts measure themselves. -/
theorem Manifest.sums_of_files {m : Manifest} (h : m.files = as.map Artifact.toRecord) :
    m.Sums as := by
  constructor
  · rw [totalFiles, h, List.length_map]
  · rw [totalSize, h, List.map_map]
    rfl
  · rw [totalLines, h, List.map_map]
    exact congrArg Text.total (List.map_congr_left fun a _ => (a.lineCount_eq).symm)

namespace Exporter

open Disk

variable {x y : Exporter} {d d' e e' : Disk} {a : Artifact} {result dry : ExportResult}
  {fault : ExportFault}

/-! ## Records and faults -/

/-- Each fault is that of an artifact that could not be written. -/
theorem exists_of_mem_faults (h : fault ∈ (x.writeAll d as).2.2) :
    ∃ a ∈ as, ∃ f, fault = .notWritten a.path f := by
  induction as generalizing d with
  | nil => exact nomatch h
  | cons a as ih =>
    have hlater {d : Disk} (h : fault ∈ (x.writeAll d as).2.2) :
        ∃ b ∈ a :: as, ∃ f, fault = .notWritten b.path f :=
      (ih h).imp fun b hb => ⟨List.mem_cons_of_mem a hb.1, hb.2⟩
    rcases hstore : x.store (x.target a).parent (x.target a) a.content d with ⟨d', _ | f⟩
    · rw [(writeAll_cons_of_stored hstore as).1] at h
      exact hlater h
    · rw [(writeAll_cons_of_fault hstore as).1] at h
      rcases List.mem_cons.mp h with rfl | h
      · exact ⟨a, List.mem_cons_self, f, rfl⟩
      · exact hlater h

/-- Every artifact has its record or its fault. -/
theorem length_records_add_faults :
    (x.writeAll d as).2.1.length + (x.writeAll d as).2.2.length = as.length := by
  induction as generalizing d with
  | nil => rfl
  | cons a as ih =>
    rcases hstore : x.store (x.target a).parent (x.target a) a.content d with ⟨d', _ | f⟩
    · have hrest := @ih d'
      rw [(writeAll_cons_of_stored hstore as).1]
      simp only [List.length_cons]
      omega
    · have hrest := @ih d'
      rw [(writeAll_cons_of_fault hstore as).1]
      simp only [List.length_cons]
      omega

/-- The artifacts that are written are those whose paths are not at fault. -/
theorem written_eq_filter (hpaths : (as.map Artifact.path).Nodup) :
    x.written d as = as.filter fun a =>
      a.path ∉ (x.writeAll d as).2.2.filterMap ExportFault.path? := by
  induction as generalizing d with
  | nil => rfl
  | cons a as ih =>
    rw [List.map_cons, List.nodup_cons] at hpaths
    rcases hstore : x.store (x.target a).parent (x.target a) a.content d with ⟨d', _ | f⟩
    · obtain ⟨hwrite, hwritten⟩ := writeAll_cons_of_stored hstore as
      have ha : a.path ∉ (x.writeAll d' as).2.2.filterMap ExportFault.path? := by
        intro hmem
        obtain ⟨fault, hfault, hpath⟩ := List.mem_filterMap.mp hmem
        obtain ⟨b, hb, f, rfl⟩ := exists_of_mem_faults hfault
        exact hpaths.1 (List.mem_map.mpr ⟨b, hb, Option.some.inj hpath⟩)
      rw [hwrite, hwritten, List.filter_cons_of_pos (by simpa using ha), ih hpaths.2]
    · obtain ⟨hwrite, hwritten⟩ := writeAll_cons_of_fault hstore as
      have hpath : ExportFault.path? (.notWritten a.path f) = some a.path := rfl
      rw [hwrite, hwritten, ih hpaths.2]
      dsimp only
      rw [List.filterMap_cons_some hpath, List.filter_cons_of_neg (by simp)]
      refine List.filter_congr fun b hb => ?_
      have hne : b.path ≠ a.path := fun heq => hpaths.1 (List.mem_map.mpr ⟨b, hb, heq⟩)
      simp [hne]

/-! ## Manifests -/

/-- What an export that could begin to write has left out, and what it has recorded. -/
theorem run_records (hpaths : (as.map Artifact.path).Nodup) (hdry : x.dryRun = false)
    (hrun : x.run d as = (result, d')) (hfatal : ∀ f, .notCleaned f ∉ result.faults) :
    result.manifest.files.length + result.faults.length = as.length ∧
      (∀ fault ∈ result.faults, ∃ a ∈ as, ∃ f, fault = .notWritten a.path f) ∧
      result.manifest.files =
        (as.filter fun a => a.path ∉ result.failing).map Artifact.toRecord := by
  cases hcleaned : x.cleaned d with
  | error f =>
    rw [run_of_not_cleaned hpaths hdry hcleaned] at hrun
    obtain ⟨rfl, -⟩ := Prod.mk.inj hrun
    exact absurd List.mem_cons_self (hfatal f)
  | ok c =>
    rw [run_of_cleaned hpaths hdry hcleaned] at hrun
    obtain rfl : (x.fill c as).1 = result := congrArg Prod.fst hrun
    refine ⟨length_records_add_faults, fun fault => exists_of_mem_faults, ?_⟩
    show (x.writeAll c as).2.1 = _
    rw [writeAll_records, written_eq_filter hpaths]
    rfl

/-- A dry run of artifacts touches nothing, and its totals are the sums of what they measure
themselves. If they can be exported, by whatever exporter of the same settings, its manifest is that
of the export but for the time and the place. In an export that could begin to write each artifact
has its record or its fault, and the records are those of the artifacts that are not at fault. -/
theorem manifest_of_dryRun (hconfig : y.config = x.config) (hreal : x.dryRun = false)
    (hdry : y.dryRun = true) (hrun : (x.seenFrom d).run d as = (result, d'))
    (hrun' : (y.seenFrom e).run e as = (dry, e')) :
    e' = e ∧ ((as.map Artifact.path).Nodup → dry.manifest.Sums as) ∧
      (result.success = true → result.manifest.Sums as ∧
        dry.manifest = { result.manifest with
          timestamp := y.timestamp
          directory := (y.seenFrom e).output.text }) ∧
      ((as.map Artifact.path).Nodup → (∀ f, .notCleaned f ∉ result.faults) →
        result.manifest.files.length + result.faults.length = as.length ∧
          (∀ fault ∈ result.faults, ∃ a ∈ as, ∃ f, fault = .notWritten a.path f) ∧
          result.manifest.files =
            (as.filter fun a => a.path ∉ result.failing).map Artifact.toRecord) := by
  have hreal' : (x.seenFrom d).dryRun = false := hreal
  have hdry' : (y.seenFrom e).dryRun = true := hdry
  have hmanifest (hpaths : (as.map Artifact.path).Nodup) :
      dry.manifest = (y.seenFrom e).manifestOf (as.map Artifact.toRecord) := by
    rw [run_eq_of_dryRun hpaths hdry'] at hrun'
    rw [← (Prod.mk.inj hrun').1]
  refine ⟨?_, fun hpaths => ?_, fun hsuccess => ?_, fun hpaths hfatal => ?_⟩
  · have htouched : ((y.seenFrom e).run e as).2 = e := run_of_dryRun hdry'
    rwa [hrun'] at htouched
  · exact Manifest.sums_of_files (by rw [hmanifest hpaths]; rfl)
  · have hfiles : result.manifest.files = as.map Artifact.toRecord :=
      (run_wrote Path.root_resolve hrun hreal' hsuccess).1
    have hsettings : (y.seenFrom e).config = (x.seenFrom d).config := hconfig
    refine ⟨Manifest.sums_of_files hfiles, ?_⟩
    rw [hmanifest (nodup_of_success hrun hsuccess), manifest_eq hrun, hfiles, manifestOf, hsettings]
    rfl
  · exact run_records hpaths hreal' hrun hfatal

/-- The exporter of some files, which touches nothing. -/
def tryingExporter : Exporter := { siteExporter with dryRun := true, timestamp := "today" }

theorem manifest_of_dryRun_site : ∃ result d' dry,
    (siteExporter.seenFrom siteDisk).run siteDisk siteFiles = (result, d') ∧
      (tryingExporter.seenFrom siteDisk).run siteDisk siteFiles = (dry, siteDisk) ∧
      result.success = true ∧
      dry.manifest = { result.manifest with timestamp := "today", directory := "/home/site" } ∧
      result.manifest.totalSize = 13 ∧ result.manifest.totalLines = 2 ∧
      result.manifest.files.length + result.faults.length = 2 := by
  have hsuccess :
      ((siteExporter.seenFrom siteDisk).run siteDisk siteFiles).1.success = true := by
    decide +kernel
  have hpaths : (siteFiles.map Artifact.path).Nodup := by decide
  have hplace : (tryingExporter.seenFrom siteDisk).output.text = "/home/site" := by decide +kernel
  rcases hrun : (siteExporter.seenFrom siteDisk).run siteDisk siteFiles with ⟨result, d'⟩
  rcases hrun' : (tryingExporter.seenFrom siteDisk).run siteDisk siteFiles with ⟨dry, e'⟩
  rw [hrun] at hsuccess
  have hconfig : tryingExporter.config = siteExporter.config := rfl
  obtain ⟨rfl, -, hagree, hrecords⟩ := manifest_of_dryRun hconfig rfl rfl hrun hrun'
  obtain ⟨hsums, hmanifest⟩ := hagree hsuccess
  have hfaults : result.faults = [] := List.isEmpty_iff.mp hsuccess
  rw [hplace] at hmanifest
  refine ⟨result, d', dry, rfl, rfl, hsuccess, hmanifest, hsums.size, hsums.lines, ?_⟩
  exact (hrecords hpaths fun f hf => by simp [hfaults] at hf).1

end Exporter

end EntityForge
