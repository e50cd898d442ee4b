import EntityForge.Artifact.Session
import EntityForge.Proofs.Cleaning

/-!
# Exports that are repeated

An export that is repeated starts from the tree that the first one left, also where that failed in
part. Step by step the second disk stays between that of the first export at the same step and what
the first export leaves in the end: whatever the first has made so far is there already, and nothing
is there that the first will not make. So the same steps fail, and in the end both have the same
tree.
-/

namespace EntityForge

namespace Disk

variable {c c' d d' d'' e e' f : Disk} {p q : Place} {a : Entry} {n : String} {ns : List String}
  {changed changed' : Place → Prop}

/-! ## Disks that differ in the content of files -/

/-- What stands on a disk stands on another, as a directory or as a file, and is the same but for
some places. -/
def KeptBut (changed : Place → Prop) (d d' : Disk) : Prop :=
  ∀ p a, d.Stands p a → ∃ b, d'.Stands p b ∧ b.isDirectory = a.isDirectory ∧ (¬ changed p → b = a)

theorem Kept.keptBut (h : d.Kept d') : d.KeptBut changed d' :=
  fun p a hp => ⟨a, h p a hp, rfl, fun _ => rfl⟩

theorem KeptBut.mono (h : d.KeptBut changed d') (hchanged : ∀ p, changed p → changed' p) :
    d.KeptBut changed' d' := by
  intro p a hp
  obtain ⟨b, hb, hkind, hsame⟩ := h p a hp
  exact ⟨b, hb, hkind, fun hp => hsame fun hp' => hp (hchanged p hp')⟩

theorem KeptBut.trans (h : d.KeptBut changed d') (h' : d'.KeptBut changed' d'') :
    d.KeptBut (fun p => changed p ∨ changed' p) d'' := by
  intro p a hp
  obtain ⟨b, hb, hkind, hsame⟩ := h p a hp
  obtain ⟨b', hb', hkind', hsame'⟩ := h' p b hb
  refine ⟨b', hb', hkind'.trans hkind, fun hp => ?_⟩
  rw [hsame' fun hp' => hp (Or.inr hp'), hsame fun hp' => hp (Or.inl hp')]

theorem KeptBut.directory (h : d.KeptBut changed d') (hp : d.Stands p .directory) :
    d'.Stands p .directory := by
  obtain ⟨b, hb, hkind, -⟩ := h p .directory hp
  cases b with
  | directory => exact hb
  | file content => exact nomatch hkind

theorem KeptBut.file {content : ByteArray} (h : d.KeptBut changed d')
    (hp : d.Stands p (.file content)) : ∃ content', d'.Stands p (.file content') := by
  obtain ⟨b, hb, hkind, -⟩ := h p _ hp
  cases b with
  | directory => exact nomatch hkind
  | file content' => exact ⟨content', hb⟩

/-- A disk on which a file was written to a place of no directory keeps all else. -/
theorem Wrote.keptBut {content : ByteArray} (h : d.Wrote d' p content) :
    d.KeptBut (fun q => q = p) d' := by
  intro q a hq
  by_cases hqp : q = p
  · subst hqp
    cases a with
    | directory => exact absurd hq h.not_directory
    | file old => exact ⟨_, h.stands, rfl, fun hne => absurd rfl hne⟩
  · exact ⟨a, h.kept q a hqp hq, rfl, fun _ => rfl⟩

theorem WroteAll.keptBut {ws : List (Place × ByteArray)} (h : d.WroteAll ws d') :
    d.KeptBut (fun q => q ∈ ws.map Prod.fst) d' := by
  induction h with
  | nil kept => exact kept.keptBut
  | cons first rest ih =>
    exact (first.keptBut.trans ih).mono fun q hq => List.mem_cons.mpr hq

/-- A file that could be put at the place of no directory changes nothing else, and otherwise
nothing changes. -/
theorem Tried.keptBut {content : ByteArray} {able : Prop} {r : Disk × Option DiskFault}
    (h : d.Tried p content able r) (hfree : able → ¬ d.Stands p .directory) :
    d.KeptBut (fun q => q = p) r.1 := by
  by_cases hr : r.2 = none
  · exact ((h.puts hr).wrote (hfree (h.succeeds_iff.mp hr))).keptBut
  · exact (h.same hr).kept.keptBut

/-! ## Between a disk and what becomes of it -/

/-- A disk has all that stands on one, and what stands on it stands on another, where only some
files have another content. -/
structure Between (changed : Place → Prop) (c e f : Disk) : Prop where
  treeBefore : c.IsTree
  tree : e.IsTree
  lower : c.KeptBut (fun _ => True) e
  upper : e.KeptBut changed f

theorem Between.mono (h : Between changed c e f) (hchanged : ∀ p, changed p → changed' p) :
    Between changed' c e f :=
  ⟨h.treeBefore, h.tree, h.lower, h.upper.mono hchanged⟩

/-- A directory that is made only on the first disk, because it exists on the second. -/
theorem Between.put_first (h : Between changed c e f) (hp : c.Stands p .directory)
    (hfree : c.get? (p ++ [n]) = none) (hthere : e.Stands (p ++ [n]) .directory) :
    Between changed (c.put (p ++ [n]) .directory) e f where
  treeBefore := h.treeBefore.put hp (by simp [hfree])
  tree := h.tree
  lower q a hq := by
    obtain ⟨rfl, rfl⟩ | hq := h.treeBefore.of_put concat_ne_nil hq
    · exact ⟨.directory, hthere, rfl, fun hnot => absurd trivial hnot⟩
    · exact h.lower q a hq
  upper := h.upper

/-- A directory that is made on both disks, and that the last disk has too. -/
theorem Between.put_both (h : Between changed c e f) (hp : c.Stands p .directory)
    (hfree : c.get? (p ++ [n]) = none) (hfree' : e.get? (p ++ [n]) = none)
    (hthere : f.Stands (p ++ [n]) .directory) :
    Between changed (c.put (p ++ [n]) .directory) (e.put (p ++ [n]) .directory) f where
  treeBefore := h.treeBefore.put hp (by simp [hfree])
  tree := h.tree.put (h.lower.directory hp) (by simp [hfree'])
  lower q a hq := by
    obtain ⟨rfl, rfl⟩ | hq := h.treeBefore.of_put concat_ne_nil hq
    · exact ⟨.directory, stands_put (h.lower.directory hp), rfl, fun hnot => absurd trivial hnot⟩
    · obtain ⟨b, hb, hkind, -⟩ := h.lower q a hq
      exact ⟨b, kept_put concat_ne_nil hfree' q b hb, hkind, fun hnot => absurd trivial hnot⟩
  upper q a hq := by
    obtain ⟨rfl, rfl⟩ | hq := h.tree.of_put concat_ne_nil hq
    · exact ⟨.directory, hthere, rfl, fun _ => rfl⟩
    · exact h.upper q a hq

/-- A file that is put on both disks, and that the last disk has too, if not with another
content. -/
theorem Between.puts {content content' last : ByteArray} (h : Between changed c e f)
    (hc : c.Puts c' p content) (he : e.Puts e' p content') (htree : c'.IsTree) (htree' : e'.IsTree)
    (hlast : f.Stands p (.file last)) (hcontent : ¬ changed' p → last = content')
    (hchanged : ∀ q, changed q → changed' q ∨ q = p) : Between changed' c' e' f where
  treeBefore := htree
  tree := htree'
  lower q a hq := by
    by_cases hqp : q = p
    · subst hqp
      obtain rfl := Option.some.inj (hq.entry.symm.trans hc.stands.entry)
      exact ⟨_, he.stands, rfl, fun hnot => absurd trivial hnot⟩
    · obtain ⟨b, hb, hsame⟩ := h.lower q a ((hc.stands_iff hqp).mp hq)
      exact ⟨b, (he.stands_iff hqp).mpr hb, hsame⟩
  upper q a hq := by
    by_cases hqp : q = p
    · subst hqp
      obtain rfl := Option.some.inj (hq.entry.symm.trans he.stands.entry)
      exact ⟨_, hlast, rfl, fun hnot => congrArg Entry.file (hcontent hnot)⟩
    · obtain ⟨b, hb, hkind, hsame⟩ := h.upper q a ((he.stands_iff hqp).mp hq)
      exact ⟨b, hb, hkind, fun hnot => hsame fun hq => (hchanged q hq).elim hnot hqp⟩

theorem Between.same (h : Between changed c e f) (hc : c.SameTree c') (he : e.SameTree e')
    (htree : c'.IsTree) (htree' : e'.IsTree) : Between changed c' e' f where
  treeBefore := htree
  tree := htree'
  lower p a hp := by
    obtain ⟨b, hb, hsame⟩ := h.lower p a ((hc p a).mpr hp)
    exact ⟨b, (he p b).mp hb, hsame⟩
  upper p a hp := h.upper p a ((he p a).mpr hp)

/-- Disks that lie between each other have the same tree but for some files. -/
theorem Between.get?_eq (h : Between changed f e f) (hp : ¬ changed p) : e.get? p = f.get? p := by
  cases hf : f.get? p with
  | some a =>
    obtain ⟨b, hb, -⟩ := h.lower p a (h.treeBefore p a hf)
    obtain ⟨b', hb', -, hsame⟩ := h.upper p b hb
    obtain rfl := hsame hp
    rw [hb.entry, ← hb'.entry, hf]
  | none =>
    by_contra hne
    obtain ⟨b, hb⟩ := Option.ne_none_iff_exists'.mp hne
    obtain ⟨b', hb', -⟩ := h.upper p b (h.tree p b hb)
    exact nomatch hf.symm.trans hb'.entry

/-- Names are followed equally far on both disks, with directories made where they are missing. -/
theorem Between.advance (h : Between changed c e f) (hp : c.Stands p .directory)
    (hend : (c.advance p ns).1.KeptBut changed' f) :
    (e.advance p ns).2 = (c.advance p ns).2 ∧
      Between changed (c.advance p ns).1 (e.advance p ns).1 f := by
  induction ns generalizing c e p with
  | nil =>
    have hp' := h.lower.directory hp
    rw [Disk.advance, Disk.advance, isDirectoryAt_iff.mpr hp.entry,
      isDirectoryAt_iff.mpr hp'.entry]
    exact ⟨rfl, h⟩
  | cons n ns ih =>
    have hp' := h.lower.directory hp
    obtain ⟨hn, hnext⟩ | ⟨habove, hsize, hfree⟩ | ⟨habove, hstop⟩ := advance_cases hp n
    · rw [advance_leads hp hn hnext] at hend ⊢
      rw [advance_leads hp' hn (h.lower.directory hnext)]
      exact ih h hnext hend
    · rw [advance_makes hp habove hsize hfree] at hend ⊢
      have hmade : (c.put (p ++ [n]) .directory).Stands (p ++ [n]) .directory := stands_put hp
      have hlast := hend.directory (advance_kept hmade _ _ hmade)
      cases hentry : e.get? (p ++ [n]) with
      | none =>
        rw [advance_makes hp' habove hsize hentry]
        exact ih (h.put_both hp hfree hentry hlast) hmade hend
      | some b =>
        -- The last disk has a directory there, and so has the second.
        have hb := h.tree _ _ hentry
        obtain ⟨b', hb', hkind, -⟩ := h.upper _ _ hb
        obtain rfl : b' = .directory := Option.some.inj (hb'.entry.symm.trans hlast.entry)
        obtain rfl : b = .directory := by
          cases b with
          | directory => rfl
          | file content => cases hkind
        have hnext : next p n = p ++ [n] := if_neg habove
        rw [advance_leads hp' (Or.inr hsize) (hnext ▸ hb), hnext]
        exact ih (h.put_first hp hfree hb) hmade hend
    · have hstop' : longestName < n.utf8ByteSize ∨ ∃ content, e.Stands (p ++ [n]) (.file content) :=
        hstop.imp_right fun hfile => hfile.elim fun _ => h.lower.file
      rw [advance_stops hp habove hstop, advance_stops hp' habove hstop']
      exact ⟨rfl, h⟩

end Disk

namespace Exporter

open Disk

variable {x : Exporter} {c d d' d'' e f : Disk} {as : List Artifact} {path : Path}
  {text text' : String} {changed changed' : Place → Prop}

/-! ## The steps of a repeated export -/

theorem store_keptBut (hpath : path.root ≠ "") :
    (prepared d path).KeptBut (fun p => p = path.place) (x.store path.parent path text d).1 :=
  (store_tried hpath).keptBut fun hadmits hp => hadmits.free hp.entry

/-- A file can be stored again if it could be stored, and cannot if it could not. -/
theorem store_between (h : Between changed c e f) (hpath : path.root ≠ "")
    (hend : (x.store path.parent path text c).1.KeptBut changed' f)
    (hchanged : ∀ p, changed p →
      changed' p ∨ (x.store path.parent path text c).2 = none ∧ p = path.place)
    (htext : (x.store path.parent path text c).2 = none → changed' path.place ∨ text' = text) :
    ((x.store path.parent path text' e).2 = none ↔ (x.store path.parent path text c).2 = none) ∧
      Between changed' (x.store path.parent path text c).1 (x.store path.parent path text' e).1
        f := by
  have hfirst : (prepared c path).Tried path.place text.toUTF8 (x.Admits c path)
      (x.store path.parent path text c) := store_tried hpath
  have hsecond : (prepared e path).Tried path.place text'.toUTF8 (x.Admits e path)
      (x.store path.parent path text' e) := store_tried hpath
  obtain ⟨hpassage, hbetween⟩ := h.advance (stands_nil c) ((store_keptBut hpath).trans hend)
  have hadmits : x.Admits e path ↔ x.Admits c path := by
    refine ⟨fun hadmits => ⟨hpassage ▸ hadmits.passage, hadmits.fits, fun hp => ?_⟩,
      fun hadmits => ⟨hpassage.trans hadmits.passage, hadmits.fits, fun hp => ?_⟩⟩
    · exact hadmits.free (hbetween.lower.directory (hbetween.treeBefore _ _ hp)).entry
    · -- The last disk has a file where the first export put one.
      obtain ⟨content, hfile⟩ := hend.file (hfirst.puts (hfirst.succeeds_iff.mpr hadmits)).stands
      exact nomatch hfile.entry.symm.trans (hbetween.upper.directory (hbetween.tree _ _ hp)).entry
  have hiff := hsecond.succeeds_iff.trans (hadmits.trans hfirst.succeeds_iff.symm)
  have htree : (x.store path.parent path text c).1.IsTree := isTree_store h.treeBefore hpath
  have htree' : (x.store path.parent path text' e).1.IsTree := isTree_store h.tree hpath
  refine ⟨hiff, ?_⟩
  by_cases hstored : (x.store path.parent path text c).2 = none
  · have hputs := hfirst.puts hstored
    obtain ⟨b, hb, hkind, hsame⟩ := hend _ _ hputs.stands
    cases b with
    | directory => exact nomatch hkind
    | file last =>
      refine hbetween.puts hputs (hsecond.puts (hiff.mpr hstored)) htree htree' hb (fun hnot => ?_)
        fun p hp => (hchanged p hp).imp_right And.right
      rw [(htext hstored).resolve_left hnot]
      exact Entry.file.inj (hsame hnot)
  · refine Between.mono ?_ fun p hp => (hchanged p hp).resolve_right fun h => hstored h.1
    exact hbetween.same (hfirst.same hstored) (hsecond.same (mt hiff.mp hstored)) htree htree'

/-- Artifacts that are written again are written as they were, and the others fail again. -/
theorem writeAll_between (h : Between changed c e f) (hroot : x.output.root ≠ "")
    (hend : (x.writeAll c as).1.KeptBut changed' f)
    (hchanged : ∀ p, changed p →
      changed' p ∨ p ∈ (x.artifactWrites (x.written c as)).map Prod.fst) :
    (x.writeAll e as).2.1 = (x.writeAll c as).2.1 ∧
      (x.writeAll e as).2.2.filterMap ExportFault.path? =
        (x.writeAll c as).2.2.filterMap ExportFault.path? ∧
      Between changed' (x.writeAll c as).1 (x.writeAll e as).1 f := by
  induction as generalizing c e changed with
  | nil => exact ⟨rfl, rfl, h.mono fun p hp => (hchanged p hp).resolve_right List.not_mem_nil⟩
  | cons a as ih =>
    have htarget : (x.target a).root ≠ "" := Path.root_join hroot
    rw [writeAll_disk_cons] at hend
    -- What the first export writes after this file can still have another content.
    have hrest := (writeAll_wroteAll hroot).keptBut.trans hend
    have hstep := store_between h htarget hrest (fun p hp => ?_) fun _ => Or.inr rfl
    · obtain ⟨hstored, hbetween⟩ := hstep
      obtain ⟨hrecords, hfailing, hlast⟩ := ih hbetween hend fun p hp => hp.symm
      rcases hfirst : x.store (x.target a).parent (x.target a) a.content c with ⟨c', _ | f⟩ <;>
        rcases hsecond : x.store (x.target a).parent (x.target a) a.content e with ⟨e', _ | f'⟩ <;>
        rw [hfirst, hsecond] at hstored hrecords hfailing hlast
      · rw [(writeAll_cons_of_stored hfirst as).1, (writeAll_cons_of_stored hsecond as).1]
        exact ⟨congrArg (a.toRecord :: ·) hrecords, hfailing, hlast⟩
      · exact nomatch hstored.mpr rfl
      · exact nomatch hstored.mp rfl
      · rw [(writeAll_cons_of_fault hfirst as).1, (writeAll_cons_of_fault hsecond as).1]
        exact ⟨hrecords, congrArg (a.path :: ·) hfailing, hlast⟩
    · rcases hstore : x.store (x.target a).parent (x.target a) a.content c with ⟨c', _ | f⟩
      · rw [(writeAll_cons_of_stored hstore as).2] at hchanged
        rcases hchanged p hp with hlater | hwritten
        · exact Or.inl (Or.inr hlater)
        · rcases List.mem_cons.mp hwritten with hplace | hrest
          · exact Or.inr ⟨rfl, hplace⟩
          · exact Or.inl (Or.inl hrest)
      · rw [(writeAll_cons_of_fault hstore as).2] at hchanged
        exact Or.inl (hchanged p hp).symm

/-! ## The same export at another time -/

/-- The exporter at another time. -/
def stamped (x : Exporter) (t : String) : Exporter := { x with timestamp := t }

variable {t : String}

theorem target_stamped {a : Artifact} : (x.stamped t).target a = x.target a := rfl

theorem store_stamped {directory : Path} :
    (x.stamped t).store directory path text d = x.store directory path text d := rfl

/-- When artifacts are written does not matter to them. -/
theorem writeAll_stamped : (x.stamped t).writeAll d as = x.writeAll d as := by
  induction as generalizing d with
  | nil => rfl
  | cons a as ih =>
    rw [writeAll, writeAll, target_stamped, store_stamped]
    simp only [ih]

theorem manifestOf_stamped {records : List FileRecord} :
    (x.stamped t).manifestOf records = { x.manifestOf records with timestamp := t } := rfl

/-- The places whose files are not the same when the manifest was written again. -/
def Remade (x : Exporter) (fault : Option DiskFault) (p : Place) : Prop :=
  x.withManifest = true ∧ fault = none ∧ p = x.manifestPath.place

/-- The manifest of an export takes the place of the one before. -/
theorem writeManifest_between {m : Manifest}
    (h : Between (x.Remade (x.writeManifest m c).2) c e (x.writeManifest m c).1)
    (hroot : x.output.root ≠ "") (m' : Manifest) :
    ((x.writeManifest m' e).2 = none ↔ (x.writeManifest m c).2 = none) ∧
      Between (x.Remade (x.writeManifest m c).2) (x.writeManifest m c).1 (x.writeManifest m' e).1
        (x.writeManifest m c).1 := by
  by_cases hasked : x.withManifest = true
  · have hpath : x.manifestPath.root ≠ "" := Path.root_join hroot
    rw [writeManifest_eq hasked] at h ⊢
    rw [writeManifest_eq hasked]
    exact store_between h hpath (Kept.refl _).keptBut (fun p hp => Or.inl hp)
      fun hstored => Or.inl ⟨hasked, hstored, rfl⟩
  · have hskipped (m : Manifest) (d : Disk) : x.writeManifest m d = (d, none) := by
      rw [writeManifest, if_neg hasked]
    rw [hskipped] at h ⊢
    rw [hskipped]
    exact ⟨Iff.rfl, h⟩

/-- The manifest changes nothing but its own file. -/
theorem writeManifest_keptBut {m : Manifest} (hroot : x.output.root ≠ "") :
    d.KeptBut (x.Remade (x.writeManifest m d).2) (x.writeManifest m d).1 := by
  have hwrote : d.WroteAll _ (x.writeManifest m d).1 := writeManifest_wrote hroot rfl
  refine hwrote.keptBut.mono fun p hp => ?_
  split at hp
  · rename_i hwritten
    exact ⟨hwritten.1, hwritten.2, List.mem_singleton.mp hp⟩
  · exact absurd hp List.not_mem_nil

/-- What writing artifacts and their manifest again comes to, if the disk lies between what the
first time started from and what it left. -/
theorem fill_between (h : Between (fun _ => False) c e (x.fill c as).2)
    (hroot : x.output.root ≠ "") :
    ((x.stamped t).fill e as).1.manifest = { (x.fill c as).1.manifest with timestamp := t } ∧
      ((x.stamped t).fill e as).1.failing = (x.fill c as).1.failing ∧
      (((x.stamped t).fill e as).1.manifestFault = none ↔ (x.fill c as).1.manifestFault = none) ∧
      Between (x.Remade (x.fill c as).1.manifestFault) (x.fill c as).2 ((x.stamped t).fill e as).2
        (x.fill c as).2 := by
  have hend : (x.writeAll c as).1.KeptBut (x.Remade (x.fill c as).1.manifestFault)
      (x.fill c as).2 := writeManifest_keptBut hroot
  obtain ⟨hrecords, hfailing, hbetween⟩ := writeAll_between h hroot hend nofun
  rw [fill, writeAll_stamped, hrecords, manifestOf_stamped]
  have hlast := writeManifest_between hbetween hroot
    { x.manifestOf (x.writeAll c as).2.1 with timestamp := t }
  exact ⟨rfl, hfailing, hlast⟩

/-- A second export has the same records and leaves the same tree, in which only the manifest may
have been written anew. -/
structure Repeats (x : Exporter) (first second : ExportResult) (d d' : Disk) : Prop where
  manifest : second.manifest = { first.manifest with timestamp := second.manifest.timestamp }
  tree : ∀ p, p ≠ x.manifestPath.place → d'.get? p = d.get? p
  manifestFile : d'.get? x.manifestPath.place = d.get? x.manifestPath.place ∨
    d.get? x.manifestPath.place = some (.file first.manifest.text.toUTF8) ∧
      d'.get? x.manifestPath.place = some (.file second.manifest.text.toUTF8)

theorem writeManifest_stands {m : Manifest} (hroot : x.output.root ≠ "")
    (hasked : x.withManifest = true) (hstored : (x.writeManifest m d).2 = none) :
    (x.writeManifest m d).1.Stands x.manifestPath.place (.file m.text.toUTF8) := by
  have hpath : x.manifestPath.root ≠ "" := Path.root_join hroot
  rw [writeManifest_eq hasked] at hstored ⊢
  exact ((store_tried hpath).puts hstored).stands

/-- Artifacts and their manifest that are written again leave the same tree. -/
theorem fill_repeats (h : Between (fun _ => False) c e (x.fill c as).2)
    (hroot : x.output.root ≠ "") :
    x.Repeats (x.fill c as).1 ((x.stamped t).fill e as).1 (x.fill c as).2
      ((x.stamped t).fill e as).2 := by
  obtain ⟨hmanifest, -, hfault, hbetween⟩ := fill_between (t := t) h hroot
  refine ⟨by rw [hmanifest], fun p hp => hbetween.get?_eq fun hremade => hp hremade.2.2, ?_⟩
  by_cases hremade : x.Remade (x.fill c as).1.manifestFault x.manifestPath.place
  · obtain ⟨hasked, hstored, -⟩ := hremade
    have hfirst : (x.fill c as).2.Stands _ _ := writeManifest_stands hroot hasked hstored
    have hsecond : ((x.stamped t).fill e as).2.Stands _ _ :=
      writeManifest_stands (x := x.stamped t) hroot hasked (hfault.mpr hstored)
    exact Or.inr ⟨hfirst.entry, hsecond.entry⟩
  · exact Or.inl (hbetween.get?_eq hremade)

/-! ## The second export -/

/-- When the output directory is emptied again, what is left lies between what was left the first
time and what the first export made of it. -/
theorem cleaned_between (hx : x.output.Direct) (htree : d.IsTree) (hcleaned : x.cleaned d = .ok c)
    (hcleaned' : x.cleaned (x.fill c as).2 = .ok e) :
    Between (fun _ => False) c e (x.fill c as).2 := by
  obtain ⟨htree_c, hc⟩ := cleaned_spec hx htree hcleaned
  obtain ⟨htree_e, he⟩ := cleaned_spec hx (isTree_fill htree_c hx.root) hcleaned'
  have hkept : c.KeptBut (fun _ => True) (x.fill c as).2 :=
    ((writeAll_wroteAll hx.root).keptBut.trans (writeManifest_keptBut hx.root)).mono
      fun _ _ => trivial
  refine ⟨htree_c, htree_e, fun p a hp => ?_, fun p a hp => ?_⟩
  · obtain ⟨b, hb, hsame⟩ := hkept p a hp
    exact ⟨b, (he p b).mpr ⟨hb, ((hc p a).mp hp).2⟩, hsame⟩
  · exact ⟨a, ((he p a).mp hp).1, rfl, fun _ => rfl⟩

/-- If the output directory cannot be emptied again, a name on the way to it is too long. -/
theorem exists_long_of_not_cleaned {fault : DiskFault} (hx : x.output.Direct) (htree : d.IsTree)
    (hbelow : ∀ a ∈ as, Below x.output.names (x.target a).place) (hcleaned : x.cleaned d = .ok c)
    (hfault : x.cleaned (x.fill c as).2 = .error fault) :
    x.clean = true ∧ ∃ n ∈ x.output.names, longestName < n.utf8ByteSize := by
  obtain ⟨hclean, hlong | ⟨content, hfile⟩⟩ := of_not_cleaned hx hfault
  · exact ⟨hclean, exists_long_of_walk hlong⟩
  · -- An export that writes below a directory makes no file of it.
    obtain ⟨htree_c, hc⟩ := cleaned_spec hx htree hcleaned
    rcases of_fill htree_c hx.root hfile with hbefore | ⟨a, ha, hplace, -⟩ | ⟨-, hplace, -⟩
    · obtain ⟨f, hf⟩ := not_cleaned_of_file hx hclean ((hc _ _).mp hbefore).1
      exact nomatch hcleaned.symm.trans hf
    · exact absurd hplace.symm (hbelow a ha).2
    · rw [place_manifestPath hx] at hplace
      exact nomatch List.append_right_eq_self.mp hplace.symm

/-- Nothing can be written below a directory if a name on the way to it is too long. -/
theorem written_eq_nil_of_long (hroot : x.output.root ≠ "")
    (hbelow : ∀ a ∈ as, Below x.output.names (x.target a).place)
    (hlong : ∃ n ∈ x.output.names, longestName < n.utf8ByteSize) : x.written d as = [] := by
  obtain ⟨n, hn, hlong⟩ := hlong
  refine written_eq_nil hroot fun a ha d hadmits => ?_
  exact Nat.not_lt_of_le (hadmits.size_le n ((hbelow a ha).1.subset hn)) hlong

theorem Repeats.of_untouched {first second : ExportResult}
    (h : second.manifest = { first.manifest with timestamp := t }) :
    x.Repeats first second d d :=
  ⟨by rw [h], fun _ _ => rfl, Or.inl rfl⟩

/-- Where nothing could be written, an export that cannot even empty its directory repeats that. -/
theorem repeats_of_long {faults : List ExportFault} (hx : x.output.Direct)
    (hbelow : ∀ a ∈ as, Below x.output.names (x.target a).place)
    (hlong : ∃ n ∈ x.output.names, longestName < n.utf8ByteSize) :
    x.Repeats (x.fill c as).1 ⟨(x.stamped t).manifestOf [], faults, none, false⟩ d d := by
  have hrecords : (x.writeAll c as).2.1 = [] := by
    rw [writeAll_records, written_eq_nil_of_long hx.root hbelow hlong, List.map_nil]
  have hmanifest : (x.stamped t).manifestOf [] =
      { (x.fill c as).1.manifest with timestamp := t } := by
    show _ = { x.manifestOf (x.writeAll c as).2.1 with timestamp := t }
    rw [hrecords]
    rfl
  exact .of_untouched hmanifest

/-- An export that is repeated has the same records and leaves the same tree; and the same artifacts
are at fault, unless the directory that is to be emptied has a name that is too long. -/
theorem run_repeats {first second : ExportResult} (hx : x.output.Direct) (htree : d.IsTree)
    (hbelow : ∀ a ∈ as, Below x.output.names (x.target a).place)
    (hrun : x.run d as = (first, d')) (hrun' : (x.stamped t).run d' as = (second, d'')) :
    x.Repeats first second d' d'' ∧
      ((x.clean = true → ∀ n ∈ x.output.names, n.utf8ByteSize ≤ longestName) →
        second.failing = first.failing) := by
  by_cases hpaths : (as.map Artifact.path).Nodup
  · cases hdry : x.dryRun with
    | true =>
      have hdry' : (x.stamped t).dryRun = true := hdry
      rw [run_eq_of_dryRun hpaths hdry] at hrun
      rw [run_eq_of_dryRun hpaths hdry'] at hrun'
      obtain ⟨rfl, rfl⟩ := Prod.mk.inj hrun
      obtain ⟨rfl, rfl⟩ := Prod.mk.inj hrun'
      exact ⟨.of_untouched rfl, fun _ => rfl⟩
    | false =>
      have hdry' : (x.stamped t).dryRun = false := hdry
      cases hcleaned : x.cleaned d with
      | error f =>
        rw [run_of_not_cleaned hpaths hdry hcleaned] at hrun
        obtain ⟨rfl, rfl⟩ := Prod.mk.inj hrun
        rw [run_of_not_cleaned hpaths hdry' hcleaned] at hrun'
        obtain ⟨rfl, rfl⟩ := Prod.mk.inj hrun'
        exact ⟨.of_untouched rfl, fun _ => rfl⟩
      | ok c =>
        rw [run_of_cleaned hpaths hdry hcleaned] at hrun
        obtain ⟨rfl, rfl⟩ : (x.fill c as).1 = first ∧ (x.fill c as).2 = d' := by
          rw [hrun]
          exact ⟨rfl, rfl⟩
        cases hcleaned' : x.cleaned (x.fill c as).2 with
        | ok e =>
          rw [run_of_cleaned hpaths hdry' hcleaned'] at hrun'
          obtain ⟨rfl, rfl⟩ : ((x.stamped t).fill e as).1 = second ∧
              ((x.stamped t).fill e as).2 = d'' := by
            rw [hrun']
            exact ⟨rfl, rfl⟩
          have hbetween := cleaned_between hx htree hcleaned hcleaned'
          exact ⟨fill_repeats hbetween hx.root, fun _ => (fill_between hbetween hx.root).2.1⟩
        | error f =>
          rw [run_of_not_cleaned hpaths hdry' hcleaned'] at hrun'
          obtain ⟨rfl, rfl⟩ := Prod.mk.inj hrun'
          obtain ⟨hclean, hlong⟩ := exists_long_of_not_cleaned hx htree hbelow hcleaned hcleaned'
          refine ⟨repeats_of_long hx hbelow hlong, fun hshort => ?_⟩
          obtain ⟨n, hn, hlong⟩ := hlong
          exact absurd (hshort hclean n hn) (Nat.not_le_of_lt hlong)
  · rw [run_eq_of_duplicate hpaths] at hrun hrun'
    obtain ⟨rfl, rfl⟩ := Prod.mk.inj hrun
    obtain ⟨rfl, rfl⟩ := Prod.mk.inj hrun'
    exact ⟨.of_untouched rfl, fun _ => rfl⟩

/-! ## Exporters that are used again -/

section

variable {notes notes' kept kept' : ExportNotes} {first second : ExportResult}

/-- What is noted while artifacts are written goes behind what was noted before. -/
theorem writeEach_eq : x.writeEach notes d as =
    ({ notes with
        records := notes.records ++ (x.writeAll d as).2.1
        faults := notes.faults ++ (x.writeAll d as).2.2 }, (x.writeAll d as).1) := by
  induction as generalizing notes d with
  | nil => simp [writeEach, writeAll]
  | cons a as ih =>
    rw [writeEach]
    rcases hstore : x.store (x.target a).parent (x.target a) a.content d with ⟨d', _ | f⟩
    · simp only [ih, (writeAll_cons_of_stored hstore as).1, List.append_assoc,
        List.singleton_append]
    · simp only [ih, (writeAll_cons_of_fault hstore as).1, List.append_assoc,
        List.singleton_append]

/-- An exporter does the same whatever it was used for before. -/
theorem perform_eq_run : (x.perform notes d as).1 = (x.run d as).1 ∧
    (x.perform notes d as).2.2 = (x.run d as).2 := by
  rw [perform, note, run]
  cases duplicatePaths as with
  | cons p ps => exact ⟨rfl, rfl⟩
  | nil =>
    dsimp only
    cases hdry : x.dryRun with
    | true => simp [resultOf, hdry]
    | false =>
      rw [if_neg Bool.false_ne_true, if_neg Bool.false_ne_true]
      cases x.cleaned d with
      | error f => simp [resultOf, hdry]
      | ok cleaned => simp [resultOf, writeNoted, writeEach_eq, hdry]

/-- An export that is repeated, by the same exporter or by another that was used for anything
before, has the same records and leaves the same tree. The same artifacts are at fault, unless the
directory that is to be emptied has a name that is too long. Neither export leaves any files but
those of artifacts and the manifest. -/
theorem perform_twice (htree : d.IsTree)
    (hbelow : ∀ a ∈ as, Below (x.seenFrom d).output.place ((x.seenFrom d).target a).place)
    (hfirst : (x.seenFrom d).perform notes d as = (first, kept, d'))
    (hsecond : ((x.seenFrom d).stamped t).perform notes' d' as = (second, kept', d'')) :
    (x.seenFrom d).Repeats first second d' d'' ∧
      ((x.clean = true → ∀ n ∈ (x.seenFrom d).output.names, n.utf8ByteSize ≤ longestName) →
        second.failing = first.failing) ∧
      (x.seenFrom d).LeavesOnly as first.manifest d d' ∧
      (x.seenFrom d).LeavesOnly as second.manifest d' d'' := by
  have hx : (x.seenFrom d).output.Direct := Path.direct_resolve
  have hrun : (x.seenFrom d).run d as = (first, d') := by
    obtain ⟨hresult, hdisk⟩ := @perform_eq_run (x.seenFrom d) d as notes
    rw [hfirst] at hresult hdisk
    exact Prod.ext hresult.symm hdisk.symm
  have hrun' : ((x.seenFrom d).stamped t).run d' as = (second, d'') := by
    obtain ⟨hresult, hdisk⟩ := @perform_eq_run ((x.seenFrom d).stamped t) d' as notes'
    rw [hsecond] at hresult hdisk
    exact Prod.ext hresult.symm hdisk.symm
  have htree' : d'.IsTree := by
    have hleft : ((x.seenFrom d).run d as).2.IsTree := isTree_run hx htree
    rwa [hrun] at hleft
  rw [hx.place_eq] at hbelow
  obtain ⟨hrepeats, hfailing⟩ := run_repeats hx htree hbelow hrun hrun'
  have hleaves : (x.seenFrom d).LeavesOnly as _ d _ := run_leavesOnly hx htree
  have hleaves' : ((x.seenFrom d).stamped t).LeavesOnly as _ d' _ := run_leavesOnly hx htree'
  rw [hrun] at hleaves
  rw [hrun'] at hleaves'
  exact ⟨hrepeats, hfailing, hleaves, hleaves'⟩

theorem isTree_siteDisk : siteDisk.IsTree := isTree_of_entries (by decide +kernel)

/-- Files of which one cannot be written, since another is where its directory should be. -/
def blockedFiles : List Artifact := siteFiles ++ [
  { path := "a.py/d.py", content := "z = 333\n", entity := "D", kind := "model" }]

theorem perform_twice_site : ∃ first kept d' second kept' d'',
    (siteExporter.seenFrom siteDisk).perform {} siteDisk blockedFiles = (first, kept, d') ∧
      ((siteExporter.seenFrom siteDisk).stamped "later").perform kept d' blockedFiles =
        (second, kept', d'') ∧
      first.failing = ["a.py/d.py"] ∧ second.failing = ["a.py/d.py"] ∧
      second.manifest.files.map FileRecord.path = ["a.py", "b/c.py"] ∧
      d''.get? ["home", "site", "a.py"] = d'.get? ["home", "site", "a.py"] ∧
      (siteExporter.seenFrom siteDisk).LeavesOnly blockedFiles second.manifest d' d'' := by
  have hfaults : ((siteExporter.seenFrom siteDisk).perform {} siteDisk blockedFiles).1.failing =
      ["a.py/d.py"] := by
    decide +kernel
  have hfiles : ((siteExporter.seenFrom siteDisk).perform {} siteDisk
      blockedFiles).1.manifest.files.map FileRecord.path = ["a.py", "b/c.py"] := by
    decide +kernel
  have hbelow : ∀ a ∈ blockedFiles, Below (siteExporter.seenFrom siteDisk).output.place
      ((siteExporter.seenFrom siteDisk).target a).place := by
    decide +kernel
  have hmanifest : ["home", "site", "a.py"] ≠
      (siteExporter.seenFrom siteDisk).manifestPath.place := by
    decide +kernel
  rcases hfirst : (siteExporter.seenFrom siteDisk).perform {} siteDisk blockedFiles with
    ⟨first, kept, d'⟩
  rcases hsecond : ((siteExporter.seenFrom siteDisk).stamped "later").perform kept d'
    blockedFiles with ⟨second, kept', d''⟩
  rw [hfirst] at hfaults hfiles
  obtain ⟨hrepeats, hfailing, -, hleaves⟩ := perform_twice isTree_siteDisk hbelow hfirst hsecond
  refine ⟨first, kept, d', second, kept', d'', rfl, hsecond, hfaults, ?_, ?_,
    hrepeats.tree _ hmanifest, hleaves⟩
  · exact (hfailing fun hclean => nomatch hclean).trans hfaults
  · rw [hrepeats.manifest, ← hfiles]

/-- An output directory on the way to which a directory is missing, and then a name too long. -/
def longExporter : Exporter :=
  { siteExporter with
    output := ⟨"", ["new", .ofList (List.replicate 256 'n'), "site"]⟩
    clean := true }

/-- The first export fails at its artifacts, since their directory cannot be made; the second at
the output directory, since it has come so far that it cannot be asked for the directory. -/
theorem perform_twice_long : ∃ first kept d' second kept' d'',
    siteDisk.IsTree ∧
      (∀ a ∈ siteFiles, Below (longExporter.seenFrom siteDisk).output.place
        ((longExporter.seenFrom siteDisk).target a).place) ∧
      (longExporter.seenFrom siteDisk).perform {} siteDisk siteFiles = (first, kept, d') ∧
      ((longExporter.seenFrom siteDisk).stamped "later").perform kept d' siteFiles =
        (second, kept', d'') ∧
      first.failing = ["a.py", "b/c.py"] ∧ second.failing = [] := by
  have hbelow : ∀ a ∈ siteFiles, Below (longExporter.seenFrom siteDisk).output.place
      ((longExporter.seenFrom siteDisk).target a).place := by
    decide +kernel
  have hfailing : ((longExporter.seenFrom siteDisk).perform {} siteDisk siteFiles).1.failing =
      ["a.py", "b/c.py"] := by
    decide +kernel
  have hfailing' : (((longExporter.seenFrom siteDisk).stamped "later").perform
      ((longExporter.seenFrom siteDisk).perform {} siteDisk siteFiles).2.1
      ((longExporter.seenFrom siteDisk).perform {} siteDisk siteFiles).2.2
      siteFiles).1.failing = [] := by
    decide +kernel
  rcases hfirst : (longExporter.seenFrom siteDisk).perform {} siteDisk siteFiles with
    ⟨first, kept, d'⟩
  rw [hfirst] at hfailing hfailing'
  rcases hsecond : ((longExporter.seenFrom siteDisk).stamped "later").perform kept d'
    siteFiles with ⟨second, kept', d''⟩
  rw [hsecond] at hfailing'
  exact ⟨first, kept, d', second, kept', d'', isTree_siteDisk, hbelow, rfl, hsecond, hfailing,
    hfailing'⟩

end

end Exporter

end EntityForge
