import EntityForge.Disk.Replace
import EntityForge.Proofs.Disk
import Mathlib.Data.List.Nodup

/-!
# What a replaced file leaves behind

A file is replaced by way of a temporary one, whose number is chosen so that nothing stands in its
place: of one number more than the disk has entries, one is free. Hence a replacement changes
nothing but the file that is replaced, and when it cannot be made it changes nothing at all. In a
directory it can be made unless the name is too long or the place is that of a directory.
-/

namespace EntityForge

/-- Numbers of one width can be told apart. -/
theorem zeroPadded_inj {width m n : Nat} : zeroPadded width m = zeroPadded width n ↔ m = n := by
  have hread (k : Nat) : Nat.ofDigitChars 10 (zeroPadded width k).toList 0 = k := by
    rw [zeroPadded, String.toList_ofList, Nat.ofDigitChars_append, Nat.ofDigitChars_replicate_zero,
      Nat.mul_zero, Nat.ofDigitChars_ten_toDigits]
  constructor
  · intro h
    rw [← hread m, h, hread n]
  · rintro rfl
    rfl

namespace Disk

variable {d d' : Disk} {p q : Place} {e : Entry} {n : String} {path other : Path}
  {content : ByteArray} {r : Disk × Option DiskFault}

/-! ## Temporary files -/

theorem temporaryName_inj {k l : Nat} : temporaryName n k = temporaryName n l ↔ k = l := by
  rw [temporaryName, temporaryName, String.append_left_inj, String.append_right_inj, zeroPadded_inj]

theorem temporaryName_ne_above (k : Nat) : temporaryName n k ≠ Path.above := by
  intro h
  have hlength := congrArg String.length h
  have hending : ".tmp".length = 4 := rfl
  have habove : Path.above.length = 2 := rfl
  rw [temporaryName, String.length_append, hending, habove] at hlength
  omega

/-- How much longer the name of a temporary file is. -/
def temporaryExcess : Nat := 14

theorem size_temporaryName (name : String) :
    (temporaryName name 0).utf8ByteSize = name.utf8ByteSize + temporaryExcess := by
  have hpoint : ".".utf8ByteSize = 1 := by decide
  have hzeros : (zeroPadded 8 0).utf8ByteSize = 8 := by decide
  have hending : ".tmp".utf8ByteSize = 4 := by decide
  rw [temporaryName, temporaryExcess]
  simp only [String.utf8ByteSize_append, hpoint, hzeros, hending]
  omega

theorem root_temporaryPath (k : Nat) : (d.temporaryPath path k).root ≠ "" :=
  Path.root_resolve (p := path.parent)

/-- A temporary file for a path from the root on stands in the directory of the path. -/
theorem names_temporaryPath (hroot : path.root ≠ "") (k : Nat) :
    (d.temporaryPath path k).names = path.parent.place ++ [temporaryName path.name k] := by
  have hresolve : path.parent.resolve d.current = ⟨path.root, path.parent.place⟩ := if_neg hroot
  rw [temporaryPath, hresolve]

/-- Whatever stands at a place other than the root is an entry. -/
theorem mem_entries (hp : p ≠ []) (h : d.get? p = some e) : p ∈ d.entries.map Prod.fst := by
  rw [get?_of_ne_nil hp, List.lookup_eq_some_iff] at h
  obtain ⟨before, after, hentries, -⟩ := h
  rw [hentries]
  exact List.mem_map.mpr ⟨(p, e), by simp, rfl⟩

/-- Nothing stands at the place of the temporary file with the number that is chosen. There are
fewer entries than numbers to choose from, and the files with these numbers would all be entries. -/
theorem get?_freeNumber (d : Disk) (p : Place) (n : String) :
    d.get? (p ++ [temporaryName n (d.freeNumber p n)]) = none := by
  rw [freeNumber]
  cases hfound : (List.range (d.entries.length + 1)).find? fun k =>
      (d.get? (p ++ [temporaryName n k])).isNone with
  | some k => exact Option.isNone_iff_eq_none.mp (List.find?_some hfound :)
  | none =>
    -- Otherwise the entries would hold one place for each number, and these places are distinct.
    have htaken : ∀ k ∈ List.range (d.entries.length + 1),
        p ++ [temporaryName n k] ∈ d.entries.map Prod.fst := by
      intro k hk
      obtain ⟨e, he⟩ := Option.ne_none_iff_exists'.mp
        (mt Option.isNone_iff_eq_none.mpr (List.find?_eq_none.mp hfound k hk))
      exact mem_entries concat_ne_nil he
    have hdistinct : ((List.range (d.entries.length + 1)).map fun k =>
        p ++ [temporaryName n k]).Nodup := by
      refine List.Nodup.map (fun k l hkl => ?_) List.nodup_range
      rw [List.append_cancel_left_eq, List.cons.injEq] at hkl
      exact temporaryName_inj.mp hkl.1
    have hsubset : (List.range (d.entries.length + 1)).map (fun k => p ++ [temporaryName n k]) ⊆
        d.entries.map Prod.fst := by
      intro q hq
      obtain ⟨k, hk, rfl⟩ := List.mem_map.mp hq
      exact htaken k hk
    have hlength := hdistinct.length_le_of_subset hsubset
    simp only [List.length_map, List.length_range] at hlength
    omega

/-- A temporary file is made in a directory, in a place where nothing stands. -/
theorem temporaryFile_eq_ok (hroot : path.root ≠ "") (h : d.temporaryFile path = .ok (other, p)) :
    ∃ n, p = path.parent.place ++ [n] ∧ d.Stands path.parent.place .directory ∧
      d.get? p = none := by
  rw [temporaryFile] at h
  split at h
  · exact nomatch h
  · rename_i place hplace
    obtain ⟨q, m, hq, rfl⟩ := (placeFor_eq_ok (root_temporaryPath 0)).mp hplace
    obtain ⟨-, rfl⟩ := Prod.mk.inj (Except.ok.inj h)
    -- The walk goes along a place, and ends there.
    have hend := (walk_spec (stands_nil d) hq.walk).1
    rw [names_temporaryPath hroot, List.dropLast_concat, ← collapse_eq_follow, Path.place,
      Path.collapse_collapse, ← Path.place] at hend
    rw [List.dropLast_concat, hend]
    exact ⟨_, rfl, hend ▸ hq.stands, get?_freeNumber d _ _⟩

/-- In a directory a temporary file can be made unless its name is too long. -/
theorem exists_temporaryFile_iff (hroot : path.root ≠ "")
    (hwalk : d.walk [] path.parent.names = .ok p) (hp : d.Stands p .directory) :
    (∃ t, d.temporaryFile path = .ok t) ↔
      path.name.utf8ByteSize + temporaryExcess ≤ longestName := by
  have hend : p = path.parent.place := (walk_spec (stands_nil d) hwalk).1
  have hplain : d.walk [] path.parent.place = .ok p := hend ▸ walk_collapse hwalk
  have hlead : d.LeadsTo (d.temporaryPath path 0) p (temporaryName path.name 0) ↔
      path.name.utf8ByteSize + temporaryExcess ≤ longestName := by
    rw [← size_temporaryName]
    refine ⟨fun h => h.size_le, fun h => ⟨?_, ?_, temporaryName_ne_above 0, h, hp⟩⟩
    · rwa [names_temporaryPath hroot, List.dropLast_concat]
    · rw [names_temporaryPath hroot, List.getLast?_concat]
  rw [← hlead, temporaryFile]
  constructor
  · rintro ⟨t, ht⟩
    split at ht
    · exact nomatch ht
    · rename_i hplace
      obtain ⟨q, m, hq, -⟩ := (placeFor_eq_ok (root_temporaryPath 0)).mp hplace
      have hqp : q ++ [m] = p ++ [temporaryName path.name 0] := by
        rw [hq.place_eq, Path.place, names_temporaryPath hroot, Path.collapse_concat,
          if_neg (temporaryName_ne_above 0), Path.place, Path.collapse_collapse, hend, Path.place]
      obtain ⟨rfl, hm⟩ := List.append_inj' hqp rfl
      rw [← (List.cons.inj hm).1]
      exact hq
  · intro h
    rw [(placeFor_eq_ok (root_temporaryPath 0)).mpr ⟨_, _, h, rfl⟩]
    exact ⟨_, rfl⟩

/-! ## Replacements -/

theorem moveFile_eq_ok (hroot : path.root ≠ "") : d.moveFile p path = .ok d' ↔
    ∃ q m e, d.LeadsTo path q m ∧ d.get? p = some e ∧ d.get? (q ++ [m]) ≠ some .directory ∧
      d' = (d.remove p).put (q ++ [m]) e := by
  rw [moveFile]
  constructor
  · intro h
    split at h
    · exact nomatch h
    · rename_i target htarget
      obtain ⟨q, m, hq, rfl⟩ := (placeFor_eq_ok hroot).mp htarget
      split at h
      · exact nomatch h
      · rename_i e he
        split at h
        · exact nomatch h
        · rename_i hnot
          exact ⟨q, m, e, hq, he, fun hd => hnot (isDirectoryAt_iff.mpr hd),
            (Except.ok.inj h).symm⟩
  · rintro ⟨q, m, e, hq, he, hnot, rfl⟩
    have hnot : ¬ d.isDirectoryAt (q ++ [m]) = true := fun hd => hnot (isDirectoryAt_iff.mp hd)
    simp only [(placeFor_eq_ok hroot).mpr ⟨q, m, hq, rfl⟩, he, hnot, Bool.false_eq_true, if_false]

/-- Nothing is below a place where nothing stands. -/
theorem Stands.not_prefix_free (h : d.Stands q e) (hp : d.get? p = none) : ¬ p <+: q := by
  by_cases hne : q = p
  · subst hne
    exact absurd (h.entry.symm.trans hp) (Option.some_ne_none e)
  · exact h.not_prefix (by simp [hp]) hne

/-- What is put in a free place leads nowhere else. -/
theorem LeadsTo.of_put {m : String} (h : (d.put p (.file content)).LeadsTo path q m)
    (hp : p ≠ []) (hfree : d.get? p = none) : d.Stands q .directory := by
  refine h.stands.of_put hp ?_
  rintro rfl
  have hentry := h.stands.entry
  rw [get?_put hp, if_pos rfl] at hentry
  exact nomatch hentry

/-- What is left of a disk on which a file was put where nothing stood, and went again. -/
private theorem get?_remove_put (hp : p ≠ []) : ((d.put p (.file content)).remove p).get? q =
    if p <+: q then none else d.get? q := by
  rw [get?_remove hp]
  split
  · rfl
  · rename_i hq
    rw [get?_put hp, if_neg fun heq : q = p => hq (heq ▸ List.prefix_refl p)]

/-- A file put where nothing stood, and gone again, leaves what stood before. -/
theorem sameTree_remove_put (hp : p ≠ []) (hfree : d.get? p = none) :
    d.SameTree ((d.put p (.file content)).remove p) := by
  refine sameTree_of_get? (fun q e h => ?_) (fun q e h => ?_)
  · rw [get?_remove_put hp] at h
    split at h
    · exact nomatch h
    · exact h
  · rw [get?_remove_put hp, if_neg (h.not_prefix_free hfree), h.entry]

/-- A file put where nothing stood, and moved from there to a place of no directory, is put
there. -/
theorem puts_of_moved {m : String} (hp : p ≠ []) (hfree : d.get? p = none)
    (hq : d.Stands q .directory)
    (hnot : (d.put p (.file content)).get? (q ++ [m]) ≠ some .directory) :
    d.Puts (((d.put p (.file content)).remove p).put (q ++ [m]) (.file content)) (q ++ [m])
      content := by
  have hnot_before : d.get? (q ++ [m]) ≠ some .directory := by
    rw [get?_put hp] at hnot
    split at hnot
    · rename_i heq
      rw [heq, hfree]
      exact nofun
    · exact hnot
  refine puts_of_get? hq hnot_before (by rw [get?_put concat_ne_nil, if_pos rfl])
    (fun r e hr h => ?_) (fun r e hr h => ?_)
  · rw [get?_put concat_ne_nil, if_neg hr, get?_remove_put hp] at h
    split at h
    · exact nomatch h
    · exact h
  · rw [get?_put concat_ne_nil, if_neg hr, get?_remove_put hp, if_neg (h.not_prefix_free hfree),
      h.entry]

/-- A replacement ends in one of three ways: no temporary file can be made, the file takes its place
in a directory, or it cannot, and then the temporary file goes again. -/
theorem replaceFile_cases (hroot : path.root ≠ "") (h : d.replaceFile path content = r) :
    (∃ f, d.temporaryFile path = .error f ∧ r = (d, some f)) ∨
      ∃ other t, d.temporaryFile path = .ok (other, t) ∧ t ≠ [] ∧ d.get? t = none ∧
        ((∃ p n, (d.put t (.file content)).LeadsTo path p n ∧
            (d.put t (.file content)).get? (p ++ [n]) ≠ some .directory ∧
            r = (((d.put t (.file content)).remove t).put (p ++ [n]) (.file content), none)) ∨
          ∃ f, (∀ p n, (d.put t (.file content)).LeadsTo path p n →
              (d.put t (.file content)).get? (p ++ [n]) = some .directory) ∧
            r = ((d.put t (.file content)).remove t, some f)) := by
  rw [replaceFile] at h
  split at h
  · rename_i f hf
    exact Or.inl ⟨f, hf, h.symm⟩
  · rename_i other t ht
    obtain ⟨n, rfl, -, hfree⟩ := temporaryFile_eq_ok hroot ht
    have hfile : (d.put (path.parent.place ++ [n]) (.file content)).get?
        (path.parent.place ++ [n]) = some (.file content) := by
      rw [get?_put concat_ne_nil, if_pos rfl]
    refine Or.inr ⟨other, _, ht, concat_ne_nil, hfree, ?_⟩
    dsimp only at h
    split at h
    · rename_i replaced hmove
      obtain ⟨p, m, e, hp, he, hnot, rfl⟩ := (moveFile_eq_ok hroot).mp hmove
      obtain rfl : .file content = e := Option.some.inj (hfile.symm.trans he)
      exact Or.inl ⟨p, m, hp, hnot, h.symm⟩
    · rename_i cause hmove
      refine Or.inr ⟨_, fun p m hp => ?_, h.symm⟩
      by_contra hnot
      rw [(moveFile_eq_ok hroot).mpr ⟨p, m, _, hp, hfile, hnot, rfl⟩] at hmove
      exact nomatch hmove

/-- A file that is replaced is put at the place of its path, which is that of no directory. -/
theorem replaceFile_puts (hroot : path.root ≠ "") (h : d.replaceFile path content = (d', none)) :
    ∃ p n, d'.LeadsTo path p n ∧ ¬ d.Stands (p ++ [n]) .directory ∧
      d.Puts d' (p ++ [n]) content := by
  obtain ⟨f, -, hr⟩ | ⟨other, t, -, ht, hfree, hmoved | ⟨f, -, hr⟩⟩ := replaceFile_cases hroot h
  · exact nomatch (Prod.mk.inj hr).2
  · obtain ⟨p, n, hp, hnot, hr⟩ := hmoved
    obtain rfl := (Prod.mk.inj hr).1
    have hputs := puts_of_moved ht hfree (hp.of_put ht hfree) hnot
    -- A directory is neither the temporary file nor the one that is replaced.
    refine ⟨p, n, hp.mono fun q hq => ?_, fun hd => ?_, hputs⟩
    · refine (hputs.stands_iff ?_).mpr (hq.of_put ht ?_)
      · rintro rfl
        exact hnot hq.entry
      · rintro rfl
        have hentry := hq.entry
        rw [get?_put ht, if_pos rfl] at hentry
        exact nomatch hentry
    · exact hnot (kept_put ht hfree _ _ hd).entry
  · exact nomatch (Prod.mk.inj hr).2

/-- A file that cannot be replaced leaves the disk as it was. -/
theorem replaceFile_sameTree {fault : DiskFault} (hroot : path.root ≠ "")
    (h : d.replaceFile path content = (d', some fault)) : d.SameTree d' := by
  obtain ⟨f, -, hr⟩ | ⟨other, t, -, ht, hfree, ⟨p, n, -, -, hr⟩ | ⟨f, -, hr⟩⟩ :=
    replaceFile_cases hroot h
  · obtain rfl := (Prod.mk.inj hr).1
    exact SameTree.refl _
  · exact nomatch (Prod.mk.inj hr).2
  · obtain rfl := (Prod.mk.inj hr).1
    exact sameTree_remove_put ht hfree

/-- In a directory a file is replaced unless its name is too long for a temporary file beside it or
a directory has its place. -/
theorem replaceFile_succeeds_iff (hroot : path.root ≠ "")
    (hwalk : d.walk [] path.parent.names = .ok p) (hp : d.Stands p .directory) :
    (d.replaceFile path content).2 = none ↔
      Fits path temporaryExcess ∧ d.get? path.place ≠ some .directory := by
  have hmade := exists_temporaryFile_iff hroot hwalk hp
  obtain ⟨f, hf, hr⟩ | ⟨other, t, hok, ht, hfree, hmoved⟩ := replaceFile_cases hroot rfl
  · rw [hr]
    refine ⟨nofun, fun ⟨hfits, _⟩ => ?_⟩
    obtain ⟨n, hlead⟩ := hfits.leadsTo hwalk hp
    obtain ⟨t, hok⟩ := hmade.mpr (hlead.fits_iff.mp hfits)
    exact nomatch hf.symm.trans hok
  · have hkept : d.Kept (d.put t (.file content)) := kept_put ht hfree
    -- The temporary file is no directory, and nothing was where it is.
    have hsame (q : Place) :
        (d.put t (.file content)).get? q = some .directory ↔ d.get? q = some .directory := by
      rw [get?_put ht]
      split
      · rename_i heq
        rw [heq, hfree]
        exact iff_of_false nofun nofun
      · exact Iff.rfl
    obtain ⟨q, n, hq, hnot, hr⟩ | ⟨f, hblocked, hr⟩ := hmoved
    · rw [hr]
      rw [hq.place_eq, Ne, hsame] at hnot
      exact ⟨fun _ => ⟨hq.fits_iff.mpr (hmade.mp ⟨_, hok⟩), hnot⟩, fun _ => rfl⟩
    · rw [hr]
      refine ⟨nofun, fun ⟨hfits, hnot⟩ => ?_⟩
      obtain ⟨n, hlead⟩ := hfits.leadsTo hwalk hp
      have hdirectory := hblocked p n (hlead.mono hkept.directories)
      rw [hlead.place_eq, hsame] at hdirectory
      exact absurd hdirectory hnot

/-- A file that is overwritten is put at the place of its path, which is that of no directory. -/
theorem overwriteFile_puts (hroot : path.root ≠ "")
    (h : d.overwriteFile path content = (d', none)) :
    ∃ p n, d'.LeadsTo path p n ∧ ¬ d.Stands (p ++ [n]) .directory ∧
      d.Puts d' (p ++ [n]) content := by
  rw [overwriteFile] at h
  split at h
  · rename_i written hwritten
    obtain rfl : written = d' := (Prod.mk.inj h).1
    obtain ⟨p, n, hp, hnot, rfl⟩ := (writeFile_eq_ok hroot).mp hwritten
    have hputs : d.Puts (d.put (p ++ [n]) (.file content)) (p ++ [n]) content :=
      puts_of_get? hp.stands hnot (by rw [get?_put concat_ne_nil, if_pos rfl])
        (fun q e hq h => by rwa [get?_put concat_ne_nil, if_neg hq] at h)
        (fun q e hq h => by rw [get?_put concat_ne_nil, if_neg hq, h.entry])
    have hnot_stands : ¬ d.Stands (p ++ [n]) .directory := fun hd => hnot hd.entry
    exact ⟨p, n, hp.mono (hputs.wrote hnot_stands).directories, hnot_stands, hputs⟩
  · exact nomatch (Prod.mk.inj h).2

/-- A file that cannot be overwritten leaves the disk as it was. -/
theorem overwriteFile_sameTree {fault : DiskFault}
    (h : d.overwriteFile path content = (d', some fault)) : d.SameTree d' := by
  rw [overwriteFile] at h
  split at h
  · exact nomatch (Prod.mk.inj h).2
  · obtain rfl := (Prod.mk.inj h).1
    exact SameTree.refl d

/-- In a directory a file is overwritten unless its name is too long or a directory has its
place. -/
theorem overwriteFile_succeeds_iff (hroot : path.root ≠ "")
    (hwalk : d.walk [] path.parent.names = .ok p) (hp : d.Stands p .directory) :
    (d.overwriteFile path content).2 = none ↔
      Fits path 0 ∧ d.get? path.place ≠ some .directory := by
  have hwritten : (d.overwriteFile path content).2 = none ↔
      ∃ d', d.writeFile path content = .ok d' := by
    rw [overwriteFile]
    split
    · rename_i d' h
      exact iff_of_true rfl ⟨d', h⟩
    · rename_i f h
      exact iff_of_false nofun fun ⟨d', hd'⟩ => nomatch h.symm.trans hd'
  rw [hwritten]
  constructor
  · rintro ⟨d', h⟩
    obtain ⟨q, n, hq, hnot, -⟩ := (writeFile_eq_ok hroot).mp h
    exact ⟨⟨n, hq.last, hq.ne_above, hq.size_le⟩, hq.place_eq ▸ hnot⟩
  · rintro ⟨hfits, hnot⟩
    obtain ⟨n, hlead⟩ := hfits.leadsTo hwalk hp
    exact ⟨_, (writeFile_eq_ok hroot).mpr ⟨p, n, hlead, hlead.place_eq ▸ hnot, rfl⟩⟩

end Disk

end EntityForge
