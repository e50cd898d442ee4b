import EntityForge.Proofs.Disk

/-!
# Directories made on the way

A directory is made together with those that hold it by trying the whole path first and going back
name by name where something is missing. What comes of it is what comes of following the names from
the first on, with a directory made wherever nothing stands: both stop at the first name that cannot
be followed, with the same directories made so far.
-/

namespace EntityForge.Disk

variable {d d' : Disk} {p q : Place} {e : Entry} {n : String} {ns ms : List String} {path : Path}
  {cause : DiskCause} {f : DiskFault}

/-- The names followed from a place, with a directory made wherever nothing stands, up to the first
that cannot be followed; and whether all of them could. -/
def advance (d : Disk) (p : Place) : List String → Disk × Bool
  | [] => (d, d.isDirectoryAt p)
  | n :: ns =>
    if !d.isDirectoryAt p then (d, false)
    else if n = Path.above then advance d p.dropLast ns
    else if longestName < n.utf8ByteSize then (d, false)
    else if (d.get? (p ++ [n])).isNone then advance (d.put (p ++ [n]) .directory) (p ++ [n]) ns
    else advance d (p ++ [n]) ns

/-! ## One name -/

theorem advance_of_not_directory (h : ¬ d.isDirectoryAt p) : d.advance p ns = (d, false) := by
  cases ns with
  | nil => rw [advance, (Bool.not_eq_true _).mp h]
  | cons n ns => rw [advance, if_pos (by simpa using h)]

private theorem advance_cons (hp : d.Stands p .directory) : d.advance p (n :: ns) =
    if n = Path.above then d.advance p.dropLast ns
    else if longestName < n.utf8ByteSize then (d, false)
    else if (d.get? (p ++ [n])).isNone then
      (d.put (p ++ [n]) .directory).advance (p ++ [n]) ns
    else d.advance (p ++ [n]) ns := by
  rw [advance, isDirectoryAt_iff.mpr hp.entry, Bool.not_true, if_neg Bool.false_ne_true]

/-- A name that can be followed to a directory leads on from there. -/
theorem advance_leads (hp : d.Stands p .directory)
    (hn : n = Path.above ∨ n.utf8ByteSize ≤ longestName)
    (hnext : d.Stands (next p n) .directory) (ns : List String) :
    d.advance p (n :: ns) = d.advance (next p n) ns := by
  rw [advance_cons hp]
  by_cases habove : n = Path.above
  · rw [if_pos habove, next, if_pos habove]
  · rw [next, if_neg habove] at hnext ⊢
    rw [if_neg habove, if_neg (Nat.not_lt_of_le (hn.resolve_left habove)), hnext.entry,
      Option.isNone_some, if_neg Bool.false_ne_true]

/-- Where nothing stands a directory is made. -/
theorem advance_makes (hp : d.Stands p .directory) (habove : n ≠ Path.above)
    (hsize : n.utf8ByteSize ≤ longestName) (hfree : d.get? (p ++ [n]) = none) (ns : List String) :
    d.advance p (n :: ns) = (d.put (p ++ [n]) .directory).advance (p ++ [n]) ns := by
  rw [advance_cons hp, if_neg habove, if_neg (Nat.not_lt_of_le hsize), hfree, Option.isNone_none,
    if_pos rfl]

/-- A name that is too long cannot be followed, and nothing can be followed from a file. -/
theorem advance_stops (hp : d.Stands p .directory) (habove : n ≠ Path.above)
    (hstop : longestName < n.utf8ByteSize ∨ ∃ content, d.Stands (p ++ [n]) (.file content))
    (ns : List String) : d.advance p (n :: ns) = (d, false) := by
  rw [advance_cons hp, if_neg habove]
  split
  · rfl
  · rename_i hsize
    obtain ⟨content, hfile⟩ := hstop.resolve_left hsize
    rw [hfile.entry, Option.isNone_some, if_neg Bool.false_ne_true]
    refine advance_of_not_directory fun hd => ?_
    exact nomatch hfile.entry.symm.trans (isDirectoryAt_iff.mp hd)

/-- A name leads on, makes a directory or stops. -/
theorem advance_cases (hp : d.Stands p .directory) (n : String) :
    ((n = Path.above ∨ n.utf8ByteSize ≤ longestName) ∧ d.Stands (next p n) .directory) ∨
      (n ≠ Path.above ∧ n.utf8ByteSize ≤ longestName ∧ d.get? (p ++ [n]) = none) ∨
      (n ≠ Path.above ∧
        (longestName < n.utf8ByteSize ∨ ∃ content, d.Stands (p ++ [n]) (.file content))) := by
  by_cases habove : n = Path.above
  · refine Or.inl ⟨Or.inl habove, ?_⟩
    rw [next, if_pos habove]
    exact hp.dropLast
  · by_cases hlong : longestName < n.utf8ByteSize
    · exact Or.inr (Or.inr ⟨habove, Or.inl hlong⟩)
    · have hsize := Nat.le_of_not_lt hlong
      cases hget : d.get? (p ++ [n]) with
      | none => exact Or.inr (Or.inl ⟨habove, hsize, rfl⟩)
      | some e =>
        have hstands := hp.append hget
        cases e with
        | directory =>
          refine Or.inl ⟨Or.inr hsize, ?_⟩
          rwa [next, if_neg habove]
        | file content => exact Or.inr (Or.inr ⟨habove, Or.inr ⟨content, hstands⟩⟩)

/-! ## Many names -/

/-- All that stands is kept on the way. -/
theorem advance_kept (hp : d.Stands p .directory) : d.Kept (d.advance p ns).1 := by
  induction ns generalizing d p with
  | nil => exact Kept.refl d
  | cons n ns ih =>
    obtain ⟨hn, hnext⟩ | ⟨habove, hsize, hfree⟩ | ⟨habove, hstop⟩ := advance_cases hp n
    · rw [advance_leads hp hn hnext]
      exact ih hnext
    · rw [advance_makes hp habove hsize hfree]
      exact (kept_put concat_ne_nil hfree).trans (ih (stands_put hp))
    · rw [advance_stops hp habove hstop]
      exact Kept.refl d

theorem IsTree.advance (h : d.IsTree) (hp : d.Stands p .directory) : (d.advance p ns).1.IsTree := by
  induction ns generalizing d p with
  | nil => exact h
  | cons n ns ih =>
    obtain ⟨hn, hnext⟩ | ⟨habove, hsize, hfree⟩ | ⟨habove, hstop⟩ := advance_cases hp n
    · rw [advance_leads hp hn hnext]
      exact ih h hnext
    · rw [advance_makes hp habove hsize hfree]
      exact ih (h.put hp (by simp [hfree])) (stands_put hp)
    · rw [advance_stops hp habove hstop]
      exact h

/-- What stands on the tree behind stood before, or is a directory that some of the names lead
to. -/
theorem IsTree.of_advance (h : d.IsTree) (hp : d.Stands p .directory)
    (he : (d.advance p ns).1.Stands q e) :
    d.Stands q e ∨ e = .directory ∧ ∃ ms, ms <+: ns ∧ q = follow p ms := by
  induction ns generalizing d p with
  | nil => exact Or.inl he
  | cons n ns ih =>
    have hlater (hr : ∃ ms, ms <+: ns ∧ q = follow (next p n) ms) :
        ∃ ms, ms <+: n :: ns ∧ q = follow p ms := by
      obtain ⟨ms, hms, rfl⟩ := hr
      exact ⟨n :: ms, (List.prefix_cons_inj n).mpr hms, rfl⟩
    obtain ⟨hn, hnext⟩ | ⟨habove, hsize, hfree⟩ | ⟨habove, hstop⟩ := advance_cases hp n
    · rw [advance_leads hp hn hnext] at he
      exact (ih h hnext he).imp_right fun ⟨hdir, hq⟩ => ⟨hdir, hlater hq⟩
    · rw [advance_makes hp habove hsize hfree] at he
      have hnext : next p n = p ++ [n] := if_neg habove
      rw [hnext] at hlater
      rcases ih (h.put hp (by simp [hfree])) (stands_put hp) he with hmade | ⟨hdir, hq⟩
      · obtain ⟨hq, rfl⟩ | hq := h.of_put concat_ne_nil hmade
        · exact Or.inr ⟨rfl, hlater ⟨[], List.nil_prefix, hq⟩⟩
        · exact Or.inl hq
      · exact Or.inr ⟨hdir, hlater hq⟩
    · rw [advance_stops hp habove hstop] at he
      exact Or.inl he

/-- Names that could all be followed lead to a directory. -/
theorem advance_walk (hp : d.Stands p .directory) (h : (d.advance p ns).2 = true) :
    (d.advance p ns).1.walk p ns = .ok (follow p ns) ∧
      (d.advance p ns).1.Stands (follow p ns) .directory := by
  induction ns generalizing d p with
  | nil => exact ⟨rfl, hp⟩
  | cons n ns ih =>
    -- The first name is followed as the others are, on the disk that is left in the end.
    have hcons {d' : Disk} (hk : d.Kept d') (hn : n = Path.above ∨ n.utf8ByteSize ≤ longestName)
        (hnext : d'.Stands (next p n) .directory)
        (hrest : d'.walk (next p n) ns = .ok (follow (next p n) ns)) :
        d'.walk p (n :: ns) = .ok (follow p (n :: ns)) := by
      refine walk_cons_eq_ok.mpr ⟨(hk p _ hp).entry, ?_, hrest⟩
      by_cases habove : n = Path.above
      · exact Or.inl habove
      · rw [next, if_neg habove] at hnext
        exact Or.inr ⟨hn.resolve_left habove, by rw [hnext.entry, Option.isSome_some]⟩
    obtain ⟨hn, hnext⟩ | ⟨habove, hsize, hfree⟩ | ⟨habove, hstop⟩ := advance_cases hp n
    · rw [advance_leads hp hn hnext] at h ⊢
      obtain ⟨hwalk, hend⟩ := ih hnext h
      exact ⟨hcons (advance_kept hnext) hn (advance_kept hnext _ _ hnext) hwalk, hend⟩
    · rw [advance_makes hp habove hsize hfree] at h ⊢
      have hmade : (d.put (p ++ [n]) .directory).Stands (p ++ [n]) .directory := stands_put hp
      have hkept : (d.put (p ++ [n]) .directory).Kept
          ((d.put (p ++ [n]) .directory).advance (p ++ [n]) ns).1 := advance_kept hmade
      obtain ⟨hwalk, hend⟩ := ih hmade h
      have hnext : next p n = p ++ [n] := if_neg habove
      have hfollow : follow p (n :: ns) = follow (p ++ [n]) ns := congrArg (follow · ns) hnext
      refine ⟨hcons ((kept_put concat_ne_nil hfree).trans hkept) (Or.inr hsize) ?_ ?_, hfollow ▸ hend⟩
      · rw [hnext]
        exact hkept _ _ hmade
      · rw [hnext]
        exact hwalk
    · rw [advance_stops hp habove hstop] at h
      cases h

/-- What is done for some names is done first for a beginning of them. -/
theorem advance_append (hp : d.Stands p .directory) : d.advance p (ns ++ ms) =
    if (d.advance p ns).2 then (d.advance p ns).1.advance (follow p ns) ms
    else ((d.advance p ns).1, false) := by
  induction ns generalizing d p with
  | nil =>
    have hd := isDirectoryAt_iff.mpr hp.entry
    rw [List.nil_append, advance, hd, if_pos rfl]
    rfl
  | cons n ns ih =>
    rw [List.cons_append]
    obtain ⟨hn, hnext⟩ | ⟨habove, hsize, hfree⟩ | ⟨habove, hstop⟩ := advance_cases hp n
    · rw [advance_leads hp hn hnext, advance_leads hp hn hnext, ih hnext]
      rfl
    · have hfollow : follow p (n :: ns) = follow (p ++ [n]) ns :=
        congrArg (follow · ns) (if_neg habove)
      rw [advance_makes hp habove hsize hfree, advance_makes hp habove hsize hfree,
        ih (stands_put hp), hfollow]
    · rw [advance_stops hp habove hstop, advance_stops hp habove hstop, if_neg Bool.false_ne_true]

theorem walk_cons (hp : d.Stands p .directory) : d.walk p (n :: ns) =
    if n = Path.above then d.walk p.dropLast ns
    else if longestName < n.utf8ByteSize then .error .nameTooLong
    else if (d.get? (p ++ [n])).isNone then .error .missing
    else d.walk (p ++ [n]) ns := by
  rw [walk, isDirectoryAt_iff.mpr hp.entry, Bool.not_true, if_neg Bool.false_ne_true]

theorem walk_ne_error (h : d.walk p ns = .ok q) : d.walk p ns ≠ .error cause := by simp [h]

/-- Where nothing is missing, names are followed as far as a walk goes, and no directory is made. -/
theorem advance_of_walk (hp : d.Stands p .directory) (h : d.walk p ns ≠ .error .missing) :
    (d.advance p ns).1 = d ∧ ((d.advance p ns).2 = true ↔
      ∃ q, d.walk p ns = .ok q ∧ d.get? q = some .directory) := by
  induction ns generalizing d p with
  | nil =>
    rw [advance]
    refine ⟨rfl, ?_⟩
    rw [isDirectoryAt_iff]
    constructor
    · exact fun hd => ⟨p, rfl, hd⟩
    · rintro ⟨q, hq, hd⟩
      exact Except.ok.inj hq ▸ hd
  | cons n ns ih =>
    obtain ⟨hn, hnext⟩ | ⟨habove, hsize, hfree⟩ | ⟨habove, hstop⟩ := advance_cases hp n
    · have hwalk : d.walk p (n :: ns) = d.walk (next p n) ns := by
        rw [walk_cons hp]
        by_cases habove : n = Path.above
        · rw [if_pos habove, next, if_pos habove]
        · rw [next, if_neg habove] at hnext ⊢
          rw [if_neg habove, if_neg (Nat.not_lt_of_le (hn.resolve_left habove)), hnext.entry,
            Option.isNone_some, if_neg Bool.false_ne_true]
      rw [hwalk] at h ⊢
      rw [advance_leads hp hn hnext]
      exact ih hnext h
    · refine absurd ?_ h
      rw [walk_cons hp, if_neg habove, if_neg (Nat.not_lt_of_le hsize), hfree, Option.isNone_none,
        if_pos rfl]
    · rw [advance_stops hp habove hstop]
      refine ⟨rfl, fun h => Bool.noConfusion h, ?_⟩
      rintro ⟨q, hq, hd⟩
      obtain ⟨-, hn, hrest⟩ := walk_cons_eq_ok.mp hq
      have hfits := (hn.resolve_left habove).1
      obtain ⟨content, hfile⟩ := hstop.resolve_left (Nat.not_lt_of_le hfits)
      rw [next, if_neg habove] at hrest
      cases hfile.entry.symm.trans (isDirectory_of_walk hrest hd)

/-! ## Directories and those that hold them -/

/-- What is found by a path from the root on is where a walk along its names ends. -/
theorem lookup_eq_directory (hroot : path.root ≠ "") : d.lookup path = .ok .directory ↔
    ∃ q, d.walk [] path.names = .ok q ∧ d.get? q = some .directory := by
  rw [lookup, start, if_neg hroot]
  constructor
  · intro h
    obtain ⟨q, hq, h⟩ := exists_of_bind_eq_ok h
    refine ⟨q, hq, ?_⟩
    split at h
    · rename_i e he
      rw [he, Except.ok.inj h]
    · cases h
  · rintro ⟨q, hq, hd⟩
    simp [hq, hd, bind, Except.bind, pure, Except.pure]

theorem faultUnlessDirectory_eq_none (hroot : path.root ≠ "") :
    makeDirectories.faultUnlessDirectory d path f = none ↔
      ∃ q, d.walk [] path.names = .ok q ∧ d.get? q = some .directory := by
  rw [← lookup_eq_directory hroot, makeDirectories.faultUnlessDirectory, hasDirectory, holds]
  cases d.lookup path with
  | ok e => cases e <;> simp [Entry.isDirectory]
  | error cause => cases cause <;> simp

/-- A directory cannot be made for want of another only if one that is to hold it is missing. -/
theorem walk_of_makeDirectory_missing (hroot : path.root ≠ "") (h : d.makeDirectory path = .error f)
    (hf : f.cause = .missing) : d.walk [] path.parent.names = .error .missing := by
  have hplace : d.placeFor path = .error .missing := by
    rw [makeDirectory] at h
    split at h
    · obtain rfl := Except.error.inj h
      cases hf
    · rename_i cause _ hcause
      obtain rfl := Except.error.inj h
      rw [hcause, ← hf]
    · split at h
      · obtain rfl := Except.error.inj h
        cases hf
      · cases h
  rw [placeFor, start, if_neg hroot] at hplace
  show d.walk [] path.names.dropLast = _
  cases hwalk : d.walk [] path.names.dropLast with
  | error cause =>
    rw [hwalk] at hplace
    exact hplace
  | ok p =>
    rw [hwalk] at hplace
    simp only [bind, Except.bind] at hplace
    split_ifs at hplace
    · cases hplace
    · split at hplace
      · cases hplace
      · split_ifs at hplace
        all_goals cases hplace

/-- What a path leads to is missing, though not what is to hold it, exactly if it leads to a free
place in a directory. -/
theorem walk_eq_missing_iff (hheld : d.walk [] path.parent.names ≠ .error .missing) :
    d.walk [] path.names = .error .missing ↔
      ∃ p n, d.LeadsTo path p n ∧ d.get? (p ++ [n]) = none := by
  constructor
  · intro h
    rcases List.eq_nil_or_concat' path.names with hnil | ⟨ns, n, hnames⟩
    · rw [hnil] at h
      cases h
    · have hparent : path.parent.names = ns := by
        show path.names.dropLast = ns
        rw [hnames, List.dropLast_concat]
      rw [hparent] at hheld
      rw [hnames] at h
      cases hwalk : d.walk [] ns with
      | error cause =>
        rw [walk_append_of_error hwalk] at h
        exact absurd (hwalk.trans h) hheld
      | ok p =>
        rw [walk_append_of_ok hwalk, walk] at h
        split_ifs at h with hd habove hlong hfree
        · cases h
        · cases h
        · cases h
        · have hentry : d.get? p = some .directory := isDirectoryAt_iff.mp (by simpa using hd)
          have hstands : d.Stands p .directory := by
            obtain ⟨-, e, he⟩ := walk_spec (stands_nil d) hwalk
            obtain rfl := Option.some.inj (he.entry.symm.trans hentry)
            exact he
          refine ⟨p, n, ⟨by rwa [hnames, List.dropLast_concat], ?_, habove, Nat.le_of_not_lt hlong,
            hstands⟩, Option.isNone_iff_eq_none.mp hfree⟩
          rw [hnames, List.getLast?_concat]
        · cases h
  · rintro ⟨p, n, hp, hfree⟩
    rw [hp.names_eq, walk_append_of_ok hp.walk, walk_cons hp.stands, if_neg hp.ne_above,
      if_neg (Nat.not_lt_of_le hp.size_le), hfree, Option.isNone_none, if_pos rfl]

/-- The last directory comes about as the names are followed, if what is to hold it exists. -/
theorem makeLast_spec (hroot : path.root ≠ "")
    (hheld : d.walk [] path.parent.names ≠ .error .missing) :
    (makeDirectories.makeLast d path).1 = (d.advance [] path.names).1 ∧
      ((makeDirectories.makeLast d path).2 = none ↔ (d.advance [] path.names).2 = true) := by
  rw [makeDirectories.makeLast]
  split
  · rename_i made hmade
    obtain ⟨p, n, hp, hfree, rfl⟩ := (makeDirectory_eq_ok hroot).mp hmade
    have hready : d.advance [] path.names.dropLast = (d, true) := by
      obtain ⟨hsame, htrue⟩ := advance_of_walk (stands_nil d) (walk_ne_error hp.walk)
      exact Prod.ext hsame (htrue.mpr ⟨p, hp.walk, hp.stands.entry⟩)
    have hend : follow [] path.names.dropLast = p := (walk_spec (stands_nil d) hp.walk).1.symm
    have hmakes : d.advance [] path.names = (d.put (p ++ [n]) .directory, true) := by
      rw [hp.names_eq, advance_append (stands_nil d), hready, if_pos rfl, hend,
        advance_makes hp.stands hp.ne_above hp.size_le hfree, advance,
        isDirectoryAt_iff.mpr (stands_put hp.stands).entry]
    rw [hmakes]
    exact ⟨rfl, iff_of_true rfl rfl⟩
  · rename_i fault hfault
    have hthere : d.walk [] path.names ≠ .error .missing := by
      intro hmissing
      obtain ⟨p, n, hp, hfree⟩ := (walk_eq_missing_iff hheld).mp hmissing
      rw [(makeDirectory_eq_ok hroot).mpr ⟨p, n, hp, hfree, rfl⟩] at hfault
      cases hfault
    obtain ⟨hsame, htrue⟩ := advance_of_walk (stands_nil d) hthere
    exact ⟨hsame.symm, (faultUnlessDirectory_eq_none hroot).trans htrue.symm⟩

/-- Where what is to hold a directory is there, or cannot be, only the directory is tried. -/
theorem makeDirectories_eq_makeLast (hroot : path.root ≠ "")
    (hheld : d.walk [] path.parent.names ≠ .error .missing) (fuel : Nat) :
    makeDirectories fuel d path = makeDirectories.makeLast d path := by
  have hcause : ∀ f, d.makeDirectory path = .error f → f.cause ≠ .missing :=
    fun f hf hmissing => hheld (walk_of_makeDirectory_missing hroot hf hmissing)
  rw [makeDirectories.makeLast]
  cases fuel with
  | zero =>
    rw [makeDirectories]
    split
    · rfl
    · rename_i f hf
      rw [if_neg (hcause f hf)]
  | succ fuel =>
    rw [makeDirectories]
    split
    · rfl
    · rename_i f hf
      rw [if_neg (hcause f hf)]

/-- A directory and those that hold it come about as the names of the path are followed. -/
theorem makeDirectories_spec {fuel : Nat} (hroot : path.root ≠ "")
    (hfuel : path.names.length ≤ fuel) :
    (makeDirectories fuel d path).1 = (d.advance [] path.names).1 ∧
      ((makeDirectories fuel d path).2 = none ↔ (d.advance [] path.names).2 = true) := by
  induction fuel generalizing path with
  | zero =>
    have hnil : path.names = [] := List.length_eq_zero_iff.mp (Nat.le_zero.mp hfuel)
    have hheld : d.walk [] path.parent.names ≠ .error .missing := by
      rw [show path.parent.names = [] from by rw [Path.parent, hnil]; rfl]
      rintro ⟨⟩
    rw [makeDirectories_eq_makeLast hroot hheld]
    exact makeLast_spec hroot hheld
  | succ fuel ih =>
    by_cases hheld : d.walk [] path.parent.names = .error .missing
    · -- What is to hold the directory is made first, and then the directory in it.
      have hnames : ∃ n, path.names = path.parent.names ++ [n] := by
        rcases List.eq_nil_or_concat' path.names with hnil | ⟨ns, n, hnames⟩
        · rw [show path.parent.names = [] from by rw [Path.parent, hnil]; rfl] at hheld
          cases hheld
        · exact ⟨n, by rw [Path.parent, hnames, List.dropLast_concat]⟩
      obtain ⟨n, hnames⟩ := hnames
      have hshorter : path.parent.names.length ≤ fuel := by
        rw [hnames, List.length_append, List.length_singleton] at hfuel
        omega
      have hparent : path.parent.root ≠ "" := hroot
      obtain ⟨hdisk, hfault⟩ := ih hparent hshorter
      have hmissing : d.makeDirectory path = .error ⟨.missing, path, none⟩ := by
        have hplace : d.placeFor path = .error .missing := by
          rw [placeFor, start, if_neg hroot]
          show (d.walk [] path.parent.names >>= _) = _
          rw [hheld]
          rfl
        rw [makeDirectory, hplace]
      rw [makeDirectories, hmissing, hnames, advance_append (stands_nil d)]
      dsimp only
      rw [if_pos rfl]
      split
      · rename_i held fault hheld_fault
        rw [hheld_fault] at hdisk hfault
        have hfalse : ¬ (d.advance [] path.parent.names).2 = true := by
          intro h
          cases hfault.mpr h
        rw [if_neg hfalse]
        exact ⟨hdisk, by simp⟩
      · rename_i held hheld_made
        rw [hheld_made] at hdisk hfault
        have htrue : (d.advance [] path.parent.names).2 = true := hfault.mp rfl
        obtain ⟨hwalk, hstands⟩ := advance_walk (stands_nil d) htrue
        rw [← hdisk] at hwalk hstands
        have hready : held.advance [] path.parent.names = (held, true) := by
          obtain ⟨hsame, hend⟩ := advance_of_walk (stands_nil held) (walk_ne_error hwalk)
          exact Prod.ext hsame (hend.mpr ⟨_, hwalk, hstands.entry⟩)
        have hlast := makeLast_spec (d := held) hroot (walk_ne_error hwalk)
        rw [if_pos htrue, ← hdisk]
        rwa [hnames, advance_append (stands_nil held), hready, if_pos rfl] at hlast
    · rw [makeDirectories_eq_makeLast hroot hheld]
      exact makeLast_spec hroot hheld

end EntityForge.Disk
