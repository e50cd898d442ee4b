import EntityForge.Disk.Basic
import EntityForge.Proofs.Finding
import Mathlib.Data.List.Basic
import Mathlib.Data.List.Induction

/-!
# What stands on a disk

Something stands at a place when every place on the way to it is that of a directory. Directories
are made and files are written only where no directory is, so that whatever stood somewhere else
still stands there afterwards, and a path that led to a place still leads to it.
-/

namespace EntityForge

namespace Path

variable {p q : Path} {ns : List String}

theorem collapse_concat (ns : List String) (n : String) :
    collapse (ns ++ [n]) = if n = above then (collapse ns).dropLast else collapse ns ++ [n] := by
  rw [collapse, collapse, List.foldl_append, List.foldl_cons, List.foldl_nil]

theorem above_not_mem_collapse (ns : List String) : above ∉ collapse ns := by
  induction ns using List.reverseRecOn with
  | nil => exact List.not_mem_nil
  | append_singleton ns n ih =>
    rw [collapse_concat]
    split
    · exact fun h => ih (List.dropLast_subset _ h)
    · rename_i hn
      rw [List.mem_append, List.mem_singleton, not_or]
      exact ⟨ih, Ne.symm hn⟩

theorem collapse_eq_self (h : above ∉ ns) : collapse ns = ns := by
  induction ns using List.reverseRecOn with
  | nil => rfl
  | append_singleton ns n ih =>
    rw [List.mem_append, List.mem_singleton, not_or] at h
    rw [collapse_concat, if_neg (Ne.symm h.2), ih h.1]

@[simp] theorem collapse_collapse (ns : List String) : collapse (collapse ns) = collapse ns :=
  collapse_eq_self (above_not_mem_collapse ns)

/-- The place that a path from the root on leads to, if it leads anywhere. -/
def place (p : Path) : Place := collapse p.names

@[simp] theorem root_parent : p.parent.root = p.root := rfl

theorem root_join (hp : p.root ≠ "") : (p.join q).root ≠ "" := by
  rw [join]
  split
  · exact hp
  · assumption

theorem root_resolve {current : List String} : (p.resolve current).root ≠ "" := by
  rw [resolve]
  split
  · show "/" ≠ ""
    decide
  · assumption

end Path

namespace Disk

variable {d d' d'' : Disk} {p q : Place} {e f : Entry} {n : String} {ns : List String}

/-! ## Entries -/

theorem concat_ne_nil : p ++ [n] ≠ [] :=
  List.append_ne_nil_of_right_ne_nil p (List.cons_ne_nil n [])

@[simp] theorem get?_nil (d : Disk) : d.get? [] = some .directory := if_pos rfl

theorem get?_of_ne_nil (h : p ≠ []) : d.get? p = d.entries.lookup p := if_neg h

theorem isDirectoryAt_iff : d.isDirectoryAt p = true ↔ d.get? p = some .directory := by
  rw [isDirectoryAt, Option.any_eq_true]
  constructor
  · rintro ⟨e, he, hd⟩
    cases e with
    | directory => exact he
    | file content => exact Bool.noConfusion hd
  · exact fun h => ⟨.directory, h, rfl⟩

private theorem lookup_cons_ite (es : List (Place × Entry)) :
    ((p, e) :: es).lookup q = if q = p then some e else es.lookup q := by
  by_cases h : q = p
  · rw [List.lookup_cons, beq_iff_eq.mpr h, if_pos h]
  · rw [List.lookup_cons, beq_eq_false_iff_ne.mpr h, if_neg h]

private theorem lookup_putEntry (es : List (Place × Entry)) :
    (putEntry p e es).lookup q = if q = p then some e else es.lookup q := by
  induction es with
  | nil => rw [putEntry, lookup_cons_ite]
  | cons entry es ih =>
    obtain ⟨r, f⟩ := entry
    rw [putEntry]
    split
    · rename_i hr
      rw [lookup_cons_ite, lookup_cons_ite, hr]
      split <;> rfl
    · rename_i hr
      rw [lookup_cons_ite, lookup_cons_ite, ih]
      by_cases hq : q = p
      · rw [if_pos hq, if_pos hq, if_neg (hq ▸ Ne.symm hr)]
      · rw [if_neg hq, if_neg hq]

theorem get?_put (hp : p ≠ []) : (d.put p e).get? q = if q = p then some e else d.get? q := by
  by_cases hq : q = []
  · subst hq
    rw [get?_nil, if_neg (Ne.symm hp), get?_nil]
  · rw [get?_of_ne_nil hq, get?_of_ne_nil hq, put, lookup_putEntry]

/-- Nothing is left at a place and below it, and what stands elsewhere stays. -/
theorem get?_remove (hp : p ≠ []) : (d.remove p).get? q = if p <+: q then none else d.get? q := by
  by_cases hq : q = []
  · have hprefix : ¬ p <+: [] := fun h => hp (List.prefix_nil.mp h)
    rw [hq, get?_nil, get?_nil, if_neg hprefix]
  · rw [get?_of_ne_nil hq, get?_of_ne_nil hq, remove]
    dsimp only
    induction d.entries with
    | nil => split <;> rfl
    | cons entry es ih =>
      obtain ⟨r, f⟩ := entry
      rw [List.filter_cons, lookup_cons_ite]
      dsimp only
      by_cases hr : p <+: r
      · rw [List.isPrefixOf_iff_prefix.mpr hr, Bool.not_true, if_neg Bool.false_ne_true, ih]
        by_cases hqr : q = r
        · rw [if_pos (hqr ▸ hr), if_pos (hqr ▸ hr)]
        · rw [if_neg hqr]
      · have hstays : (!p.isPrefixOf r) = true := by
          rw [Bool.not_eq_true', ← Bool.not_eq_true, List.isPrefixOf_iff_prefix]
          exact hr
        rw [if_pos hstays, lookup_cons_ite, ih]
        by_cases hqr : q = r
        · rw [if_pos hqr, if_neg (hqr ▸ hr), if_pos hqr]
        · rw [if_neg hqr, if_neg hqr]

/-! ## Places that can be reached -/

/-- Something stands at a place that can be reached. -/
structure Stands (d : Disk) (p : Place) (e : Entry) : Prop where
  entry : d.get? p = some e
  reached : ∀ q, q <+: p → q ≠ p → d.get? q = some .directory

theorem stands_nil (d : Disk) : d.Stands [] .directory :=
  ⟨get?_nil d, fun _ hq hne => absurd (List.prefix_nil.mp hq) hne⟩

/-- A place in a directory that can be reached can be reached. -/
theorem Stands.append (h : d.Stands p .directory) (he : d.get? (p ++ [n]) = some e) :
    d.Stands (p ++ [n]) e := by
  refine ⟨he, fun q hq hne => ?_⟩
  rcases List.prefix_concat_iff.mp hq with rfl | hq
  · exact absurd rfl hne
  · by_cases hqp : q = p
    · rw [hqp, h.entry]
    · exact h.reached q hq hqp

/-- Whatever is on the way to a place that can be reached is a directory. -/
theorem Stands.of_prefix (h : d.Stands p e) (hq : q <+: p) (hne : q ≠ p) :
    d.Stands q .directory := by
  refine ⟨h.reached q hq hne, fun r hr hrq => h.reached r (hr.trans hq) ?_⟩
  rintro rfl
  exact hrq (hr.eq_of_length_le hq.length_le)

/-- Whatever can be reached stands in a directory. -/
theorem Stands.dropLast (h : d.Stands p .directory) : d.Stands p.dropLast .directory := by
  by_cases hp : p = []
  · subst hp
    exact h
  · have hne {q : Place} (hq : q <+: p.dropLast) : q ≠ p := by
      rintro rfl
      have hlength := hq.length_le
      have hpos := List.length_pos_iff.mpr hp
      rw [List.length_dropLast] at hlength
      omega
    exact ⟨h.reached _ (List.dropLast_prefix p) (hne (List.prefix_refl _)),
      fun q hq _ => h.reached q (hq.trans (List.dropLast_prefix p)) (hne hq)⟩

/-- What is no directory is on the way to nothing. -/
theorem Stands.not_prefix (h : d.Stands q e) (hp : d.get? p ≠ some .directory) (hne : q ≠ p) :
    ¬ p <+: q :=
  fun hpq => hp (h.reached p hpq (Ne.symm hne))

/-- All that stands on a disk stands on another. -/
def Kept (d d' : Disk) : Prop := ∀ p e, d.Stands p e → d'.Stands p e

/-- All directories of a disk are directories of another. -/
def DirectoriesKept (d d' : Disk) : Prop := ∀ p, d.Stands p .directory → d'.Stands p .directory

theorem Kept.refl (d : Disk) : d.Kept d := fun _ _ h => h

theorem Kept.trans (h : d.Kept d') (h' : d'.Kept d'') : d.Kept d'' :=
  fun p e hp => h' p e (h p e hp)

theorem Kept.directories (h : d.Kept d') : d.DirectoriesKept d' := fun p hp => h p .directory hp

theorem DirectoriesKept.trans (h : d.DirectoriesKept d') (h' : d'.DirectoriesKept d'') :
    d.DirectoriesKept d'' :=
  fun p hp => h' p (h p hp)

/-- What is put where no directory was leaves what stands elsewhere. -/
theorem Stands.put (h : d.Stands q e) (hp : p ≠ []) (hnot : d.get? p ≠ some .directory)
    (hne : q ≠ p) : (d.put p f).Stands q e := by
  refine ⟨by rw [get?_put hp, if_neg hne, h.entry], fun r hr hrq => ?_⟩
  have hrp : r ≠ p := fun hrp => h.not_prefix hnot hne (hrp ▸ hr)
  rw [get?_put hp, if_neg hrp, h.reached r hr hrq]

/-- What is put where nothing was leaves all that stands. -/
theorem kept_put (hp : p ≠ []) (hfree : d.get? p = none) : d.Kept (d.put p e) := by
  intro q f hq
  refine hq.put hp (by simp [hfree]) ?_
  rintro rfl
  exact Option.some_ne_none f (hq.entry.symm.trans hfree)

/-- What is put in a directory stands there. -/
theorem stands_put (h : d.Stands p .directory) : (d.put (p ++ [n]) f).Stands (p ++ [n]) f := by
  refine ⟨by rw [get?_put concat_ne_nil, if_pos rfl], fun r hr hrp => ?_⟩
  rw [get?_put concat_ne_nil, if_neg hrp]
  rcases List.prefix_concat_iff.mp hr with rfl | hr
  · exact absurd rfl hrp
  · by_cases hrp : r = p
    · rw [hrp, h.entry]
    · exact h.reached r hr hrp

/-- A file that is put somewhere makes nothing else stand. -/
theorem Stands.of_put {content : ByteArray} (h : (d.put p (.file content)).Stands q e)
    (hp : p ≠ []) (hne : q ≠ p) : d.Stands q e := by
  have hentry := h.entry
  rw [get?_put hp, if_neg hne] at hentry
  refine ⟨hentry, fun r hr hrq => ?_⟩
  have hdirectory := h.reached r hr hrq
  rw [get?_put hp] at hdirectory
  split at hdirectory
  · exact nomatch hdirectory
  · exact hdirectory

/-- What goes and is no directory leaves what stands elsewhere. -/
theorem Stands.remove (h : d.Stands q e) (hp : p ≠ []) (hnot : d.get? p ≠ some .directory)
    (hne : q ≠ p) : (d.remove p).Stands q e := by
  have hpq := h.not_prefix hnot hne
  refine ⟨by rw [get?_remove hp, if_neg hpq, h.entry], fun r hr hrq => ?_⟩
  rw [get?_remove hp, if_neg fun hpr : p <+: r => hpq (hpr.trans hr), h.reached r hr hrq]

/-! ## Trees -/

/-- All that a disk holds can be reached. -/
def IsTree (d : Disk) : Prop := ∀ p e, d.get? p = some e → d.Stands p e

theorem IsTree.stands_iff (h : d.IsTree) : d.Stands p e ↔ d.get? p = some e :=
  ⟨Stands.entry, h p e⟩

/-- A disk is a tree if each of its entries is held by a directory. -/
theorem isTree_of_entries (h : ∀ w ∈ d.entries, d.isDirectoryAt w.1.dropLast = true) :
    d.IsTree := by
  intro p
  induction p using List.reverseRecOn with
  | nil =>
    intro e he
    obtain rfl : .directory = e := Option.some.inj ((get?_nil d).symm.trans he)
    exact stands_nil d
  | append_singleton p n ih =>
    intro e he
    have hentry := he
    rw [get?_of_ne_nil concat_ne_nil, List.lookup_eq_some_iff] at hentry
    obtain ⟨before, after, hentries, -⟩ := hentry
    have hholds := isDirectoryAt_iff.mp (h (p ++ [n], e) (by rw [hentries]; simp))
    rw [List.dropLast_concat] at hholds
    exact (ih _ hholds).append he

/-- What is put in a directory, where no directory was, can be reached. -/
theorem IsTree.put (h : d.IsTree) (hp : d.Stands p .directory)
    (hnot : d.get? (p ++ [n]) ≠ some .directory) : (d.put (p ++ [n]) f).IsTree := by
  intro q e he
  rw [get?_put concat_ne_nil] at he
  split at he
  · rename_i hq
    obtain rfl := Option.some.inj he
    rw [hq]
    exact stands_put hp
  · rename_i hq
    exact (h q e he).put concat_ne_nil hnot hq

/-- What stands in a tree after something was put there is that or stood before. -/
theorem IsTree.of_put (h : d.IsTree) (hp : p ≠ []) (he : (d.put p f).Stands q e) :
    q = p ∧ e = f ∨ d.Stands q e := by
  have hentry := he.entry
  rw [get?_put hp] at hentry
  split at hentry
  · exact Or.inl ⟨‹_›, (Option.some.inj hentry).symm⟩
  · exact Or.inr (h q e hentry)

/-- What is left when a place goes with all below it can be reached. -/
theorem IsTree.remove (h : d.IsTree) (hp : p ≠ []) : (d.remove p).IsTree := by
  intro q e he
  rw [get?_remove hp] at he
  split at he
  · exact nomatch he
  · rename_i hq
    refine ⟨by rw [get?_remove hp, if_neg hq, he], fun r hr hne => ?_⟩
    rw [get?_remove hp, if_neg fun hpr : p <+: r => hq (hpr.trans hr)]
    exact (h q e he).reached r hr hne

/-! ## Walks -/

/-- The place that one name leads to from another. -/
def next (p : Place) (n : String) : Place := if n = Path.above then p.dropLast else p ++ [n]

/-- The place that names lead to from another, whatever stands there. -/
def follow (p : Place) (ns : List String) : Place := ns.foldl next p

theorem collapse_eq_follow (ns : List String) : Path.collapse ns = follow [] ns := rfl

/-- A name leads on from a directory. -/
def Enters (d : Disk) (p : Place) (n : String) : Prop :=
  n = Path.above ∨ n.utf8ByteSize ≤ longestName ∧ (d.get? (p ++ [n])).isSome = true

theorem walk_cons_eq_ok : d.walk p (n :: ns) = .ok q ↔
    d.get? p = some .directory ∧ d.Enters p n ∧ d.walk (next p n) ns = .ok q := by
  rw [walk, ← isDirectoryAt_iff, Enters, next]
  by_cases hd : d.isDirectoryAt p = true
  · by_cases hn : n = Path.above
    · simp [hd, hn]
    · by_cases hsize : longestName < n.utf8ByteSize
      · simp [hd, hn, hsize, Nat.not_le_of_lt hsize]
      · cases hget : d.get? (p ++ [n]) with
        | none => simp [hd, hn, hsize]
        | some e => simp [hd, hn, hsize, Nat.le_of_not_lt hsize]
  · simp [hd]

theorem walk_append {ms : List String} : d.walk p (ns ++ ms) = .ok q ↔
    ∃ r, d.walk p ns = .ok r ∧ d.walk r ms = .ok q := by
  induction ns generalizing p with
  | nil => simp [walk]
  | cons n ns ih =>
    rw [List.cons_append, walk_cons_eq_ok, ih]
    simp only [walk_cons_eq_ok]
    constructor
    · rintro ⟨hp, hn, r, hr, hq⟩
      exact ⟨r, ⟨hp, hn, hr⟩, hq⟩
    · rintro ⟨r, ⟨hp, hn, hr⟩, hq⟩
      exact ⟨hp, hn, r, hr, hq⟩

/-- A walk stops where a walk along its first names does. -/
theorem walk_append_of_error {ms : List String} {cause : DiskCause}
    (h : d.walk p ns = .error cause) : d.walk p (ns ++ ms) = .error cause := by
  induction ns generalizing p with
  | nil => exact nomatch h
  | cons n ns ih =>
    rw [List.cons_append, walk]
    rw [walk] at h
    split_ifs at h ⊢ with hd habove hlong hmissing
    · exact h
    · exact ih h
    · exact h
    · exact h
    · exact ih h

/-- A walk goes on where a walk along its first names ends. -/
theorem walk_append_of_ok {ms : List String} (h : d.walk p ns = .ok q) :
    d.walk p (ns ++ ms) = d.walk q ms := by
  induction ns generalizing p with
  | nil =>
    obtain rfl : p = q := Except.ok.inj h
    rfl
  | cons n ns ih =>
    rw [List.cons_append, walk]
    rw [walk] at h
    split_ifs at h ⊢ with hd habove hlong hmissing
    · exact ih h
    · exact ih h

/-- What a name leads to from a directory can be reached. -/
theorem Enters.stands (hn : d.Enters p n) (h : d.Stands p .directory) :
    ∃ e, d.Stands (next p n) e := by
  rw [next]
  split
  · exact ⟨.directory, h.dropLast⟩
  · rename_i hne
    obtain ⟨e, he⟩ := Option.isSome_iff_exists.mp (hn.resolve_left hne).2
    exact ⟨e, h.append he⟩

/-- A walk ends at the place that its names lead to, and something stands there. -/
theorem walk_spec (hp : d.Stands p e) (h : d.walk p ns = .ok q) :
    q = follow p ns ∧ ∃ f, d.Stands q f := by
  induction ns generalizing p e with
  | nil =>
    obtain rfl : p = q := Except.ok.inj h
    exact ⟨rfl, e, hp⟩
  | cons n ns ih =>
    obtain ⟨hd, hn, h⟩ := walk_cons_eq_ok.mp h
    obtain rfl : e = .directory := Option.some.inj (hp.entry.symm.trans hd)
    obtain ⟨f, hf⟩ := hn.stands hp
    exact ih hf h

/-- No name of a place that a walk goes to is too long. -/
theorem walk_size_le (h : d.walk p ns = .ok q) (hp : ∀ n ∈ p, n.utf8ByteSize ≤ longestName) :
    ∀ n ∈ q, n.utf8ByteSize ≤ longestName := by
  induction ns generalizing p with
  | nil =>
    obtain rfl : p = q := Except.ok.inj h
    exact hp
  | cons n ns ih =>
    obtain ⟨-, hn, h⟩ := walk_cons_eq_ok.mp h
    refine ih h fun m hm => ?_
    rw [next] at hm
    split at hm
    · exact hp m (List.dropLast_subset p hm)
    · rename_i habove
      rcases List.mem_append.mp hm with hm | hm
      · exact hp m hm
      · exact (List.mem_singleton.mp hm) ▸ (hn.resolve_left habove).1

/-- If a walk ends because of a name that is too long, there is one. -/
theorem exists_long_of_walk (h : d.walk p ns = .error .nameTooLong) :
    ∃ n ∈ ns, longestName < n.utf8ByteSize := by
  induction ns generalizing p with
  | nil => exact nomatch h
  | cons n ns ih =>
    have hlater (h : ∃ m ∈ ns, longestName < m.utf8ByteSize) :
        ∃ m ∈ n :: ns, longestName < m.utf8ByteSize :=
      h.imp fun m hm => ⟨List.mem_cons_of_mem n hm.1, hm.2⟩
    rw [walk] at h
    split_ifs at h with hd habove hlong hmissing
    · exact nomatch h
    · exact hlater (ih h)
    · exact ⟨n, List.mem_cons_self, hlong⟩
    · exact nomatch h
    · exact hlater (ih h)

/-- A walk that ends somewhere can also be made without going up. -/
theorem walk_collapse (h : d.walk [] ns = .ok p) : d.walk [] p = .ok p := by
  induction ns using List.reverseRecOn generalizing p with
  | nil =>
    obtain rfl : [] = p := Except.ok.inj h
    rfl
  | append_singleton ns n ih =>
    obtain ⟨q, hq, hstep⟩ := walk_append.mp h
    obtain ⟨hd, hn, hend⟩ := walk_cons_eq_ok.mp hstep
    obtain rfl : next q n = p := Except.ok.inj hend
    have hwalk := ih hq
    by_cases habove : n = Path.above
    · rw [next, if_pos habove]
      -- The walk to a place leads through the one that holds it.
      rcases List.eq_nil_or_concat' q with rfl | ⟨r, m, rfl⟩
      · exact hwalk
      · rw [List.dropLast_concat]
        obtain ⟨s, hs, hlast⟩ := walk_append.mp hwalk
        obtain ⟨-, hm, hend⟩ := walk_cons_eq_ok.mp hlast
        have hm_above : m ≠ Path.above := by
          rintro rfl
          have hnot := Path.above_not_mem_collapse ns
          rw [collapse_eq_follow, ← (walk_spec (stands_nil d) hq).1] at hnot
          exact hnot (List.mem_append_right r List.mem_cons_self)
        rw [next, if_neg hm_above] at hend
        obtain rfl : s = r := (List.append_inj' (Except.ok.inj hend) rfl).1
        exact hs
    · rw [next, if_neg habove]
      refine walk_append.mpr ⟨q, hwalk, walk_cons_eq_ok.mpr ⟨hd, hn, ?_⟩⟩
      rw [next, if_neg habove, walk]

/-- A walk to a directory starts from one. -/
theorem isDirectory_of_walk (h : d.walk p ns = .ok q) (hq : d.get? q = some .directory) :
    d.get? p = some .directory := by
  cases ns with
  | nil =>
    obtain rfl : p = q := Except.ok.inj h
    exact hq
  | cons n ns => exact (walk_cons_eq_ok.mp h).1

/-- A walk to a directory leads there wherever the directories are kept. -/
theorem walk_mono (hk : d.DirectoriesKept d') (hp : d.Stands p .directory)
    (h : d.walk p ns = .ok q) (hq : d.get? q = some .directory) : d'.walk p ns = .ok q := by
  induction ns generalizing p with
  | nil => exact h
  | cons n ns ih =>
    obtain ⟨hd, hn, h⟩ := walk_cons_eq_ok.mp h
    -- Each place on the way is that of a directory, since the walk goes on from it.
    have hnext : d.Stands (next p n) .directory := by
      obtain ⟨f, hf⟩ := hn.stands hp
      obtain rfl : f = .directory :=
        Option.some.inj (hf.entry.symm.trans (isDirectory_of_walk h hq))
      exact hf
    refine walk_cons_eq_ok.mpr ⟨(hk p hp).entry, ?_, ih hnext h⟩
    by_cases habove : n = Path.above
    · exact Or.inl habove
    · have hkept := (hk _ hnext).entry
      rw [next, if_neg habove] at hkept
      exact Or.inr ⟨(hn.resolve_left habove).1, by rw [hkept, Option.isSome_some]⟩

/-! ## Paths from the root on -/

/-- A path from the root on, however it is written, leads to a place in a directory. -/
structure LeadsTo (d : Disk) (path : Path) (p : Place) (n : String) : Prop where
  walk : d.walk [] path.names.dropLast = .ok p
  last : path.names.getLast? = some n
  ne_above : n ≠ Path.above
  size_le : n.utf8ByteSize ≤ longestName
  stands : d.Stands p .directory

variable {path : Path}

/-- What a computation that goes on has not refused. -/
private theorem eq_ok_of_unless {c : Prop} [Decidable c] {cause : DiskCause}
    {rest : Unit → Except DiskCause Place}
    (h : (if c then throw cause >>= rest else rest ()) = .ok q) : ¬ c ∧ rest () = .ok q := by
  split at h
  · exact nomatch h
  · rename_i hc
    exact ⟨hc, h⟩

theorem placeFor_eq_ok (hroot : path.root ≠ "") : d.placeFor path = .ok q ↔
    ∃ p n, d.LeadsTo path p n ∧ q = p ++ [n] := by
  rw [placeFor, start, if_neg hroot]
  constructor
  · intro h
    obtain ⟨p, hw, h⟩ := exists_of_bind_eq_ok h
    obtain ⟨hd, h⟩ := eq_ok_of_unless h
    obtain ⟨-, f, hf⟩ := walk_spec (stands_nil d) hw
    have hdir : d.get? p = some .directory := isDirectoryAt_iff.mp (by simpa using hd)
    obtain rfl : f = .directory := Option.some.inj (hf.entry.symm.trans hdir)
    split at h
    · exact nomatch h
    · rename_i n hl
      obtain ⟨habove, h⟩ := eq_ok_of_unless h
      obtain ⟨hsize, h⟩ := eq_ok_of_unless h
      exact ⟨p, n, ⟨hw, hl, habove, Nat.le_of_not_lt hsize, hf⟩, (Except.ok.inj h).symm⟩
  · rintro ⟨p, n, h, rfl⟩
    have hd := isDirectoryAt_iff.mpr h.stands.entry
    simp only [h.walk, bind, Except.bind, h.last, hd, h.ne_above, Nat.not_lt_of_le h.size_le,
      Bool.not_true, Bool.false_eq_true, if_false]
    rfl

theorem LeadsTo.names_eq (h : d.LeadsTo path p n) : path.names = path.names.dropLast ++ [n] := by
  obtain ⟨ms, hms⟩ := List.getLast?_eq_some_iff.mp h.last
  rw [hms, List.dropLast_concat]

/-- A path leads to one place whatever stands on the disk. -/
theorem LeadsTo.place_eq (h : d.LeadsTo path p n) : p ++ [n] = path.place := by
  obtain ⟨hp, -⟩ := walk_spec (stands_nil d) h.walk
  rw [Path.place, collapse_eq_follow, h.names_eq, follow, List.foldl_append, List.foldl_cons,
    List.foldl_nil, next, if_neg h.ne_above, ← follow, ← hp]

/-- The last name of a path can be given to a file, also if it gets some bytes longer. -/
def Fits (path : Path) (excess : Nat) : Prop :=
  ∃ n, path.names.getLast? = some n ∧ n ≠ Path.above ∧ n.utf8ByteSize + excess ≤ longestName

theorem LeadsTo.name_eq (h : d.LeadsTo path p n) : path.name = n := by
  rw [Path.name, List.getLastD_eq_getLast?, h.last, Option.getD_some]

theorem LeadsTo.fits_iff {excess : Nat} (h : d.LeadsTo path p n) :
    Fits path excess ↔ path.name.utf8ByteSize + excess ≤ longestName := by
  rw [h.name_eq]
  constructor
  · rintro ⟨m, hm, -, hsize⟩
    obtain rfl : n = m := Option.some.inj (h.last.symm.trans hm)
    exact hsize
  · exact fun hsize => ⟨n, h.last, h.ne_above, hsize⟩

/-- A path whose last name fits leads to a place in the directory that holds it. -/
theorem Fits.leadsTo {excess : Nat} (h : Fits path excess)
    (hwalk : d.walk [] path.parent.names = .ok p) (hp : d.Stands p .directory) :
    ∃ n, d.LeadsTo path p n := by
  obtain ⟨n, hlast, hne, hsize⟩ := h
  exact ⟨n, hwalk, hlast, hne, Nat.le_of_add_right_le hsize, hp⟩

/-- A path leads to its place wherever the directories are kept. -/
theorem LeadsTo.mono (hk : d.DirectoriesKept d') (h : d.LeadsTo path p n) :
    d'.LeadsTo path p n where
  walk := walk_mono hk (stands_nil d) h.walk h.stands.entry
  last := h.last
  ne_above := h.ne_above
  size_le := h.size_le
  stands := hk p h.stands

/-- What is found by a path is what stands at the place it leads to. -/
theorem LeadsTo.lookup_eq (h : d.LeadsTo path p n) (hroot : path.root ≠ "")
    (he : d.Stands (p ++ [n]) e) : d.lookup path = .ok e := by
  have hstep : d.walk p [n] = .ok (p ++ [n]) := by
    refine walk_cons_eq_ok.mpr ⟨h.stands.entry, Or.inr ⟨h.size_le, ?_⟩, ?_⟩
    · rw [he.entry, Option.isSome_some]
    · rw [next, if_neg h.ne_above]
      rfl
  have hwalk : d.walk [] path.names = .ok (p ++ [n]) := by
    rw [h.names_eq]
    exact walk_append.mpr ⟨p, h.walk, hstep⟩
  simp only [lookup, start, if_neg hroot, hwalk, bind, Except.bind, he.entry]
  rfl

/-! ## Directories that are made -/

theorem makeDirectory_eq_ok (hroot : path.root ≠ "") : d.makeDirectory path = .ok d' ↔
    ∃ p n, d.LeadsTo path p n ∧ d.get? (p ++ [n]) = none ∧ d' = d.put (p ++ [n]) .directory := by
  rw [makeDirectory]
  constructor
  · intro h
    split at h
    · exact nomatch h
    · exact nomatch h
    · rename_i q hq
      obtain ⟨p, n, hp, rfl⟩ := (placeFor_eq_ok hroot).mp hq
      split at h
      · exact nomatch h
      · rename_i hfree
        exact ⟨p, n, hp, by simpa using hfree, (Except.ok.inj h).symm⟩
  · rintro ⟨p, n, hp, hfree, rfl⟩
    simp only [(placeFor_eq_ok hroot).mpr ⟨p, n, hp, rfl⟩, hfree, Option.isSome_none,
      Bool.false_eq_true, if_false]

theorem makeDirectory_kept (hroot : path.root ≠ "") (h : d.makeDirectory path = .ok d') :
    d.Kept d' := by
  obtain ⟨p, n, -, hfree, rfl⟩ := (makeDirectory_eq_ok hroot).mp h
  exact kept_put concat_ne_nil hfree

/-- Making a directory and those that hold it keeps all that stands on the disk, also when it
cannot be made. -/
theorem makeDirectories_kept (d : Disk) (fuel : Nat) (hroot : path.root ≠ "") :
    d.Kept (makeDirectories fuel d path).1 := by
  induction fuel generalizing path with
  | zero =>
    rw [makeDirectories]
    split
    · rename_i hmade
      exact makeDirectory_kept hroot hmade
    · split <;> exact Kept.refl d
  | succ fuel ih =>
    rw [makeDirectories]
    split
    · rename_i hmade
      exact makeDirectory_kept hroot hmade
    · split
      · have hparent : d.Kept (makeDirectories fuel d path.parent).1 := @ih path.parent hroot
        dsimp only
        split
        · rename_i hfault
          rwa [hfault] at hparent
        · rename_i d' hmade
          rw [hmade] at hparent
          rw [makeDirectories.makeLast]
          split
          · rename_i hlast
            exact hparent.trans (makeDirectory_kept hroot hlast)
          · exact hparent
      · exact Kept.refl d

/-! ## Files that are written -/

/-- The same stands on two disks. -/
def SameTree (d d' : Disk) : Prop := ∀ p e, d.Stands p e ↔ d'.Stands p e

theorem SameTree.refl (d : Disk) : d.SameTree d := fun _ _ => Iff.rfl

theorem SameTree.symm (h : d.SameTree d') : d'.SameTree d := fun p e => (h p e).symm

theorem SameTree.trans (h : d.SameTree d') (h' : d'.SameTree d'') : d.SameTree d'' :=
  fun p e => (h p e).trans (h' p e)

theorem SameTree.kept (h : d.SameTree d') : d.Kept d' := fun p e => (h p e).mp

/-- A file stands at a place, and everywhere else the same as before. -/
def Puts (d d' : Disk) (p : Place) (content : ByteArray) : Prop :=
  ∀ q e, d'.Stands q e ↔ if q = p then e = .file content else d.Stands q e

/-- A file was written to a place where no directory stood, and all else that stood somewhere
still stands there. -/
structure Wrote (d d' : Disk) (p : Place) (content : ByteArray) : Prop where
  stands : d'.Stands p (.file content)
  kept : ∀ q e, q ≠ p → d.Stands q e → d'.Stands q e
  not_directory : ¬ d.Stands p .directory

variable {content : ByteArray}

theorem Puts.stands (h : d.Puts d' p content) : d'.Stands p (.file content) :=
  (h p _).mpr (by rw [if_pos rfl])

theorem Puts.stands_iff (h : d.Puts d' p content) (hq : q ≠ p) : d'.Stands q e ↔ d.Stands q e := by
  rw [h q e, if_neg hq]

theorem Puts.wrote (h : d.Puts d' p content) (hnot : ¬ d.Stands p .directory) :
    d.Wrote d' p content :=
  ⟨h.stands, fun _ _ hq => (h.stands_iff hq).mpr, hnot⟩

/-- Two disks have the same tree if they differ only in what cannot be reached on the first. -/
theorem sameTree_of_get? (hback : ∀ q e, d'.get? q = some e → d.get? q = some e)
    (hforth : ∀ q e, d.Stands q e → d'.get? q = some e) : d.SameTree d' := by
  intro q e
  constructor
  · intro h
    exact ⟨hforth q e h, fun r hr hne => hforth r .directory (h.of_prefix hr hne)⟩
  · intro h
    exact ⟨hback q e h.entry, fun r hr hne => hback r .directory (h.reached r hr hne)⟩

/-- A file is put in a directory, in a place of no directory, if nothing else changes that can be
reached. -/
theorem puts_of_get? (hp : d.Stands p .directory) (hnot : d.get? (p ++ [n]) ≠ some .directory)
    (hfile : d'.get? (p ++ [n]) = some (.file content))
    (hback : ∀ q e, q ≠ p ++ [n] → d'.get? q = some e → d.get? q = some e)
    (hforth : ∀ q e, q ≠ p ++ [n] → d.Stands q e → d'.get? q = some e) :
    d.Puts d' (p ++ [n]) content := by
  intro q e
  split
  · rename_i hq
    subst hq
    constructor
    · intro h
      exact Option.some.inj (h.entry.symm.trans hfile)
    · rintro rfl
      refine ⟨hfile, fun r hr hne => ?_⟩
      have hrp : r <+: p := (List.prefix_concat_iff.mp hr).resolve_left hne
      by_cases heq : r = p
      · exact hforth r .directory hne (heq ▸ hp)
      · exact hforth r .directory hne (hp.of_prefix hrp heq)
  · rename_i hq
    constructor
    · intro h
      refine ⟨hback q e hq h.entry, fun r hr hne => ?_⟩
      have hdirectory := h.reached r hr hne
      refine hback r .directory ?_ hdirectory
      rintro rfl
      exact nomatch hdirectory.symm.trans hfile
    · intro h
      refine ⟨hforth q e hq h, fun r hr hne => hforth r .directory ?_ (h.of_prefix hr hne)⟩
      rintro rfl
      exact hnot (h.reached _ hr hne)

theorem Wrote.directories (h : d.Wrote d' p content) : d.DirectoriesKept d' := by
  intro q hq
  refine h.kept q .directory ?_ hq
  rintro rfl
  exact h.not_directory hq

theorem Kept.wrote (hk : d.Kept d') (h : d'.Wrote d'' p content) : d.Wrote d'' p content where
  stands := h.stands
  kept q e hne hq := h.kept q e hne (hk q e hq)
  not_directory hp := h.not_directory (hk p .directory hp)

theorem writeFile_eq_ok (hroot : path.root ≠ "") : d.writeFile path content = .ok d' ↔
    ∃ p n, d.LeadsTo path p n ∧ d.get? (p ++ [n]) ≠ some .directory ∧
      d' = d.put (p ++ [n]) (.file content) := by
  rw [writeFile]
  constructor
  · intro h
    split at h
    · exact nomatch h
    · exact nomatch h
    · exact nomatch h
    · rename_i q hq
      obtain ⟨p, n, hp, rfl⟩ := (placeFor_eq_ok hroot).mp hq
      split at h
      · exact nomatch h
      · rename_i hnot
        exact ⟨p, n, hp, fun hd => hnot (isDirectoryAt_iff.mpr hd), (Except.ok.inj h).symm⟩
  · rintro ⟨p, n, hp, hnot, rfl⟩
    have hnot : ¬ d.isDirectoryAt (p ++ [n]) = true := fun hd => hnot (isDirectoryAt_iff.mp hd)
    simp only [(placeFor_eq_ok hroot).mpr ⟨p, n, hp, rfl⟩, hnot, Bool.false_eq_true, if_false]

end Disk

end EntityForge
