import EntityForge.Proofs.Identifier
import EntityForge.Proofs.Linking
import EntityForge.Proofs.Split
import EntityForge.Source.Keyword
import Mathlib.Data.List.TakeWhile

/-!
# Well-formed import lines

An import line that can be read takes identifiers from a module, which is found by a dotted path of
identifiers, by dots, or by both. A written line has one such reading at most: neither a path nor an
identifier has a blank in it, so that the line can be cut in one way only. Hence it can be read
exactly if the module it is written for is such a path and every name for it is an identifier, or
several with commas between them.
-/

namespace EntityForge.Source

open Text

variable {cs ds : List Char}

/-! ## Identifiers and paths -/

/-- An identifier and nothing else. -/
def isProper (cs : List Char) : Bool := isName cs && !keywords.contains (String.ofList cs)

/-- Identifiers with dots between them. -/
def isDottedPath (cs : List Char) : Bool := (splitOn '.' cs).all isProper

/-- A dotted path, which any number of dots may stand in front of, or nothing but dots. -/
def isModulePath (cs : List Char) : Bool :=
  let path := cs.dropWhile (· = '.')
  if path.isEmpty then !cs.isEmpty else isDottedPath path

/-- An identifier behind a blank. -/
def isNextName : List Char → Bool
  | ' ' :: name => isProper name
  | _ => false

/-- Identifiers with a comma and a blank between any two. -/
def isNameList (cs : List Char) : Bool := (splitOn ',' (' ' :: cs)).all isNextName

theorem isNameChar_of_isProper (h : isProper cs = true) {c : Char} (hc : c ∈ cs) :
    isNameChar c = true :=
  isNameChar_of_isName (Bool.and_eq_true_iff.mp h).1 hc

theorem not_mem_of_isProper (h : isProper cs = true) {c : Char} (hc : isNameChar c = false) :
    c ∉ cs := fun hmem => Bool.false_ne_true (hc.symm.trans (isNameChar_of_isProper h hmem))

/-- Without a dot in it, a dotted path is an identifier. -/
theorem isDottedPath_of_no_dot (h : '.' ∉ cs) : isDottedPath cs = isProper cs := by
  rw [isDottedPath, splitOn_of_not_mem h, List.all_cons, List.all_nil, Bool.and_true]

theorem isDottedPath_append :
    isDottedPath (cs ++ '.' :: ds) = (isDottedPath cs && isDottedPath ds) := by
  rw [isDottedPath, splitOn_append, List.all_append, isDottedPath, isDottedPath]

/-- A dotted path begins with an identifier, not with a dot. -/
theorem isModulePath_of_isDottedPath (h : isDottedPath cs = true) : isModulePath cs = true := by
  cases cs with
  | nil => exact absurd h (by decide)
  | cons c cs =>
    have hc : c ≠ '.' := by
      rintro rfl
      rw [isDottedPath, splitOn, if_pos rfl, List.all_cons] at h
      exact absurd (Bool.and_eq_true_iff.mp h).1 (by decide)
    rw [isModulePath, List.dropWhile_cons_of_neg (by simpa using hc)]
    exact h

/-- With one dot more in front, a path is still a path, and nothing becomes one. -/
theorem isModulePath_dot_cons :
    isModulePath ('.' :: cs) = true ↔ cs = [] ∨ isModulePath cs = true := by
  rw [isModulePath, List.dropWhile_cons_of_pos (by simp)]
  cases cs with
  | nil => simp
  | cons c cs =>
    simp only [reduceCtorEq, false_or, isModulePath]
    split <;> simp

theorem isNameChar_of_isDottedPath (h : isDottedPath cs = true) {c : Char} (hc : c ∈ cs) :
    c = '.' ∨ isNameChar c = true := by
  have hpieces : c = '.' ∨ ∃ piece ∈ splitOn '.' cs, c ∈ piece := mem_splitOn hc
  rcases hpieces with rfl | ⟨piece, hpiece, hc⟩
  · exact Or.inl rfl
  · exact Or.inr (isNameChar_of_isProper (List.all_eq_true.mp h piece hpiece) hc)

/-- There is no blank in a path. -/
theorem blank_not_mem_modulePath (h : isModulePath cs = true) : ' ' ∉ cs := by
  intro hblank
  have hmem : ' ' ∈ cs.dropWhile (· = '.') := by
    rw [← List.takeWhile_append_dropWhile (p := fun c : Char => decide (c = '.')) (l := cs),
      List.mem_append] at hblank
    refine hblank.resolve_left fun htake => ?_
    have hdot := List.mem_takeWhile_imp htake
    exact absurd hdot (by decide)
  rw [isModulePath, if_neg (by simpa using List.ne_nil_of_mem hmem)] at h
  rcases isNameChar_of_isDottedPath h hmem with hdot | hname
  · exact absurd hdot (by decide)
  · exact absurd hname (by decide)

/-! ## Lists of names -/

/-- Items that each come from something come from a list. -/
theorem exists_map_of_forall {α β : Type} {f : α → β} {P : α → Prop} {items : List β}
    (h : ∀ b ∈ items, ∃ a, f a = b ∧ P a) : ∃ as : List α, as.map f = items ∧ ∀ a ∈ as, P a := by
  induction items with
  | nil => exact ⟨[], rfl, List.forall_mem_nil _⟩
  | cons b items ih =>
    obtain ⟨⟨a, rfl, ha⟩, hitems⟩ := List.forall_mem_cons.mp h
    obtain ⟨as, rfl, has⟩ := ih hitems
    exact ⟨a :: as, rfl, List.forall_mem_cons.mpr ⟨ha, has⟩⟩

theorem isNameList_of_isProper (h : isProper cs = true) : isNameList cs = true := by
  have hcomma : ',' ∉ ' ' :: cs := by
    simpa using not_mem_of_isProper h (c := ',') (by decide)
  rw [isNameList, splitOn_of_not_mem hcomma]
  simpa [isNextName] using h

theorem isNameList_comma :
    isNameList (cs ++ ',' :: ' ' :: ds) = (isNameList cs && isNameList ds) := by
  rw [isNameList, ← List.cons_append, splitOn_append, List.all_append, isNameList, isNameList]

/-- Names are lists of names if they are as a whole. -/
theorem isNameList_intercalate {names : List String} (hne : names ≠ []) :
    isNameList (", ".intercalate names).toList = true ↔
      ∀ n ∈ names, isNameList n.toList = true := by
  induction names with
  | nil => exact absurd rfl hne
  | cons n names ih =>
    cases names with
    | nil => simp
    | cons m names =>
      have hcons : (", ".intercalate (n :: m :: names)).toList =
          n.toList ++ ',' :: ' ' :: (", ".intercalate (m :: names)).toList := by
        rw [String.intercalate_cons_cons, String.toList_append, String.toList_append,
          List.append_assoc]
        rfl
      rw [hcons, isNameList_comma, Bool.and_eq_true, ih (List.cons_ne_nil _ _)]
      exact (List.forall_mem_cons (p := fun n : String => isNameList n.toList = true)).symm

theorem isNextName_iff :
    isNextName cs = true ↔ ∃ name, cs = ' ' :: name ∧ isProper name = true := by
  constructor
  · intro h
    unfold isNextName at h
    split at h
    · exact ⟨_, rfl, h⟩
    · exact absurd h Bool.false_ne_true
  · rintro ⟨name, rfl, h⟩
    exact h

/-- A blank in front of every piece is one in front of all and one behind every comma. -/
theorem intercalate_blank (name : List Char) (names : List (List Char)) :
    [','].intercalate ((name :: names).map (' ' :: ·)) =
      ' ' :: ", ".toList.intercalate (name :: names) := by
  induction names generalizing name with
  | nil => simp
  | cons next names ih =>
    rw [List.map_cons, List.map_cons, List.intercalate_cons_cons, ← List.map_cons, ih,
      List.intercalate_cons_cons]
    simp only [List.cons_append, List.append_assoc]
    rfl

/-- A list of names is made of identifiers. -/
theorem isNameList_iff {s : String} : isNameList s.toList = true ↔
    ∃ names, names ≠ [] ∧ s = ", ".intercalate names ∧
      ∀ n ∈ names, isProper n.toList = true := by
  constructor
  · intro h
    have hpieces : ∀ piece ∈ splitOn ',' (' ' :: s.toList), ∃ name : String,
        ' ' :: name.toList = piece ∧ isProper name.toList = true := by
      intro piece hpiece
      obtain ⟨name, rfl, hname⟩ := isNextName_iff.mp (List.all_eq_true.mp h piece hpiece)
      exact ⟨.ofList name, by rw [String.toList_ofList], by rwa [String.toList_ofList]⟩
    obtain ⟨names, hnames, hproper⟩ := exists_map_of_forall hpieces
    have hwhole := intercalate_splitOn ',' (' ' :: s.toList)
    cases names with
    | nil => exact absurd hnames.symm (splitOn_ne_nil _ _)
    | cons n names =>
      refine ⟨n :: names, List.cons_ne_nil _ _, ?_, hproper⟩
      have hmap : (n :: names).map (fun name => ' ' :: name.toList) =
          (n.toList :: names.map String.toList).map (' ' :: ·) := by
        simp
      rw [← hnames, hmap, intercalate_blank] at hwhole
      rw [← String.toList_inj, String.toList_intercalate]
      exact (List.cons.inj hwhole).2.symm
  · rintro ⟨names, hne, rfl, hnames⟩
    exact (isNameList_intercalate hne).mpr fun n hn => isNameList_of_isProper (hnames n hn)

/-! ## Lines -/

/-- An import line that can be read: it takes identifiers from a module that a path leads to. -/
def WellFormed (line : String) : Prop :=
  ∃ module names, line = "from " ++ module ++ " import " ++ ", ".intercalate names ∧
    isModulePath module.toList = true ∧ names ≠ [] ∧ ∀ n ∈ names, isProper n.toList = true

/-- Two characters that do not separate stay together in one piece. -/
theorem exists_piece_of_adjacent {sep c d : Char} (hc : c ≠ sep) (hd : d ≠ sep)
    (cs ds : List Char) : ∃ piece ∈ splitOn sep (cs ++ c :: d :: ds), ∃ before behind,
      piece = before ++ c :: d :: behind := by
  induction cs with
  | nil =>
    obtain ⟨first, pieces, h⟩ := List.exists_cons_of_ne_nil (splitOn_ne_nil sep ds)
    refine ⟨c :: d :: first, ?_, [], first, rfl⟩
    rw [List.nil_append, splitOn, if_neg hc, splitOn, if_neg hd, h]
    exact List.mem_cons_self
  | cons x cs ih =>
    obtain ⟨piece, hpiece, before, behind, heq⟩ := ih
    rw [List.cons_append, splitOn]
    split
    · exact ⟨piece, List.mem_cons_of_mem _ hpiece, before, behind, heq⟩
    · obtain ⟨first, pieces, h⟩ :=
        List.exists_cons_of_ne_nil (splitOn_ne_nil sep (cs ++ c :: d :: ds))
      rw [h] at hpiece ⊢
      rcases List.mem_cons.mp hpiece with rfl | hpiece
      · exact ⟨x :: piece, List.mem_cons_self, x :: before, behind, by rw [heq]; rfl⟩
      · exact ⟨piece, List.mem_cons_of_mem _ hpiece, before, behind, heq⟩

/-- In a list of names, a blank stands behind commas only. -/
theorem not_isNameList_of_blank {c : Char} (hcomma : c ≠ ',') (hblank : c ≠ ' ') :
    isNameList (cs ++ c :: ' ' :: ds) = false := by
  rw [Bool.eq_false_iff]
  intro h
  obtain ⟨piece, hpiece, before, behind, heq⟩ :=
    exists_piece_of_adjacent hcomma (d := ' ') (by decide) (' ' :: cs) ds
  obtain ⟨name, hname, hproper⟩ := isNextName_iff.mp (List.all_eq_true.mp h piece hpiece)
  have hmem : ' ' ∉ name := not_mem_of_isProper hproper (by decide)
  -- The piece begins with a blank, and then has another one in the name.
  rw [heq] at hname
  cases before with
  | nil => exact hblank (List.cons.inj hname).1
  | cons b before => exact hmem ((List.cons.inj hname).2 ▸ by simp)

/-- A line can be cut between a path and names in one way only. -/
theorem import_cut {path path' names names' : List Char} (hpath : ' ' ∉ path')
    (hnames : isNameList names' = true)
    (h : path ++ " import ".toList ++ names = path' ++ " import ".toList ++ names') :
    path = path' ∧ names = names' := by
  have hword : ' ' ∉ "import".toList := by decide
  have hcut : path ++ ' ' :: ("import".toList ++ ' ' :: names) =
      path' ++ ' ' :: ("import".toList ++ ' ' :: names') := by
    simpa using h
  by_cases heq : path = path'
  · subst heq
    exact ⟨rfl, by simpa using h⟩
  · exfalso
    rcases (append_separator_eq_iff heq).mp hcut with ⟨word, hword', -⟩ | ⟨word, rfl, hrest⟩
    · exact hpath (hword' ▸ by simp)
    · -- The path goes on behind the word, which leaves the word among the names.
      have hbefore : ∃ before, names' = before ++ 't' :: ' ' :: names := by
        by_cases hw : "import".toList = word
        · subst hw
          have hn := List.append_cancel_left hrest
          exact ⟨"impor".toList, (List.cons.inj hn).2⟩
        · rcases (append_separator_eq_iff hw).mp hrest with ⟨more, -, hmore⟩ | ⟨more, hmore, -⟩
          · exact ⟨more ++ " impor".toList, by rw [hmore]; simp⟩
          · exact absurd (hmore ▸ by simp) hword
      obtain ⟨before, rfl⟩ := hbefore
      rw [not_isNameList_of_blank (by decide) (by decide)] at hnames
      exact Bool.false_ne_true hnames

/-- A registration that can be written as an import line. -/
def Fits (r : Registration) : Prop :=
  isModulePath r.1.toList = true ∧ r.2 ≠ [] ∧ ∀ n ∈ r.2, isNameList n.toList = true

instance : DecidablePred Fits := fun r =>
  inferInstanceAs (Decidable (_ ∧ r.2 ≠ [] ∧ ∀ n ∈ r.2, isNameList n.toList = true))

/-- A line can be read exactly if it is written for a path and for names. -/
theorem wellFormed_line {r : Registration} (hne : r.2 ≠ []) :
    WellFormed (ImportTable.line r) ↔ Fits r := by
  have hline : ImportTable.line r =
      "from " ++ (r.1 ++ " import " ++ ", ".intercalate r.2) := by
    rw [ImportTable.line, if_neg (by simpa using hne)]
    simp only [String.append_assoc]
  constructor
  · rintro ⟨module, names, heq, hmodule, hnames, hproper⟩
    have hlist := isNameList_iff.mpr ⟨names, hnames, rfl, hproper⟩
    have hrest : r.1 ++ " import " ++ ", ".intercalate r.2 =
        module ++ " import " ++ ", ".intercalate names := by
      rw [hline] at heq
      simp only [String.append_assoc] at heq ⊢
      exact (String.append_right_inj _).mp heq
    have hchars := congrArg String.toList hrest
    simp only [String.toList_append] at hchars
    obtain ⟨hpath, hafter⟩ := import_cut (blank_not_mem_modulePath hmodule) hlist hchars
    refine ⟨hpath ▸ hmodule, hne, (isNameList_intercalate hne).mp ?_⟩
    rw [hafter]
    exact hlist
  · rintro ⟨hmodule, -, hnames⟩
    obtain ⟨names, hnne, heq, hproper⟩ :=
      isNameList_iff.mp ((isNameList_intercalate hne).mpr hnames)
    refine ⟨r.1, names, ?_, hmodule, hnne, hproper⟩
    rw [hline, ← heq]
    simp only [String.append_assoc]

/-! ## Blocks -/

theorem insertName_ne_nil (name : String) (names : List String) : insertName name names ≠ [] :=
  List.ne_nil_of_mem (mem_insertName.mpr (Or.inl rfl))

theorem foldr_insertName_ne_nil {added : List String} (h : added ≠ []) (names : List String) :
    added.foldr insertName names ≠ [] := by
  obtain ⟨name, added, rfl⟩ := List.exists_cons_of_ne_nil h
  exact insertName_ne_nil _ _

namespace ImportTable

/-- With names from every module that is registered, a table holds no module without names. -/
theorem names_ne_nil_insertEntry {module : String} {names : List String}
    {entries : List Registration} (hn : names ≠ []) (h : ∀ r ∈ entries, r.2 ≠ []) :
    ∀ r ∈ insertEntry module names entries, r.2 ≠ [] := by
  induction entries with
  | nil => exact List.forall_mem_singleton.mpr (foldr_insertName_ne_nil hn [])
  | cons r entries ih =>
    obtain ⟨hr, hentries⟩ := List.forall_mem_cons.mp h
    simp only [insertEntry]
    split
    · exact List.forall_mem_cons.mpr ⟨foldr_insertName_ne_nil hn [], h⟩
    · split
      · exact List.forall_mem_cons.mpr ⟨foldr_insertName_ne_nil hn _, hentries⟩
      · exact List.forall_mem_cons.mpr ⟨hr, ih hentries⟩

theorem names_ne_nil_registerAll {rs : List Registration} {t : ImportTable}
    (hrs : ∀ r ∈ rs, r.2 ≠ []) (ht : ∀ r ∈ t.entries, r.2 ≠ []) :
    ∀ r ∈ (t.registerAll rs).entries, r.2 ≠ [] := by
  induction rs generalizing t with
  | nil => exact ht
  | cons r rs ih =>
    obtain ⟨hr, hrs⟩ := List.forall_mem_cons.mp hrs
    exact ih hrs (names_ne_nil_insertEntry hr ht)

/-- All lines of a block can be read exactly if all registrations can be written as one. -/
theorem wellFormed_block {rs : List Registration} (hne : ∀ r ∈ rs, r.2 ≠ []) :
    (∀ l ∈ (ofRegistrations rs).block, WellFormed l) ↔ ∀ r ∈ rs, Fits r := by
  have hentries : ∀ q ∈ (ofRegistrations rs).written, q.2 ≠ [] := fun q hq =>
    names_ne_nil_registerAll hne (List.forall_mem_nil _) q (mem_written.mp hq)
  have hblock : (∀ l ∈ (ofRegistrations rs).block, WellFormed l) ↔
      ∀ q ∈ (ofRegistrations rs).written, Fits q := by
    rw [block, List.forall_mem_map]
    exact forall₂_congr fun q hq => wellFormed_line (hentries q hq)
  rw [hblock]
  constructor
  · -- Every name of a registration stands in the entry of its module.
    intro h r hr
    have hentry {n : String} (hn : n ∈ r.2) : ∃ q ∈ (ofRegistrations rs).written,
        q.1 = r.1 ∧ n ∈ q.2 := by
      obtain ⟨q, hq, ht⟩ := takes_ofRegistrations.mpr ⟨r, hr, rfl, hn⟩
      exact ⟨q, mem_written.mpr hq, ht⟩
    obtain ⟨n, hn⟩ := List.exists_mem_of_ne_nil _ (hne r hr)
    obtain ⟨q, hq, hmodule, -⟩ := hentry hn
    refine ⟨hmodule ▸ (h q hq).1, hne r hr, fun n hn => ?_⟩
    obtain ⟨q, hq, -, hn⟩ := hentry hn
    exact (h q hq).2.2 n hn
  · -- Every name of an entry was registered for its module.
    intro h q hq
    have hregistered {n : String} (hn : n ∈ q.2) : ∃ r ∈ rs, r.1 = q.1 ∧ n ∈ r.2 :=
      takes_ofRegistrations.mp ⟨q, mem_written.mp hq, rfl, hn⟩
    obtain ⟨n, hn⟩ := List.exists_mem_of_ne_nil _ (hentries q hq)
    obtain ⟨r, hr, hmodule, -⟩ := hregistered hn
    refine ⟨hmodule ▸ (h r hr).1, hentries q hq, fun n hn => ?_⟩
    obtain ⟨r, hr, -, hn⟩ := hregistered hn
    exact (h r hr).2.2 n hn

end ImportTable

end EntityForge.Source
