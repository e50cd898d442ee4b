import EntityForge.Proofs.ImportLine

/-!
# Names and paths in import lines

The names in import lines are made from others, with something in front or behind, and so are the
paths. An identifier goes on as one, keywords aside, and the additions leave no keyword: some have a
capital, which keywords only begin with, some an underscore, which keywords never have, and some
begin as no keyword does.
-/

namespace EntityForge.Source

open Text

variable {cs : List Char} {s : String}

/-! ## Names made from names -/

/-- What a name can go on with: it has a capital, which keywords only begin with. -/
def Ending (s : String) : Prop := Spelled s ∧ ∃ c ∈ s.toList, c.isUpper = true

instance : DecidablePred Ending := fun s =>
  decidable_of_iff (Spelled s ∧ s.toList.any Char.isUpper = true)
    (and_congr_right fun _ => List.any_eq_true)

/-- What can stand in front of a name: it begins as no keyword does. -/
def Beginning (s : String) : Prop :=
  isName s.toList = true ∧ ∀ k ∈ keywords, k.toList.head? ≠ s.toList.head?

instance : DecidablePred Beginning := fun s =>
  inferInstanceAs (Decidable (isName s.toList = true ∧ ∀ k ∈ keywords, _ ≠ _))

/-- Behind its first letter a keyword has no capital. -/
theorem any_isUpper_tail_keyword : ∀ k ∈ keywords, k.toList.tail.any Char.isUpper = false := by
  decide

/-- With a capital further on, an identifier goes on as an identifier. -/
theorem isProper_append (h : isProper cs = true) (hs : Ending s) :
    isProper (cs ++ s.toList) = true := by
  obtain ⟨hs, hcapital⟩ := hs
  have hname := (Bool.and_eq_true_iff.mp h).1
  rw [isProper, isName_append hname hs, Bool.true_and, Bool.not_eq_true', Bool.eq_false_iff]
  intro hkeyword
  cases cs with
  | nil => exact absurd hname (by decide)
  | cons c cs =>
    obtain ⟨d, hd, hupper⟩ := hcapital
    have htail : d ∈ (String.ofList (c :: cs ++ s.toList)).toList.tail := by
      rw [String.toList_ofList, List.cons_append, List.tail_cons]
      exact List.mem_append_right _ hd
    have hlower := any_isUpper_tail_keyword _ (List.contains_iff_mem.mp hkeyword)
    exact List.any_eq_false.mp hlower d htail hupper

/-- In front of an identifier, a name that begins as no keyword does makes another. -/
theorem isProper_prepend (h : isProper cs = true) (hs : Beginning s) :
    isProper (s.toList ++ cs) = true := by
  obtain ⟨hs, hhead⟩ := hs
  have hname := isName_append hs fun c hc => isNameChar_of_isProper h hc
  rw [isProper, hname, Bool.true_and, Bool.not_eq_true', Bool.eq_false_iff]
  intro hkeyword
  refine hhead _ (List.contains_iff_mem.mp hkeyword) ?_
  rw [String.toList_ofList]
  cases hchars : s.toList with
  | nil => exact absurd (hchars ▸ hs) (by decide)
  | cons c front => rfl

/-- The first piece of a list of names is an identifier, and every other one behind its blank. -/
theorem isNameList_of_pieces {first : List Char} {pieces : List (List Char)}
    (h : splitOn ',' cs = first :: pieces) :
    isNameList cs = (isProper first && pieces.all isNextName) := by
  rw [isNameList, splitOn, if_neg (by decide), h]
  rfl

/-- What goes in front of a text without a separator goes in front of its first piece. -/
theorem splitOn_prepend {sep : Char} {front first : List Char} {pieces : List (List Char)}
    (hfront : sep ∉ front) (h : splitOn sep cs = first :: pieces) :
    splitOn sep (front ++ cs) = (front ++ first) :: pieces := by
  induction front with
  | nil => exact h
  | cons c front ih =>
    rw [List.mem_cons, not_or] at hfront
    rw [List.cons_append, splitOn, if_neg (Ne.symm hfront.1), ih hfront.2]
    rfl

/-- What goes behind a text without a separator goes behind its last piece. -/
theorem splitOn_behind {sep : Char} {behind : List Char} (hbehind : sep ∉ behind) (cs : List Char) :
    ∃ pieces last, splitOn sep cs = pieces ++ [last] ∧
      splitOn sep (cs ++ behind) = pieces ++ [last ++ behind] := by
  induction cs with
  | nil => exact ⟨[], [], rfl, splitOn_of_not_mem hbehind⟩
  | cons c cs ih =>
    obtain ⟨pieces, last, hpieces, hbehind⟩ := ih
    rw [List.cons_append, splitOn, splitOn]
    split
    · exact ⟨[] :: pieces, last, by rw [hpieces]; rfl, by rw [hbehind]; rfl⟩
    · rw [hpieces, hbehind]
      cases pieces with
      | nil => exact ⟨[], c :: last, rfl, rfl⟩
      | cons piece pieces => exact ⟨(c :: piece) :: pieces, last, rfl, rfl⟩

theorem comma_not_mem {s : String} (h : Spelled s) : ',' ∉ s.toList := fun hc =>
  absurd (h ',' hc) (by decide)

/-- Behind its last name a list of names goes on as one. -/
theorem isNameList_append {names : String} (h : isNameList names.toList = true) (hs : Ending s) :
    isNameList (names ++ s).toList = true := by
  obtain ⟨pieces, last, hpieces, hbehind⟩ :=
    splitOn_behind (comma_not_mem hs.1) (' ' :: names.toList)
  rw [isNameList, hpieces, List.all_append, Bool.and_eq_true] at h
  rw [String.toList_append, isNameList, ← List.cons_append, hbehind, List.all_append, h.1,
    Bool.true_and]
  have hlast : isNextName last = true := by simpa using h.2
  obtain ⟨name, rfl, hname⟩ := isNextName_iff.mp hlast
  simpa [isNextName] using isProper_append hname hs

/-- In front of its first name a list of names can go on as one. -/
theorem isNameList_prepend {names : String} (h : isNameList names.toList = true)
    (hs : Beginning s) : isNameList (s ++ names).toList = true := by
  obtain ⟨first, pieces, hpieces⟩ := List.exists_cons_of_ne_nil (splitOn_ne_nil ',' names.toList)
  rw [isNameList_of_pieces hpieces, Bool.and_eq_true] at h
  have hcomma := comma_not_mem (spelled_of_isName hs.1)
  rw [String.toList_append, isNameList_of_pieces (splitOn_prepend hcomma hpieces), h.2,
    isProper_prepend h.1 hs, Bool.and_self]

/-- Without a comma, a list of names is a single one. -/
theorem isNameList_of_no_comma (h : ',' ∉ cs) : isNameList cs = isProper cs := by
  rw [isNameList_of_pieces (splitOn_of_not_mem h), List.all_nil, Bool.and_true]

/-- There is no dot in a list of names. -/
theorem dot_not_mem_nameList (h : isNameList cs = true) : '.' ∉ cs := by
  intro hdot
  have hpieces : '.' = ',' ∨ ∃ piece ∈ splitOn ',' (' ' :: cs), '.' ∈ piece :=
    mem_splitOn (List.mem_cons_of_mem _ hdot)
  obtain ⟨piece, hpiece, hdot⟩ := hpieces.resolve_left (by decide)
  obtain ⟨name, rfl, hname⟩ := isNextName_iff.mp (List.all_eq_true.mp h piece hpiece)
  have hmem : '.' ∈ name := (List.mem_cons.mp hdot).resolve_left (by decide)
  exact not_mem_of_isProper hname (by decide) hmem

/-- No keyword has an underscore, so that a name with one is an identifier. -/
theorem isProper_of_underscore (h : isName cs = true) (hmem : '_' ∈ cs) : isProper cs = true := by
  have hkeywords : ∀ k ∈ keywords, '_' ∉ k.toList := by decide
  rw [isProper, h, Bool.true_and, Bool.not_eq_true', Bool.eq_false_iff]
  intro hkeyword
  refine hkeywords _ (List.contains_iff_mem.mp hkeyword) ?_
  rwa [String.toList_ofList]

/-! ## Paths -/

theorem fits_one {path name : String} : Fits (path, [name]) ↔
    isModulePath path.toList = true ∧ isNameList name.toList = true := by
  simp [Fits]

/-- What a path names can be imported: it needs no import, or its module is found by a path. -/
def PathFits (path : String) : Prop :=
  (splitPath path).1 = "" ∨
    isModulePath (splitPath path).1.toList = true ∧ isNameList (splitPath path).2.toList = true

instance : DecidablePred PathFits := fun _ => inferInstanceAs (Decidable (_ ∨ _ ∧ _))

theorem fits_pathRegistrations {path : String} :
    (∀ r ∈ pathRegistrations path, Fits r) ↔ PathFits path := by
  simp only [pathRegistrations, PathFits]
  by_cases h : (splitPath path).1 = ""
  · simp [h]
  · rw [if_neg (by simpa using h), List.forall_mem_singleton, fits_one, or_iff_right h]

theorem names_ne_nil_pathRegistrations {path : String} :
    ∀ r ∈ pathRegistrations path, r.2 ≠ [] := by
  simp only [pathRegistrations]
  split
  · exact List.forall_mem_nil _
  · exact List.forall_mem_singleton.mpr (List.cons_ne_nil _ _)

/-- Two dots lead to the package of another entity if its name is an identifier, or is missing,
which leaves nothing but dots. -/
theorem isModulePath_related {package : String} (hp : Spelled package) :
    isModulePath (".." ++ package ++ ".entity").toList = true ↔
      package = "" ∨ isProper package.toList = true := by
  have hdots : (".." ++ package ++ ".entity").toList =
      '.' :: '.' :: (package.toList ++ '.' :: "entity".toList) := by
    simp
  have hne : package.toList ++ '.' :: "entity".toList ≠ [] := by simp
  rw [hdots, isModulePath_dot_cons, isModulePath_dot_cons, or_iff_right (List.cons_ne_nil _ _),
    or_iff_right hne]
  by_cases hpackage : package = ""
  · subst hpackage
    exact iff_of_true (by decide) (Or.inl rfl)
  · rw [or_iff_right hpackage]
    have hdot : '.' ∉ package.toList := fun hdot => absurd (hp '.' hdot) (by decide)
    have hdrop : (package.toList ++ '.' :: "entity".toList).dropWhile (· = '.') =
        package.toList ++ '.' :: "entity".toList := by
      cases hchars : package.toList with
      | nil => exact absurd (String.toList_eq_nil_iff.mp hchars) hpackage
      | cons c cs =>
        have hc : c ≠ '.' := fun hc => hdot (by rw [hchars, hc]; exact List.mem_cons_self)
        rw [List.cons_append, List.dropWhile_cons_of_neg (by simpa using hc)]
    have hentity : isDottedPath "entity".toList = true := by decide
    rw [isModulePath, hdrop, if_neg (by simp), isDottedPath_append, hentity, Bool.and_true,
      isDottedPath_of_no_dot hdot]

end EntityForge.Source
