import EntityForge.Proofs.Strictness
import EntityForge.Proofs.Wrapping

/-!
# Field types whose brackets are not nested

The reader of field types counts brackets: it refuses a text in which one kind is not closed as
often as it is opened, and does not ask where they stand. Nested brackets are balanced, but not the
other way round. So a text whose brackets are not nested is refused for them only if their numbers
differ; any other is taken apart like a good one, and is refused only if nothing is left of it once
its wrappers are taken off. What is left otherwise is kept as the name of a custom type.
-/

namespace EntityForge

/-! ## What trimming takes away -/

namespace Text

variable {cs : List Char}

theorem any_isBlank_head?_dropWhile (cs : List Char) :
    (cs.dropWhile isBlank).head?.any isBlank = false := by
  have h := List.head?_dropWhile_not isBlank cs
  cases hhead : (cs.dropWhile isBlank).head? with
  | none => rfl
  | some c =>
    rw [hhead] at h
    exact h

theorem isAllBlank_takeWhile (cs : List Char) : isAllBlank (cs.takeWhile isBlank) = true :=
  List.all_eq_true.mpr fun _ hc => List.mem_takeWhile_imp hc

/-- What stands in front of a text that was trimmed on its right. -/
theorem trimRight_append (cs : List Char) :
    ∃ after, trimRight cs ++ after = cs ∧ isAllBlank after = true := by
  refine ⟨(cs.reverse.takeWhile isBlank).reverse, ?_, ?_⟩
  · rw [trimRight, ← List.reverse_append, List.takeWhile_append_dropWhile, List.reverse_reverse]
  · rw [isAllBlank, List.all_reverse]
    exact isAllBlank_takeWhile cs.reverse

/-- Trimming takes blanks away, and nothing else. -/
theorem exists_trim (cs : List Char) : ∃ before after, before ++ (trim cs ++ after) = cs ∧
    isAllBlank before = true ∧ isAllBlank after = true := by
  obtain ⟨after, hafter, hblank⟩ := trimRight_append (trimLeft cs)
  refine ⟨cs.takeWhile isBlank, after, ?_, isAllBlank_takeWhile cs, hblank⟩
  rw [trim, hafter, trimLeft, List.takeWhile_append_dropWhile]

theorem tight_trim (cs : List Char) : Tight (trim cs) := by
  constructor
  · obtain ⟨after, hafter, -⟩ := trimRight_append (trimLeft cs)
    have hfront : (trimLeft cs).head?.any isBlank = false := any_isBlank_head?_dropWhile cs
    rw [← hafter] at hfront
    rw [trim]
    cases htrim : trimRight (trimLeft cs) with
    | nil => rfl
    | cons c rest =>
      rw [htrim] at hfront
      exact hfront
  · rw [trim, trimRight, List.getLast?_reverse]
    exact any_isBlank_head?_dropWhile _

theorem isAllBlank_iff : isAllBlank cs = true ↔ trim cs = [] := by
  obtain ⟨before, after, hcs, hbefore, hafter⟩ := exists_trim cs
  constructor
  · intro h
    have hblank : ∀ c ∈ trim cs, isBlank c = true := by
      intro c hc
      refine List.all_eq_true.mp h c ?_
      rw [← hcs]
      simp [hc]
    have hfront := (tight_trim cs).front
    cases htrim : trim cs with
    | nil => rfl
    | cons c rest =>
      rw [htrim] at hfront hblank
      exact absurd (hblank c List.mem_cons_self) (by simpa using hfront)
  · intro h
    rw [← hcs, h]
    simp only [isAllBlank, List.nil_append, List.all_append, Bool.and_eq_true]
    exact ⟨hbefore, hafter⟩

/-- Something is left of the front of a text that does not begin with a blank. -/
theorem Tight.trim_ne_nil {rest : List Char} (h : Tight (cs ++ rest)) (hne : cs ≠ []) :
    trim cs ≠ [] := by
  intro hnil
  have hblank : isAllBlank cs = true := isAllBlank_iff.mpr hnil
  obtain ⟨c, tail, rfl⟩ := List.exists_cons_of_ne_nil hne
  have hc : isBlank c = false := h.front
  rw [isAllBlank, List.all_cons, hc] at hblank
  exact Bool.noConfusion hblank

theorem count_trim {c : Char} (hc : isBlank c = false) : (trim cs).count c = cs.count c := by
  have hnone : ∀ blanks, isAllBlank blanks = true → blanks.count c = 0 := by
    intro blanks hblanks
    refine List.count_eq_zero_of_not_mem fun hmem => ?_
    exact Bool.false_ne_true (hc.symm.trans (List.all_eq_true.mp hblanks c hmem))
  obtain ⟨before, after, hcs, hbefore, hafter⟩ := exists_trim cs
  conv_rhs => rw [← hcs]
  rw [List.count_append, List.count_append, hnone before hbefore, hnone after hafter]
  omega

end Text

namespace FieldType

open Text

/-! ## Nested brackets -/

section Nesting

variable {b : Bracket} {stack : List Bracket} {c : Char} {cs rest : List Char}

/-- Brackets of both kinds are nested and matched, whatever other characters there are. -/
inductive Nested : List Char → Prop
  | nil : Nested []
  | plain {c : Char} {cs : List Char} (hc : isBracket c = false) (hcs : Nested cs) :
      Nested (c :: cs)
  | enclose (b : Bracket) {cs rest : List Char} (hcs : Nested cs) (hrest : Nested rest) :
      Nested (b.enclose cs ++ rest)

/-- The kind of bracket that a character opens. -/
def Bracket.opened? (c : Char) : Option Bracket :=
  if c = '<' then some .angle else if c = '[' then some .square else none

/-- The open brackets behind a character, the innermost first, unless it closes another one than the
innermost. -/
def step (stack : List Bracket) (c : Char) : Option (List Bracket) :=
  match Bracket.opened? c with
  | some b => some (b :: stack)
  | none =>
    if isBracket c then
      match stack with
      | [] => none
      | b :: below => if c = b.closing then some below else none
    else some stack

/-- The brackets that are open behind a text, unless one of them is closed by the wrong bracket. -/
def openBehind (stack : List Bracket) (cs : List Char) : Option (List Bracket) :=
  cs.foldlM step stack

theorem openBehind_cons :
    openBehind stack (c :: cs) = (step stack c).bind fun next => openBehind next cs :=
  List.foldlM_cons

theorem openBehind_append :
    openBehind stack (cs ++ rest) = (openBehind stack cs).bind fun next => openBehind next rest :=
  List.foldlM_append

theorem step_opening (b : Bracket) (stack : List Bracket) :
    step stack b.opening = some (b :: stack) := by
  cases b <;> rfl

theorem step_closing (b : Bracket) (stack : List Bracket) :
    step (b :: stack) b.closing = some stack := by
  cases b <;> rfl

theorem step_plain (hc : isBracket c = false) : step stack c = some stack := by
  have hne : c ≠ '<' ∧ c ≠ '>' ∧ c ≠ '[' ∧ c ≠ ']' := by simpa [isBracket] using hc
  have hopened : Bracket.opened? c = none := by simp [Bracket.opened?, hne.1, hne.2.2.1]
  simp [step, hopened, hc]

/-- What a character does to the open brackets. -/
theorem step_cases {next : List Bracket} (h : step stack c = some next) :
    (∃ b : Bracket, c = b.opening ∧ next = b :: stack) ∨
      (∃ b : Bracket, c = b.closing ∧ stack = b :: next) ∨
      isBracket c = false ∧ next = stack := by
  unfold step at h
  split at h
  · rename_i b hopened
    have hc : c = b.opening := by
      unfold Bracket.opened? at hopened
      split_ifs at hopened with hless hleft <;> cases hopened <;> assumption
    exact Or.inl ⟨b, hc, (Option.some.inj h).symm⟩
  · split at h
    · split at h
      · cases h
      · rename_i b below
        split_ifs at h with hclosing
        cases h
        exact Or.inr (Or.inl ⟨b, hclosing, rfl⟩)
    · rename_i hplain
      exact Or.inr (Or.inr ⟨(Bool.not_eq_true _).mp hplain, (Option.some.inj h).symm⟩)

theorem Nested.append (hcs : Nested cs) (hrest : Nested rest) : Nested (cs ++ rest) := by
  induction hcs with
  | nil => exact hrest
  | plain hc _ ih => exact ih.plain hc
  | enclose b hin _ _ ih =>
    rw [List.append_assoc]
    exact hin.enclose b ih

/-- Nested texts in front of the closing brackets, of which the first closes the innermost. -/
inductive Completes : List Bracket → List Char → Prop
  | nil {cs : List Char} (hcs : Nested cs) : Completes [] cs
  | cons (b : Bracket) {stack : List Bracket} {cs rest : List Char} (hcs : Nested cs)
      (hrest : Completes stack rest) : Completes (b :: stack) (cs ++ b.closing :: rest)

theorem Completes.prepend (hcs : Nested cs) (h : Completes stack rest) :
    Completes stack (cs ++ rest) := by
  cases h with
  | nil hrest => exact .nil (hcs.append hrest)
  | cons b hfront hrest =>
    rw [← List.append_assoc]
    exact .cons b (hcs.append hfront) hrest

/-- Where no bracket is left open, the open ones are closed one by one. -/
theorem Completes.of_openBehind (h : openBehind stack cs = some []) : Completes stack cs := by
  induction cs generalizing stack with
  | nil =>
    obtain rfl : stack = [] := Option.some.inj h
    exact .nil .nil
  | cons c cs ih =>
    rw [openBehind_cons] at h
    obtain ⟨next, hstep, htail⟩ := Option.bind_eq_some_iff.mp h
    have hnext : Completes next cs := ih htail
    obtain ⟨b, rfl, rfl⟩ | ⟨b, rfl, rfl⟩ | ⟨hc, rfl⟩ := step_cases hstep
    · -- The bracket opened here is closed by the first closing bracket that comes behind it.
      cases hnext with
      | cons _ hin hrest =>
        have henclosed := hrest.prepend (hin.enclose b .nil)
        simpa [Bracket.enclose] using henclosed
    · exact .cons b .nil hnext
    · exact hnext.prepend (.plain hc .nil)

/-- What is nested leaves the open brackets as they are. -/
theorem Nested.openBehind (h : Nested cs) (stack : List Bracket) :
    openBehind stack cs = some stack := by
  induction h generalizing stack with
  | nil => rfl
  | plain hc _ ih => rw [openBehind_cons, step_plain hc, Option.bind_some, ih]
  | enclose b _ _ ihin ihrest =>
    rw [Bracket.enclose, List.cons_append, openBehind_cons, step_opening, Option.bind_some,
      openBehind_append, openBehind_append, ihin, Option.bind_some, openBehind_cons, step_closing,
      Option.bind_some]
    exact ihrest stack

/-- Brackets are nested exactly when each of them closes the innermost one that is open, and none is
left open. -/
theorem nested_iff : Nested cs ↔ openBehind [] cs = some [] := by
  constructor
  · exact fun h => h.openBehind []
  · intro h
    cases Completes.of_openBehind h with
    | nil hcs => exact hcs

instance (cs : List Char) : Decidable (Nested cs) := decidable_of_iff _ nested_iff.symm

theorem Nested.balanced (h : Nested cs) : Balanced cs := by
  induction h with
  | nil => exact fun _ => rfl
  | @plain c cs hc _ ih =>
    have hfree : BracketFree [c] := by simp [BracketFree, hc]
    exact hfree.balanced.append ih
  | enclose b _ _ ihin ihrest => exact ihin.enclose.append ihrest

theorem BracketFree.nested (h : BracketFree cs) : Nested cs := by
  induction cs with
  | nil => exact .nil
  | cons c cs ih =>
    rw [BracketFree, List.any_cons, Bool.or_eq_false_iff] at h
    exact (ih h.2).plain h.1

/-- Blanks are no brackets. -/
theorem balanced_trim : Balanced (trim cs) ↔ Balanced cs := by
  refine forall_congr' fun b => ?_
  have hopening : isBlank b.opening = false := by cases b <;> rfl
  have hclosing : isBlank b.closing = false := by cases b <;> rfl
  rw [count_trim hopening, count_trim hclosing]

end Nesting

/-! ## Wrappers around nothing -/

section Hollow

variable {b : Bracket} {cs head inner name : List Char}

/-- Wrappers around nothing: a name that makes a wrapper stands in front of brackets at the end of
the text, and the text inside them is blank or again such wrappers. -/
inductive Hollow : List Char → Prop
  | nil : Hollow []
  | wrapper (n : WrapperName) (b : Bracket) {head inner : List Char} (hne : head ≠ [])
      (hhead : b.opening ∉ head) (hname : lastSegment (trim head) = n.text)
      (hinner : Hollow (trim inner)) : Hollow (head ++ b.enclose inner)

theorem insideBrackets?_eq_some {opening closing : Char}
    (h : insideBrackets? opening closing cs = some (name, inner)) :
    ∃ head body, cs = head ++ opening :: (body ++ [closing]) ∧ head ≠ [] ∧ opening ∉ head ∧
      name = trim head ∧ inner = trim body := by
  have hcs := List.takeWhile_append_dropWhile (p := fun c : Char => decide (c ≠ opening)) (l := cs)
  simp only [insideBrackets?] at h
  split at h
  · rename_i c rest hdrop
    split_ifs at h with hbrackets
    obtain ⟨hne, hlast⟩ := hbrackets
    obtain ⟨hname, hinner⟩ := Prod.mk.inj (Option.some.inj h)
    obtain rfl : c = opening := by
      have hnot := List.head?_dropWhile_not (fun c : Char => decide (c ≠ opening)) cs
      rw [hdrop] at hnot
      simpa using hnot
    have hrest : rest.dropLast ++ [closing] = rest := List.dropLast_append_getLast? closing hlast
    refine ⟨_, rest.dropLast, ?_, hne, ?_, hname.symm, hinner.symm⟩
    · rw [hrest, ← hdrop]
      exact hcs.symm
    · intro hmem
      exact absurd (List.mem_takeWhile_imp hmem) (by simp)
  · cases h

/-- Where a text has arguments, they are what its last brackets hold. -/
theorem splitArguments_eq_some (h : splitArguments cs = (name, some inner)) :
    ∃ (b : Bracket) (head body : List Char), cs = head ++ b.enclose body ∧ head ≠ [] ∧
      b.opening ∉ head ∧ name = trim head ∧ inner = trim body := by
  unfold splitArguments at h
  split at h
  · rename_i hangle
    obtain ⟨rfl, hsome⟩ := Prod.mk.inj h
    obtain rfl := Option.some.inj hsome
    exact ⟨.angle, insideBrackets?_eq_some hangle⟩
  · split at h
    · rename_i hsquare
      obtain ⟨rfl, hsome⟩ := Prod.mk.inj h
      obtain rfl := Option.some.inj hsome
      exact ⟨.square, insideBrackets?_eq_some hsquare⟩
    · cases h

theorem splitArguments_eq_none (h : splitArguments cs = (name, none)) : name = trim cs := by
  unfold splitArguments at h
  split at h
  · cases h
  · split at h
    · cases h
    · exact (Prod.mk.inj h).1.symm

theorem exists_wrapperName (h : isOptionalWrapper name = true ∨ isArrayWrapper name = true) :
    ∃ n : WrapperName, name = n.text := by
  simp only [isOptionalWrapper, isArrayWrapper, Bool.or_eq_true, decide_eq_true_eq] at h
  rcases h with (rfl | rfl) | rfl | rfl
  · exact ⟨.option, rfl⟩
  · exact ⟨.optional, rfl⟩
  · exact ⟨.vec, rfl⟩
  · exact ⟨.list, rfl⟩

/-- A wrapper is around nothing if what it holds is. -/
theorem Hollow.of_splitArguments (h : splitArguments cs = (name, some inner))
    (hname : ∃ n : WrapperName, lastSegment name = n.text) (hinner : Hollow inner) :
    Hollow cs := by
  obtain ⟨b, head, body, rfl, hne, hhead, rfl, rfl⟩ := splitArguments_eq_some h
  obtain ⟨n, hn⟩ := hname
  exact .wrapper n b hne hhead hn hinner

theorem hollow_of_base_unwrap (h : Tight cs) (hbase : (unwrap cs).base = []) : Hollow cs := by
  fun_induction unwrap cs with
  | case1 cs name inner hsplit hname _ ih =>
    obtain ⟨-, -, body, -, -, -, -, rfl⟩ := splitArguments_eq_some hsplit
    exact .of_splitArguments hsplit (exists_wrapperName (Or.inl hname))
      (ih (tight_trim body) hbase)
  | case2 => cases hbase
  | case3 cs name inner hsplit _ hname _ _ ih =>
    obtain ⟨-, -, body, -, -, -, -, rfl⟩ := splitArguments_eq_some hsplit
    exact .of_splitArguments hsplit (exists_wrapperName (Or.inr hname))
      (ih (tight_trim body) hbase)
  | case4 cs name inner hsplit =>
    obtain ⟨b, head, body, rfl, hne, -, rfl, -⟩ := splitArguments_eq_some hsplit
    exact absurd hbase (h.trim_ne_nil hne)
  | case5 cs name hsplit =>
    have hname : name = trim cs := splitArguments_eq_none hsplit
    by_cases hcs : cs = []
    · rw [hcs]
      exact .nil
    · rw [h.trim_self hcs] at hname
      exact absurd (hname.symm.trans hbase) hcs

theorem not_hollow_u8 : ¬ Hollow "u8".toList := by
  intro h
  generalize hcs : "u8".toList = cs at h
  cases h with
  | nil => cases hcs
  | wrapper n b hne =>
    -- A name and two brackets are three characters at least.
    have hlength := congrArg List.length hcs
    have hpos := List.length_pos_of_ne_nil hne
    simp only [Bracket.enclose, List.length_append, List.length_cons, List.length_nil] at hlength
    have htwo : "u8".toList.length = 2 := rfl
    omega

theorem Hollow.base_unwrap (h : Hollow cs) : (unwrap cs).base = [] := by
  induction h with
  | nil =>
    have hsplit : splitArguments [] = ([], none) := rfl
    rw [unwrap_of_no_arguments hsplit]
    rfl
  | wrapper n b hne hhead hname hinner ih =>
    rename_i head inner
    have hu8 : trim inner ≠ "u8".toList := by
      intro heq
      rw [heq] at hinner
      exact not_hollow_u8 hinner
    rw [unwrap_of_arguments (splitArguments_enclose hhead hne), hname, n.isOptionalWrapper_text,
      n.isArrayWrapper_text]
    simp only [ofSpelling?_eq_u8_iff, hu8, if_false]
    cases n.isOptional with
    | true => exact ih
    | false => exact ih

end Hollow

/-! ## What the reader refuses -/

theorem canonical?_nil : canonical? [] = none := by decide +kernel

/-- A text is refused as a field type exactly if it is blank, if a bracket of one kind is not closed
as often as it is opened, or if nothing but wrappers is in it. -/
theorem refused_iff {raw : String} : (∃ fault, parse raw = .error fault) ↔
    isAllBlank raw.toList = true ∨ ¬ Balanced raw.toList ∨ Hollow (trim raw.toList) := by
  rw [isAllBlank_iff, ← balanced_trim, ← isBalanced_iff]
  by_cases hblank : trim raw.toList = []
  · simp [parse, hblank]
  by_cases hbalanced : isBalanced (trim raw.toList) = true
  · have htight : Tight (trim raw.toList) := tight_trim _
    have hbase : (unwrap (trim raw.toList)).base = [] ↔ Hollow (trim raw.toList) :=
      ⟨hollow_of_base_unwrap htight, Hollow.base_unwrap⟩
    rw [← hbase]
    simp only [parse, hblank, hbalanced, if_false, Bool.not_true, Bool.false_eq_true,
      not_true_eq_false, false_or]
    by_cases hnil : (unwrap (trim raw.toList)).base = []
    · simp [hnil, canonical?_nil]
    · cases canonical? (unwrap (trim raw.toList)).base <;> simp [hnil]
  · simp [parse, hblank, hbalanced]

/-- A text that is no field type: it is blank, or its brackets are not nested. -/
def Malformed (cs : List Char) : Prop := isAllBlank cs = true ∨ ¬ Nested cs

instance (cs : List Char) : Decidable (Malformed cs) := inferInstanceAs (Decidable (_ ∨ _))

end FieldType

namespace Build

open FieldType Noted Text

variable {raw : String} {d : EntityDeclaration} {g : FieldDeclaration}
  {fault : Fault} {t : FieldType}

/-- The finding that the type of a declared field cannot be read. -/
def unreadableType (entity : String) (g : FieldDeclaration) (fault : Fault) : Diagnostic :=
  let name := g.name.getD ""
  ⟨.error, "INVALID_TYPE", s!"Field '{entity}.{name}': {fault.message}",
    [("entity", .text entity), ("field", .text name), ("type", .text g.type)]⟩

theorem field_of_fault (entity : String) (h : parse g.type = .error fault) :
    (field entity g).value = none ∧ unreadableType entity g fault ∈ (field entity g).notes := by
  simp only [field, value_bind, notes_bind, h]
  exact ⟨rfl, List.mem_append_right _ List.mem_cons_self⟩

theorem field_of_type (entity : String) (h : parse g.type = .ok t) :
    (∃ f, (field entity g).value = some f ∧ f.type = t) ∧
      ∀ n ∈ (field entity g).notes, n.code ≠ "INVALID_TYPE" := by
  simp only [field, value_bind, notes_bind, h]
  refine ⟨⟨_, rfl, rfl⟩, fun n hn hcode => ?_⟩
  rw [notes_pure, List.append_nil] at hn
  have hown : n.code ∈ Attribute.codes := Attribute.coded_fieldAttributes _ _ _ n hn
  rw [hcode] at hown
  exact absurd hown (by decide)

/-- A build of a declaration with a field whose type is refused fails, and says which type it is. -/
theorem build_of_fault (strict : Bool) (hs : (shape d).Clean) (hg : g ∈ d.fields.getD [])
    (h : parse g.type = .error fault) :
    ∃ failure, build d strict = .error failure ∧
      unreadableType d.name g fault ∈ failure.findings := by
  have hnote : unreadableType d.name g fault ∈ (parts d strict).notes := by
    rw [notes_parts, notes_collect]
    have hfields : unreadableType d.name g fault ∈
        (d.fields.getD []).flatMap fun g => (field d.name g).notes :=
      List.mem_flatMap.mpr ⟨g, hg, (field_of_fault d.name h).2⟩
    simp only [List.mem_append]
    tauto
  have hparts : ¬ (parts d strict).Clean := by
    rw [not_clean_iff, Diagnostics.hasErrors, List.any_eq_true]
    exact ⟨_, hnote, rfl⟩
  exact ⟨_, build_of_not_clean_parts hs hparts, hnote⟩

/-- A text is refused as a field type: no declared field is made of it, and wherever one has it, the
build fails with a report of it. -/
structure Rejected (raw : String) : Prop where
  refused : ∃ fault, parse raw = .error fault
  unmade : ∀ entity g, g.type = raw → (field entity g).value = none
  reported : ∀ d g strict, (shape d).Clean → g ∈ d.fields.getD [] → g.type = raw →
    ∃ failure fault, build d strict = .error failure ∧
      unreadableType d.name g fault ∈ failure.findings

/-- A text is read as a field type: every declared field that has it is made with this type, and the
type is not reported. -/
structure ReadAs (raw : String) (t : FieldType) : Prop where
  read : parse raw = .ok t
  made : ∀ entity g, g.type = raw → ∃ f, (field entity g).value = some f ∧ f.type = t
  unreported : ∀ entity g, g.type = raw →
    ∀ n ∈ (field entity g).notes, n.code ≠ "INVALID_TYPE"

theorem rejected_iff : Rejected raw ↔ ∃ fault, parse raw = .error fault := by
  constructor
  · exact Rejected.refused
  · rintro ⟨fault, h⟩
    refine ⟨⟨fault, h⟩, ?_, ?_⟩
    · rintro entity g rfl
      exact (field_of_fault entity h).1
    · rintro d g strict hs hg rfl
      obtain ⟨failure, hbuild, hnote⟩ := build_of_fault strict hs hg h
      exact ⟨failure, fault, hbuild, hnote⟩

theorem readAs_of_parse (h : parse raw = .ok t) : ReadAs raw t := by
  refine ⟨h, ?_, ?_⟩
  · rintro entity g rfl
    exact (field_of_type entity h).1
  · rintro entity g rfl
    exact (field_of_type entity h).2

/-- A text is rejected as a field type if it is blank, its brackets are not balanced, or nothing but
wrappers is in it, and is read as one otherwise. So a text that is blank or whose brackets are not
nested is rejected exactly unless its brackets are balanced all the same, around or in front of
something. -/
theorem malformed_rejected_iff (raw : String) :
    (Rejected raw ↔
      isAllBlank raw.toList = true ∨ ¬ Balanced raw.toList ∨ Hollow (trim raw.toList)) ∧
    (Rejected raw ∨ ∃ t, ReadAs raw t) ∧
    ((Malformed raw.toList → Rejected raw) ↔
      Nested raw.toList ∨ ¬ Balanced raw.toList ∨ Hollow (trim raw.toList)) := by
  have hrejected : Rejected raw ↔
      isAllBlank raw.toList = true ∨ ¬ Balanced raw.toList ∨ Hollow (trim raw.toList) :=
    rejected_iff.trans refused_iff
  refine ⟨hrejected, ?_, ?_⟩
  · cases h : parse raw with
    | ok t => exact Or.inr ⟨t, readAs_of_parse h⟩
    | error fault => exact Or.inl (rejected_iff.mpr ⟨fault, h⟩)
  · have hblank : isAllBlank raw.toList = true → Nested raw.toList :=
      fun h => (bracketFree_of_blank h).nested
    rw [hrejected, Malformed]
    constructor
    · intro h
      by_cases hnested : Nested raw.toList
      · exact Or.inl hnested
      · exact Or.inr ((h (Or.inr hnested)).resolve_left fun hb => hnested (hblank hb))
    · rintro h (hb | hnested)
      · exact Or.inl hb
      · exact Or.inr (h.resolve_left hnested)

/-- Brackets that are interleaved go unnoticed: what stands in front of the first is kept as the name
of a custom type, which is stored as text. -/
theorem interleaved_not_rejected :
    Malformed "Option[Vec<i32]>".toList ∧ ¬ Rejected "Option[Vec<i32]>" ∧
      parse "Option[Vec<i32]>" = .ok ⟨"Option[Vec<i32]>", "Option[Vec", false, 0, false⟩ ∧
      (ColumnType.ofField ⟨"Option[Vec<i32]>", "Option[Vec", false, 0, false⟩ {}).text =
        "TEXT" := by
  have hparse : parse "Option[Vec<i32]>" =
      .ok ⟨"Option[Vec<i32]>", "Option[Vec", false, 0, false⟩ := by decide +kernel
  refine ⟨by decide +kernel, fun h => ?_, hparse, by decide +kernel⟩
  obtain ⟨fault, hfault⟩ := h.refused
  rw [hparse] at hfault
  cases hfault

end Build

end EntityForge
