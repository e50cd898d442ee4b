import EntityForge.Proofs.Name
import EntityForge.Source.Code

/-!
# What a module imports and what it defines

A name stands in the import table of a module exactly if it was registered, whatever the order and
however often. A path with one dot in front leads to a module of the same package, and a dotted path
that starts with a letter never does.
-/

namespace EntityForge.Source

/-! ## Import tables -/

theorem mem_insertName {name other : String} {names : List String} :
    name ∈ insertName other names ↔ name = other ∨ name ∈ names := by
  induction names with
  | nil => simp [insertName]
  | cons x xs ih =>
    simp only [insertName]
    split
    · exact List.mem_cons
    · split
      · rename_i h
        rw [h, List.mem_cons, ← or_assoc, or_self]
      · rw [List.mem_cons, ih, List.mem_cons, or_left_comm]

theorem mem_foldr_insertName {name : String} {added names : List String} :
    name ∈ added.foldr insertName names ↔ name ∈ added ∨ name ∈ names := by
  induction added with
  | nil => simp
  | cons x xs ih => rw [List.foldr_cons, mem_insertName, ih, List.mem_cons, or_assoc]

/-- A registration takes a name from a module. -/
def Registration.Takes (r : Registration) (path name : String) : Prop := r.1 = path ∧ name ∈ r.2

/-- Of opening registrations, only some are kept. -/
theorem mem_of_mem_lastPerModule {r : Registration} {rs : List Registration}
    (h : r ∈ lastPerModule rs) : r ∈ rs := by
  induction rs with
  | nil => simp [lastPerModule] at h
  | cons q rs ih =>
    simp only [lastPerModule] at h
    split at h
    · exact List.mem_cons_of_mem _ (ih h)
    · rcases List.mem_cons.mp h with rfl | h
      · exact List.mem_cons_self
      · exact List.mem_cons_of_mem _ (ih h)

namespace ImportTable

variable {path name : String} {t : ImportTable}

/-- The table takes a name from a module. -/
def Takes (t : ImportTable) (path name : String) : Prop :=
  ∃ r ∈ t.entries, Registration.Takes r path name

private theorem exists_takes_insertEntry {module : String} {names : List String}
    {entries : List Registration} :
    (∃ r ∈ insertEntry module names entries, Registration.Takes r path name) ↔
      Registration.Takes (module, names) path name ∨
        ∃ r ∈ entries, Registration.Takes r path name := by
  induction entries with
  | nil => simp [insertEntry, Registration.Takes, mem_foldr_insertName]
  | cons r rest ih =>
    obtain ⟨m, ns⟩ := r
    simp only [insertEntry]
    split
    · simp [Registration.Takes, mem_foldr_insertName]
    · split
      · rename_i h
        subst h
        simp only [List.mem_cons, exists_eq_or_imp, Registration.Takes, mem_foldr_insertName]
        rw [← or_assoc, and_or_left]
      · simp only [List.mem_cons, exists_eq_or_imp]
        rw [ih, or_left_comm]

theorem takes_register {r : Registration} :
    (t.register r).Takes path name ↔ r.Takes path name ∨ t.Takes path name :=
  exists_takes_insertEntry

theorem takes_registerAll {rs : List Registration} :
    (t.registerAll rs).Takes path name ↔ t.Takes path name ∨ ∃ r ∈ rs, r.Takes path name := by
  induction rs generalizing t with
  | nil => simp [registerAll]
  | cons r rs ih =>
    have hcons : t.registerAll (r :: rs) = (t.register r).registerAll rs := rfl
    simp only [hcons, ih, takes_register, List.mem_cons, exists_eq_or_imp]
    rw [or_comm (a := r.Takes path name), or_assoc]

/-- A table takes what was registered. -/
theorem takes_ofRegistrations {rs : List Registration} :
    (ofRegistrations rs).Takes path name ↔ ∃ r ∈ rs, r.Takes path name := by
  rw [ofRegistrations, takes_registerAll]
  simp [Takes, empty]

/-- What is written is what the table holds, in another order. -/
theorem mem_written {r : Registration} : r ∈ t.written ↔ r ∈ t.entries := by
  rw [written, List.mem_append, List.mem_filter, List.mem_filter, ← and_or_left]
  cases isRelative r.1 <;> simp

end ImportTable

/-! ## Paths -/

/-- A path leads to a module of the same package. -/
def Sibling (path file : String) : Prop := path = "." ++ file ∧ file.toList.head? ≠ some '.'

theorem not_sibling_of_absolute {path : String} (h : ImportTable.isRelative path = false)
    (file : String) : ¬ Sibling path file := by
  rintro ⟨rfl, -⟩
  simp [ImportTable.isRelative] at h

/-- Two dots lead out of the package. -/
theorem not_sibling_parent (path file : String) : ¬ Sibling (".." ++ path) file := by
  rintro ⟨h, hfile⟩
  have hdots : ".." ++ path = "." ++ ("." ++ path) := by
    rw [← String.append_assoc]
    rfl
  rw [hdots, String.append_right_inj] at h
  exact hfile (by rw [← h]; simp)

/-- The only module that a path with one dot leads to. -/
theorem eq_of_sibling {file other : String} (h : Sibling ("." ++ file) other) : file = other :=
  (String.append_right_inj _).mp h.1

/-- A name without a dot needs no import. -/
theorem pathRegistrations_of_no_dot {path : String} (h : '.' ∉ path.toList) :
    pathRegistrations path = [] := by
  have hall : ∀ c ∈ path.toList.reverse, decide (c ≠ '.') = true := by
    intro c hc
    exact decide_eq_true fun hdot => h (hdot ▸ List.mem_reverse.mp hc)
  have htake : path.toList.reverse.takeWhile (· ≠ '.') = path.toList.reverse := by
    have happ := @List.takeWhile_append_of_pos _ _ _ [] hall
    simpa using happ
  simp only [pathRegistrations, splitPath, htake]
  simp

/-- A path that does not start with a dot leads to an absolute module. -/
theorem isRelative_of_mem_pathRegistrations {path : String} (h : path.toList.head? ≠ some '.')
    {r : Registration} (hr : r ∈ pathRegistrations path) : ImportTable.isRelative r.1 = false := by
  have hfront : (splitPath path).1.toList <+: path.toList := by
    simp only [splitPath, String.toList_ofList, List.drop_reverse, List.reverse_reverse]
    exact List.take_prefix _ _
  have hmodule : r.1 = (splitPath path).1 := by
    simp only [pathRegistrations] at hr
    split at hr
    · simp at hr
    · rw [List.mem_singleton.mp hr]
  rw [hmodule]
  obtain ⟨rest, hrest⟩ := hfront
  cases hcs : (splitPath path).1.toList with
  | nil => simp [ImportTable.isRelative, hcs]
  | cons c cs =>
    rw [hcs] at hrest
    rw [← hrest] at h
    simpa [ImportTable.isRelative, hcs] using h

/-- A dotted path starts with a name. -/
theorem head?_of_isDottedPathLine {cs : List Char} (h : Text.isDottedPathLine cs = true) :
    cs.head? ≠ some '.' := by
  intro hd
  obtain ⟨rest, rfl⟩ := List.head?_eq_some_iff.mp hd
  have hdrop : ∃ rest', Text.dropFinalNewline ('.' :: rest) = '.' :: rest' := by
    unfold Text.dropFinalNewline
    split
    · rename_i hlast
      cases rest with
      | nil => simp at hlast
      | cons c cs => exact ⟨_, List.dropLast_cons_cons⟩
    · exact ⟨rest, rfl⟩
  obtain ⟨rest', hdrop⟩ := hdrop
  rw [Text.isDottedPathLine, hdrop] at h
  simp [Text.splitOn, Text.isName] at h

/-! ## Definitions -/

/-- The assignment joins classes to a union. -/
def Assignment.IsUnion (a : Assignment) : Prop :=
  ∃ members, a.value = "Annotated[Union[" ++ members

/-- The section defines a class, a function or a union of a name. -/
def Section.Introduces : Section → String → Prop
  | .assignments groups, name => ∃ a ∈ groups.flatten, a.name = name ∧ a.IsUnion
  | .function f, name => f.name = name
  | .classDef c, name => c.name = name

/-- The module defines a class, a function or a union of a name. -/
def Module.Introduces (m : Module) (name : String) : Prop := ∃ s ∈ m.sections, s.Introduces name

theorem Module.introduces_class {m : Module} {name : String} (c : ClassBlock)
    (h : Section.classDef c ∈ m.sections) (hn : c.name = name) : m.Introduces name := ⟨_, h, hn⟩

theorem Module.introduces_function {m : Module} {name : String} (f : Function)
    (h : Section.function f ∈ m.sections) (hn : f.name = name) : m.Introduces name := ⟨_, h, hn⟩

end EntityForge.Source
