import EntityForge.Proofs.Import
import EntityForge.Proofs.Split
import Mathlib.Data.List.Sort

/-!
# The import block

Modules and names may be registered in any order and as often as one likes: a table keeps its
modules increasing, and the names of each. What is increasing is given by its members, so that a
block is given by the modules and names that are registered. It has one line for each module, those
of absolute modules in front, and where no blank and no comma stands in a module or a name, the
lines are read back as what was registered.
-/

namespace EntityForge.Source

open Text

variable {entries : List Registration} {names added : List String} {m n module name : String}

/-! ## Increasing lists -/

/-- Each text stands in front of all that are greater, and no text twice. -/
def Increasing (texts : List String) : Prop := texts.Pairwise (· < ·)

theorem lt_of_not_lt_of_ne (h : ¬ m < n) (hne : m ≠ n) : n < m :=
  String.not_le.mp fun hle => hne (String.le_antisymm hle (String.not_lt.mp h))

/-- Lists that increase by texts of their items are the same if they have the same items. -/
theorem eq_of_increasing {α : Type} {f : α → String} {xs ys : List α}
    (hxs : Increasing (xs.map f)) (hys : Increasing (ys.map f)) (h : ∀ a, a ∈ xs ↔ a ∈ ys) :
    xs = ys := by
  have : Std.Irrefl fun a b => f a < f b := ⟨fun a => String.lt_irrefl (f a)⟩
  have : Std.Antisymm fun a b => f a < f b :=
    ⟨fun a b hab hba => absurd hba (String.lt_asymm hab)⟩
  exact (List.pairwise_map.mp hxs).eq_of_mem_iff (List.pairwise_map.mp hys) h

theorem Increasing.nodup (h : Increasing names) : names.Nodup :=
  List.Pairwise.imp (fun {m n} (hlt : m < n) (heq : m = n) => String.lt_irrefl n (heq ▸ hlt)) h

theorem increasing_insertName (h : Increasing names) : Increasing (insertName name names) := by
  induction names with
  | nil => exact List.pairwise_singleton _ _
  | cons x xs ih =>
    obtain ⟨hx, hxs⟩ := List.pairwise_cons.mp h
    simp only [insertName]
    split
    · rename_i hlt
      refine List.pairwise_cons.mpr ⟨fun y hy => ?_, h⟩
      rcases List.mem_cons.mp hy with rfl | hy
      · exact hlt
      · exact String.lt_trans hlt (hx y hy)
    · split
      · exact h
      · rename_i hlt hne
        refine List.pairwise_cons.mpr ⟨fun y hy => ?_, ih hxs⟩
        rcases mem_insertName.mp hy with rfl | hy
        · exact lt_of_not_lt_of_ne hlt hne
        · exact hx y hy

theorem increasing_foldr_insertName (h : Increasing names) :
    Increasing (added.foldr insertName names) := by
  induction added with
  | nil => exact h
  | cons x xs ih => exact increasing_insertName ih

namespace ImportTable

/-- The modules increase, and so do the names of each. -/
structure Ordered (entries : List Registration) : Prop where
  modules : Increasing (entries.map Prod.fst)
  names : ∀ e ∈ entries, Increasing e.2

theorem mem_modules_insertEntry :
    m ∈ (insertEntry module added entries).map Prod.fst ↔
      m = module ∨ m ∈ entries.map Prod.fst := by
  induction entries with
  | nil => simp [insertEntry]
  | cons e entries ih =>
    obtain ⟨x, ns⟩ := e
    simp only [insertEntry]
    split
    · simp
    · split
      · rename_i h
        simp [h]
      · rw [List.map_cons, List.mem_cons, ih, List.map_cons, List.mem_cons, or_left_comm]

/-- A module finds its place among increasing ones. -/
theorem Ordered.insertEntry (h : Ordered entries) : Ordered (insertEntry module added entries) := by
  have hadded : Increasing (added.foldr insertName []) :=
    increasing_foldr_insertName List.Pairwise.nil
  induction entries with
  | nil => exact ⟨List.pairwise_singleton _ _, List.forall_mem_singleton.mpr hadded⟩
  | cons e entries ih =>
    obtain ⟨x, ns⟩ := e
    obtain ⟨hx, hmodules⟩ := List.pairwise_cons.mp h.modules
    obtain ⟨hns, hnames⟩ := List.forall_mem_cons.mp h.names
    simp only [ImportTable.insertEntry]
    split
    · rename_i hlt
      refine ⟨List.pairwise_cons.mpr ⟨fun y hy => ?_, h.modules⟩,
        List.forall_mem_cons.mpr ⟨hadded, h.names⟩⟩
      rcases List.mem_cons.mp hy with rfl | hy
      · exact hlt
      · exact String.lt_trans hlt (hx y hy)
    · split
      · exact ⟨h.modules, List.forall_mem_cons.mpr ⟨increasing_foldr_insertName hns, hnames⟩⟩
      · rename_i hlt hne
        obtain ⟨hrest, hrestNames⟩ := ih ⟨hmodules, hnames⟩
        refine ⟨List.pairwise_cons.mpr ⟨fun y hy => ?_, hrest⟩,
          List.forall_mem_cons.mpr ⟨hns, hrestNames⟩⟩
        rcases mem_modules_insertEntry.mp hy with rfl | hy
        · exact lt_of_not_lt_of_ne hlt hne
        · exact hx y hy

theorem Ordered.registerAll {t : ImportTable} (h : Ordered t.entries) (rs : List Registration) :
    Ordered (t.registerAll rs).entries := by
  induction rs generalizing t with
  | nil => exact h
  | cons r rs ih => exact ih h.insertEntry

theorem ordered_ofRegistrations (rs : List Registration) : Ordered (ofRegistrations rs).entries :=
  Ordered.registerAll (t := empty) ⟨List.Pairwise.nil, List.forall_mem_nil _⟩ rs

theorem mem_modules_registerAll {t : ImportTable} {rs : List Registration} :
    m ∈ (t.registerAll rs).entries.map Prod.fst ↔
      m ∈ t.entries.map Prod.fst ∨ ∃ r ∈ rs, r.1 = m := by
  induction rs generalizing t with
  | nil => simp [ImportTable.registerAll]
  | cons r rs ih =>
    have hcons : t.registerAll (r :: rs) = (t.register r).registerAll rs := rfl
    rw [hcons, ih, register, mem_modules_insertEntry]
    simp only [List.mem_cons, exists_eq_or_imp]
    rw [or_comm (a := m = r.1), or_assoc, eq_comm (a := m)]

theorem mem_modules_ofRegistrations {rs : List Registration} :
    m ∈ (ofRegistrations rs).entries.map Prod.fst ↔ ∃ r ∈ rs, r.1 = m := by
  rw [ofRegistrations, mem_modules_registerAll]
  simp [empty]

/-- What an entry names is all that is taken from its module. -/
theorem Ordered.mem_names_iff {t : ImportTable} (h : Ordered t.entries) {e : Registration}
    (he : e ∈ t.entries) : n ∈ e.2 ↔ t.Takes e.1 n := by
  refine ⟨fun hn => ⟨e, he, rfl, hn⟩, ?_⟩
  rintro ⟨r, hr, hmodule, hn⟩
  rwa [← List.inj_on_of_nodup_map h.modules.nodup hr he hmodule]

/-- An entry of a table stands in every table with its modules that takes the same names. -/
theorem Ordered.mem_of_takes_iff {t u : ImportTable} (ht : Ordered t.entries)
    (hu : Ordered u.entries)
    (hmodules : ∀ m, m ∈ t.entries.map Prod.fst → m ∈ u.entries.map Prod.fst)
    (htakes : ∀ m n, t.Takes m n ↔ u.Takes m n) {e : Registration} (he : e ∈ t.entries) :
    e ∈ u.entries := by
  obtain ⟨q, hq, hmodule⟩ := List.mem_map.mp (hmodules e.1 (List.mem_map_of_mem he))
  have hnames : e.2 = q.2 := by
    refine eq_of_increasing (f := id) ?_ ?_ fun n => ?_
    · rw [List.map_id]
      exact ht.names e he
    · rw [List.map_id]
      exact hu.names q hq
    · rw [ht.mem_names_iff he, hu.mem_names_iff hq, hmodule, htakes]
  have heq : e = q := Prod.ext hmodule.symm hnames
  exact heq ▸ hq

/-- Tables are the same if they have the same modules and take the same names from each. -/
theorem eq_of_takes_iff {t u : ImportTable} (ht : Ordered t.entries) (hu : Ordered u.entries)
    (hmodules : ∀ m, m ∈ t.entries.map Prod.fst ↔ m ∈ u.entries.map Prod.fst)
    (htakes : ∀ m n, t.Takes m n ↔ u.Takes m n) : t = u := by
  have hentries : t.entries = u.entries := eq_of_increasing ht.modules hu.modules fun e =>
    ⟨ht.mem_of_takes_iff hu (fun m => (hmodules m).mp) htakes,
      hu.mem_of_takes_iff ht (fun m => (hmodules m).mpr) fun m n => (htakes m n).symm⟩
  cases t
  cases u
  exact congrArg _ hentries

/-- No module is written twice. -/
theorem Ordered.nodup_written {t : ImportTable} (h : Ordered t.entries) :
    (t.written.map Prod.fst).Nodup := by
  have hsplit := List.filter_append_perm (fun r : Registration => isRelative r.1) t.entries
  have hperm : t.written.Perm t.entries := List.perm_append_comm.trans hsplit
  exact (hperm.map Prod.fst).nodup_iff.mpr h.modules.nodup

/-- Absolute modules are written before relative ones, and each kind increases. -/
theorem Ordered.written {t : ImportTable} (h : Ordered t.entries) :
    ∃ absolute relative, t.written.map Prod.fst = absolute ++ relative ∧
      Increasing absolute ∧ Increasing relative ∧
      (∀ m ∈ absolute, isRelative m = false) ∧ ∀ m ∈ relative, isRelative m = true := by
  refine ⟨_, _, List.map_append, h.modules.sublist (List.filter_sublist.map _),
    h.modules.sublist (List.filter_sublist.map _), ?_, ?_⟩
  · rw [List.forall_mem_map]
    intro e he
    simpa using (List.mem_filter.mp he).2
  · rw [List.forall_mem_map]
    exact fun e he => (List.mem_filter.mp he).2

end ImportTable

/-! ## Dotted paths -/

/-- A path is cut at its last dot. -/
theorem splitPath_append (h : '.' ∉ name.toList) :
    splitPath (module ++ "." ++ name) = (module, name) := by
  have hreverse : (module ++ "." ++ name).toList.reverse =
      name.toList.reverse ++ '.' :: module.toList.reverse := by
    simp
  have htake : (name.toList.reverse ++ '.' :: module.toList.reverse).takeWhile (· ≠ '.') =
      name.toList.reverse :=
    takeWhile_append_of_not_mem (by simpa using h) _
  have hdrop : (name.toList.reverse ++ '.' :: module.toList.reverse).drop
      (name.toList.reverse.length + 1) = module.toList.reverse := by
    rw [List.append_cons, List.drop_left' (by simp)]
  simp only [splitPath, hreverse, htake, hdrop, List.reverse_reverse, String.ofList_toList]

/-- A path with a dot in it has a module, which may be empty, and a name. -/
theorem exists_of_dot_mem {path : String} (h : '.' ∈ path.toList) :
    ∃ module name, '.' ∉ name.toList ∧ path = module ++ "." ++ name := by
  obtain ⟨name, module, hpath, hname⟩ := List.eq_append_cons_of_mem (List.mem_reverse.mpr h)
  refine ⟨.ofList module.reverse, .ofList name.reverse, by simpa using hname, ?_⟩
  rw [← String.toList_inj, ← List.reverse_inj, hpath]
  simp

/-- What a path registers: the name behind its last dot, for the module in front of it. -/
theorem mem_pathRegistrations {path : String} {r : Registration} :
    r ∈ pathRegistrations path ↔ ∃ module name, module ≠ "" ∧ '.' ∉ name.toList ∧
      path = module ++ "." ++ name ∧ r = (module, [name]) := by
  constructor
  · intro hr
    have hdot : '.' ∈ path.toList := by
      by_contra h
      rw [pathRegistrations_of_no_dot h] at hr
      exact List.not_mem_nil hr
    obtain ⟨module, name, hname, rfl⟩ := exists_of_dot_mem hdot
    simp only [pathRegistrations, splitPath_append hname] at hr
    split at hr
    · exact absurd hr List.not_mem_nil
    · rename_i hmodule
      exact ⟨module, name, by simpa using hmodule, hname, rfl, List.mem_singleton.mp hr⟩
  · rintro ⟨module, name, hmodule, hname, rfl, rfl⟩
    simp only [pathRegistrations, splitPath_append hname]
    rw [if_neg (by simpa using hmodule)]
    exact List.mem_singleton_self _

/-! ## Lines -/

/-- What an import line says: a module alone, or a module and what stands between the commas behind
it, apart from blanks. -/
def readImport? (l : String) : Option Registration :=
  match splitOn ' ' l.toList with
  | [keyword, module] => if keyword = "import".toList then some (.ofList module, []) else none
  | opening :: module :: keyword :: texts =>
    if opening = "from".toList ∧ keyword = "import".toList then
      some (.ofList module, (splitOn ',' texts.flatten).map .ofList)
    else none
  | _ => none

/-- The text has no blank and no comma in it. -/
def Unseparated (s : String) : Prop := ' ' ∉ s.toList ∧ ',' ∉ s.toList

instance : DecidablePred Unseparated := fun _ => inferInstanceAs (Decidable (_ ∧ _))

theorem Unseparated.of_append (h : Unseparated (module ++ "." ++ name)) :
    Unseparated module ∧ Unseparated name := by
  simp only [Unseparated, String.toList_append, List.mem_append, not_or] at h ⊢
  exact ⟨⟨h.1.1.1, h.2.1.1⟩, h.1.2, h.2.2⟩

/-- Texts with commas and blanks between them have commas between them apart from the blanks. -/
theorem filter_intercalate_names (h : ∀ n ∈ names, Unseparated n) :
    (", ".intercalate names).toList.filter (· ≠ ' ') =
      [','].intercalate (names.map String.toList) := by
  rw [String.toList_intercalate]
  induction names with
  | nil => rfl
  | cons n names ih =>
    obtain ⟨hn, hnames⟩ := List.forall_mem_cons.mp h
    have hkept : n.toList.filter (· ≠ ' ') = n.toList :=
      List.filter_eq_self.mpr fun c hc => decide_eq_true fun heq => hn.1 (heq ▸ hc)
    cases names with
    | nil => simpa using hkept
    | cons x names =>
      rw [List.map_cons, List.map_cons, List.intercalate_cons_cons, List.intercalate_cons_cons,
        List.filter_append, List.filter_append, hkept, ← List.map_cons, ih hnames]
      rfl

/-- A line is read back as what it is written for. -/
theorem readImport?_line {r : Registration} (hmodule : Unseparated r.1)
    (hnames : ∀ n ∈ r.2, Unseparated n) : readImport? (ImportTable.line r) = some r := by
  obtain ⟨m, ns⟩ := r
  have hkeyword : ' ' ∉ "import".toList := by decide
  by_cases hne : ns = []
  · subst hne
    have hline : (ImportTable.line (m, [])).toList = "import".toList ++ ' ' :: m.toList := by
      simp [ImportTable.line]
    have hread : splitOn ' ' (ImportTable.line (m, [])).toList = ["import".toList, m.toList] := by
      rw [hline, splitOn_append, splitOn_of_not_mem hkeyword, splitOn_of_not_mem hmodule.1]
      rfl
    rw [readImport?, hread]
    simp
  · have hline : (ImportTable.line (m, ns)).toList = "from".toList ++ ' ' :: (m.toList ++
        ' ' :: ("import".toList ++ ' ' :: (", ".intercalate ns).toList)) := by
      simp [ImportTable.line, hne]
    obtain ⟨text, texts, htexts⟩ :=
      List.exists_cons_of_ne_nil (splitOn_ne_nil ' ' (", ".intercalate ns).toList)
    have hread : splitOn ' ' (ImportTable.line (m, ns)).toList =
        "from".toList :: m.toList :: "import".toList :: text :: texts := by
      rw [hline, splitOn_append, splitOn_append, splitOn_append, htexts,
        splitOn_of_not_mem (by decide), splitOn_of_not_mem hmodule.1, splitOn_of_not_mem hkeyword]
      rfl
    have hback : splitOn ',' (text :: texts).flatten = ns.map String.toList := by
      rw [← htexts, flatten_splitOn, filter_intercalate_names hnames, splitOn_intercalate]
      · simpa using hne
      · rw [List.forall_mem_map]
        exact fun n hn => (hnames n hn).2
    rw [readImport?, hread]
    simp only [and_self, if_true]
    rw [hback]
    simp

/-! ## Steps -/

/-- One step of registering imports. -/
inductive ImportStep where
  | /-- Names are taken from a module. -/ add (module : String) (names : List String)
  | /-- What stands at the end of a dotted path is taken. -/ dotted (path : String)
  deriving DecidableEq, Repr

namespace ImportStep

/-- What the step adds to a table. -/
def registrations : ImportStep → List Registration
  | add module names => [(module, names)]
  | dotted path => pathRegistrations path

/-- The step imports the module: a path imports what stands in front of its last dot, if
anything. -/
def Imports (m : String) : ImportStep → Prop
  | add module _ => module = m
  | dotted path => m ≠ "" ∧ ∃ n : String, '.' ∉ n.toList ∧ path = m ++ "." ++ n

/-- The step takes the name from the module. -/
def Takes (m n : String) : ImportStep → Prop
  | add module names => module = m ∧ n ∈ names
  | dotted path => m ≠ "" ∧ '.' ∉ n.toList ∧ path = m ++ "." ++ n

/-- There is no blank and no comma in the module, the names or the path of a step. -/
def Plain : ImportStep → Prop
  | add module names => Unseparated module ∧ ∀ n ∈ names, Unseparated n
  | dotted path => Unseparated path

instance : DecidablePred Plain
  | add _ _ => inferInstanceAs (Decidable (_ ∧ ∀ _, _))
  | dotted _ => inferInstanceAs (Decidable (Unseparated _))

variable {step : ImportStep}

theorem imports_iff : step.Imports m ↔ ∃ r ∈ step.registrations, r.1 = m := by
  cases step with
  | add module names => simp [Imports, registrations]
  | dotted path =>
    rw [registrations]
    constructor
    · rintro ⟨hm, n, hn, hpath⟩
      exact ⟨_, mem_pathRegistrations.mpr ⟨m, n, hm, hn, hpath, rfl⟩, rfl⟩
    · rintro ⟨r, hr, rfl⟩
      obtain ⟨module, name, hmodule, hname, hpath, rfl⟩ := mem_pathRegistrations.mp hr
      exact ⟨hmodule, name, hname, hpath⟩

theorem takes_iff : step.Takes m n ↔ ∃ r ∈ step.registrations, Registration.Takes r m n := by
  cases step with
  | add module names => simp [Takes, registrations, Registration.Takes]
  | dotted path =>
    rw [registrations]
    constructor
    · rintro ⟨hm, hn, hpath⟩
      exact ⟨_, mem_pathRegistrations.mpr ⟨m, n, hm, hn, hpath, rfl⟩, rfl,
        List.mem_singleton_self n⟩
    · rintro ⟨r, hr, rfl, hn⟩
      obtain ⟨module, name, hmodule, hname, hpath, rfl⟩ := mem_pathRegistrations.mp hr
      obtain rfl := List.mem_singleton.mp hn
      exact ⟨hmodule, hname, hpath⟩

/-- What a plain step imports and takes has no blank and no comma in it. -/
theorem Plain.of_imports (h : step.Plain) (hm : step.Imports m) : Unseparated m := by
  cases step with
  | add module names => exact hm ▸ h.1
  | dotted path =>
    obtain ⟨-, n, -, rfl⟩ := hm
    exact (Unseparated.of_append h).1

theorem Plain.of_takes (h : step.Plain) (hn : step.Takes m n) : Unseparated n := by
  cases step with
  | add module names => exact h.2 n hn.2
  | dotted path =>
    obtain ⟨-, -, rfl⟩ := hn
    exact (Unseparated.of_append h).2

end ImportStep

/-- The table after some steps. -/
def tableOf (steps : List ImportStep) : ImportTable :=
  .ofRegistrations (steps.flatMap ImportStep.registrations)

variable {steps others : List ImportStep}

theorem mem_modules_tableOf :
    m ∈ (tableOf steps).entries.map Prod.fst ↔ ∃ s ∈ steps, s.Imports m := by
  simp only [tableOf, ImportTable.mem_modules_ofRegistrations, List.mem_flatMap,
    ImportStep.imports_iff]
  grind

theorem takes_tableOf : (tableOf steps).Takes m n ↔ ∃ s ∈ steps, s.Takes m n := by
  simp only [tableOf, ImportTable.takes_ofRegistrations, List.mem_flatMap, ImportStep.takes_iff]
  grind

/-- Whatever the order and however often, steps that import the same modules and take the same names
lead to one table. -/
theorem tableOf_eq (himports : ∀ m, (∃ s ∈ others, s.Imports m) ↔ ∃ s ∈ steps, s.Imports m)
    (htakes : ∀ m n, (∃ s ∈ others, s.Takes m n) ↔ ∃ s ∈ steps, s.Takes m n) :
    tableOf others = tableOf steps := by
  refine ImportTable.eq_of_takes_iff (ImportTable.ordered_ofRegistrations _)
    (ImportTable.ordered_ofRegistrations _) (fun m => ?_) fun m n => ?_
  · exact mem_modules_tableOf.trans ((himports m).trans mem_modules_tableOf.symm)
  · exact takes_tableOf.trans ((htakes m n).trans takes_tableOf.symm)

/-- Plain steps lead to lines that are read back as the entries of the table. -/
theorem map_readImport?_block (h : ∀ s ∈ steps, s.Plain) :
    (tableOf steps).block.map readImport? = (tableOf steps).written.map some := by
  rw [ImportTable.block, List.map_map]
  refine List.map_congr_left fun e he => ?_
  rw [Function.comp_apply]
  have hmem : e ∈ (tableOf steps).entries := ImportTable.mem_written.mp he
  obtain ⟨s, hs, hmodule⟩ := mem_modules_tableOf.mp (List.mem_map_of_mem hmem)
  refine readImport?_line ((h s hs).of_imports hmodule) fun n hn => ?_
  obtain ⟨s, hs, htakes⟩ := takes_tableOf.mp ⟨e, hmem, rfl, hn⟩
  exact (h s hs).of_takes htakes

/-- The block of some steps has one line for each module that they import. Absolute modules stand
before relative ones, both increasing, and so do the names on a line. The lines are read back as
what the steps import and take, and a module from which nothing is taken is imported as a whole. All
other steps that import and take the same, in whatever order and however often, have the same
block. -/
theorem block_canonical (h : ∀ s ∈ steps, s.Plain) :
    ∃ entries : List Registration,
      (tableOf steps).block.map readImport? = entries.map some ∧
      (entries.map Prod.fst).Nodup ∧
      (∃ absolute relative, entries.map Prod.fst = absolute ++ relative ∧
        Increasing absolute ∧ Increasing relative ∧
        (∀ m ∈ absolute, ImportTable.isRelative m = false) ∧
        ∀ m ∈ relative, ImportTable.isRelative m = true) ∧
      (∀ m, m ∈ entries.map Prod.fst ↔ ∃ s ∈ steps, s.Imports m) ∧
      (∀ e ∈ entries, Increasing e.2) ∧
      (∀ m n, (∃ e ∈ entries, e.1 = m ∧ n ∈ e.2) ↔ ∃ s ∈ steps, s.Takes m n) ∧
      (∀ e ∈ entries, e.2 = [] → "import " ++ e.1 ∈ (tableOf steps).block) ∧
      ∀ others : List ImportStep,
        (∀ m, (∃ s ∈ others, s.Imports m) ↔ ∃ s ∈ steps, s.Imports m) →
        (∀ m n, (∃ s ∈ others, s.Takes m n) ↔ ∃ s ∈ steps, s.Takes m n) →
        (tableOf others).block = (tableOf steps).block := by
  have hordered : ImportTable.Ordered (tableOf steps).entries :=
    ImportTable.ordered_ofRegistrations _
  have hmodules (m : String) : m ∈ (tableOf steps).written.map Prod.fst ↔
      ∃ s ∈ steps, s.Imports m := by
    rw [← mem_modules_tableOf]
    simp only [List.mem_map, ImportTable.mem_written]
  refine ⟨(tableOf steps).written, map_readImport?_block h, hordered.nodup_written,
    hordered.written, hmodules, fun e he => hordered.names e (ImportTable.mem_written.mp he),
    fun m n => ?_, fun e he hnames => ?_,
    fun others himports htakes => by rw [tableOf_eq himports htakes]⟩
  · rw [← takes_tableOf]
    simp only [ImportTable.mem_written]
    rfl
  · have hline : ImportTable.line e = "import " ++ e.1 := by
      rw [ImportTable.line, hnames]
      rfl
    exact hline ▸ List.mem_map_of_mem he

/-- The order and a repetition make no difference, and neither does a module that is registered with
and without a name. -/
theorem block_canonical_repeated :
    (∀ s ∈ [ImportStep.add ".dto" ["B", "A"], .dotted "typing.Any", .add "typing" []], s.Plain) ∧
    (tableOf [.add "typing" [], .add ".dto" ["B", "A"], .dotted "typing.Any",
      .add ".dto" ["B", "A"]]).block = ["from typing import Any", "from .dto import A, B"] := by
  have hmem (a b c s : ImportStep) : s ∈ [c, a, b, a] ↔ s ∈ [a, b, c] := by
    simp only [List.mem_cons, List.not_mem_nil, or_false]
    tauto
  have hplain : ∀ s ∈ [ImportStep.add ".dto" ["B", "A"], .dotted "typing.Any", .add "typing" []],
      s.Plain := by decide
  have hblock : (tableOf [.add ".dto" ["B", "A"], .dotted "typing.Any", .add "typing" []]).block =
      ["from typing import Any", "from .dto import A, B"] := by decide +kernel
  obtain ⟨-, -, -, -, -, -, -, -, hsame⟩ := block_canonical hplain
  have heq := hsame [.add "typing" [], .add ".dto" ["B", "A"], .dotted "typing.Any",
    .add ".dto" ["B", "A"]] (fun m => exists_congr fun s => and_congr_left' (hmem _ _ _ s))
    fun m n => exists_congr fun s => and_congr_left' (hmem _ _ _ s)
  exact ⟨hplain, heq.trans hblock⟩

end EntityForge.Source
