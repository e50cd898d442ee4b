import EntityForge.Generation.Run
import EntityForge.Proofs.Validation
import Mathlib.Data.List.Nodup

/-!
# What validation of a document establishes

A document without an error holds no name and no table twice. Without a warning, moreover, every
relation leads to an entity of the document whose table has the name that lookups take it to have.
The schema of that table is not looked at, nor are its columns.
-/

namespace EntityForge

namespace Diagnostics

@[simp] theorem hasWarnings_append (xs ys : Diagnostics) :
    hasWarnings (xs ++ ys) = (hasWarnings xs || hasWarnings ys) :=
  List.any_append

end Diagnostics

namespace Noted

variable {α β : Type}

/-- No finding is an error or a warning. -/
def Quiet (x : Noted α) : Prop := x.Clean ∧ Diagnostics.hasWarnings x.notes = false

instance (x : Noted α) : Decidable x.Quiet := inferInstanceAs (Decidable (_ ∧ _))

theorem Quiet.clean {x : Noted α} (h : x.Quiet) : x.Clean := h.1

@[simp] theorem quiet_pure (a : α) : (pure a : Noted α).Quiet := ⟨rfl, rfl⟩

/-- Running one computation after another is quiet when both are. -/
@[simp] theorem quiet_bind (x : Noted α) (f : α → Noted β) :
    (x >>= f).Quiet ↔ x.Quiet ∧ (f x.value).Quiet := by
  simp only [Quiet, clean_bind, notes_bind, Diagnostics.hasWarnings_append, Bool.or_eq_false_iff]
  exact and_and_and_comm

@[simp] theorem not_quiet_error (code message : String) (context : Context) :
    ¬ (Noted.error code message context).Quiet := fun h => Bool.noConfusion h.1

@[simp] theorem not_quiet_warning (code message : String) (context : Context) :
    ¬ (Noted.warning code message context).Quiet := fun h => Bool.noConfusion h.2

/-- A dangling reference never passes unnoticed. -/
@[simp] theorem not_quiet_dangling (strict : Bool) (code message : String) (context : Context) :
    ¬ (Noted.dangling strict code message context).Quiet := by
  cases strict
  · exact not_quiet_warning code message context
  · exact not_quiet_error code message context

@[simp] theorem quiet_each (f : α → Noted Unit) (as : List α) :
    (each f as).Quiet ↔ ∀ a ∈ as, (f a).Quiet := by
  induction as with
  | nil => simp [each]
  | cons a as ih => simp [each, ih]

end Noted

/-! ## The entities of a document -/

/-- The entities of a document that can be built, in the order declared. -/
def Document.built (doc : Document) : List Entity :=
  doc.entities.filterMap fun d => (Build.build d doc.config.strictReferences).toOption.map Prod.fst

/-- What is built comes from a declaration of the document. -/
theorem Document.mem_built {doc : Document} {e : Entity} : e ∈ doc.built ↔
    ∃ d ∈ doc.entities, ∃ notes, Build.build d doc.config.strictReferences = .ok (e, notes) := by
  have hbuild (d : EntityDeclaration) :
      (Build.build d doc.config.strictReferences).toOption.map Prod.fst = some e ↔
        ∃ notes, Build.build d doc.config.strictReferences = .ok (e, notes) := by
    cases Build.build d doc.config.strictReferences with
    | error failure => simp [Except.toOption]
    | ok result => simp [Except.toOption, Prod.ext_iff]
  simp only [built, List.mem_filterMap, hbuild]

/-- The entity is what is built of some declaration. -/
def Entity.IsBuilt (e : Entity) : Prop := ∃ d strict notes, Build.build d strict = .ok (e, notes)

theorem Document.isBuilt_of_mem {doc : Document} {e : Entity} (he : e ∈ doc.built) : e.IsBuilt := by
  obtain ⟨d, -, notes, hb⟩ := mem_built.mp he
  exact ⟨d, _, notes, hb⟩

/-- A run validates and generates the entities that can be built. -/
theorem Generator.buildStep_entities (doc : Document) (r : Report) :
    (buildStep doc r).2 = doc.built := by
  have hall (ds : List EntityDeclaration) (r : Report) :
      (buildAll doc.config.strictReferences r ds).2 = ds.filterMap fun d =>
        (Build.build d doc.config.strictReferences).toOption.map Prod.fst := by
    induction ds generalizing r with
    | nil => rfl
    | cons d ds ih =>
      simp only [buildAll, buildOne, ih, List.filterMap_cons]
      cases Build.build d doc.config.strictReferences <;> rfl
  exact hall doc.entities r

namespace Validation

variable {es : List Entity} {strict : Bool}

@[simp] theorem quiet_when (condition : Bool) (x : Noted Unit) :
    (when condition x).Quiet ↔ (condition = true → x.Quiet) := by
  cases condition <;> simp [when]

/-! ## Distinct names -/

/-- The run over all entities passes when both their names and their tables are fresh. -/
theorem clean_uniqueFrom {names tables : List String} :
    (uniqueFrom names tables es).Clean ↔
      Fresh Entity.name names es ∧ Fresh Entity.fullTable tables es := by
  induction es generalizing names tables with
  | nil => simp [uniqueFrom]
  | cons e es ih =>
    simp only [uniqueFrom, Noted.clean_bind, clean_when, Noted.not_clean_error, ih, fresh_cons,
      List.contains_iff_mem, imp_false]
    constructor
    · rintro ⟨hn, ht, hns, hts⟩
      exact ⟨⟨hn, hns⟩, ht, hts⟩
    · rintro ⟨⟨hn, hns⟩, ht, hts⟩
      exact ⟨hn, ht, hns, hts⟩

/-- All that the run over all entities can find is an error. -/
theorem quiet_uniqueFrom {names tables : List String} :
    (uniqueFrom names tables es).Quiet ↔ (uniqueFrom names tables es).Clean := by
  induction es generalizing names tables with
  | nil => simp [uniqueFrom]
  | cons e es ih => simp [uniqueFrom, ih]

theorem clean_uniqueEntities : (uniqueEntities es).Clean ↔
    (es.map Entity.name).Nodup ∧ (es.map Entity.fullTable).Nodup := by
  rw [uniqueEntities, clean_uniqueFrom, fresh_nil_seen, fresh_nil_seen]

/-- A document without an error has distinct names and tables. -/
theorem nodup_of_clean_document (h : (document es strict).Clean) :
    (es.map Entity.name).Nodup ∧ (es.map Entity.fullTable).Nodup := by
  rw [document, Noted.clean_bind] at h
  exact clean_uniqueEntities.mp h.1

/-! ## Relations -/

/-- Among distinct names, an entity is found under its own. -/
theorem lastNamed?_eq_some {name : String} {other : Entity} (h : (es.map Entity.name).Nodup) :
    lastNamed? es name = some other ↔ other ∈ es ∧ other.name = name := by
  have hfound {e : Entity} (he : lastNamed? es name = some e) : e ∈ es ∧ e.name = name := by
    have hname : (e.name == name) = true := @List.find?_some _ _ e _ he
    exact ⟨List.mem_reverse.mp (List.mem_of_find?_eq_some he), beq_iff_eq.mp hname⟩
  constructor
  · exact hfound
  · rintro ⟨hm, hn⟩
    have hsome : (lastNamed? es name).isSome = true :=
      List.find?_isSome.mpr ⟨other, List.mem_reverse.mpr hm, beq_iff_eq.mpr hn⟩
    obtain ⟨e, he⟩ := Option.isSome_iff_exists.mp hsome
    obtain ⟨hem, hen⟩ := hfound he
    rw [he, List.inj_on_of_nodup_map h hem hm (hen.trans hn.symm)]

/-- Nothing is found about a relation exactly when it leads to the table that lookups use. -/
theorem quiet_relationTarget {e : Entity} {target : String × String} :
    (relationTarget es strict e target).Quiet ↔
      ∃ other, lastNamed? es target.1 = some other ∧ other.table = relationTable target.1 := by
  unfold relationTarget
  cases lastNamed? es target.1 with
  | none => simp
  | some other => simp

/-- A document on which there is nothing to find: names and tables are distinct, and relations
lead to entities of the document, in tables named after them. -/
structure Related (es : List Entity) : Prop where
  names_nodup : (es.map Entity.name).Nodup
  fullTables_nodup : (es.map Entity.fullTable).Nodup
  target : ∀ e ∈ es, ∀ t ∈ targets e,
    ∃ other ∈ es, other.name = t.1 ∧ other.table = relationTable t.1

/-- Validation of a document finds neither an error nor a warning exactly when its relations are
in order; it makes no difference whether references are strict. -/
theorem quiet_document : (document es strict).Quiet ↔ Related es := by
  rw [document, Noted.quiet_bind, uniqueEntities, quiet_uniqueFrom, ← uniqueEntities,
    clean_uniqueEntities]
  simp only [relationTargets, Noted.quiet_each, quiet_relationTarget]
  constructor
  · rintro ⟨⟨hn, ht⟩, hr⟩
    refine ⟨hn, ht, fun e he t hm => ?_⟩
    obtain ⟨other, hother, htable⟩ := hr e he t hm
    obtain ⟨hmem, hname⟩ := (lastNamed?_eq_some hn).mp hother
    exact ⟨other, hmem, hname, htable⟩
  · rintro ⟨hn, ht, hr⟩
    refine ⟨⟨hn, ht⟩, fun e he t hm => ?_⟩
    obtain ⟨other, hmem, hname, htable⟩ := hr e he t hm
    exact ⟨other, (lastNamed?_eq_some hn).mpr ⟨hmem, hname⟩, htable⟩

end Validation

end EntityForge
