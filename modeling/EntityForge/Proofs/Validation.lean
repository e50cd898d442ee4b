import EntityForge.Proofs.Finding
import EntityForge.Validation.Entity

/-!
# What validation establishes

An entity passes validation without an error exactly when its fields and commands are named by
identifiers and its fields, columns, commands, indexes and projections are distinct by name. The
checks keep the names they have met, so a run is judged together with the names met before it.
-/

namespace EntityForge

/-- What an entity must satisfy on its own. -/
structure Entity.Valid (e : Entity) : Prop where
  fieldNames_nodup : (e.fields.map Field.name).Nodup
  columnNames_nodup : e.columnNames.Nodup
  fieldName_isIdentifier : ∀ f ∈ e.fields, Source.isIdentifier f.name = true
  fieldName_not_reserved : ∀ f ∈ e.fields, Validation.isModelName f.name = false
  commandNames_nodup : (e.commands.map Command.name).Nodup
  commandName_isIdentifier : ∀ c ∈ e.commands, Source.isIdentifier c.name = true
  indexNames_nodup : e.indexNames.Nodup
  projectionNames_nodup : (e.projections.map Projection.name).Nodup

namespace Validation

open Noted

@[simp] theorem clean_when (condition : Bool) (x : Noted Unit) :
    (when condition x).Clean ↔ (condition = true → x.Clean) := by
  cases condition <;> simp [when]

section Fresh

variable {α : Type} {key : α → String} {seen : List String} {a : α} {as : List α}

/-- The items have distinct keys, none of which was met before. -/
def Fresh (key : α → String) (seen : List String) (as : List α) : Prop :=
  (as.map key).Nodup ∧ ∀ a ∈ as, key a ∉ seen

@[simp] theorem fresh_nil : Fresh key seen [] := by simp [Fresh]

/-- A fresh item is new, and the rest is fresh once it was met. -/
theorem fresh_cons : Fresh key seen (a :: as) ↔ key a ∉ seen ∧ Fresh key (key a :: seen) as := by
  rw [Fresh, Fresh, List.map_cons, List.nodup_cons, List.forall_mem_cons]
  simp only [List.mem_map, not_exists, not_and, List.mem_cons, not_or]
  constructor
  · rintro ⟨⟨hne, hn⟩, ha, hs⟩
    exact ⟨ha, hn, fun b hb => ⟨hne b hb, hs b hb⟩⟩
  · rintro ⟨ha, hn, h⟩
    exact ⟨⟨fun b hb => (h b hb).1, hn⟩, ha, fun b hb => (h b hb).2⟩

/-- Before anything was met, to be fresh is to have distinct keys. -/
theorem fresh_nil_seen : Fresh key [] as ↔ (as.map key).Nodup := by simp [Fresh]

/-- A check that refuses what was met before passes on fresh items that pass on their own. -/
theorem clean_eachWithRepeat {check : Bool → α → Noted Unit}
    (hrepeat : ∀ a, ¬ (check true a).Clean) :
    (eachWithRepeat key check seen as).Clean ↔
      Fresh key seen as ∧ ∀ a ∈ as, (check false a).Clean := by
  induction as generalizing seen with
  | nil => simp [eachWithRepeat]
  | cons a as ih =>
    have hfirst : (check (seen.contains (key a)) a).Clean ↔
        key a ∉ seen ∧ (check false a).Clean := by
      by_cases h : key a ∈ seen
      · simp [h, hrepeat]
      · simp [h]
    rw [eachWithRepeat, clean_bind, hfirst, ih, fresh_cons, List.forall_mem_cons]
    constructor
    · rintro ⟨⟨hn, hc⟩, hf, h⟩
      exact ⟨⟨hn, hf⟩, hc, h⟩
    · rintro ⟨⟨hn, hf⟩, hc, h⟩
      exact ⟨⟨hn, hc⟩, hf, h⟩

end Fresh

/-- The checks on one name pass when field and column are new and the name can be one. -/
theorem clean_fieldName {e : Entity} {repeatedField repeatedColumn : Bool} {f : Field} :
    (fieldName e repeatedField repeatedColumn f).Clean ↔
      repeatedField = false ∧ repeatedColumn = false ∧ Source.isIdentifier f.name = true ∧
        isModelName f.name = false := by
  cases repeatedField <;> cases repeatedColumn <;>
    cases hi : Source.isIdentifier f.name <;> simp [fieldName, hi]

/-- The run over all fields passes when both their names and their columns are fresh. -/
theorem clean_fieldNamesFrom {e : Entity} {names columns : List String} {fs : List Field} :
    (fieldNamesFrom e names columns fs).Clean ↔
      Fresh Field.name names fs ∧ Fresh Field.columnName columns fs ∧
        ∀ f ∈ fs, Source.isIdentifier f.name = true ∧ isModelName f.name = false := by
  induction fs generalizing names columns with
  | nil => simp [fieldNamesFrom]
  | cons f fs ih =>
    rw [fieldNamesFrom, clean_bind, clean_fieldName, ih, fresh_cons, fresh_cons,
      List.forall_mem_cons, List.contains_eq_mem, List.contains_eq_mem, decide_eq_false_iff_not,
      decide_eq_false_iff_not]
    constructor
    · rintro ⟨⟨hn, hc, hf⟩, hns, hcs, hfs⟩
      exact ⟨⟨hn, hns⟩, ⟨hc, hcs⟩, hf, hfs⟩
    · rintro ⟨⟨hn, hns⟩, ⟨hc, hcs⟩, hf, hfs⟩
      exact ⟨⟨hn, hc, hf⟩, hns, hcs, hfs⟩

theorem clean_commands {e : Entity} :
    (commands e).Clean ↔ (e.commands.map Command.name).Nodup ∧
      ∀ c ∈ e.commands, Source.isIdentifier c.name = true := by
  simp only [commands, clean_bind, clean_when, clean_info, implies_true, and_true]
  rw [clean_eachWithRepeat (by simp), fresh_nil_seen]
  simp

theorem clean_indexes {e : Entity} : (indexes e).Clean ↔ e.indexNames.Nodup := by
  rw [indexes, clean_eachWithRepeat (by simp), fresh_nil_seen]
  simp

theorem clean_projections {e : Entity} :
    (projections e).Clean ↔ (e.projections.map Projection.name).Nodup := by
  rw [projections, clean_eachWithRepeat (by simp), fresh_nil_seen]
  simp

/-- The checks on filters and on soft deletion only warn. -/
theorem clean_filters (e : Entity) : (filters e).Clean := by
  simp [filters]

theorem clean_softDeletion (e : Entity) : (softDeletion e).Clean := by
  simp [softDeletion]

/-- An entity passes validation exactly when it is valid. -/
theorem clean_entity {e : Entity} : (entity e).Clean ↔ e.Valid := by
  simp only [entity, clean_bind, fieldNames, clean_fieldNamesFrom, fresh_nil_seen, clean_filters,
    clean_softDeletion, clean_commands, clean_indexes, clean_projections, true_and]
  constructor
  · rintro ⟨⟨hf, hc, hi⟩, ⟨hn, hci⟩, hx, hp⟩
    exact ⟨hf, hc, fun f h => (hi f h).1, fun f h => (hi f h).2, hn, hci, hx, hp⟩
  · intro h
    exact ⟨⟨h.fieldNames_nodup, h.columnNames_nodup, fun f hf => ⟨h.fieldName_isIdentifier f hf,
      h.fieldName_not_reserved f hf⟩⟩, ⟨h.commandNames_nodup, h.commandName_isIdentifier⟩,
      h.indexNames_nodup, h.projectionNames_nodup⟩

end Validation

end EntityForge
