import EntityForge.Diagnostic

/-!
# Computations without an error

A computation is clean when none of the findings it records is an error. Findings are only ever
appended, so a computation is clean exactly when all its steps are: the equations below push the
question from a whole down to the single findings, which decide it by their severity.
-/

namespace EntityForge

/-- What a computation went through that ends with a result. -/
theorem exists_of_bind_eq_ok {α β ε : Type} {x : Except ε α} {f : α → Except ε β} {b : β}
    (h : x >>= f = .ok b) : ∃ a, x = .ok a ∧ f a = .ok b := by
  cases x with
  | error fault => simp [Bind.bind, Except.bind] at h
  | ok a => exact ⟨a, rfl, h⟩

/-- Where a computation that ends without a result can have ended. -/
theorem eq_error_of_bind {α β ε : Type} {x : Except ε α} {f : α → Except ε β} {fault : ε}
    (h : x >>= f = .error fault) : x = .error fault ∨ ∃ a, x = .ok a ∧ f a = .error fault := by
  cases x with
  | error first => exact Or.inl (congrArg _ (Except.error.inj h))
  | ok a => exact Or.inr ⟨a, rfl, h⟩

namespace Diagnostics

@[simp] theorem hasErrors_nil : hasErrors [] = false := rfl

@[simp] theorem hasErrors_cons (d : Diagnostic) (ds : Diagnostics) :
    hasErrors (d :: ds) = (d.isError || hasErrors ds) := rfl

@[simp] theorem hasErrors_append (xs ys : Diagnostics) :
    hasErrors (xs ++ ys) = (hasErrors xs || hasErrors ys) :=
  List.any_append

theorem errors_eq_nil_iff {ds : Diagnostics} : errors ds = [] ↔ hasErrors ds = false := by
  rw [errors, List.filter_eq_nil_iff, hasErrors, List.any_eq_false]

theorem errors_append (xs ys : Diagnostics) : errors (xs ++ ys) = errors xs ++ errors ys :=
  List.filter_append xs ys

end Diagnostics

namespace Noted

variable {α β : Type}

/-- No finding is an error. -/
def Clean (x : Noted α) : Prop := Diagnostics.hasErrors x.notes = false

instance (x : Noted α) : Decidable x.Clean := inferInstanceAs (Decidable (_ = false))

/-- A computation that is not clean has recorded an error. -/
theorem not_clean_iff {x : Noted α} : ¬ x.Clean ↔ Diagnostics.hasErrors x.notes = true := by
  rw [Clean, Bool.not_eq_false]

@[simp] theorem clean_pure (a : α) : (pure a : Noted α).Clean := rfl

/-- Running one computation after another is clean when both are. -/
@[simp] theorem clean_bind (x : Noted α) (f : α → Noted β) :
    (x >>= f).Clean ↔ x.Clean ∧ (f x.value).Clean := by
  simp only [Clean, notes_bind, Diagnostics.hasErrors_append, Bool.or_eq_false_iff]

@[simp] theorem not_clean_error (code message : String) (context : Context) :
    ¬ (Noted.error code message context).Clean := Bool.noConfusion

@[simp] theorem clean_warning (code message : String) (context : Context) :
    (Noted.warning code message context).Clean := rfl

@[simp] theorem clean_info (code message : String) (context : Context) :
    (Noted.info code message context).Clean := rfl

/-- What is found about items is what is found about each of them, in their order. -/
theorem notes_each (f : α → Noted Unit) (as : List α) :
    (each f as).notes = as.flatMap fun a => (f a).notes := by
  induction as with
  | nil => rfl
  | cons a as ih => rw [each, notes_bind, ih, List.flatMap_cons]

theorem notes_collect (f : α → Noted (Option β)) (as : List α) :
    (collect f as).notes = as.flatMap fun a => (f a).notes := by
  induction as with
  | nil => rfl
  | cons a as ih =>
    rw [collect, notes_bind, notes_bind, ih, notes_pure, List.append_nil, List.flatMap_cons]

/-- Collecting keeps the results of the single items in their order. -/
theorem value_collect (f : α → Noted (Option β)) (as : List α) :
    (collect f as).value = as.filterMap fun a => (f a).value := by
  induction as with
  | nil => rfl
  | cons a as ih =>
    simp only [collect, value_bind, value_pure, ih, List.filterMap_cons]
    cases (f a).value <;> rfl

/-- Nothing is collected that is not the result of an item. -/
theorem mem_value_collect {f : α → Noted (Option β)} {as : List α} {b : β} :
    b ∈ (collect f as).value ↔ ∃ a ∈ as, (f a).value = some b := by
  rw [value_collect, List.mem_filterMap]

@[simp] theorem clean_collect (f : α → Noted (Option β)) (as : List α) :
    (collect f as).Clean ↔ ∀ a ∈ as, (f a).Clean := by
  induction as with
  | nil => simp [collect]
  | cons a as ih => simp [collect, ih]

@[simp] theorem clean_each (f : α → Noted Unit) (as : List α) :
    (each f as).Clean ↔ ∀ a ∈ as, (f a).Clean := by
  induction as with
  | nil => simp [each]
  | cons a as ih => simp [each, ih]

end Noted

end EntityForge
