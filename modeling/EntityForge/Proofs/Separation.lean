import EntityForge.Proofs.Attribution
import Mathlib.Data.List.Perm.Basic

/-!
# Attributes are read apart

The attributes of an entity or a field are read one after another, each by its own reader from the
entry under its own key. No reader looks at another entry, nor at what was found before it, so that
a fault neither hides nor causes another: what is found about a mapping is what is found about each
of its entries alone, in some order, and each part of the result is that of the entry under its key.
The order is that of the readers and not that of the entries, which is why the findings are compared
as a permutation.
-/

namespace EntityForge

namespace Value

variable {key : String} {entries : Entries}

/-- The mapping that holds one key alone. -/
def only (key : String) (entries : Entries) : Entries :=
  ((lookup key entries).map fun v => (.text key, v)).toList

@[simp] theorem lookup_only (key : String) (entries : Entries) :
    lookup key (only key entries) = lookup key entries := by
  cases h : lookup key entries <;> simp [only, lookup, h]

@[simp] theorem lookupPresent_only (key : String) (entries : Entries) :
    lookupPresent key (only key entries) = lookupPresent key entries := by
  simp only [lookupPresent, lookup_only]

/-- A key is looked up in one entry after another. -/
theorem lookup_cons (key : String) (e : Value × Value) (rest : Entries) :
    lookup key (e :: rest) = (lookup key [e]).or (lookup key rest) := by
  obtain ⟨k, v⟩ := e
  cases k with
  | text s => by_cases hs : s = key <;> simp [lookup, hs]
  | _ => simp [lookup]

/-- A key that one entry has is under no later one. -/
theorem lookup_eq_none_of_distinct {e : Value × Value} {rest : Entries} {value : Value}
    (h : Distinct (e :: rest)) (he : lookup key [e] = some value) : lookup key rest = none := by
  obtain ⟨k, v⟩ := e
  obtain rfl : k = .text key := by
    cases k with
    | text s => by_cases hs : s = key <;> simp [lookup, hs] at he ⊢
    | _ => simp [lookup] at he
  have hlater := (List.pairwise_cons.mp h).1
  clear h he
  induction rest with
  | nil => rfl
  | cons f rest ih =>
    obtain ⟨hf, hrest⟩ := List.forall_mem_cons.mp hlater
    have hother : lookup key [f] = none := by
      obtain ⟨k', v'⟩ := f
      cases k' with
      | text s =>
        have hne : ¬ s = key := fun heq => by simp [sameKey, heq] at hf
        simp [lookup, hne]
      | _ => simp [lookup]
    rw [lookup_cons, hother, Option.none_or]
    exact ih hrest

end Value

namespace Attribute

open Noted

/-! ## Findings -/

/-- What is found about a mapping is what is found about each of its entries alone. -/
def Apart (found : Entries → Diagnostics) : Prop :=
  ∀ entries, Value.Distinct entries → (found entries).Perm (entries.flatMap fun e => found [e])

/-- Two readers after each other read apart if both do. -/
theorem Apart.append {found next : Entries → Diagnostics} (hf : Apart found) (hn : Apart next) :
    Apart fun entries => found entries ++ next entries := by
  intro entries h
  exact ((hf entries h).append (hn entries h)).trans (List.flatMap_append_perm entries _ _)

/-- Every entry is checked for itself. -/
theorem apart_noteUnknown (known : List String) (site : Site) :
    Apart fun entries => (noteUnknown entries known site).notes := by
  intro entries _
  simp only [noteUnknown, notes_each, List.flatMap_cons, List.flatMap_nil, List.append_nil]
  exact List.Perm.refl _

section Reader

variable {α : Type} (key : String) (absent : α) (read : Value → Noted α)

/-- What is found under a key, if it is there. -/
theorem notes_given (entries : Entries) : (given entries key absent read).notes =
    (Value.lookup key entries).toList.flatMap fun v => (read v).notes := by
  unfold given
  cases Value.lookup key entries with
  | none => rfl
  | some v => rw [Option.toList_some, List.flatMap_singleton]

/-- A reader reads the one entry under its key. -/
theorem apart_given : Apart fun entries => (given entries key absent read).notes := by
  intro entries h
  refine List.Perm.of_eq ?_
  simp only [notes_given]
  induction entries with
  | nil => rfl
  | cons e rest ih =>
    have hrest := ih (List.Pairwise.of_cons h)
    rw [List.flatMap_cons, ← hrest, Value.lookup_cons]
    cases he : Value.lookup key [e] with
    | none => simp
    | some v => simp [Value.lookup_eq_none_of_distinct h he]

/-- To leave out null is to read it as nothing. -/
theorem present_eq_given (entries : Entries) : present entries key absent read =
    given entries key absent fun v =>
      match v with
      | .null => pure absent
      | v => read v := by
  unfold present given Value.lookupPresent
  cases Value.lookup key entries with
  | none => rfl
  | some v => cases v <;> rfl

theorem apart_present : Apart fun entries => (present entries key absent read).notes := by
  simp only [present_eq_given]
  exact apart_given key absent _

end Reader

variable {site : Site}

theorem apart_feature (key : String) :
    Apart fun entries => (feature entries site key).notes :=
  apart_given key false _

theorem apart_features : Apart fun entries => (features entries site).notes := by
  simp only [features, notes_bind, notes_pure, List.append_nil]
  exact (apart_feature "events").append <| (apart_feature "hooks").append <|
    (apart_feature "commands").append <| (apart_feature "policy").append <|
    (apart_feature "streams").append <| (apart_feature "transactions").append <|
    apart_feature "migrations"

theorem apart_entityAttributes (entity : String) :
    Apart fun entries => (entityAttributes entity entries).notes := by
  simp only [entityAttributes, notes_bind, notes_pure, List.append_nil]
  exact (apart_noteUnknown _ _).append <| (apart_given _ _ _).append <|
    (apart_given _ _ _).append <| (apart_given _ _ _).append <| (apart_given _ _ _).append <|
    (apart_given _ _ _).append <| (apart_given _ _ _).append <| (apart_present _ _ _).append <|
    (apart_given _ _ _).append <| (apart_given _ _ _).append <| apart_features.append <|
    (apart_present _ _ _).append <| (apart_present _ _ _).append <|
    (apart_present _ _ _).append (apart_present _ _ _)

theorem apart_fieldAttributes (entity field : String) :
    Apart fun entries => (fieldAttributes entity field entries).notes := by
  simp only [fieldAttributes, notes_bind, notes_pure, List.append_nil]
  exact (apart_noteUnknown _ _).append <| (apart_given _ _ _).append <|
    (apart_given _ _ _).append <| (apart_given _ _ _).append <| (apart_given _ _ _).append <|
    (apart_given _ _ _).append (apart_present _ _ _)

/-! ## Results -/

@[simp] theorem given_only {α : Type} (entries : Entries) (key : String) (absent : α)
    (read : Value → Noted α) :
    given (Value.only key entries) key absent read = given entries key absent read := by
  simp only [given, Value.lookup_only]

@[simp] theorem present_only {α : Type} (entries : Entries) (key : String) (absent : α)
    (read : Value → Noted α) :
    present (Value.only key entries) key absent read = present entries key absent read := by
  simp only [present, Value.lookupPresent_only]

/-- The attributes of an entity of which each is taken from a reading of its own. -/
def EntityAttributes.gather (reading : String → EntityAttributes) : EntityAttributes where
  table := (reading "table").table
  schema := (reading "schema").schema
  dialect := (reading "dialect").dialect
  uuidVersion := (reading "uuid").uuidVersion
  errorType := (reading "error").errorType
  softDelete := (reading "soft_delete").softDelete
  returning := (reading "returning").returning
  sqlLevel := (reading "sql").sqlLevel
  hasMany := (reading "has_many").hasMany
  projections := (reading "projections").projections
  indexes := (reading "indexes").indexes
  commands := (reading "commands").commands
  features := {
    events := (reading "events").features.events
    hooks := (reading "hooks").features.hooks
    commands := (reading "commands").features.commands
    policy := (reading "policy").features.policy
    streams := (reading "streams").features.streams
    transactions := (reading "transactions").features.transactions
    migrations := (reading "migrations").features.migrations }
  api := (reading "api").api

/-- The attributes of a field of which each is taken from a reading of its own. -/
def FieldAttributes.gather (reading : String → FieldAttributes) : FieldAttributes where
  exposure := (reading "field").exposure
  storage := {
    isId := (reading "id").storage.isId
    isAuto := (reading "auto").storage.isAuto
    belongsTo := (reading "belongs_to").storage.belongsTo
    onDelete := (reading "belongs_to").storage.onDelete }
  filter := (reading "filter").filter
  column := (reading "column").column

/-- Each attribute of an entity depends on its own entry alone. -/
theorem value_entityAttributes (entity : String) (entries : Entries) :
    (entityAttributes entity entries).value = EntityAttributes.gather fun key =>
      (entityAttributes entity (Value.only key entries)).value := by
  simp only [entityAttributes, features, feature, EntityAttributes.gather, value_bind, value_pure,
    given_only, present_only]

/-- Each attribute of a field depends on its own entry alone. -/
theorem value_fieldAttributes (entity field : String) (entries : Entries) :
    (fieldAttributes entity field entries).value = FieldAttributes.gather fun key =>
      (fieldAttributes entity field (Value.only key entries)).value := by
  simp only [fieldAttributes, FieldAttributes.gather, value_bind, value_pure, given_only,
    present_only]

/-! ## Readings -/

/-- The entries of a mapping are read apart, behind the findings that are recorded already: what is
found is appended, it is what is found about each entry alone, and all of it belongs to the owner;
and each part of the result is that of its own entry. -/
structure ReadApart {α : Type} (owner : Site) (read : Entries → Noted α)
    (gather : (String → α) → α) (entries : Entries) (log : Diagnostics) : Prop where
  findings : ∃ added, ((read entries).after log).2 = log ++ added ∧
    added.Perm (entries.flatMap fun e => (read [e]).notes) ∧
    ∀ d ∈ added, owner.label.toList <+: d.message.toList ∧
      ∀ entry ∈ owner.context, d.context.lookup entry.1 = some entry.2
  value : ((read entries).after log).1 = gather fun key => (read (Value.only key entries)).value

theorem readApart_of_apart {α : Type} {owner : Site} {read : Entries → Noted α}
    {gather : (String → α) → α} {entries : Entries} (hd : Value.Distinct entries)
    (hnames : ∀ entry ∈ owner.context,
      entry.1 ∈ ownerNames ∧ owner.context.lookup entry.1 = some entry.2)
    (hapart : Apart fun entries => (read entries).notes)
    (hattributed : (read entries).Every (Attributed owner))
    (hvalue : (read entries).value = gather fun key => (read (Value.only key entries)).value)
    (log : Diagnostics) : ReadApart owner read gather entries log := by
  refine ⟨⟨(read entries).notes, rfl, hapart entries hd, fun d hd => ?_⟩, hvalue⟩
  have h := hattributed d hd
  refine ⟨h.message, fun entry he => ?_⟩
  obtain ⟨hname, hlookup⟩ := hnames entry he
  rw [h.context entry.1 hname, hlookup]

variable {entries : Entries}

/-- The attributes of a widget with a fault in nearly every one, not written in the order in which
they are read. -/
def widgetAttributes : Entries :=
  [(.text "commands", .list [.text "Open",
      .map [(.text "name", .text "Go"), (.text "bogus", .int 1)]]),
    (.text "colour", .text "red"), (.text "events", .text "sometimes"),
    (.text "dialect", .text "oracle"), (.text "table", .text "widgets")]

end Attribute

end EntityForge
