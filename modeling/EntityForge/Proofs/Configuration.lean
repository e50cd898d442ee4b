import EntityForge.Document.Declaration
import EntityForge.Proofs.Name

/-!
# Configurations that are valid

A configuration is valid if it was accepted when it was read, or when settings of a valid one were
assigned. Of all settings only the name of the package is held to more than a shape: it is an
identifier in every valid configuration.
-/

namespace EntityForge

namespace Schema.Checked

variable {α β : Type}

/-- A function applied to a checked value gives what it makes of an accepted one. -/
theorem map_eq_accepted {f : α → β} {x : Checked α} {b : β} :
    f <$> x = .accepted b ↔ ∃ a, x = .accepted a ∧ f a = b := by
  cases x with
  | accepted a =>
    constructor
    · intro h
      exact ⟨a, rfl, Checked.accepted.inj h⟩
    · rintro ⟨a', ha, rfl⟩
      exact congrArg (fun a => Checked.accepted (f a)) (Checked.accepted.inj ha)
  | rejected vs =>
    constructor
    · intro h
      exact nomatch h
    · rintro ⟨a', ha, -⟩
      exact nomatch ha

/-- A checked function gives something only if it and its argument are accepted. -/
theorem seq_eq_accepted {f : Checked (α → β)} {x : Checked α} {b : β} :
    f <*> x = .accepted b ↔ ∃ g a, f = .accepted g ∧ x = .accepted a ∧ g a = b := by
  cases f with
  | accepted g =>
    cases x with
    | accepted a =>
      constructor
      · intro h
        exact ⟨g, a, rfl, rfl, Checked.accepted.inj h⟩
      · rintro ⟨g', a', hg, ha, rfl⟩
        rw [Checked.accepted.inj hg, Checked.accepted.inj ha]
        rfl
    | rejected vs =>
      constructor
      · intro h
        exact nomatch h
      · rintro ⟨g', a', -, ha, -⟩
        exact nomatch ha
  | rejected vs =>
    constructor
    · intro h
      exact nomatch h
    · rintro ⟨g', a', hg, -⟩
      exact nomatch hg

theorem within_eq_accepted {x : Checked α} {step : Step} {a : α} :
    x.within step = .accepted a ↔ x = .accepted a := by
  cases x with
  | accepted b => exact Iff.rfl
  | rejected vs =>
    constructor
    · intro h
      exact nomatch h
    · intro h
      exact nomatch h

/-- What passes a further check was accepted before. -/
theorem ensure_eq_accepted {x : Checked α} {check : α → Checked β} {b : β} :
    x.ensure check = .accepted b ↔ ∃ a, x = .accepted a ∧ check a = .accepted b := by
  cases x with
  | accepted a =>
    constructor
    · intro h
      exact ⟨a, rfl, h⟩
    · rintro ⟨a', ha, h⟩
      rwa [Checked.accepted.inj ha]
  | rejected vs =>
    constructor
    · intro h
      exact nomatch h
    · rintro ⟨a', ha, -⟩
      exact nomatch ha

end Schema.Checked

namespace Schema

variable {α : Type}

/-- An entry with a default is that, or what its check makes of the value. -/
theorem of_withDefault {entries : Entries} {key : String} {value a : α} {check : Check α}
    (h : withDefault entries key value check = .accepted a) :
    a = value ∨ ∃ v, check v = .accepted a := by
  unfold withDefault at h
  split at h
  · rename_i v _
    exact Or.inr ⟨v, Checked.within_eq_accepted.mp h⟩
  · exact Or.inl (Checked.accepted.inj h).symm

/-- A record that is accepted passes the check of its entries. -/
theorem of_closedRecord {name : String} {declared : List String} {check : Entries → Checked α}
    {v : Value} {a : α} (h : closedRecord name declared check v = .accepted a) :
    ∃ entries, check entries = .accepted a := by
  unfold closedRecord record at h
  split at h
  · rename_i entries
    obtain ⟨g, u, hg, -, rfl⟩ := Checked.seq_eq_accepted.mp h
    obtain ⟨a, ha, rfl⟩ := Checked.map_eq_accepted.mp hg
    exact ⟨entries, ha⟩
  · exact nomatch h

end Schema

namespace GenerationConfig

open Schema

/-- The configurations that a program can have: those read from a value, and those made from them
by assigning settings. -/
inductive Validated : GenerationConfig → Prop where
  | read {v : Value} {c : GenerationConfig} (h : check v = .accepted c) : Validated c
  | assigned {c c' : GenerationConfig} {name : String} {v : Value} (hc : Validated c)
      (h : c.assign name v = .accepted c') : Validated c'

theorem isIdentifier_of_packageNameCheck {v : Value} {s : String}
    (h : packageNameCheck v = .accepted s) : Source.isIdentifier s = true := by
  obtain ⟨t, -, h⟩ := Checked.ensure_eq_accepted.mp h
  split at h
  · rename_i hid
    rwa [← Checked.accepted.inj h]
  · exact nomatch h

/-- The name of the package is an identifier when a configuration is read. -/
theorem packageName_of_check {v : Value} {c : GenerationConfig} (h : check v = .accepted c) :
    Source.isIdentifier c.packageName = true := by
  obtain ⟨entries, hall⟩ := of_closedRecord h
  -- The settings are taken off from the last one on.
  obtain ⟨_, _, hstrict, -, rfl⟩ := Checked.seq_eq_accepted.mp hall
  obtain ⟨_, _, hdirectory, -, rfl⟩ := Checked.seq_eq_accepted.mp hstrict
  obtain ⟨_, _, hruntime, -, rfl⟩ := Checked.seq_eq_accepted.mp hdirectory
  obtain ⟨_, _, hpackage, -, rfl⟩ := Checked.seq_eq_accepted.mp hruntime
  obtain ⟨_, packageName, hversion, hname, rfl⟩ := Checked.seq_eq_accepted.mp hpackage
  obtain ⟨_, _, hproject, -, rfl⟩ := Checked.seq_eq_accepted.mp hversion
  obtain ⟨_, -, rfl⟩ := Checked.map_eq_accepted.mp hproject
  show Source.isIdentifier packageName = true
  rcases of_withDefault hname with rfl | ⟨v, hv⟩
  · decide
  · exact isIdentifier_of_packageNameCheck hv

/-- The name of the package stays an identifier when a setting is assigned. -/
theorem packageName_of_assign {c c' : GenerationConfig} {name : String} {v : Value}
    (hc : Source.isIdentifier c.packageName = true) (h : c.assign name v = .accepted c') :
    Source.isIdentifier c'.packageName = true := by
  have h := Checked.within_eq_accepted.mp h
  split at h
  case h_3 =>
    obtain ⟨s, hs, rfl⟩ := Checked.map_eq_accepted.mp h
    exact isIdentifier_of_packageNameCheck hs
  case h_8 => exact nomatch h
  all_goals
    obtain ⟨s, -, rfl⟩ := Checked.map_eq_accepted.mp h
    exact hc

/-- The name of the package is an identifier in every valid configuration. -/
theorem Validated.packageName {c : GenerationConfig} (h : c.Validated) :
    Source.isIdentifier c.packageName = true := by
  induction h with
  | read h => exact packageName_of_check h
  | assigned _ h ih => exact packageName_of_assign ih h

end GenerationConfig

end EntityForge
