import EntityForge.Transaction.Block
import Mathlib.Logic.Relation

/-!
# What comes out of nested transactions

A block can go six ways, and each of them fixes the calls of the driver and what comes out. Blocks
are nested by their bodies, so that what holds of every block of a program follows by induction on
the bodies. A failure passes through a block whose rollback succeeds without being touched; the one
that leaves a program was therefore made by the innermost block that it left.
-/

namespace EntityForge.Transaction

open Relation

/-- The calls of the driver in a run. -/
def Run.calls (r : Run) : List Action :=
  r.actions.filter fun a => a = .start ∨ a = .commit ∨ a = .rollback

/-- A block as it stands in a program: what its pool refuses it a connection with, if it does, its
driver and its body. -/
structure Block where
  refusal : Option Escape := none
  driver : Driver := {}
  body : Body

namespace Block

variable {b c o s : Block} {e : Escape} {f : Failure}

/-- How the body ends once it is run. -/
def ending (b : Block) : Option Escape := b.body.run.2

/-- The body is run: there is a connection, and the transaction starts. -/
def Begins (b : Block) : Prop := b.refusal = none ∧ b.driver.start = none

/-- What the block does and what comes out of it. -/
def run (b : Block) : Run := enter b.refusal b.driver b.ending

/-- The runs of the block and of all blocks inside, in the order in which they end. -/
def runs (b : Block) : List Run :=
  (if begins b.refusal b.driver then b.body.run.1 else []) ++ [b.run]

theorem begins_iff : begins b.refusal b.driver = true ↔ b.Begins := by
  rw [begins, Bool.and_eq_true, Option.isNone_iff_eq_none, Option.isNone_iff_eq_none, Begins]

/-! ## The ways of a block -/

/-- The ways in which a block can go, each with its run. -/
inductive Way (b : Block) : Run → Prop
  | refused {e : Escape} (refuses : b.refusal = some e) : Way b ⟨[.acquire], some e, none⟩
  | unstarted {r : Raised} (connects : b.refusal = none) (fails : b.driver.start = some r) :
    Way b ⟨[.acquire, .start, .release], some (.failed ⟨.start, r⟩), some (.raised r)⟩
  | committed (begins : b.Begins) (completes : b.ending = none) (succeeds : b.driver.commit = none) :
    Way b ⟨[.acquire, .start, .body, .commit, .release], none, none⟩
  | uncommitted {r : Raised} (begins : b.Begins) (completes : b.ending = none)
    (fails : b.driver.commit = some r) :
    Way b ⟨[.acquire, .start, .body, .commit, .release], some (.failed ⟨.commit, r⟩),
      some (.raised r)⟩
  | rolledBack {e : Escape} (begins : b.Begins) (raises : b.ending = some e)
    (succeeds : b.driver.rollback = none) :
    Way b ⟨[.acquire, .start, .body, .rollback, .release], some (afterRollback e).1,
      (afterRollback e).2⟩
  | stuck {e : Escape} {r : Raised} (begins : b.Begins) (raises : b.ending = some e)
    (fails : b.driver.rollback = some r) :
    Way b ⟨[.acquire, .start, .body, .rollback, .release], some (.failed ⟨.rollback, r⟩), some e⟩

/-- Every block goes one of these ways. -/
theorem exists_way (b : Block) : ∃ r, b.Way r := by
  cases hrefusal : b.refusal with
  | some e => exact ⟨_, .refused hrefusal⟩
  | none =>
    cases hstart : b.driver.start with
    | some r => exact ⟨_, .unstarted hrefusal hstart⟩
    | none =>
      have hbegins : b.Begins := ⟨hrefusal, hstart⟩
      cases hending : b.ending with
      | none =>
        cases hcommit : b.driver.commit with
        | none => exact ⟨_, .committed hbegins hending hcommit⟩
        | some r => exact ⟨_, .uncommitted hbegins hending hcommit⟩
      | some e =>
        cases hrollback : b.driver.rollback with
        | none => exact ⟨_, .rolledBack hbegins hending hrollback⟩
        | some r => exact ⟨_, .stuck hbegins hending hrollback⟩

theorem run_of_begins (h : b.Begins) : b.run =
    ⟨[.acquire, .start, .body] ++ (finish b.driver b.ending).1 ++ [.release],
      (finish b.driver b.ending).2.1, (finish b.driver b.ending).2.2⟩ := by
  rw [run, h.1, enter, block, h.2]

/-- The way of a block is its run. -/
theorem run_of_way {r : Run} (h : b.Way r) : b.run = r := by
  cases h with
  | refused refuses => rw [run, refuses, enter]
  | unstarted connects fails => rw [run, connects, enter, block, fails]
  | committed begins completes succeeds =>
    rw [run_of_begins begins, completes, finish, succeeds]
    rfl
  | uncommitted begins completes fails =>
    rw [run_of_begins begins, completes, finish, fails]
    rfl
  | rolledBack begins raises succeeds =>
    rw [run_of_begins begins, raises, finish, succeeds]
    rfl
  | stuck begins raises fails =>
    rw [run_of_begins begins, raises, finish, fails]
    rfl

/-- A block that is refused a connection, or whose transaction does not start, ends nothing. -/
theorem ends_nothing_of_not_begins (h : ¬ b.Begins) :
    .commit ∉ b.run.calls ∧ .rollback ∉ b.run.calls := by
  obtain ⟨r, hway⟩ := b.exists_way
  rw [run_of_way hway]
  cases hway with
  | refused | unstarted => simp [Run.calls]
  | committed begins | uncommitted begins | rolledBack begins | stuck begins => exact absurd begins h

theorem calls_of_completed (h : b.Begins) (hending : b.ending = none) :
    b.run.calls = [.start, .commit] := by
  cases hcommit : b.driver.commit with
  | none =>
    rw [run_of_way (.committed h hending hcommit)]
    rfl
  | some r =>
    rw [run_of_way (.uncommitted h hending hcommit)]
    rfl

theorem calls_of_raised (h : b.Begins) (hending : b.ending = some e) :
    b.run.calls = [.start, .rollback] := by
  cases hrollback : b.driver.rollback with
  | none =>
    rw [run_of_way (.rolledBack h hending hrollback)]
    rfl
  | some r =>
    rw [run_of_way (.stuck h hending hrollback)]
    rfl

theorem commit_mem_calls_iff : .commit ∈ b.run.calls ↔ b.Begins ∧ b.ending = none := by
  by_cases h : b.Begins
  · cases hending : b.ending with
    | none => simp [calls_of_completed h hending, h]
    | some e => simp [calls_of_raised h hending]
  · simp [ends_nothing_of_not_begins h, h]

theorem rollback_mem_calls_iff : .rollback ∈ b.run.calls ↔ b.Begins ∧ b.ending ≠ none := by
  by_cases h : b.Begins
  · cases hending : b.ending with
    | none => simp [calls_of_completed h hending]
    | some e => simp [calls_of_raised h hending, h]
  · simp [ends_nothing_of_not_begins h, h]

/-- What a block does with its driver, and what comes out of it. -/
structure Disciplined (b : Block) : Prop where
  calls : b.run.calls = [] ∨ b.run.calls = [.start] ∨ b.run.calls = [.start, .commit] ∨
    b.run.calls = [.start, .rollback]
  commit_iff : .commit ∈ b.run.calls ↔ b.Begins ∧ b.ending = none
  rollback_iff : .rollback ∈ b.run.calls ↔ b.Begins ∧ b.ending ≠ none
  startFailure : ∀ r, b.refusal = none → b.driver.start = some r →
    b.run.escape = some (.failed ⟨.start, r⟩)
  commitFailure : ∀ r, .commit ∈ b.run.calls → b.driver.commit = some r →
    b.run.escape = some (.failed ⟨.commit, r⟩)
  rollbackFailure : ∀ r, .rollback ∈ b.run.calls → b.driver.rollback = some r →
    b.run.escape = some (.failed ⟨.rollback, r⟩)
  success : .commit ∈ b.run.calls → b.driver.commit = none → b.run.escape = none
  operation : ∀ r, .rollback ∈ b.run.calls → b.driver.rollback = none →
    b.ending = some (.raised r) →
      b.run.escape = some (.failed ⟨.operation, r⟩) ∧ b.run.cause = some (.raised r)
  unchanged : ∀ e, .rollback ∈ b.run.calls → b.driver.rollback = none → b.ending = some e →
    (∀ r, e ≠ .raised r) → b.run.escape = some e

/-- Every block keeps to the discipline. -/
theorem disciplined (b : Block) : b.Disciplined := by
  constructor
  case calls =>
    obtain ⟨r, hway⟩ := b.exists_way
    rw [run_of_way hway]
    cases hway <;> simp [Run.calls]
  case commit_iff => exact commit_mem_calls_iff
  case rollback_iff => exact rollback_mem_calls_iff
  case startFailure =>
    intro r hconnects hfails
    rw [run_of_way (.unstarted hconnects hfails)]
  case commitFailure =>
    intro r hcommit hfails
    obtain ⟨hbegins, hending⟩ := commit_mem_calls_iff.mp hcommit
    rw [run_of_way (.uncommitted hbegins hending hfails)]
  case rollbackFailure =>
    intro r hrollback hfails
    obtain ⟨hbegins, hending⟩ := rollback_mem_calls_iff.mp hrollback
    obtain ⟨e, he⟩ := Option.ne_none_iff_exists'.mp hending
    rw [run_of_way (.stuck hbegins he hfails)]
  case success =>
    intro hcommit hsucceeds
    obtain ⟨hbegins, hending⟩ := commit_mem_calls_iff.mp hcommit
    rw [run_of_way (.committed hbegins hending hsucceeds)]
  case operation =>
    intro r hrollback hsucceeds hending
    have hbegins := (rollback_mem_calls_iff.mp hrollback).1
    rw [run_of_way (.rolledBack hbegins hending hsucceeds)]
    exact ⟨rfl, rfl⟩
  case unchanged =>
    intro e hrollback hsucceeds hending hother
    have hbegins := (rollback_mem_calls_iff.mp hrollback).1
    rw [run_of_way (.rolledBack hbegins hending hsucceeds)]
    cases e with
    | raised r => exact absurd rfl (hother r)
    | failed f => rfl
    | interrupted r => rfl

end Block

/-! ## Blocks inside -/

namespace Body

variable {body : Body} {refusal : Option Escape} {d : Driver} {next : Option Escape → Body}
  {r : Run}

/-- The blocks that a body opens one after the other when it is run, without those inside them. -/
inductive Opens : Body → Block → Prop
  | first {refusal : Option Escape} {d : Driver} {inner : Body} {next : Option Escape → Body} :
    Opens (.nested refusal d inner next) ⟨refusal, d, inner⟩
  | later {refusal : Option Escape} {d : Driver} {inner : Body} {next : Option Escape → Body}
    {c : Block} (rest : Opens (next (Block.run ⟨refusal, d, inner⟩).escape) c) :
    Opens (.nested refusal d inner next) c

/-- A body runs the block inside and then goes on with what came out of it. -/
theorem run_nested (refusal : Option Escape) (d : Driver) (inner : Body)
    (next : Option Escape → Body) :
    (nested refusal d inner next).run =
      (Block.runs ⟨refusal, d, inner⟩ ++ (next (Block.run ⟨refusal, d, inner⟩).escape).run.1,
        (next (Block.run ⟨refusal, d, inner⟩).escape).run.2) := by
  -- What the body of a block that does not begin would do makes no difference to it.
  have henter : enter refusal d (if begins refusal d then inner.run else ([], none)).2 =
      Block.run ⟨refusal, d, inner⟩ := by
    rw [Block.run, Block.ending]
    cases refusal with
    | some e => rfl
    | none => cases hstart : d.start <;> simp [enter, block, begins, hstart]
  rw [Body.run, henter, Block.runs, List.append_assoc, List.singleton_append]
  cases begins refusal d <;> rfl

/-- The runs inside a body are those of the blocks that it opens, with all inside them. -/
theorem mem_run_iff : r ∈ body.run.1 ↔ ∃ c, body.Opens c ∧ r ∈ c.runs := by
  induction body with
  | done escape =>
    constructor
    · intro h
      exact nomatch h
    · rintro ⟨c, hopens, -⟩
      exact nomatch hopens
  | nested refusal d inner next _ ihNext =>
    rw [run_nested, List.mem_append, ihNext]
    constructor
    · rintro (h | ⟨c, hopens, hr⟩)
      · exact ⟨_, .first, h⟩
      · exact ⟨c, .later hopens, hr⟩
    · rintro ⟨c, hopens, hr⟩
      cases hopens with
      | first => exact Or.inl hr
      | later rest => exact Or.inr ⟨c, rest, hr⟩

end Body

namespace Block

variable {b c o s : Block} {e : Escape} {f : Failure} {r : Run}

/-- The block opens another one in its body, which is run. -/
def Opens (b c : Block) : Prop := b.Begins ∧ b.body.Opens c

/-- A block is the program itself or inside it, at any depth. -/
def Within (o b : Block) : Prop := ReflTransGen Opens o b

/-- What holds of a block if it holds of all that its body opens holds of every block. -/
theorem induction {P : Block → Prop} (step : ∀ b, (∀ c, b.body.Opens c → P c) → P b) (b : Block) :
    P b := by
  have hopened (body : Body) : ∀ c, body.Opens c → P c := by
    induction body with
    | done escape =>
      intro c hopens
      exact nomatch hopens
    | nested refusal d inner next ihInner ihNext =>
      intro c hopens
      cases hopens with
      | first => exact step _ ihInner
      | later rest => exact ihNext _ c rest
  exact step b (hopened b.body)

/-- The runs of a program are those of the blocks within it. -/
theorem mem_runs_iff (o : Block) (r : Run) : r ∈ o.runs ↔ ∃ b, o.Within b ∧ b.run = r := by
  induction o using Block.induction with
  | step o ih =>
    have hinside : r ∈ (if begins o.refusal o.driver then o.body.run.1 else []) ↔
        ∃ c, o.Opens c ∧ r ∈ c.runs := by
      by_cases h : o.Begins
      · rw [if_pos (begins_iff.mpr h), Body.mem_run_iff]
        simp [Opens, h]
      · rw [if_neg fun hbegins => h (begins_iff.mp hbegins)]
        simp [Opens, h]
    rw [runs, List.mem_append, hinside, List.mem_singleton]
    constructor
    · rintro (⟨c, hopens, hr⟩ | rfl)
      · obtain ⟨b, hwithin, hrun⟩ := (ih c hopens.2).mp hr
        exact ⟨b, .head hopens hwithin, hrun⟩
      · exact ⟨o, .refl, rfl⟩
    · rintro ⟨b, hwithin, hrun⟩
      rcases ReflTransGen.cases_head hwithin with rfl | ⟨c, hopens, hrest⟩
      · exact Or.inr hrun.symm
      · exact Or.inl ⟨c, hopens, (ih c hopens.2).mpr ⟨b, hrest, hrun⟩⟩

/-! ## Where a failure comes from -/

/-- A failure with which a block inside left goes through the body. -/
def Passes (f : Failure) (b c : Block) : Prop :=
  b.Opens c ∧ c.run.escape = some (.failed f) ∧ b.ending = some (.failed f)

/-- The innermost of the blocks through which a failure left a program. -/
def Innermost (f : Failure) (o s : Block) : Prop :=
  ReflTransGen (Passes f) o s ∧ ∀ c, ¬ s.Passes f c

/-- What makes a block leave with a failure that did not come to it from a block inside: each of the
stages, or a failure that was already one of some stage when the body or the pool raised it. -/
inductive Makes (b : Block) : Failure → Prop
  | start {r : Raised} (connects : b.refusal = none) (fails : b.driver.start = some r) :
    Makes b ⟨.start, r⟩
  | commit {r : Raised} (begins : b.Begins) (completes : b.ending = none)
    (fails : b.driver.commit = some r) : Makes b ⟨.commit, r⟩
  | operation {r : Raised} (begins : b.Begins) (raises : b.ending = some (.raised r)) :
    Makes b ⟨.operation, r⟩
  | brought {f : Failure} (begins : b.Begins) (raises : b.ending = some (.failed f))
    (inside : ∀ c, b.Opens c → c.run.escape ≠ some (.failed f)) : Makes b f
  | refused {f : Failure} (refuses : b.refusal = some (.failed f)) : Makes b f

/-- Every rollback in a program succeeds. -/
def RollsBack (o : Block) : Prop :=
  ∀ b, o.Within b → .rollback ∈ b.run.calls → b.driver.rollback = none

/-- A failure with which a block leaves after no failed rollback is made there or came from inside. -/
theorem makes_or_passes (hrollback : .rollback ∈ b.run.calls → b.driver.rollback = none)
    (h : b.run.escape = some (.failed f)) : b.Makes f ∨ ∃ c, b.Passes f c := by
  obtain ⟨r, hway⟩ := b.exists_way
  rw [run_of_way hway] at h
  cases hway with
  | refused refuses => exact Or.inl (.refused (refuses.trans h))
  | unstarted connects fails =>
    cases h
    exact Or.inl (.start connects fails)
  | committed => exact nomatch h
  | uncommitted begins completes fails =>
    cases h
    exact Or.inl (.commit begins completes fails)
  | @rolledBack e begins raises succeeds =>
    cases e with
    | raised r =>
      cases h
      exact Or.inl (.operation begins raises)
    | failed f' =>
      cases h
      by_cases hpasses : ∃ c, b.Passes f c
      · exact Or.inr hpasses
      · refine Or.inl (.brought begins raises fun c hopens hescape => ?_)
        exact hpasses ⟨c, hopens, hescape, raises⟩
    | interrupted r => exact nomatch h
  | stuck begins raises fails =>
    have hcalled := rollback_mem_calls_iff.mpr ⟨begins, raises ▸ Option.some_ne_none _⟩
    exact nomatch (hrollback hcalled).symm.trans fails

theorem Passes.opens (h : b.Passes f c) : b.Opens c := h.1

/-- The blocks that a failure passes through are left with it. -/
theorem escape_of_passes (h : o.run.escape = some (.failed f)) (hpasses : ReflTransGen (Passes f) o s) :
    s.run.escape = some (.failed f) := by
  induction hpasses with
  | refl => exact h
  | tail _ hlast _ => exact hlast.2.1

/-- From every program that is left with a failure, the failure leads to an innermost block. -/
theorem exists_innermost (f : Failure) (o : Block) : ∃ s, Innermost f o s := by
  induction o using Block.induction with
  | step o ih =>
    by_cases h : ∃ c, o.Passes f c
    · obtain ⟨c, hpasses⟩ := h
      obtain ⟨s, hthrough, hlast⟩ := ih c hpasses.opens.2
      exact ⟨s, .head hpasses hthrough, hlast⟩
    · exact ⟨o, .refl, fun c hpasses => h ⟨c, hpasses⟩⟩

/-- The innermost block that a failure left has made it. -/
theorem makes_of_innermost (hrollback : o.RollsBack) (h : o.run.escape = some (.failed f))
    (hinnermost : Innermost f o s) : s.Makes f := by
  obtain ⟨hthrough, hlast⟩ := hinnermost
  have hopens : Passes f ≤ Opens := fun _ _ hpasses => hpasses.opens
  have hwithin : o.Within s := ReflTransGen.mono hopens _ _ hthrough
  rcases makes_or_passes (hrollback s hwithin) (escape_of_passes h hthrough) with hmakes | ⟨c, hpasses⟩
  · exact hmakes
  · exact absurd hpasses (hlast c)

end Block

/-! ## Drivers that never fail to roll back -/

/-- No driver in a body fails to roll back. -/
def Body.Steady : Body → Prop
  | .done _ => True
  | .nested _ d inner next => d.rollback = none ∧ inner.Steady ∧ ∀ e, (next e).Steady

/-- The blocks that a steady body opens are steady. -/
theorem Body.Steady.opened {body : Body} {c : Block} (h : body.Steady) (hopens : body.Opens c) :
    c.driver.rollback = none ∧ c.body.Steady := by
  induction hopens with
  | first => exact ⟨h.1, h.2.1⟩
  | later _ ih => exact ih (h.2.2 _)

namespace Block

theorem rollsBack_of_steady {o : Block} (hdriver : o.driver.rollback = none)
    (hbody : o.body.Steady) : o.RollsBack := by
  have hsteady {b : Block} (hwithin : o.Within b) :
      b.driver.rollback = none ∧ b.body.Steady := by
    induction hwithin with
    | refl => exact ⟨hdriver, hbody⟩
    | tail _ hlast ih => exact ih.2.opened hlast.2
  intro b hwithin _
  exact (hsteady hwithin).1

/-- The runs of a program are those of its blocks, each of which keeps to the discipline; and where
every rollback succeeds, a failure that leaves the program is the one that left the innermost block
on its way, and was made there. -/
theorem nesting_sound (o : Block) :
    (∀ r, r ∈ o.runs ↔ ∃ b, o.Within b ∧ b.run = r) ∧ (∀ b, o.Within b → b.Disciplined) ∧
    (o.RollsBack → ∀ f, o.run.escape = some (.failed f) → (∃ s, Innermost f o s) ∧
      ∀ s, Innermost f o s → s.run.escape = some (.failed f) ∧ s.Makes f) := by
  refine ⟨o.mem_runs_iff, fun b _ => b.disciplined, fun hrollback f h => ⟨exists_innermost f o, ?_⟩⟩
  intro s hinnermost
  exact ⟨escape_of_passes h hinnermost.1, makes_of_innermost hrollback h hinnermost⟩

/-- A program whose body puts up with a block that does not start, and then opens blocks of which
the innermost cannot commit. -/
def transfer : Block where
  body := .nested none { start := some ⟨.other "OSError", "connection lost"⟩ } (.done none) fun _ =>
    .nested none {} (.nested none { commit := some ⟨.badValue, "deadlock"⟩ } (.done none) .done) .done

/-- The failure to commit goes out through the transfer, and was made where it says. -/
theorem nesting_sound_transfer :
    transfer.RollsBack ∧ transfer.run.escape = some (.failed ⟨.commit, ⟨.badValue, "deadlock"⟩⟩) ∧
      ∃ s, Innermost ⟨.commit, ⟨.badValue, "deadlock"⟩⟩ transfer s ∧
        s.Makes ⟨.commit, ⟨.badValue, "deadlock"⟩⟩ := by
  have hrollback : transfer.RollsBack :=
    rollsBack_of_steady rfl ⟨rfl, trivial, fun _ => ⟨rfl, ⟨rfl, trivial, fun _ => trivial⟩,
      fun _ => trivial⟩⟩
  have hescape : transfer.run.escape = some (.failed ⟨.commit, ⟨.badValue, "deadlock"⟩⟩) := rfl
  obtain ⟨⟨s, hinnermost⟩, hmakes⟩ := (nesting_sound transfer).2.2 hrollback _ hescape
  exact ⟨hrollback, hescape, s, hinnermost, (hmakes s hinnermost).2⟩

end Block

end EntityForge.Transaction
