import EntityForge.Proofs.Backend
import EntityForge.Proofs.Relation

/-!
# Reading where rows are marked as deleted

The backend of an entity reads its own table and, along relations, the tables of other entities.
What it reads of its own leaves out rows marked as deleted wherever rows are marked, except for the
two selections that are there to read them. What it reads along a relation never does: the mark is
a matter of the entity that is read. All reading of a document therefore leaves out such rows
exactly when no relation leads to a table in which rows are marked.
-/

namespace EntityForge.Postgres

open Package

variable {e : Entity} {s : Statement}

/-! ## Selections -/

/-- The table that a statement selects from. -/
def Statement.source? : Statement → Option String
  | .select q => some q.table
  | _ => none

/-- The statement is a selection that leaves out rows marked as deleted. -/
def Statement.isLive : Statement → Bool
  | .select q => q.conditions.contains .live
  | _ => false

/-- One of several conditions is written out among them. -/
theorem whereText_of_mem {c : Condition} {conditions : List Condition} (h : c ∈ conditions) :
    ∃ front back, whereText conditions = front ++ c.text ++ back := by
  have hjoin : ∃ front back,
      " AND ".intercalate (conditions.map Condition.text) = front ++ c.text ++ back := by
    induction conditions with
    | nil => simp at h
    | cons d ds ih =>
      cases ds with
      | nil =>
        rw [List.mem_singleton.mp h]
        exact ⟨"", "", by simp⟩
      | cons b bs =>
        rw [List.map_cons, List.map_cons, String.intercalate_cons_cons, ← List.map_cons]
        rcases List.mem_cons.mp h with rfl | h
        · exact ⟨"", " AND " ++ " AND ".intercalate ((b :: bs).map Condition.text),
            by simp [String.append_assoc]⟩
        · obtain ⟨front, back, hrest⟩ := ih h
          exact ⟨d.text ++ " AND " ++ front, back, by rw [hrest]; simp [String.append_assoc]⟩
  obtain ⟨front, back, hjoin⟩ := hjoin
  have hne : conditions.isEmpty = false := by
    rw [List.isEmpty_eq_false_iff]
    exact List.ne_nil_of_mem h
  refine ⟨" WHERE " ++ front, back, ?_⟩
  rw [whereText, hne, if_neg Bool.false_ne_true, hjoin]
  simp only [String.append_assoc]

/-- A selection that leaves out rows marked as deleted says so. -/
theorem text_of_isLive (h : s.isLive = true) :
    ∃ front back, s.text = front ++ "deleted_at IS NULL" ++ back := by
  cases s with
  | select q =>
    have hmem : Condition.live ∈ q.conditions := List.contains_iff_mem.mp h
    have hlive : Condition.live.text = "deleted_at IS NULL" := rfl
    obtain ⟨front, back, hwhere⟩ := whereText_of_mem hmem
    obtain ⟨start, stop, htext⟩ : ∃ start stop,
        (Statement.select q).text = start ++ whereText q.conditions ++ stop := ⟨_, _, rfl⟩
    rw [htext, hwhere, hlive]
    exact ⟨start ++ front, back ++ stop, by simp only [String.append_assoc]⟩
  | _ => simp [Statement.isLive] at h

/-! ## What a backend reads -/

/-- The selections from the entity's own table that are to leave out rows marked as deleted. -/
def ownReads (e : Entity) : List Statement :=
  findById e :: listing e :: (projectionLookups e).map Prod.snd

/-- The selections along relations. -/
def relationReads (e : Entity) : List Statement :=
  (parentLookups e).map Prod.snd ++ (childLookups e).map Prod.snd

/-- The selections that are there to read rows marked as deleted too. -/
def openReads (e : Entity) : List Statement :=
  if e.softDelete then [findByIdWithDeleted e, listingWithDeleted e] else []

/-- All selections of a backend. -/
def reads (e : Entity) : List Statement := ownReads e ++ relationReads e ++ openReads e

/-- The statements of a backend that select nothing. -/
def writes (e : Entity) : List Statement :=
  [insertion e, deletion e] ++ if e.softDelete then [hardDeletion e, restoring e] else []

/-- A projection is read by the identifier, where rows are marked only if the row is not. -/
theorem projectionSelect_of_mem (h : s ∈ (projectionLookups e).map Prod.snd) :
    ∃ p, s = projectionSelect e p := by
  obtain ⟨l, hl, rfl⟩ := List.mem_map.mp h
  obtain ⟨p, -, rfl⟩ := List.mem_map.mp
    ((mem_foldl_lookups (fun _ _ _ => mem_putLookup) hl).resolve_left List.not_mem_nil)
  exact ⟨p, rfl⟩

/-- A reading along a relation selects by one column, and by nothing else. -/
theorem selectBy_of_mem_relationReads (h : s ∈ relationReads e) :
    ∃ t ∈ Validation.targets e, ∃ column, s = selectBy (e.relatedTable t.1) column := by
  rcases List.mem_append.mp h with h | h
  · obtain ⟨l, hl, rfl⟩ := List.mem_map.mp h
    obtain ⟨parent, hp, rfl⟩ := mem_parentLookups.mp hl
    obtain ⟨f, hf, rfl⟩ := List.mem_map.mp hp
    exact ⟨_, parent_mem_targets hf, "id", rfl⟩
  · obtain ⟨l, hl, rfl⟩ := List.mem_map.mp h
    obtain ⟨child, hc, rfl⟩ := mem_childLookups.mp hl
    exact ⟨_, child_mem_targets hc, e.childColumn, rfl⟩

/-- Every relation is read along. -/
theorem exists_relationRead {t : String × String} (ht : t ∈ Validation.targets e) :
    ∃ column, selectBy (e.relatedTable t.1) column ∈ relationReads e := by
  rcases List.mem_append.mp ht with ht | ht
  · obtain ⟨f, hf, rfl⟩ := List.mem_map.mp ht
    have hl : parentEntry e f.parent ∈ parentLookups e :=
      mem_parentLookups.mpr ⟨_, List.mem_map_of_mem hf, rfl⟩
    exact ⟨"id", List.mem_append_left _ (List.mem_map_of_mem hl)⟩
  · obtain ⟨child, hc, rfl⟩ := List.mem_map.mp ht
    have hl : childEntry e child ∈ childLookups e := mem_childLookups.mpr ⟨_, hc, rfl⟩
    exact ⟨e.childColumn, List.mem_append_right _ (List.mem_map_of_mem hl)⟩

/-- Whatever is read of the entity's own is read from its table, and where rows are marked, without
those marked as deleted. -/
theorem of_mem_ownReads (h : s ∈ ownReads e) :
    s.source? = some e.fullTable ∧ (e.softDelete = true → s.isLive = true) := by
  have hlive (hs : e.softDelete = true) : Condition.live ∈ liveOnly e := by
    rw [liveOnly, if_pos hs]
    exact List.mem_singleton_self _
  have hid (hs : e.softDelete = true) : (byId e :: liveOnly e).contains .live = true :=
    List.contains_iff_mem.mpr (List.mem_cons_of_mem _ (hlive hs))
  rcases List.mem_cons.mp h with rfl | h
  · exact ⟨rfl, hid⟩
  rcases List.mem_cons.mp h with rfl | h
  · exact ⟨rfl, fun hs => List.contains_iff_mem.mpr (hlive hs)⟩
  · obtain ⟨p, rfl⟩ := projectionSelect_of_mem h
    exact ⟨rfl, hid⟩

/-- Nothing that is read along a relation is read without the rows marked as deleted. -/
theorem isLive_of_mem_relationReads (h : s ∈ relationReads e) : s.isLive = false := by
  obtain ⟨t, -, column, rfl⟩ := selectBy_of_mem_relationReads h
  simp [selectBy, Statement.isLive]

theorem source?_of_mem_reads (h : s ∈ reads e) : s.source?.isSome = true := by
  rcases List.mem_append.mp h with h | h
  · rcases List.mem_append.mp h with h | h
    · rw [(of_mem_ownReads h).1]
      rfl
    · obtain ⟨t, -, column, rfl⟩ := selectBy_of_mem_relationReads h
      rfl
  · rw [openReads] at h
    split at h
    · rcases List.mem_pair.mp h with rfl | rfl <;> rfl
    · simp at h

theorem source?_of_mem_writes (h : s ∈ writes e) : s.source? = none := by
  rcases List.mem_append.mp h with h | h
  · rcases List.mem_pair.mp h with rfl | rfl
    · rfl
    · unfold deletion
      split <;> rfl
  · split at h
    · rcases List.mem_pair.mp h with rfl | rfl <;> rfl
    · simp at h

/-- The constants of a backend are its reads and its writes. -/
theorem mem_constants_iff :
    s ∈ (constants e).map Prod.snd ↔ s ∈ reads e ∨ s ∈ writes e := by
  have hconstants : (constants e).map Prod.snd =
      [insertion e, findById e, deletion e, listing e] ++
        ((if e.softDelete then [hardDeletion e, restoring e] else []) ++ openReads e) ++
        (relationReads e ++ (projectionLookups e).map Prod.snd) := by
    rw [constants, openReads, relationReads]
    cases e.softDelete <;> simp [Function.comp_def]
  rw [hconstants, reads, writes, ownReads]
  simp only [List.mem_append, List.mem_cons, List.not_mem_nil, or_false]
  grind

/-- The written reading along a relation. -/
theorem text_selectBy (table column : String) :
    (selectBy table column).text = "SELECT * FROM " ++ table ++ " WHERE " ++ column ++ " = $1" := by
  have htext : (selectBy table column).text =
      "SELECT " ++ "*" ++ " FROM " ++ table ++ (" WHERE " ++ (column ++ " = $" ++ "1")) ++ "" := rfl
  have hstart : "SELECT " ++ "*" ++ " FROM " = "SELECT * FROM " := rfl
  have hend : " = $1" = " = $" ++ "1" := rfl
  rw [htext, hstart, hend, String.append_empty]
  simp only [String.append_assoc]

/-! ## All reading of a document -/

/-- Nothing that is read from a table in which rows are marked as deleted holds such a row, apart
from what is there to read them. -/
def LiveReads (es : List Entity) : Prop :=
  ∀ e ∈ es, e.dialect = .postgres → ∀ s ∈ ownReads e ++ relationReads e,
    ∀ other ∈ es, other.softDelete = true → s.source? = some other.fullTable → s.isLive = true

instance (es : List Entity) : Decidable (LiveReads es) :=
  inferInstanceAs (Decidable (∀ e ∈ es, _))

/-- No relation of an entity with a backend leads to a table in which rows are marked as deleted. -/
def RelationsUnmarked (es : List Entity) : Prop :=
  ∀ e ∈ es, e.dialect = .postgres → ∀ t ∈ Validation.targets e,
    ∀ other ∈ es, other.softDelete = true → e.relatedTable t.1 ≠ other.fullTable

instance (es : List Entity) : Decidable (RelationsUnmarked es) :=
  inferInstanceAs (Decidable (∀ e ∈ es, _))

section Document

variable {es : List Entity}

/-- Tables are distinct, so that what an entity reads of its own is guarded by a mark of its own. -/
theorem isLive_of_mem_ownReads (hn : (es.map Entity.fullTable).Nodup) (he : e ∈ es)
    (h : s ∈ ownReads e) {other : Entity} (ho : other ∈ es) (hm : other.softDelete = true)
    (hs : s.source? = some other.fullTable) : s.isLive = true := by
  obtain ⟨hsource, hlive⟩ := of_mem_ownReads h
  have htable : e.fullTable = other.fullTable := Option.some.inj (hsource.symm.trans hs)
  obtain rfl : e = other := List.inj_on_of_nodup_map hn he ho htable
  exact hlive hm

theorem liveReads_iff (hn : (es.map Entity.fullTable).Nodup) :
    LiveReads es ↔ RelationsUnmarked es := by
  constructor
  · intro h e he hd t ht other ho hm htable
    obtain ⟨column, hread⟩ := exists_relationRead ht
    have hsource : (selectBy (e.relatedTable t.1) column).source? = some other.fullTable :=
      congrArg some htable
    have hlive := h e he hd _ (List.mem_append_right _ hread) other ho hm hsource
    exact Bool.false_ne_true ((isLive_of_mem_relationReads hread).symm.trans hlive)
  · intro h e he hd s hs other ho hm hsource
    rcases List.mem_append.mp hs with hs | hs
    · exact isLive_of_mem_ownReads hn he hs ho hm hsource
    · obtain ⟨t, ht, column, rfl⟩ := selectBy_of_mem_relationReads hs
      exact absurd (Option.some.inj hsource) (h e he hd t ht other ho hm)

end Document

/-- An entity with a relation to itself, whose rows are marked as deleted. -/
def categoryDocument : Document where
  entities := [
    { name := "Category"
      attributes := [(.text "table", .text "categories"), (.text "soft_delete", .bool true)]
      fields := some [
        { name := some "id", type := "uuid", attributes := [(.text "id", .bool true)] },
        { name := some "parent_id", type := "uuid"
          attributes := [(.text "belongs_to", .text "Category")] },
        { name := some "deleted_at", type := "datetime?" }] }]

end EntityForge.Postgres
