import EntityForge.Proofs.Backend
import Mathlib.Data.List.Nodup

/-!
# When the names of methods are distinct

The lookups of a repository are named after other entities and projections: in snake case, with
`by_id_` in front of projections, and children in the plural. Different names can have one such
form, and the form can be that of an operation which every repository has. The methods have
distinct names exactly when this does not happen. Their constants are less demanding, since one
statement is kept for the lookups of one kind and name.
-/

namespace EntityForge.Package

open Postgres Text

variable {e : Entity}

/-! ## Conditions -/

/-- No lookup has the name of a lookup of another kind, or of an operation of its own. -/
structure KindsApart (e : Entity) : Prop where
  parent_child : ∀ f ∈ e.relationFields, ∀ child ∈ e.hasMany,
    snakeCase f.parent ≠ plural (snakeCase child)
  parent_projection : ∀ f ∈ e.relationFields, ∀ p ∈ e.livingProjections,
    snakeCase f.parent ≠ "by_id_" ++ snakeCase p.name
  child_projection : ∀ child ∈ e.hasMany, ∀ p ∈ e.livingProjections,
    plural (snakeCase child) ≠ "by_id_" ++ snakeCase p.name
  parent_byId : ∀ f ∈ e.relationFields, snakeCase f.parent ≠ "by_id"
  parent_withDeleted : e.softDelete = true →
    ∀ f ∈ e.relationFields, snakeCase f.parent ≠ "by_id_with_deleted"
  projection_withDeleted : e.softDelete = true →
    ∀ p ∈ e.livingProjections, snakeCase p.name ≠ "with_deleted"

/-- Moreover, no two lookups of one kind have one name. Parents count once for each type. -/
structure LookupsApart (e : Entity) : Prop extends KindsApart e where
  parents : ∀ f ∈ e.relationFields, ∀ g ∈ e.relationFields,
    snakeCase f.parent = snakeCase g.parent → f.parent = g.parent
  children : (e.hasMany.map fun child => plural (snakeCase child)).Nodup
  projections : (e.livingProjections.map fun p => snakeCase p.name).Nodup

/-! ## Operations -/

/-- The names of what a repository does without looking up others, as constants or methods name
it. -/
def operationNames : List String :=
  ["insert", "create", "find_by_id", "update", "delete", "list", "query"]

/-- A lookup is named like an operation only as the one by the identifier. -/
theorem find_mem_operationNames {x : String} : "find_" ++ x ∈ operationNames ↔ x = "by_id" := by
  have hother : ∀ n ∈ operationNames, n ≠ "find_by_id" → n.toList.head? ≠ some 'f' := by decide
  constructor
  · intro h
    by_cases hx : "find_" ++ x = "find_by_id"
    · exact (String.append_right_inj _).mp hx
    · exact absurd rfl (find_ne (hother _ h hx))
  · rintro rfl
    decide

theorem find_mem_softDeleteNames {x : String} :
    "find_" ++ x ∈ softDeleteNames e ↔ e.softDelete = true ∧ x = "by_id_with_deleted" := by
  unfold softDeleteNames
  cases e.softDelete with
  | false => simp
  | true =>
    simp only [if_true, List.mem_cons, List.not_mem_nil, or_false, true_and]
    constructor
    · rintro (h | h | h | h)
      · exact absurd h (find_ne (by decide))
      · exact absurd h (find_ne (by decide))
      · exact (String.append_right_inj _).mp h
      · exact absurd h (find_ne (by decide))
    · rintro rfl
      exact Or.inr (Or.inr (Or.inl rfl))

theorem softDeleteNames_nodup : (softDeleteNames e).Nodup := by
  unfold softDeleteNames
  split <;> decide

theorem softDeleteNames_apart : ∀ n ∈ softDeleteNames e, n ∉ operationNames := by
  unfold softDeleteNames
  split <;> decide

/-- Names of lookups among those of operations are distinct if they are so by themselves and
avoid the names that lookups and operations can have in common. -/
theorem nodup_operations_iff {own lookups : List String} (hown : own.Sublist operationNames)
    (hid : "find_by_id" ∈ own) (hfind : ∀ n ∈ lookups, ∃ x, n = "find_" ++ x) :
    (own ++ (lookups ++ softDeleteNames e)).Nodup ↔ lookups.Nodup ∧ "find_by_id" ∉ lookups ∧
      (e.softDelete = true → "find_by_id_with_deleted" ∉ lookups) := by
  rw [List.nodup_append, List.nodup_append]
  constructor
  · rintro ⟨-, ⟨hl, -, hsoft⟩, hall⟩
    refine ⟨hl, fun h => ?_, fun hs h => ?_⟩
    · exact hall _ hid _ (List.mem_append_left _ h) rfl
    · exact hsoft _ h _ (find_mem_softDeleteNames.mpr ⟨hs, rfl⟩) rfl
  · rintro ⟨hl, hbyId, hdeleted⟩
    -- Only a name that starts with `find_` can be a lookup's, and of operations just two do.
    refine ⟨hown.nodup (by decide), ⟨hl, softDeleteNames_nodup, ?_⟩, ?_⟩
    · rintro n hn _ hm rfl
      obtain ⟨x, rfl⟩ := hfind n hn
      obtain ⟨hs, rfl⟩ := find_mem_softDeleteNames.mp hm
      exact hdeleted hs hn
    · rintro n hn _ hm rfl
      rcases List.mem_append.mp hm with hm | hm
      · obtain ⟨x, rfl⟩ := hfind n hm
        obtain rfl := find_mem_operationNames.mp (hown.subset hn)
        exact hbyId hm
      · exact softDeleteNames_apart n hm (hown.subset hn)

/-! ## Names of lookups -/

/-- A plural is no text that ends otherwise. -/
theorem plural_ne {x name : String} (h : name.toList.getLast? ≠ some 's') : plural x ≠ name := by
  rintro rfl
  exact h (getLast?_plural x)

/-- The names of the lookups of an entity, by kinds. -/
structure LookupNames (e : Entity) (parents children projections : List String) : Prop where
  mem_parents : ∀ n, n ∈ parents ↔ ∃ f ∈ e.relationFields, Entity.parentLookup f.parent = n
  mem_children : ∀ n, n ∈ children ↔ ∃ child ∈ e.hasMany, Entity.childLookup child = n
  mem_projections : ∀ n, n ∈ projections ↔
    ∃ p ∈ e.livingProjections, Entity.projectionLookup p.name = n

namespace LookupNames

variable {parents children projections : List String}

/-- A name that starts like a lookup's is that of a parent, of children or of a projection. -/
theorem find_mem_iff (h : LookupNames e parents children projections) {x : String} :
    "find_" ++ x ∈ parents ++ children ++ projections ↔
      (∃ f ∈ e.relationFields, snakeCase f.parent = x) ∨
        (∃ child ∈ e.hasMany, plural (snakeCase child) = x) ∨
          ∃ p ∈ e.livingProjections, "by_id_" ++ snakeCase p.name = x := by
  simp only [List.mem_append, h.mem_parents, h.mem_children, h.mem_projections, or_assoc,
    projectionLookup_eq, Entity.parentLookup, Entity.childLookup, String.append_right_inj]

theorem exists_find (h : LookupNames e parents children projections) :
    ∀ n ∈ parents ++ children ++ projections, ∃ x, n = "find_" ++ x := by
  intro n hn
  simp only [List.mem_append, h.mem_parents, h.mem_children, h.mem_projections] at hn
  rcases hn with (⟨f, -, rfl⟩ | ⟨child, -, rfl⟩) | ⟨p, -, rfl⟩
  · exact ⟨_, rfl⟩
  · exact ⟨_, rfl⟩
  · exact ⟨_, projectionLookup_eq p.name⟩

/-- Lookups are distinct if they are so within each kind and the kinds share no name. -/
theorem nodup_iff (h : LookupNames e parents children projections) :
    (parents ++ children ++ projections).Nodup ↔
      (parents.Nodup ∧ children.Nodup ∧ projections.Nodup) ∧
        (∀ f ∈ e.relationFields, ∀ child ∈ e.hasMany,
          snakeCase f.parent ≠ plural (snakeCase child)) ∧
        (∀ f ∈ e.relationFields, ∀ p ∈ e.livingProjections,
          snakeCase f.parent ≠ "by_id_" ++ snakeCase p.name) ∧
        ∀ child ∈ e.hasMany, ∀ p ∈ e.livingProjections,
          plural (snakeCase child) ≠ "by_id_" ++ snakeCase p.name := by
  simp only [List.nodup_append, List.mem_append, h.mem_parents, h.mem_children, h.mem_projections,
    or_imp, forall_and, forall_exists_index, and_imp, forall_apply_eq_imp_iff₂,
    projectionLookup_eq, Entity.parentLookup, Entity.childLookup, ne_eq, String.append_right_inj]
  constructor
  · rintro ⟨⟨hp, hc, hpc⟩, hj, hpj, hcj⟩
    exact ⟨⟨hp, hc, hj⟩, hpc, hpj, hcj⟩
  · rintro ⟨⟨hp, hc, hj⟩, hpc, hpj, hcj⟩
    exact ⟨⟨hp, hc, hpc⟩, hj, hpj, hcj⟩

/-- Of the lookups only that of a parent can be named like the one by the identifier. -/
theorem byId_not_mem_iff (h : LookupNames e parents children projections) :
    "find_by_id" ∉ parents ++ children ++ projections ↔
      ∀ f ∈ e.relationFields, snakeCase f.parent ≠ "by_id" := by
  rw [show "find_by_id" = "find_" ++ "by_id" from rfl, h.find_mem_iff]
  constructor
  · exact fun hn f hf hx => hn (Or.inl ⟨f, hf, hx⟩)
  · rintro hp (⟨f, hf, hx⟩ | ⟨child, -, hx⟩ | ⟨p, -, hx⟩)
    · exact hp f hf hx
    · exact plural_ne (by decide) hx
    · have hlength := congrArg String.length hx
      rw [String.length_append] at hlength
      have hshort : "by_id".length < "by_id_".length := by decide
      omega

/-- The reading of rows marked as deleted can be named like a parent or a projection. -/
theorem withDeleted_not_mem_iff (h : LookupNames e parents children projections) :
    "find_by_id_with_deleted" ∉ parents ++ children ++ projections ↔
      (∀ f ∈ e.relationFields, snakeCase f.parent ≠ "by_id_with_deleted") ∧
        ∀ p ∈ e.livingProjections, snakeCase p.name ≠ "with_deleted" := by
  rw [show "find_by_id_with_deleted" = "find_" ++ "by_id_with_deleted" from rfl, h.find_mem_iff]
  constructor
  · intro hn
    refine ⟨fun f hf hx => hn (Or.inl ⟨f, hf, hx⟩), fun p hp hx => ?_⟩
    exact hn (Or.inr (Or.inr ⟨p, hp, congrArg ("by_id_" ++ ·) hx⟩))
  · rintro ⟨hf, hp⟩ (⟨f, hm, hx⟩ | ⟨child, -, hx⟩ | ⟨p, hm, hx⟩)
    · exact hf f hm hx
    · exact plural_ne (by decide) hx
    · exact hp p hm ((String.append_right_inj "by_id_").mp hx)

/-- The names of lookups and operations are distinct if those of lookups are within each kind and
the kinds are apart. -/
theorem nodup_all_iff (h : LookupNames e parents children projections) {own : List String}
    (hown : own.Sublist operationNames) (hid : "find_by_id" ∈ own) :
    (own ++ (parents ++ children ++ projections ++ softDeleteNames e)).Nodup ↔
      (parents.Nodup ∧ children.Nodup ∧ projections.Nodup) ∧ KindsApart e := by
  rw [nodup_operations_iff hown hid h.exists_find, h.nodup_iff, h.byId_not_mem_iff,
    h.withDeleted_not_mem_iff]
  constructor
  · rintro ⟨⟨hn, hpc, hpj, hcj⟩, hbyId, hdeleted⟩
    exact ⟨hn, hpc, hpj, hcj, hbyId, fun hs => (hdeleted hs).1, fun hs => (hdeleted hs).2⟩
  · rintro ⟨hn, hk⟩
    exact ⟨⟨hn, hk.parent_child, hk.parent_projection, hk.child_projection⟩, hk.parent_byId,
      fun hs => ⟨hk.parent_withDeleted hs, hk.projection_withDeleted hs⟩⟩

end LookupNames

/-! ## Methods -/

/-- The names of the operations that an entity has, in the order of its methods. -/
def ownNames (e : Entity) : List String :=
  (if e.createFields.isEmpty then [] else ["create"]) ++ ["find_by_id"] ++
    (if e.updateFields.isEmpty then [] else ["update"]) ++ ["delete", "list"] ++
    (if e.hasFilters then ["query"] else [])

theorem ownNames_sublist : (ownNames e).Sublist operationNames := by
  unfold ownNames
  cases e.createFields.isEmpty <;> cases e.updateFields.isEmpty <;> cases e.hasFilters <;> decide

theorem names_createMethod : (createMethod e).map RepositoryMethod.name =
    if e.createFields.isEmpty then [] else ["create"] := by
  unfold createMethod
  split <;> rfl

theorem names_updateMethod : (updateMethod e).map RepositoryMethod.name =
    if e.updateFields.isEmpty then [] else ["update"] := by
  unfold updateMethod
  split <;> rfl

theorem names_queryMethod : (queryMethod e).map RepositoryMethod.name =
    if e.hasFilters then ["query"] else [] := by
  unfold queryMethod
  split <;> rfl

theorem names_softDeleteMethods :
    (softDeleteMethods e).map RepositoryMethod.name = softDeleteNames e := by
  unfold softDeleteMethods softDeleteNames
  split <;> rfl

/-- The names of the methods, by kinds. -/
theorem names_repositoryMethods : (repositoryMethods e).map RepositoryMethod.name =
    ownNames e ++ (((parentFields e).map Field.parent).map Entity.parentLookup ++
      e.hasMany.map Entity.childLookup ++
      e.livingProjections.map (fun p => Entity.projectionLookup p.name) ++
      softDeleteNames e) := by
  rw [ownNames, ← names_createMethod, ← names_updateMethod, ← names_queryMethod,
    ← names_softDeleteMethods]
  simp only [repositoryMethods, List.map_append, List.append_assoc, List.map_map]
  rfl

/-- The first relations to each parent have the parents of all, but for those seen before. -/
theorem exists_mem_firstRelations {seen : List String} {fs : List Field} {f : Field} (hf : f ∈ fs)
    (hs : f.parent ∉ seen) : ∃ g ∈ firstRelations seen fs, g.parent = f.parent := by
  induction fs generalizing seen with
  | nil => simp at hf
  | cons a fs ih =>
    simp only [firstRelations]
    split
    · rename_i ha
      rcases List.mem_cons.mp hf with rfl | hf
      · exact absurd (List.contains_iff_mem.mp ha) hs
      · exact ih hf hs
    · by_cases hfa : f.parent = a.parent
      · exact ⟨a, List.mem_cons_self, hfa.symm⟩
      · rcases List.mem_cons.mp hf with rfl | hf
        · exact absurd rfl hfa
        · obtain ⟨g, hg, hp⟩ := ih hf (List.not_mem_cons_of_ne_of_not_mem hfa hs)
          exact ⟨g, List.mem_cons_of_mem _ hg, hp⟩

/-- The first relations to each parent have distinct parents, none of them seen before. -/
theorem nodup_firstRelations (seen : List String) (fs : List Field) :
    ((firstRelations seen fs).map Field.parent).Nodup ∧
      ∀ f ∈ firstRelations seen fs, f.parent ∉ seen := by
  induction fs generalizing seen with
  | nil => simp [firstRelations]
  | cons a fs ih =>
    simp only [firstRelations]
    split
    · exact ih seen
    · rename_i ha
      obtain ⟨hn, hs⟩ := ih (a.parent :: seen)
      refine ⟨?_, ?_⟩
      · rw [List.map_cons, List.nodup_cons]
        refine ⟨fun hm => ?_, hn⟩
        obtain ⟨f, hf, hp⟩ := List.mem_map.mp hm
        exact hs f hf (hp ▸ List.mem_cons_self)
      · intro f hf
        rcases List.mem_cons.mp hf with rfl | hf
        · exact fun hm => ha (List.contains_iff_mem.mpr hm)
        · exact fun hm => hs f hf (List.mem_cons_of_mem _ hm)

/-- The parents looked up are those of all relations. -/
theorem mem_parentFields {n : String} :
    n ∈ (parentFields e).map Field.parent ↔ ∃ f ∈ e.relationFields, f.parent = n := by
  rw [List.mem_map]
  constructor
  · rintro ⟨f, hf, rfl⟩
    exact ⟨f, mem_firstRelations hf, rfl⟩
  · rintro ⟨f, hf, rfl⟩
    exact exists_mem_firstRelations hf List.not_mem_nil

theorem lookupNames_repositoryMethods :
    LookupNames e (((parentFields e).map Field.parent).map Entity.parentLookup)
      (e.hasMany.map Entity.childLookup)
      (e.livingProjections.map fun p => Entity.projectionLookup p.name) := by
  refine ⟨fun n => ?_, fun n => List.mem_map, fun n => List.mem_map⟩
  rw [List.mem_map]
  simp only [mem_parentFields]
  constructor
  · rintro ⟨_, ⟨f, hf, rfl⟩, rfl⟩
    exact ⟨f, hf, rfl⟩
  · rintro ⟨f, hf, rfl⟩
    exact ⟨_, ⟨f, hf, rfl⟩, rfl⟩

/-- Lookups of parents are named apart if different parents are. -/
theorem nodup_parentLookups_iff :
    (((parentFields e).map Field.parent).map Entity.parentLookup).Nodup ↔
      ∀ f ∈ e.relationFields, ∀ g ∈ e.relationFields,
        snakeCase f.parent = snakeCase g.parent → f.parent = g.parent := by
  have hparents : ((parentFields e).map Field.parent).Nodup := (nodup_firstRelations [] _).1
  rw [List.nodup_map_iff_inj_on hparents]
  simp only [mem_parentFields, forall_exists_index, and_imp, forall_apply_eq_imp_iff₂,
    Entity.parentLookup, String.append_right_inj]

theorem nodup_childLookups_iff : (e.hasMany.map Entity.childLookup).Nodup ↔
    (e.hasMany.map fun child => plural (snakeCase child)).Nodup := by
  have h : e.hasMany.map Entity.childLookup =
      (e.hasMany.map fun child => plural (snakeCase child)).map ("find_" ++ ·) := by
    rw [List.map_map]
    rfl
  rw [h, List.nodup_map_iff fun _ _ => (String.append_right_inj _).mp]

theorem nodup_projectionLookups_iff :
    (e.livingProjections.map fun p => Entity.projectionLookup p.name).Nodup ↔
      (e.livingProjections.map fun p => snakeCase p.name).Nodup := by
  have h : (e.livingProjections.map fun p => Entity.projectionLookup p.name) =
      (e.livingProjections.map fun p => snakeCase p.name).map ("find_by_id_" ++ ·) := by
    rw [List.map_map]
    rfl
  rw [h, List.nodup_map_iff fun _ _ => (String.append_right_inj _).mp]

/-- Methods have distinct names if lookups are apart. -/
theorem nodup_names_repositoryMethods_iff :
    ((repositoryMethods e).map RepositoryMethod.name).Nodup ↔ LookupsApart e := by
  have hid : "find_by_id" ∈ ownNames e := by simp [ownNames]
  rw [names_repositoryMethods, lookupNames_repositoryMethods.nodup_all_iff ownNames_sublist hid,
    nodup_parentLookups_iff, nodup_childLookups_iff, nodup_projectionLookups_iff]
  constructor
  · rintro ⟨⟨hp, hc, hj⟩, hk⟩
    exact ⟨hk, hp, hc, hj⟩
  · rintro ⟨hk, hp, hc, hj⟩
    exact ⟨⟨hp, hc, hj⟩, hk⟩

/-! ## Constants -/

theorem lookupNames_statements : LookupNames e ((parentLookups e).map Prod.fst)
    ((childLookups e).map Prod.fst) ((projectionLookups e).map Prod.fst) :=
  ⟨fun _ => mem_names_parentLookups, fun _ => mem_names_childLookups,
    fun _ => mem_names_projectionLookups⟩

/-- The names of the methods that have a statement, those on deleted rows last. -/
theorem names_methodStatements_perm : ((methodStatements e).map Prod.fst).Perm
    (commonNames ++ ((parentLookups e).map Prod.fst ++ (childLookups e).map Prod.fst ++
      (projectionLookups e).map Prod.fst ++ softDeleteNames e)) := by
  rw [methodStatements, List.map_append, names_operationStatements, List.append_assoc,
    List.map_append, List.map_append]
  exact List.perm_append_comm.append_left _

theorem small_of_mem_methodStatements {n : String} (h : n ∈ (methodStatements e).map Prod.fst) :
    Small n := by
  rw [names_methodStatements_perm.mem_iff, List.mem_append, List.mem_append] at h
  rcases h with h | h | h
  · exact (show ∀ n ∈ commonNames, Small n by decide) n h
  · have hfind {x : String} (hx : Small x) : Small ("find_" ++ x) :=
      (show Small "find_" by decide).append hx
    simp only [List.mem_append, lookupNames_statements.mem_parents,
      lookupNames_statements.mem_children, lookupNames_statements.mem_projections] at h
    rcases h with (⟨f, -, rfl⟩ | ⟨child, -, rfl⟩) | ⟨p, -, rfl⟩
    · exact hfind (small_snakeCase _)
    · exact hfind (small_plural (small_snakeCase _))
    · rw [projectionLookup_eq]
      exact hfind ((show Small "by_id_" by decide).append (small_snakeCase _))
  · have hsoft : ∀ n ∈ softDeleteNames e, Small n := by
      unfold softDeleteNames
      cases e.softDelete <;> decide
    exact hsoft n h

/-- Different methods have different constants. -/
theorem nodup_names_constants_iff_names :
    ((constants e).map Prod.fst).Nodup ↔ ((methodStatements e).map Prod.fst).Nodup := by
  have hnames : (constants e).map Prod.fst =
      ((methodStatements e).map Prod.fst).map constantName := by
    rw [constants_eq, List.map_map, List.map_map]
    rfl
  rw [hnames]
  -- Capitals forget nothing about these names, since none of them has a capital.
  refine ⟨List.Nodup.of_map _, fun h => h.map_on fun x hx y hy hxy => ?_⟩
  have hmap : x.map Char.toUpper = y.map Char.toUpper := (String.append_left_inj _).mp hxy
  exact (small_of_mem_methodStatements hx).eq_of_map_toUpper
    (small_of_mem_methodStatements hy) hmap

/-- Constants have distinct names if the kinds of lookups are apart. -/
theorem nodup_names_constants_iff : ((constants e).map Prod.fst).Nodup ↔ KindsApart e := by
  rw [nodup_names_constants_iff_names, names_methodStatements_perm.nodup_iff,
    lookupNames_statements.nodup_all_iff (by decide) (by decide)]
  exact and_iff_right nodup_names_lookups

/-- No method of a repository has the name of another exactly when the lookups are apart; no
constant of the backend has the name of another exactly when the kinds of lookups are. -/
theorem names_distinct_iff (e : Entity) :
    (((repositoryMethods e).map RepositoryMethod.name).Nodup ↔ LookupsApart e) ∧
      (((constants e).map Prod.fst).Nodup ↔ KindsApart e) :=
  ⟨nodup_names_repositoryMethods_iff, nodup_names_constants_iff⟩

/-- An entity with two relations whose types have one form in snake case. -/
def requestDeclaration : EntityDeclaration where
  name := "Request"
  attributes := [(.text "table", .text "requests")]
  fields := some [
    { name := some "id", type := "uuid", attributes := [(.text "id", .bool true)] },
    { name := some "api_key_id", type := "uuid"
      attributes := [(.text "belongs_to", .text "ApiKey")] },
    { name := some "parent_key_id", type := "uuid"
      attributes := [(.text "belongs_to", .text "APIKey")] }]

/-- The request is built without an error, though two of its methods have one name. -/
theorem names_not_distinct_request :
    ∃ e notes, Build.build requestDeclaration false = .ok (e, notes) ∧
      ((repositoryMethods e).map RepositoryMethod.name) =
        ["find_by_id", "delete", "list", "find_api_key", "find_api_key"] ∧
      ¬ ((repositoryMethods e).map RepositoryMethod.name).Nodup := by
  obtain ⟨e, notes, hb, hn⟩ := Build.exists_of_build requestDeclaration false
    (fun e => (repositoryMethods e).map RepositoryMethod.name ==
      ["find_by_id", "delete", "list", "find_api_key", "find_api_key"]) (by decide +kernel)
  have hn := beq_iff_eq.mp hn
  exact ⟨e, notes, hb, hn, hn ▸ by decide⟩

end EntityForge.Package
