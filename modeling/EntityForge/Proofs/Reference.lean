import EntityForge.Build.Reference
import EntityForge.Proofs.Attribute

/-!
# What resolving references leaves

Resolution keeps the names that are known and drops the others, however strict it is: strictness
decides only how grave a finding is. What comes out of it names nothing but fields and columns
that are there, and a projection or an index that comes out is not empty.
-/

namespace EntityForge

section Keyed

variable {α : Type} {key : α → String} {as : List α}

/-- Among things with distinct keys, each is found by its own. -/
theorem find?_of_nodup {a : α} (h : (as.map key).Nodup) (ha : a ∈ as) :
    as.find? (fun b => key b == key a) = some a := by
  induction as with
  | nil => exact absurd ha List.not_mem_nil
  | cons b bs ih =>
    rw [List.map_cons, List.nodup_cons] at h
    rcases List.mem_cons.mp ha with rfl | hm
    · exact List.find?_cons_of_pos (beq_self_eq_true _)
    · have hne : (key b == key a) = false :=
        beq_eq_false_iff_ne.mpr fun heq => h.1 (heq ▸ List.mem_map_of_mem hm)
      rw [List.find?_cons, hne]
      exact ih h.2 hm

/-- Among things with distinct keys, the last with some key is the first. -/
theorem find?_reverse_of_nodup (h : (as.map key).Nodup) (k : String) :
    as.reverse.find? (fun b => key b == k) = as.find? fun b => key b == k := by
  induction as with
  | nil => rfl
  | cons b bs ih =>
    rw [List.map_cons, List.nodup_cons] at h
    rw [List.reverse_cons, List.find?_append, ih h.2, List.find?_cons]
    by_cases hk : key b = k
    · have hnone : (bs.find? fun c => key c == k) = none :=
        List.find?_eq_none.mpr fun c hc heq =>
          h.1 (hk ▸ beq_iff_eq.mp heq ▸ List.mem_map_of_mem hc)
      simp [hnone, hk]
    · simp [beq_eq_false_iff_ne.mpr hk]

end Keyed

end EntityForge

namespace EntityForge.Build

variable {entity : String} {known : List String} {fields : List Field} {strict : Bool}

/-- A resolved projection has its name and keeps some of its fields, all of them known. -/
theorem projection_spec {p q : Projection} (h : (projection entity known strict p).value = some q) :
    q.name = p.name ∧ q.fields ≠ [] ∧ ∀ n ∈ q.fields, n ∈ known := by
  simp only [projection, Noted.value_bind] at h
  split at h
  · simp at h
  · rename_i hne
    obtain rfl : ⟨p.name, p.fields.filter known.contains⟩ = q := by simpa using h
    refine ⟨rfl, by simpa using hne, fun n hn => ?_⟩
    exact List.contains_iff_mem.mp (List.mem_filter.mp hn).2

/-- A name is resolved to a column of the fields. -/
theorem mem_of_columnFor? {name column : String} (h : columnFor? fields name = some column) :
    column ∈ fields.map Field.columnName := by
  unfold columnFor? at h
  split at h
  · rename_i hany
    obtain ⟨f, hf, hn⟩ := List.any_eq_true.mp hany
    obtain rfl : name = column := by simpa using h
    exact List.mem_map.mpr ⟨f, hf, by simpa using hn⟩
  · obtain ⟨f, hf, rfl⟩ := Option.map_eq_some_iff.mp h
    exact List.mem_map.mpr ⟨f, List.mem_reverse.mp (List.mem_of_find?_eq_some hf), rfl⟩

/-- A resolved index keeps some of its columns, all of them columns of the fields. -/
theorem index_spec {i j : CompositeIndex} (h : (index entity fields strict i).value = some j) :
    j.columns ≠ [] ∧ ∀ c ∈ j.columns, c ∈ fields.map Field.columnName := by
  simp only [index, Noted.value_bind, Noted.value_pure] at h
  split at h
  · simp at h
  · rename_i hne
    obtain rfl := Option.some.inj h
    refine ⟨by simpa using hne, fun c hc => ?_⟩
    obtain ⟨n, -, hn⟩ := List.mem_filterMap.mp hc
    exact mem_of_columnFor? hn

/-- A resolved index keeps the name of its own that it may have. -/
theorem index_name {i j : CompositeIndex} (h : (index entity fields strict i).value = some j) :
    j.name = i.name := by
  simp only [index, Noted.value_bind, Noted.value_pure] at h
  split at h
  · simp at h
  · obtain rfl := Option.some.inj h
    rfl

/-- A resolved command is the command without the fields that are not known. -/
theorem command_value (c : Command) :
    (command entity known strict c).value =
      some { c with fields := c.fields.filter known.contains } := rfl

end EntityForge.Build
