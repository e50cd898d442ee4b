import EntityForge.Proofs.ClassName
import EntityForge.Proofs.Creation
import EntityForge.Proofs.Provision
import EntityForge.Proofs.Selection
import Mathlib.Data.List.Pairwise

/-!
# When the filter parameters of an entity have distinct names

A parameter is named like its field, or like it with one of two endings for a range, and the shape
that holds the parameters has the limit and the offset of the page beside them. The fields of an
entity have distinct names, so that two parameters share one only if a field is named like a bound
of another field's range. Exactly when this does not happen, and no field is named like the limit or
the offset, every choice of filter values and of a page can be asked for.
-/

namespace EntityForge.Package

open Source

variable {d : EntityDeclaration} {strict : Bool} {e : Entity} {notes : Diagnostics} {f g : Field}
  {p : FilterParameter}

/-! ## The names of parameters -/

/-- What the names of the parameters of a field have behind the name of the field. -/
def filterEndings (f : Field) : List String :=
  match f.filter with
  | .none => []
  | .eq | .like => [""]
  | .range => ["_from", "_to"]

theorem names_fieldParameters (f : Field) :
    (fieldParameters f).map FilterParameter.name = (filterEndings f).map (f.name ++ ·) := by
  rw [fieldParameters, filterEndings]
  cases f.filter <;> simp

theorem names_filterParameters (e : Entity) : (filterParameters e).map FilterParameter.name =
    e.filterFields.flatMap fun f => (filterEndings f).map (f.name ++ ·) := by
  rw [filterParameters, List.map_flatMap]
  exact List.flatMap_congr fun f _ => names_fieldParameters f

theorem mem_names_iff {n : String} : n ∈ (filterParameters e).map FilterParameter.name ↔
    ∃ f ∈ e.filterFields, ∃ s ∈ filterEndings f, f.name ++ s = n := by
  rw [names_filterParameters, List.mem_flatMap]
  simp only [List.mem_map]

/-- No field with one parameter is named like a bound of another field's range, and none like the
limit or the offset of the page. -/
@[mk_iff]
structure FiltersApart (e : Entity) : Prop where
  ranges : ∀ r ∈ e.filterFields, r.filter = .range → ∀ f ∈ e.filterFields, f.filter ≠ .range →
    f.name ≠ r.name ++ "_from" ∧ f.name ≠ r.name ++ "_to"
  page : ∀ f ∈ e.filterFields, f.filter ≠ .range → f.name ≠ "limit" ∧ f.name ≠ "offset"

instance : DecidablePred FiltersApart := fun e => decidable_of_iff' _ (filtersApart_iff e)

theorem filter_ne_none (hf : f ∈ e.filterFields) : f.filter ≠ .none := by
  simpa using (List.mem_filter.mp hf).2

theorem filterEndings_of_range (h : f.filter = .range) : filterEndings f = ["_from", "_to"] := by
  rw [filterEndings, h]

theorem filterEndings_of_single (hf : f ∈ e.filterFields) (h : f.filter ≠ .range) :
    filterEndings f = [""] := by
  have hne := filter_ne_none hf
  rw [filterEndings]
  cases hfilter : f.filter with
  | none => exact absurd hfilter hne
  | eq => rfl
  | like => rfl
  | range => exact absurd hfilter h

/-- Bounds of ranges with one name are the same bound of fields with one name. -/
theorem name_eq_of_bounds {s t : String} (hf : f.filter = .range) (hg : g.filter = .range)
    (hs : s ∈ filterEndings f) (ht : t ∈ filterEndings g) (h : f.name ++ s = g.name ++ t) :
    f.name = g.name := by
  have hapart : Apart "_from" "_to" := by decide
  rw [filterEndings_of_range hf] at hs
  rw [filterEndings_of_range hg] at ht
  simp only [List.mem_cons, List.not_mem_nil, or_false] at hs ht
  rcases hs with rfl | rfl <;> rcases ht with rfl | rfl
  · exact (String.append_left_inj _).mp h
  · exact absurd h (hapart.append_ne _ _)
  · exact absurd h.symm (hapart.append_ne _ _)
  · exact (String.append_left_inj _).mp h

/-- A field with one parameter is apart from a range if it is named like neither bound. -/
theorem ne_bounds_iff {n : String} (hf : f.filter = .range) :
    (∀ s ∈ filterEndings f, n ≠ f.name ++ s) ↔ n ≠ f.name ++ "_from" ∧ n ≠ f.name ++ "_to" := by
  rw [filterEndings_of_range hf]
  simp only [List.mem_cons, List.not_mem_nil, or_false, forall_eq_or_imp, forall_eq]

/-- The parameters of two fields have no name in common. -/
def FieldsApart (f g : Field) : Prop :=
  ∀ s ∈ filterEndings f, ∀ t ∈ filterEndings g, f.name ++ s ≠ g.name ++ t

theorem FieldsApart.symm (h : FieldsApart f g) : FieldsApart g f :=
  fun t ht s hs heq => h s hs t ht heq.symm

theorem fieldsApart_single_iff (hf : f ∈ e.filterFields) (hsingle : f.filter ≠ .range)
    (hg : g.filter = .range) :
    FieldsApart f g ↔ f.name ≠ g.name ++ "_from" ∧ f.name ≠ g.name ++ "_to" := by
  rw [FieldsApart, filterEndings_of_single hf hsingle, ← ne_bounds_iff hg]
  simp only [List.mem_singleton, forall_eq, String.append_empty]

/-- Fields of different names are apart if no range has a bound that is named like a field. -/
theorem fieldsApart_iff (hnames : (e.fields.map Field.name).Nodup) :
    (∀ f ∈ e.filterFields, ∀ g ∈ e.filterFields, f ≠ g → FieldsApart f g) ↔
      ∀ r ∈ e.filterFields, r.filter = .range → ∀ f ∈ e.filterFields, f.filter ≠ .range →
        f.name ≠ r.name ++ "_from" ∧ f.name ≠ r.name ++ "_to" := by
  constructor
  · intro h r hr hrange f hf hsingle
    refine (fieldsApart_single_iff hf hsingle hrange).mp (h f hf r hr ?_)
    rintro rfl
    exact hsingle hrange
  · intro h f hf g hg hne
    have hname : f.name ≠ g.name := fun heq =>
      hne (List.inj_on_of_nodup_map hnames (List.mem_filter.mp hf).1 (List.mem_filter.mp hg).1 heq)
    by_cases hfr : f.filter = .range <;> by_cases hgr : g.filter = .range
    · exact fun s hs t ht heq => hname (name_eq_of_bounds hfr hgr hs ht heq)
    · exact ((fieldsApart_single_iff hg hgr hfr).mpr (h f hf hfr g hg hgr)).symm
    · exact (fieldsApart_single_iff hf hfr hgr).mpr (h g hg hgr f hf hfr)
    · rw [FieldsApart, filterEndings_of_single hf hfr, filterEndings_of_single hg hgr]
      simp only [List.mem_singleton, forall_eq, String.append_empty]
      exact hname

/-- The names of the parameters are distinct if those of any two fields are apart. -/
theorem nodup_names_iff (hnames : (e.fields.map Field.name).Nodup) :
    ((filterParameters e).map FilterParameter.name).Nodup ↔
      ∀ f ∈ e.filterFields, ∀ g ∈ e.filterFields, f ≠ g → FieldsApart f g := by
  have hfields : e.filterFields.Nodup := (List.Nodup.of_map _ hnames).filter _
  have hown (f : Field) : ((filterEndings f).map (f.name ++ ·)).Nodup := by
    have hendings : (filterEndings f).Nodup := by
      rw [filterEndings]
      cases f.filter <;> decide
    exact hendings.map fun _ _ => (String.append_right_inj _).mp
  have hdisjoint (f g : Field) : List.Disjoint ((filterEndings f).map (f.name ++ ·))
      ((filterEndings g).map (g.name ++ ·)) ↔ FieldsApart f g := by
    constructor
    · intro h s hs t ht heq
      exact h (List.mem_map_of_mem hs) (heq ▸ List.mem_map_of_mem ht)
    · intro h n hn hn'
      obtain ⟨s, hs, rfl⟩ := List.mem_map.mp hn
      obtain ⟨t, ht, heq⟩ := List.mem_map.mp hn'
      exact h s hs t ht heq.symm
  rw [names_filterParameters, List.nodup_flatMap, and_iff_right fun f _ => hown f]
  rw [List.Pairwise.iff hdisjoint]
  constructor
  · intro h f hf g hg hne
    have : Std.Symm FieldsApart := ⟨fun _ _ => FieldsApart.symm⟩
    exact h.forall hf hg hne
  · exact fun h => hfields.pairwise_of_forall_ne h

/-- No parameter is named like the limit or the offset unless a field with one parameter is. -/
theorem page_not_mem_names_iff : ("limit" ∉ (filterParameters e).map FilterParameter.name ∧
    "offset" ∉ (filterParameters e).map FilterParameter.name) ↔
      ∀ f ∈ e.filterFields, f.filter ≠ .range → f.name ≠ "limit" ∧ f.name ≠ "offset" := by
  rw [mem_names_iff, mem_names_iff]
  constructor
  · rintro ⟨hlimit, hoffset⟩ f hf hsingle
    have hending : "" ∈ filterEndings f :=
      filterEndings_of_single hf hsingle ▸ List.mem_singleton_self ""
    exact ⟨fun heq => hlimit ⟨f, hf, "", hending, by rw [String.append_empty, heq]⟩,
      fun heq => hoffset ⟨f, hf, "", hending, by rw [String.append_empty, heq]⟩⟩
  · intro h
    -- The bounds of a range end otherwise than the names of the page.
    have hbounds : ∀ s ∈ ["_from", "_to"], Apart s "limit" ∧ Apart s "offset" := by decide
    have hother {n : String} (hn : ∀ s ∈ ["_from", "_to"], Apart s n)
        (hsingle : ∀ f ∈ e.filterFields, f.filter ≠ .range → f.name ≠ n) :
        ¬ ∃ f ∈ e.filterFields, ∃ s ∈ filterEndings f, f.name ++ s = n := by
      rintro ⟨f, hf, s, hs, heq⟩
      by_cases hrange : f.filter = .range
      · rw [filterEndings_of_range hrange] at hs
        exact (hn s hs).append_ne f.name "" (heq.trans String.empty_append.symm)
      · rw [filterEndings_of_single hf hrange] at hs
        obtain rfl := List.mem_singleton.mp hs
        rw [String.append_empty] at heq
        exact hsingle f hf hrange heq
    exact ⟨hother (fun s hs => (hbounds s hs).1) fun f hf hsingle => (h f hf hsingle).1,
      hother (fun s hs => (hbounds s hs).2) fun f hf hsingle => (h f hf hsingle).2⟩

/-- The attributes of the shape are distinct if the names of the parameters are, and none is that of
the limit or the offset. -/
theorem nodup_queryAttributes_iff : (queryAttributes e).Nodup ↔
    ((filterParameters e).map FilterParameter.name).Nodup ∧
      "limit" ∉ (filterParameters e).map FilterParameter.name ∧
      "offset" ∉ (filterParameters e).map FilterParameter.name := by
  have hpage : ["limit", "offset"].Nodup := by decide
  rw [queryAttributes, List.nodup_append', and_iff_right hpage, List.disjoint_cons_right,
    List.disjoint_singleton]

/-! ## The attributes of the shape -/

theorem declaration_text (p : FilterParameter) :
    p.declaration.text = p.name ++ ": " ++ (p.declaration.hint ++ " = None") := by
  simp only [ShapeField.text, FilterParameter.declaration, nonEmpty?, toString, String.append_assoc]
  rfl

/-- No name of a parameter has a character with which a declaration goes on. -/
theorem not_mem_name (he : e.Plain) (hp : p ∈ filterParameters e) : ':' ∉ p.name.toList := by
  have hendings : ∀ s ∈ ["", "_from", "_to"], ':' ∉ s.toList := by decide
  obtain ⟨f, hf, s, hs, heq⟩ := mem_names_iff.mp (List.mem_map.mpr ⟨p, hp, rfl⟩)
  have hending : s ∈ ["", "_from", "_to"] := by
    by_cases hrange : f.filter = .range
    · rw [filterEndings_of_range hrange] at hs
      exact List.mem_cons_of_mem _ hs
    · rw [filterEndings_of_single hf hrange] at hs
      exact List.mem_singleton.mp hs ▸ List.mem_cons_self
  rw [← heq, String.toList_append, List.mem_append, not_or]
  exact ⟨(he.fieldName f (List.mem_filter.mp hf).1).not_mem (by decide), hendings s hending⟩

/-- The shape declares one attribute for each parameter, and the limit and the offset. -/
theorem declaredNames_queryClass (he : e.Plain) :
    (queryClass e).declarations.map declaredName = queryAttributes e := by
  have hparameters : ((filterParameters e).map fun p => p.declaration.text).map declaredName =
      (filterParameters e).map FilterParameter.name := by
    rw [List.map_map]
    refine List.map_congr_left fun p hp => ?_
    rw [Function.comp_apply, declaration_text]
    exact declaredName_append (not_mem_name he hp)
  rw [queryAttributes, ← hparameters, ClassBlock.declarations, queryClass, List.flatMap_singleton,
    List.map_append]
  congr 1

/-! ## What can be asked for -/

/-- Every choice of filter values and of a page can be asked for: the attributes of the shape can be
set so that each parameter, the limit and the offset find the value that is meant for them. -/
def Independent (e : Entity) : Prop :=
  ∀ (filled : List (FilterParameter × Option Value)) (limit offset : Option Value),
    filled.map Prod.fst = filterParameters e → ∃ query : String → Option Value,
      (filterParameters e).map (fun p => (p, query p.name)) = filled ∧
      query "limit" = limit ∧ query "offset" = offset

/-- Distinct names can be given any values. -/
theorem exists_map_eq {names : List String} (h : names.Nodup) {values : List (Option Value)}
    (hlength : values.length = names.length) :
    ∃ query : String → Option Value, names.map query = values := by
  induction names generalizing values with
  | nil => exact ⟨fun _ => none, (List.eq_nil_of_length_eq_zero hlength).symm⟩
  | cons n names ih =>
    obtain ⟨hn, hnames⟩ := List.nodup_cons.mp h
    obtain ⟨v, values, rfl⟩ := List.exists_cons_of_length_eq_add_one hlength
    obtain ⟨query, hquery⟩ := ih hnames (Nat.succ.inj hlength)
    refine ⟨Function.update query n v, ?_⟩
    rw [List.map_cons, Function.update_self, ← hquery]
    congr 1
    refine List.map_congr_left fun i hi => Function.update_of_ne ?_ _ _
    rintro rfl
    exact hn hi

/-- The values that the parameters find are those of the attributes they are named like. -/
theorem map_query_eq_iff {query : String → Option Value}
    {filled : List (FilterParameter × Option Value)}
    (hfilled : filled.map Prod.fst = filterParameters e) :
    (filterParameters e).map (fun p => (p, query p.name)) = filled ↔
      ((filterParameters e).map FilterParameter.name).map query = filled.map Prod.snd := by
  rw [List.map_map]
  constructor
  · rintro rfl
    rw [List.map_map]
    rfl
  · intro h
    rw [List.map_prod_left_eq_zip]
    exact (List.zip_of_prod hfilled h.symm).symm

/-- Values can be chosen freely exactly if no attribute stands for two of them. -/
theorem independent_iff : Independent e ↔ (queryAttributes e).Nodup := by
  constructor
  · intro h
    -- Parameters that are given their positions, without a page, need attributes of their own.
    let positions := (List.range (filterParameters e).length).map fun i : Nat => some (Value.int i)
    have hlength : (filterParameters e).length = positions.length := by
      rw [List.length_map, List.length_range]
    have hfst := List.map_fst_zip (Nat.le_of_eq hlength)
    obtain ⟨query, hquery, hlimit, hoffset⟩ := h ((filterParameters e).zip positions) none none hfst
    rw [map_query_eq_iff hfst, List.map_snd_zip (Nat.le_of_eq hlength.symm)] at hquery
    have habsent {n : String} (hn : query n = none) :
        n ∉ (filterParameters e).map FilterParameter.name := by
      intro hmem
      have hmem := List.mem_map_of_mem (f := query) hmem
      rw [hquery, hn] at hmem
      obtain ⟨i, -, hi⟩ := List.mem_map.mp hmem
      exact nomatch hi
    refine nodup_queryAttributes_iff.mpr ⟨List.Nodup.of_map query ?_, habsent hlimit,
      habsent hoffset⟩
    rw [hquery]
    exact List.nodup_range.map fun i j hij => Int.ofNat.inj (Value.int.inj (Option.some.inj hij))
  · intro h filled limit offset hfilled
    have hlength : (filled.map Prod.snd ++ [limit, offset]).length =
        (queryAttributes e).length := by
      rw [queryAttributes, ← hfilled, List.length_append, List.length_append, List.length_map,
        List.length_map, List.length_map]
      rfl
    obtain ⟨query, hquery⟩ := exists_map_eq h hlength
    rw [queryAttributes, List.map_append] at hquery
    obtain ⟨hparameters, hpage⟩ := List.append_inj' hquery rfl
    obtain ⟨hlimit, hpage⟩ := List.cons.inj hpage
    exact ⟨query, (map_query_eq_iff hfilled).mpr hparameters, hlimit, (List.cons.inj hpage).1⟩

theorem classes_queryModule {runtime : String} {m : Module} (h : queryModule? runtime e = some m) :
    m.classes = [queryClass e] := by
  simp only [queryModule?] at h
  split at h
  · cases h
  · obtain rfl := Option.some.inj h
    rw [classes_eq]
    rfl

/-- With filters there is a query module, and its only class is the shape. For every entity that is
built, the parameters have distinct names that are not those of the page exactly if no field with
one parameter is named like a bound of another field's range or like the limit or the offset.
Exactly then the shape declares each attribute once, and exactly then no parameter takes its value
from the attribute of another or of the page. -/
theorem filterNames_distinct_iff (hb : Build.build d strict = .ok (e, notes))
    (hfilters : e.hasFilters = true) (runtime : String) :
    ∃ m c, moduleFor runtime e .query = some m ∧ m.classes = [c] ∧
      ((((filterParameters e).map FilterParameter.name).Nodup ∧
        "limit" ∉ (filterParameters e).map FilterParameter.name ∧
        "offset" ∉ (filterParameters e).map FilterParameter.name) ↔ FiltersApart e) ∧
      ((c.declarations.map declaredName).Nodup ↔ FiltersApart e) ∧
      (Independent e ↔ FiltersApart e) := by
  have hnames := (Build.consistent_of_build hb).fieldNames_nodup
  have hdistinct : (((filterParameters e).map FilterParameter.name).Nodup ∧
      "limit" ∉ (filterParameters e).map FilterParameter.name ∧
      "offset" ∉ (filterParameters e).map FilterParameter.name) ↔ FiltersApart e := by
    rw [filtersApart_iff, nodup_names_iff hnames, fieldsApart_iff hnames, page_not_mem_names_iff]
  have hattributes : (queryAttributes e).Nodup ↔ FiltersApart e :=
    nodup_queryAttributes_iff.trans hdistinct
  obtain ⟨m, hm, -⟩ := @introduces_query runtime _ hfilters
  refine ⟨m, _, hm, classes_queryModule hm, hdistinct, ?_, independent_iff.trans hattributes⟩
  rw [declaredNames_queryClass (Build.plain_of_build hb)]
  exact hattributes

/-- The values for the filters of an article can be chosen freely. -/
theorem filterNames_distinct_article : ∃ e notes,
    Build.build Build.articleDeclaration false = .ok (e, notes) ∧ e.hasFilters = true ∧
      FiltersApart e ∧ Independent e := by
  obtain ⟨e, notes, hb, hgood⟩ := Build.exists_of_build Build.articleDeclaration false
    (fun e => decide (e.hasFilters = true ∧ FiltersApart e)) (by decide +kernel)
  obtain ⟨hfilters, hapart⟩ := of_decide_eq_true hgood
  obtain ⟨-, -, -, -, -, -, hindependent⟩ :=
    filterNames_distinct_iff hb hfilters ({} : GenerationConfig).runtimeModule
  exact ⟨e, notes, hb, hfilters, hapart, hindependent.mpr hapart⟩

/-- An entity with a field that is named like the limit of the page. -/
def quotaDeclaration : EntityDeclaration where
  name := "Quota"
  attributes := [(.text "table", .text "quotas")]
  fields := some [
    { name := some "id", type := "uuid", attributes := [(.text "id", .bool true)] },
    { name := some "limit", type := "int", attributes := [(.text "filter", .text "eq")] }]

/-- An entity with a field that is named like a bound of another field's range. -/
def visitDeclaration : EntityDeclaration where
  name := "Visit"
  attributes := [(.text "table", .text "visits")]
  fields := some [
    { name := some "id", type := "uuid", attributes := [(.text "id", .bool true)] },
    { name := some "created", type := "datetime", attributes := [(.text "filter", .text "range")] },
    { name := some "created_from", type := "datetime"
      attributes := [(.text "filter", .text "eq")] }]

/-- Both are built, though a parameter of the one is named like the limit of the page, so that its
shape declares an attribute twice, and two parameters of the other have one name. -/
theorem filterNames_not_distinct_quota_visit :
    (∃ e notes, Build.build quotaDeclaration false = .ok (e, notes) ∧ e.hasFilters = true ∧
      "limit" ∈ (filterParameters e).map FilterParameter.name ∧
      (queryClass e).declarations.map declaredName = ["limit", "limit", "offset"]) ∧
    ∃ e notes, Build.build visitDeclaration false = .ok (e, notes) ∧ e.hasFilters = true ∧
      (filterParameters e).map FilterParameter.name =
        ["created_from", "created_to", "created_from"] ∧
      ¬ ((filterParameters e).map FilterParameter.name).Nodup := by
  constructor
  · obtain ⟨e, notes, hb, hgood⟩ := Build.exists_of_build quotaDeclaration false
      (fun e => decide (e.hasFilters = true ∧
        "limit" ∈ (filterParameters e).map FilterParameter.name ∧
        (queryClass e).declarations.map declaredName = ["limit", "limit", "offset"]))
      (by decide +kernel)
    exact ⟨e, notes, hb, of_decide_eq_true hgood⟩
  · obtain ⟨e, notes, hb, hgood⟩ := Build.exists_of_build visitDeclaration false
      (fun e => decide (e.hasFilters = true ∧ (filterParameters e).map FilterParameter.name =
        ["created_from", "created_to", "created_from"])) (by decide +kernel)
    obtain ⟨hfilters, hnames⟩ := of_decide_eq_true hgood
    exact ⟨e, notes, hb, hfilters, hnames, hnames ▸ by decide⟩

end EntityForge.Package
