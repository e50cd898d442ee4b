import EntityForge.Proofs.Build
import EntityForge.Proofs.FindingCode
import EntityForge.Validation.Document
import Mathlib.Data.List.Forall2

/-!
# What strict references change

Strictness is asked for only where a dangling reference is recorded, and there it decides nothing
but the severity. A strict run and a lenient run therefore go through the same steps side by side,
with the same results and the same findings up to severity; `Noted.Stricter` relates the two and is
kept by every way of joining computations. A build reads the severities when all parts are made, so
a strict build ends like the lenient one unless a dangling reference was found.
-/

namespace EntityForge

/-- A finding of a strict run and the one of the lenient run in its place: both say the same, and a
finding under one of some codes is an error of the strict run and a warning of the lenient one. -/
structure Diagnostic.Counterpart (codes : List String) (s l : Diagnostic) : Prop where
  code : s.code = l.code
  message : s.message = l.message
  context : s.context = l.context
  raised : l.code ∈ codes → s.severity = .error ∧ l.severity = .warning
  kept : l.code ∉ codes → s.severity = l.severity

namespace Diagnostic.Counterpart

variable {codes : List String} {s l : Diagnostic}

/-- A finding under another code is its own counterpart. -/
theorem of_not_mem (h : l.code ∉ codes) : Counterpart codes l l :=
  ⟨rfl, rfl, rfl, fun hm => absurd hm h, fun _ => rfl⟩

/-- Where no code is graver in a strict run, the findings are the same. -/
theorem eq_of_not_mem (h : Counterpart codes s l) (hn : l.code ∉ codes) : s = l := by
  have hseverity := h.kept hn
  obtain ⟨hcode, hmessage, hcontext, -, -⟩ := h
  cases s
  cases l
  simp_all only

/-- The finding of the strict run is an error when the other is one or has a graver code. -/
theorem isError_eq_false_iff (h : Counterpart codes s l) :
    s.isError = false ↔ l.isError = false ∧ l.code ∉ codes := by
  by_cases hm : l.code ∈ codes
  · have hs : s.isError = true := by rw [Diagnostic.isError, (h.raised hm).1]; rfl
    simp [hs, hm]
  · rw [h.eq_of_not_mem hm]
    simp [hm]

end Diagnostic.Counterpart

namespace Diagnostics

variable {codes : List String} {s l : Diagnostics}

/-- The findings of the strict run hold no error when the others hold neither an error nor one of
the codes. -/
theorem hasErrors_eq_false_iff (h : List.Forall₂ (Diagnostic.Counterpart codes) s l) :
    hasErrors s = false ↔ hasErrors l = false ∧ ∀ n ∈ l, n.code ∉ codes := by
  induction h with
  | nil => simp
  | cons hn _ ih =>
    rw [hasErrors_cons, hasErrors_cons, Bool.or_eq_false_iff, Bool.or_eq_false_iff, ih,
      hn.isError_eq_false_iff, List.forall_mem_cons]
    exact and_and_and_comm

/-- Without one of the codes, a strict run finds what a lenient run finds. -/
theorem eq_of_counterparts (h : List.Forall₂ (Diagnostic.Counterpart codes) s l)
    (hn : ∀ n ∈ l, n.code ∉ codes) : s = l := by
  induction h with
  | nil => rfl
  | cons hhead _ ih =>
    rw [List.forall_mem_cons] at hn
    rw [hhead.eq_of_not_mem hn.1, ih hn.2]

end Diagnostics

namespace Noted

variable {α β : Type} {codes own : List String}

/-- A strict computation beside the lenient one: they end with the same result, and their findings
correspond in order. -/
structure Stricter (codes : List String) (s l : Noted α) : Prop where
  value : s.value = l.value
  notes : List.Forall₂ (Diagnostic.Counterpart codes) s.notes l.notes

/-- A computation that knows nothing of strictness, and finds nothing under the codes. -/
theorem stricter_of_coded {x : Noted α} (h : x.Coded own) (hd : ∀ c ∈ own, c ∉ codes) :
    Stricter codes x x := by
  refine ⟨rfl, List.forall₂_same.mpr fun n hn => ?_⟩
  exact .of_not_mem (hd n.code (h n hn))

theorem stricter_pure (a : α) : Stricter codes (pure a : Noted α) (pure a) := ⟨rfl, .nil⟩

/-- A dangling reference is where the two runs differ. -/
theorem stricter_dangling {code : String} (h : code ∈ codes) (message : String)
    (context : Context) :
    Stricter codes (dangling true code message context) (dangling false code message context) :=
  ⟨rfl, .cons ⟨rfl, rfl, rfl, fun _ => ⟨rfl, rfl⟩, fun hn => absurd h hn⟩ .nil⟩

/-- Both runs go on from the same result. -/
theorem Stricter.bind {x y : Noted α} {f g : α → Noted β} (hx : Stricter codes x y)
    (hf : Stricter codes (f y.value) (g y.value)) : Stricter codes (x >>= f) (y >>= g) := by
  constructor
  · rw [value_bind, value_bind, hx.value]
    exact hf.value
  · rw [notes_bind, notes_bind, hx.value]
    exact List.rel_append hx.notes hf.notes

theorem Stricter.each {f g : α → Noted Unit} (h : ∀ a, Stricter codes (f a) (g a)) (as : List α) :
    Stricter codes (Noted.each f as) (Noted.each g as) := by
  induction as with
  | nil => exact stricter_pure ()
  | cons a as ih => exact (h a).bind ih

theorem Stricter.collect {f g : α → Noted (Option β)} (h : ∀ a, Stricter codes (f a) (g a))
    (as : List α) : Stricter codes (Noted.collect f as) (Noted.collect g as) := by
  induction as with
  | nil => exact stricter_pure []
  | cons a as ih =>
    have hf : (f a).value = (g a).value := (h a).value
    rw [Noted.collect, Noted.collect]
    exact (h a).bind (ih.bind (stricter_pure _))

/-- The strict run is without an error when the lenient one is, and finds nothing under the
codes. -/
theorem Stricter.clean_iff {x y : Noted α} (h : Stricter codes x y) :
    x.Clean ↔ y.Clean ∧ ∀ n ∈ y.notes, n.code ∉ codes :=
  Diagnostics.hasErrors_eq_false_iff h.notes

/-- If nothing was found under the codes, the two runs are one. -/
theorem Stricter.eq {x y : Noted α} (h : Stricter codes x y)
    (hn : ∀ n ∈ y.notes, n.code ∉ codes) : x = y := by
  have hvalue := h.value
  have hnotes := Diagnostics.eq_of_counterparts h.notes hn
  cases x
  cases y
  simp_all only

end Noted

namespace Build

open Noted

/-! ## References -/

/-- The codes of the references that can dangle in a declaration. -/
def danglingCodes : List String :=
  ["PROJECTION_FIELD_UNKNOWN", "INDEX_COLUMN_UNKNOWN", "COMMAND_FIELD_UNKNOWN"]

/-- References are resolved by one check for every name. -/
theorem stricter_references {known : String → Bool} {code : String} (h : code ∈ danglingCodes)
    (message : String → String) (context : String → Context) (names : List String) :
    Stricter danglingCodes
      (each (fun n => if known n then pure () else dangling true code (message n) (context n)) names)
      (each (fun n => if known n then pure () else dangling false code (message n) (context n))
        names) := by
  refine Stricter.each (fun n => ?_) names
  split
  · exact stricter_pure ()
  · exact stricter_dangling h _ _

theorem stricter_projection (entity : String) (known : List String) (p : Projection) :
    Stricter danglingCodes (projection entity known true p) (projection entity known false p) := by
  unfold projection
  refine (stricter_references (by decide) _ _ _).bind ?_
  have hempty (message : String) (context : Context) :
      (Noted.warning "PROJECTION_EMPTY" message context).Coded ["PROJECTION_EMPTY"] := by simp
  dsimp only
  split
  · exact (stricter_of_coded (hempty _ _) (by decide)).bind (stricter_pure none)
  · exact stricter_pure _

theorem stricter_index (entity : String) (fields : List Field) (i : CompositeIndex) :
    Stricter danglingCodes (index entity fields true i) (index entity fields false i) :=
  (stricter_references (by decide) _ _ _).bind (stricter_pure _)

theorem stricter_command (entity : String) (known : List String) (c : Command) :
    Stricter danglingCodes (command entity known true c) (command entity known false c) :=
  (stricter_references (by decide) _ _ _).bind (stricter_pure _)

/-! ## Parts -/

/-- The codes of what can be found about a field of a declaration. -/
def fieldCodes : List String := "INVALID_TYPE" :: Attribute.codes

/-- The codes of what can be found about the fields and the table of a declaration. -/
def partCodes : List String :=
  "INVALID_TYPE" :: "MISSING_TABLE" :: "MISSING_ID" :: "MULTIPLE_IDS" :: Attribute.codes

theorem attributeCodes_subset : Attribute.codes ⊆ partCodes := by decide

theorem fieldCodes_subset : fieldCodes ⊆ partCodes := by decide

theorem coded_field (entity : String) (d : FieldDeclaration) :
    (field entity d).Coded fieldCodes := by
  rw [field, coded_bind]
  refine ⟨(Attribute.coded_fieldAttributes _ _ _).mono (List.subset_cons_self _ _), ?_⟩
  split
  · exact coded_pure _
  · rw [coded_bind, coded_error]
    exact ⟨by simp [fieldCodes], coded_pure _⟩

theorem coded_identifier (entity : String) (fields : List Field) :
    (identifier entity fields).Coded partCodes := by
  unfold identifier
  split
  · exact coded_pure _
  · simp [partCodes]
  · simp [partCodes]

theorem partCodes_not_dangling : ∀ c ∈ partCodes, c ∉ danglingCodes := by decide

/-- A strict build makes the same parts as a lenient one. -/
theorem stricter_parts (d : EntityDeclaration) :
    Stricter danglingCodes (parts d true) (parts d false) := by
  have own {α : Type} {x : Noted α} (h : x.Coded partCodes) : Stricter danglingCodes x x :=
    stricter_of_coded h partCodes_not_dangling
  have hattributes :=
    (Attribute.coded_entityAttributes d.name d.attributes).mono attributeCodes_subset
  have hfields := (coded_collect (coded_field d.name) (d.fields.getD [])).mono fieldCodes_subset
  unfold parts
  refine (own hattributes).bind ((own hfields).bind ?_)
  dsimp only
  split
  -- A missing table is one more finding; both ways go on alike.
  on_goal 1 => refine (own (by simp [partCodes])).bind ?_
  all_goals
    refine (own (coded_identifier _ _)).bind ?_
    refine (Stricter.collect (stricter_projection _ _) _).bind ?_
    refine (Stricter.collect (stricter_index _ _) _).bind ?_
    refine (Stricter.collect (stricter_command _ _) _).bind ?_
    exact stricter_pure _

/-! ## Builds -/

variable {d : EntityDeclaration} {e : Entity} {notes : Diagnostics}

/-- A build ends with an entity when nothing is wrong with its shape, its parts or the entity made
of them. -/
theorem build_eq_ok_iff {strict : Bool} : build d strict = .ok (e, notes) ↔
    (shape d).Clean ∧ (parts d strict).Clean ∧ assemble? d (parts d strict).value = some e ∧
      (Validation.entity e).Clean ∧
      (parts d strict).notes ++ (Validation.entity e).notes = notes := by
  by_cases hs : (shape d).Clean
  · by_cases hp : (parts d strict).Clean
    · obtain ⟨e', he, -⟩ := complete_of_clean_parts hp
      have hn : Diagnostics.hasErrors (parts d strict).notes = false := hp
      rw [build_of_clean_parts hs hp he, he]
      simp only [Diagnostics.hasErrors_append, hn, Bool.false_or, hs, hp, true_and,
        Option.some.injEq]
      split
      · rename_i hv
        constructor
        · intro h
          cases h
        · rintro ⟨rfl, hc, -⟩
          exact absurd hc (not_clean_iff.mpr hv)
      · rename_i hv
        have hc : (Validation.entity e').Clean := (Bool.not_eq_true _).mp hv
        constructor
        · intro h
          cases h
          exact ⟨rfl, hc, rfl⟩
        · rintro ⟨rfl, -, rfl⟩
          rfl
    · simp [build_of_not_clean_parts hs hp, hp]
  · simp [build_of_not_clean_shape hs, hs]

/-- Validation finds no dangling reference. -/
theorem validation_not_dangling : ∀ n ∈ (Validation.entity e).notes, n.code ∉ danglingCodes := by
  have hcodes : ∀ c ∈ Validation.codes, c ∉ danglingCodes := by decide
  intro n hn
  exact hcodes n.code (Validation.coded_entity e n hn)

/-- A strict build ends with an entity exactly when the lenient one ends with the same entity and
the same findings, none of which is a dangling reference. -/
theorem strict_build_eq_ok_iff : build d true = .ok (e, notes) ↔
    build d false = .ok (e, notes) ∧ ∀ n ∈ notes, n.code ∉ danglingCodes := by
  have hparts := stricter_parts d
  rw [build_eq_ok_iff, build_eq_ok_iff, hparts.clean_iff]
  constructor
  · rintro ⟨hs, ⟨hp, hn⟩, he, hv, rfl⟩
    rw [hparts.eq hn] at he ⊢
    refine ⟨⟨hs, hp, he, hv, rfl⟩, List.forall_mem_append.mpr ⟨hn, validation_not_dangling⟩⟩
  · rintro ⟨⟨hs, hp, he, hv, rfl⟩, hd⟩
    have hn := (List.forall_mem_append.mp hd).1
    rw [hparts.eq hn]
    exact ⟨hs, ⟨hp, hn⟩, he, hv, rfl⟩

/-! ## Relations -/

/-- A relation without a target is graver in a strict run, and nothing else is. -/
theorem stricter_relationTargets (es : List Entity) :
    Stricter ["RELATION_TARGET_UNKNOWN"] (Validation.relationTargets es true)
      (Validation.relationTargets es false) := by
  refine Stricter.each (fun e => Stricter.each (fun target => ?_) _) es
  have hmismatch (condition : Bool) (message : String) (context : Context) :
      (Validation.when condition (.warning "RELATION_TABLE_MISMATCH" message context)).Coded
        ["RELATION_TABLE_MISMATCH"] := Validation.coded_when (by simp)
  unfold Validation.relationTarget
  dsimp only
  split
  · exact stricter_dangling (by simp) _ _
  · exact stricter_of_coded (hmismatch _ _ _) (by simp)

/-- Strict references refuse exactly the declarations in which the lenient build found a dangling
reference, and change nothing about the others; across entities they change severities alone. -/
theorem strict_references_exact :
    (∀ d : EntityDeclaration,
      ((∃ built, build d true = .ok built) ↔
        ∃ e notes, build d false = .ok (e, notes) ∧ ∀ n ∈ notes, n.code ∉ danglingCodes) ∧
      ∀ strict lenient, build d true = .ok strict → build d false = .ok lenient →
        strict = lenient) ∧
    ∀ es : List Entity, List.Forall₂ (Diagnostic.Counterpart ["RELATION_TARGET_UNKNOWN"])
      (Validation.relationTargets es true).notes (Validation.relationTargets es false).notes := by
  refine ⟨fun d => ⟨?_, ?_⟩, fun es => (stricter_relationTargets es).notes⟩
  · constructor
    · rintro ⟨⟨e, notes⟩, h⟩
      exact ⟨e, notes, strict_build_eq_ok_iff.mp h⟩
    · rintro ⟨e, notes, h⟩
      exact ⟨(e, notes), strict_build_eq_ok_iff.mpr h⟩
  · rintro ⟨e, notes⟩ lenient hstrict hlenient
    have h := (strict_build_eq_ok_iff.mp hstrict).1
    rw [h] at hlenient
    exact Except.ok.inj hlenient

/-- In an article nothing dangles, and so both builds end alike. -/
theorem strict_references_exact_article : ∃ built,
    build articleDeclaration true = .ok built ∧ build articleDeclaration false = .ok built := by
  obtain ⟨e, notes, hstrict, -⟩ :=
    exists_of_build articleDeclaration true (fun _ => true) (by decide +kernel)
  obtain ⟨hiff, hsame⟩ := strict_references_exact.1 articleDeclaration
  obtain ⟨e', notes', hlenient, -⟩ := hiff.mp ⟨_, hstrict⟩
  have heq : (e, notes) = (e', notes') := hsame _ _ hstrict hlenient
  exact ⟨(e, notes), hstrict, heq ▸ hlenient⟩

end Build

end EntityForge
