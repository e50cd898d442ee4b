import EntityForge.Proofs.Nullability
import EntityForge.Proofs.Provision

/-!
# New entities

The request that creates an entity calls the constructor of its class with one argument for each
field. What an argument is follows from the field alone: a fresh identifier, an attribute of the
request, or the zero value of the type. The last one is where the request and the table can part,
because it looks at the type of the field and not at the column: a type without a zero value of its
own leaves a column empty that has to be filled.
-/

namespace EntityForge

/-! ## Zero values -/

/-- The type of one value of a known base. -/
def FieldType.isSingle (t : FieldType) (b : BaseType) : Bool :=
  t.known && t.base == b.name && t.arrayDim == 0

theorem BaseType.zero_eq_none_iff (b : BaseType) : b.zero.1 = "None" ↔ b = .json ∨ b = .ip := by
  cases b <;> decide

theorem BaseType.eq_of_ofName? {s : String} {b : BaseType} (h : ofName? s = some b) :
    s = b.name := by
  have hname := List.find?_some (p := fun b : BaseType => b.name == s) h
  exact (beq_iff_eq.mp hname).symm

theorem BaseType.name_inj {a b : BaseType} (h : a.name = b.name) : a = b :=
  Option.some.inj (ofName?_name a ▸ h ▸ ofName?_name b)

/-- The zero value of a type is nothing if the type is optional or custom, and of the known bases
only for a single value of two. -/
theorem FieldType.zeroValue_eq_none_iff {t : FieldType} (h : t.isDangling = false) :
    t.zeroValue.1 = "None" ↔ t.nullable = true ∨ t.known = false ∨
      t.isSingle .json = true ∨ t.isSingle .ip = true := by
  cases hn : t.nullable with
  | true => simp [zeroValue, hn]
  | false =>
    cases hk : t.known with
    | false => simp [zeroValue, hn, hk]
    | true =>
      cases hd : t.arrayDim with
      | succ n => simp [zeroValue, isSingle, hn, hk, hd]
      | zero =>
        obtain ⟨b, hb⟩ : ∃ b, BaseType.ofName? t.base = some b := by
          rw [isDangling, hk, Bool.true_and, Option.isNone_eq_false_iff] at h
          exact Option.isSome_iff_exists.mp h
        have hzero : t.zeroValue.1 = b.zero.1 := by
          simp [zeroValue, baseType?, hn, hk, hd, hb]
        have hsingle (c : BaseType) : t.isSingle c = true ↔ b = c := by
          simp only [isSingle, hk, hd, BaseType.eq_of_ofName? hb, beq_self_eq_true, Bool.true_and,
            Bool.and_true, beq_iff_eq]
          exact ⟨BaseType.name_inj, congrArg _⟩
        rw [hzero, hsingle, hsingle, BaseType.zero_eq_none_iff]
        simp only [Bool.true_eq_false, Bool.false_eq_true, false_or]

/-- The text speaks of the object that a method belongs to. -/
def SpeaksOfSelf (s : String) : Prop := "self".toList <:+: s.toList

theorem not_speaksOfSelf {s : String} (h : 'f' ∉ s.toList) : ¬ SpeaksOfSelf s :=
  fun hs => h (hs.subset (by decide))

theorem BaseType.not_mem_zero (b : BaseType) : 'f' ∉ b.zero.1.toList := by
  cases b <;> decide

theorem FieldType.zeroValue_not_speaksOfSelf (t : FieldType) : ¬ SpeaksOfSelf t.zeroValue.1 := by
  refine not_speaksOfSelf ?_
  simp only [zeroValue]
  split
  · decide
  · split
    · decide
    · cases t.baseType? with
      | none => decide
      | some b => exact b.not_mem_zero

/-- A type for which nothing stands by intent: it is optional, custom or that of one document. -/
def FieldType.isOpen (t : FieldType) : Bool := t.nullable || !t.known || t.isSingle .json

/-- The definition of the column has the words that there always is a value. -/
def Postgres.Column.MentionsNotNull (c : Postgres.Column) : Prop :=
  "NOT NULL".toList <:+: c.text.toList

namespace Source

/-- The class declares an attribute. -/
def ClassBlock.Declares (c : ClassBlock) (name : String) : Prop :=
  ∃ line ∈ c.declarations, (name ++ ": ").toList <+: line.toList

end Source

namespace Package

open Source

variable {d : EntityDeclaration} {strict : Bool} {e : Entity} {notes : Diagnostics} {f : Field}

/-! ## The arguments of the constructor -/

theorem mem_createFields : f ∈ e.createFields ↔
    f ∈ e.fields ∧ f.inCreate = true ∧ f.isId = false ∧ f.isAuto = false := by
  simp only [Entity.createFields, List.mem_filter, Bool.and_eq_true, Bool.not_eq_true', and_assoc]

/-- Where the value of a field of a new entity can come from. -/
theorem initial_cases (e : Entity) (f : Field) :
    initial e f = .fresh (freshFunction e.uuidVersion) ∨ initial e f = .request f.name ∨
      initial e f = .zero f.type.zeroValue.1 := by
  simp only [initial]
  split
  · split
    · exact Or.inl rfl
    · exact Or.inr (Or.inr rfl)
  · split
    · exact Or.inr (Or.inl rfl)
    · exact Or.inr (Or.inr rfl)

/-- Where fields differ in name, the value of one is taken from the request exactly if the field
stands in it. -/
theorem initial_eq_request_iff (hnames : (e.fields.map Field.name).Nodup) (hf : f ∈ e.fields) :
    initial e f = .request f.name ↔ f ∈ e.createFields := by
  have hany : (e.createFields.any fun g => g.name == f.name) = true ↔ f ∈ e.createFields := by
    rw [List.any_eq_true]
    constructor
    · rintro ⟨g, hg, hname⟩
      have hgf :=
        List.inj_on_of_nodup_map hnames (mem_createFields.mp hg).1 hf (beq_iff_eq.mp hname)
      rwa [← hgf]
    · exact fun h => ⟨f, h, beq_self_eq_true _⟩
  cases hid : f.isId with
  | true =>
    have hcreate : f ∉ e.createFields := by simp [mem_createFields, hid]
    refine iff_of_false (fun h => ?_) hcreate
    simp only [initial, hid, if_true] at h
    split at h <;> exact nomatch h
  | false =>
    simp only [initial, hid, Bool.false_eq_true, if_false, hany]
    split <;> simp [*]

/-- A field that is neither identifier nor in the request gets the zero value of its type. -/
theorem initial_eq_zero (hnames : (e.fields.map Field.name).Nodup) (hf : f ∈ e.fields)
    (hid : f.isId = false) (hcreate : f ∉ e.createFields) :
    initial e f = .zero f.type.zeroValue.1 := by
  rcases initial_cases e f with h | h | h
  · simp only [initial, hid, Bool.false_eq_true, if_false] at h
    split at h <;> exact nomatch h
  · exact absurd ((initial_eq_request_iff hnames hf).mp h) hcreate
  · exact h

/-- An argument that speaks of the request is an attribute of it. -/
theorem initial_eq_of_speaksOfSelf (h : SpeaksOfSelf (initial e f).text) :
    initial e f = .request f.name := by
  have hfresh (v : UuidVersion) : 'f' ∉ (Initial.fresh (freshFunction v)).text.toList := by
    cases v <;> decide
  rcases initial_cases e f with hi | hi | hi
  · rw [hi] at h
    exact absurd h (not_speaksOfSelf (hfresh _))
  · exact hi
  · rw [hi] at h
    exact absurd h f.type.zeroValue_not_speaksOfSelf

/-- The arguments as they are written: the name of the attribute and the expression. -/
def writtenArguments (e : Entity) : List (String × String) :=
  (newEntityArguments e).map fun a => (a.1, a.2.text)

theorem names_writtenArguments (e : Entity) :
    (writtenArguments e).map Prod.fst = e.fields.map Field.name := by
  simp only [writtenArguments, newEntityArguments, List.map_map]
  rfl

theorem mem_writtenArguments {a : String × String} :
    a ∈ writtenArguments e ↔ ∃ f ∈ e.fields, a = (f.name, (initial e f).text) := by
  simp only [writtenArguments, newEntityArguments, List.map_map, List.mem_map,
    Function.comp_apply, eq_comm]

/-- The argument for a field is determined by the field. -/
theorem eq_of_mem_writtenArguments (hnames : (e.fields.map Field.name).Nodup) (hf : f ∈ e.fields)
    {value : String} (h : (f.name, value) ∈ writtenArguments e) : value = (initial e f).text := by
  obtain ⟨g, hg, heq⟩ := mem_writtenArguments.mp h
  obtain ⟨hname, rfl⟩ := Prod.mk.inj heq
  rw [List.inj_on_of_nodup_map hnames hf hg hname]

/-- The request declares each of its fields. -/
theorem declares_createRequest (hf : f ∈ e.createFields) : (createRequest e).Declares f.name := by
  obtain ⟨rest, hline⟩ := text_shapeField false f
  refine ⟨(shapeField false f).text, ?_, ?_⟩
  · simp only [ClassBlock.declarations, createRequest, shapeAttributes, List.flatMap_cons,
      List.mem_append]
    exact Or.inl (List.mem_map_of_mem hf)
  · have hsplit : (shapeField false f).text.toList =
        (f.name ++ ": ").toList ++ ((f.type.hint false).text ++ rest).toList := by
      rw [hline, String.append_assoc, ← String.toList_append]
    rw [hsplit]
    exact List.prefix_append _ _

/-- The only method of the request returns what the constructor of the entity makes of the
arguments. -/
theorem methods_createRequest (e : Entity) : ∃ method, (createRequest e).methods = [method] ∧
    method.name = "to_entity" ∧ method.body = returnCall e.name (writtenArguments e) :=
  ⟨_, rfl, rfl, rfl⟩

/-- Arguments from which the constructor of an entity makes a complete one: each field has one, in
order; what is taken from the request is declared there; and of the other fields whose columns have
to be filled, only those get nothing whose types have no zero value of their own. -/
structure Completes (e : Entity) (request : ClassBlock) (arguments : List (String × String)) :
    Prop where
  names : arguments.map Prod.fst = e.fields.map Field.name
  nodup : (arguments.map Prod.fst).Nodup
  taken : ∀ a ∈ arguments, SpeaksOfSelf a.2 →
    ∃ f ∈ e.createFields, a.2 = "self." ++ f.name ∧ request.Declares f.name
  filled : ∀ f ∈ e.fields, f.isId = false → f ∉ e.createFields →
    (Postgres.column e f).MentionsNotNull → ∀ value, (f.name, value) ∈ arguments →
      ((Postgres.column e f).SaysNotNull → f.type.nullable = false) ∧
      (f.type.isOpen = true → value = "None") ∧
      (value = "None" → f.type.isOpen = true ∨ f.type.isSingle .ip = true)

theorem completes_writtenArguments (hb : Build.build d strict = .ok (e, notes)) :
    Completes e (createRequest e) (writtenArguments e) := by
  have hnames := (Build.consistent_of_build hb).fieldNames_nodup
  refine ⟨names_writtenArguments e, names_writtenArguments e ▸ hnames, ?_, ?_⟩
  · intro a ha hself
    obtain ⟨f, hf, rfl⟩ := mem_writtenArguments.mp ha
    have hinitial := initial_eq_of_speaksOfSelf hself
    have hcreate := (initial_eq_request_iff hnames hf).mp hinitial
    exact ⟨f, hcreate, by rw [hinitial, Initial.text], declares_createRequest hcreate⟩
  · intro f hf hid hcreate _ value hvalue
    have hzero := eq_of_mem_writtenArguments hnames hf hvalue
    rw [initial_eq_zero hnames hf hid hcreate, Initial.text] at hzero
    have hnone := FieldType.zeroValue_eq_none_iff (Build.isDangling_of_build hb f hf)
    rw [hzero, hnone]
    refine ⟨fun hsays => ?_, ?_, ?_⟩
    · have hnull := (Postgres.saysNotNull_column hid).mp hsays
      exact (Bool.or_eq_false_iff.mp hnull).1
    · simp only [FieldType.isOpen, Bool.or_eq_true, Bool.not_eq_true', or_assoc]
      exact fun h => h.imp_right (Or.imp_right Or.inl)
    · simp only [FieldType.isOpen, Bool.or_eq_true, Bool.not_eq_true', or_assoc, imp_self]

/-- If there are fields to take on creation, the transfer module has a request whose only method
makes the entity from complete arguments. -/
theorem new_entity_complete (runtime : String) (hb : Build.build d strict = .ok (e, notes))
    (hc : e.createFields ≠ []) :
    ∃ m method arguments, transferModule? runtime e = some m ∧ createRequest e ∈ m.classes ∧
      (createRequest e).methods = [method] ∧ method.name = "to_entity" ∧
      method.body = returnCall e.name arguments ∧ Completes e (createRequest e) arguments := by
  obtain ⟨imports, hshape⟩ : ∃ imports, (createRequest e, imports) ∈ shapes runtime e :=
    createRequest_mem_shapes (List.isEmpty_eq_false_iff.mpr hc)
  obtain ⟨m, hm, hclass⟩ := shape_mem_classes hshape
  obtain ⟨method, hmethod, hname, hbody⟩ := methods_createRequest e
  exact ⟨m, method, _, hm, hclass, hmethod, hname, hbody, completes_writtenArguments hb⟩

/-- An article is created from its title. -/
theorem new_entity_complete_article :
    ∃ e notes, Build.build Build.articleDeclaration false = .ok (e, notes) ∧ e.createFields ≠ [] ∧
      (∃ f ∈ e.fields, f.isId = false ∧ f ∉ e.createFields ∧
        (Postgres.column e f).text = "written_at TIMESTAMPTZ NOT NULL" ∧
        (f.name, "datetime.now(timezone.utc)") ∈ writtenArguments e) ∧
      ∃ m method arguments, transferModule? "entitygen.runtime" e = some m ∧
        createRequest e ∈ m.classes ∧ (createRequest e).methods = [method] ∧
        method.name = "to_entity" ∧ method.body = returnCall e.name arguments ∧
        Completes e (createRequest e) arguments := by
  obtain ⟨e, notes, hb, h⟩ := Build.exists_of_build Build.articleDeclaration false
    (fun e => decide (e.createFields ≠ [] ∧ ∃ f ∈ e.fields, f.isId = false ∧ f ∉ e.createFields ∧
      (Postgres.column e f).text = "written_at TIMESTAMPTZ NOT NULL" ∧
      (f.name, "datetime.now(timezone.utc)") ∈ writtenArguments e)) (by decide +kernel)
  obtain ⟨hc, hwritten⟩ := of_decide_eq_true h
  exact ⟨e, notes, hb, hc, hwritten, new_entity_complete "entitygen.runtime" hb hc⟩

/-- An entity with a document that is not taken on creation. -/
def pageDeclaration : EntityDeclaration where
  name := "Page"
  attributes := [(.text "table", .text "pages"), (.text "migrations", .bool true)]
  fields := some [
    { name := some "id", type := "uuid", attributes := [(.text "id", .bool true)] },
    { name := some "title", type := "string", attributes := [(.text "field", .text "create")] },
    { name := some "settings", type := "json" }]

/-- The column of the page's settings has to be filled, but the request passes nothing for it: no
page can be stored as the request makes it. -/
theorem new_entity_incomplete_page :
    ∃ e notes, Build.build pageDeclaration false = .ok (e, notes) ∧ e.createFields ≠ [] ∧
      ∃ f ∈ e.fields, f.isId = false ∧ f ∉ e.createFields ∧
        (Postgres.column e f).text = "settings JSONB NOT NULL" ∧
        (Postgres.column e f).MentionsNotNull ∧
        ∃ method, (createRequest e).methods = [method] ∧ method.name = "to_entity" ∧
          method.body = returnCall e.name
            [("id", "uuid7()"), ("title", "self.title"), ("settings", "None")] := by
  obtain ⟨e, notes, hb, h⟩ := Build.exists_of_build pageDeclaration false
    (fun e => decide (e.createFields ≠ [] ∧ (∃ f ∈ e.fields, f.isId = false ∧ f ∉ e.createFields ∧
      (Postgres.column e f).text = "settings JSONB NOT NULL") ∧
      writtenArguments e = [("id", "uuid7()"), ("title", "self.title"), ("settings", "None")]))
    (by decide +kernel)
  obtain ⟨hc, ⟨f, hf, hid, hcreate, htext⟩, harguments⟩ := of_decide_eq_true h
  obtain ⟨method, hmethod, hname, hbody⟩ := methods_createRequest e
  refine ⟨e, notes, hb, hc, f, hf, hid, hcreate, htext, ?_, method, hmethod, hname, ?_⟩
  · rw [Postgres.Column.MentionsNotNull, htext]
    exact ⟨"settings JSONB ".toList, [], by decide⟩
  · rw [hbody, harguments]

end Package

end EntityForge
