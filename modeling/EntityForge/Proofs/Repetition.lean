import EntityForge.Proofs.Handler
import EntityForge.Proofs.Nullability

/-!
# When projections and payloads say everything once

A projection keeps a field as often as it is listed. Its class then declares the field that often,
and both of its constructors pass it that often. The payload of a command takes fields of the
entity, which have distinct names; but the identifier is declared under a name of its own in front
of them, whatever the identifier of the entity is called, and another field can have that name.
Exactly then, and where a projection lists a field twice, something is written twice.
-/

namespace EntityForge

namespace Source

/-! ## Keywords -/

/-- The keyword in a line of a call, if the line passes one. -/
def CodeLine.keyword? (l : CodeLine) : Option String :=
  if '=' ∈ l.text.toList then some (.ofList (l.text.toList.takeWhile (· ≠ '='))) else none

/-- The keywords that a function passes on, in order. -/
def Function.keywords (f : Function) : List String := f.body.filterMap CodeLine.keyword?

theorem keyword?_argument {name value : String} (h : '=' ∉ name.toList) :
    (CodeLine.mk 1 (name ++ "=" ++ value ++ ",")).keyword? = some name := by
  have hchars : (name ++ "=" ++ value ++ ",").toList =
      name.toList ++ '=' :: (value.toList ++ [',']) := by
    simp only [String.toList_append, List.append_assoc]
    rfl
  rw [CodeLine.keyword?, hchars, if_pos (by simp), Text.takeWhile_append_of_not_mem h,
    String.ofList_toList]

end Source

namespace Package

open Source

/-- The keywords of a call are those of its arguments. -/
theorem keywords_returnCall {arguments : List (String × String)}
    (h : ∀ a ∈ arguments, '=' ∉ a.1.toList) :
    (returnCall "cls" arguments).filterMap CodeLine.keyword? = arguments.map Prod.fst := by
  have hread : ∀ a ∈ arguments, (CodeLine.mk 1 (a.1 ++ "=" ++ a.2 ++ ",")).keyword? = some a.1 :=
    fun a ha => keyword?_argument (h a ha)
  have hfirst : (CodeLine.mk 0 (toString "return " ++ toString "cls" ++ toString "(")).keyword? =
      none := by
    decide
  have hlast : (CodeLine.mk 0 ")").keyword? = none := by decide
  simp only [returnCall, List.filterMap_append, List.filterMap_cons, List.filterMap_nil, hfirst,
    hlast, List.nil_append, List.append_nil, List.filterMap_map]
  exact List.filterMap_eq_map_iff_forall_eq_some.mpr hread

variable {d : EntityDeclaration} {strict : Bool} {e : Entity} {notes : Diagnostics}
  {p : Projection} {c : Command}

/-! ## Projections -/

/-- A projection has the fields that it lists, in order and as often. -/
theorem names_projectionFields (he : e.Consistent) (hp : p ∈ e.projections) :
    (e.projectionFields p).map Field.name = p.fields := by
  have hfound : ∀ n ∈ p.fields, (e.field? n).map Field.name = some n := by
    intro n hn
    obtain ⟨f, hf, rfl⟩ := List.mem_map.mp ((he.projection_fields p hp).2 n hn)
    have hfield : e.field? f.name = some f := find?_of_nodup he.fieldNames_nodup hf
    rw [hfield, Option.map_some]
  rw [Entity.projectionFields, List.map_filterMap, List.filterMap_congr hfound,
    List.filterMap_some]

theorem mem_livingProjections (he : e.Consistent) (hp : p ∈ e.projections) :
    p ∈ e.livingProjections := by
  have hfields : e.projectionFields p ≠ [] := fun h =>
    (he.projection_fields p hp).1 (by rw [← names_projectionFields he hp, h, List.map_nil])
  exact List.mem_filter.mpr ⟨hp, by simpa using hfields⟩

/-- The class of a projection declares what the projection lists, and both of its constructors pass
that on. -/
structure Lists (e : Entity) (p : Projection) : Prop where
  declared : (projectionShape e p).declarations.map declaredName = p.fields
  constructors : (projectionShape e p).methods.map Function.name = ["from_entity", "from_row"]
  passed : ∀ method ∈ (projectionShape e p).methods, method.keywords = p.fields

theorem lists_projection (he : e.Consistent) (hplain : e.Plain) (hp : p ∈ e.projections) :
    Lists e p := by
  have hnames := names_projectionFields he hp
  have hmem : ∀ f ∈ e.projectionFields p, f ∈ e.fields := by
    intro f hf
    obtain ⟨n, -, hn⟩ := List.mem_filterMap.mp hf
    exact List.mem_of_find?_eq_some hn
  have hcolon : ∀ f ∈ e.projectionFields p, ':' ∉ f.name.toList := fun f hf =>
    (hplain.fieldName f (hmem f hf)).not_mem (by decide)
  have hequals : ∀ f ∈ e.projectionFields p, '=' ∉ f.name.toList := fun f hf =>
    (hplain.fieldName f (hmem f hf)).not_mem (by decide)
  have hkeywords (value : Field → String) : (returnCall "cls" ((e.projectionFields p).map
      fun f => (f.name, value f))).filterMap CodeLine.keyword? = p.fields := by
    rw [keywords_returnCall (List.forall_mem_map.mpr hequals), List.map_map]
    exact hnames
  refine ⟨?_, rfl, ?_⟩
  · have hlines : (projectionShape e p).declarations =
        (e.projectionFields p).map fun f => (shapeField false f).text := by
      simp only [ClassBlock.declarations, projectionShape, shapeAttributes, List.flatMap_cons,
        List.flatMap_nil, List.append_nil]
    rw [hlines, declaredNames_shapeFields false hcolon, hnames]
  · have hmethods : (projectionShape e p).methods =
        [fromEntity (p.structName e.name) e.name (e.projectionFields p),
          fromRow (p.structName e.name) (e.projectionFields p)] := rfl
    rw [hmethods]
    refine List.forall_mem_cons.mpr ⟨hkeywords _, List.forall_mem_singleton.mpr ?_⟩
    rw [Function.keywords, fromRow, rowColumns, List.map_map]
    exact hkeywords _

/-! ## Payloads -/

theorem mem_payloadFields {f : Field} (h : f ∈ payloadFields e c) : f ∈ e.fields := by
  unfold payloadFields at h
  split at h
  · exact List.mem_of_mem_filter h
  · exact List.mem_of_mem_filter h
  · exact List.mem_of_mem_filter h
  · exact absurd h List.not_mem_nil
  · exact absurd h List.not_mem_nil

/-- A payload takes its fields from the entity, and each once. -/
theorem nodup_payloadFields (he : e.Consistent) (c : Command) :
    ((payloadFields e c).map Field.name).Nodup := by
  have hfilter (p : Field → Bool) : ((e.fields.filter p).map Field.name).Nodup :=
    he.fieldNames_nodup.sublist (List.filter_sublist.map Field.name)
  unfold payloadFields
  split
  · exact hfilter _
  · exact hfilter _
  · exact hfilter _
  · exact List.nodup_nil
  · exact List.nodup_nil

/-- The names that a payload declares: that of the identifier, if it is needed, and those of the
fields. -/
def payloadNames (e : Entity) (c : Command) : List String :=
  (if c.requiresId then ["id"] else []) ++ (payloadFields e c).map Field.name

theorem declarations_payloadClass (e : Entity) (c : Command) :
    (payloadClass e c).declarations = (payloadAttributes e c).map ShapeField.text := by
  rw [ClassBlock.declarations, payloadClass]
  dsimp only
  split
  · rename_i hempty
    rw [List.isEmpty_iff.mp hempty]
    rfl
  · rw [List.flatMap_singleton]

theorem declaredNames_payloadClass (hplain : e.Plain) (c : Command) :
    (payloadClass e c).declarations.map declaredName = payloadNames e c := by
  have hcolon : ∀ f ∈ payloadAttributes e c, ':' ∉ f.name.toList := by
    intro f hf
    rcases List.mem_append.mp hf with hf | hf
    · split at hf
      · obtain rfl := List.mem_singleton.mp hf
        exact (show ':' ∉ "id".toList by decide)
      · exact absurd hf List.not_mem_nil
    · obtain ⟨g, hg, rfl⟩ := List.mem_map.mp hf
      exact (hplain.fieldName g (mem_payloadFields hg)).not_mem (by decide)
  rw [declarations_payloadClass, declaredNames_texts hcolon, payloadAttributes, payloadNames,
    List.map_append, List.map_map]
  split <;> rfl

/-- A payload declares every name once unless it needs an identifier and has a field named as that
is. -/
theorem nodup_payloadNames_iff (he : e.Consistent) (c : Command) : (payloadNames e c).Nodup ↔
    (c.requiresId = true → ∀ f ∈ payloadFields e c, f.name ≠ "id") := by
  have hfields := nodup_payloadFields he c
  rw [payloadNames]
  cases c.requiresId with
  | false => simpa using hfields
  | true =>
    rw [if_pos rfl, List.singleton_append, List.nodup_cons, and_iff_left hfields, List.mem_map]
    simp

/-! ## Entities -/

/-- No projection lists a field twice, and no payload has a field named like the identifier that it
needs. -/
structure Unrepeated (e : Entity) : Prop where
  projections : ∀ p ∈ e.projections, p.fields.Nodup
  payloads : ∀ c ∈ ownPayloads e, c.requiresId = true → ∀ f ∈ payloadFields e c, f.name ≠ "id"

/-- Everything that is written for projections and payloads is written once. -/
structure WrittenOnce (e : Entity) : Prop where
  projections : ∀ p ∈ e.projections, p.fields.Nodup
  shapes : ∀ p ∈ e.projections, ((projectionShape e p).declarations.map declaredName).Nodup
  keywords : ∀ p ∈ e.projections, ∀ method ∈ (projectionShape e p).methods, method.keywords.Nodup
  payloads : ∀ c ∈ ownPayloads e, ((payloadClass e c).declarations.map declaredName).Nodup

/-- Every projection of an entity that is built has its class, which declares and passes on what it
lists, and every command without a payload of its own has one. In all of them everything is written
once exactly if no projection lists a field twice and no payload that needs an identifier has
another field named `id`. -/
theorem writtenOnce_iff (hb : Build.build d strict = .ok (e, notes)) (runtime : String) :
    (∀ p ∈ e.projections, Lists e p ∧
      ∃ m, transferModule? runtime e = some m ∧ projectionShape e p ∈ m.classes) ∧
    (∀ c ∈ ownPayloads e,
      (payloadClass e c).declarations.map declaredName = payloadNames e c ∧
      ∃ m, commandsModule? e = some m ∧ payloadClass e c ∈ m.classes) ∧
    (WrittenOnce e ↔ Unrepeated e) := by
  have he := Build.consistent_of_build hb
  have hplain := Build.plain_of_build hb
  refine ⟨fun p hp => ⟨lists_projection he hplain hp, ?_⟩,
    fun c hc => ⟨declaredNames_payloadClass hplain c, ?_⟩, ?_⟩
  · obtain ⟨imports, hshape⟩ := projectionShape_mem_shapes (mem_livingProjections he hp)
    exact shape_mem_classes hshape
  · have hempty : e.commands.isEmpty = false :=
      List.isEmpty_eq_false_iff.mpr (List.ne_nil_of_mem (List.mem_of_mem_filter hc))
    obtain ⟨m, hm⟩ : ∃ m, commandsModule? e = some m := by
      rw [commandsModule?, hempty, if_neg Bool.false_ne_true]
      exact ⟨_, rfl⟩
    refine ⟨m, hm, ?_⟩
    rw [classes_commandsModule hm, List.append_assoc, List.append_assoc]
    exact List.mem_append_left _ (List.mem_map_of_mem hc)
  · constructor
    · intro h
      refine ⟨h.projections, fun c hc => (nodup_payloadNames_iff he c).mp ?_⟩
      exact declaredNames_payloadClass hplain c ▸ h.payloads c hc
    · intro h
      refine ⟨h.projections, fun p hp => ?_, fun p hp method hm => ?_, fun c hc => ?_⟩
      · exact (lists_projection he hplain hp).declared ▸ h.projections p hp
      · exact (lists_projection he hplain hp).passed method hm ▸ h.projections p hp
      · rw [declaredNames_payloadClass hplain]
        exact (nodup_payloadNames_iff he c).mpr (h.payloads c hc)

/-- A badge with a card that lists some fields, and with a command that changes its number. -/
def badgeDeclaration (listed : List String) (number : String) : EntityDeclaration where
  name := "Badge"
  attributes := [(.text "table", .text "badges"),
    (.text "projections", .map [(.text "Card", .list (listed.map .text))]),
    (.text "commands", .list [
      .map [(.text "name", .text "Renumber"), (.text "fields", .text number)]])]
  fields := some [
    { name := some "key", type := "uuid", attributes := [(.text "id", .bool true)] },
    { name := some number, type := "string" },
    { name := some "title", type := "string" }]

/-- A badge with a number of its own name and a card with distinct fields. -/
theorem writtenOnce_badge : ∃ e notes,
    Build.build (badgeDeclaration ["title", "number"] "number") false = .ok (e, notes) ∧
    e.projections = [⟨"Card", ["title", "number"]⟩] ∧
    (ownPayloads e).map (payloadNames e) = [["id", "number"]] ∧ WrittenOnce e := by
  obtain ⟨e, notes, hb, h⟩ := Build.exists_of_build
    (badgeDeclaration ["title", "number"] "number") false
    (fun e => decide (e.projections = [⟨"Card", ["title", "number"]⟩] ∧
      (ownPayloads e).map (payloadNames e) = [["id", "number"]])) (by decide +kernel)
  obtain ⟨hprojections, hpayloads⟩ := of_decide_eq_true h
  refine ⟨e, notes, hb, hprojections, hpayloads, ?_⟩
  obtain ⟨-, -, honce⟩ := writtenOnce_iff hb "entitygen.runtime"
  refine honce.mpr ⟨fun p hp => ?_, fun c hc => ?_⟩
  · rw [hprojections, List.mem_singleton] at hp
    subst hp
    decide
  · refine (nodup_payloadNames_iff (Build.consistent_of_build hb) c).mp ?_
    have hnames : payloadNames e c ∈ (ownPayloads e).map (payloadNames e) :=
      List.mem_map_of_mem hc
    rw [hpayloads, List.mem_singleton] at hnames
    rw [hnames]
    decide

/-- A number with the name `id` is declared beside the identifier, and a card that lists the title
twice has it twice. -/
theorem not_writtenOnce_badge : ∃ e notes,
    Build.build (badgeDeclaration ["title", "title"] "id") false = .ok (e, notes) ∧
    (e.projections.map fun p => (projectionShape e p).declarations.map declaredName) =
      [["title", "title"]] ∧
    (e.projections.flatMap fun p => (projectionShape e p).methods.map Function.keywords) =
      [["title", "title"], ["title", "title"]] ∧
    ((ownPayloads e).map fun c => (payloadClass e c).declarations.map declaredName) =
      [["id", "id"]] ∧ ¬ WrittenOnce e := by
  obtain ⟨e, notes, hb, h⟩ := Build.exists_of_build (badgeDeclaration ["title", "title"] "id") false
    (fun e => decide (e.projections = [⟨"Card", ["title", "title"]⟩] ∧
      (e.projections.map fun p => (projectionShape e p).declarations.map declaredName) =
        [["title", "title"]] ∧
      (e.projections.flatMap fun p => (projectionShape e p).methods.map Function.keywords) =
        [["title", "title"], ["title", "title"]] ∧
      ((ownPayloads e).map fun c => (payloadClass e c).declarations.map declaredName) =
        [["id", "id"]])) (by decide +kernel)
  obtain ⟨hprojections, hshapes, hkeywords, hpayloads⟩ := of_decide_eq_true h
  refine ⟨e, notes, hb, hshapes, hkeywords, hpayloads, fun honce => ?_⟩
  have hcard := honce.projections ⟨"Card", ["title", "title"]⟩ (hprojections ▸ List.mem_cons_self)
  exact absurd hcard (by decide)

end Package

end EntityForge
