import EntityForge.Proofs.Handler
import Mathlib.Tactic.MkIffOfInductiveProp

/-!
# When the classes of a module have distinct names

The classes of the transfer module and of the commands module are named by putting names of
projections and commands together with that of the entity and fixed endings. No two endings of
different kinds end alike, so that most of these names are apart whatever the parts are. A name
without an ending of its own, which is that of a projection or of a payload, can be the name of
another class; beside these only the results of commands can be named like their base. The names of
classes are distinct exactly when this does not happen.
-/

namespace EntityForge.Package

open Source

variable {runtime : String} {e : Entity} {m : Module}

/-! ## Endings -/

/-- Neither text ends with the other. -/
def Apart (s t : String) : Prop := ¬ s.toList <:+ t.toList ∧ ¬ t.toList <:+ s.toList

instance (s t : String) : Decidable (Apart s t) :=
  inferInstanceAs (Decidable (¬ s.toList <:+ t.toList ∧ ¬ t.toList <:+ s.toList))

/-- No text ends with two texts that are apart. -/
theorem Apart.append_ne {s t : String} (h : Apart s t) (x y : String) : x ++ s ≠ y ++ t := by
  intro heq
  have hs : s.toList <:+ (x ++ s).toList := String.toList_append ▸ List.suffix_append _ _
  have ht : t.toList <:+ (x ++ s).toList := heq ▸ String.toList_append ▸ List.suffix_append _ _
  rcases List.suffix_or_suffix_of_suffix hs ht with hst | hts
  · exact h.1 hst
  · exact h.2 hts

/-- All names of a list have an ending. -/
def AllEnd (ending : String) (names : List String) : Prop := ∀ n ∈ names, ∃ x, n = x ++ ending

theorem AllEnd.ne {s t : String} {names others : List String} (hs : AllEnd s names)
    (ht : AllEnd t others) (h : Apart s t) : ∀ a ∈ names, ∀ b ∈ others, a ≠ b := by
  intro a ha b hb
  obtain ⟨x, rfl⟩ := hs a ha
  obtain ⟨y, rfl⟩ := ht b hb
  exact h.append_ne x y

/-! ## Classes among sections -/

/-- The class that a section defines. -/
def classOf? : Section → Option ClassBlock
  | .classDef c => some c
  | .assignments _ | .function _ => none

theorem classes_eq (m : Module) : m.classes = m.sections.filterMap classOf? := by
  refine congrArg (List.filterMap · m.sections) (funext fun s => ?_)
  cases s <;> rfl

/-- Of sections that all define classes, every one counts. -/
theorem filterMap_classOf? {α : Type} (f : α → ClassBlock) (as : List α) :
    (as.map fun a => Section.classDef (f a)).filterMap classOf? = as.map f := by
  rw [List.filterMap_map, ← List.filterMap_eq_map]
  rfl

/-! ## Conditions -/

/-- No projection has the name of another shape. -/
@[mk_iff]
structure ShapesApart (e : Entity) : Prop where
  response : e.responseFields.isEmpty = false → ∀ p ∈ e.livingProjections, p.name ≠ "Response"
  createRequest : e.createFields.isEmpty = false →
    ∀ p ∈ e.livingProjections, p.structName e.name ≠ e.createRequest
  updateRequest : e.updateFields.isEmpty = false →
    ∀ p ∈ e.livingProjections, p.structName e.name ≠ e.updateRequest

/-- No payload has the name of another class, and no result that of the base of results. -/
@[mk_iff]
structure CommandsApart (e : Entity) : Prop where
  union : ∀ c ∈ e.commands, c.structName e.name ≠ e.commandUnion
  payload_variant : ∀ c ∈ ownPayloads e, ∀ d ∈ e.commands, c.structName e.name ≠ e.variantName d
  payload_result : ∀ c ∈ ownPayloads e, ∀ d ∈ e.commands,
    c.structName e.name ≠ e.resultVariantName d
  payload_resultUnion : ∀ c ∈ ownPayloads e, c.structName e.name ≠ e.resultUnion
  payload_handler : ∀ c ∈ ownPayloads e, c.structName e.name ≠ e.handlerName

/-- Both hold, the latter where commands are asked for. -/
@[mk_iff]
structure ClassesApart (e : Entity) : Prop where
  shapes : ShapesApart e
  commands : e.hasCommands = true → CommandsApart e

instance : DecidablePred ShapesApart := fun e => decidable_of_iff' _ (shapesApart_iff e)

instance : DecidablePred CommandsApart := fun e => decidable_of_iff' _ (commandsApart_iff e)

instance : DecidablePred ClassesApart := fun e => decidable_of_iff' _ (classesApart_iff e)

/-! ## Shapes -/

/-- The names of the shapes, as far as they are there. -/
theorem names_shapes : (shapes runtime e).map (fun s => s.1.name) =
    (if e.createFields.isEmpty then [] else [e.createRequest]) ++
      ((if e.updateFields.isEmpty then [] else [e.updateRequest]) ++
        ((if e.responseFields.isEmpty then [] else [e.responseName]) ++
          e.livingProjections.map fun p => p.structName e.name)) := by
  simp only [shapes, List.map_append, List.append_assoc, List.map_map]
  congr 1
  · cases e.createFields.isEmpty <;> rfl
  · congr 1
    · cases e.updateFields.isEmpty <;> rfl
    · congr 1
      cases e.responseFields.isEmpty <;> rfl

theorem nodup_ifElse_append {missing : Bool} {n : String} {names : List String} :
    ((if missing then [] else [n]) ++ names).Nodup ↔
      (missing = false → n ∉ names) ∧ names.Nodup := by
  cases missing <;> simp

theorem mem_ifElse_append {missing : Bool} {n name : String} {names : List String} :
    name ∈ (if missing then [] else [n]) ++ names ↔ missing = false ∧ name = n ∨ name ∈ names := by
  cases missing <;> simp

theorem createRequest_ne_updateRequest : e.createRequest ≠ e.updateRequest := by
  intro h
  have hverb : "Create" = "Update" :=
    (String.append_left_inj e.name).mp ((String.append_left_inj "Request").mp h)
  exact absurd hverb (by decide)

theorem createRequest_ne_responseName : e.createRequest ≠ e.responseName :=
  (show Apart "Request" "Response" by decide).append_ne _ _

theorem updateRequest_ne_responseName : e.updateRequest ≠ e.responseName :=
  (show Apart "Request" "Response" by decide).append_ne _ _

/-- Projections with distinct names have distinct shapes. -/
theorem nodup_names_projections (h : (e.projections.map Projection.name).Nodup) :
    (e.livingProjections.map fun p => p.structName e.name).Nodup := by
  have hliving : (e.livingProjections.map Projection.name).Nodup :=
    h.sublist (List.filter_sublist.map _)
  have hnames : (e.livingProjections.map fun p => p.structName e.name) =
      (e.livingProjections.map Projection.name).map (e.name ++ ·) := by
    rw [List.map_map]
    rfl
  rw [hnames]
  exact hliving.map fun _ _ => (String.append_right_inj _).mp

theorem nodup_names_shapes_iff (h : (e.projections.map Projection.name).Nodup) :
    ((shapes runtime e).map fun s => s.1.name).Nodup ↔ ShapesApart e := by
  have hprojection {n : String} : n ∉ (e.livingProjections.map fun p => p.structName e.name) ↔
      ∀ p ∈ e.livingProjections, p.structName e.name ≠ n := by
    simp [eq_comm]
  have hresponse {p : Projection} : p.structName e.name = e.responseName ↔ p.name = "Response" :=
    String.append_right_inj _
  simp only [names_shapes, nodup_ifElse_append, mem_ifElse_append, not_or, hprojection,
    createRequest_ne_updateRequest, createRequest_ne_responseName, updateRequest_ne_responseName,
    and_false, not_false_eq_true, true_and, nodup_names_projections h, and_true, ne_eq, hresponse]
  exact ⟨fun ⟨hc, hu, hr⟩ => ⟨hr, hc, hu⟩, fun ⟨hr, hc, hu⟩ => ⟨hc, hu, hr⟩⟩

theorem classes_transferModule (h : transferModule? runtime e = some m) :
    m.classes = (shapes runtime e).map Prod.fst := by
  rw [transferModule?] at h
  split at h
  · cases h
  · obtain rfl := Option.some.inj h
    rw [classes_eq, filterMap_classOf?]

theorem shapes_eq_nil_of_transferModule? (h : transferModule? runtime e = none) :
    shapes runtime e = [] := by
  rw [transferModule?] at h
  split at h
  · exact List.isEmpty_iff.mp ‹_›
  · cases h

/-! ## Commands -/

theorem structName_inj {c d : Command} :
    c.structName e.name = d.structName e.name ↔ c.name = d.name := String.append_left_inj _

/-- Names made by one rule from the names of commands are as distinct as these. -/
theorem nodup_map_of_names {f : Command → String} (hf : ∀ c d, f c = f d → c.name = d.name)
    {cs : List Command} (h : (cs.map Command.name).Nodup) : (cs.map f).Nodup := by
  refine (List.Nodup.of_map _ h).map_on fun c hc d hd heq => ?_
  exact List.inj_on_of_nodup_map h hc hd (hf c d heq)

theorem variantName_ne_commandUnion {c : Command} (h : c.name ≠ "") :
    e.variantName c ≠ e.commandUnion := by
  intro heq
  have hlength := congrArg String.length ((String.append_left_inj _).mp heq)
  rw [Command.structName, String.length_append] at hlength
  have hpos : c.name.length ≠ 0 := mt String.length_eq_zero_iff.mp h
  omega

/-- A result is named like the base of results if its command is like the base of commands. -/
theorem resultVariantName_eq_resultUnion {c : Command} :
    e.resultVariantName c = e.resultUnion ↔ c.structName e.name = e.commandUnion := by
  have hunion : e.resultUnion = e.commandUnion ++ "Result" := by
    rw [Entity.resultUnion, Entity.commandUnion, String.append_assoc]
    rfl
  rw [hunion, Entity.resultVariantName, String.append_left_inj]

/-- The names of the classes of the commands module, by their endings. -/
theorem names_classes_commandsModule (h : commandsModule? e = some m) :
    m.classes.map ClassBlock.name = (ownPayloads e).map (fun c => c.structName e.name) ++
      ((e.commandUnion :: e.commands.map e.variantName) ++
        ((e.resultUnion :: e.commands.map e.resultVariantName) ++ [e.handlerName])) := by
  rw [classes_commandsModule h]
  simp [Function.comp_def, payloadClass, unionBase, commandVariant, resultVariant, variant,
    handlerClass]

theorem allEnd_variants : AllEnd "Command" (e.commandUnion :: e.commands.map e.variantName) :=
  List.forall_mem_cons.mpr ⟨⟨_, rfl⟩, List.forall_mem_map.mpr fun _ _ => ⟨_, rfl⟩⟩

theorem allEnd_results : AllEnd "Result" (e.resultUnion :: e.commands.map e.resultVariantName) := by
  refine List.forall_mem_cons.mpr ⟨⟨e.name ++ "Command", ?_⟩,
    List.forall_mem_map.mpr fun _ _ => ⟨_, rfl⟩⟩
  rw [Entity.resultUnion, String.append_assoc]
  rfl

theorem allEnd_handler : AllEnd "CommandHandler" [e.handlerName] :=
  List.forall_mem_singleton.mpr ⟨_, rfl⟩

theorem nodup_names_variants (h : (e.commands.map Command.name).Nodup)
    (hne : ∀ c ∈ e.commands, c.name ≠ "") :
    (e.commandUnion :: e.commands.map e.variantName).Nodup := by
  refine List.nodup_cons.mpr ⟨fun hmem => ?_, nodup_map_of_names (fun _ _ => variantName_inj.mp) h⟩
  obtain ⟨c, hc, heq⟩ := List.mem_map.mp hmem
  exact variantName_ne_commandUnion (hne c hc) heq

theorem nodup_names_results_iff (h : (e.commands.map Command.name).Nodup) :
    (e.resultUnion :: e.commands.map e.resultVariantName).Nodup ↔
      ∀ c ∈ e.commands, c.structName e.name ≠ e.commandUnion := by
  have hnodup : (e.commands.map e.resultVariantName).Nodup :=
    nodup_map_of_names (fun _ _ heq => structName_inj.mp ((String.append_left_inj _).mp heq)) h
  rw [List.nodup_cons, and_iff_left hnodup, List.mem_map]
  simp only [resultVariantName_eq_resultUnion, not_exists, not_and, ne_eq]

/-- Beside the payloads, only results can be named like another class. -/
theorem nodup_names_unions_iff (h : (e.commands.map Command.name).Nodup)
    (hne : ∀ c ∈ e.commands, c.name ≠ "") :
    ((e.commandUnion :: e.commands.map e.variantName) ++
      ((e.resultUnion :: e.commands.map e.resultVariantName) ++ [e.handlerName])).Nodup ↔
    ∀ c ∈ e.commands, c.structName e.name ≠ e.commandUnion := by
  have hvariants : ∀ a ∈ e.commandUnion :: e.commands.map e.variantName,
      ∀ b ∈ (e.resultUnion :: e.commands.map e.resultVariantName) ++ [e.handlerName], a ≠ b := by
    intro a ha b hb
    rcases List.mem_append.mp hb with hb | hb
    · exact allEnd_variants.ne allEnd_results (by decide) a ha b hb
    · exact allEnd_variants.ne allEnd_handler (by decide) a ha b hb
  rw [List.nodup_append, List.nodup_append, nodup_names_results_iff h]
  constructor
  · rintro ⟨-, ⟨hresults, -, -⟩, -⟩
    exact hresults
  · intro hresults
    exact ⟨nodup_names_variants h hne, ⟨hresults, List.nodup_singleton _,
      allEnd_results.ne allEnd_handler (by decide)⟩, hvariants⟩

theorem nodup_names_commandsModule_iff (hm : commandsModule? e = some m)
    (h : (e.commands.map Command.name).Nodup) (hne : ∀ c ∈ e.commands, c.name ≠ "") :
    (m.classes.map ClassBlock.name).Nodup ↔ CommandsApart e := by
  have hpayloads : ((ownPayloads e).map fun c => c.structName e.name).Nodup :=
    nodup_map_of_names (fun _ _ => structName_inj.mp) (h.sublist (List.filter_sublist.map _))
  rw [names_classes_commandsModule hm, List.nodup_append, nodup_names_unions_iff h hne,
    and_iff_right hpayloads]
  constructor
  · rintro ⟨hunion, hrest⟩
    have hother {c : Command} (hc : c ∈ ownPayloads e) {n : String}
        (hn : n ∈ (e.commandUnion :: e.commands.map e.variantName) ++
          ((e.resultUnion :: e.commands.map e.resultVariantName) ++ [e.handlerName])) :
        c.structName e.name ≠ n := hrest _ (List.mem_map_of_mem hc) n hn
    refine ⟨hunion, fun c hc d hd => hother hc ?_, fun c hc d hd => hother hc ?_,
      fun c hc => hother hc ?_, fun c hc => hother hc ?_⟩
    · exact List.mem_append_left _ (List.mem_cons_of_mem _ (List.mem_map_of_mem hd))
    · exact List.mem_append_right _ (List.mem_append_left _
        (List.mem_cons_of_mem _ (List.mem_map_of_mem hd)))
    · exact List.mem_append_right _ (List.mem_append_left _ List.mem_cons_self)
    · exact List.mem_append_right _ (List.mem_append_right _ List.mem_cons_self)
  · intro happart
    refine ⟨happart.union, List.forall_mem_map.mpr fun c hc n hn => ?_⟩
    have hcommand : c ∈ e.commands := (List.mem_filter.mp hc).1
    simp only [List.mem_append, List.mem_cons, List.mem_map, List.not_mem_nil, or_false] at hn
    rcases hn with (rfl | ⟨d, hd, rfl⟩) | (rfl | ⟨d, hd, rfl⟩) | rfl
    · exact happart.union c hcommand
    · exact happart.payload_variant c hc d hd
    · exact happart.payload_resultUnion c hc
    · exact happart.payload_result c hc d hd
    · exact happart.payload_handler c hc

/-! ## Modules -/

/-- No name of a command is empty. -/
theorem name_ne_of_isIdentifier {n : String} (h : isIdentifier n = true) : n ≠ "" := by
  rintro rfl
  exact absurd h (by decide)

/-- The classes of the transfer module have distinct names, and so have those of the commands
module, exactly when no projection, no payload and no result is named like another of them. -/
theorem classes_distinct_iff {d : EntityDeclaration} {strict : Bool} {notes : List Diagnostic}
    (hb : Build.build d strict = .ok (e, notes)) {ms : List (ModuleKind × Module)}
    (hms : modules runtime e = .ok ms) :
    (∀ p ∈ ms, p.1 = .transfer ∨ p.1 = .commands → (p.2.classes.map ClassBlock.name).Nodup) ↔
      ClassesApart e := by
  obtain ⟨-, hvalid, -⟩ := Build.of_build_eq_ok hb
  have htransfer {m : Module} (hm : transferModule? runtime e = some m) :
      (m.classes.map ClassBlock.name).Nodup ↔ ShapesApart e := by
    rw [classes_transferModule hm, List.map_map]
    exact nodup_names_shapes_iff hvalid.projectionNames_nodup
  have hcommands {m : Module} (hm : commandsModule? e = some m) :
      (m.classes.map ClassBlock.name).Nodup ↔ CommandsApart e :=
    nodup_names_commandsModule_iff hm hvalid.commandNames_nodup fun c hc =>
      name_ne_of_isIdentifier (hvalid.commandName_isIdentifier c hc)
  constructor
  · intro h
    refine ⟨?_, fun hasked => ?_⟩
    · cases hm : transferModule? runtime e with
      | some m =>
        have hmem : (ModuleKind.transfer, m) ∈ ms := (mem_modules hms).mpr ⟨rfl, hm⟩
        exact (htransfer hm).mp (h _ hmem (Or.inl rfl))
      | none =>
        -- Without the module there are no shapes that could have one name.
        refine (@nodup_names_shapes_iff runtime e hvalid.projectionNames_nodup).mp ?_
        rw [shapes_eq_nil_of_transferModule? hm]
        exact List.nodup_nil
    · obtain ⟨m, hm, -⟩ := @introduces_commands runtime _ hasked
      have hmem : (ModuleKind.commands, m) ∈ ms := (mem_modules hms).mpr ⟨hasked, hm⟩
      exact (hcommands hm).mp (h _ hmem (Or.inr rfl))
  · rintro ⟨hshapes, hcommandsApart⟩ ⟨k, m⟩ hp (rfl | rfl)
    · exact (htransfer ((mem_modules hms).mp hp).2).mpr hshapes
    · obtain ⟨hasked, hm⟩ := (mem_modules hms).mp hp
      exact (hcommands hm).mpr (hcommandsApart hasked)

/-- In all modules of the order that define shapes or commands, classes have distinct names. -/
theorem classes_distinct_order : ∃ e notes ms,
    Build.build orderDeclaration false = .ok (e, notes) ∧
      modules ({} : GenerationConfig).runtimeModule e = .ok ms ∧
      (∃ m, (ModuleKind.transfer, m) ∈ ms) ∧ (∃ m, (ModuleKind.commands, m) ∈ ms) ∧
      ClassesApart e ∧
      ∀ p ∈ ms, p.1 = .transfer ∨ p.1 = .commands → (p.2.classes.map ClassBlock.name).Nodup := by
  obtain ⟨e, notes, ms, hb, hms, hgood⟩ := exists_modules_of_build orderDeclaration false
    ({} : GenerationConfig).runtimeModule
    (fun e ms => decide (((∃ p ∈ ms, p.1 = .transfer) ∧ ∃ p ∈ ms, p.1 = .commands) ∧
      ClassesApart e)) (by decide +kernel)
  obtain ⟨⟨⟨⟨_, t⟩, ht, rfl⟩, ⟨_, m⟩, hm, rfl⟩, hapart⟩ := of_decide_eq_true hgood
  exact ⟨e, notes, ms, hb, hms, ⟨t, ht⟩, ⟨m, hm⟩, hapart, (classes_distinct_iff hb hms).mpr hapart⟩

/-- An entity with a projection whose name is the ending of the response. -/
def ticketDeclaration : EntityDeclaration where
  name := "Ticket"
  attributes := [(.text "table", .text "tickets"),
    (.text "projections", .map [(.text "Response", .list [.text "id", .text "title"])])]
  fields := some [
    { name := some "id", type := "uuid", attributes := [(.text "id", .bool true)] },
    { name := some "title", type := "string"
      attributes := [(.text "field", .list [.text "create", .text "response"])] }]

/-- The ticket is built, though two classes of one module have one name. -/
theorem classes_not_distinct_ticket : ∃ e notes ms m,
    Build.build ticketDeclaration false = .ok (e, notes) ∧
      modules ({} : GenerationConfig).runtimeModule e = .ok ms ∧
      (ModuleKind.transfer, m) ∈ ms ∧
      m.classes.map ClassBlock.name =
        ["CreateTicketRequest", "TicketResponse", "TicketResponse"] ∧
      ¬ (m.classes.map ClassBlock.name).Nodup := by
  obtain ⟨e, notes, ms, hb, hms, hgood⟩ := exists_modules_of_build ticketDeclaration false
    ({} : GenerationConfig).runtimeModule
    (fun _ ms => decide (∃ p ∈ ms, p.1 = .transfer ∧ p.2.classes.map ClassBlock.name =
      ["CreateTicketRequest", "TicketResponse", "TicketResponse"])) (by decide +kernel)
  obtain ⟨⟨_, m⟩, hm, rfl, hnames⟩ := of_decide_eq_true hgood
  exact ⟨e, notes, ms, m, hb, hms, hm, hnames, hnames ▸ by decide⟩

end EntityForge.Package
