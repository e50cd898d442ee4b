import EntityForge.Proofs.Guard
import EntityForge.Proofs.Resolution

/-!
# What the handler of commands declares and where it sends them

The handler declares one abstract coroutine for each command, and its dispatcher has one branch for
each command: the first that takes the variant of a command calls the method named after that
command and wraps what it returns in the result of that command, with a value exactly if the
command yields one. The method is named after the snake-case form of the name. So two commands
whose names have one such form have one method, the one written last, and each command has its own
exactly when these forms are distinct.
-/

namespace EntityForge.Package

open Source

variable {e : Entity} {c : Command} {m : Module}

/-! ## Reading a class -/

/-- The methods that implementations have to add as coroutines. -/
def abstractCoroutines (b : ClassBlock) : List Function :=
  b.methods.filter fun f => f.isAsync && f.decorators.contains "abstractmethod"

/-- The method that a class has under a name: of several, the one written last. -/
def methodNamed? (b : ClassBlock) (name : String) : Option Function :=
  b.methods.reverse.find? fun f => f.name == name

/-- The line that opens the branch for a class of commands. -/
def takingLine (variant : String) : CodeLine := ⟨0, s!"if isinstance(command, {variant}):"⟩

/-- A branch is the first that takes a class of commands. -/
structure Dispatches (body : List CodeLine) (variant : String) (b : Branch) : Prop where
  variant_eq : b.variant = variant
  first : ∃ before after, body = before ++ b.lines ++ after ∧ takingLine variant ∉ before

/-- The module defines a class for a command, which carries the name of the command. -/
def Carries (m : Module) (name : String) (c : Command) (attributes : List String) : Prop :=
  ∃ b ∈ m.classes, b.name = name ∧
    b.paragraphs = [.attributes (("name: ClassVar[str] = \"" ++ c.name ++ "\"") :: attributes)]

/-- A method is written for a command: it takes its payload and returns its result. -/
structure WrittenFor (e : Entity) (c : Command) (f : Function) : Prop where
  name : f.name = c.handlerMethod
  parameters : f.parameters = ["self",
    "payload: " ++ (c.externalPayload?.map pathName).getD (c.structName e.name), "ctx: ContextT"]
  returns : f.returns = (nonEmpty? ((c.resultFor e.name).map pathName)).getD "None"
  doc : ∃ security, f.doc = some (s!"Handle the {c.name} command." ++ security)

/-- The branch for a command calls the method named after it and wraps what that returns, if the
command yields anything, in the result of the command. -/
structure Routes (e : Entity) (m : Module) (b : ClassBlock) (c : Command) (r : Branch) :
    Prop where
  dispatcher : ∃ d, methodNamed? b "handle" = some d ∧ Dispatches d.body (e.variantName c) r
  method : r.method = c.handlerMethod
  result : r.result = e.resultVariantName c
  hasValue : r.hasValue = false ↔ c.resultFor e.name = none
  variant : ∃ payload, Carries m r.variant c [payload]
  carried : ∃ value, Carries m r.result c value ∧ (value = [] ↔ r.hasValue = false)

/-- A class is the contract of the commands of an entity: it declares exactly one abstract
coroutine for each, and each command is routed to its own. -/
structure HandlesEach (e : Entity) (m : Module) (b : ClassBlock) : Prop where
  declared : List.Forall₂ (WrittenFor e) e.commands (abstractCoroutines b)
  distinct : ((abstractCoroutines b).map Function.name).Nodup
  routed : ∀ c ∈ e.commands, ∃ r, Routes e m b c r ∧
    ∃ f, methodNamed? b r.method = some f ∧ WrittenFor e c f

/-! ## The methods of the handler -/

theorem lastNamed_eq (h : (e.commands.map Command.name).Nodup) (hc : c ∈ e.commands) :
    lastNamed e c = c := by
  rw [lastNamed, find?_reverse_of_nodup h, find?_of_nodup h hc]
  rfl

/-- The dispatcher as a function. -/
def dispatching (e : Entity) : Function := (methodOf? (dispatcher e)).getD default

/-- The method for a command as a function. -/
def handling (e : Entity) (c : Command) : Function := (methodOf? (handlerMethod e c)).getD default

theorem methods_handlerClass :
    (handlerClass e).methods = dispatching e :: e.commands.map (handling e) :=
  congrArg (dispatching e :: ·) (filterMap_methodOf? (handling e) e.commands)

theorem abstractCoroutines_handlerClass :
    abstractCoroutines (handlerClass e) = e.commands.map (handling e) := by
  rw [abstractCoroutines, methods_handlerClass, List.filter_cons_of_neg]
  · refine List.filter_eq_self.mpr fun f hf => ?_
    obtain ⟨c, -, rfl⟩ := List.mem_map.mp hf
    rfl
  · exact Bool.false_ne_true

theorem writtenFor_handling (h : (e.commands.map Command.name).Nodup) (hc : c ∈ e.commands) :
    WrittenFor e c (handling e c) := by
  refine ⟨rfl, ?_, ?_, ⟨_, rfl⟩⟩
  · show ["self", "payload: " ++ payloadType e c, "ctx: ContextT"] = _
    rw [payloadType, lastNamed_eq h hc]
  · show (nonEmpty? (resultType e c)).getD "None" = _
    rw [resultType, lastNamed_eq h hc]

theorem names_handling : (e.commands.map (handling e)).map Function.name =
    (e.commands.map fun c => Text.snakeCase c.name).map ("handle_" ++ ·) := by
  rw [List.map_map, List.map_map]
  rfl

/-- The methods for commands have distinct names if the commands do in snake case. -/
theorem nodup_names_handling_iff : ((e.commands.map (handling e)).map Function.name).Nodup ↔
    (e.commands.map fun c => Text.snakeCase c.name).Nodup := by
  rw [names_handling, List.nodup_map_iff fun _ _ => (String.append_right_inj _).mp]

/-- No method for a command is named like the dispatcher. -/
theorem handlerMethod_ne (c : Command) : c.handlerMethod ≠ "handle" := by
  intro h
  have hlength := congrArg String.length h
  rw [Command.handlerMethod, String.length_append] at hlength
  have hlonger : "handle".length < "handle_".length := by decide
  omega

theorem methodNamed?_handle : methodNamed? (handlerClass e) "handle" = some (dispatching e) := by
  rw [methodNamed?, methods_handlerClass, List.reverse_cons, List.find?_append,
    List.find?_eq_none.mpr]
  · rfl
  · intro f hf
    obtain ⟨c, -, rfl⟩ := List.mem_map.mp (List.mem_reverse.mp hf)
    exact fun hname => handlerMethod_ne c (beq_iff_eq.mp hname)

theorem methodNamed?_handlerMethod (h : (e.commands.map fun c => Text.snakeCase c.name).Nodup)
    (hc : c ∈ e.commands) :
    methodNamed? (handlerClass e) c.handlerMethod = some (handling e c) := by
  have hnames := nodup_names_handling_iff.mpr h
  have hfound := find?_of_nodup hnames (List.mem_map_of_mem (f := handling e) hc)
  rw [methodNamed?, methods_handlerClass, List.reverse_cons, List.find?_append,
    find?_reverse_of_nodup hnames]
  exact congrArg (Option.or · _) hfound

/-! ## The dispatcher -/

theorem takingLine_inj {variant other : String} : takingLine variant = takingLine other ↔
    variant = other := by
  refine ⟨fun h => ?_, congrArg takingLine⟩
  exact (String.append_right_inj _).mp ((String.append_left_inj _).mp (congrArg CodeLine.text h))

/-- Of the lines of a branch, only the first can open one. -/
theorem eq_of_takingLine_mem_lines {b : Branch} {variant : String}
    (h : takingLine variant ∈ b.lines) : variant = b.variant := by
  rw [Branch.lines] at h
  rcases List.mem_cons.mp h with h | h
  · exact takingLine_inj.mp h
  · split at h
    · cases List.mem_singleton.mp h
    · rcases List.mem_cons.mp h with h | h
      · cases h
      · cases List.mem_singleton.mp h

theorem variantName_inj {d : Command} : e.variantName c = e.variantName d ↔ c.name = d.name := by
  rw [Entity.variantName, Entity.variantName, String.append_left_inj, Command.structName,
    Command.structName, String.append_left_inj]

/-- The first branch that takes the variant of a command is the one for the command. -/
theorem dispatches_branch (h : (e.commands.map Command.name).Nodup) (hc : c ∈ e.commands) :
    Dispatches (dispatching e).body (e.variantName c) (branch e c) := by
  obtain ⟨before, after, hcommands⟩ := List.append_of_mem hc
  have hbody : ∃ raising, (dispatching e).body =
      e.commands.flatMap (fun d => (branch e d).lines) ++ raising := ⟨_, rfl⟩
  obtain ⟨raising, hbody⟩ := hbody
  refine ⟨rfl, before.flatMap (fun d => (branch e d).lines),
    after.flatMap (fun d => (branch e d).lines) ++ raising, ?_, ?_⟩
  · rw [hbody, hcommands, List.flatMap_append, List.flatMap_cons]
    simp only [List.append_assoc]
  · intro hmem
    obtain ⟨d, hd, hline⟩ := List.mem_flatMap.mp hmem
    have hname : c.name = d.name := variantName_inj.mp (eq_of_takingLine_mem_lines hline)
    rw [hcommands, List.map_append, List.map_cons, List.nodup_append] at h
    exact h.2.2 _ (List.mem_map_of_mem hd) _ List.mem_cons_self hname.symm

/-! ## The module -/

/-- The classes of the commands module. -/
theorem classes_commandsModule (h : commandsModule? e = some m) :
    m.classes = (ownPayloads e).map (payloadClass e) ++
      (unionBase e.commandUnion s!"Base of every {e.name} command; ``name`` identifies the variant."
        :: e.commands.map (commandVariant e)) ++
      (unionBase e.resultUnion
          s!"Base of every {e.name} command result; ``name`` matches the command."
        :: e.commands.map (resultVariant e)) ++ [handlerClass e] := by
  rw [commandsModule?] at h
  split at h
  · cases h
  · obtain rfl := Option.some.inj h
    simp [Module.classes, contextType, List.filterMap_append, List.filterMap_map]

theorem carries_commandVariant (h : commandsModule? e = some m) (hc : c ∈ e.commands) :
    Carries m (e.variantName c) c ["payload: " ++ payloadType e c] := by
  refine ⟨commandVariant e c, ?_, rfl, rfl⟩
  rw [classes_commandsModule h]
  simp only [List.mem_append, List.mem_cons]
  exact Or.inl (Or.inl (Or.inr (Or.inr (List.mem_map_of_mem hc))))

theorem carries_resultVariant (h : commandsModule? e = some m) (hc : c ∈ e.commands) :
    Carries m (e.resultVariantName c) c ((resultType e c).map fun t => "value: " ++ t).toList := by
  refine ⟨resultVariant e c, ?_, rfl, rfl⟩
  rw [classes_commandsModule h]
  simp only [List.mem_append, List.mem_cons]
  exact Or.inl (Or.inr (Or.inr (List.mem_map_of_mem hc)))

/-- Every command is routed, whatever its name. -/
theorem routes_branch (h : commandsModule? e = some m)
    (hn : (e.commands.map Command.name).Nodup) (hc : c ∈ e.commands) :
    Routes e m (handlerClass e) c (branch e c) where
  dispatcher := ⟨dispatching e, methodNamed?_handle, dispatches_branch hn hc⟩
  method := rfl
  result := rfl
  hasValue := by
    show (resultType e c).isSome = false ↔ _
    rw [resultType, lastNamed_eq hn hc, Option.isSome_map, Option.isSome_eq_false_iff,
      Option.isNone_iff_eq_none]
  variant := ⟨_, carries_commandVariant h hc⟩
  carried := by
    refine ⟨_, carries_resultVariant h hc, ?_⟩
    show _ ↔ (resultType e c).isSome = false
    cases resultType e c <;> simp

/-- The handler is the last class of the commands of an entity that was built, and it routes each
command. It declares exactly one coroutine for each, to which the command is routed, exactly when
no two commands have one name in snake case. -/
theorem handlesEach_iff {d : EntityDeclaration} {strict : Bool} {notes : List Diagnostic}
    (hb : Build.build d strict = .ok (e, notes)) (hm : commandsModule? e = some m) :
    ∃ b, m.classes.getLast? = some b ∧ b.name = e.handlerName ∧
      (∀ c ∈ e.commands, ∃ r, Routes e m b c r) ∧
      (HandlesEach e m b ↔ (e.commands.map fun c => Text.snakeCase c.name).Nodup) := by
  obtain ⟨-, hvalid, -⟩ := Build.of_build_eq_ok hb
  have hn := hvalid.commandNames_nodup
  refine ⟨handlerClass e, by rw [classes_commandsModule hm, List.getLast?_concat], rfl,
    fun c hc => ⟨_, routes_branch hm hn hc⟩, fun h => ?_, fun h => ⟨?_, ?_, fun c hc => ?_⟩⟩
  · have hdistinct := h.distinct
    rwa [abstractCoroutines_handlerClass, nodup_names_handling_iff] at hdistinct
  · rw [abstractCoroutines_handlerClass, List.forall₂_map_right_iff, List.forall₂_same]
    exact fun c hc => writtenFor_handling hn hc
  · rwa [abstractCoroutines_handlerClass, nodup_names_handling_iff]
  · exact ⟨_, routes_branch hm hn hc, _, methodNamed?_handlerMethod h hc,
      writtenFor_handling hn hc⟩

/-- The two commands of an order have methods of their own, and one of them yields nothing. -/
theorem handlesEach_order : ∃ e notes m b,
    Build.build orderDeclaration false = .ok (e, notes) ∧ commandsModule? e = some m ∧
      e.commands.map Command.handlerMethod = ["handle_register", "handle_ship"] ∧
      m.classes.getLast? = some b ∧ HandlesEach e m b := by
  obtain ⟨e, notes, hb, hgood⟩ := Build.exists_of_build orderDeclaration false
    (fun e => (commandsModule? e).isSome &&
      decide (e.commands.map Command.handlerMethod = ["handle_register", "handle_ship"] ∧
        (e.commands.map fun c => Text.snakeCase c.name).Nodup)) (by decide +kernel)
  rw [Bool.and_eq_true, decide_eq_true_eq] at hgood
  obtain ⟨m, hm⟩ := Option.isSome_iff_exists.mp hgood.1
  obtain ⟨b, hlast, -, -, hiff⟩ := handlesEach_iff hb hm
  exact ⟨e, notes, m, b, hb, hm, hgood.2.1, hlast, hiff.mpr hgood.2.2⟩

/-- An entity with two commands that differ in how they part the words of their names. -/
def mailboxDeclaration : EntityDeclaration where
  name := "Mailbox"
  attributes := [(.text "table", .text "mailboxes"),
    (.text "commands", .list [.text "SendMail", .text "Send_Mail"])]
  fields := some [
    { name := some "id", type := "uuid", attributes := [(.text "id", .bool true)] },
    { name := some "title", type := "string", attributes := [(.text "field", .text "create")] }]

/-- The mailbox is built, but its handler has one method for both commands. -/
theorem not_handlesEach_mailbox : ∃ e notes m b,
    Build.build mailboxDeclaration false = .ok (e, notes) ∧ commandsModule? e = some m ∧
      m.classes.getLast? = some b ∧ e.commands.map Command.name = ["SendMail", "Send_Mail"] ∧
      (abstractCoroutines b).map Function.name = ["handle_send_mail", "handle_send_mail"] ∧
      ¬ HandlesEach e m b := by
  obtain ⟨e, notes, hb, hgood⟩ := Build.exists_of_build mailboxDeclaration false
    (fun e => (commandsModule? e).isSome &&
      decide (e.commands.map Command.name = ["SendMail", "Send_Mail"] ∧
        (abstractCoroutines (handlerClass e)).map Function.name =
          ["handle_send_mail", "handle_send_mail"])) (by decide +kernel)
  rw [Bool.and_eq_true, decide_eq_true_eq] at hgood
  obtain ⟨hsome, hcommands, hnames⟩ := hgood
  obtain ⟨m, hm⟩ := Option.isSome_iff_exists.mp hsome
  refine ⟨e, notes, m, handlerClass e, hb, hm, ?_, hcommands, hnames, fun h => ?_⟩
  · rw [classes_commandsModule hm, List.getLast?_concat]
  · have hdistinct := h.distinct
    rw [hnames] at hdistinct
    exact absurd hdistinct (by decide)

end EntityForge.Package
