import EntityForge.Package.Files
import EntityForge.Proofs.Finding
import EntityForge.Proofs.Import

/-!
# What the modules of a package define

The settings of an entity decide which modules there are, and each module decides by itself what it
imports from the others. The names that modules take from each other are listed once, each with the
module that defines it and the setting it depends on, and each is defined where it is looked for.
-/

namespace EntityForge.Package

open Source

variable {runtime : String} {e : Entity} {k : ModuleKind} {m : Module}
  {ms : List (ModuleKind × Module)} {n : String}

/-! ## The modules of a package -/

/-- The module of a kind, if there is anything in it. -/
def moduleFor (runtime : String) (e : Entity) : ModuleKind → Option Module
  | .entity => some (entityModule e)
  | .transfer => transferModule? runtime e
  | .query => queryModule? runtime e
  | .repository => some (repositoryModule e)
  | .backend => some (backendModule runtime e)
  | .events => some (eventsModule e)
  | .commands => commandsModule? e
  | .policy => some (policyModule runtime e)
  | .streams => some (streamsModule runtime e)
  | .hooks => some (hooksModule e)
  | .transactions => some (transactionsModule runtime e)

theorem eq_moduleFor {found : Option Module} (h : module? runtime e k = .ok found) :
    found = moduleFor runtime e k := by
  obtain ⟨found', hof, h⟩ := exists_of_bind_eq_ok h
  obtain ⟨-, -, h⟩ := exists_of_bind_eq_ok h
  obtain rfl : found' = found := Except.ok.inj h
  cases k with
  | query =>
    simp only [moduleOf?] at hof
    split at hof
    · rename_i m hm
      rw [← Except.ok.inj hof, moduleFor, hm]
    · simp at hof
  | commands =>
    simp only [moduleOf?] at hof
    split at hof
    · rename_i m hm
      rw [← Except.ok.inj hof, moduleFor, hm]
    · simp at hof
  | backend =>
    obtain ⟨-, -, hof⟩ := exists_of_bind_eq_ok hof
    exact (Except.ok.inj hof).symm
  | transactions =>
    obtain ⟨-, -, hof⟩ := exists_of_bind_eq_ok hof
    exact (Except.ok.inj hof).symm
  | _ => exact (Except.ok.inj hof).symm

/-- Of the kinds asked for, a package has the modules with something in them. -/
theorem mem_collectModules {ks : List ModuleKind} (h : collectModules runtime e ks = .ok ms) :
    (k, m) ∈ ms ↔ k ∈ ks ∧ moduleFor runtime e k = some m := by
  induction ks generalizing ms with
  | nil =>
    rw [← Except.ok.inj h]
    simp
  | cons j ks ih =>
    obtain ⟨found, hj, h⟩ := exists_of_bind_eq_ok h
    obtain ⟨rest, hrest, h⟩ := exists_of_bind_eq_ok h
    obtain rfl := Except.ok.inj h
    have hfirst : (k, m) ∈ (found.map fun m => (j, m)).toList ↔
        k = j ∧ moduleFor runtime e k = some m := by
      rw [eq_moduleFor hj, Option.mem_toList, Option.map_eq_some_iff]
      constructor
      · rintro ⟨a, ha, hpair⟩
        obtain ⟨rfl, rfl⟩ := Prod.mk.inj hpair
        exact ⟨rfl, ha⟩
      · rintro ⟨rfl, hm⟩
        exact ⟨m, hm, rfl⟩
    rw [List.mem_append, hfirst, ih hrest, List.mem_cons, or_and_right]

/-- The settings ask for a module of a kind. -/
def asksFor (e : Entity) : ModuleKind → Bool
  | .entity | .transfer => true
  | .query => e.hasRepository && e.hasFilters
  | .repository => e.hasRepository
  | .backend => e.hasBackend
  | .events => e.features.events || e.features.streams
  | .commands => e.hasCommands
  | .policy => e.features.policy
  | .streams => e.features.streams
  | .hooks => e.features.hooks
  | .transactions => e.features.transactions && e.hasBackend

theorem mem_moduleKinds : k ∈ moduleKinds e ↔ asksFor e k = true := by
  have hgiven (asked : Bool) (j : ModuleKind) :
      k ∈ (if asked then [j] else []) ↔ asked = true ∧ k = j := by
    cases asked <;> simp
  simp only [moduleKinds, List.mem_append, hgiven]
  cases k <;> simp [asksFor]

theorem mem_modules (h : modules runtime e = .ok ms) :
    (k, m) ∈ ms ↔ asksFor e k = true ∧ moduleFor runtime e k = some m := by
  have hcollect : collectModules runtime e (moduleKinds e) = .ok ms := by
    simp only [modules] at h
    split at h
    · obtain ⟨-, -, h⟩ := exists_of_bind_eq_ok h
      exact h
    · exact h
  rw [mem_collectModules hcollect, mem_moduleKinds]

/-! ## What the modules define -/

/-- The names that the modules of a package take from each other, each with the module that defines
it. -/
inductive Provides (e : Entity) : ModuleKind → String → Prop
  | entity : Provides e .entity e.name
  | createRequest (given : e.createFields.isEmpty = false) : Provides e .transfer e.createRequest
  | updateRequest (given : e.updateFields.isEmpty = false) : Provides e .transfer e.updateRequest
  | projection {p : Projection} (living : p ∈ e.livingProjections) :
    Provides e .transfer (p.structName e.name)
  | query (asked : asksFor e .query = true) : Provides e .query e.queryName
  | queryFunction (asked : asksFor e .query = true) : Provides e .query e.queryFunction
  | repository (asked : asksFor e .repository = true) : Provides e .repository e.repositoryName
  | backend (asked : asksFor e .backend = true) : Provides e .backend e.backendName
  | event (asked : asksFor e .events = true) {v : EventVariant} (variant : v ∈ eventVariants e) :
    Provides e .events (v.className e)
  | eventUnion (asked : asksFor e .events = true) : Provides e .events e.eventUnion
  | decode (asked : asksFor e .events = true) : Provides e .events e.decodeFunction
  | command (asked : asksFor e .commands = true) : Provides e .commands e.commandUnion
  | result (asked : asksFor e .commands = true) : Provides e .commands e.resultUnion
  | handler (asked : asksFor e .commands = true) : Provides e .commands e.handlerName

/-- Every shape is a class of the transfer module. -/
theorem introduces_shape {shape : Importing} (h : shape ∈ shapes runtime e) {name : String}
    (hn : shape.1.name = name) :
    ∃ m, moduleFor runtime e .transfer = some m ∧ m.Introduces name := by
  have hne : (shapes runtime e).isEmpty = false := by
    rw [List.isEmpty_eq_false_iff]
    exact List.ne_nil_of_mem h
  refine ⟨_, by rw [moduleFor, transferModule?, hne, if_neg Bool.false_ne_true], ?_⟩
  exact Module.introduces_class shape.1 (List.mem_map.mpr ⟨shape, h, rfl⟩) hn

/-- Every shape is among the classes that the transfer module writes. -/
theorem shape_mem_classes {shape : Importing} (h : shape ∈ shapes runtime e) :
    ∃ m, transferModule? runtime e = some m ∧ shape.1 ∈ m.classes := by
  have hne : (shapes runtime e).isEmpty = false :=
    List.isEmpty_eq_false_iff.mpr (List.ne_nil_of_mem h)
  refine ⟨_, by rw [transferModule?, hne, if_neg Bool.false_ne_true], ?_⟩
  simp only [Module.classes, List.filterMap_map, List.mem_filterMap, Function.comp_apply]
  exact ⟨_, h, rfl⟩

/-- With filters there is a query module, with the class and the function in it. -/
theorem introduces_query (h : e.hasFilters = true) :
    ∃ m, moduleFor runtime e .query = some m ∧
      m.Introduces e.queryName ∧ m.Introduces e.queryFunction := by
  have hne : e.filterFields ≠ [] := by simpa [Entity.hasFilters] using h
  obtain ⟨f, hf⟩ := List.exists_mem_of_ne_nil _ hne
  have hkind : f.filter ≠ .none := by simpa using (List.mem_filter.mp hf).2
  have hparameters : fieldParameters f ≠ [] := by
    cases hfilter : f.filter <;> simp_all [fieldParameters]
  obtain ⟨p, hp⟩ := List.exists_mem_of_ne_nil _ hparameters
  -- The module is left out only without parameters, and this field has one.
  have hempty : (filterParameters e).isEmpty = false := by
    rw [List.isEmpty_eq_false_iff]
    exact List.ne_nil_of_mem (List.mem_flatMap.mpr ⟨f, hf, hp⟩)
  refine ⟨_, by rw [moduleFor, queryModule?, hempty, if_neg Bool.false_ne_true], ?_, ?_⟩
  · exact Module.introduces_class (queryClass e) (List.mem_cons_of_mem _ List.mem_cons_self) rfl
  · exact Module.introduces_function (queryFunction e)
      (List.mem_cons_of_mem _ (List.mem_cons_of_mem _ List.mem_cons_self)) rfl

/-- With commands there is a commands module, with the two unions and the handler in it. -/
theorem introduces_commands (h : e.hasCommands = true) :
    ∃ m, moduleFor runtime e .commands = some m ∧ m.Introduces e.commandUnion ∧
      m.Introduces e.resultUnion ∧ m.Introduces e.handlerName := by
  have hempty : e.commands.isEmpty = false := by
    simp only [Entity.hasCommands, Bool.and_eq_true, Bool.not_eq_true'] at h
    exact h.2
  refine ⟨_, by rw [moduleFor, commandsModule?, hempty, if_neg Bool.false_ne_true], ?_, ?_, ?_⟩
  · refine Module.introduces_class (unionBase e.commandUnion
      s!"Base of every {e.name} command; ``name`` identifies the variant.") ?_ rfl
    simp only [List.mem_append, List.mem_singleton]
    exact Or.inl (Or.inl (Or.inl (Or.inl (Or.inr trivial))))
  · refine Module.introduces_class (unionBase e.resultUnion
      s!"Base of every {e.name} command result; ``name`` matches the command.") ?_ rfl
    simp only [List.mem_append, List.mem_singleton]
    exact Or.inl (Or.inl (Or.inr trivial))
  · exact Module.introduces_class (handlerClass e)
      (List.mem_append_right _ (List.mem_singleton_self _)) rfl

/-- The events module defines the class of every event, their union and its reader. -/
theorem introduces_events :
    (∀ v ∈ eventVariants e, (eventsModule e).Introduces (v.className e)) ∧
      (eventsModule e).Introduces e.eventUnion ∧ (eventsModule e).Introduces e.decodeFunction := by
  refine ⟨fun v hv => ?_, ⟨eventUnionSection e, ?_, ?_⟩, ?_⟩
  · refine Module.introduces_class (eventClass e v) ?_ rfl
    exact List.mem_append_left _ (List.mem_append_right _ (List.mem_map_of_mem hv))
  · exact List.mem_append_right _ List.mem_cons_self
  · exact ⟨_, List.mem_cons_self, rfl, _, String.append_assoc ..⟩
  · exact Module.introduces_function (decodeFunction e)
      (List.mem_append_right _ (List.mem_cons_of_mem _ (List.mem_singleton_self _))) rfl

/-- The request that creates an entity is a shape of it, if there is anything in the request. -/
theorem createRequest_mem_shapes (h : e.createFields.isEmpty = false) :
    ∃ imports, (Package.createRequest e, imports) ∈ shapes runtime e := by
  rw [shapes, h, if_neg Bool.false_ne_true]
  simp only [List.append_assoc]
  exact ⟨_, List.mem_append_left _ (List.mem_singleton_self _)⟩

theorem updateRequest_mem_shapes (h : e.updateFields.isEmpty = false) :
    ∃ imports, (Package.updateRequest e, imports) ∈ shapes runtime e := by
  rw [shapes, h, if_neg Bool.false_ne_true]
  simp only [List.append_assoc]
  exact ⟨_, List.mem_append_right _ (List.mem_append_left _ (List.mem_singleton_self _))⟩

theorem response_mem_shapes (h : e.responseFields.isEmpty = false) :
    ∃ imports, (Package.response e, imports) ∈ shapes runtime e := by
  rw [shapes, h, if_neg Bool.false_ne_true]
  simp only [List.append_assoc]
  exact ⟨_, List.mem_append_right _ (List.mem_append_right _
    (List.mem_append_left _ (List.mem_singleton_self _)))⟩

theorem projectionShape_mem_shapes {p : Projection} (h : p ∈ e.livingProjections) :
    ∃ imports, (projectionShape e p, imports) ∈ shapes runtime e :=
  ⟨_, List.mem_append_right _ (List.mem_map.mpr ⟨p, h, rfl⟩)⟩

/-- What a module provides it defines. -/
theorem Provides.introduces (h : Provides e k n) :
    asksFor e k = true ∧ ∃ m, moduleFor runtime e k = some m ∧ m.Introduces n := by
  cases h with
  | entity =>
    exact ⟨rfl, entityModule e, rfl,
      Module.introduces_class _ (List.mem_singleton_self _) rfl⟩
  | createRequest given =>
    obtain ⟨imports, hmem⟩ := createRequest_mem_shapes given
    exact ⟨rfl, introduces_shape hmem rfl⟩
  | updateRequest given =>
    obtain ⟨imports, hmem⟩ := updateRequest_mem_shapes given
    exact ⟨rfl, introduces_shape hmem rfl⟩
  | projection living =>
    exact ⟨rfl, introduces_shape (List.mem_append_right _ (List.mem_map_of_mem living)) rfl⟩
  | query asked =>
    obtain ⟨m, hm, hclass, -⟩ := introduces_query (Bool.and_eq_true_iff.mp asked).2
    exact ⟨asked, m, hm, hclass⟩
  | queryFunction asked =>
    obtain ⟨m, hm, -, hfunction⟩ := introduces_query (Bool.and_eq_true_iff.mp asked).2
    exact ⟨asked, m, hm, hfunction⟩
  | repository asked =>
    exact ⟨asked, repositoryModule e, rfl,
      Module.introduces_class _ (List.mem_singleton_self _) rfl⟩
  | backend asked =>
    exact ⟨asked, backendModule runtime e, rfl, Module.introduces_class (backendClass e)
      (List.mem_cons_of_mem _ (List.mem_singleton_self _)) rfl⟩
  | event asked variant => exact ⟨asked, eventsModule e, rfl, introduces_events.1 _ variant⟩
  | eventUnion asked => exact ⟨asked, eventsModule e, rfl, introduces_events.2.1⟩
  | decode asked => exact ⟨asked, eventsModule e, rfl, introduces_events.2.2⟩
  | command asked =>
    obtain ⟨m, hm, hcommand, -, -⟩ := introduces_commands asked
    exact ⟨asked, m, hm, hcommand⟩
  | result asked =>
    obtain ⟨m, hm, -, hresult, -⟩ := introduces_commands asked
    exact ⟨asked, m, hm, hresult⟩
  | handler asked =>
    obtain ⟨m, hm, -, -, hhandler⟩ := introduces_commands asked
    exact ⟨asked, m, hm, hhandler⟩

end EntityForge.Package
