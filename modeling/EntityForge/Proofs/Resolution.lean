import EntityForge.Proofs.Build
import EntityForge.Proofs.Linking

/-!
# Imports within a package

Whatever a module of a package imports by a path with one dot is defined in a module of that
package. A declared type of a command is the user's affair; but an entity that a command yields is
looked up by its own name too, which leads astray when that name is itself a path.
-/

namespace EntityForge

/-! ## The path of the error class -/

namespace Attribute

theorem errorType_isDottedPathLine {value : Value} {site : Site} {path : String}
    (h : (errorType value site).value = some path) : Text.isDottedPathLine path.toList = true := by
  simp only [errorType, Noted.value_bind] at h
  cases ht : (text value "error" site).value with
  | none => simp [ht] at h
  | some t =>
    by_cases hd : Text.isDottedPathLine t.toList = true
    · obtain rfl : t = path := by simpa [ht, hd] using h
      exact hd
    · simp [ht, hd] at h

theorem entityAttributes_errorType {entity : String} {entries : Entries} {path : String}
    (h : (entityAttributes entity entries).value.errorType = some path) :
    Text.isDottedPathLine path.toList = true := by
  revert h
  exact present_induction (P := fun x : Noted (Option String) => x.value = some path → _) (by simp)
    fun v => errorType_isDottedPathLine

end Attribute

/-- The error class of an entity that is built is found by an absolute path. -/
theorem Build.errorType_of_build {d : EntityDeclaration} {strict : Bool} {e : Entity}
    {notes : Diagnostics} (h : build d strict = .ok (e, notes)) {path : String}
    (hp : e.errorType = some path) : Text.isDottedPathLine path.toList = true := by
  obtain ⟨he, -, -⟩ := of_build_eq_ok h
  have herror : e.errorType = (parts d strict).value.attributes.errorType := by
    unfold assemble? at he
    split at he
    · obtain rfl := Option.some.inj he
      rfl
    · simp at he
  rw [herror, attributes_parts] at hp
  exact Attribute.entityAttributes_errorType hp

namespace Package

open Source

variable {runtime : String} {e : Entity} {m : Module} {ms : List (ModuleKind × Module)}
  {n : String}

/-! ## The types of commands -/

/-- The name is taken for the type that a command's payload or result is declared to have. -/
def DeclaredType (e : Entity) (path name : String) : Prop :=
  ∃ c ∈ e.commands, ∃ t ∈ c.externalPayload?.toList ++ (nonEmpty? c.resultType).toList,
    ∃ r ∈ pathRegistrations t, r.Takes path name

/-- The name is taken for the entity itself, which a command yields without a declared result. -/
def OwnResult (e : Entity) (path name : String) : Prop :=
  ∃ c ∈ e.commands, nonEmpty? c.resultType = none ∧ c.resultFor e.name = some e.name ∧
    ∃ r ∈ pathRegistrations e.name, r.Takes path name

/-- A command without a declared result yields the entity or nothing. -/
theorem eq_of_resultFor {c : Command} {entity t : String} (hd : nonEmpty? c.resultType = none)
    (h : c.resultFor entity = some t) : t = entity := by
  simp only [Command.resultFor, hd] at h
  split at h
  · exact (Option.some.inj h).symm
  · exact (Option.some.inj h).symm
  · simp at h
  · split at h
    · simp at h
    · exact (Option.some.inj h).symm

/-- What a command needs imported is a declared type, or the entity. -/
theorem declaredType_or_ownResult {c : Command} (hc : c ∈ e.commands) {path name : String}
    {r : Registration} (hr : r ∈ commandTypeImports e c) (ht : r.Takes path name) :
    DeclaredType e path name ∨ OwnResult e path name := by
  rcases List.mem_append.mp hr with hr | hr
  · cases hp : c.externalPayload? with
    | none => simp [hp] at hr
    | some t =>
      simp only [hp, Option.map_some, Option.getD_some] at hr
      exact Or.inl ⟨c, hc, t, by simp [hp], r, hr, ht⟩
  · cases hres : c.resultFor e.name with
    | none => simp [hres] at hr
    | some t =>
      simp only [hres, Option.map_some, Option.getD_some] at hr
      cases hd : nonEmpty? c.resultType with
      | some declared =>
        have htype : c.resultFor e.name = some declared := by simp [Command.resultFor, hd]
        obtain rfl : t = declared := Option.some.inj (hres.symm.trans htype)
        exact Or.inl ⟨c, hc, t, by simp [hd], r, hr, ht⟩
      | none =>
        obtain rfl : t = e.name := eq_of_resultFor hd hres
        exact Or.inr ⟨c, hc, hd, hres, r, hr, ht⟩

/-! ## Resolution -/

/-- A name that is imported by a path within the package is defined in the module there. -/
def Resolves (ms : List (ModuleKind × Module)) (path name : String) : Prop :=
  ∀ file, Sibling path file → ∃ m ∈ ms, m.1.name = file ∧ m.2.Introduces name

/-- All imports within a package lead to what is defined there, those of the modules and those of
the initial file; what the commands declare as types is up to the user. -/
def ImportsResolve (e : Entity) (ms : List (ModuleKind × Module)) : Prop :=
  (∀ r ∈ packageExports e, ∀ n ∈ r.2, Resolves ms r.1 n) ∧
    ∀ m ∈ ms, ∀ r ∈ m.2.importTable.written, ∀ n ∈ r.2,
      (m.1 = .commands ∧ DeclaredType e r.1 n) ∨ Resolves ms r.1 n

theorem Linked.resolves (hms : modules runtime e = .ok ms) {r : Registration} (h : Linked e r)
    {path : String} (ht : r.Takes path n) : Resolves ms path n := by
  obtain ⟨rfl, hn⟩ := ht
  intro file hfile
  rcases h with h | ⟨k, hpath, h⟩
  · exact absurd hfile (h file)
  · obtain ⟨ha, m, hm, hdefined⟩ := @Provides.introduces runtime _ _ _ (h n hn)
    rw [hpath] at hfile
    exact ⟨(k, m), (mem_modules hms).mpr ⟨ha, hm⟩, eq_of_sibling hfile, hdefined⟩

theorem linked_packageExports : AllLinked e (packageExports e) := by
  refine .append (.append (.single (linked_one .entity rfl .entity)) ?_) ?_
  · split
    · rename_i h
      exact .single (linked_one .repository rfl (.repository h))
    · exact .nil
  · split
    · rename_i h
      exact .single (linked_one .backend rfl (.backend h))
    · exact .nil

/-- What a module writes as imports are the names it registers. -/
theorem exists_takes_of_mem_written {r : Registration} (hr : r ∈ m.importTable.written)
    (hn : n ∈ r.2) : ∃ q ∈ m.imports, q.Takes r.1 n :=
  ImportTable.takes_ofRegistrations.mp ⟨r, ImportTable.mem_written.mp hr, rfl, hn⟩

theorem exists_mem_written {r : Registration} (hr : r ∈ m.imports) {path : String}
    (ht : r.Takes path n) : ∃ q ∈ m.importTable.written, q.Takes path n := by
  obtain ⟨q, hq, ht⟩ := ImportTable.takes_ofRegistrations.mpr ⟨r, hr, ht⟩
  exact ⟨q, ImportTable.mem_written.mpr hq, ht⟩

/-- All imports of a package resolve exactly if the entity's own name does, where a command needs
it. -/
theorem importsResolve_iff (hruntime : ImportTable.isRelative runtime = false)
    (herror : AbsoluteError e) (hms : modules runtime e = .ok ms) :
    ImportsResolve e ms ↔ (e.hasCommands = true → ∀ path name, OwnResult e path name →
      DeclaredType e path name ∨ Resolves ms path name) := by
  constructor
  · -- Where the entity is a result, the commands module imports it by its own name.
    rintro ⟨-, h⟩ hcommands path name ⟨c, hc, hd, hres, r, hr, ht⟩
    obtain ⟨m, hm, -⟩ := @introduces_commands runtime _ hcommands
    have hmem : (ModuleKind.commands, m) ∈ ms := (mem_modules hms).mpr ⟨hcommands, hm⟩
    have himport : r ∈ m.imports := by
      refine commandTypeImports_subset hm hc (List.mem_append_right _ ?_)
      simpa only [hres, Option.map_some, Option.getD_some] using hr
    obtain ⟨q, hq, rfl, hn⟩ := exists_mem_written himport ht
    exact (h _ hmem q hq name hn).imp_left And.right
  · intro h
    refine ⟨fun r hr n hn => (linked_packageExports r hr).resolves hms ⟨rfl, hn⟩, ?_⟩
    intro ⟨k, m⟩ hmem r hr n hn
    obtain ⟨ha, hm⟩ := (mem_modules hms).mp hmem
    obtain ⟨q, hq, ht⟩ := exists_takes_of_mem_written hr hn
    -- What is not linked is a type of a command: a declared one, or the entity.
    rcases linked_imports hruntime herror ha hm hq with hlinked | ⟨rfl, c, hc, hcq⟩
    · exact Or.inr (hlinked.resolves hms ht)
    · rcases declaredType_or_ownResult hc hcq ht with hdeclared | hown
      · exact Or.inl ⟨rfl, hdeclared⟩
      · exact (h ha _ _ hown).imp_left fun hd => ⟨rfl, hd⟩

/-- A name without a dot is no path, and leads nowhere. -/
theorem not_ownResult (h : '.' ∉ e.name.toList) (path name : String) : ¬ OwnResult e path name := by
  rintro ⟨c, -, -, -, r, hr, -⟩
  rw [pathRegistrations_of_no_dot h] at hr
  simp at hr

/-- A package that is generated for a built entity holds its initial file, its modules and the
migration. All imports within it resolve exactly if the entity's own name does where a command
yields it, and so they do whenever there is no dot in that name. -/
theorem imports_resolve_iff {d : EntityDeclaration} {strict : Bool} {notes : Diagnostics}
    {c : GenerationConfig} {artifacts : List Artifact}
    (hb : Build.build d strict = .ok (e, notes))
    (hruntime : ImportTable.isRelative c.runtimeModule = false)
    (ha : entityArtifacts c e = .ok artifacts) :
    ∃ ms, modules c.runtimeModule e = .ok ms ∧
      artifacts = [⟨directory c e ++ "/__init__.py", packageInit e, e.name, "package"⟩] ++
        ms.map (fun m => ⟨directory c e ++ "/" ++ m.1.file, m.2.text, e.name, m.1.name⟩) ++
        migrationFiles c e ∧
      (ImportsResolve e ms ↔ (e.hasCommands = true → ∀ path name, OwnResult e path name →
        DeclaredType e path name ∨ Resolves ms path name)) ∧
      ('.' ∉ e.name.toList → ImportsResolve e ms) := by
  obtain ⟨ms, hms, hfiles⟩ := exists_of_bind_eq_ok ha
  have herror : AbsoluteError e :=
    fun _ hpath => head?_of_isDottedPathLine (Build.errorType_of_build hb hpath)
  have hiff := importsResolve_iff hruntime herror hms
  refine ⟨ms, hms, (Except.ok.inj hfiles).symm, hiff, fun hname => ?_⟩
  exact hiff.mpr fun _ path name hown => absurd hown (not_ownResult hname path name)

/-- What can be computed of the modules of a declaration that is built. -/
theorem exists_modules_of_build (d : EntityDeclaration) (strict : Bool) (runtime : String)
    (P : Entity → List (ModuleKind × Module) → Bool)
    (h : (match Build.build d strict with
      | .ok (e, _) => (match modules runtime e with
        | .ok ms => P e ms
        | .error _ => false)
      | .error _ => false) = true) :
    ∃ e notes ms, Build.build d strict = .ok (e, notes) ∧ modules runtime e = .ok ms ∧
      P e ms = true := by
  obtain ⟨e, notes, hb, hmodules⟩ := Build.exists_of_build d strict
    (fun e => match modules runtime e with
      | .ok ms => P e ms
      | .error _ => false) h
  split at hmodules
  · rename_i ms hms
    exact ⟨e, notes, ms, hb, hms, hmodules⟩
  · simp at hmodules

/-- An entity that asks for a module of every kind. -/
def orderDeclaration : EntityDeclaration where
  name := "Order"
  attributes := [(.text "table", .text "orders"), (.text "soft_delete", .bool true),
    (.text "error", .text "app.errors.OrderError"), (.text "events", .bool true),
    (.text "hooks", .bool true), (.text "policy", .bool true), (.text "streams", .bool true),
    (.text "transactions", .bool true), (.text "migrations", .bool true),
    (.text "has_many", .list [.text "Line"]),
    (.text "projections", .map [(.text "Card", .list [.text "id", .text "title"])]),
    (.text "commands", .list [.text "Register",
      .map [(.text "name", .text "Ship"), (.text "payload", .text ".forms.Shipment"),
        (.text "result", .text "app.results.Receipt")]])]
  fields := some [
    { name := some "id", type := "uuid", attributes := [(.text "id", .bool true)] },
    { name := some "title", type := "string"
      attributes := [(.text "field", .list [.text "create", .text "update"]),
        (.text "filter", .text "like")] },
    { name := some "parent_id", type := "uuid"
      attributes := [(.text "belongs_to", .text "Order")] },
    { name := some "deleted_at", type := "datetime?", attributes := [] }]

/-- All imports within the package of an order resolve, but for the type of a payload. -/
theorem imports_resolve_order : ∃ e notes artifacts ms,
    Build.build orderDeclaration false = .ok (e, notes) ∧
      ImportTable.isRelative ({} : GenerationConfig).runtimeModule = false ∧
      entityArtifacts {} e = .ok artifacts ∧ (moduleKinds e).length = 11 ∧
      modules ({} : GenerationConfig).runtimeModule e = .ok ms ∧ ImportsResolve e ms := by
  obtain ⟨e, notes, hb, hgood⟩ := Build.exists_of_build orderDeclaration false
    (fun e => (match entityArtifacts {} e with
      | .ok _ => true
      | .error _ => false) && ((moduleKinds e).length == 11 && !e.name.toList.contains '.'))
    (by decide +kernel)
  simp only [Bool.and_eq_true, beq_iff_eq, Bool.not_eq_true'] at hgood
  obtain ⟨hartifacts, hkinds, hname⟩ := hgood
  split at hartifacts
  · rename_i artifacts ha
    obtain ⟨ms, hms, -, -, hresolve⟩ := imports_resolve_iff hb (by decide) ha
    have hdot : '.' ∉ e.name.toList := by simpa using hname
    exact ⟨e, notes, artifacts, ms, hb, by decide, ha, hkinds, hms, hresolve hdot⟩
  · simp at hartifacts

/-- An entity whose name is a path, with a command that yields it. -/
def shopDeclaration : EntityDeclaration where
  name := ".shop.Order"
  attributes := [(.text "table", .text "orders"), (.text "commands", .list [.text "Register"])]
  fields := some [
    { name := some "id", type := "uuid", attributes := [(.text "id", .bool true)] }]

/-- The commands module imports the entity by the path that is its name, though there is no module
there and the command declares no type. -/
theorem imports_unresolved_shop : ∃ e notes artifacts ms commands,
    Build.build shopDeclaration false = .ok (e, notes) ∧ entityArtifacts {} e = .ok artifacts ∧
      modules ({} : GenerationConfig).runtimeModule e = .ok ms ∧
      (ModuleKind.commands, commands) ∈ ms ∧
      (".shop", ["Order"]) ∈ commands.importTable.written ∧
      (∀ m ∈ ms, m.1.name ≠ "shop") ∧ ¬ DeclaredType e ".shop" "Order" ∧
      ¬ ImportsResolve e ms := by
  obtain ⟨e, notes, hb, hgood⟩ := Build.exists_of_build shopDeclaration false
    (fun e => (match modules ({} : GenerationConfig).runtimeModule e with
      | .ok ms => decide ((∃ m ∈ ms, m.1 = .commands ∧
          (".shop", ["Order"]) ∈ m.2.importTable.written) ∧ ∀ m ∈ ms, m.1.name ≠ "shop")
      | .error _ => false) && decide (∀ c ∈ e.commands,
        c.externalPayload?.toList ++ (nonEmpty? c.resultType).toList = []))
    (by decide +kernel)
  rw [Bool.and_eq_true, decide_eq_true_eq] at hgood
  obtain ⟨hmodules, htypes⟩ := hgood
  have hundeclared : ¬ DeclaredType e ".shop" "Order" := by
    rintro ⟨c, hc, t, ht, -⟩
    simp [htypes c hc] at ht
  split at hmodules
  · rename_i ms hms
    obtain ⟨⟨⟨-, commands⟩, hmem, rfl, himport⟩, hshop⟩ := of_decide_eq_true hmodules
    have hfiles : ∃ artifacts, entityArtifacts {} e = .ok artifacts := by
      rw [entityArtifacts, hms]
      exact ⟨_, rfl⟩
    obtain ⟨artifacts, ha⟩ := hfiles
    refine ⟨e, notes, artifacts, ms, commands, hb, ha, hms, hmem, himport, hshop, hundeclared, ?_⟩
    rintro ⟨-, h⟩
    have hsibling : Sibling ".shop" "shop" := ⟨rfl, by decide⟩
    rcases h _ hmem _ himport "Order" (List.mem_singleton_self _) with hdeclared | hresolves
    · exact hundeclared hdeclared.2
    · obtain ⟨m, hm, hname, -⟩ := hresolves "shop" hsibling
      exact hshop m hm hname
  · simp at hmodules

end Package

end EntityForge
