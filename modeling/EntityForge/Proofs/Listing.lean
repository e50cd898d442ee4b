import EntityForge.Proofs.CommandOption

/-!
# The names that a declaration lists

Projections, composite indexes and commands list names. What is written is a text or a list of
texts, and a reader that records no error has taken every one of them, in the order written and
without the blanks around it. So clean attributes have a projection, an index and a command for
each that is written, with the names that it lists.
-/

namespace EntityForge

/-! ## What is written -/

namespace Value

/-- A text without the blanks around it. -/
def word (v : Value) : String := Text.trimmed v.plain

/-- The names that a value lists. -/
def listed : Value → List String
  | .list items => items.map word
  | v => [v.word]

/-- The entries of a mapping. -/
def entries : Value → Entries
  | .map entries => entries
  | _ => []

/-- The items of a list. -/
def items : Value → List Value
  | .list items => items
  | _ => []

end Value

namespace Attribute

/-- What is written under an attribute. -/
def written (attributes : Entries) (key : String) : Value :=
  (Value.lookup key attributes).getD .null

/-- The projections that are written, each with the names that it lists. -/
def writtenProjections (attributes : Entries) : List Projection :=
  (written attributes "projections").entries.map fun (name, fields) => ⟨name.plain, fields.listed⟩

/-- The names that each written index lists. -/
def writtenIndexes (attributes : Entries) : List (List String) :=
  (written attributes "indexes").items.map fun index => (written index.entries "columns").listed

/-- The name of a command and the names that it lists. -/
def writtenCommand : Value → String × List String
  | .map options =>
    ((written options "name").word, ((Value.lookup "fields" options).map Value.listed).getD [])
  | name => (name.word, [])

/-- The commands that are written, each with the names that it lists. -/
def writtenCommands (attributes : Entries) : List (String × List String) :=
  (written attributes "commands").items.map writtenCommand

end Attribute

namespace Noted

/-- A clean run over items keeps something of each, where each clean one yields it. -/
theorem map_value_collect {α β γ : Type} {f : α → Noted (Option β)} (kept : β → γ) {g : α → γ}
    {as : List α} (h : (collect f as).Clean)
    (hf : ∀ a, (f a).Clean → (f a).value.map kept = some (g a)) :
    (collect f as).value.map kept = as.map g := by
  induction as with
  | nil => rfl
  | cons a as ih =>
    rw [clean_collect, List.forall_mem_cons] at h
    obtain ⟨b, hb, hg⟩ := Option.map_eq_some_iff.mp (hf a h.1)
    have hrest := ih ((clean_collect f as).mpr h.2)
    rw [value_collect] at hrest ⊢
    rw [List.filterMap_cons, hb, List.map_cons, List.map_cons, hg, hrest]

end Noted

namespace Attribute

/-! ## Names -/

section Scalar

variable {value : Value} {key : String} {site : Site}

theorem value_text_of_clean (h : (text value key site).Clean) :
    (text value key site).value = some value.word := by
  cases value with
  | text s =>
    have hword : (Value.text s).word = Text.trimmed s := rfl
    by_cases hs : Text.trimmed s = ""
    · simp [text, text.nonEmpty, hs] at h
    · simp [text, text.nonEmpty, hs, hword]
  | _ => simp [text] at h

theorem value_name_of_clean (h : (name value key site).Clean) :
    (name value key site).value = some value.word := by
  rw [name, Noted.clean_bind] at h
  obtain ⟨htext, h⟩ := h
  have hvalue := value_text_of_clean htext
  rw [name, Noted.value_bind]
  simp only [hvalue] at h ⊢
  split at h
  · rename_i hname
    rw [if_pos hname]
    rfl
  · simp at h

theorem value_names_of_clean {values : List Value} (h : (names key site values).Clean) :
    (names key site values).value = some (values.map Value.word) := by
  induction values with
  | nil => rfl
  | cons v vs ih =>
    rw [names, Noted.clean_bind] at h
    obtain ⟨hname, h⟩ := h
    have hvalue := value_name_of_clean hname
    rw [names, Noted.value_bind]
    simp only [hvalue, Noted.clean_bind] at h ⊢
    rw [Noted.value_bind, ih h.1]
    rfl

/-- Names that are read without an error are those written. -/
theorem value_nameList_of_clean (h : (nameList value key site).Clean) :
    (nameList value key site).value = some value.listed := by
  cases value with
  | text s =>
    have h : (names key site [.text s]).Clean := h
    exact value_names_of_clean h
  | list items => exact value_names_of_clean h
  | _ => simp [nameList] at h

end Scalar

/-! ## Attributes -/

variable {entries : Entries} {site : Site}

/-- What of an attribute is read without an error, with or without the attribute. -/
theorem value_given_of_clean {α : Type} {key : String} {absent : α} {read : Value → Noted α}
    {P : α → Value → Prop} (h : (given entries key absent read).Clean) (ha : P absent .null)
    (hr : ∀ v, (read v).Clean → P (read v).value v) :
    P (given entries key absent read).value (written entries key) := by
  unfold given written at *
  cases hv : Value.lookup key entries with
  | none => exact ha
  | some v =>
    rw [hv] at h
    exact hr v h

/-- Null stands for no attribute. -/
theorem value_present_of_clean {α : Type} {key : String} {absent : α} {read : Value → Noted α}
    {P : α → Value → Prop} (h : (present entries key absent read).Clean) (ha : P absent .null)
    (hr : ∀ v, (read v).Clean → P (read v).value v) :
    P (present entries key absent read).value (written entries key) := by
  unfold present Value.lookupPresent written at *
  cases hv : Value.lookup key entries with
  | none => exact ha
  | some v =>
    rw [hv] at h
    cases v with
    | null => exact ha
    | _ => exact hr _ h

/-! ## Projections -/

theorem value_projection_of_clean {entry : Value × Value} (h : (projection site entry).Clean) :
    (projection site entry).value = some ⟨entry.1.plain, entry.2.listed⟩ := by
  obtain ⟨key, value⟩ := entry
  unfold projection at h ⊢
  dsimp only at h ⊢
  split at h
  · simp at h
  · rename_i n hn
    have hplain : key.plain = n := by
      cases key with
      | text s =>
        dsimp only at hn
        split at hn
        · exact Option.some.inj hn
        · simp at hn
      | _ => simp at hn
    rw [Noted.clean_bind] at h
    rw [Noted.value_bind, value_nameList_of_clean h.1, hplain]
    rfl

theorem value_projections_of_clean {value : Value} (h : (projections value site).Clean) :
    (projections value site).value =
      value.entries.map fun (name, fields) => ⟨name.plain, fields.listed⟩ := by
  cases value with
  | map entries =>
    have hread := Noted.map_value_collect id h fun entry hc => by
      rw [Option.map_id_fun, id, value_projection_of_clean hc]
    rwa [List.map_id_fun, id] at hread
  | _ => simp [projections] at h

/-! ## Indexes -/

theorem value_indexColumns_of_clean (h : (indexColumns entries site).Clean) :
    (indexColumns entries site).value = some (written entries "columns").listed := by
  unfold indexColumns written at *
  cases hv : Value.lookup "columns" entries with
  | none => simp [hv] at h
  | some v =>
    simp only [hv, Noted.clean_bind] at h
    have hvalue := value_nameList_of_clean h.1
    simp only [Noted.value_bind, hvalue, Option.getD_some] at h ⊢
    split at h
    · simp at h
    · rfl

theorem isSome_flag_of_clean {value : Value} {key : String} (h : (flag value key site).Clean) :
    (flag value key site).value.isSome = true := by
  unfold flag at h ⊢
  split at h
  · rfl
  · rfl
  · simp at h

theorem isSome_choice_of_clean {α : Type} [Vocabulary α] {value : Value} {key code : String}
    (h : (choice α value key code site).Clean) :
    (choice α value key code site).value.isSome = true := by
  unfold choice at h ⊢
  dsimp only at h ⊢
  split at h
  · rfl
  · simp at h

/-- An index is read with the columns that are written. -/
theorem columns_of_clean {item : Value × Nat} (h : (compositeIndex site item).Clean) :
    (compositeIndex site item).value.map CompositeIndex.columns =
      some (written item.1.entries "columns").listed := by
  obtain ⟨value, position⟩ := item
  cases value with
  | map options =>
    simp only [compositeIndex, Noted.clean_bind] at h
    obtain ⟨-, hcolumns, hkind, hunique, -⟩ := h
    have hkind := value_given_of_clean (P := fun kind _ => kind.isSome = true) hkind rfl
      fun v hc => isSome_choice_of_clean hc
    have hunique := value_given_of_clean (P := fun unique _ => unique.isSome = true) hunique rfl
      fun v hc => isSome_flag_of_clean hc
    obtain ⟨kind, hkind⟩ := Option.isSome_iff_exists.mp hkind
    obtain ⟨unique, hunique⟩ := Option.isSome_iff_exists.mp hunique
    simp only [compositeIndex, Noted.value_bind, value_indexColumns_of_clean hcolumns, hkind,
      hunique]
    rfl
  | _ => simp [compositeIndex] at h

theorem columns_compositeIndexes_of_clean {value : Value}
    (h : (compositeIndexes value site).Clean) :
    (compositeIndexes value site).value.map CompositeIndex.columns =
      value.items.map fun index => (written index.entries "columns").listed := by
  cases value with
  | list items =>
    have hread := Noted.map_value_collect CompositeIndex.columns h fun _ => columns_of_clean
    let columns (index : Value) : List String := (written index.entries "columns").listed
    calc (compositeIndexes (.list items) site).value.map CompositeIndex.columns
        = items.zipIdx.map fun item => columns item.1 := hread
      _ = (items.zipIdx.map Prod.fst).map columns := by rw [List.map_map]; rfl
      _ = items.map columns := by rw [List.zipIdx_map_fst]
  | _ => simp [compositeIndexes] at h

/-! ## Commands -/

namespace CommandDraft

variable {d : CommandDraft}

theorem fields_takeSource : (d.takeSource entries site).value.fields = d.fields := by
  refine given_induction (P := fun x : Noted CommandDraft => x.value.fields = d.fields) rfl
    fun v => ?_
  split
  · rfl
  · split <;> rfl

theorem fields_takePayload : (d.takePayload entries site).value.fields = d.fields := by
  refine given_induction (P := fun x : Noted CommandDraft => x.value.fields = d.fields) rfl
    fun v => ?_
  simp only [Noted.value_bind]
  split
  · rfl
  · split <;> rfl

theorem fields_takeRequiresId : (d.takeRequiresId entries site).value.fields = d.fields := by
  refine given_induction (P := fun x : Noted CommandDraft => x.value.fields = d.fields) rfl
    fun v => ?_
  simp only [Noted.value_bind]
  split
  · split <;> rfl
  · rfl

theorem fields_takeKind : (d.takeKind entries site).value.fields = d.fields := by
  refine given_induction (P := fun x : Noted CommandDraft => x.value.fields = d.fields) rfl
    fun v => ?_
  simp only [Noted.value_bind]
  split <;> rfl

/-- Fields are taken as they are written. -/
theorem fields_takeFields (h : (d.takeFields entries site).Clean) (hd : d.fields = []) :
    (d.takeFields entries site).value.fields =
      ((Value.lookup "fields" entries).map Value.listed).getD [] := by
  unfold takeFields given at h ⊢
  cases hv : Value.lookup "fields" entries with
  | none => exact hd
  | some v =>
    simp only [hv, Noted.clean_bind] at h
    have hvalue := value_nameList_of_clean h.1
    simp only [Noted.value_bind, hvalue] at h ⊢
    cases hlisted : v.listed with
    | nil => simp [hlisted] at h
    | cons n ns => exact hlisted.symm

end CommandDraft

/-- A command is read with the name and the fields that are written. -/
theorem listing_draftCommand (h : (draftCommand entries site).Clean) :
    (draftCommand entries site).value.map (fun c => (c.name, c.fields)) =
      some ((written entries "name").word,
        ((Value.lookup "fields" entries).map Value.listed).getD []) := by
  simp only [draftCommand, Noted.clean_bind] at h
  obtain ⟨hname, -, hfields, -⟩ := h
  have hname : (name ((Value.lookup "name" entries).getD .null) "name" site).value =
      some (written entries "name").word := value_name_of_clean hname
  simp only [draftCommand, Noted.value_bind, Noted.value_pure, hname, Option.map_some,
    CommandDraft.fields_takeKind, CommandDraft.fields_takeRequiresId,
    CommandDraft.fields_takePayload, CommandDraft.fields_takeSource,
    CommandDraft.fields_takeFields hfields]

theorem listing_command {value : Value} (h : (command value site).Clean) :
    (command value site).value.map (fun c => (c.name, c.fields)) = some (writtenCommand value) := by
  have of_entries {options : Entries} (h : (commandOfEntries options site).Clean) :
      (commandOfEntries options site).value.map (fun c => (c.name, c.fields)) =
        some ((written options "name").word,
          ((Value.lookup "fields" options).map Value.listed).getD []) := by
    have hdraft : (draftCommand options (commandSite options site)).Clean := h
    rw [commandOfEntries, value_unlessFaulty, if_pos hdraft]
    exact listing_draftCommand hdraft
  cases value with
  | text s =>
    rw [command] at h ⊢
    exact of_entries h
  | map options =>
    rw [command] at h ⊢
    exact of_entries h
  | _ => simp [command] at h

theorem listing_commands {value : Value} (h : (commands value site).Clean) :
    (commands value site).value.map (fun c => (c.name, c.fields)) =
      value.items.map writtenCommand := by
  cases value with
  | list items => exact Noted.map_value_collect _ h fun _ => listing_command
  | _ => rfl

/-! ## Entities -/

/-- Clean attributes have what is written, all of it and in the order written. -/
theorem listing_entityAttributes {entity : String} (h : (entityAttributes entity entries).Clean) :
    (entityAttributes entity entries).value.projections = writtenProjections entries ∧
    (entityAttributes entity entries).value.indexes.map CompositeIndex.columns =
      writtenIndexes entries ∧
    (entityAttributes entity entries).value.commands.map (fun c => (c.name, c.fields)) =
      writtenCommands entries := by
  simp only [entityAttributes, Noted.clean_bind] at h
  obtain ⟨-, -, -, -, -, -, -, -, -, hcommands, -, -, hprojections, hindexes, -⟩ := h
  refine ⟨?_, ?_, ?_⟩
  · exact value_present_of_clean (P := fun ps v => ps = v.entries.map _) hprojections rfl
      fun v hc => value_projections_of_clean hc
  · exact value_present_of_clean
      (P := fun is v => is.map CompositeIndex.columns = v.items.map _) hindexes rfl
      fun v hc => columns_compositeIndexes_of_clean hc
  · exact value_given_of_clean
      (P := fun cs v => cs.map (fun c => (c.name, c.fields)) = v.items.map writtenCommand)
      hcommands rfl fun v hc => listing_commands hc

end Attribute

end EntityForge
