import EntityForge.Proofs.Composition
import EntityForge.Proofs.Run

/-!
# Files that get a report

A run on a file ends with a report, which says what is wrong if the file holds no document. It ends
without one in a few cases only: the name of the file is too long to be looked up, the value of a
YAML scalar breaks down over its tag, or a name at the top of the mapping is no text. Names in JSON
are always texts, and a YAML scalar breaks down over no tag but a written one.
-/

namespace EntityForge

/-- A result is left alone when faults are put into other words. -/
theorem of_mapError_eq_ok {α ε δ : Type} {x : Except ε α} {f : ε → δ} {a : α}
    (h : x.mapError f = .ok a) : x = .ok a := by
  cases x with
  | error fault => exact nomatch h
  | ok b => rw [Except.ok.inj h]

/-- A fault that was put into other words. -/
theorem of_mapError_eq_error {α ε δ : Type} {x : Except ε α} {f : ε → δ} {fault : δ}
    (h : x.mapError f = .error fault) : ∃ cause, x = .error cause ∧ f cause = fault := by
  cases x with
  | error cause => exact ⟨cause, rfl, Except.error.inj h⟩
  | ok a => exact nomatch h

/-! ## Mappings -/

namespace Document

variable {raw overrides : Entries} {source : Option String}

/-- The configuration of a mapping, if there is any, is a mapping or counts as nothing. -/
def Configurable (raw : Entries) : Prop :=
  ∀ v, Value.lookup "config" raw = some v → v.isVoid = true ∨ ∃ own, v = .map own

/-- A name at the top of a mapping is no text, and nothing is refused before it is met. -/
structure Stumbles (raw : Entries) : Prop where
  entities : Value.lookup "entities" raw ≠ none
  configurable : Configurable raw
  strange : ∃ e ∈ raw, isTopName e.1 = false

/-- The settings can be read, or the configuration is refused. -/
theorem exists_settings : (∃ own, settings raw overrides = .ok own) ↔ Configurable raw := by
  unfold settings Configurable
  cases Value.lookup "config" raw with
  | none => simp
  | some v =>
    cases v with
    | map own => simp
    | _ =>
      dsimp only
      split
      · rename_i hvoid
        simp [hvoid]
      · rename_i hvoid
        simp [hvoid]

theorem settings_ne_strangeName : settings raw overrides ≠ .error .strangeName := by
  unfold settings
  split
  · exact fun h => nomatch h
  · split
    · exact fun h => nomatch h
    · exact fun h => nomatch h
  · exact fun h => nomatch h

/-- A name that is no text is met exactly by what stumbles over it. -/
theorem ofEntries_eq_strangeName_iff (raw overrides : Entries) (source : Option String) :
    ofEntries raw overrides source = .error .strangeName ↔ Stumbles raw := by
  cases hentities : Value.lookup "entities" raw with
  | none =>
    constructor
    · intro h
      rw [ofEntries, hentities] at h
      exact nomatch h
    · exact fun h => absurd hentities h.entities
  | some entities =>
    rw [ofEntries, hentities]
    constructor
    · intro h
      rcases eq_error_of_bind h with h | ⟨own, hown, h⟩
      · exact absurd h settings_ne_strangeName
      · have hconfig : Configurable raw := exists_settings.mp ⟨own, hown⟩
        by_cases htexts : raw.all (fun e => isTopName e.1) = true
        · simp only [htexts, Bool.not_true, Bool.false_eq_true, if_false] at h
          split at h
          · exact nomatch h
          · exact nomatch h
        · refine ⟨hentities ▸ Option.some_ne_none _, hconfig, ?_⟩
          simpa using htexts
    · intro h
      have hsettings : ∃ own, settings raw overrides = .ok own :=
        exists_settings.mpr h.configurable
      obtain ⟨own, hown⟩ := hsettings
      have htexts : raw.all (fun e => isTopName e.1) = false := by
        rw [List.all_eq_false]
        obtain ⟨e, he, hstrange⟩ := h.strange
        exact ⟨e, he, by rw [hstrange]; exact Bool.false_ne_true⟩
      simp only [hown, htexts]
      rfl

/-! ## Files -/

/-- What keeps a run on a file from ending with a report. -/
inductive Unanswered (d : Disk) (p : Path) : Prop
  /-- The name of the file, or of a directory that leads to it, is too long. -/
  | tooLong (fault : DiskFault) (h : load d p = .error (.disk fault))
  /-- A value of a YAML file breaks down. -/
  | breaks (source : Path) (fault : Yaml.Fault) (h : load d p = .error (.yaml source fault))
    (unrefused : fault.isRefusal = false)
  /-- A name at the top of the mapping in the file is no text. -/
  | stumbles (raw : Entries) (h : load d p = .ok raw) (stumbles : Stumbles raw)

theorem isReported_load {f : LoadFault} : (InputFault.load f).isReported = false ↔
    (∃ fault, f = .disk fault) ∨
      ∃ source fault, f = .yaml source fault ∧ fault.isRefusal = false := by
  cases f with
  | yaml source fault => cases fault <;> simp [InputFault.isReported, Yaml.Fault.isRefusal]
  | disk fault => simp [InputFault.isReported]
  | _ => simp [InputFault.isReported]

theorem isReported_read {f : ReadFault} :
    (InputFault.read f).isReported = false ↔ f = .strangeName := by
  cases f <;> simp [InputFault.isReported]

/-- Reading a file ends with a fault that is not reported exactly in these cases. -/
theorem exists_unreported_iff (d : Disk) (p : Path) (overrides : Entries) :
    (∃ f, ofFile d p overrides = .error f ∧ f.isReported = false) ↔ Unanswered d p := by
  cases hload : load d p with
  | error fault =>
    have hfile : ofFile d p overrides = .error (.load fault) := by
      rw [ofFile, hload]
      rfl
    rw [hfile]
    constructor
    · rintro ⟨f, hf, hreported⟩
      obtain rfl := Except.error.inj hf
      rcases isReported_load.mp hreported with ⟨cause, rfl⟩ | ⟨source, cause, rfl, hcause⟩
      · exact .tooLong cause hload
      · exact .breaks source cause hload hcause
    · intro h
      refine ⟨_, rfl, isReported_load.mpr ?_⟩
      cases h with
      | tooLong cause h => exact Or.inl ⟨cause, Except.error.inj (hload.symm.trans h)⟩
      | breaks source cause h unrefused =>
        exact Or.inr ⟨source, cause, Except.error.inj (hload.symm.trans h), unrefused⟩
      | stumbles raw h => exact nomatch hload.symm.trans h
  | ok raw =>
    have hfile : ofFile d p overrides =
        (ofEntries raw overrides (some p.text)).mapError .read := by
      rw [ofFile, hload]
      rfl
    rw [hfile]
    constructor
    · rintro ⟨f, hf, hreported⟩
      obtain ⟨fault, hread, rfl⟩ := of_mapError_eq_error hf
      obtain rfl := isReported_read.mp hreported
      exact .stumbles raw hload ((ofEntries_eq_strangeName_iff _ _ _).mp hread)
    · intro h
      cases h with
      | tooLong cause h => exact nomatch hload.symm.trans h
      | breaks source cause h unrefused => exact nomatch hload.symm.trans h
      | stumbles raw' h stumbles =>
        obtain rfl := Except.ok.inj (hload.symm.trans h)
        exact ⟨_, by rw [(ofEntries_eq_strangeName_iff _ _ _).mpr stumbles]; rfl, rfl⟩

end Document

namespace Generator

variable {g : Generator} {source output : Path} {overrides : Entries} {d : Disk}

/-- A fault that is reported is what the report says is wrong with the input. -/
theorem runFile_of_reported (g : Generator) (output : Path) {f : InputFault}
    (hfile : Document.ofFile d source overrides = .error f) (h : f.isReported = true) :
    ∃ r, g.runFile source overrides output d = .ok (r, d) ∧ r.inputErrors = [f.message] ∧
      r.exitCode = 4 ∧ r.success = false := by
  rw [runFile, hfile]
  dsimp only
  rw [if_pos h]
  exact ⟨_, rfl, rfl, rfl, rfl⟩

/-- A run on a file ends with a report exactly if nothing keeps it from one. -/
theorem exists_report_iff :
    (∃ r d', g.runFile source overrides output d = .ok (r, d')) ↔
      ¬ Document.Unanswered d source := by
  rw [← Document.exists_unreported_iff d source overrides]
  cases hfile : Document.ofFile d source overrides with
  | ok doc =>
    have hreport : ∃ r d', g.runFile source overrides output d = .ok (r, d') :=
      exists_report g output (show (Input.file source overrides).read d = .ok doc from hfile)
    simp [hreport]
  | error f =>
    constructor
    · rintro ⟨r, d', hrun⟩ ⟨fault, hfault, hreported⟩
      obtain rfl := Except.error.inj hfault
      rw [runFile, hfile] at hrun
      dsimp only at hrun
      rw [hreported] at hrun
      cases hrun
    · intro h
      have hreported : f.isReported = true := by
        by_contra hnot
        exact h ⟨f, rfl, (Bool.not_eq_true _).mp hnot⟩
      obtain ⟨r, hrun, -⟩ := runFile_of_reported g output hfile hreported
      exact ⟨r, d, hrun⟩

end Generator

/-! ## JSON -/

namespace Value

/-- A condition on names that holds of some entries holds of the mapping that they make. -/
theorem forall_mem_ofEntries {P : Value → Prop} {es : Entries} (h : ∀ e ∈ es, P e.1) :
    ∀ e ∈ ofEntries es, P e.1 := by
  have hfold (acc : Entries) (hacc : ∀ e ∈ acc, P e.1) :
      ∀ e ∈ es.foldl (fun acc e => putEntry e.1 e.2 acc) acc, P e.1 := by
    induction es generalizing acc with
    | nil => exact hacc
    | cons e es ih =>
      obtain ⟨he, hes⟩ := List.forall_mem_cons.mp h
      exact ih hes _ (forall_mem_putEntry he hacc)
  exact hfold [] (List.forall_mem_nil _)

end Value

namespace Json

open Document (isTopName)

/-- The names of an object are texts. -/
theorem isTopName_of_readEntries {fuel : Nat} {cs rest : List Char} {es : Entries}
    (h : readEntries fuel cs = .ok (es, rest)) : ∀ e ∈ es, isTopName e.1 = true := by
  induction fuel generalizing cs es rest with
  | zero => exact nomatch h
  | succ fuel ih =>
    unfold readEntries at h
    split at h
    · obtain ⟨⟨name, behind⟩, -, h⟩ := exists_of_bind_eq_ok h
      dsimp only at h
      split at h
      · obtain ⟨⟨v, behind⟩, -, h⟩ := exists_of_bind_eq_ok h
        dsimp only at h
        split at h
        · obtain ⟨rfl, -⟩ := Prod.mk.inj (Except.ok.inj h)
          exact List.forall_mem_singleton.mpr rfl
        · obtain ⟨⟨more, behind⟩, hmore, h⟩ := exists_of_bind_eq_ok h
          obtain ⟨rfl, -⟩ := Prod.mk.inj (Except.ok.inj h)
          exact List.forall_mem_cons.mpr ⟨rfl, ih hmore⟩
        · exact nomatch h
      · exact nomatch h
    · exact nomatch h

/-- Neither a word nor a number stands for an object. -/
theorem readScalar_ne_map {cs rest : List Char} {es : Entries} :
    readScalar cs ≠ .ok (.map es, rest) := by
  have hword : ∀ p ∈ wordValues, p.2 ≠ .map es := by simp [wordValues]
  have hnumber (negative : Bool) (start cs : List Char) :
      readUnsigned negative start cs ≠ .ok (.map es, rest) := by
    intro h
    unfold readUnsigned at h
    extract_lets digits at h
    split at h
    · exact nomatch h
    · dsimp only at h
      split at h
      · exact nomatch congrArg Prod.fst (Except.ok.inj h)
      · exact nomatch congrArg Prod.fst (Except.ok.inj h)
  intro h
  unfold readScalar at h
  split at h
  · rename_i found hfound
    obtain rfl := Except.ok.inj h
    obtain ⟨p, hp, hmap⟩ := List.exists_of_findSome?_eq_some hfound
    obtain ⟨behind, -, hpair⟩ := Option.map_eq_some_iff.mp hmap
    exact hword p hp (congrArg Prod.fst hpair)
  · split at h
    · exact hnumber _ _ _ h
    · exact hnumber _ _ _ h

/-- The value of a JSON text has only texts for names, if it is an object. -/
theorem isTopName_of_read {cs : List Char} {es : Entries} (h : read cs = .ok (.map es)) :
    ∀ e ∈ es, isTopName e.1 = true := by
  have hvalue {fuel : Nat} {cs rest : List Char}
      (h : readValue fuel cs = .ok (.map es, rest)) : ∀ e ∈ es, isTopName e.1 = true := by
    cases fuel with
    | zero => exact nomatch h
    | succ fuel =>
      unfold readValue at h
      split at h
      · obtain ⟨⟨s, behind⟩, -, h⟩ := exists_of_bind_eq_ok h
        exact nomatch h
      · split at h
        · exact nomatch h
        · obtain ⟨⟨items, behind⟩, -, h⟩ := exists_of_bind_eq_ok h
          exact nomatch h
      · split at h
        · obtain ⟨hmap, -⟩ := Prod.mk.inj (Except.ok.inj h)
          obtain rfl := Value.map.inj hmap
          exact List.forall_mem_nil _
        · obtain ⟨⟨entries, behind⟩, hentries, h⟩ := exists_of_bind_eq_ok h
          obtain ⟨hmap, -⟩ := Prod.mk.inj (Except.ok.inj h)
          obtain rfl := Value.map.inj hmap
          exact Value.forall_mem_ofEntries (P := fun k => isTopName k = true)
            (isTopName_of_readEntries hentries)
      · exact absurd h readScalar_ne_map
  unfold read at h
  split at h
  · exact nomatch h
  · obtain ⟨⟨v, behind⟩, hv, h⟩ := exists_of_bind_eq_ok h
    dsimp only at h
    split at h
    · obtain rfl := Except.ok.inj h
      exact hvalue hv
    · exact nomatch h

end Json

/-! ## Contents -/

namespace Document

variable {d : Disk} {p : Path} {content : ByteArray} {raw : Entries}

/-- A file with this path is read as JSON. -/
def IsJson (p : Path) : Prop := Text.smallLetters p.extension.toList = ".json".toList

instance : Decidable (IsJson p) := inferInstanceAs (Decidable (_ = _))

/-- The tokens of a content read as YAML are refused, or write no tag. -/
def TaglessContent (content : ByteArray) : Prop :=
  ∀ cs, fileText content = .ok cs → Yaml.Yields Yaml.Tagless (Yaml.tokens cs)

instance : Decidable (TaglessContent content) :=
  match h : fileText content with
  | .ok cs => decidable_of_iff (Yaml.Yields Yaml.Tagless (Yaml.tokens cs)) <| by
    rw [TaglessContent, h]
    simp
  | .error fault => .isTrue fun cs hcs => nomatch h.symm.trans hcs

theorem load_of_file (h : d.lookup p = .ok (.file content)) : load d p = entriesOf p content := by
  rw [load, h]

/-- The value of a text, in the format that the path asks for. -/
theorem entriesOf_eq (p : Path) (content : ByteArray) :
    entriesOf p content = fileText content >>= fun cs =>
      (if IsJson p then jsonValue p cs else yamlValue p cs) >>= fun v =>
        match v with
        | .map es => .ok es
        | v => .error (.notMapping (if IsJson p then "JSON object" else "YAML mapping")
            v.kindName) := by
  unfold entriesOf
  refine congrArg _ (funext fun cs => ?_)
  by_cases hjson : IsJson p
  · rw [if_pos hjson]
    exact if_pos hjson
  · rw [if_neg hjson]
    exact if_neg hjson

/-- The mapping in a JSON content is the value of its text. -/
theorem of_entriesOf_eq_ok (hjson : IsJson p) (h : entriesOf p content = .ok raw) :
    ∃ cs, Json.read cs = .ok (.map raw) := by
  rw [entriesOf_eq] at h
  obtain ⟨cs, -, h⟩ := exists_of_bind_eq_ok h
  rw [if_pos hjson] at h
  obtain ⟨v, hv, h⟩ := exists_of_bind_eq_ok h
  split at h
  · obtain rfl := Except.ok.inj h
    exact ⟨cs, of_mapError_eq_ok hv⟩
  · exact nomatch h

/-- A content that holds no mapping has a fault that is reported, or no value as YAML. -/
theorem of_entriesOf_eq_error {f : LoadFault} (h : entriesOf p content = .error f) :
    (InputFault.load f).isReported = true ∨
      ¬ IsJson p ∧ ∃ cs fault, fileText content = .ok cs ∧ Yaml.read cs = .error fault ∧
        f = .yaml p fault := by
  rw [entriesOf_eq] at h
  rcases eq_error_of_bind h with h | ⟨cs, hcs, h⟩
  · rcases eq_error_of_bind h with h | ⟨cs, -, h⟩
    · obtain ⟨cause, -, rfl⟩ := of_mapError_eq_error h
      exact Or.inl rfl
    · exact nomatch h
  · rcases eq_error_of_bind h with h | ⟨v, -, h⟩
    · by_cases hjson : IsJson p
      · rw [if_pos hjson] at h
        obtain ⟨cause, -, rfl⟩ := of_mapError_eq_error h
        exact Or.inl rfl
      · rw [if_neg hjson] at h
        obtain ⟨cause, hread, rfl⟩ := of_mapError_eq_error h
        exact Or.inr ⟨hjson, cs, cause, hcs, hread, rfl⟩
    · split at h
      · exact nomatch h
      · obtain rfl := Except.error.inj h
        exact Or.inl rfl

/-- A content that can keep a run from a report has a fault that is not reported, or a mapping that
stumbles. -/
theorem Unanswered.cases (hfile : d.lookup p = .ok (.file content)) (h : Unanswered d p) :
    (∃ f, entriesOf p content = .error f ∧ (InputFault.load f).isReported = false) ∨
      ∃ raw, entriesOf p content = .ok raw ∧ Stumbles raw := by
  rw [← load_of_file hfile]
  cases h with
  | tooLong fault h => exact Or.inl ⟨_, h, rfl⟩
  | breaks source fault h unrefused =>
    exact Or.inl ⟨_, h, isReported_load.mpr (Or.inr ⟨source, fault, rfl, unrefused⟩)⟩
  | stumbles raw h stumbles => exact Or.inr ⟨raw, h, stumbles⟩

/-- Nothing in a JSON file keeps a run from a report. -/
theorem not_unanswered_of_json (hfile : d.lookup p = .ok (.file content)) (hjson : IsJson p) :
    ¬ Unanswered d p := by
  intro h
  rcases h.cases hfile with ⟨f, hf, hreported⟩ | ⟨raw, hraw, hstumbles⟩
  · rcases of_entriesOf_eq_error hf with hr | ⟨hnot, -⟩
    · exact Bool.noConfusion (hreported.symm.trans hr)
    · exact hnot hjson
  · obtain ⟨cs, hread⟩ := of_entriesOf_eq_ok hjson hraw
    obtain ⟨e, he, hstrange⟩ := hstumbles.strange
    exact Bool.noConfusion (hstrange.symm.trans (Json.isTopName_of_read hread e he))

/-- Neither does anything in a YAML file that writes no tag and has only texts for names at the
top. -/
theorem not_unanswered_of_tagless (hfile : d.lookup p = .ok (.file content))
    (htags : TaglessContent content)
    (hnames : ∀ raw, load d p = .ok raw → ∀ e ∈ raw, isTopName e.1 = true) :
    ¬ Unanswered d p := by
  intro h
  rcases h.cases hfile with ⟨f, hf, hreported⟩ | ⟨raw, hraw, hstumbles⟩
  · rcases of_entriesOf_eq_error hf with hr | ⟨-, cs, fault, hcs, hread, rfl⟩
    · exact Bool.noConfusion (hreported.symm.trans hr)
    · have horderly : Yaml.Orderly (Yaml.read cs) := Yaml.orderly_read (htags cs hcs)
      rw [hread] at horderly
      rcases isReported_load.mp hreported with ⟨cause, hdisk⟩ | ⟨source, cause, hyaml, hcause⟩
      · exact nomatch hdisk
      · obtain ⟨-, rfl⟩ := LoadFault.yaml.inj hyaml
        exact Bool.noConfusion (hcause.symm.trans horderly)
  · obtain ⟨e, he, hstrange⟩ := hstumbles.strange
    have hname := hnames raw ((load_of_file hfile).trans hraw) e he
    exact Bool.noConfusion (hstrange.symm.trans hname)

end Document

namespace Generator

/-- A directory with one YAML file. -/
def noteDisk (text : String) : Disk where
  entries := [(["d.yaml"], .file text.toUTF8)]

/-- A file without an entity, in which no tag is written and every name is a text. -/
def emptyText : String := "notes: x\nentities: []\n"

/-- A file with an entity, and a number for a name at the top. -/
def strangeText : String :=
  "1: note\nentities:\n- name: Note\n  attributes: \x7btable: notes\x7d\n" ++
    "  fields:\n  - \x7bname: id, type: uuid, attributes: \x7bid: true\x7d\x7d\n"

end Generator

end EntityForge
