import EntityForge.Yaml.Construct

/-!
# Values of nodes without a written tag

A YAML text that cannot be read is refused, except where the making of a value breaks down over a
text that its tag does not fit: a truth value in an unknown word, a number without a digit, a point
in time that is none. A tag that a scalar has by its look always fits it. Where no tag is written,
every failure is therefore a refusal; this is carried from the scalars to all nodes by the recursion
that makes the values.
-/

namespace EntityForge.Yaml

/-- The fault lies with the text, and the reader says so. -/
def Fault.isRefusal : Fault → Bool
  | .malformed | .badValue _ => true
  | .tooLarge | .unknownWord | .emptyNumber | .notTimestamp => false

section Yields

variable {α β : Type} {P : α → Prop} {Q : β → Prop} {x : Reading α}

/-- The reading comes to a result with a property, or is refused. -/
def Yields (P : α → Prop) : Reading α → Prop
  | .ok a => P a
  | .error f => f.isRefusal = true

instance [DecidablePred P] : Decidable (Yields P x) :=
  match x with
  | .ok a => inferInstanceAs (Decidable (P a))
  | .error f => inferInstanceAs (Decidable (f.isRefusal = true))

theorem yields_pure {a : α} (h : P a) : Yields P (pure a) := h

theorem Yields.bind {f : α → Reading β} (hx : Yields P x) (hf : ∀ a, P a → Yields Q (f a)) :
    Yields Q (x >>= f) := by
  cases x with
  | error fault => exact hx
  | ok a => exact hf a hx

/-- A check that may refuse, in front of what is done in any case. -/
theorem Yields.guard {condition : Prop} [Decidable condition] {f : Fault} {y : Reading β}
    (hf : f.isRefusal = true) (hy : Yields Q y) :
    Yields Q (if condition then (do throw f; y) else y) := by
  split
  · exact hf
  · exact hy

/-- One of two readings, in front of what is done in any case. -/
theorem Yields.either {condition : Prop} [Decidable condition] {y : Reading α}
    {f : α → Reading β} (hx : Yields P x) (hy : Yields P y) (hf : ∀ a, P a → Yields Q (f a)) :
    Yields Q (if condition then x >>= f else y >>= f) := by
  split
  · exact hx.bind hf
  · exact hy.bind hf

/-- The reading comes to a result or is refused. -/
def Orderly (x : Reading α) : Prop := Yields (fun _ => True) x

theorem orderly_ok (a : α) : Orderly (.ok a : Reading α) := trivial

theorem orderly_error {f : Fault} (h : f.isRefusal = true) : Orderly (.error f : Reading α) := h

theorem Orderly.bind {f : α → Reading β} (hx : Orderly x) (hf : ∀ a, Orderly (f a)) :
    Orderly (x >>= f) :=
  Yields.bind hx fun a _ => hf a

theorem Orderly.map (f : α → β) (hx : Orderly x) : Orderly (f <$> x) := by
  cases x with
  | error fault => exact hx
  | ok a => exact trivial

theorem Orderly.mapM {f : α → Reading β} (hf : ∀ a, Orderly (f a)) (as : List α) :
    Orderly (as.mapM f) := by
  induction as with
  | nil => exact orderly_ok []
  | cons a as ih =>
    rw [List.mapM_cons]
    exact (hf a).bind fun b => ih.bind fun bs => orderly_ok _

end Yields

/-! ## Scalars -/

theorem orderly_wholeNumber (base : Nat) (cs : List Char) : Orderly (wholeNumber base cs) := by
  unfold wholeNumber
  split
  · exact orderly_error rfl
  · dsimp only
    split
    · exact orderly_error rfl
    · exact orderly_ok _

theorem orderly_fraction (cs : List Char) : Orderly (fraction cs) := by
  unfold fraction
  split
  · exact orderly_error rfl
  · exact orderly_ok _

/-- What looks like a whole number begins with a digit behind its sign. -/
theorem unsigned_of_looksInt {cs : List Char} (h : looksInt cs = true) :
    ∃ d rest, unsigned cs = d :: rest ∧ d.isDigit = true := by
  unfold looksInt at h
  split at h
  · rename_i hzero
    exact ⟨'0', [], hzero, rfl⟩
  · rename_i rest _ hzero
    exact ⟨'0', rest, hzero, rfl⟩
  · cases hsize : unsigned cs with
    | nil =>
      rw [hsize] at h
      simp [partsAt, isWhole] at h
    | cons d rest =>
      refine ⟨d, rest, rfl, ?_⟩
      rw [hsize, partsAt] at h
      by_cases hd : d = ':'
      · simp [hd, isWhole] at h
      · rw [if_neg hd] at h
        cases hparts : partsAt ':' rest with
        | nil =>
          rw [hparts] at h
          simp [isWhole] at h
          exact h
        | cons part parts =>
          rw [hparts] at h
          simp only [isWhole, Bool.and_eq_true] at h
          exact h.1.1

/-- Marks between digits do not hide the first digit. -/
theorem unsigned_filter {cs rest : List Char} {d : Char} (h : unsigned cs = d :: rest)
    (hd : d.isDigit = true) :
    ∃ more, unsigned (cs.filter (· != '_')) = d :: more := by
  have hmark : (d != '_') = true := by
    rw [bne_iff_ne]
    rintro rfl
    exact Bool.noConfusion hd
  unfold unsigned at h
  split at h
  · rw [h]
    exact ⟨rest.filter (· != '_'), by simp [hmark, unsigned]⟩
  · rw [h]
    exact ⟨rest.filter (· != '_'), by simp [hmark, unsigned]⟩
  · rename_i hminus hplus
    refine ⟨rest.filter (· != '_'), ?_⟩
    rw [h, List.filter_cons, if_pos hmark]
    unfold unsigned
    split
    · rename_i heq
      cases heq
      exact absurd h (hminus rest)
    · rename_i heq
      cases heq
      exact absurd h (hplus rest)
    · rfl

theorem orderly_int {s : String} (h : looksInt s.toList = true) : Orderly (int s) := by
  obtain ⟨d, rest, hsize, hd⟩ := unsigned_of_looksInt h
  obtain ⟨more, hmore⟩ := unsigned_filter hsize hd
  have hsize : unsigned (withoutMarks s) ≠ [] := by
    rw [withoutMarks, hmore]
    exact List.cons_ne_nil d more
  have hne : withoutMarks s ≠ [] := by
    intro hnil
    rw [hnil] at hsize
    exact hsize rfl
  have hwhole (base : Nat) (cs : List Char) (sign : Int) :
      Orderly (do return sign * (← wholeNumber base cs)) :=
    (orderly_wholeNumber base cs).bind fun _ => orderly_ok _
  unfold int
  dsimp only
  rw [if_neg hne]
  split
  · rename_i hnil
    exact absurd hnil hsize
  · exact orderly_ok 0
  · exact hwhole 2 _ _
  · exact hwhole 16 _ _
  · split
    · exact hwhole 8 _ _
    · split
      · exact (Orderly.mapM (orderly_wholeNumber 10) _).bind fun _ => orderly_ok _
      · exact hwhole 10 _ _

/-- Marks alone are one part, whatever does not occur among them. -/
theorem partsAt_replicate {mark c : Char} (hc : c ≠ mark) (n : Nat) :
    partsAt mark (List.replicate n c) = [List.replicate n c] := by
  induction n with
  | zero => rfl
  | succ n ih => rw [List.replicate_succ, partsAt, if_neg hc, ih]

/-- What looks like a fraction is not written in marks alone. -/
theorem filter_ne_nil_of_looksFloat {cs : List Char} (h : looksFloat cs = true) :
    cs.filter (· != '_') ≠ [] := by
  intro hnil
  have hall : cs = List.replicate cs.length '_' := by
    refine List.eq_replicate_iff.mpr ⟨rfl, fun c hc => ?_⟩
    simpa using List.filter_eq_nil_iff.mp hnil c hc
  rw [hall] at h
  generalize cs.length = n at h
  have hsize : unsigned (List.replicate n '_') = List.replicate n '_' := by
    cases n with
    | zero => rfl
    | succ n => rfl
  have hwords (words : List String) (hw : ∀ w ∈ words, w.toList.head? = some '.') :
      words.contains (String.ofList (List.replicate n '_')) = false := by
    rw [List.contains_eq_mem, decide_eq_false_iff_not]
    intro hmem
    have hdot := hw _ hmem
    rw [String.toList_ofList] at hdot
    cases n with
    | zero => exact nomatch hdot
    | succ n => exact nomatch hdot
  unfold looksFloat at h
  simp only [hsize, partsAt_replicate (show '_' ≠ ':' by decide)] at h
  rw [hwords [".inf", ".Inf", ".INF"] (by decide), hwords [".nan", ".NaN", ".NAN"] (by decide)] at h
  cases n with
  | zero => exact nomatch h
  | succ n => exact nomatch h

theorem orderly_float {s : String} (h : looksFloat s.toList = true) : Orderly (float s) := by
  have hne : Text.smallLetters (withoutMarks s) ≠ [] := by
    rw [Text.smallLetters, ne_eq, List.map_eq_nil_iff]
    exact filter_ne_nil_of_looksFloat h
  unfold float
  dsimp only
  rw [if_neg hne]
  split
  · exact orderly_ok _
  · split
    · exact orderly_ok _
    · split
      · exact (Orderly.mapM orderly_fraction _).bind fun _ => orderly_ok _
      · exact (orderly_fraction _).bind fun _ => orderly_ok _

/-- Every spelling of a word for a truth value is one of the words in small letters. -/
theorem lookup_spelling : ∀ p ∈ boolWords, ∀ s ∈ spellings p.1,
    (boolWords.lookup (.ofList (Text.smallLetters s.toList))).isSome = true := by
  decide +kernel

theorem orderly_moment {s : String} (h : looksStamp s.toList = true) : Orderly (moment s) := by
  have hdate (d : Date) : Orderly (checkDate d) := by
    unfold checkDate
    split
    · exact orderly_error rfl
    · split
      · exact orderly_error rfl
      · split
        · exact orderly_error rfl
        · exact orderly_ok _
  have hoffset (seconds : Int) : Orderly (checkOffset seconds) := by
    unfold checkOffset
    split
    · exact orderly_ok _
    · exact orderly_error rfl
  unfold moment
  unfold looksStamp at h
  cases hstamp : stamp? s.toList with
  | none =>
    rw [hstamp] at h
    exact nomatch h
  | some stamp =>
    dsimp only
    split
    · exact (hdate _).bind fun _ => orderly_ok _
    · refine Orderly.bind ?_ fun _ => (hdate _).bind fun _ => ?_
      · cases stamp.offset with
        | none => exact orderly_ok _
        | some minutes => exact hoffset _
      · exact .guard rfl (.guard rfl (.guard rfl (orderly_ok _)))

/-- A plain scalar has a value, or is refused. -/
theorem orderly_ofPlain (s : String) : Orderly (scalarValue (Tag.ofPlain s) s) := by
  unfold Tag.ofPlain
  dsimp only
  split
  · rename_i h
    obtain ⟨p, hp, hs⟩ := List.any_eq_true.mp h
    have hword := lookup_spelling p hp s (List.contains_iff_mem.mp hs)
    obtain ⟨b, hb⟩ := Option.isSome_iff_exists.mp hword
    rw [scalarValue, hb]
    exact orderly_ok _
  · split
    · rename_i h
      exact (orderly_float h).map _
    · split
      · rename_i h
        exact (orderly_int h).map _
      · split
        · exact orderly_error rfl
        · split
          · exact orderly_ok _
          · split
            · rename_i h
              exact orderly_moment h
            · split
              · exact orderly_error rfl
              · exact orderly_ok _

/-! ## Nodes -/

namespace Node

/-- No tag is written anywhere in a node: every part has the tag of its look. -/
inductive Untagged : Node → Prop
  | scalar {tag : Tag} {s : String} (look : tag = .text ∨ tag = Tag.ofPlain s) :
    Untagged (.scalar tag s)
  | sequence {items : List Node} (parts : ∀ n ∈ items, Untagged n) :
    Untagged (.sequence .sequence items)
  | mapping {entries : List (Node × Node)} (keys : ∀ e ∈ entries, Untagged e.1)
    (values : ∀ e ∈ entries, Untagged e.2) : Untagged (.mapping .mapping entries)

theorem orderly_scalarValue {tag : Tag} {s : String} (h : tag = .text ∨ tag = Tag.ofPlain s) :
    Orderly (scalarValue tag s) := by
  rcases h with rfl | rfl
  · exact orderly_ok _
  · exact orderly_ofPlain s

mutual

/-- An untagged node has a value, or is refused. -/
theorem orderly_value (n : Node) (h : n.Untagged) : Orderly n.value := by
  cases h with
  | scalar look =>
    rw [value]
    exact orderly_scalarValue look
  | sequence parts =>
    rw [value]
    exact (orderly_values _ parts).bind fun _ => orderly_ok _
  | mapping keys values =>
    rw [value]
    exact (orderly_entryValues _ keys values).bind fun _ => orderly_ok _

theorem orderly_values (ns : List Node) (h : ∀ n ∈ ns, n.Untagged) : Orderly (values ns) := by
  cases ns with
  | nil => exact orderly_ok _
  | cons n ns =>
    obtain ⟨hn, hns⟩ := List.forall_mem_cons.mp h
    rw [values]
    exact (orderly_value n hn).bind fun _ => (orderly_values ns hns).bind fun _ => orderly_ok _

theorem orderly_entryValues (es : List (Node × Node)) (hk : ∀ e ∈ es, e.1.Untagged)
    (hv : ∀ e ∈ es, e.2.Untagged) : Orderly (entryValues es) := by
  cases es with
  | nil => exact orderly_ok _
  | cons e es =>
    obtain ⟨k, v⟩ := e
    obtain ⟨hkey, hkeys⟩ := List.forall_mem_cons.mp hk
    obtain ⟨hvalue, hvalues⟩ := List.forall_mem_cons.mp hv
    have hrest := orderly_entryValues es hkeys hvalues
    rw [entryValues]
    split
    · exact (orderly_mergedEntries v hvalue).bind fun _ => hrest.bind fun _ => orderly_ok _
    · have hentry (key : Value) : Orderly (do
          let value ← v.value
          let (merged, own) ← entryValues es
          return (merged, (key, value) :: own)) :=
        (orderly_value v hvalue).bind fun _ => hrest.bind fun _ => orderly_ok _
      dsimp only
      split
      · exact (orderly_ok _).bind fun key => .guard rfl (hentry key)
      · exact (orderly_value k hkey).bind fun key =>
          .guard rfl (hentry key)

theorem orderly_mergedEntries (n : Node) (h : n.Untagged) : Orderly n.mergedEntries := by
  cases h with
  | scalar look =>
    rw [mergedEntries]
    exact orderly_error rfl
  | sequence parts =>
    rw [mergedEntries]
    exact (orderly_mergedLists _ parts).bind fun _ => orderly_ok _
  | mapping keys values =>
    rw [mergedEntries]
    exact (orderly_entryValues _ keys values).bind fun _ => orderly_ok _

theorem orderly_mergedLists (ns : List Node) (h : ∀ n ∈ ns, n.Untagged) :
    Orderly (mergedLists ns) := by
  cases ns with
  | nil => exact orderly_ok _
  | cons n ns =>
    obtain ⟨hn, hns⟩ := List.forall_mem_cons.mp h
    cases hn with
    | scalar look =>
      rw [mergedLists]
      · exact orderly_error rfl
      · simp
    | sequence parts =>
      rw [mergedLists]
      · exact orderly_error rfl
      · simp
    | mapping keys values =>
      rw [mergedLists]
      exact (orderly_entryValues _ keys values).bind fun _ =>
        (orderly_mergedLists ns hns).bind fun _ => orderly_ok _

end

end Node

end EntityForge.Yaml
