import EntityForge.Proofs.Substitution

/-!
# The snake-case form

The snake-case form is a normal form: words of small letters and digits with single underscores
between them. All letters and digits of a name are kept, in their order and as small letters, so
that the form is empty for the names without any. A text in snake case has no capital at which a
word could start and nothing but underscores between its words, so that it is its own snake-case
form.
-/

namespace EntityForge.Text

variable {c : Char} {cs w : List Char} {ws : List (List Char)}

/-- A text in snake case: words of small letters and digits, with single underscores between
them. -/
def InSnakeCase (cs : List Char) : Prop :=
  ∃ ws : List (List Char), (∀ w ∈ ws, w ≠ [] ∧ ∀ c ∈ w, c.isLower = true ∨ c.isDigit = true) ∧
    cs = ['_'].intercalate ws

/-! ## Words -/

theorem ne_nil_of_mem_nameWords (hw : w ∈ nameWords cs) : w ≠ [] := by
  rw [← betweenUnderscores_parted] at hw
  exact of_decide_eq_true (List.mem_filter.mp hw).2

/-- The words of a name have all its letters and digits. -/
theorem flatten_nameWords (cs : List Char) : (nameWords cs).flatten = cs.filter isWordChar := by
  fun_induction nameWords cs with
  | case1 => rfl
  | case2 c hc => rw [List.filter_cons_of_pos hc]; rfl
  | case3 c hc d rest _ ih => rw [flatten_prependToFirst, ih, List.filter_cons_of_pos hc]
  | case4 c hc d rest _ ih => rw [List.flatten_cons, ih, List.filter_cons_of_pos hc]; rfl
  | case5 c cs hc ih => rw [ih, List.filter_cons_of_neg hc]

/-- The small form of a letter or a digit is a small letter or a digit. -/
theorem isLower_or_isDigit_toLower (h : isWordChar c = true) :
    c.toLower.isLower = true ∨ c.toLower.isDigit = true := by
  rw [isWordChar, isAlphanum_iff] at h
  rw [isLower_iff, isDigit_iff, toNat_toLower]
  split <;> omega

theorem isWordChar_of_isLower_or_isDigit (h : c.isLower = true ∨ c.isDigit = true) :
    isWordChar c = true := by
  rw [isLower_iff, isDigit_iff] at h
  rw [isWordChar, isAlphanum_iff]
  omega

theorem toLower_eq_self (h : c.isLower = true ∨ c.isDigit = true) : c.toLower = c := by
  rw [isLower_iff, isDigit_iff] at h
  rw [← Char.toNat_inj, toNat_toLower, if_neg (by omega)]

theorem inSnakeCase_snakeChars (cs : List Char) : InSnakeCase (snakeChars cs) := by
  refine ⟨_, fun w hw => ?_, rfl⟩
  obtain ⟨v, hv, rfl⟩ := List.mem_map.mp hw
  refine ⟨fun h => ne_nil_of_mem_nameWords hv (List.map_eq_nil_iff.mp h), fun c hc => ?_⟩
  obtain ⟨d, hd, rfl⟩ := List.mem_map.mp hc
  exact isLower_or_isDigit_toLower (isWordChar_of_mem_nameWords hv hd)

/-! ## Letters and digits -/

/-- Of words with separators between them, the characters that are no separators are those of the
words. -/
theorem filter_intercalate {p : Char → Bool} {sep : Char} (hsep : ¬ p sep = true)
    (hws : ∀ w ∈ ws, ∀ c ∈ w, p c = true) : ([sep].intercalate ws).filter p = ws.flatten := by
  induction ws with
  | nil => rfl
  | cons w ws ih =>
    obtain ⟨hw, hws⟩ := List.forall_mem_cons.mp hws
    cases ws with
    | nil => simpa using hw
    | cons v ws =>
      rw [List.intercalate_cons_cons, List.append_assoc, List.filter_append,
        List.filter_eq_self.mpr hw, List.singleton_append, List.filter_cons_of_neg hsep, ih hws]
      rfl

/-- The snake-case form has the letters and digits of the name, in their order and as small
letters. -/
theorem filter_snakeChars (cs : List Char) :
    (snakeChars cs).filter isWordChar = (cs.filter isWordChar).map Char.toLower := by
  rw [snakeChars, filter_intercalate (by decide), ← List.map_flatten, flatten_nameWords]
  intro w hw c hc
  obtain ⟨v, hv, rfl⟩ := List.mem_map.mp hw
  obtain ⟨d, hd, rfl⟩ := List.mem_map.mp hc
  exact isAlphanum_toLower (isWordChar_of_mem_nameWords hv hd)

/-- Only a name without letters and digits has an empty snake-case form. -/
theorem snakeChars_eq_nil_iff : snakeChars cs = [] ↔ ∀ c ∈ cs, isWordChar c = false := by
  have hfilter : cs.filter isWordChar = [] ↔ ∀ c ∈ cs, isWordChar c = false := by
    simp only [List.filter_eq_nil_iff, Bool.not_eq_true]
  rw [← hfilter]
  constructor
  · intro h
    have hletters := filter_snakeChars cs
    rw [h] at hletters
    exact List.map_eq_nil_iff.mp hletters.symm
  · intro h
    rw [← flatten_nameWords, List.flatten_eq_nil_iff] at h
    rw [snakeChars, List.eq_nil_iff_forall_not_mem.mpr fun w hw =>
      ne_nil_of_mem_nameWords hw (h w hw)]
    rfl

/-! ## A text in snake case -/

/-- No word starts where no capital stands. -/
theorem parted_of_small (h : ∀ c ∈ cs, c.isUpper = false) : parted startsWord cs = cs := by
  induction cs with
  | nil => rfl
  | cons c cs ih =>
    obtain ⟨-, hcs⟩ := List.forall_mem_cons.mp h
    rw [parted_cons, ih hcs]
    rintro d rest rfl
    rw [startsWord, hcs d List.mem_cons_self, Bool.false_and]

theorem map_eq_self {α : Type} {f : α → α} {xs : List α} (h : ∀ x ∈ xs, f x = x) :
    xs.map f = xs :=
  (List.map_congr_left h).trans (List.map_id' xs)

/-- Words with underscores between them are read back. -/
theorem betweenUnderscores_intercalate (hws : ∀ w ∈ ws, w ≠ [] ∧ '_' ∉ w) :
    betweenUnderscores (['_'].intercalate ws) = ws := by
  by_cases hne : ws = []
  · subst hne
    rfl
  · rw [betweenUnderscores, splitOn_intercalate hne fun w hw => (hws w hw).2, List.filter_eq_self]
    exact fun w hw => decide_eq_true (hws w hw).1

/-- A text in snake case is its own snake-case form. -/
theorem InSnakeCase.snakeChars_eq (h : InSnakeCase cs) : snakeChars cs = cs := by
  obtain ⟨ws, hws, rfl⟩ := h
  have hmem : ∀ c ∈ ['_'].intercalate ws, c = '_' ∨ c.isLower = true ∨ c.isDigit = true :=
    fun c hc => (mem_intercalate hc).imp List.mem_singleton.mp fun ⟨w, hw, hcw⟩ =>
      (hws w hw).2 c hcw
  have hparted : parted startsWord (['_'].intercalate ws) = ['_'].intercalate ws :=
    parted_of_small fun c hc =>
      (hmem c hc).elim (fun heq => heq ▸ rfl) not_isUpper_of_isLower_or_isDigit
  have hunderscored : (['_'].intercalate ws).map underscored = ['_'].intercalate ws :=
    map_eq_self fun c hc => (hmem c hc).elim (fun heq => heq ▸ rfl) fun hword =>
      underscored_of_isWordChar (isWordChar_of_isLower_or_isDigit hword)
  have hwords : nameWords (['_'].intercalate ws) = ws := by
    rw [← betweenUnderscores_parted, hparted, hunderscored, betweenUnderscores_intercalate]
    exact fun w hw => ⟨(hws w hw).1, fun hm =>
      ne_underscore_of_isWordChar (isWordChar_of_isLower_or_isDigit ((hws w hw).2 _ hm)) rfl⟩
  have hsmall : ws.map (·.map Char.toLower) = ws :=
    map_eq_self fun w hw => map_eq_self fun c hc => toLower_eq_self ((hws w hw).2 c hc)
  rw [snakeChars, hwords, hsmall]

/-- The snake-case form of a name, which comes about by substitutions, is a text in snake case. It
is empty exactly if the name has no letter and no digit, has the letters and digits of the name in
their order and as small letters, and is its own snake-case form. -/
theorem snakeCase_normal (s : String) :
    (snakeCase s).toList = substituted s.toList ∧
    (snakeCase s = "" ↔ ∀ c ∈ s.toList, c.isAlphanum = false) ∧
    InSnakeCase (snakeCase s).toList ∧
    (snakeCase s).toList.filter Char.isAlphanum =
      (s.toList.filter Char.isAlphanum).map Char.toLower ∧
    snakeCase (snakeCase s) = snakeCase s := by
  have htext : (snakeCase s).toList = snakeChars s.toList := String.toList_ofList
  refine ⟨htext.trans (substituted_eq _).symm, ?_, ?_, ?_, ?_⟩
  · rw [← String.toList_eq_nil_iff, htext]
    exact snakeChars_eq_nil_iff
  · rw [htext]
    exact inSnakeCase_snakeChars s.toList
  · rw [htext]
    exact filter_snakeChars s.toList
  · rw [snakeCase, htext, (inSnakeCase_snakeChars s.toList).snakeChars_eq, snakeCase]

example : snakeCase "getHTTPResponse" = "get_http_response" := by decide +kernel

end EntityForge.Text
