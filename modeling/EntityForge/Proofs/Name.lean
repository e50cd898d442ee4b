import EntityForge.Source.Keyword
import EntityForge.Text.Plural
import EntityForge.Text.Snake

/-!
# Characters of names

A name holds nothing but ASCII letters, digits and underscores, and so do the snake-case form of
any text and its plural. The checks on names overlook one line feed at the end, which a text
without blanks around it cannot have. Statements rely on this: what is spliced into them brings no
character with a meaning of its own. A snake-case form has no capitals, so that it can be told from
what it is in capitals.
-/

namespace EntityForge.Text

/-- The character may stand in a text that passes for a name: the check overlooks a line feed. -/
def isNameLineChar (c : Char) : Bool := isNameChar c || c == '\n'

/-- Nothing but characters of names, or line feeds. -/
def Plain (s : String) : Prop := ∀ c ∈ s.toList, isNameLineChar c = true

/-- A character with a meaning of its own stands in no plain text. -/
theorem Plain.not_mem {s : String} (h : Plain s) {c : Char} (hc : isNameLineChar c = false) :
    c ∉ s.toList := by
  intro hm
  simp only [h c hm, Bool.true_eq_false] at hc

theorem Plain.append {s t : String} (hs : Plain s) (ht : Plain t) : Plain (s ++ t) := by
  intro c hc
  rw [String.toList_append, List.mem_append] at hc
  exact hc.elim (hs c) (ht c)

theorem isNameChar_of_isNameStart {c : Char} (h : isNameStart c = true) :
    isNameChar c = true := by
  simp only [isNameStart, isNameChar, Char.isAlphanum, Bool.or_eq_true] at h ⊢
  exact h.imp_left Or.inl

/-- Every character of a name may follow in a name. -/
theorem isNameChar_of_isName {cs : List Char} (h : isName cs = true) {c : Char} (hc : c ∈ cs) :
    isNameChar c = true := by
  cases cs with
  | nil => simp at hc
  | cons d ds =>
    simp only [isName, Bool.and_eq_true, List.all_eq_true] at h
    rcases List.mem_cons.mp hc with rfl | hc
    · exact isNameChar_of_isNameStart h.1
    · exact h.2 c hc

theorem mem_dropFinalNewline {cs : List Char} {c : Char} (hc : c ∈ cs) :
    c ∈ dropFinalNewline cs ∨ c = '\n' := by
  unfold dropFinalNewline
  split
  · rename_i h
    obtain ⟨ds, rfl⟩ := List.getLast?_eq_some_iff.mp h
    simpa using hc
  · exact Or.inl hc

/-- What passes for a name is plain. -/
theorem plain_of_isNameLine {s : String} (h : isNameLine s.toList = true) : Plain s := by
  intro c hc
  simp only [isNameLineChar, Bool.or_eq_true, beq_iff_eq]
  exact (mem_dropFinalNewline hc).imp_left (isNameChar_of_isName h)

/-- A name is plain. -/
theorem plain_of_isName {s : String} (h : isName s.toList = true) : Plain s := by
  intro c hc
  simp only [isNameLineChar, isNameChar_of_isName h hc, Bool.true_or]

/-- A text without the blanks around it ends in no line feed. -/
theorem getLast?_trim_ne (cs : List Char) : (trim cs).getLast? ≠ some '\n' := by
  intro h
  simp only [trim, trimRight, List.getLast?_reverse] at h
  have hd := List.head?_dropWhile_not isBlank (trimLeft cs).reverse
  rw [h] at hd
  exact Bool.noConfusion hd

/-- Of a text without blanks around it the check on names overlooks nothing. -/
theorem isNameLine_trimmed (s : String) :
    isNameLine (trimmed s).toList = isName (trimmed s).toList := by
  rw [trimmed, String.toList_ofList, isNameLine, dropFinalNewline, if_neg (getLast?_trim_ne _)]

/-! ## What stands in front of a character -/

theorem takeWhile_append_of_not_mem {c : Char} {cs : List Char} (h : c ∉ cs) (rest : List Char) :
    (cs ++ c :: rest).takeWhile (· ≠ c) = cs := by
  have hall : ∀ d ∈ cs, decide (d ≠ c) = true := fun d hd =>
    decide_eq_true fun heq => h (heq ▸ hd)
  rw [List.takeWhile_append_of_pos hall, List.takeWhile_cons_of_neg (by simp), List.append_nil]

theorem dropWhile_append_of_not_mem {c : Char} {cs : List Char} (h : c ∉ cs) (rest : List Char) :
    (cs ++ c :: rest).dropWhile (· ≠ c) = c :: rest := by
  have hall : ∀ d ∈ cs, decide (d ≠ c) = true := fun d hd =>
    decide_eq_true fun heq => h (heq ▸ hd)
  rw [List.dropWhile_append_of_pos hall, List.dropWhile_cons_of_neg (by simp)]

/-! ## Letters by their numbers -/

theorem isUpper_iff {c : Char} : c.isUpper = true ↔ 65 ≤ c.toNat ∧ c.toNat ≤ 90 := by
  delta Char.isUpper
  simp [UInt32.le_iff_toNat_le]

theorem isLower_iff {c : Char} : c.isLower = true ↔ 97 ≤ c.toNat ∧ c.toNat ≤ 122 := by
  delta Char.isLower
  simp [UInt32.le_iff_toNat_le]

theorem isDigit_iff {c : Char} : c.isDigit = true ↔ 48 ≤ c.toNat ∧ c.toNat ≤ 57 := by
  delta Char.isDigit
  simp [UInt32.le_iff_toNat_le]

theorem isAlphanum_iff {c : Char} : c.isAlphanum = true ↔ (65 ≤ c.toNat ∧ c.toNat ≤ 90) ∨
    (97 ≤ c.toNat ∧ c.toNat ≤ 122) ∨ (48 ≤ c.toNat ∧ c.toNat ≤ 57) := by
  delta Char.isAlphanum Char.isAlpha Char.isUpper Char.isLower Char.isDigit
  simp [UInt32.le_iff_toNat_le, or_assoc]

theorem toNat_toLower (c : Char) : c.toLower.toNat =
    if 65 ≤ c.toNat ∧ c.toNat ≤ 90 then c.toNat + 32 else c.toNat := by
  delta Char.toLower
  simp only [UInt32.le_iff_toNat_le, Char.toNat_val, ge_iff_le]
  split
  · rename_i h
    have h : 65 ≤ c.toNat ∧ c.toNat ≤ 90 := h
    have hstep : ('a'.val - 'A'.val).toNat = 32 := by decide
    rw [if_pos h, ← Char.toNat_val, UInt32.toNat_add, Char.toNat_val, hstep]
    omega
  · rename_i h
    exact (if_neg h).symm

theorem toNat_toUpper (c : Char) : c.toUpper.toNat =
    if 97 ≤ c.toNat ∧ c.toNat ≤ 122 then c.toNat - 32 else c.toNat := by
  delta Char.toUpper
  simp only [UInt32.le_iff_toNat_le, Char.toNat_val]
  split
  · rename_i h
    have h : 97 ≤ c.toNat ∧ c.toNat ≤ 122 := h
    have hstep : ('A'.val - 'a'.val).toNat = 2 ^ 32 - 32 := by decide
    rw [if_pos h, ← Char.toNat_val, UInt32.toNat_add, Char.toNat_val, hstep]
    omega
  · rename_i h
    exact (if_neg h).symm

/-- The small letter in the place of a capital is a letter. -/
theorem isAlphanum_toLower {c : Char} (h : c.isAlphanum = true) : c.toLower.isAlphanum = true := by
  rw [isAlphanum_iff] at h ⊢
  rw [toNat_toLower]
  split <;> omega

/-- Characters that are no capitals and have one capital form are the same. -/
theorem eq_of_toUpper_eq {c d : Char} (hc : c.isUpper = false) (hd : d.isUpper = false)
    (h : c.toUpper = d.toUpper) : c = d := by
  have h := congrArg Char.toNat h
  rw [toNat_toUpper, toNat_toUpper] at h
  rw [← Bool.not_eq_true, isUpper_iff] at hc hd
  apply Char.toNat_inj.mp
  split at h <;> split at h <;> omega

/-! ## Snake case -/

/-- The words of a text keep nothing but letters and digits. -/
theorem isWordChar_of_mem_nameWords {cs w : List Char} (hw : w ∈ nameWords cs) {c : Char}
    (hc : c ∈ w) : isWordChar c = true := by
  fun_induction nameWords cs generalizing w c with
  | case1 => simp at hw
  | case2 d hd =>
    obtain rfl := List.mem_singleton.mp hw
    obtain rfl := List.mem_singleton.mp hc
    exact hd
  | case3 d hd d' rest _ ih =>
    cases hws : nameWords (d' :: rest) with
    | nil =>
      rw [hws] at hw
      obtain rfl := List.mem_singleton.mp hw
      obtain rfl := List.mem_singleton.mp hc
      exact hd
    | cons v vs =>
      rw [hws] at hw ih
      rcases List.mem_cons.mp hw with rfl | hw
      · rcases List.mem_cons.mp hc with rfl | hc
        · exact hd
        · exact ih (List.mem_cons_self ..) hc
      · exact ih (List.mem_cons_of_mem _ hw) hc
  | case4 d hd d' rest _ ih =>
    rcases List.mem_cons.mp hw with rfl | hw
    · obtain rfl := List.mem_singleton.mp hc
      exact hd
    · exact ih hw hc
  | case5 d ds _ ih => exact ih hw hc

/-- What stands in joined pieces stands in one of them or in what joins them. -/
theorem mem_intercalate {α : Type} {sep : List α} {pieces : List (List α)} {a : α}
    (ha : a ∈ sep.intercalate pieces) : a ∈ sep ∨ ∃ p ∈ pieces, a ∈ p := by
  induction pieces with
  | nil => simp at ha
  | cons p ps ih =>
    cases ps with
    | nil =>
      rw [List.intercalate_singleton] at ha
      exact Or.inr ⟨p, List.mem_singleton_self p, ha⟩
    | cons q qs =>
      rw [List.intercalate_cons_cons, List.mem_append, List.mem_append] at ha
      rcases ha with (ha | ha) | ha
      · exact Or.inr ⟨p, List.mem_cons_self, ha⟩
      · exact Or.inl ha
      · exact (ih ha).imp_right fun ⟨r, hr, hm⟩ => ⟨r, List.mem_cons_of_mem _ hr, hm⟩

/-- The snake-case form holds small forms of letters and digits, and underscores. -/
theorem mem_snakeCase {s : String} {c : Char} (hc : c ∈ (snakeCase s).toList) :
    c = '_' ∨ ∃ d : Char, d.isAlphanum = true ∧ c = d.toLower := by
  simp only [snakeCase, String.toList_ofList, snakeChars] at hc
  rcases mem_intercalate hc with hc | ⟨w, hw, hc⟩
  · exact Or.inl (List.mem_singleton.mp hc)
  · obtain ⟨v, hv, rfl⟩ := List.mem_map.mp hw
    obtain ⟨d, hd, rfl⟩ := List.mem_map.mp hc
    exact Or.inr ⟨d, isWordChar_of_mem_nameWords hv hd, rfl⟩

/-- The snake-case form of any text is plain. -/
theorem plain_snakeCase (s : String) : Plain (snakeCase s) := by
  intro c hc
  rcases mem_snakeCase hc with rfl | ⟨d, hd, rfl⟩
  · rfl
  · simp only [isNameLineChar, isNameChar, isAlphanum_toLower hd, Bool.true_or]

/-- The plural keeps the letters of a word and brings in `e`, `i` and `s`. -/
private theorem of_mem_pluralReversed {cs : List Char} {c : Char} (hc : c ∈ pluralReversed cs) :
    c ∈ cs ∨ c = 's' ∨ c = 'e' ∨ c = 'i' := by
  unfold pluralReversed at hc
  split at hc <;> simp only [List.mem_cons] at hc ⊢ <;> grind

/-- What holds of the letters of a word and of those of an ending holds of the plural. -/
theorem forall_mem_plural {P : Char → Prop} {s : String} (h : ∀ c ∈ s.toList, P c)
    (hs : P 's') (he : P 'e') (hi : P 'i') : ∀ c ∈ (plural s).toList, P c := by
  intro c hc
  simp only [plural, String.toList_ofList, List.mem_reverse] at hc
  rcases of_mem_pluralReversed hc with hc | rfl | rfl | rfl
  · exact h c (List.mem_reverse.mp hc)
  · exact hs
  · exact he
  · exact hi

/-- The plural of a plain word is plain. -/
theorem plain_plural {s : String} (h : Plain s) : Plain (plural s) :=
  forall_mem_plural h rfl rfl rfl

/-- A plural ends in `s`. -/
theorem getLast?_plural (s : String) : (plural s).toList.getLast? = some 's' := by
  rw [plural, String.toList_ofList, List.getLast?_reverse]
  unfold pluralReversed
  split <;> rfl

/-! ## Capitals -/

/-- A text without capitals. -/
def Small (s : String) : Prop := ∀ c ∈ s.toList, c.isUpper = false

instance (s : String) : Decidable (Small s) :=
  decidable_of_iff (s.toList.all (!Char.isUpper ·) = true) (by simp [Small])

theorem Small.append {s t : String} (hs : Small s) (ht : Small t) : Small (s ++ t) := by
  intro c hc
  rw [String.toList_append, List.mem_append] at hc
  exact hc.elim (hs c) (ht c)

/-- The snake-case form of any text is without capitals. -/
theorem small_snakeCase (s : String) : Small (snakeCase s) := by
  intro c hc
  rcases mem_snakeCase hc with rfl | ⟨d, -, rfl⟩
  · rfl
  · rw [← Bool.not_eq_true, isUpper_iff, toNat_toLower]
    split <;> omega

theorem small_plural {s : String} (h : Small s) : Small (plural s) :=
  forall_mem_plural h rfl rfl rfl

/-- Texts without capitals that are alike in capitals are the same. -/
theorem Small.eq_of_map_toUpper {s t : String} (hs : Small s) (ht : Small t)
    (h : s.map Char.toUpper = t.map Char.toUpper) : s = t := by
  have hl := congrArg String.toList h
  rw [String.toList_map, String.toList_map] at hl
  apply String.toList_inj.mp
  unfold Small at hs ht
  clear h
  generalize s.toList = cs at *
  generalize t.toList = ds at *
  induction cs generalizing ds with
  | nil => simpa using hl.symm
  | cons c cs ih =>
    cases ds with
    | nil => simp at hl
    | cons d ds =>
      rw [List.map_cons, List.map_cons, List.cons.injEq] at hl
      rw [List.forall_mem_cons] at hs ht
      rw [eq_of_toUpper_eq hs.1 ht.1 hl.1, ih hs.2 ds ht.2 hl.2]

end EntityForge.Text
