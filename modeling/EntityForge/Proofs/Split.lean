import EntityForge.Text.Blank
import EntityForge.Proofs.Name

/-!
# Pieces of texts

A text is cut at every separator, so that the pieces of two texts with a separator between them are
the pieces of both. Where two texts with a separator in them are one, they are either cut at the
same place, or one of them goes on with a separator where the other has more to its first part.
-/

namespace EntityForge.Text

variable {sep : Char} {cs ds : List Char}

theorem prependToFirst_append {c : Char} {xs : List (List Char)} (ys : List (List Char))
    (h : xs ≠ []) : prependToFirst c (xs ++ ys) = prependToFirst c xs ++ ys := by
  cases xs with
  | nil => exact absurd rfl h
  | cons x xs => rfl

theorem flatten_prependToFirst (c : Char) (pieces : List (List Char)) :
    (prependToFirst c pieces).flatten = c :: pieces.flatten := by
  cases pieces with
  | nil => rfl
  | cons piece pieces => rfl

/-- The pieces of two texts with a separator between them are the pieces of both. -/
theorem splitOn_append (sep : Char) (cs ds : List Char) :
    splitOn sep (cs ++ sep :: ds) = splitOn sep cs ++ splitOn sep ds := by
  induction cs with
  | nil => simp [splitOn]
  | cons c cs ih =>
    simp only [List.cons_append, splitOn]
    split
    · rw [ih, List.cons_append]
    · rw [ih, prependToFirst_append _ (splitOn_ne_nil sep cs)]

/-- A text without separators is one piece. -/
theorem splitOn_of_not_mem (h : sep ∉ cs) : splitOn sep cs = [cs] := by
  induction cs with
  | nil => rfl
  | cons c cs ih =>
    have hc : c ≠ sep := fun heq => h (heq ▸ List.mem_cons_self)
    have hcs : sep ∉ cs := fun hm => h (List.mem_cons_of_mem _ hm)
    rw [splitOn, if_neg hc, ih hcs, prependToFirst]

/-- The pieces with separators between them are the text again. -/
theorem intercalate_splitOn (sep : Char) (cs : List Char) :
    [sep].intercalate (splitOn sep cs) = cs := by
  induction cs with
  | nil => rfl
  | cons c cs ih =>
    obtain ⟨piece, pieces, hpieces⟩ := List.exists_cons_of_ne_nil (splitOn_ne_nil sep cs)
    rw [hpieces] at ih
    simp only [splitOn, hpieces]
    split
    · rename_i h
      rw [List.intercalate_cons_cons, ih, h, List.nil_append, List.singleton_append]
    · rw [prependToFirst]
      cases pieces with
      | nil => simpa using ih
      | cons next pieces =>
        rw [List.intercalate_cons_cons] at ih ⊢
        simpa using ih

/-- The pieces one after another are the text without the separators. -/
theorem flatten_splitOn (sep : Char) (cs : List Char) :
    (splitOn sep cs).flatten = cs.filter (· ≠ sep) := by
  induction cs with
  | nil => rfl
  | cons c cs ih =>
    rw [splitOn]
    split
    · rename_i hc
      rw [List.filter_cons_of_neg (by simp [hc]), ← ih]
      rfl
    · rename_i hc
      rw [List.filter_cons_of_pos (by simp [hc]), ← ih, flatten_prependToFirst]

/-- No piece holds a separator. -/
theorem not_mem_of_mem_splitOn {piece : List Char} (h : piece ∈ splitOn sep cs) : sep ∉ piece := by
  induction cs generalizing piece with
  | nil =>
    obtain rfl := List.mem_singleton.mp h
    exact List.not_mem_nil
  | cons c cs ih =>
    rw [splitOn] at h
    split at h
    · rcases List.mem_cons.mp h with rfl | h
      · exact List.not_mem_nil
      · exact ih h
    · rename_i hc
      obtain ⟨first, pieces, hpieces⟩ := List.exists_cons_of_ne_nil (splitOn_ne_nil sep cs)
      rw [hpieces] at ih h
      rcases List.mem_cons.mp h with rfl | h
      · rw [List.mem_cons, not_or]
        exact ⟨Ne.symm hc, ih List.mem_cons_self⟩
      · exact ih (List.mem_cons_of_mem _ h)

/-- Pieces with separators between them are read back. -/
theorem splitOn_intercalate {pieces : List (List Char)} (hne : pieces ≠ [])
    (h : ∀ piece ∈ pieces, sep ∉ piece) : splitOn sep ([sep].intercalate pieces) = pieces := by
  induction pieces with
  | nil => exact absurd rfl hne
  | cons first pieces ih =>
    obtain ⟨hfirst, h⟩ := List.forall_mem_cons.mp h
    cases pieces with
    | nil => rw [List.intercalate_singleton, splitOn_of_not_mem hfirst]
    | cons next pieces =>
      rw [List.intercalate_cons_cons, List.append_assoc, List.singleton_append, splitOn_append,
        splitOn_of_not_mem hfirst, ih (List.cons_ne_nil _ _) h]
      rfl

/-- What stands in a text separates its pieces or stands in one of them. -/
theorem mem_splitOn {c : Char} (hc : c ∈ cs) : c = sep ∨ ∃ piece ∈ splitOn sep cs, c ∈ piece := by
  rw [← intercalate_splitOn sep cs] at hc
  exact (mem_intercalate hc).imp_left List.mem_singleton.mp

/-- Two texts that differ in front of a separator are the same as a whole exactly when one front
goes on as the other does behind its separator. -/
theorem append_separator_eq_iff {a b x y : List Char} (h : a ≠ b) :
    a ++ sep :: x = b ++ sep :: y ↔
      (∃ word, b = a ++ sep :: word ∧ x = word ++ sep :: y) ∨
        ∃ word, a = b ++ sep :: word ∧ y = word ++ sep :: x := by
  constructor
  · intro heq
    rcases List.append_eq_append_iff.mp heq with ⟨more, rfl, hmore⟩ | ⟨more, rfl, hmore⟩
    · cases more with
      | nil => exact absurd (List.append_nil a).symm h
      | cons c word =>
        obtain ⟨rfl, hx⟩ := List.cons.inj hmore
        exact Or.inl ⟨word, rfl, hx⟩
    · cases more with
      | nil => exact absurd (List.append_nil b) h
      | cons c word =>
        obtain ⟨rfl, hy⟩ := List.cons.inj hmore
        exact Or.inr ⟨word, rfl, hy⟩
  · rintro (⟨word, rfl, rfl⟩ | ⟨word, rfl, rfl⟩)
    · simp
    · simp

end EntityForge.Text
