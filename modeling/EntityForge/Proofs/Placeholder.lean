import EntityForge.Proofs.Build

/-!
# Placeholders of a statement

The numbered placeholders of a statement are read off its text from left to right: a dollar sign
with all digits behind it. Reading distributes over two texts put together unless the second goes
on with a digit, and texts without a dollar sign contribute nothing; so the placeholders of a
statement are those of its parts, in order.
-/

namespace EntityForge.Sql

/-- The digits behind every dollar sign. -/
def placeholderDigits : List Char → List (List Char)
  | [] => []
  | c :: cs =>
    if c = '$' then cs.takeWhile Char.isDigit :: placeholderDigits cs else placeholderDigits cs

/-- The numbers of the placeholders of a statement, as written, from left to right. -/
def placeholders (text : String) : List String :=
  (placeholderDigits text.toList).map String.ofList

/-- The numbers from one to a count, as placeholders write them. -/
def numbered (count : Nat) : List String := (List.range' 1 count).map toString

theorem numbered_succ (count : Nat) :
    numbered (count + 1) = numbered count ++ [toString (count + 1)] := by
  rw [numbered, List.range'_1_concat, List.map_append, List.map_singleton, Nat.add_comm 1]
  rfl

/-- A text that does not go on the number of a placeholder in front of it. -/
def Apart (text : String) : Prop := ∀ c ∈ text.toList.head?, c.isDigit = false

/-- A text of which nothing starts a placeholder. -/
def Dollarless (text : String) : Prop := '$' ∉ text.toList

instance (text : String) : Decidable (Dollarless text) := inferInstanceAs (Decidable (_ ∉ _))

theorem Dollarless.append {s t : String} (hs : Dollarless s) (ht : Dollarless t) :
    Dollarless (s ++ t) := by
  rw [Dollarless, String.toList_append, List.mem_append]
  exact fun h => h.elim hs ht

/-- Joined texts start no placeholder if neither the texts nor what joins them do. -/
theorem dollarless_intercalate {sep : String} (hs : Dollarless sep) {texts : List String}
    (h : ∀ t ∈ texts, Dollarless t) : Dollarless (sep.intercalate texts) := by
  rw [Dollarless, String.toList_intercalate]
  intro hm
  rcases Text.mem_intercalate hm with hm | ⟨cs, hcs, hm⟩
  · exact hs hm
  · obtain ⟨t, ht, rfl⟩ := List.mem_map.mp hcs
    exact h t ht hm

theorem dollarless_of_plain {s : String} (h : Text.Plain s) : Dollarless s := h.not_mem rfl

/-- A text is apart if its first part is. -/
theorem apart_append {s t : String} (h : (s.toList.head?.any fun c => !c.isDigit) = true) :
    Apart (s ++ t) := by
  intro c hc
  cases hs : s.toList with
  | nil => simp [hs] at h
  | cons d ds =>
    rw [String.toList_append, hs, List.cons_append, List.head?_cons, Option.mem_some] at hc
    subst hc
    simpa [hs] using h

private theorem placeholderDigits_append {xs ys : List Char}
    (h : ∀ c ∈ ys.head?, c.isDigit = false) :
    placeholderDigits (xs ++ ys) = placeholderDigits xs ++ placeholderDigits ys := by
  have htake : ys.takeWhile Char.isDigit = [] := by
    cases ys with
    | nil => rfl
    | cons y ys => simp [h y rfl]
  induction xs with
  | nil => rfl
  | cons x xs ih =>
    have hx : (xs ++ ys).takeWhile Char.isDigit = xs.takeWhile Char.isDigit := by
      rw [List.takeWhile_append, htake, List.append_nil]
      split
      · rename_i hlen
        exact ((List.takeWhile_prefix _).eq_of_length hlen).symm
      · rfl
    rw [List.cons_append, placeholderDigits, placeholderDigits, hx, ih]
    split <;> rfl

private theorem placeholderDigits_of_not_mem {xs : List Char} (h : '$' ∉ xs) (ys : List Char) :
    placeholderDigits (xs ++ ys) = placeholderDigits ys := by
  induction xs with
  | nil => rfl
  | cons x xs ih =>
    rw [List.mem_cons, not_or] at h
    rw [List.cons_append, placeholderDigits, if_neg (Ne.symm h.1), ih h.2]

/-- The placeholders of two texts put together are those of the one and those of the other. -/
theorem placeholders_append {s t : String} (h : Apart t) :
    placeholders (s ++ t) = placeholders s ++ placeholders t := by
  rw [placeholders, String.toList_append, placeholderDigits_append h, List.map_append]
  rfl

/-- A text without a dollar sign adds no placeholder in front of another text. -/
theorem placeholders_skip {s t : String} (h : Dollarless s) :
    placeholders (s ++ t) = placeholders t := by
  rw [placeholders, String.toList_append, placeholderDigits_of_not_mem h]
  rfl

theorem placeholders_of_dollarless {s : String} (h : Dollarless s) : placeholders s = [] := by
  rw [← String.append_empty (s := s), placeholders_skip h]
  rfl

/-- A dollar sign and a number are the placeholder with the number. -/
theorem placeholders_parameter (n : Nat) : placeholders ("$" ++ toString n) = [toString n] := by
  have hdigits : ∀ c ∈ (toString n).toList, c.isDigit = true := by
    intro c hc
    rw [Nat.toString_eq_repr, Nat.toList_repr] at hc
    exact Nat.isDigit_of_mem_toDigits (by decide) (by decide) hc
  have htake : ((toString n).toList ++ []).takeWhile Char.isDigit = (toString n).toList ++ [] :=
    List.takeWhile_append_of_pos hdigits
  have hnone : placeholderDigits ((toString n).toList ++ []) = [] :=
    placeholderDigits_of_not_mem (fun hm => Bool.noConfusion (hdigits '$' hm)) []
  rw [List.append_nil] at htake hnone
  rw [placeholders, String.toList_append]
  change List.map String.ofList
    ((toString n).toList.takeWhile Char.isDigit :: placeholderDigits (toString n).toList) = _
  rw [htake, hnone, List.map_singleton, String.ofList_toList]

/-- The placeholders of texts joined by a separator without any are those of the texts. -/
theorem placeholders_intercalate {sep : String} (hd : Dollarless sep)
    (ha : (sep.toList.head?.any fun c => !c.isDigit) = true) (texts : List String) :
    placeholders (sep.intercalate texts) = texts.flatMap placeholders := by
  induction texts with
  | nil => rw [String.intercalate_nil]; rfl
  | cons t ts ih =>
    cases ts with
    | nil => simp
    | cons u us =>
      rw [String.intercalate_cons_cons, String.append_assoc, placeholders_append (apart_append ha),
        placeholders_skip hd, ih, List.flatMap_cons, List.flatMap_cons, List.flatMap_cons]

end EntityForge.Sql

/-! ## Names of an entity -/

namespace EntityForge.Entity.Plain

open Sql

variable {e : Entity}

theorem fullTable_dollarless (he : e.Plain) : Dollarless e.fullTable :=
  ((dollarless_of_plain he.schema).append (by decide)).append (dollarless_of_plain he.table)

theorem columns_dollarless (he : e.Plain) : ∀ c ∈ e.columnNames, Dollarless c := by
  intro c hc
  obtain ⟨f, hf, rfl⟩ := List.mem_map.mp hc
  exact dollarless_of_plain (he.columnName f hf)

theorem idColumn_dollarless (he : e.Plain) : Dollarless e.idField.columnName :=
  dollarless_of_plain (he.columnName _ (List.get_mem ..))

end EntityForge.Entity.Plain
