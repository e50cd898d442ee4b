import EntityForge.Sql.Like
import Mathlib.Data.List.Infix

/-!
# What a substring pattern matches

A LIKE pattern is read part by part: `%` is any text, `_` any character, and any other character
itself, as is the character behind a backslash. Read behind its escapes, a text is made of its own
characters. So the pattern of a text is that text between any two texts, which is what the texts
around it have in common; and no two texts have the same pattern, since the text can be read from it.
-/

namespace EntityForge.Sql

/-- A part of a LIKE pattern. -/
inductive LikePart where
  /-- Any text, even an empty one. -/
  | any
  /-- Any character. -/
  | one
  /-- A character itself. -/
  | exactly (c : Char)
  deriving DecidableEq, Repr

/-- What a character stands for that no backslash is in front of. -/
def LikePart.ofChar (c : Char) : LikePart :=
  if c = '%' then .any else if c = '_' then .one else .exactly c

/-- The parts of a pattern, unless it ends inside an escape. -/
def likeParts? : List Char → Option (List LikePart)
  | [] => some []
  | ['\\'] => none
  | '\\' :: c :: cs => (likeParts? cs).map (.exactly c :: ·)
  | c :: cs => (likeParts? cs).map (.ofChar c :: ·)

/-- The parts make up the whole text, one after the other. -/
def matchesParts : List LikePart → List Char → Bool
  | [], text => text.isEmpty
  | .any :: parts, text => text.tails.any (matchesParts parts)
  | .one :: parts, _ :: text => matchesParts parts text
  | .exactly c :: parts, d :: text => c = d && matchesParts parts text
  | _ :: _, [] => false

variable {c : Char} {cs text : List Char} {parts : List LikePart}

/-! ## Reading a pattern -/

theorem likeParts?_plain (hc : c ≠ '\\') :
    likeParts? (c :: cs) = (likeParts? cs).map (.ofChar c :: ·) := by
  rw [likeParts?]
  · exact fun heq _ => hc heq
  · exact fun _ _ heq _ => hc heq

theorem likeParts?_escapeLikeChar (c : Char) (rest : List Char) :
    likeParts? (escapeLikeChar c ++ rest) = (likeParts? rest).map (.exactly c :: ·) := by
  by_cases hc : c = '\\' ∨ c = '%' ∨ c = '_'
  · rw [escapeLikeChar, if_pos hc]
    exact likeParts?.eq_3 c rest
  · rw [escapeLikeChar, if_neg hc, List.singleton_append]
    simp only [not_or] at hc
    rw [likeParts?_plain hc.1, LikePart.ofChar, if_neg hc.2.1, if_neg hc.2.2]

/-- An escaped text is read as its own characters. -/
theorem likeParts?_escapeLike (cs rest : List Char) :
    likeParts? (escapeLike cs ++ rest) = (likeParts? rest).map (cs.map .exactly ++ ·) := by
  rw [escapeLike_eq_flatMap]
  induction cs with
  | nil => simp
  | cons c cs ih =>
    rw [List.flatMap_cons, List.append_assoc, likeParts?_escapeLikeChar, ih, Option.map_map]
    rfl

/-- The pattern of a text is read as that text between any two texts. -/
theorem likeParts?_likePattern (cs : List Char) :
    likeParts? (likePattern cs) = some (.any :: (cs.map .exactly ++ [.any])) := by
  have hlast : likeParts? ['%'] = some [.any] := rfl
  rw [likePattern, List.cons_append, likeParts?_plain (by decide), likeParts?_escapeLike, hlast]
  rfl

/-! ## Matching -/

theorem matchesParts_any : matchesParts (.any :: parts) text = true ↔
    ∃ front rest, text = front ++ rest ∧ matchesParts parts rest = true := by
  simp only [matchesParts, List.any_eq_true, List.mem_tails]
  constructor
  · rintro ⟨rest, ⟨front, hfront⟩, hrest⟩
    exact ⟨front, rest, hfront.symm, hrest⟩
  · rintro ⟨front, rest, rfl, hrest⟩
    exact ⟨rest, List.suffix_append front rest, hrest⟩

/-- A text is matched by its own characters, and by nothing else. -/
theorem matchesParts_exactly : matchesParts (cs.map .exactly ++ parts) text = true ↔
    ∃ rest, text = cs ++ rest ∧ matchesParts parts rest = true := by
  induction cs generalizing text with
  | nil => simp
  | cons c cs ih =>
    cases text with
    | nil => simp [matchesParts]
    | cons d text =>
      simp only [List.map_cons, List.cons_append, matchesParts, Bool.and_eq_true,
        decide_eq_true_eq, ih, List.cons.injEq]
      constructor
      · rintro ⟨rfl, rest, htext, hrest⟩
        exact ⟨rest, ⟨rfl, htext⟩, hrest⟩
      · rintro ⟨rest, ⟨rfl, htext⟩, hrest⟩
        exact ⟨rfl, rest, htext, hrest⟩

theorem matchesParts_any_nil (text : List Char) : matchesParts [.any] text = true :=
  matchesParts_any.mpr ⟨text, [], (List.append_nil text).symm, rfl⟩

/-- What matches a text between any two texts are the texts in which it occurs. -/
theorem matchesParts_around :
    matchesParts (.any :: (cs.map .exactly ++ [.any])) text = true ↔ cs <:+: text := by
  rw [matchesParts_any]
  constructor
  · rintro ⟨front, rest, rfl, hrest⟩
    obtain ⟨behind, rfl, -⟩ := matchesParts_exactly.mp hrest
    exact ⟨front, behind, List.append_assoc _ _ _⟩
  · rintro ⟨front, behind, rfl⟩
    refine ⟨front, cs ++ behind, List.append_assoc _ _ _, ?_⟩
    exact matchesParts_exactly.mpr ⟨behind, rfl, matchesParts_any_nil behind⟩

/-- The pattern of a text can be read, and matches exactly the texts in which the text occurs; no
other text has the same pattern. -/
theorem likePattern_exact (cs : List Char) :
    (∃ parts, likeParts? (likePattern cs) = some parts ∧
      ∀ text, matchesParts parts text = true ↔ cs <:+: text) ∧
    ∀ ds, likePattern ds = likePattern cs → ds = cs := by
  refine ⟨⟨_, likeParts?_likePattern cs, fun text => matchesParts_around⟩, fun ds h => ?_⟩
  have hparts : LikePart.any :: (ds.map .exactly ++ [.any]) =
      .any :: (cs.map .exactly ++ [.any]) := by
    rw [← Option.some.injEq, ← likeParts?_likePattern, ← likeParts?_likePattern, h]
  have hinj : Function.Injective LikePart.exactly := fun c d hcd => LikePart.exactly.inj hcd
  exact hinj.list_map (List.append_cancel_right (List.cons.inj hparts).2)

/-- A percent sign in a text is matched by itself alone. -/
example : likePattern "50%_off\\".toList = "%50\\%\\_off\\\\%".toList ∧
    (likeParts? (likePattern "50%".toList)).map (matchesParts · "at 500".toList) = some false := by
  decide +kernel

end EntityForge.Sql
