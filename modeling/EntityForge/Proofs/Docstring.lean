import EntityForge.Package.Model
import EntityForge.Proofs.Split
import Mathlib.Algebra.Ring.Parity
import Mathlib.Data.List.Infix

/-!
# Documentation texts as literals

A literal in three double quotes ends at the first three quotes in a row of which a backslash
escapes none. A documentation text holds no three quotes in a row, so that nothing inside it ends
the literal. Between lines of quotes it is followed by a line feed, and the quotes that are meant to
end the literal do. On the line of its quotes it is followed by them at once, and a last character
that is a backslash or a quote makes a difference, unless it is itself escaped: the backslash takes
the first of the quotes with it, and the quote makes the literal end too early.
-/

namespace EntityForge.Source

open Text

/-! ## Literals in three double quotes -/

/-- Three double quotes. -/
def quotes : List Char := ['"', '"', '"']

/-- What stands behind the first three double quotes in a row, where a backslash takes the character
behind it out of account. -/
def behindQuotes? : List Char → Option (List Char)
  | '\\' :: _ :: cs => behindQuotes? cs
  | '"' :: '"' :: '"' :: cs => some cs
  | _ :: cs => behindQuotes? cs
  | [] => none

/-- Spaces, and one literal in three double quotes that goes to the end of the text. -/
def isQuotation (cs : List Char) : Bool :=
  match cs.dropWhile (· = ' ') with
  | '"' :: '"' :: '"' :: body => behindQuotes? body = some []
  | _ => false

/-- The number of backslashes in a row, with one more character behind them. -/
def backslashesWith (n : Nat) (c : Char) : Nat := if c = '\\' then n + 1 else 0

/-- The number of backslashes at the end of a text. -/
def finalBackslashes (cs : List Char) : Nat := cs.foldl backslashesWith 0

/-- The last character is a backslash or a double quote, and no backslash escapes it: of backslashes
in a row, each other one is escaped by the one in front of it. -/
def EndsOpen (cs : List Char) : Prop :=
  if cs.getLast? = some '"' then Even (finalBackslashes cs.dropLast)
  else Odd (finalBackslashes cs)

instance (cs : List Char) : Decidable (EndsOpen cs) := inferInstanceAs (Decidable (ite _ _ _))

variable {c : Char} {cs ds rest : List Char}

theorem isQuotation_quotes (margin : Nat) (body : List Char) :
    isQuotation (List.replicate margin ' ' ++ quotes ++ body) = true ↔
      behindQuotes? body = some [] := by
  have hspaces : ∀ c ∈ List.replicate margin ' ', decide (c = ' ') = true := fun c hc =>
    decide_eq_true (List.eq_of_mem_replicate hc)
  rw [isQuotation, List.append_assoc, List.dropWhile_append_of_pos hspaces]
  exact decide_eq_true_iff

/-! ## The end of a text -/

theorem even_foldl_backslashesWith {n m : Nat} (h : Even n ↔ Even m) :
    Even (cs.foldl backslashesWith n) ↔ Even (cs.foldl backslashesWith m) := by
  induction cs generalizing n m with
  | nil => exact h
  | cons c cs ih =>
    refine ih ?_
    by_cases hc : c = '\\'
    · simp only [backslashesWith, if_pos hc, Nat.even_add_one, h]
    · simp only [backslashesWith, if_neg hc]

/-- An escape in front of a text changes nothing about its end. -/
theorem even_finalBackslashes_escape (c : Char) (cs : List Char) :
    Even (finalBackslashes ('\\' :: c :: cs)) ↔ Even (finalBackslashes cs) := by
  rw [finalBackslashes, finalBackslashes, List.foldl_cons, List.foldl_cons]
  refine even_foldl_backslashesWith ?_
  by_cases hc : c = '\\'
  · simp only [backslashesWith, if_pos hc, if_true]
    decide
  · simp only [backslashesWith, if_neg hc]

theorem finalBackslashes_cons (hc : c ≠ '\\') :
    finalBackslashes (c :: cs) = finalBackslashes cs := by
  simp only [finalBackslashes, List.foldl_cons, backslashesWith, if_neg hc]

theorem endsOpen_escape (c : Char) (cs : List Char) :
    EndsOpen ('\\' :: c :: cs) ↔ EndsOpen cs := by
  cases cs with
  | nil =>
    by_cases hquote : c = '"'
    · subst hquote
      decide
    · have hlast : ['\\', c].getLast? ≠ some '"' := fun h => hquote (Option.some.inj h)
      rw [EndsOpen, if_neg hlast, ← Nat.not_even_iff_odd, even_finalBackslashes_escape]
      decide
  | cons d ds =>
    simp only [EndsOpen, List.getLast?_cons_cons, List.dropLast_cons_cons, ← Nat.not_even_iff_odd,
      even_finalBackslashes_escape]

theorem endsOpen_cons (hc : c ≠ '\\') (hquote : c = '"' → cs ≠ []) :
    EndsOpen (c :: cs) ↔ EndsOpen cs := by
  cases cs with
  | nil =>
    have hlast : [c].getLast? ≠ some '"' := fun h => hquote (Option.some.inj h) rfl
    rw [EndsOpen, if_neg hlast, finalBackslashes_cons hc]
    decide
  | cons d ds =>
    simp only [EndsOpen, List.getLast?_cons_cons, List.dropLast_cons_cons, finalBackslashes_cons hc]

/-- A text that ends in characters other than backslashes and quotes does not end open. -/
theorem not_endsOpen_append (hne : ds ≠ []) (hplain : ∀ c ∈ ds, c ≠ '\\' ∧ c ≠ '"') :
    ¬ EndsOpen (cs ++ ds) := by
  obtain ⟨front, c, rfl⟩ := (List.eq_nil_or_concat' ds).resolve_left hne
  obtain ⟨hslash, hquote⟩ := hplain c List.mem_concat_self
  have hlast : (cs ++ (front ++ [c])).getLast? ≠ some '"' := by
    rw [← List.append_assoc, List.getLast?_concat]
    exact fun h => hquote (Option.some.inj h)
  have hcount : finalBackslashes (cs ++ (front ++ [c])) = 0 := by
    rw [finalBackslashes, ← List.append_assoc, List.foldl_concat, backslashesWith, if_neg hslash]
  rw [EndsOpen, if_neg hlast, hcount]
  decide

/-! ## Where a literal ends -/

theorem behindQuotes?_cons (hc : c ≠ '\\') (hquotes : c = '"' → ¬ ['"', '"'] <+: cs) :
    behindQuotes? (c :: cs) = behindQuotes? cs := by
  refine behindQuotes?.eq_3 c cs (fun _ _ h => absurd h hc) fun ds h => ?_
  rintro rfl
  exact hquotes h ⟨ds, rfl⟩

/-- Behind a text without three quotes in a row, a literal ends at its own quotes, unless the text
ends open. -/
theorem behindQuotes?_append_quotes (hrun : ¬ quotes <:+: cs) :
    behindQuotes? (cs ++ quotes) = some [] ↔ ¬ EndsOpen cs := by
  induction cs using behindQuotes?.induct with
  | case1 c cs ih =>
    have htail : ¬ quotes <:+: cs := fun h => hrun (h.trans ⟨['\\', c], [], by simp⟩)
    rw [endsOpen_escape, ← ih htail]
    rfl
  | case2 cs => exact absurd ⟨[], cs, rfl⟩ hrun
  | case3 c cs hescape hquotes ih =>
    have htail : ¬ quotes <:+: cs := fun h => hrun (h.trans (List.suffix_cons c cs).isInfix)
    by_cases hc : c = '\\'
    · -- a backslash with a character behind it is an escape, so that this one is the last
      subst hc
      cases cs with
      | nil => decide
      | cons d ds => exact (hescape d ds rfl rfl).elim
    · by_cases hfew : c = '"' ∧ (cs = [] ∨ cs = ['"'])
      · obtain ⟨rfl, rfl | rfl⟩ := hfew <;> decide
      · have hne : c = '"' → cs ≠ [] := fun h hnil => hfew ⟨h, Or.inl hnil⟩
        rw [endsOpen_cons hc hne, ← ih htail, List.cons_append, behindQuotes?_cons hc]
        rintro rfl ⟨more, hmore⟩
        match cs with
        | [] => exact hne rfl rfl
        | [d] =>
          obtain ⟨rfl, -⟩ := List.cons.inj hmore
          exact hfew ⟨rfl, Or.inr rfl⟩
        | d :: d' :: ds =>
          obtain ⟨rfl, htwo⟩ := List.cons.inj hmore
          obtain ⟨rfl, -⟩ := List.cons.inj htwo
          exact hquotes ds rfl rfl
  | case4 => decide

/-! ## Three quotes in a row -/

/-- What begins with double quotes did so before. -/
theorem quotes_prefix_replaceTripleQuotes {n : Nat}
    (h : List.replicate n '"' <+: replaceTripleQuotes cs) : List.replicate n '"' <+: cs := by
  induction cs using replaceTripleQuotes.induct generalizing n with
  | case1 cs ih =>
    cases n with
    | zero => exact List.nil_prefix
    | succ n => exact absurd (List.cons_prefix_cons.mp h).1 (by decide)
  | case2 c cs hrun ih =>
    rw [replaceTripleQuotes.eq_2 c cs hrun] at h
    cases n with
    | zero => exact List.nil_prefix
    | succ n =>
      obtain ⟨hc, htail⟩ := List.cons_prefix_cons.mp h
      exact List.cons_prefix_cons.mpr ⟨hc, ih htail⟩
  | case3 => exact h

theorem eq_of_mem_quotes (h : c ∈ quotes) : c = '"' :=
  List.eq_of_mem_replicate (n := 3) h

theorem quotes_infix_cons (hc : c ≠ '"') (h : quotes <:+: c :: cs) : quotes <:+: cs :=
  (List.infix_cons_iff.mp h).resolve_left fun hhead =>
    hc (List.cons_prefix_cons.mp hhead).1.symm

theorem not_quotes_infix_replaceTripleQuotes (cs : List Char) :
    ¬ quotes <:+: replaceTripleQuotes cs := by
  induction cs using replaceTripleQuotes.induct with
  | case1 cs ih =>
    intro h
    have htwo := quotes_infix_cons (by decide) h
    have hone := quotes_infix_cons (by decide) htwo
    exact ih (quotes_infix_cons (by decide) hone)
  | case2 c cs hrun ih =>
    rw [replaceTripleQuotes.eq_2 c cs hrun, List.infix_cons_iff]
    rintro (hhead | htail)
    · obtain ⟨rfl, hnext⟩ := List.cons_prefix_cons.mp hhead
      obtain ⟨ds, rfl⟩ := quotes_prefix_replaceTripleQuotes (n := 2) hnext
      exact hrun ds rfl rfl
    · exact ih htail
  | case3 => decide

/-- Three quotes in a row do not go on over another character. -/
theorem quotes_infix_append_cons (hc : c ≠ '"') (h : quotes <:+: cs ++ c :: ds) :
    quotes <:+: cs ∨ quotes <:+: ds := by
  rcases List.infix_append_iff.mp h with hcs | htail | ⟨front, back, heq, hfront, hback⟩
  · exact Or.inl hcs
  · exact Or.inr (quotes_infix_cons hc htail)
  · cases back with
    | nil => exact Or.inl (heq.trans (List.append_nil front) ▸ hfront.isInfix)
    | cons d back =>
      obtain ⟨rfl, -⟩ := List.cons_prefix_cons.mp hback
      have hmem : d ∈ quotes := heq ▸ List.mem_append_right front List.mem_cons_self
      exact absurd (eq_of_mem_quotes hmem) hc

/-- Of lines put together, one has the three quotes in a row. -/
theorem quotes_infix_intercalate {lines : List (List Char)}
    (h : quotes <:+: ['\n'].intercalate lines) : ∃ line ∈ lines, quotes <:+: line := by
  induction lines with
  | nil => exact absurd h (by decide)
  | cons line lines ih =>
    cases lines with
    | nil =>
      rw [List.intercalate_singleton] at h
      exact ⟨line, List.mem_singleton_self line, h⟩
    | cons next lines =>
      rw [List.intercalate_cons_cons, List.append_assoc, List.singleton_append] at h
      rcases quotes_infix_append_cons (by decide) h with hline | hrest
      · exact ⟨line, List.mem_cons_self, hline⟩
      · obtain ⟨other, hmem, hother⟩ := ih hrest
        exact ⟨other, List.mem_cons_of_mem _ hmem, hother⟩

/-- Each of the lines is a part of what is put together from them. -/
theorem infix_intercalate {line : List Char} {lines : List (List Char)} (h : line ∈ lines) :
    line <:+: ['\n'].intercalate lines := by
  induction lines with
  | nil => exact absurd h List.not_mem_nil
  | cons first lines ih =>
    cases lines with
    | nil =>
      rw [List.intercalate_singleton, List.mem_singleton.mp h]
    | cons next lines =>
      rw [List.intercalate_cons_cons]
      rcases List.mem_cons.mp h with rfl | hmem
      · exact (List.prefix_append _ _).isInfix.trans (List.prefix_append _ _).isInfix
      · exact (ih hmem).trans (List.suffix_append _ _).isInfix

theorem quotes_infix_marginLine {margin : Nat} {line : List Char}
    (h : quotes <:+: marginLine (List.replicate margin ' ') line) : quotes <:+: line := by
  rw [marginLine] at h
  split at h
  · exact absurd h (by decide)
  · induction margin with
    | zero => exact h
    | succ margin ih => exact ih (quotes_infix_cons (by decide) h)

/-! ## The literal of a documentation text -/

/-- Between the two lines of quotes, with the line feeds and the margin. -/
def betweenQuotes (text : List Char) (margin : Nat) : List Char :=
  '\n' :: ['\n'].intercalate ((splitOn '\n' text).map (marginLine (List.replicate margin ' '))) ++
    '\n' :: List.replicate margin ' '

theorem not_quotes_infix_betweenQuotes {text : List Char} (margin : Nat)
    (hrun : ¬ quotes <:+: text) : ¬ quotes <:+: betweenQuotes text margin := by
  intro h
  rcases quotes_infix_append_cons (by decide) h with hlines | hmargin
  · obtain ⟨line, hline, hquotes⟩ :=
      quotes_infix_intercalate (quotes_infix_cons (by decide) hlines)
    obtain ⟨piece, hpiece, rfl⟩ := List.mem_map.mp hline
    refine hrun ((quotes_infix_marginLine hquotes).trans ?_)
    have hinfix := infix_intercalate hpiece
    rwa [intercalate_splitOn] at hinfix
  · have hquote : '"' ∈ List.replicate margin ' ' := hmargin.subset List.mem_cons_self
    exact absurd (List.eq_of_mem_replicate hquote) (by decide)

theorem not_endsOpen_betweenQuotes (text : List Char) (margin : Nat) :
    ¬ EndsOpen (betweenQuotes text margin) := by
  refine not_endsOpen_append (List.cons_ne_nil _ _) fun c hc => ?_
  rcases List.mem_cons.mp hc with rfl | hspace
  · decide
  · rw [List.eq_of_mem_replicate hspace]
    decide

/-- The text stays on the line of its quotes. -/
def OnOneLine (text : List Char) (margin : Nat) : Prop :=
  '\n' ∉ text ∧ text.length + margin + 6 ≤ 99

instance (text : List Char) (margin : Nat) : Decidable (OnOneLine text margin) :=
  inferInstanceAs (Decidable (_ ∧ _))

theorem docLines_of_onOneLine {margin : Nat} (h : OnOneLine (docText cs) margin) :
    docLines cs margin = [List.replicate margin ' ' ++ quotes ++ docText cs ++ quotes] := by
  obtain ⟨hline, hfits⟩ := h
  simp only [docLines]
  rw [if_pos (by simp [hline, hfits])]
  rfl

theorem intercalate_concat {lines : List (List Char)} (hne : lines ≠ []) (line : List Char) :
    ['\n'].intercalate (lines ++ [line]) = ['\n'].intercalate lines ++ '\n' :: line := by
  induction lines with
  | nil => exact absurd rfl hne
  | cons first lines ih =>
    cases lines with
    | nil =>
      rw [List.singleton_append, List.intercalate_cons_cons, List.intercalate_singleton,
        List.intercalate_singleton, List.append_assoc, List.singleton_append]
    | cons next lines =>
      rw [List.cons_append, List.cons_append, List.intercalate_cons_cons, ← List.cons_append,
        ih (List.cons_ne_nil _ _), List.intercalate_cons_cons, List.append_assoc, List.append_assoc,
        List.append_assoc]

theorem intercalate_docLines {margin : Nat} (h : ¬ OnOneLine (docText cs) margin) :
    ['\n'].intercalate (docLines cs margin) =
      List.replicate margin ' ' ++ quotes ++ (betweenQuotes (docText cs) margin ++ quotes) := by
  have hlines : docLines cs margin = (List.replicate margin ' ' ++ quotes) ::
      (splitOn '\n' (docText cs)).map (marginLine (List.replicate margin ' ')) ++
        [List.replicate margin ' ' ++ quotes] := by
    simp only [docLines]
    rw [if_neg (by simpa [OnOneLine] using h)]
    rfl
  obtain ⟨piece, pieces, hpieces⟩ :=
    List.exists_cons_of_ne_nil (splitOn_ne_nil '\n' (docText cs))
  rw [hlines, intercalate_concat (List.cons_ne_nil _ _), betweenQuotes, hpieces, List.map_cons,
    List.intercalate_cons_cons]
  simp only [List.append_assoc, List.cons_append, List.nil_append]

/-- The lines of a documentation text are one literal, unless the text stands on the line of its
quotes and ends open. -/
theorem isQuotation_docLines_iff (cs : List Char) (margin : Nat) :
    isQuotation (['\n'].intercalate (docLines cs margin)) = true ↔
      ¬ (OnOneLine (docText cs) margin ∧ EndsOpen (docText cs)) := by
  have hrun : ¬ quotes <:+: docText cs := not_quotes_infix_replaceTripleQuotes (trim cs)
  by_cases h : OnOneLine (docText cs) margin
  · rw [docLines_of_onOneLine h, List.intercalate_singleton, List.append_assoc,
      isQuotation_quotes, behindQuotes?_append_quotes hrun]
    simp only [h, true_and]
  · rw [intercalate_docLines h, isQuotation_quotes,
      behindQuotes?_append_quotes (not_quotes_infix_betweenQuotes margin hrun)]
    simp only [h, false_and, not_false_eq_true, not_endsOpen_betweenQuotes]

theorem prefix_spaced (blank : Nat) (group : List String) (groups : List (List String)) :
    group <+: spaced blank (group :: groups) := by
  cases groups with
  | nil => exact List.prefix_rfl
  | cons next groups =>
    rw [spaced.eq_3 blank group _ (List.cons_ne_nil next groups), List.append_assoc]
    exact List.prefix_append _ _

/-- What is written for a documentation text at any margin is spaces and one literal that goes to
the end of the lines, unless the text stands on the line of its quotes and ends in a quote or a
backslash that nothing escapes. The class of an entity begins with what is written for its
documentation. -/
theorem isQuotation_documentation_iff (text : String) (level size : Int) (e : Entity) :
    (isQuotation ("\n".intercalate (docstringAt text level size)).toList = true ↔
      ¬ (OnOneLine (docText text.toList) (level * size).toNat ∧ EndsOpen (docText text.toList))) ∧
    ∃ c, (Package.entityModule e).classes = [c] ∧
      c.head :: docstringAt ((nonEmpty? e.doc).getD s!"Row of ``{e.fullTable}``.") 1 levelWidth <+:
        c.lines := by
  refine ⟨?_, ⟨_, rfl, ?_⟩⟩
  · have hchars : ("\n".intercalate (docstringAt text level size)).toList =
        ['\n'].intercalate (docLines text.toList (level * size).toNat) := by
      rw [docstringAt, docstring, String.toList_intercalate, List.map_map]
      simp only [Function.comp_def, String.toList_ofList, List.map_id']
      rfl
    rw [hchars, isQuotation_docLines_iff]
  · exact List.cons_prefix_cons.mpr ⟨rfl, prefix_spaced 1 _ _⟩

/-- The quote at the end of a text ends the literal too early, and the backslash at the end of a
text takes one of the quotes that are to end it. -/
theorem quoted_word_not_isQuotation :
    isQuotation ("\n".intercalate (docstringAt "Say \"hi\"" 1 4)).toList = false ∧
      isQuotation ("\n".intercalate (docstringAt "Kept in C:\\" 1 4)).toList = false := by
  decide

end EntityForge.Source
