import EntityForge.Proofs.Split
import Mathlib.Data.List.DropRight

/-!
# Snake case by substitutions

The snake-case form of a name also comes about by substitutions, each of which goes through the
text from left to right: two part words with an underscore, one puts underscores in the places of
all other characters, one joins underscores that follow each other, and what is left of them at the
ends is dropped. A substitution passes over what it has replaced. What is shown of each is that this
does not matter: it does at every place what the place and the next two characters tell. Put
together, the substitutions leave the words of the name with single underscores between them.
-/

namespace EntityForge.Text

/-! ## Substitutions -/

/-- What a pattern finds at the front of a text: how many characters it takes behind the first one,
and what is put in the place of all that it takes. -/
abbrev Finder := List Char → Option (Nat × List Char)

/-- The text with everything that a pattern finds replaced, from left to right. The first characters
are passed over as far as they belong to a match that is replaced already. -/
def substituteFrom (find : Finder) : Nat → List Char → List Char
  | _, [] => []
  | taken + 1, _ :: cs => substituteFrom find taken cs
  | 0, c :: cs =>
    match find (c :: cs) with
    | none => c :: substituteFrom find 0 cs
    | some (taken, replacement) => replacement ++ substituteFrom find taken cs

/-- The text with everything that a pattern finds replaced. -/
def substitute (find : Finder) (cs : List Char) : List Char := substituteFrom find 0 cs

/-- Capitals, as many as there can be, with a capital and a small letter behind them: the word that
begins with the last capital is parted from the others. -/
def lastCapital : Finder := fun cs =>
  (List.range (cs.takeWhile Char.isUpper).length).reverse.findSome? fun n =>
    match cs.drop (n + 1) with
    | d :: d' :: _ =>
      if d.isUpper && d'.isLower then some (n + 2, cs.take (n + 1) ++ ['_', d, d']) else none
    | _ => none

/-- A capital behind a small letter or a digit is parted from it. -/
def laterCapital : Finder
  | c :: d :: _ => if (c.isLower || c.isDigit) && d.isUpper then some (1, [c, '_', d]) else none
  | _ => none

/-- A character that no word keeps becomes an underscore. -/
def foreign : Finder
  | c :: _ => if isWordChar c then none else some (0, ['_'])
  | [] => none

/-- Several underscores become one. -/
def repeated : Finder := fun cs =>
  let n := (cs.takeWhile (· = '_')).length
  if 2 ≤ n then some (n - 1, ['_']) else none

/-- The text without underscores at its ends. -/
def stripped (cs : List Char) : List Char := (cs.dropWhile (· = '_')).rdropWhile (· = '_')

/-- The snake-case form of a name, by one substitution after another. -/
def substituted (cs : List Char) : List Char :=
  (stripped (substitute repeated (substitute foreign (substitute laterCapital
    (substitute lastCapital cs))))).map Char.toLower

/-- What a match has taken is passed over. -/
theorem substituteFrom_append (find : Finder) (taken rest : List Char) :
    substituteFrom find taken.length (taken ++ rest) = substitute find rest := by
  induction taken with
  | nil => rfl
  | cons c taken ih => exact ih

/-- A substitution is a function that goes along with what the pattern finds: past a match it does
what the match is replaced with, and elsewhere it keeps the first character. -/
theorem substitute_eq {find : Finder} {g : List Char → List Char} (hnil : g [] = [])
    (hstep : ∀ c cs, (find (c :: cs) = none ∧ g (c :: cs) = c :: g cs) ∨
      ∃ taken rest replacement, cs = taken ++ rest ∧
        find (c :: cs) = some (taken.length, replacement) ∧
        g (c :: cs) = replacement ++ g rest) (cs : List Char) :
    substitute find cs = g cs := by
  induction h : cs.length using Nat.strongRecOn generalizing cs with
  | ind n ih =>
    cases cs with
    | nil => exact hnil.symm
    | cons c cs =>
      rw [substitute, substituteFrom]
      rcases hstep c cs with ⟨hfind, hg⟩ | ⟨taken, rest, replacement, rfl, hfind, hg⟩
      · have hshorter : cs.length < n := by
          rw [← h, List.length_cons]
          omega
        rw [hfind, hg]
        exact congrArg (c :: ·) (ih cs.length hshorter cs rfl)
      · have hshorter : rest.length < n := by
          rw [← h, List.length_cons, List.length_append]
          omega
        simp only [hfind]
        rw [substituteFrom_append, hg, ih rest.length hshorter rest rfl]

/-! ## Parting words -/

/-- The text with an underscore in front of every character that starts a word. -/
def parted (starts : Char → Char → Option Char → Bool) : List Char → List Char
  | [] => []
  | [c] => [c]
  | c :: d :: cs =>
    if starts c d cs.head? then c :: '_' :: parted starts (d :: cs)
    else c :: parted starts (d :: cs)

/-- The last capital of several starts a word if a small letter follows. -/
def startsLast (c d : Char) (next : Option Char) : Bool :=
  c.isUpper && d.isUpper && next.any Char.isLower

/-- A capital behind a small letter or a digit starts a word. -/
def startsLater (c d : Char) (_ : Option Char) : Bool := (c.isLower || c.isDigit) && d.isUpper

variable {starts : Char → Char → Option Char → Bool} {c d : Char} {cs : List Char}

/-- A character stays as it is in front of one that starts no word. -/
theorem parted_cons (h : ∀ d rest, cs = d :: rest → starts c d rest.head? = false) :
    parted starts (c :: cs) = c :: parted starts cs := by
  cases cs with
  | nil => rfl
  | cons d rest => rw [parted, h d rest rfl, if_neg Bool.false_ne_true]

/-- The first character stays the first. -/
theorem exists_parted_cons (starts : Char → Char → Option Char → Bool) (c : Char)
    (cs : List Char) : ∃ rest, parted starts (c :: cs) = c :: rest := by
  cases cs with
  | nil => exact ⟨[], rfl⟩
  | cons d cs =>
    rw [parted]
    split
    · exact ⟨_, rfl⟩
    · exact ⟨_, rfl⟩

/-- No small letter and no digit is a capital. -/
theorem not_isUpper_of_isLower_or_isDigit (h : c.isLower = true ∨ c.isDigit = true) :
    c.isUpper = false := by
  rw [isLower_iff, isDigit_iff] at h
  rw [← Bool.not_eq_true, isUpper_iff]
  omega

/-- Behind a capital nothing starts a word by standing behind a small letter or a digit. -/
theorem startsLater_of_isUpper (h : c.isUpper = true) (d : Char) (next : Option Char) :
    startsLater c d next = false := by
  have hsmall : ¬ (c.isLower || c.isDigit) = true := by
    rw [Bool.or_eq_true]
    exact fun hc => Bool.noConfusion (h.symm.trans (not_isUpper_of_isLower_or_isDigit hc))
  rw [startsLater, Bool.eq_false_iff.mpr hsmall, Bool.false_and]

theorem startsLast_of_not_isUpper (h : c.isUpper = false) (d : Char) (next : Option Char) :
    startsLast c d next = false := by
  simp only [startsLast, h, Bool.false_and]

/-- Of capitals with a capital and a small letter behind them, that capital starts a word. -/
theorem parted_capitals {capitals : List Char} (hne : capitals ≠ [])
    (hcapitals : ∀ c ∈ capitals, c.isUpper = true) {d d' : Char} (hd : d.isUpper = true)
    (hd' : d'.isLower = true) (rest : List Char) :
    parted startsLast (capitals ++ d :: d' :: rest) =
      capitals ++ ['_', d, d'] ++ parted startsLast rest := by
  have hsmall : d'.isUpper = false := not_isUpper_of_isLower_or_isDigit (Or.inl hd')
  have hbehind : parted startsLast (d :: d' :: rest) = d :: d' :: parted startsLast rest := by
    rw [parted_cons, parted_cons]
    · exact fun e _ _ => startsLast_of_not_isUpper hsmall e _
    · rintro e _ heq
      obtain ⟨rfl, -⟩ := List.cons.inj heq
      simp only [startsLast, hsmall, Bool.and_false, Bool.false_and]
  induction capitals with
  | nil => exact absurd rfl hne
  | cons c capitals ih =>
    obtain ⟨hc, hcapitals⟩ := List.forall_mem_cons.mp hcapitals
    cases capitals with
    | nil =>
      have hstarts : startsLast c d (d' :: rest).head? = true := by
        simp [startsLast, hc, hd, hd']
      rw [List.singleton_append, parted, hstarts, if_pos rfl, hbehind]
      rfl
    | cons c' capitals =>
      -- Behind the next capital stands another one.
      obtain ⟨e, es, hes, he⟩ : ∃ e es, capitals ++ d :: d' :: rest = e :: es ∧
          e.isUpper = true := by
        cases capitals with
        | nil => exact ⟨d, _, rfl, hd⟩
        | cons e es => exact ⟨e, _, rfl, hcapitals e (by simp)⟩
      have hstarts : startsLast c c' (capitals ++ d :: d' :: rest).head? = false := by
        have hlower : e.isLower = false := by
          rw [← Bool.not_eq_true]
          exact fun h => Bool.noConfusion
            (he.symm.trans (not_isUpper_of_isLower_or_isDigit (Or.inl h)))
        simp [startsLast, hes, hlower]
      rw [List.cons_append, List.cons_append, parted, hstarts, if_neg Bool.false_ne_true,
        ← List.cons_append, ih (List.cons_ne_nil _ _) hcapitals]
      rfl

/-- What is found are capitals in front of a capital and a small letter. -/
theorem exists_of_lastCapital {found : Nat × List Char} (h : lastCapital cs = some found) :
    ∃ capitals d d' rest, cs = capitals ++ d :: d' :: rest ∧
      (∀ c ∈ capitals, c.isUpper = true) ∧ capitals ≠ [] ∧ d.isUpper = true ∧
      d'.isLower = true ∧ found = (capitals.length + 1, capitals ++ ['_', d, d']) := by
  obtain ⟨n, hn, hfound⟩ := List.exists_of_findSome?_eq_some h
  rw [List.mem_reverse, List.mem_range] at hn
  split at hfound
  · rename_i d d' rest hdrop
    split at hfound
    · rename_i hletters
      cases hfound
      obtain ⟨hd, hd'⟩ := Bool.and_eq_true_iff.mp hletters
      have hlength : (cs.take (n + 1)).length = n + 1 := by
        have hbehind := congrArg List.length hdrop
        rw [List.length_drop, List.length_cons] at hbehind
        rw [List.length_take]
        omega
      have hcapitals : cs.take (n + 1) <+: cs.takeWhile Char.isUpper :=
        List.prefix_of_prefix_length_le (List.take_prefix _ _) (List.takeWhile_prefix _)
          (le_of_eq_of_le hlength hn)
      refine ⟨cs.take (n + 1), d, d', rest, ?_,
        fun e he => List.all_eq_true.mp List.all_takeWhile e (hcapitals.subset he),
        List.ne_nil_of_length_eq_add_one hlength, hd, hd', by rw [hlength]⟩
      rw [← hdrop, List.take_append_drop]
    · cases hfound
  · cases hfound

/-- Parting at the last of several capitals is a substitution. -/
theorem substitute_lastCapital (cs : List Char) :
    substitute lastCapital cs = parted startsLast cs := by
  refine substitute_eq rfl (fun c cs => ?_) cs
  cases hfind : lastCapital (c :: cs) with
  | none =>
    refine Or.inl ⟨rfl, parted_cons fun d rest hcs => ?_⟩
    rw [← Bool.not_eq_true]
    intro hstarts
    simp only [startsLast, Bool.and_eq_true, Option.any_eq_true] at hstarts
    obtain ⟨⟨hc, hd⟩, d', hnext, hd'⟩ := hstarts
    obtain ⟨rest, rfl⟩ := List.head?_eq_some_iff.mp hnext
    -- The first capital alone would have been found.
    have hone := List.findSome?_eq_none_iff.mp hfind 0 (by simp [hc])
    simp [hcs, hd, hd'] at hone
  | some found =>
    obtain ⟨capitals, d, d', rest, hcs, hcapitals, hne, hd, hd', rfl⟩ :=
      exists_of_lastCapital hfind
    obtain ⟨c', taken, rfl⟩ := List.exists_cons_of_ne_nil hne
    obtain ⟨rfl, rfl⟩ := List.cons.inj hcs
    refine Or.inr ⟨taken ++ [d, d'], rest, _, by simp, congrArg some (Prod.ext ?_ rfl), ?_⟩
    · simp
    · rw [hcs, parted_capitals hne hcapitals hd hd']

/-- Parting at a capital behind a small letter or a digit is a substitution. -/
theorem substitute_laterCapital (cs : List Char) :
    substitute laterCapital cs = parted startsLater cs := by
  refine substitute_eq rfl (fun c cs => ?_) cs
  cases cs with
  | nil => exact Or.inl ⟨rfl, rfl⟩
  | cons d rest =>
    by_cases h : startsLater c d rest.head? = true
    · have hd : d.isUpper = true := (Bool.and_eq_true_iff.mp h).2
      refine Or.inr ⟨[d], rest, [c, '_', d], rfl, if_pos h, ?_⟩
      rw [parted, if_pos h, parted_cons]
      · rfl
      · exact fun e _ _ => startsLater_of_isUpper hd e _
    · exact Or.inl ⟨if_neg h, by rw [parted, if_neg h]⟩

/-- A capital starts a word if it is the last of several in front of a small letter, or stands
behind a small letter or a digit. -/
theorem parted_parted (cs : List Char) :
    parted startsLater (parted startsLast cs) = parted startsWord cs := by
  induction cs with
  | nil => rfl
  | cons c cs ih =>
    cases cs with
    | nil => rfl
    | cons d cs =>
      obtain ⟨rest, hrest⟩ := exists_parted_cons startsLast d cs
      rw [parted, parted, ← ih]
      by_cases hlast : startsLast c d cs.head? = true
      · have hword : startsWord c d cs.head? = true := by
          simp only [startsLast, startsWord, Bool.and_eq_true, Bool.or_eq_true] at hlast ⊢
          exact ⟨hlast.1.2, Or.inr ⟨hlast.1.1, hlast.2⟩⟩
        rw [if_pos hlast, if_pos hword, hrest, parted_cons, parted_cons]
        · exact fun e _ _ => rfl
        · rintro e _ heq
          obtain ⟨rfl, -⟩ := List.cons.inj heq
          exact Bool.and_false _
      · have hword : startsWord c d cs.head? = startsLater c d rest.head? := by
          rw [startsLast, Bool.not_eq_true] at hlast
          rw [startsWord, startsLater]
          grind
        rw [if_neg hlast, hrest, parted, hword]

/-! ## Underscores -/

/-- A character that no word keeps gives way to an underscore. -/
def underscored (c : Char) : Char := if isWordChar c then c else '_'

theorem substitute_foreign (cs : List Char) : substitute foreign cs = cs.map underscored := by
  refine substitute_eq rfl (fun c cs => ?_) cs
  by_cases h : isWordChar c = true
  · exact Or.inl ⟨if_pos h, by rw [List.map_cons, underscored, if_pos h]⟩
  · exact Or.inr ⟨[], cs, ['_'], rfl, if_neg h, by rw [List.map_cons, underscored, if_neg h]; rfl⟩

/-- The text with one underscore in the place of several. -/
def squeezed : List Char → List Char
  | [] => []
  | c :: cs => if c = '_' then '_' :: (squeezed cs).dropWhile (· = '_') else c :: squeezed cs

theorem dropWhile_squeezed (cs : List Char) :
    (squeezed cs).dropWhile (· = '_') = squeezed (cs.dropWhile (· = '_')) := by
  induction cs with
  | nil => rfl
  | cons c cs ih =>
    by_cases hc : c = '_'
    · rw [squeezed, if_pos hc, List.dropWhile_cons_of_pos (by simp), List.dropWhile_idempotent, ih,
        List.dropWhile_cons_of_pos (by simp [hc])]
    · rw [squeezed, if_neg hc, List.dropWhile_cons_of_neg (by simp [hc]),
        List.dropWhile_cons_of_neg (by simp [hc]), squeezed, if_neg hc]

/-- Joining underscores that follow each other is a substitution. -/
theorem substitute_repeated (cs : List Char) : substitute repeated cs = squeezed cs := by
  refine substitute_eq rfl (fun c cs => ?_) cs
  by_cases hc : c = '_'
  · have hsqueezed : squeezed (c :: cs) = '_' :: squeezed (cs.dropWhile (· = '_')) := by
      rw [squeezed, if_pos hc, dropWhile_squeezed]
    have hlength : ((c :: cs).takeWhile (· = '_')).length =
        (cs.takeWhile (· = '_')).length + 1 := by
      rw [List.takeWhile_cons_of_pos (by simp [hc]), List.length_cons]
    have hcs := List.takeWhile_append_dropWhile (p := (· = '_')) (l := cs)
    cases htaken : cs.takeWhile (· = '_') with
    | nil =>
      rw [htaken, List.nil_append] at hcs
      refine Or.inl ⟨if_neg ?_, ?_⟩
      · rw [hlength, htaken]
        decide
      · rw [hsqueezed, hcs, hc]
    | cons d taken =>
      refine Or.inr ⟨d :: taken, cs.dropWhile (· = '_'), ['_'], ?_, ?_, hsqueezed⟩
      · rw [← htaken, hcs]
      · rw [repeated, hlength, htaken, if_pos (by simp), Nat.add_sub_cancel]
  · refine Or.inl ⟨if_neg ?_, by rw [squeezed, if_neg hc]⟩
    rw [List.takeWhile_cons_of_neg (by simp [hc])]
    decide

/-! ## Words between underscores -/

/-- What stands between the underscores of a text. -/
def betweenUnderscores (cs : List Char) : List (List Char) := (splitOn '_' cs).filter (· ≠ [])

theorem betweenUnderscores_underscore (cs : List Char) :
    betweenUnderscores ('_' :: cs) = betweenUnderscores cs := rfl

theorem betweenUnderscores_singleton (hc : c ≠ '_') : betweenUnderscores [c] = [[c]] := by
  rw [betweenUnderscores, splitOn, if_neg hc]
  rfl

/-- A character in front of an underscore is a word. -/
theorem betweenUnderscores_cons_underscore (hc : c ≠ '_') (cs : List Char) :
    betweenUnderscores (c :: '_' :: cs) = [c] :: betweenUnderscores cs := by
  rw [betweenUnderscores, splitOn, if_neg hc, splitOn, if_pos rfl]
  rfl

/-- A character in front of another one belongs to its word. -/
theorem betweenUnderscores_cons_cons (hc : c ≠ '_') (hd : d ≠ '_') (cs : List Char) :
    betweenUnderscores (c :: d :: cs) = prependToFirst c (betweenUnderscores (d :: cs)) := by
  rw [betweenUnderscores, betweenUnderscores, splitOn, if_neg hc, splitOn, if_neg hd]
  cases splitOn '_' cs with
  | nil => rfl
  | cons w ws => rfl

theorem intercalate_prependToFirst (sep : List Char) (c : Char) (ws : List (List Char)) :
    sep.intercalate (prependToFirst c ws) = c :: sep.intercalate ws := by
  cases ws with
  | nil => rfl
  | cons w ws =>
    cases ws with
    | nil => simp [prependToFirst]
    | cons v ws => simp [prependToFirst]

/-- Without the underscores in front, the text with single underscores is its words with
underscores between them, and at most underscores behind them. -/
theorem exists_dropWhile_squeezed (cs : List Char) : ∃ behind : List Char,
    (∀ c ∈ behind, c = '_') ∧ (squeezed cs).dropWhile (· = '_') =
      ['_'].intercalate (betweenUnderscores cs) ++ behind := by
  induction cs with
  | nil => exact ⟨[], nofun, rfl⟩
  | cons c cs ih =>
    obtain ⟨behind, hbehind, ih⟩ := ih
    by_cases hc : c = '_'
    · subst hc
      refine ⟨behind, hbehind, ?_⟩
      rw [squeezed, if_pos rfl, List.dropWhile_cons_of_pos (by simp), List.dropWhile_idempotent, ih,
        betweenUnderscores_underscore]
    · rw [squeezed, if_neg hc, List.dropWhile_cons_of_neg (by simp [hc])]
      cases cs with
      | nil => exact ⟨[], nofun, by rw [betweenUnderscores_singleton hc]; rfl⟩
      | cons d cs =>
        by_cases hd : d = '_'
        · subst hd
          rw [squeezed, if_pos rfl, List.dropWhile_cons_of_pos (by simp), List.dropWhile_idempotent,
            betweenUnderscores_underscore] at ih
          rw [squeezed, if_pos rfl, ih, betweenUnderscores_cons_underscore hc]
          cases betweenUnderscores cs with
          | nil =>
            exact ⟨'_' :: behind, List.forall_mem_cons.mpr ⟨rfl, hbehind⟩, by simp⟩
          | cons w ws => exact ⟨behind, hbehind, by simp⟩
        · refine ⟨behind, hbehind, ?_⟩
          rw [squeezed, if_neg hd, List.dropWhile_cons_of_neg (by simp [hd])] at ih
          rw [betweenUnderscores_cons_cons hc hd, intercalate_prependToFirst, List.cons_append,
            ← ih, squeezed, if_neg hd]

theorem map_intercalate (f : Char → Char) (sep : List Char) (ws : List (List Char)) :
    (sep.intercalate ws).map f = (sep.map f).intercalate (ws.map (·.map f)) := by
  induction ws with
  | nil => rfl
  | cons w ws ih =>
    cases ws with
    | nil => simp
    | cons v ws =>
      rw [List.intercalate_cons_cons, List.map_append, List.map_append, ih, List.map_cons,
        List.map_cons, List.map_cons, List.intercalate_cons_cons]

/-- Words with underscores between them end in the end of a word. -/
theorem exists_intercalate_eq_concat {ws : List (List Char)} (hne : ws ≠ [])
    (hws : ∀ w ∈ ws, w ≠ [] ∧ '_' ∉ w) :
    ∃ front e, e ≠ '_' ∧ ['_'].intercalate ws = front ++ [e] := by
  induction ws with
  | nil => exact absurd rfl hne
  | cons w ws ih =>
    obtain ⟨⟨hw, hmem⟩, hws⟩ := List.forall_mem_cons.mp hws
    cases ws with
    | nil =>
      refine ⟨w.dropLast, w.getLast hw, fun h => hmem (h ▸ List.getLast_mem hw), ?_⟩
      rw [List.intercalate_singleton, List.dropLast_concat_getLast]
    | cons v ws =>
      obtain ⟨front, e, he, heq⟩ := ih (List.cons_ne_nil v ws) hws
      exact ⟨w ++ '_' :: front, e, he, by rw [List.intercalate_cons_cons, heq]; simp⟩

/-- Without underscores at its ends, the text with single underscores is its words with underscores
between them. -/
theorem stripped_squeezed (cs : List Char) :
    stripped (squeezed cs) = ['_'].intercalate (betweenUnderscores cs) := by
  obtain ⟨behind, hbehind, hcs⟩ := exists_dropWhile_squeezed cs
  have hdrop : behind.reverse.dropWhile (· = '_') = [] :=
    List.dropWhile_eq_nil_iff.mpr fun c hc => decide_eq_true (hbehind c (List.mem_reverse.mp hc))
  rw [stripped, hcs, List.rdropWhile, List.reverse_append]
  by_cases hne : betweenUnderscores cs = []
  · simp [hne, hdrop]
  · have hws : ∀ w ∈ betweenUnderscores cs, w ≠ [] ∧ '_' ∉ w := fun w hw =>
      ⟨by simpa using (List.mem_filter.mp hw).2, not_mem_of_mem_splitOn (List.mem_filter.mp hw).1⟩
    obtain ⟨front, e, he, heq⟩ := exists_intercalate_eq_concat hne hws
    rw [List.dropWhile_append, hdrop, heq]
    simp [he]

theorem ne_underscore_of_isWordChar (h : isWordChar c = true) : c ≠ '_' := by
  rintro rfl
  exact Bool.noConfusion h

theorem underscored_of_isWordChar (h : isWordChar c = true) : underscored c = c := if_pos h

theorem underscored_of_not_isWordChar (h : ¬ isWordChar c = true) : underscored c = '_' := if_neg h

/-- A word starts between characters of words. -/
theorem isWordChar_of_startsWord {next : Option Char} (h : startsWord c d next = true) :
    isWordChar c = true ∧ isWordChar d = true := by
  rw [startsWord, Bool.and_eq_true, Bool.or_eq_true, Bool.or_eq_true, isUpper_iff, isLower_iff,
    isDigit_iff, Bool.and_eq_true, isUpper_iff] at h
  rw [isWordChar, isWordChar, isAlphanum_iff, isAlphanum_iff]
  obtain ⟨hd, hc⟩ := h
  refine ⟨?_, Or.inl hd⟩
  rcases hc with (hlower | hdigit) | ⟨hupper, -⟩
  · exact Or.inr (Or.inl hlower)
  · exact Or.inr (Or.inr hdigit)
  · exact Or.inl hupper

/-- The words between the underscores of a text with its words parted are those of the text. -/
theorem betweenUnderscores_parted (cs : List Char) :
    betweenUnderscores ((parted startsWord cs).map underscored) = nameWords cs := by
  fun_induction nameWords cs with
  | case1 => rfl
  | case2 c hc =>
    rw [parted, List.map_singleton, underscored_of_isWordChar hc,
      betweenUnderscores_singleton (ne_underscore_of_isWordChar hc)]
  | case3 c hc d rest h ih =>
    rw [Bool.and_eq_true, Bool.not_eq_true'] at h
    obtain ⟨more, hmore⟩ := exists_parted_cons startsWord d rest
    rw [hmore, List.map_cons, underscored_of_isWordChar h.1] at ih
    rw [parted, if_neg (Bool.eq_false_iff.mp h.2), hmore, List.map_cons, List.map_cons,
      underscored_of_isWordChar hc, underscored_of_isWordChar h.1, betweenUnderscores_cons_cons
      (ne_underscore_of_isWordChar hc) (ne_underscore_of_isWordChar h.1), ih]
  | case4 c hc d rest h ih =>
    by_cases hd : isWordChar d = true
    · have hstarts : startsWord c d rest.head? = true := by simpa [hd] using h
      rw [parted, if_pos hstarts, List.map_cons, List.map_cons, underscored_of_isWordChar hc]
      exact (betweenUnderscores_cons_underscore (ne_underscore_of_isWordChar hc) _).trans
        (congrArg ([c] :: ·) ih)
    · have hstarts : ¬ startsWord c d rest.head? = true := fun hs =>
        hd (isWordChar_of_startsWord hs).2
      obtain ⟨more, hmore⟩ := exists_parted_cons startsWord d rest
      rw [hmore, List.map_cons, underscored_of_not_isWordChar hd] at ih
      rw [parted, if_neg hstarts, hmore, List.map_cons, List.map_cons,
        underscored_of_isWordChar hc, underscored_of_not_isWordChar hd,
        betweenUnderscores_cons_underscore (ne_underscore_of_isWordChar hc), ← ih]
      rfl
  | case5 c cs hc ih =>
    have hparted : parted startsWord (c :: cs) = c :: parted startsWord cs :=
      parted_cons fun d rest _ => Bool.eq_false_iff.mpr fun hs =>
        hc (isWordChar_of_startsWord hs).1
    rw [hparted, List.map_cons, underscored_of_not_isWordChar hc, betweenUnderscores_underscore, ih]

/-- The snake-case form of a name comes about by substitutions. -/
theorem substituted_eq (cs : List Char) : substituted cs = snakeChars cs := by
  rw [substituted, substitute_lastCapital, substitute_laterCapital, parted_parted,
    substitute_foreign, substitute_repeated, stripped_squeezed, betweenUnderscores_parted,
    snakeChars, map_intercalate, List.map_singleton]
  rfl

end EntityForge.Text
