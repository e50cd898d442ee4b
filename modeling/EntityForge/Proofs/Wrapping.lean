import EntityForge.FieldType.Parse
import EntityForge.Proofs.Name
import Mathlib.Data.List.Induction
import Mathlib.Data.List.TakeWhile

/-!
# What a written field type denotes

A written field type is a leaf inside wrappers, each with brackets of its own. The reader looks for
the first opening bracket of a kind and for a closing one at the end of the text. So it finds those
of the outermost wrapper: nothing in front of its arguments is a bracket, and a text in brackets of
one kind does not end in a bracket of the other. What it goes on with is the text inside without the
blanks around it, which is a leaf inside one wrapper less; by induction on the wrappers it sees them
all, down to the leaf. Only where an array of `u8` is innermost does it stop before.
-/

namespace EntityForge

/-! ## Blanks around a text -/

namespace Text

/-- The text neither begins nor ends with a blank. -/
structure Tight (cs : List Char) : Prop where
  front : cs.head?.any isBlank = false
  back : cs.getLast?.any isBlank = false

instance (cs : List Char) : Decidable (Tight cs) :=
  decidable_of_iff (cs.head?.any isBlank = false ∧ cs.getLast?.any isBlank = false)
    ⟨fun h => ⟨h.1, h.2⟩, fun h => ⟨h.front, h.back⟩⟩

variable {before cs after : List Char}

/-- Trimming takes the blanks around a text away, and nothing of the text. -/
theorem Tight.trim_eq (h : Tight cs) (hne : cs ≠ []) (hbefore : isAllBlank before = true)
    (hafter : isAllBlank after = true) : trim (before ++ cs ++ after) = cs := by
  have hleft : trimLeft (before ++ cs ++ after) = cs ++ after := by
    obtain ⟨c, rest, rfl⟩ := List.exists_cons_of_ne_nil hne
    have hc : isBlank c = false := h.front
    rw [trimLeft, List.append_assoc, List.dropWhile_append_of_pos (List.all_eq_true.mp hbefore),
      List.cons_append, List.dropWhile_cons_of_neg (by simp [hc])]
  have hright : trimRight (cs ++ after) = cs := by
    have hreverse : ∀ c ∈ after.reverse, isBlank c = true := fun c hc =>
      List.all_eq_true.mp hafter c (List.mem_reverse.mp hc)
    obtain ⟨rest, c, rfl⟩ : ∃ rest c, rest ++ [c] = cs :=
      ⟨_, _, List.dropLast_concat_getLast hne⟩
    have hc : isBlank c = false := by simpa using h.back
    rw [trimRight, List.reverse_append, List.dropWhile_append_of_pos hreverse,
      List.reverse_concat, List.dropWhile_cons_of_neg (by simp [hc]),
      ← List.reverse_concat, List.reverse_reverse]
  rw [trim, hleft, hright]

theorem Tight.trim_self (h : Tight cs) (hne : cs ≠ []) : trim cs = cs := by
  have htrim := @trim_eq [] cs [] h hne rfl rfl
  rwa [List.nil_append, List.append_nil] at htrim

end Text

namespace FieldType

open Text

/-! ## Paths -/

/-- A name behind a path, of which every segment is followed by `::`. -/
def qualified (path : List (List Char)) (name : List Char) : List Char :=
  path.foldr (fun segment rest => segment ++ ':' :: ':' :: rest) name

theorem hasSeparator_append (cs rest : List Char) :
    lastSegment.hasSeparator (cs ++ ':' :: ':' :: rest) = true := by
  induction cs with
  | nil => rfl
  | cons c cs ih =>
    rw [List.cons_append]
    unfold lastSegment.hasSeparator
    split
    · rfl
    · rename_i heq
      cases heq
      exact ih
    · rename_i heq
      cases heq

/-- A character is dropped from the front when a separator comes later than with it. -/
theorem lastSegment_cons {c : Char} {cs : List Char} (hcs : lastSegment.hasSeparator cs = true)
    (hc : ∀ rest, c = ':' → cs ≠ ':' :: rest) : lastSegment (c :: cs) = lastSegment cs := by
  rw [lastSegment, if_pos hcs]
  exact fun rest hcolon hrest => hc rest hcolon hrest

/-- What stands in front of a separator is no part of the last segment. A colon in front of it would
make up a separator with its first colon, and is excluded. -/
theorem lastSegment_append (segment rest : List Char) (h : segment.getLast? ≠ some ':') :
    lastSegment (segment ++ ':' :: ':' :: rest) = lastSegment rest := by
  induction segment using List.twoStepInduction with
  | nil => rfl
  | singleton c =>
    have hc : c ≠ ':' := fun hc => h (by rw [hc]; rfl)
    have hrest : lastSegment.hasSeparator (':' :: ':' :: rest) = true := rfl
    exact lastSegment_cons hrest fun _ hcolon => absurd hcolon hc
  | cons_cons c d segment ih ihd =>
    by_cases hcolons : c = ':' ∧ d = ':'
    · obtain ⟨rfl, rfl⟩ := hcolons
      have hsegment : segment.getLast? ≠ some ':' := by
        cases segment with
        | nil => exact absurd rfl h
        | cons e segment => simpa using h
      exact ih hsegment
    · have hd : (d :: segment).getLast? ≠ some ':' := by simpa using h
      rw [List.cons_append, lastSegment_cons (hasSeparator_append (d :: segment) rest), ihd d hd]
      intro tail hc htail
      exact hcolons ⟨hc, (List.cons.inj htail).1⟩

/-- The last segment of a name behind a path is that of the name. -/
theorem lastSegment_qualified {path : List (List Char)} {name : List Char}
    (h : ∀ segment ∈ path, segment.getLast? ≠ some ':') :
    lastSegment (qualified path name) = lastSegment name := by
  induction path with
  | nil => rfl
  | cons segment path ih =>
    rw [List.forall_mem_cons] at h
    exact (lastSegment_append segment _ h.1).trans (ih h.2)

/-! ## Brackets -/

section Brackets

/-- A kind of brackets. -/
inductive Bracket where
  | angle | square
  deriving DecidableEq

namespace Bracket

def opening : Bracket → Char
  | angle => '<'
  | square => '['

def closing : Bracket → Char
  | angle => '>'
  | square => ']'

/-- A text in brackets. -/
def enclose (b : Bracket) (cs : List Char) : List Char := b.opening :: (cs ++ [b.closing])

end Bracket

def isBracket (c : Char) : Bool := ['<', '>', '[', ']'].contains c

/-- The text holds no bracket of either kind. -/
def BracketFree (cs : List Char) : Prop := cs.any isBracket = false

instance (cs : List Char) : Decidable (BracketFree cs) := inferInstanceAs (Decidable (_ = _))

variable {b : Bracket} {head cs inner : List Char}

theorem BracketFree.opening_not_mem (h : BracketFree cs) (b : Bracket) : b.opening ∉ cs :=
  fun hb => List.any_eq_false.mp h _ hb (by cases b <;> rfl)

theorem BracketFree.closing_not_mem (h : BracketFree cs) (b : Bracket) : b.closing ∉ cs :=
  fun hb => List.any_eq_false.mp h _ hb (by cases b <;> rfl)

theorem bracketFree_qualified {path : List (List Char)} {name : List Char}
    (hpath : ∀ segment ∈ path, BracketFree segment) (hname : BracketFree name) :
    BracketFree (qualified path name) := by
  induction path with
  | nil => exact hname
  | cons segment path ih =>
    rw [List.forall_mem_cons] at hpath
    have hcolon : isBracket ':' = false := rfl
    have hsegment : segment.any isBracket = false := hpath.1
    have hrest : (qualified path name).any isBracket = false := ih hpath.2
    show (segment ++ ':' :: ':' :: qualified path name).any isBracket = false
    simp only [List.any_append, List.any_cons, hsegment, hcolon, hrest, Bool.or_false]

theorem getLast?_enclose : (head ++ b.enclose cs).getLast? = some b.closing := by
  have hconcat : head ++ b.enclose cs = (head ++ b.opening :: cs) ++ [b.closing] := by
    rw [Bracket.enclose, List.append_assoc, List.cons_append]
  rw [hconcat, List.getLast?_concat]

theorem tight_enclose (h : Tight head) (hne : head ≠ []) : Tight (head ++ b.enclose cs) := by
  constructor
  · obtain ⟨c, rest, rfl⟩ := List.exists_cons_of_ne_nil hne
    exact h.front
  · rw [getLast?_enclose]
    cases b <;> rfl

/-- The arguments behind a name are what its brackets hold. -/
theorem insideBrackets?_enclose (h : b.opening ∉ head) (hne : head ≠ []) :
    insideBrackets? b.opening b.closing (head ++ b.enclose inner) =
      some (trim head, trim inner) := by
  have hlast : (inner ++ [b.closing]).getLast? = some b.closing := List.getLast?_concat
  simp only [insideBrackets?, Bracket.enclose, takeWhile_append_of_not_mem h,
    dropWhile_append_of_not_mem h]
  rw [if_pos ⟨hne, hlast⟩, List.dropLast_concat]

theorem insideBrackets?_of_not_mem {opening closing : Char} (h : opening ∉ cs) :
    insideBrackets? opening closing cs = none := by
  have hdrop : cs.dropWhile (· ≠ opening) = [] :=
    List.dropWhile_eq_nil_iff.mpr fun c hc => decide_eq_true fun heq => h (heq ▸ hc)
  simp only [insideBrackets?, hdrop]

/-- A text that does not end in the closing bracket has no arguments in these brackets. -/
theorem insideBrackets?_of_getLast?_ne {opening closing : Char}
    (h : cs.getLast? ≠ some closing) : insideBrackets? opening closing cs = none := by
  simp only [insideBrackets?]
  split
  · rename_i first rest hdrop
    rw [if_neg]
    rintro ⟨-, hlast⟩
    have hsuffix : first :: rest <:+ cs := hdrop ▸ List.dropWhile_suffix _
    obtain ⟨front, rfl⟩ := hsuffix
    refine h ?_
    rw [List.getLast?_append, List.getLast?_cons, hlast]
    rfl
  · rfl

/-- A name in front of brackets of either kind is split from what they hold. -/
theorem splitArguments_enclose (h : b.opening ∉ head) (hne : head ≠ []) :
    splitArguments (head ++ b.enclose inner) = (trim head, some (trim inner)) := by
  cases b with
  | angle =>
    have hown : insideBrackets? '<' '>' (head ++ Bracket.angle.enclose inner) =
      some (trim head, trim inner) := insideBrackets?_enclose h hne
    simp only [splitArguments, hown]
  | square =>
    -- The text ends in a square bracket, whatever angle brackets there are inside.
    have hother : insideBrackets? '<' '>' (head ++ Bracket.square.enclose inner) = none :=
      insideBrackets?_of_getLast?_ne (by rw [getLast?_enclose]; decide)
    have hown : insideBrackets? '[' ']' (head ++ Bracket.square.enclose inner) =
      some (trim head, trim inner) := insideBrackets?_enclose h hne
    simp only [splitArguments, hother, hown]

theorem splitArguments_of_bracketFree (h : BracketFree cs) :
    splitArguments cs = (trim cs, none) := by
  have hangle : insideBrackets? '<' '>' cs = none :=
    insideBrackets?_of_not_mem (h.opening_not_mem .angle)
  have hsquare : insideBrackets? '[' ']' cs = none :=
    insideBrackets?_of_not_mem (h.opening_not_mem .square)
  simp only [splitArguments, hangle, hsquare]

/-! ## Balance -/

/-- Each kind of bracket is closed as often as it is opened. -/
def Balanced (cs : List Char) : Prop := ∀ b : Bracket, cs.count b.opening = cs.count b.closing

theorem isBalanced_iff : isBalanced cs = true ↔ Balanced cs := by
  simp only [isBalanced, Bool.and_eq_true, beq_iff_eq]
  constructor
  · rintro ⟨hangle, hsquare⟩ (_ | _)
    · exact hangle
    · exact hsquare
  · exact fun h => ⟨h .angle, h .square⟩

theorem BracketFree.balanced (h : BracketFree cs) : Balanced cs := by
  intro b
  rw [List.count_eq_zero_of_not_mem (h.opening_not_mem b),
    List.count_eq_zero_of_not_mem (h.closing_not_mem b)]

theorem Balanced.append {xs ys : List Char} (hx : Balanced xs) (hy : Balanced ys) :
    Balanced (xs ++ ys) := by
  intro b
  rw [List.count_append, List.count_append, hx b, hy b]

theorem Balanced.enclose (h : Balanced cs) : Balanced (b.enclose cs) := by
  intro b'
  have hb := h b'
  cases b <;> cases b' <;>
    simpa [Bracket.enclose, Bracket.opening, Bracket.closing, List.count_append] using hb

theorem bracketFree_of_blank (h : isAllBlank cs = true) : BracketFree cs := by
  refine List.any_eq_false.mpr fun c hc hbracket => ?_
  have hblank : isBlank c = true := List.all_eq_true.mp h c hc
  have hcases : c = '<' ∨ c = '>' ∨ c = '[' ∨ c = ']' := by simpa [isBracket] using hbracket
  rcases hcases with rfl | rfl | rfl | rfl <;> exact absurd hblank (by decide)

end Brackets

/-! ## Wrappers and leaves -/

/-- The name of a wrapper. -/
inductive WrapperName where
  | option | optional | vec | list
  deriving DecidableEq

namespace WrapperName

def text : WrapperName → List Char
  | option => "Option".toList
  | optional => "Optional".toList
  | vec => "Vec".toList
  | list => "List".toList

/-- The wrapper marks what it holds as optional; the others add a dimension to it. -/
def isOptional : WrapperName → Bool
  | option | optional => true
  | vec | list => false

end WrapperName

/-- A wrapper as it is written: a name behind a path, brackets, and the blanks inside them. -/
structure Wrapper where
  path : List (List Char) := []
  name : WrapperName
  bracket : Bracket
  before : List Char := []
  after : List Char := []
  path_bracketFree : ∀ segment ∈ path, BracketFree segment := by decide
  /-- No segment ends in a colon, which would be read as the first of the separator behind it. -/
  path_separated : ∀ segment ∈ path, segment.getLast? ≠ some ':' := by decide
  tight : Tight (qualified path name.text) := by decide
  before_blank : isAllBlank before = true := by decide
  after_blank : isAllBlank after = true := by decide

namespace Wrapper

/-- What is written in front of the brackets. -/
def head (w : Wrapper) : List Char := qualified w.path w.name.text

/-- A text inside the brackets of a wrapper. -/
def around (w : Wrapper) (inner : List Char) : List Char :=
  w.head ++ w.bracket.enclose (w.before ++ inner ++ w.after)

def isOptional (w : Wrapper) : Bool := w.name.isOptional

def isArray (w : Wrapper) : Bool := !w.name.isOptional

end Wrapper

/-- What stands inside all wrappers: a base, with arguments or without. -/
structure Leaf where
  base : List Char
  arguments : Option (Bracket × List Char) := none
  base_ne_nil : base ≠ [] := by decide
  tight : Tight base := by decide
  bracketFree : BracketFree base := by decide
  arguments_bracketFree : ∀ a ∈ arguments, BracketFree a.2 := by decide
  /-- The base is not taken for a wrapper. -/
  plain : ∀ n : WrapperName, lastSegment base ≠ n.text := by
    rintro (_ | _ | _ | _) <;> decide

namespace Leaf

def text (leaf : Leaf) : List Char :=
  match leaf.arguments with
  | none => leaf.base
  | some (b, arguments) => leaf.base ++ b.enclose arguments

end Leaf

/-- The text of a leaf inside wrappers, of which the first is the outermost. -/
def wrapped (ws : List Wrapper) (leaf : Leaf) : List Char := ws.foldr Wrapper.around leaf.text

/-- The innermost wrapper is an array, and what it holds is `u8`. -/
def holdsBytes (ws : List Wrapper) (leaf : Leaf) : Bool :=
  ws.getLast?.any Wrapper.isArray && leaf.text = "u8".toList

/-- The wrappers that have a meaning of their own: the one that makes bytes of `u8` has none. -/
def counted (ws : List Wrapper) (leaf : Leaf) : List Wrapper :=
  if holdsBytes ws leaf then ws.dropLast else ws

/-- The field type that a leaf inside wrappers denotes. -/
def denoted (ws : List Wrapper) (leaf : Leaf) : FieldType where
  raw := .ofList (wrapped ws leaf)
  base := if holdsBytes ws leaf then "bytes" else
    ((canonical? leaf.base).map BaseType.name).getD (.ofList leaf.base)
  nullable := ws.any Wrapper.isOptional
  arrayDim := (counted ws leaf).countP Wrapper.isArray
  known := holdsBytes ws leaf || (canonical? leaf.base).isSome

/-! ### Their texts -/

variable {w : Wrapper} {ws : List Wrapper} {leaf : Leaf}

theorem WrapperName.bracketFree_text (n : WrapperName) : BracketFree n.text := by
  cases n <;> decide

theorem WrapperName.lastSegment_text (n : WrapperName) : lastSegment n.text = n.text := by
  cases n <;> decide

theorem Wrapper.head_ne_nil (w : Wrapper) : w.head ≠ [] := by
  rw [head]
  cases w.path with
  | nil => cases w.name <;> exact List.cons_ne_nil _ _
  | cons segment path => simp [qualified]

theorem Wrapper.bracketFree_head (w : Wrapper) : BracketFree w.head :=
  bracketFree_qualified w.path_bracketFree w.name.bracketFree_text

theorem Wrapper.lastSegment_head (w : Wrapper) : lastSegment w.head = w.name.text :=
  (lastSegment_qualified w.path_separated).trans w.name.lastSegment_text

theorem Leaf.text_ne_nil (leaf : Leaf) : leaf.text ≠ [] := by
  rw [text]
  split
  · exact leaf.base_ne_nil
  · exact List.append_ne_nil_of_left_ne_nil leaf.base_ne_nil _

theorem Leaf.tight_text (leaf : Leaf) : Tight leaf.text := by
  rw [text]
  split
  · exact leaf.tight
  · exact tight_enclose leaf.tight leaf.base_ne_nil

theorem Leaf.balanced_text (leaf : Leaf) : Balanced leaf.text := by
  rw [text]
  split
  · exact leaf.bracketFree.balanced
  · rename_i b arguments harguments
    exact leaf.bracketFree.balanced.append
      (leaf.arguments_bracketFree (b, arguments) harguments).balanced.enclose

theorem wrapped_ne_nil : wrapped ws leaf ≠ [] := by
  cases ws with
  | nil => exact leaf.text_ne_nil
  | cons w ws => exact List.append_ne_nil_of_left_ne_nil w.head_ne_nil _

theorem tight_wrapped : Tight (wrapped ws leaf) := by
  cases ws with
  | nil => exact leaf.tight_text
  | cons w ws => exact tight_enclose w.tight w.head_ne_nil

theorem balanced_wrapped (ws : List Wrapper) (leaf : Leaf) : Balanced (wrapped ws leaf) := by
  induction ws with
  | nil => exact leaf.balanced_text
  | cons w ws ih =>
    have hbefore := (bracketFree_of_blank w.before_blank).balanced
    have hafter := (bracketFree_of_blank w.after_blank).balanced
    exact w.bracketFree_head.balanced.append ((hbefore.append ih).append hafter).enclose

/-! ### Taking the wrappers off -/

namespace Unwrapped

/-- What is said of a name on its own. -/
def plain (name : List Char) : Unwrapped := ⟨false, 0, name⟩

/-- What is said of an optional value, by what is said of the value. -/
def optional (u : Unwrapped) : Unwrapped := ⟨true, u.arrayDim, u.base⟩

/-- What is said of an array, by what is said of its items. -/
def array (u : Unwrapped) : Unwrapped := ⟨u.nullable, u.arrayDim + 1, u.base⟩

end Unwrapped

theorem unwrap_of_arguments {cs name inner : List Char}
    (h : splitArguments cs = (name, some inner)) :
    unwrap cs = if isOptionalWrapper (lastSegment name) then (unwrap inner).optional
      else if isArrayWrapper (lastSegment name) then
        if BaseType.ofSpelling? (.ofList inner) = some .u8 then .plain "bytes".toList
        else (unwrap inner).array
      else .plain name := by
  rw [unwrap]
  split
  · rename_i heq
    cases h.symm.trans heq
    rfl
  · rename_i heq
    cases h.symm.trans heq

theorem unwrap_of_no_arguments {cs name : List Char} (h : splitArguments cs = (name, none)) :
    unwrap cs = .plain name := by
  rw [unwrap]
  split
  · rename_i heq
    cases h.symm.trans heq
  · rename_i heq
    cases h.symm.trans heq
    rfl

theorem WrapperName.isOptionalWrapper_text (n : WrapperName) :
    isOptionalWrapper n.text = n.isOptional := by
  cases n <;> decide

theorem WrapperName.isArrayWrapper_text (n : WrapperName) :
    isArrayWrapper n.text = !n.isOptional := by
  cases n <;> decide

theorem ofSpelling?_eq_u8_iff {cs : List Char} :
    BaseType.ofSpelling? (.ofList cs) = some .u8 ↔ cs = "u8".toList := by
  constructor
  · intro h
    have hspelled := List.find?_some h
    have hcs : String.ofList cs = "u8" := by simpa [BaseType.spellings] using hspelled
    rw [← hcs, String.toList_ofList]
  · rintro rfl
    rfl

/-- One wrapper is taken off, unless it holds `u8` and makes bytes of it. -/
theorem unwrap_around {inner : List Char} (h : Tight inner) (hne : inner ≠ []) :
    unwrap (w.around inner) =
      if w.isOptional then (unwrap inner).optional
      else if inner = "u8".toList then .plain "bytes".toList
      else (unwrap inner).array := by
  have hhead : trim w.head = w.head := w.tight.trim_self w.head_ne_nil
  have hsplit : splitArguments (w.around inner) = (w.head, some inner) := by
    rw [Wrapper.around, splitArguments_enclose
      (w.bracketFree_head.opening_not_mem w.bracket) w.head_ne_nil, hhead,
      h.trim_eq hne w.before_blank w.after_blank]
  rw [unwrap_of_arguments hsplit, w.lastSegment_head, w.name.isOptionalWrapper_text,
    w.name.isArrayWrapper_text]
  by_cases hoptional : w.name.isOptional = true
  · simp only [Wrapper.isOptional, hoptional, if_true]
  · have harray : w.name.isOptional = false := (Bool.not_eq_true _).mp hoptional
    simp only [Wrapper.isOptional, harray, ofSpelling?_eq_u8_iff, Bool.not_false, if_true]

/-- Nothing is taken off a leaf but its arguments. -/
theorem unwrap_leaf (leaf : Leaf) : unwrap leaf.text = .plain leaf.base := by
  have hbase : trim leaf.base = leaf.base := leaf.tight.trim_self leaf.base_ne_nil
  have hoptional : isOptionalWrapper (lastSegment leaf.base) = false := by
    simp only [isOptionalWrapper, Bool.or_eq_false_iff, decide_eq_false_iff_not]
    exact ⟨leaf.plain .option, leaf.plain .optional⟩
  have harray : isArrayWrapper (lastSegment leaf.base) = false := by
    simp only [isArrayWrapper, Bool.or_eq_false_iff, decide_eq_false_iff_not]
    exact ⟨leaf.plain .vec, leaf.plain .list⟩
  rw [Leaf.text]
  split
  · rw [unwrap_of_no_arguments (splitArguments_of_bracketFree leaf.bracketFree), hbase]
  · rw [unwrap_of_arguments (splitArguments_enclose (leaf.bracketFree.opening_not_mem _)
      leaf.base_ne_nil), hbase, hoptional, harray]
    rfl

theorem wrapped_cons_ne_u8 : wrapped (w :: ws) leaf ≠ "u8".toList := by
  intro h
  have hlast : (wrapped (w :: ws) leaf).getLast? = some w.bracket.closing := getLast?_enclose
  rw [h] at hlast
  cases hb : w.bracket <;> rw [hb] at hlast <;> exact absurd hlast (by decide)

/-- What is innermost does not depend on a further wrapper, unless it is the only array. -/
theorem holdsBytes_cons (h : w.isOptional = true ∨ wrapped ws leaf ≠ "u8".toList) :
    holdsBytes (w :: ws) leaf = holdsBytes ws leaf := by
  cases ws with
  | nil =>
    obtain h | h := h
    · have harray : w.isArray = false := congrArg not h
      simp [holdsBytes, harray]
    · have htext : decide (leaf.text = "u8".toList) = false := decide_eq_false h
      rw [holdsBytes, holdsBytes, htext, Bool.and_false, Bool.and_false]
  | cons v ws => rw [holdsBytes, holdsBytes, List.getLast?_cons_cons]

theorem counted_cons (h : w.isOptional = true ∨ wrapped ws leaf ≠ "u8".toList) :
    counted (w :: ws) leaf = w :: counted ws leaf := by
  rw [counted, counted, holdsBytes_cons h]
  split
  · rename_i hbytes
    cases ws with
    | nil => exact Bool.noConfusion hbytes
    | cons v ws => rw [List.dropLast_cons_cons]
  · rfl

/-- All wrappers are taken off. -/
theorem unwrap_wrapped (ws : List Wrapper) (leaf : Leaf) : unwrap (wrapped ws leaf) =
    ⟨ws.any Wrapper.isOptional, (counted ws leaf).countP Wrapper.isArray,
      if holdsBytes ws leaf then "bytes".toList else leaf.base⟩ := by
  induction ws with
  | nil => exact unwrap_leaf leaf
  | cons w ws ih =>
    have hinner : Tight (wrapped ws leaf) := tight_wrapped
    have hstep : unwrap (wrapped (w :: ws) leaf) = if w.isOptional then
        (unwrap (wrapped ws leaf)).optional
      else if wrapped ws leaf = "u8".toList then .plain "bytes".toList
      else (unwrap (wrapped ws leaf)).array := unwrap_around hinner wrapped_ne_nil
    rw [hstep, ih]
    cases hoptional : w.isOptional with
    | true =>
      have harray : w.isArray = false := congrArg not hoptional
      rw [if_pos rfl, holdsBytes_cons (.inl hoptional), counted_cons (.inl hoptional)]
      simp [Unwrapped.optional, hoptional, harray]
    | false =>
      have harray : w.isArray = true := congrArg not hoptional
      rw [if_neg Bool.false_ne_true]
      by_cases hu8 : wrapped ws leaf = "u8".toList
      · -- Nothing but a leaf reads so, and the wrapper is the only one.
        cases ws with
        | cons v ws => exact absurd hu8 wrapped_cons_ne_u8
        | nil =>
          have hbytes : holdsBytes [w] leaf = true := by
            rw [holdsBytes, List.getLast?_singleton, Option.any_some, harray]
            exact decide_eq_true hu8
          rw [if_pos hu8, counted, hbytes]
          simp [Unwrapped.plain, hoptional]
      · rw [if_neg hu8, holdsBytes_cons (.inr hu8), counted_cons (.inr hu8)]
        simp [Unwrapped.array, hoptional, harray]

/-! ### Reading the whole text -/

theorem canonical?_bytes : canonical? "bytes".toList = some .bytes := by decide +kernel

/-- A leaf inside wrappers is read as the field type that it denotes: a field type is read whatever
the wrappers, their paths, brackets and blanks are; it is optional if some wrapper says so, has a
dimension for each array, and is based on the leaf, known or kept under its own name. -/
theorem parse_wrapped (ws : List Wrapper) (leaf : Leaf) :
    parse (.ofList (wrapped ws leaf)) = .ok (denoted ws leaf) := by
  have htight : Tight (wrapped ws leaf) := tight_wrapped
  have htrim : trim (String.ofList (wrapped ws leaf)).toList = wrapped ws leaf := by
    rw [String.toList_ofList, htight.trim_self wrapped_ne_nil]
  have hbalanced : isBalanced (wrapped ws leaf) = true :=
    isBalanced_iff.mpr (balanced_wrapped ws leaf)
  simp only [parse, htrim, wrapped_ne_nil, hbalanced, unwrap_wrapped, if_false, Bool.not_true,
    Bool.false_eq_true]
  cases hbytes : holdsBytes ws leaf with
  | true =>
    simp only [denoted, hbytes, if_true, canonical?_bytes, Bool.true_or]
    rfl
  | false =>
    cases hbase : canonical? leaf.base with
    | some b => simp [denoted, hbytes, hbase]
    | none => simp [denoted, hbytes, hbase, leaf.base_ne_nil]

/-- An optional list of arrays of bytes, written with a path, both kinds of brackets and blanks. -/
def chunkWrappers : List Wrapper := [
  { path := ["std".toList, "option".toList], name := .option, bracket := .angle, before := [' '] },
  { name := .list, bracket := .square, after := ['\t'] },
  { name := .vec, bracket := .angle }]

theorem parse_wrapped_chunks :
    String.ofList (wrapped chunkWrappers { base := "u8".toList }) =
      "std::option::Option< List[Vec<u8>\t]>" ∧
    parse "std::option::Option< List[Vec<u8>\t]>" =
      .ok ⟨"std::option::Option< List[Vec<u8>\t]>", "bytes", true, 1, true⟩ ∧
    parse "std::option::Option< List[Vec<chrono::DateTime<Utc>>\t]>" =
      .ok ⟨"std::option::Option< List[Vec<chrono::DateTime<Utc>>\t]>", "datetime", true, 2,
        true⟩ := by
  have hbytes := parse_wrapped chunkWrappers { base := "u8".toList }
  have hmoment := parse_wrapped chunkWrappers
    { base := "chrono::DateTime".toList, arguments := some (.angle, "Utc".toList) }
  exact ⟨by decide +kernel, hbytes, hmoment⟩

end FieldType

end EntityForge
