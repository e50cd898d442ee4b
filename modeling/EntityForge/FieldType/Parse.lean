import EntityForge.FieldType.Basic
import EntityForge.Schema.Violation
import EntityForge.Text.Blank

/-!
# Reading a field type

A field type is written as a base name inside any number of wrappers, each with angle or square
brackets. `Option` and `Optional` mark the value as optional, `Vec` and `List` add an array
dimension, except that an array of `u8` is a byte sequence. A wrapper may be qualified by a path;
the arguments of any other name are dropped. A text that is blank, or that does not hold as many
closing as opening brackets of each kind, is refused, and so is one without a base name.
-/

namespace EntityForge.FieldType

/-- Why a text is not a field type. -/
inductive Fault where
  | empty
  | unbalanced (raw : String)
  | noBase
  deriving DecidableEq, Repr

/-- What is wrong with a field type that has no base name. -/
def baseViolations : List Schema.Violation := [⟨[.key "base"], .textTooShort 1⟩]

/-- The wording of a fault. -/
def Fault.message : Fault → String
  | .empty => "Field type must not be empty."
  | .unbalanced raw => s!"Unbalanced brackets in type '{raw}'."
  | .noBase => Schema.report "TypeRef" baseViolations

/-- The text around the first opening bracket and inside a closing bracket at the end. -/
def insideBrackets? (opening closing : Char) (cs : List Char) : Option (List Char × List Char) :=
  let head := cs.takeWhile (· ≠ opening)
  match cs.dropWhile (· ≠ opening) with
  | _ :: inner =>
    if head ≠ [] ∧ inner.getLast? = some closing then
      some (Text.trim head, Text.trim inner.dropLast)
    else none
  | [] => none

/-- A name and its bracketed arguments, of which angle brackets are looked for first. -/
def splitArguments (cs : List Char) : List Char × Option (List Char) :=
  match insideBrackets? '<' '>' cs with
  | some (head, inner) => (head, some inner)
  | none => match insideBrackets? '[' ']' cs with
    | some (head, inner) => (head, some inner)
    | none => (Text.trim cs, none)

/-- The part of a path behind its last `::`. -/
def lastSegment : List Char → List Char
  | [] => []
  | ':' :: ':' :: cs => lastSegment cs
  | c :: cs => if hasSeparator cs then lastSegment cs else c :: cs
where
  /-- The text holds a `::`. -/
  hasSeparator : List Char → Bool
    | ':' :: ':' :: _ => true
    | _ :: cs => hasSeparator cs
    | [] => false

/-- Marks its argument as optional. -/
def isOptionalWrapper (name : List Char) : Bool :=
  name = "Option".toList || name = "Optional".toList

/-- Adds an array dimension to its argument. -/
def isArrayWrapper (name : List Char) : Bool := name = "Vec".toList || name = "List".toList

/-- What the wrappers say, and the base name inside them. -/
structure Unwrapped where
  nullable : Bool
  arrayDim : Nat
  base : List Char
  deriving DecidableEq, Repr

theorem length_trim_le (cs : List Char) : (Text.trim cs).length ≤ cs.length := by
  have drop_le (xs : List Char) : (xs.dropWhile Text.isBlank).length ≤ xs.length :=
    (List.dropWhile_suffix _).length_le
  simp only [Text.trim, Text.trimLeft, Text.trimRight, List.length_reverse]
  refine Nat.le_trans (drop_le _) ?_
  rw [List.length_reverse]
  exact drop_le _

theorem insideBrackets?_length {opening closing : Char} {cs head inner : List Char}
    (h : insideBrackets? opening closing cs = some (head, inner)) : inner.length < cs.length := by
  simp only [insideBrackets?] at h
  split at h
  · rename_i rest hdrop
    split at h
    · simp only [Option.some.injEq, Prod.mk.injEq] at h
      have hsuffix := (List.dropWhile_suffix (l := cs) (· ≠ opening)).length_le
      rw [hdrop, List.length_cons] at hsuffix
      have htrim := length_trim_le rest.dropLast
      rw [← h.2]
      rw [List.length_dropLast] at htrim
      omega
    · simp at h
  · simp at h

theorem splitArguments_length {cs head inner : List Char}
    (h : splitArguments cs = (head, some inner)) : inner.length < cs.length := by
  simp only [splitArguments] at h
  split at h
  · rename_i heq
    simp only [Prod.mk.injEq, Option.some.injEq] at h
    exact h.2 ▸ insideBrackets?_length heq
  · split at h
    · rename_i heq
      simp only [Prod.mk.injEq, Option.some.injEq] at h
      exact h.2 ▸ insideBrackets?_length heq
    · simp at h

/-- Takes the wrappers off a type, from the outside in. -/
def unwrap (cs : List Char) : Unwrapped :=
  match _h : splitArguments cs with
  | (head, some inner) =>
    if isOptionalWrapper (lastSegment head) then { unwrap inner with nullable := true }
    else if isArrayWrapper (lastSegment head) then
      if BaseType.ofSpelling? (.ofList inner) = some .u8 then ⟨false, 0, "bytes".toList⟩
      else
        let u := unwrap inner
        { u with arrayDim := u.arrayDim + 1 }
    else ⟨false, 0, head⟩
  | (head, none) => ⟨false, 0, head⟩
termination_by cs.length
decreasing_by all_goals exact splitArguments_length _h

/-- The base type a name stands for, looked up whole and then by its last segment. -/
def canonical? (name : List Char) : Option BaseType :=
  (BaseType.ofSpelling? (.ofList name)).or (BaseType.ofSpelling? (.ofList (lastSegment name)))

/-- Each kind of bracket is closed as often as it is opened. -/
def isBalanced (cs : List Char) : Bool :=
  cs.count '<' == cs.count '>' && cs.count '[' == cs.count ']'

/-- The field type that a text denotes. -/
def parse (raw : String) : Except Fault FieldType :=
  let text := Text.trim raw.toList
  if text = [] then .error .empty
  else if !isBalanced text then .error (.unbalanced raw)
  else
    let u := unwrap text
    match canonical? u.base with
    | some b => .ok ⟨.ofList text, b.name, u.nullable, u.arrayDim, true⟩
    | none =>
      if u.base = [] then .error .noBase
      else .ok ⟨.ofList text, .ofList u.base, u.nullable, u.arrayDim, false⟩

end EntityForge.FieldType
