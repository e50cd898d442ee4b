import EntityForge.FieldType.Basic
import EntityForge.Source.Imports

/-!
# Type hints

The type that the generated code declares for a field: the class of the base type, inside a list
for every array dimension, and optional when the field type is or when it is asked for. A custom
type is declared as `Any`. With the hint goes what it needs imported.
-/

namespace EntityForge

/-- A declared type. -/
inductive Hint where
  | name (s : String)
  | list (item : Hint)
  | optional (inner : Hint)
  deriving DecidableEq, Repr, Inhabited

namespace Hint

/-- The written type. -/
def text : Hint → String
  | .name s => s
  | .list item => "List[" ++ item.text ++ "]"
  | .optional inner => "Optional[" ++ inner.text ++ "]"

/-- The type admits a missing value. -/
def isOptional : Hint → Bool
  | .optional _ => true
  | _ => false

/-- The names of the wrappers, which need to be imported. -/
def wrapperImports : Hint → List Source.Registration
  | .name _ => []
  | .list item => item.wrapperImports ++ [("typing", ["List"])]
  | .optional inner => inner.wrapperImports ++ [("typing", ["Optional"])]

end Hint

namespace FieldType

/-- The class of a single value, and the module it comes from. -/
def valueClass (t : FieldType) : String × Option String :=
  match t.baseType? with
  | some b => b.valueClass
  | none => ("Any", some "typing")

/-- A hint inside a number of lists. -/
def inLists (h : Hint) : Nat → Hint
  | 0 => h
  | n + 1 => .list (inLists h n)

/-- The declared type of a field; `optional` asks for one that admits a missing value. -/
def hint (t : FieldType) (optional : Bool) : Hint :=
  let value := inLists (.name t.valueClass.1) t.arrayDim
  if t.nullable || optional then .optional value else value

/-- What the declared type needs imported. -/
def hintImports (t : FieldType) (optional : Bool) : List Source.Registration :=
  let (name, module) := t.valueClass
  (module.map fun m => (m, [name])).toList ++ (t.hint optional).wrapperImports

/-- The expression for the value of a field that a constructor does not receive, and what it needs
imported. -/
def zeroValue (t : FieldType) : String × List Source.Registration :=
  if t.nullable || !t.known then ("None", [])
  else if t.arrayDim ≠ 0 then ("[]", [])
  else (t.baseType?.map BaseType.zero).getD ("None", [])

end FieldType

end EntityForge
