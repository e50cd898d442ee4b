import EntityForge.Document.Declaration
import EntityForge.Value.Record

/-!
# Reading a document from a mapping

A document is a mapping with the declarations of its entities and, if need be, a configuration, of
which single settings may be replaced. Other names at the top are ignored; they have to be texts.
-/

namespace EntityForge

namespace Value

/-- The name of the kind of a value. -/
def kindName : Value → String
  | .null => "NoneType"
  | .bool _ => "bool"
  | .int _ => "int"
  | .float _ => "float"
  | .text _ => "str"
  | .bytes _ => "bytes"
  | .date _ => "date"
  | .dateTime _ => "datetime"
  | .list _ => "list"
  | .tuple _ => "tuple"
  | .set _ => "set"
  | .map _ => "dict"

/-- Counts as nothing: null, false, zero and whatever is empty. -/
def isVoid : Value → Bool
  | .null | .bool false | .int 0 | .text "" | .bytes [] | .list [] | .tuple [] | .set [] | .map [] =>
    true
  | .float x => x.numEq (.zero false)
  | _ => false

end Value

namespace Document

/-- Why a mapping is no document. -/
inductive ReadFault where
  | noEntities
  /-- The configuration is of another kind than a mapping. -/
  | badConfig (kind : String)
  /-- A name at the top is no text. -/
  | strangeName
  | invalid (violations : List Schema.Violation)
  deriving Repr

/-- The wording of a fault. -/
def ReadFault.message : ReadFault → String
  | .noEntities =>
    "Cannot find entity declarations in input. Expected top-level key: 'entities'."
  | .badConfig kind => "'config' must be a mapping, got " ++ kind ++ "."
  | .strangeName => "sequence item 0: expected str instance"
  | .invalid vs => "Entity document validation failed: " ++ Schema.report "EntityDocument" vs

/-- A name that may stand at the top of a document. -/
def isTopName : Value → Bool
  | .text _ => true
  | _ => false

/-- The settings in a document with some of them replaced. -/
def settings (raw overrides : Entries) : Except ReadFault Entries :=
  match Value.lookup "config" raw with
  | some (.map own) => .ok (Value.ofEntries (own ++ overrides))
  | some v => if v.isVoid then .ok overrides else .error (.badConfig v.kindName)
  | none => .ok overrides

/-- The document in a mapping, with some settings replaced and the name of its source. -/
def ofEntries (raw overrides : Entries) (source : Option String) : Except ReadFault Document :=
  match Value.lookup "entities" raw with
  | none => .error .noEntities
  | some entities => do
    let config ← settings raw overrides
    if !raw.all fun e => isTopName e.1 then throw .strangeName
    match check (Value.record [
        ("config", .map config), ("entities", entities),
        ("source_file", (source.map Value.text).getD .null)]) with
    | .accepted d => return d
    | .rejected vs => throw (.invalid vs)

end Document

end EntityForge
