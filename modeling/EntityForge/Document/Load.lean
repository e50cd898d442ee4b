import EntityForge.Disk.Basic
import EntityForge.Document.Read
import EntityForge.Json.Read
import EntityForge.Text.Letters
import EntityForge.Text.Utf8
import EntityForge.Yaml.Construct

/-!
# Loading a document from a disk

The extension of a file decides whether it is read as JSON; every other file is read as YAML. What
it holds has to be a mapping.
-/

namespace EntityForge.Document

/-- Why no mapping can be loaded from a file. -/
inductive LoadFault where
  | notFound (path : Path)
  | notFile (path : Path)
  | disk (fault : DiskFault)
  | bytes (fault : Text.ByteFault)
  | json (path : Path) (message : String)
  | yaml (path : Path) (fault : Yaml.Fault)
  /-- The file holds a value of another kind, in a format with its own name for mappings. -/
  | notMapping (noun kind : String)
  deriving Repr

/-- The wording of a fault. -/
def LoadFault.message : LoadFault → String
  | .notFound p => "Entity file not found: " ++ p.text
  | .notFile p => "Entity path is not a file: " ++ p.text
  | .disk f => f.message
  | .bytes f => f.message
  | .json p message => "Invalid JSON in " ++ p.text ++ ": " ++ message
  | .yaml p f => match f with
    | .badValue reason => reason
    | _ => "Invalid YAML in " ++ p.text
  | .notMapping noun kind => "Expected a " ++ noun ++ " at top level, got " ++ kind ++ "."

/-- The text of a file, with every line ended by a line feed. -/
def fileText (content : ByteArray) : Except LoadFault (List Char) :=
  do
  let cs ← (Text.decode content.toList).mapError .bytes
  return Text.withLineFeeds cs

/-- The value in a JSON file. -/
def jsonValue (p : Path) (cs : List Char) : Except LoadFault Value :=
  (Json.read cs).mapError fun f => .json p (f.message cs)

/-- The value in a YAML file. -/
def yamlValue (p : Path) (cs : List Char) : Except LoadFault Value :=
  (Yaml.read cs).mapError (.yaml p)

/-- The mapping in a file with some content. -/
def entriesOf (p : Path) (content : ByteArray) : Except LoadFault Entries := do
  let cs ← fileText content
  let isJson := Text.smallLetters p.extension.toList = ".json".toList
  match ← if isJson then jsonValue p cs else yamlValue p cs with
  | .map es => return es
  | v => throw (.notMapping (if isJson then "JSON object" else "YAML mapping") v.kindName)

/-- The mapping in the file at a path. -/
def load (d : Disk) (p : Path) : Except LoadFault Entries :=
  match d.lookup p with
  | .ok (.file content) => entriesOf p content
  | .ok .directory => .error (.notFile p)
  | .error .nameTooLong => .error (.disk ⟨.nameTooLong, p, none⟩)
  | .error _ => .error (.notFound p)

end EntityForge.Document
