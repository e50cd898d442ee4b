import EntityForge.Diagnostic
import EntityForge.Entity.Vocabulary
import EntityForge.Text.Name

/-!
# Single attribute values

How one value of an annotation mapping is read: as a flag, a text, a name, a list of names or a
choice from a vocabulary. A value of the wrong kind yields no result and one error, which carries
the label and the context of the site it was found at.
-/

namespace EntityForge.Attribute

/-- Where a value was found. -/
structure Site where
  label : String
  context : Context
  deriving Repr, Inhabited

namespace Site

/-- The context of one attribute at a site. -/
def contextFor (site : Site) (key : String) : Context := site.context.set "attribute" (.text key)

/-- Records an error about one attribute; the message follows the label. -/
def fault (site : Site) (code key message : String) : Noted Unit :=
  .error code s!"{site.label}: {message}" (site.contextFor key)

end Site

/-- A truth value; a bare key counts as true. -/
def flag (value : Value) (key : String) (site : Site) : Noted (Option Bool) :=
  match value with
  | .null => pure (some true)
  | .bool b => pure (some b)
  | v => do
    site.fault "INVALID_FLAG" key s!"'{key}' must be a boolean, got {v.quoted}."
    pure none

/-- A text with something besides blanks, without the blanks around it. -/
def text (value : Value) (key : String) (site : Site) : Noted (Option String) :=
  let found := match value with
    | .text s => nonEmpty (Text.trimmed s)
    | _ => none
  match found with
  | some s => pure (some s)
  | none => do
    site.fault "INVALID_ATTRIBUTE_VALUE" key s!"'{key}' must be a non-empty string, got {value.quoted}."
    pure none
where
  /-- The text unless it is empty. -/
  nonEmpty (s : String) : Option String := if s.isEmpty then none else some s

/-- A name, without the blanks around it. -/
def name (value : Value) (key : String) (site : Site) : Noted (Option String) := do
  match ← text value key site with
  | none => pure none
  | some s =>
    if Text.isNameLine s.toList then pure (some s)
    else do
      site.fault "INVALID_ATTRIBUTE_VALUE" key s!"'{key}' value '{s}' is not a valid identifier."
      pure none

/-- Names from values, given up at the first that is not one. -/
def names (key : String) (site : Site) : List Value → Noted (Option (List String))
  | [] => pure (some [])
  | v :: vs => do
    match ← name v key site with
    | none => pure none
    | some n =>
      let rest ← names key site vs
      pure (rest.map (n :: ·))

/-- A single name or a list of names. -/
def nameList (value : Value) (key : String) (site : Site) : Noted (Option (List String)) :=
  match value with
  | .text s => names key site [.text s]
  | .list items => names key site items
  | v => do
    site.fault "INVALID_ATTRIBUTE_VALUE" key
      s!"'{key}' must be a name or a list of names, got {v.quoted}."
    pure none

/-- A member of a vocabulary, written in any case. -/
def choice (α : Type) [Vocabulary α] (value : Value) (key code : String) (site : Site) :
    Noted (Option α) :=
  let found := match value with
    | .text s => Vocabulary.ofChoice? (α := α) s
    | _ => none
  match found with
  | some a => pure (some a)
  | none => do
    let choices := ", ".intercalate (Vocabulary.words α)
    site.fault code key s!"invalid {key} {value.quoted}, expected one of: {choices}."
    pure none

/-- Notes every key that is not a known one. -/
def noteUnknown (entries : Entries) (known : List String) (site : Site) : Noted Unit :=
  Noted.each (fun e =>
    if e.1.isOneOf known then pure ()
    else .info "UNKNOWN_ATTRIBUTE" s!"{site.label}: unknown attribute '{e.1.plain}' ignored."
      (site.contextFor e.1.plain)) entries

/-- Reads the value of a key if the key is there. -/
def given {α : Type} (entries : Entries) (key : String) (absent : α) (read : Value → Noted α) :
    Noted α :=
  match Value.lookup key entries with
  | some v => read v
  | none => pure absent

/-- Reads the value of a key if the key is there and its value is not null. -/
def present {α : Type} (entries : Entries) (key : String) (absent : α) (read : Value → Noted α) :
    Noted α :=
  match Value.lookupPresent key entries with
  | some v => read v
  | none => pure absent

end EntityForge.Attribute
