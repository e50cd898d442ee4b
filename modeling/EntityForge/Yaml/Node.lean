import EntityForge.Yaml.Tag
import EntityForge.Yaml.Token

/-!
# Nodes of a YAML document

A document is one node: a scalar, or a collection of nodes. Every node has a tag, and an alias stands
for the node that its anchor names. A text holds at most one document.
-/

namespace EntityForge.Yaml

/-- A node of a document. -/
inductive Node where
  | scalar (tag : Tag) (text : String)
  | sequence (tag : Tag) (items : List Node)
  | mapping (tag : Tag) (entries : List (Node × Node))
  deriving Repr

namespace Node

/-- The tag of a node. -/
def tag : Node → Tag
  | scalar t _ | sequence t _ | mapping t _ => t

/-- The node for something that is left out. -/
def empty : Node := scalar .null ""

end Node

/-- What is left of the tokens of a document, and the names that have been given in it. -/
structure Outline where
  tokens : List Token
  /-- What the handles of tags stand for. -/
  handles : List (String × String)
  /-- All names given so far; a name may not be given twice. -/
  names : List String := []
  /-- The nodes that are complete and have a name. -/
  anchors : List (String × Node) := []

namespace Outline

/-- The next token. -/
def peek (o : Outline) : Token := o.tokens.headD .streamEnd

/-- Behind the next token. -/
def next (o : Outline) : Outline := { o with tokens := o.tokens.drop 1 }

/-- Behind the next token, which has to be a certain one. -/
def expect (t : Token) (o : Outline) : Reading Outline :=
  if o.peek = t then .ok o.next else .error .malformed

/-- The handles that need not be declared. -/
def standardHandles : List (String × String) := [("!", "!"), ("!!", Tag.standard)]

/-- The full name of a tag. -/
def fullName (name : TagName) (o : Outline) : Reading String :=
  match name.handle with
  | none => .ok name.suffix
  | some handle => match o.handles.lookup handle with
    | some start => .ok (start ++ name.suffix)
    | none => .error .malformed

/-- The name and the tag in front of a node, in either order. -/
def properties (o : Outline) : Reading (Option String × Option String × Outline) := do
  match o.peek with
  | .anchor name =>
    let o := o.next
    match o.peek with
    | .tag t => return (some name, some (← o.fullName t), o.next)
    | _ => return (some name, none, o)
  | .tag t =>
    let full ← o.fullName t
    let o := o.next
    match o.peek with
    | .anchor name => return (some name, some full, o.next)
    | _ => return (none, some full, o)
  | _ => return (none, none, o)

/-- The tag that a node has by its written tag, or else by its look. -/
def tagOr (written : Option String) (look : Tag) : Tag :=
  match written with
  | none | some "!" => look
  | some name => .ofName name

/-- The tag that a scalar has; the tag `!` makes a quoted scalar count as a plain one. -/
def scalarTag (written : Option String) (plain : Bool) (text : String) : Tag :=
  tagOr written (if plain || written == some "!" then .ofPlain text else .text)

/-- Gives a name away. -/
def claim (name : Option String) (o : Outline) : Reading Outline :=
  match name with
  | none => .ok o
  | some n =>
    if o.names.contains n then .error .malformed else .ok { o with names := n :: o.names }

/-- Remembers a complete node under its name. -/
def remember (name : Option String) (n : Node) (o : Outline) : Outline :=
  match name with
  | none => o
  | some s => { o with anchors := (s, n) :: o.anchors }

/-- Nothing behind a name or a tag, which is an empty scalar. -/
def bare (name written : Option String) (o : Outline) : Reading (Node × Outline) :=
  if name.isNone && written.isNone then .error .malformed
  else .ok (.scalar (scalarTag written true "") "", o)

mutual

/-- The next node. Only where `block` holds may it be a block collection, and only where `loose`
holds may it be a sequence that is not indented further than its key. -/
def node (block loose : Bool) : Nat → Outline → Reading (Node × Outline)
  | 0, _ => .error .malformed
  | fuel + 1, o => do
    match o.peek with
    | .alias name => match o.anchors.lookup name with
      | some n => return (n, o.next)
      | none => throw .malformed
    | _ => pure ()
    let (name, written, o) ← o.properties
    let o ← o.claim name
    let (n, o) ← match o.peek with
      | .blockEntry =>
        if loose then do
          let (items, o) ← looseItems fuel o
          pure (Node.sequence (tagOr written .sequence) items, o)
        else bare name written o
      | .scalar text plain => pure (Node.scalar (scalarTag written plain text) text, o.next)
      | .flowSequenceStart => do
        let (items, o) ← flowItems true fuel o.next
        pure (Node.sequence (tagOr written .sequence) items, o)
      | .flowMappingStart => do
        let (entries, o) ← flowEntries true fuel o.next
        pure (Node.mapping (tagOr written .mapping) entries, o)
      | .blockSequenceStart =>
        if block then do
          let (items, o) ← blockItems fuel o.next
          pure (Node.sequence (tagOr written .sequence) items, o)
        else bare name written o
      | .blockMappingStart =>
        if block then do
          let (entries, o) ← blockEntries fuel o.next
          pure (Node.mapping (tagOr written .mapping) entries, o)
        else bare name written o
      | _ => bare name written o
    return (n, o.remember name n)

/-- A node that may be left out in front of certain tokens. -/
def nodeOrEmpty (block loose : Bool) (stops : List Token) :
    Nat → Outline → Reading (Node × Outline)
  | 0, _ => .error .malformed
  | fuel + 1, o =>
    if stops.contains o.peek then .ok (.empty, o) else node block loose fuel o

/-- The members of a block sequence up to its end. -/
def blockItems : Nat → Outline → Reading (List Node × Outline)
  | 0, _ => .error .malformed
  | fuel + 1, o => do
    if o.peek ≠ .blockEntry then return ([], ← o.expect .blockEnd)
    let (n, o) ← nodeOrEmpty true false [.blockEntry, .blockEnd] fuel o.next
    let (ns, o) ← blockItems fuel o
    return (n :: ns, o)

/-- The members of a sequence that is not indented further than its key. -/
def looseItems : Nat → Outline → Reading (List Node × Outline)
  | 0, _ => .error .malformed
  | fuel + 1, o => do
    if o.peek ≠ .blockEntry then return ([], o)
    let (n, o) ← nodeOrEmpty true false [.blockEntry, .key, .value, .blockEnd] fuel o.next
    let (ns, o) ← looseItems fuel o
    return (n :: ns, o)

/-- The entries of a block mapping up to its end. -/
def blockEntries : Nat → Outline → Reading (List (Node × Node) × Outline)
  | 0, _ => .error .malformed
  | fuel + 1, o => do
    let stops := [Token.key, .value, .blockEnd]
    if o.peek ≠ .key then return ([], ← o.expect .blockEnd)
    let (k, o) ← nodeOrEmpty true true stops fuel o.next
    let (v, o) ←
      if o.peek = .value then nodeOrEmpty true true stops fuel o.next else pure (.empty, o)
    let (es, o) ← blockEntries fuel o
    return ((k, v) :: es, o)

/-- The members of a flow sequence up to its end. A member may be a mapping of one entry. -/
def flowItems (first : Bool) : Nat → Outline → Reading (List Node × Outline)
  | 0, _ => .error .malformed
  | fuel + 1, o => do
    if o.peek = .flowSequenceEnd then return ([], o.next)
    let o ← if first then pure o else o.expect .flowEntry
    match o.peek with
    | .flowSequenceEnd => return ([], o.next)
    | .key =>
      let (k, o) ← nodeOrEmpty false false [.value, .flowEntry, .flowSequenceEnd] fuel o.next
      let (v, o) ←
        if o.peek = .value then nodeOrEmpty false false [.flowEntry, .flowSequenceEnd] fuel o.next
        else pure (.empty, o)
      let (ns, o) ← flowItems false fuel o
      return (.mapping .mapping [(k, v)] :: ns, o)
    | _ =>
      let (n, o) ← node false false fuel o
      let (ns, o) ← flowItems false fuel o
      return (n :: ns, o)

/-- The entries of a flow mapping up to its end. -/
def flowEntries (first : Bool) : Nat → Outline → Reading (List (Node × Node) × Outline)
  | 0, _ => .error .malformed
  | fuel + 1, o => do
    if o.peek = .flowMappingEnd then return ([], o.next)
    let o ← if first then pure o else o.expect .flowEntry
    match o.peek with
    | .flowMappingEnd => return ([], o.next)
    | .key =>
      let (k, o) ← nodeOrEmpty false false [.value, .flowEntry, .flowMappingEnd] fuel o.next
      let (v, o) ←
        if o.peek = .value then nodeOrEmpty false false [.flowEntry, .flowMappingEnd] fuel o.next
        else pure (.empty, o)
      let (es, o) ← flowEntries false fuel o
      return ((k, v) :: es, o)
    | _ =>
      let (k, o) ← node false false fuel o
      let (es, o) ← flowEntries false fuel o
      return ((k, .empty) :: es, o)

end

/-- The directives in front of a document; the version and each handle are given at most once. -/
def directives : List Token → Bool → List (String × String) →
    Reading (List (String × String) × List Token)
  | .directive (.version major) :: rest, versioned, handles =>
    if versioned || major != 1 then .error .malformed else directives rest true handles
  | .directive (.tagHandle handle start) :: rest, versioned, handles =>
    if (handles.lookup handle).isSome then .error .malformed
    else directives rest versioned ((handle, start) :: handles)
  | .directive .other :: rest, versioned, handles => directives rest versioned handles
  | rest, _, handles => .ok (handles, rest)

end Outline

/-- The one document of a text, if there is one. -/
def document? (ts : List Token) : Reading (Option Node) := do
  let fuel := 4 * ts.length + 4
  let finish (n : Node) (o : Outline) : Reading (Option Node) :=
    if (o.tokens.dropWhile (· == .documentEnd)).head? = some .streamEnd then .ok (some n)
    else .error .malformed
  match ts.headD .streamEnd with
  | .streamEnd => return none
  | .directive _ | .documentStart =>
    let (handles, rest) ← Outline.directives ts false []
    let o ← Outline.expect .documentStart { tokens := rest, handles := handles ++ Outline.standardHandles }
    match o.peek with
    | .directive _ | .documentStart | .documentEnd | .streamEnd => finish .empty o
    | _ =>
      let (n, o) ← o.node true false fuel
      finish n o
  | _ =>
    let o : Outline := { tokens := ts, handles := Outline.standardHandles }
    let (n, o) ← o.node true false fuel
    finish n o

end EntityForge.Yaml
