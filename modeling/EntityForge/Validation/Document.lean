import EntityForge.Entity.Relation
import EntityForge.Validation.Entity

/-!
# Validation across entities

The checks that need all entities of a document: names of entities and tables are distinct, and
every relation leads to an entity of the document whose table is the one that lookups will use.
-/

namespace EntityForge.Validation

/-- The checks on an entity's name and table, which may have come up before. -/
def uniqueFrom (names tables : List String) : List Entity → Noted Unit
  | [] => pure ()
  | e :: rest => do
    when (names.contains e.name) <| .error "DUPLICATE_ENTITY_NAME"
      s!"Entity '{e.name}' is declared more than once." [("entity", .text e.name)]
    when (tables.contains e.fullTable) <| .error "DUPLICATE_TABLE_NAME"
      s!"Table '{e.fullTable}' is used by more than one entity."
      [("entity", .text e.name), ("table", .text e.fullTable)]
    uniqueFrom (e.name :: names) (e.fullTable :: tables) rest

/-- Names of entities and of their tables are distinct. -/
def uniqueEntities (es : List Entity) : Noted Unit := uniqueFrom [] [] es

/-- The entity with a name; of several, the last. -/
def lastNamed? (es : List Entity) (name : String) : Option Entity :=
  es.reverse.find? fun e => e.name == name

/-- The entities that an entity refers to, each with the field or list it is named in. -/
def targets (e : Entity) : List (String × String) :=
  e.relationFields.map (fun f => (f.parent, f.name)) ++ e.hasMany.map fun c => (c, "has_many")

/-- A relation leads to an entity of the document, stored in the table that lookups use. -/
def relationTarget (es : List Entity) (strict : Bool) (e : Entity) (target : String × String) :
    Noted Unit :=
  let ctx : Context := [("entity", .text e.name), ("target", .text target.1), ("via", .text target.2)]
  match lastNamed? es target.1 with
  | none => .dangling strict "RELATION_TARGET_UNKNOWN"
    (s!"Entity '{e.name}' refers to '{target.1}' (via {target.2}), " ++
      "which is not declared in this document.") ctx
  | some other =>
    let expected := relationTable target.1
    when (other.table != expected) <| .warning "RELATION_TABLE_MISMATCH"
      (s!"Relation lookups from '{e.name}' query table '{expected}', " ++
        s!"but '{target.1}' is stored in '{other.table}'.") ctx

/-- Every relation of every entity leads to an entity of the document. -/
def relationTargets (es : List Entity) (strict : Bool) : Noted Unit :=
  Noted.each (fun e => Noted.each (relationTarget es strict e) (targets e)) es

/-- All checks across the entities of a document. -/
def document (es : List Entity) (strict : Bool) : Noted Unit := do
  uniqueEntities es
  relationTargets es strict

end EntityForge.Validation
