import EntityForge.Entity.Basic
import EntityForge.Text.Plural

/-!
# Relations between entities

Relations name other entities. The table of a related entity is taken to be the plural of its name
in snake case, in the schema of the entity that refers to it.
-/

namespace EntityForge

/-- The table in which a related entity is looked up. -/
def relationTable (target : String) : String := Text.plural (Text.snakeCase target)

/-- The table of a related entity, in the schema of the referring one. -/
def Entity.relatedTable (e : Entity) (target : String) : String :=
  s!"{e.schema}.{relationTable target}"

end EntityForge
