import EntityForge.Artifact.Manifest

/-!
# Help

What the program says about itself.
-/

namespace EntityForge.CommandLine

/-- The line that names the version. -/
def versionLine : String := "entitygen v" ++ generatorVersion

/-- How the program is called. -/
def usage : String := "\n".intercalate [
  "usage: entitygen [-h] [--version] -s PATH [-o DIR] [--validate-only]",
  "                 [--dry-run] [--project-name NAME] [--package-name NAME]",
  "                 [--strict-references] [--clean] [--no-strict]",
  "                 [--fail-on-warnings] [-v] [-q]"]

/-- What the options mean. -/
def help : String := "\n".intercalate [
  usage,
  "",
  "entitygen — schema-driven entity code generator.",
  "",
  "Turns annotated entity declarations (JSON/YAML) into pydantic data shapes, repository " ++
    "contracts, a Postgres backend, migrations, commands, events and policies.",
  "",
  "options:",
  "  -h, --help            show this help message and exit",
  "  --version             show program's version number and exit",
  "  -s PATH, --entities PATH",
  "                        Path to the entity document (JSON or YAML).",
  "  -o DIR, --output DIR  Output directory. Required unless --validate-only is",
  "                        set.",
  "",
  "operation modes:",
  "  --validate-only       Build and validate entities without generating code.",
  "  --dry-run             Run the full pipeline but don't write files to disk.",
  "",
  "configuration overrides:",
  "  --project-name NAME   Override the project name.",
  "  --package-name NAME   Override the root package of the generated code.",
  "  --strict-references   Fail on dangling field and relation references instead",
  "                        of warning.",
  "",
  "behaviour flags:",
  "  --clean               Clean output directory before writing.",
  "  --no-strict           Export the entities that succeeded even if others",
  "                        failed.",
  "  --fail-on-warnings    Treat validation warnings as errors.",
  "",
  "verbosity:",
  "  -v, --verbose         Increase verbosity (-v for INFO, -vv for DEBUG).",
  "  -q, --quiet           Suppress all output except errors.",
  "",
  "Examples:",
  "  entitygen -s entities.yaml -o ./out",
  "  entitygen -s entities.json -o ./out -v --clean",
  "  entitygen -s entities.yaml --validate-only",
  ""]

end EntityForge.CommandLine
