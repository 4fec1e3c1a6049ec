/-!
# Settings

What is used for a migration where nothing else is said: the directory for its file, the
description at its top and the name of the tool that made it.  Each can be set in the environment.
-/

namespace SchemaCompiler

/-- Settings for new migrations. -/
structure Settings where
  migrationsDir : String := "supabase/migrations"
  description : String := "Tenjin schema migration"
  toolName : String := "Tenjin Framework"
  deriving DecidableEq, Repr

/-- The variables that change the settings. -/
def Settings.names : List String :=
  ["TENJIN_MIGRATIONS_DIR", "TENJIN_DESCRIPTION", "TENJIN_TOOL_NAME"]

/-- Settings from the variables of an environment. -/
def Settings.ofEnvironment (lookup : String → Option String) : Settings :=
  let usual : Settings := {}
  { migrationsDir := (lookup "TENJIN_MIGRATIONS_DIR").getD usual.migrationsDir
    description := (lookup "TENJIN_DESCRIPTION").getD usual.description
    toolName := (lookup "TENJIN_TOOL_NAME").getD usual.toolName }

end SchemaCompiler
