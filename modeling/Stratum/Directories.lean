import Stratum.Text.Blank

/-!
# The directory list

The externalized directories come as one text, with colons between the entries. Blanks around an
entry do not count, and an entry may be empty. No text at all counts as an empty one.
-/

namespace Stratum.Directories

/-- The variable of the environment that holds the list. -/
def variableName : String := "LAYEREDCONF_CONFIG_DIR"

/-- The entries of a directory list. -/
def parse (value : Option String) : List String :=
  ((value.getD "").toList.splitOn ':').map fun part => String.ofList (Text.trimChars part)

/-- The entries that an environment gives. -/
def ofEnvironment (environment : List (String × String)) : List String :=
  parse (environment.lookup variableName)

end Stratum.Directories
