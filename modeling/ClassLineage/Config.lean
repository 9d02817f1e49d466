import ClassLineage.Entries
import ClassLineage.Text.Integer
import ClassLineage.Text.Split

/-!
# Configuration

Which files a search reads and how many it reads at a time, as variables of the
environment tell it.  A variable that holds a list separates its items by commas;
blanks around an item do not count, and empty items are dropped.

## Main definitions

* `Config` — the configuration of a search.
* `Config.splitList` — the items of a list.
* `Config.ofEnvironment` — the configuration that an environment tells.
-/

namespace ClassLineage

open Text

/-- The configuration of a search. -/
structure Config where
  /-- The suffixes of the files that are read. -/
  extensions : List String
  /-- The names of the directories that are left out. -/
  excludes : List String
  /-- How many files are read at a time. -/
  workers : Int
deriving Repr, DecidableEq

/-- The variables of an environment. -/
abbrev Environment := Entries String

namespace Config

/-- The suffixes of the files that are read unless a configuration tells others. -/
def defaultExtensions : List String := [".php"]

/-- The configuration of a search that nothing is told. -/
def standard : Config := ⟨defaultExtensions, [], 1⟩

/-- The items of a list: what stands between commas, without blanks around it, unless
nothing is left. -/
def splitList (value : String) : List String :=
  ((splitAll (· = ',') value).map strip).filter (· ≠ "")

/-- An extension with its point in front. -/
def dotted (extension : String) : String :=
  if extension.toList.head? = some '.' then extension else "." ++ extension

/-- A list of texts in order, each only once. -/
def distinctSorted (items : List String) : List String :=
  (items.eraseDups).mergeSort fun a b => a ≤ b

/-- The variable for the extensions. -/
def extensionsVariable : String := "CLASSFINDER_EXTENSIONS"

/-- The variable for the excluded directories. -/
def excludesVariable : String := "CLASSFINDER_EXCLUDES"

/-- The variable for the number of workers. -/
def workersVariable : String := "CLASSFINDER_WORKERS"

/-- The configuration that an environment tells. -/
def ofEnvironment (env : Environment) : Except IntegerError Config := do
  let extensions := (splitList ((env.find? extensionsVariable).getD "")).map dotted
  let excludes := splitList ((env.find? excludesVariable).getD "")
  let workers ← readInteger ((env.find? workersVariable).getD "1")
  return {
    extensions := if extensions.isEmpty then defaultExtensions else extensions
    excludes := distinctSorted excludes
    workers := max 1 workers }

end Config
end ClassLineage
