import TableStore.Files.Path

/-
Where a store keeps its files, and whether a session remembers the results of selects.
-/
namespace TableStore

structure Config where
  root : String := "."
  schemaFile : String := "db_meta.json"
  rowDirectory : String := "data"
  cached : Bool := true
deriving DecidableEq

namespace Config

/-- The file of the registry. -/
def schemaPath (c : Config) : String := Path.join c.root c.schemaFile

/-- The directory of the tables' files. -/
def rowPath (c : Config) : String := Path.join c.root c.rowDirectory

/-- The file of one table's rows. -/
def tablePath (c : Config) (table : String) : String := Path.join c.rowPath (table ++ ".json")

end Config
end TableStore
