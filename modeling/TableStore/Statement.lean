import TableStore.Value

/-
The commands of the table store.
-/
namespace TableStore

inductive Statement where
  /-- The declarations are kept as written; they are checked when the table is made. -/
  | createTable (table : String) (declarations : List String)
  | dropTable (table : String)
  | listTables
  | insert (table : String) (values : List Value)
  /-- No condition and an empty one select the same rows. -/
  | select (table : String) (condition : Option Fields)
  | update (table : String) (assignments condition : Fields)
  | delete (table : String) (condition : Fields)
  | info (table : String)
  | help
  | exit
  /-- A line whose first word names no command. -/
  | unknown (word : String)
deriving DecidableEq

namespace Statement

/-- The table whose rows a statement reads or writes. -/
def dataTable? : Statement → Option String
  | insert table _ => some table
  | select table _ => some table
  | update table _ _ => some table
  | delete table _ => some table
  | info table => some table
  | _ => none

end Statement
end TableStore
