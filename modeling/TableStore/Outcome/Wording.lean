import TableStore.Grid
import TableStore.Outcome

/-
The text that the shell prints for an outcome.
-/
namespace TableStore

/-- The command reference. -/
def helpText : String := String.intercalate "\n" [
  "Data commands:",
  "  insert into <table> values (<value1>, <value2>, ...)    add a record",
  "  select from <table> where <column> = <value>            read matching records",
  "  select from <table>                                     read all records",
  "  update <table> set <column> = <value> where <column> = <value>",
  "                                                          update matching records",
  "  delete from <table> where <column> = <value>            delete matching records",
  "  info <table>                                            describe a table",
  "",
  "Table commands:",
  "  create_table <table> <column1:type> <column2:type> ...  create a table (int, str, bool)",
  "  drop_table <table>                                      delete a table and its records",
  "  list_tables                                             list all tables",
  "",
  "Other commands:",
  "  help                                                    show this reference",
  "  exit                                                    leave the program",
  "",
  "Strings are quoted (\"text\" or 'text'), booleans are true/false."]

namespace Outcome

def columnList (columns : List Column) : String :=
  String.intercalate ", " (columns.map Column.text)

/-- One line for every record that a command changed. -/
def recordLines (change table : String) (ids : List Int64) : String :=
  if ids.isEmpty then s!"No records in table \"{table}\" matched."
  else String.intercalate "\n" (ids.map fun id =>
    s!"Record with ID={Decimal.write id} {change} table \"{table}\".")

/-- What is printed for an outcome.  Only the rows of a select may be too wide for that. -/
def text? : Outcome → Option String
  | created table columns => some s!"Table \"{table}\" created with columns: {columnList columns}"
  | dropped table => some s!"Table \"{table}\" dropped."
  | listed [] => some "No tables."
  | listed tables => some (String.intercalate "\n" (tables.map fun t => s!"- {t}"))
  | inserted table id => some s!"Record with ID={Decimal.write id} inserted into table \"{table}\"."
  | scanned _ columns rows =>
    (Grid.render? columns rows).map fun table => s!"{table}\n{rows.length} row(s)"
  | updated table ids => some (recordLines "updated in" table ids)
  | deleted table ids => some (recordLines "deleted from" table ids)
  | described table columns count =>
    some s!"Table: {table}\nColumns: {columnList columns}\nRecords: {count}"
  | help => some helpText
  | exit => some "Bye!"

end Outcome
end TableStore
