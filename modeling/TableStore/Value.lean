import TableStore.Decimal
import TableStore.SortedMap

/-
What a table holds: typed values, records of named values, and rows under their keys.
-/
namespace TableStore

/-- The type of a column. -/
inductive DataType where
  | int
  | str
  | bool
deriving Repr, DecidableEq

namespace DataType

/-- The word for a type in column declarations and in stored schemas. -/
def tag : DataType → String
  | int => "int"
  | str => "str"
  | bool => "bool"

def ofTag? (s : String) : Option DataType :=
  if s = "int" then some int
  else if s = "str" then some str
  else if s = "bool" then some bool
  else none

theorem ofTag?_tag (t : DataType) : ofTag? t.tag = some t := by cases t <;> decide

end DataType

inductive Value where
  | bool (b : Bool)
  | int (n : Int64)
  | str (s : String)
deriving DecidableEq

namespace Value

def dataType : Value → DataType
  | bool _ => .bool
  | int _ => .int
  | str _ => .str

/-- The plain text of a value; a string stands as it is, without quotes. -/
def text : Value → String
  | bool true => "true"
  | bool false => "false"
  | int n => Decimal.write n
  | str s => s

end Value

/-- Values by column name: the fields of a record, the entries of a condition, or the assignments of
an update. -/
abbrev Fields := SortedMap String Value

/-- The records of a table under their primary keys. -/
abbrev Rows := SortedMap Int64 Fields

end TableStore
