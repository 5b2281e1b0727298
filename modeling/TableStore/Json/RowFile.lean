import TableStore.Json.Scalar

/-
The rows of a table as JSON: a section for each record, named by its key, in ascending order.

The fields of a record stand in the order of the table's columns; fields that no column declares
follow in the order of their names.  Of two sections or members of one name the later one counts.
-/
namespace TableStore
namespace Rows

open Json

/-- The fields of a record in the order in which they are written. -/
def fieldOrder (columns : List Column) (record : Fields) : List (String × Value) :=
  (columns.filterMap fun c => (record.get? c.name).map fun v => (c.name, v)) ++
    record.entries.filter fun e => columns.all fun c => c.name ≠ e.1

def writeRecord (l : Layout) (columns : List Column) (record : Fields) : List Char :=
  l.object 1 ((fieldOrder columns record).map fun (name, v) => (name, writeValue v))

def toJson (l : Layout) (columns : List Column) (rows : Rows) : String :=
  String.ofList
    (l.object 0 (rows.entries.map fun (id, record) =>
      (Decimal.write id, writeRecord l columns record)))

def shape : Shape TextFault Rows Fields where
  whole := .empty
  part := .empty
  addMember record key leaf := do
    let name ← expect (readName? key)
    let value ← expect (readValue? leaf)
    return record.insert name value
  addPart rows name record := do
    let id ← expect (readInteger? name)
    return rows.insert id record

def ofJson (text : String) : Except FileFault Rows :=
  (shape.read .badJson (Lexeme.ofText text)).mapError (.unread .rows text)

end Rows
end TableStore
