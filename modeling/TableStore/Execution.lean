import TableStore.Execution.Declaration
import TableStore.Execution.Matching
import TableStore.Outcome
import TableStore.Statement

/-
Statements as transformers of a snapshot: the registry of tables and the rows of the one table that
the statement works on.

Every check comes before any change, so a fault leaves nothing half done.
-/
namespace TableStore

/-- What a statement works on. -/
structure Snapshot where
  schema : Schema
  rows : Rows
deriving DecidableEq

namespace Snapshot

def table (s : Snapshot) (name : String) : Except Fault Table :=
  match s.schema.table? name with
  | some t => .ok t
  | none => .error (.tableNotFound name)

/-! ## Tables -/

/-- A table name is also a file name: it is not empty and holds no path separator. -/
def validName (name : String) : Bool :=
  name ≠ "" && name.toList.all fun c => c ≠ '/' && c ≠ '\\'

def createTable (name : String) (declarations : List String) (s : Snapshot) :
    Except Fault (Outcome × Snapshot) := do
  if !validName name then throw (.invalidTableName name)
  if s.schema.contains name then throw (.refused (.taken name))
  let t ← Declaration.table name declarations
  let schema ← (s.schema.create t).mapError .refused
  return (.created name t.columns, { s with schema })

def dropTable (name : String) (s : Snapshot) : Except Fault (Outcome × Snapshot) :=
  match s.schema.drop? name with
  | some (_, schema) => .ok (.dropped name, { s with schema })
  | none => .error (.tableNotFound name)

def info (name : String) (s : Snapshot) : Except Fault (Outcome × Snapshot) := do
  let t ← s.table name
  return (.described name t.columns s.rows.size, s)

/-! ## Records -/

/-- The fields of a new record: values line up with columns by position, counted from `position`. -/
def fillFrom (position : Nat) : List Column → List Value → Except Fault Fields
  | c :: cs, v :: vs => do
    c.check v (some position)
    let rest ← fillFrom (position + 1) cs vs
    return rest.insert c.name v
  | _, _ => .ok .empty

/-- The key of the next record, one past the greatest: a key below it is never given out again. -/
def nextKey (table : String) (rows : Rows) : Except Fault Int64 :=
  match rows.last? with
  | none => .ok 1
  | some (last, _) =>
    if last = Int64.maxValue then .error (.noKeyLeft table last) else .ok (last + 1)

def insert (name : String) (values : List Value) (s : Snapshot) :
    Except Fault (Outcome × Snapshot) := do
  let t ← s.table name
  let columns := t.dataColumns
  if values.length ≠ columns.length then throw (.valueCount columns.length values.length)
  let record ← fillFrom 1 columns values
  let id ← nextKey name s.rows
  return (.inserted name id, { s with rows := s.rows.insert id record })

/-- The values of a record in the order of the columns, its key first. -/
def row (t : Table) (id : Int64) (record : Fields) : Except Fault (List Value) := do
  let values ← t.dataColumns.mapM fun c =>
    match record.get? c.name with
    | some v => .ok v
    | none => .error (.missingValue t.name id c.name)
  return .int id :: values

/-- The rows that satisfy a condition. -/
def matching (condition : Fields) (rows : Rows) : Rows :=
  rows.filter fun id record => record.satisfies id condition

def select (name : String) (condition : Option Fields) (s : Snapshot) :
    Except Fault (Outcome × Snapshot) := do
  let t ← s.table name
  let condition := condition.getD .empty
  t.check condition
  let rows ← (matching condition s.rows).entries.mapM fun (id, record) => row t id record
  return (.scanned name t.columnNames rows, s)

def update (name : String) (assignments condition : Fields) (s : Snapshot) :
    Except Fault (Outcome × Snapshot) := do
  let t ← s.table name
  if assignments.contains keyColumn then throw (.immutableColumn keyColumn)
  t.check assignments
  t.check condition
  let rows := s.rows.map fun id record =>
    if record.satisfies id condition then record.overlay assignments else record
  return (.updated name (matching condition s.rows).keys, { s with rows })

def delete (name : String) (condition : Fields) (s : Snapshot) :
    Except Fault (Outcome × Snapshot) := do
  let t ← s.table name
  t.check condition
  let rows := s.rows.filter fun id record => !record.satisfies id condition
  return (.deleted name (matching condition s.rows).keys, { s with rows })

end Snapshot

namespace Statement

def execute (statement : Statement) (s : Snapshot) : Except Fault (Outcome × Snapshot) :=
  match statement with
  | createTable table declarations => s.createTable table declarations
  | dropTable table => s.dropTable table
  | listTables => .ok (.listed s.schema.names, s)
  | insert table values => s.insert table values
  | select table condition => s.select table condition
  | update table assignments condition => s.update table assignments condition
  | delete table condition => s.delete table condition
  | info table => s.info table
  | help => .ok (.help, s)
  | exit => .ok (.exit, s)
  | unknown word => .error (.unknownCommand word)

end Statement
end TableStore
