import TableStore.Execution

/-
Statements carried out in place: the registry and the rows are changed where they stand, one change
after the other.

Here a fault does not take back what was changed before it, so the order of checks and changes counts.
`Statement.execute` hands back a changed copy instead, and comes to the same because every check here is
made before the first change.
-/
namespace TableStore

/-- An action on a snapshot.  What it has changed stays changed when it fails. -/
abbrev InPlace := ExceptT Fault (StateM Snapshot)

namespace InPlace

/-- A check, or a computation beside the snapshot. -/
def result {α : Type} (r : Except Fault α) : InPlace α := ExceptT.mk (pure r)

/-- Something that is read off the snapshot as it stands. -/
def look {α : Type} (f : Snapshot → Except Fault α) : InPlace α := do result (f (← get))

/-! ## Tables -/

/-- Appends a table to the registry, which checks the table once more. -/
def addTable (t : Table) : InPlace Unit := do
  if (← get).schema.contains t.name then throw (.refused (.taken t.name))
  result (t.validate.mapError .refused)
  modify fun s => { s with schema := ⟨s.schema.tables ++ [t]⟩ }

def createTable (name : String) (declarations : List String) : InPlace Outcome := do
  if !Snapshot.validName name then throw (.invalidTableName name)
  if (← get).schema.contains name then throw (.refused (.taken name))
  let t ← result (Declaration.table name declarations)
  addTable t
  return .created name t.columns

/-- Takes a table out of the registry by its place there. -/
def dropTable (name : String) : InPlace Outcome := do
  match (← get).schema.tables.findIdx? (·.name = name) with
  | none => throw (.tableNotFound name)
  | some place =>
    modify fun s => { s with schema := ⟨s.schema.tables.eraseIdx place⟩ }
    return .dropped name

def listTables : InPlace Outcome := look fun s => .ok (.listed s.schema.names)

def info (name : String) : InPlace Outcome := do
  let t ← look (·.table name)
  return .described name t.columns (← get).rows.size

/-! ## Records -/

def insert (name : String) (values : List Value) : InPlace Outcome := do
  let t ← look (·.table name)
  let columns := t.dataColumns
  if values.length ≠ columns.length then throw (.valueCount columns.length values.length)
  let record ← result (Snapshot.fillFrom 1 columns values)
  let id ← look fun s => Snapshot.nextKey name s.rows
  modify fun s => { s with rows := s.rows.insert id record }
  return .inserted name id

def select (name : String) (condition : Option Fields) : InPlace Outcome := do
  let t ← look (·.table name)
  let condition := condition.getD .empty
  result (t.check condition)
  let rows ← look fun s =>
    (s.rows.entries.filter fun (id, record) => record.satisfies id condition).mapM
      fun (id, record) => Snapshot.row t id record
  return .scanned name t.columnNames rows

/-- Puts another record under a key, or none. -/
def replace (rows : Rows) (id : Int64) : Option Fields → Rows
  | some record => rows.insert id record
  | none => rows.erase id

/-- The record under a key, if it satisfies a condition. -/
def hit? (condition : Fields) (rows : Rows) (id : Int64) : Option Fields :=
  (rows.get? id).filter (·.satisfies id condition)

/-- Visits the records under some keys, one after the other as they then stand.  A record that
satisfies the condition is replaced, and its key is noted. -/
def visit (condition : Fields) (change : Fields → Option Fields) :
    List Int64 → StateM Snapshot (List Int64)
  | [] => return []
  | id :: rest => do
    match hit? condition (← get).rows id with
    | none => visit condition change rest
    | some record =>
      modify fun s => { s with rows := replace s.rows id (change record) }
      return id :: (← visit condition change rest)

def update (name : String) (assignments condition : Fields) : InPlace Outcome := do
  let t ← look (·.table name)
  if assignments.contains keyColumn then throw (.immutableColumn keyColumn)
  result (t.check assignments)
  result (t.check condition)
  let keys := (← get).rows.keys
  let ids ← ExceptT.lift (visit condition (fun record => some (record.overlay assignments)) keys)
  return .updated name ids

def delete (name : String) (condition : Fields) : InPlace Outcome := do
  let t ← look (·.table name)
  result (t.check condition)
  let keys := (← get).rows.keys
  let ids ← ExceptT.lift (visit condition (fun _ => none) keys)
  return .deleted name ids

end InPlace

namespace Statement

def inPlace : Statement → InPlace Outcome
  | createTable table declarations => InPlace.createTable table declarations
  | dropTable table => InPlace.dropTable table
  | listTables => InPlace.listTables
  | insert table values => InPlace.insert table values
  | select table condition => InPlace.select table condition
  | update table assignments condition => InPlace.update table assignments condition
  | delete table condition => InPlace.delete table condition
  | info table => InPlace.info table
  | help => return .help
  | exit => return .exit
  | unknown word => throw (.unknownCommand word)

end Statement
end TableStore
