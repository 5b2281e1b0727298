import TableStore.Fault

/-
Conditions: which of them a table admits, and which records satisfy them.
-/
namespace TableStore

/-- Whether a record under the key `id` agrees with every entry of a condition.  The primary key
column stands for the key itself, whatever the record holds under its name. -/
def Fields.satisfies (id : Int64) (record condition : Fields) : Bool :=
  condition.entries.all fun (name, value) =>
    if name = keyColumn then value = .int id else record.get? name = some value

/-- A value fits a column of its own type. -/
def Column.check (c : Column) (v : Value) (position : Option Nat) : Except Fault Unit :=
  if v.dataType = c.dataType then .ok ()
  else .error (.typeMismatch c.name position c.dataType v.dataType)

/-- Every entry names a column of the table and has its type.  The entry with the least name among
those that fail is the one reported. -/
def Table.check (t : Table) (fields : Fields) : Except Fault Unit :=
  fields.entries.forM fun (name, value) =>
    match t.column? name with
    | none => .error (.columnNotFound t.name name)
    | some c => c.check value none

end TableStore
