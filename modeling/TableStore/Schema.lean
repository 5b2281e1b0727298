import TableStore.Value

/-
Tables and the registry that keeps them in the order of their creation.

A registry holds only tables that start with the primary key column and repeat no column name, and
no two of one name: `Schema.create` refuses everything else and says why.
-/
namespace TableStore

/-- The primary key column, the first of every table. -/
def keyColumn : String := "ID"

structure Column where
  name : String
  dataType : DataType
deriving DecidableEq

namespace Column

def isKey (c : Column) : Bool := c.name = keyColumn

/-- A column as it is declared: `name:type`. -/
def text (c : Column) : String := c.name ++ ":" ++ c.dataType.tag

/-- The primary key is an integer. -/
def key : Column := ⟨keyColumn, .int⟩

end Column

structure Table where
  name : String
  columns : List Column
deriving DecidableEq

/-- Why a registry does not take a table. -/
inductive Refusal where
  | taken (table : String)
  | firstColumn (table : String)
  | repeatedColumn (column table : String)
deriving DecidableEq

def Refusal.message : Refusal → String
  | taken table => s!"table \"{table}\" already exists"
  | firstColumn table => s!"storage error: table {table} must start with column {keyColumn}:int"
  | repeatedColumn column table => s!"storage error: duplicate column {column} in table {table}"

namespace Table

/-- A table with the primary key and nothing else. -/
def blank (name : String) : Table := ⟨name, [Column.key]⟩

def column? (t : Table) (name : String) : Option Column := t.columns.find? (·.name = name)

/-- The columns that an insert fills: all but the primary key. -/
def dataColumns (t : Table) : List Column := t.columns.filter (!·.isKey)

def columnNames (t : Table) : List String := t.columns.map (·.name)

/-- The first name that stands in `seen` or earlier in the list. -/
def firstRepeat? (seen : List String) : List String → Option String
  | [] => none
  | name :: rest => if name ∈ seen then some name else firstRepeat? (name :: seen) rest

/-- A table that a registry may hold starts with the primary key and repeats no column name. -/
def validate (t : Table) : Except Refusal Unit :=
  if t.columns.head? = some Column.key then
    match firstRepeat? [] t.columnNames with
    | some column => .error (.repeatedColumn column t.name)
    | none => .ok ()
  else .error (.firstColumn t.name)

end Table

/-- The tables of a store in the order of their creation. -/
structure Schema where
  tables : List Table
deriving DecidableEq

namespace Schema

def empty : Schema := ⟨[]⟩

instance : Inhabited Schema := ⟨empty⟩

def table? (s : Schema) (name : String) : Option Table := s.tables.find? (·.name = name)

def contains (s : Schema) (name : String) : Bool := (s.table? name).isSome

def names (s : Schema) : List String := s.tables.map (·.name)

/-- Appends a table whose name is free and which is valid. -/
def create (s : Schema) (t : Table) : Except Refusal Schema := do
  if s.contains t.name then throw (.taken t.name)
  t.validate
  return ⟨s.tables ++ [t]⟩

/-- Takes a table out and hands it over; the others keep their order. -/
def drop? (s : Schema) (name : String) : Option (Table × Schema) :=
  (s.table? name).map fun t => (t, ⟨s.tables.eraseP (·.name = name)⟩)

end Schema
end TableStore
