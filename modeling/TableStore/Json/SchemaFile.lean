import TableStore.Json.Scalar

/-
The registry of tables as JSON: a section for each table, in the order of creation, with its columns
in order and their types.

Reading goes through `Schema.create`, so what is read obeys the same laws as what is created.
-/
namespace TableStore
namespace Schema

open Json

def writeTable (l : Layout) (t : Table) : List Char :=
  l.object 1 (t.columns.map fun c => (c.name, writeType c.dataType))

def toJson (l : Layout) (s : Schema) : String :=
  String.ofList (l.object 0 (s.tables.map fun t => (t.name, writeTable l t)))

def shape : Shape TextFault Schema (List Column) where
  whole := .empty
  part := []
  addMember columns key leaf := do
    let name ← expect (readName? key)
    let type ← expect (readType? leaf)
    return columns ++ [⟨name, type⟩]
  addPart schema name columns := do
    let name ← expect (readName? name)
    (schema.create ⟨name, columns⟩).mapError .refused

def ofJson (text : String) : Except FileFault Schema :=
  (shape.read .badJson (Lexeme.ofText text)).mapError (.unread .registry text)

end Schema
end TableStore
