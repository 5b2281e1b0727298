import TableStore.Storage

/-
Storage in memory.  Its calls never fail.
-/
namespace TableStore

structure Memory where
  schema : Schema
  rows : SortedMap String Rows
deriving DecidableEq

namespace Memory

def empty : Memory := ⟨.empty, .empty⟩

instance : Inhabited Memory := ⟨empty⟩

def rowsOf (s : Memory) (table : String) : Rows := (s.rows.get? table).getD .empty

instance : Storage (StateM Memory) where
  loadSchema := return .ok (← get).schema
  saveSchema schema := do
    modify fun s => { s with schema }
    return .ok ()
  loadRows table := return .ok ((← get).rowsOf table)
  saveRows table rows := do
    modify fun s => { s with rows := s.rows.insert table.name rows }
    return .ok ()
  deleteRows table := do
    modify fun s => { s with rows := s.rows.erase table }
    return .ok ()

end Memory
end TableStore
