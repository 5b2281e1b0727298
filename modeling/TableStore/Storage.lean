import TableStore.Fault

/-
What a session asks of its storage: five calls that each read, write or remove one object as a
whole.
-/
namespace TableStore

/-- A monad with the calls of a storage.  What was never saved, or was deleted, reads as empty. -/
class Storage (m : Type → Type) where
  loadSchema : m (Except Fault Schema)
  saveSchema : Schema → m (Except Fault Unit)
  loadRows : String → m (Except Fault Rows)
  saveRows : Table → Rows → m (Except Fault Unit)
  deleteRows : String → m (Except Fault Unit)

end TableStore
