import TableStore.Storage

/-
Storage under watch: every call is recorded, and the next call of a chosen kind can be made to fail.

A call that is made to fail has no effect, so a session over watched storage shows what it does when
its storage gives way at one point.
-/
namespace TableStore

/-- The kinds of call. -/
inductive CallKind where
  | loadSchema
  | saveSchema
  | loadRows
  | saveRows
  | deleteRows
deriving DecidableEq

def CallKind.name : CallKind → String
  | loadSchema => "load_schema"
  | saveSchema => "save_schema"
  | loadRows => "load_rows"
  | saveRows => "save_rows"
  | deleteRows => "delete_rows"

/-- A recorded call: its kind, the table that it names, if any, and whether it was made to fail. -/
structure Call where
  kind : CallKind
  table : Option String
  failed : Bool
deriving DecidableEq

/-- The calls so far, and the kind whose next call fails. -/
structure Watch where
  armed : Option CallKind
  calls : List Call
deriving DecidableEq

namespace Watch

def start : Watch := ⟨none, []⟩

variable {m : Type → Type} [Monad m]

/-- Makes a call under watch. -/
def watched {α : Type} (kind : CallKind) (table : Option String) (call : m (Except Fault α)) :
    StateT Watch m (Except Fault α) := do
  let failed := (← get).armed = some kind
  modify fun w => ⟨if failed then none else w.armed, w.calls ++ [⟨kind, table, failed⟩]⟩
  if failed then return .error (.storage s!"injected {kind.name}") else call

instance [Storage m] : Storage (StateT Watch m) where
  loadSchema := watched .loadSchema none Storage.loadSchema
  saveSchema schema := watched .saveSchema none (Storage.saveSchema schema)
  loadRows table := watched .loadRows (some table) (Storage.loadRows table)
  saveRows table rows := watched .saveRows (some table.name) (Storage.saveRows table rows)
  deleteRows table := watched .deleteRows (some table) (Storage.deleteRows table)

end Watch
end TableStore
