import TableStore.Cache
import TableStore.Execution
import TableStore.Statement.Reading
import TableStore.Storage

/-
A session: commands over a storage.

Each command loads the registry and the rows of the table that it works on, runs on them, and saves
what it changed.  Between commands a session keeps nothing but the results of selects, and those
only if it has a cache.
-/
namespace TableStore

structure Session where
  cache : Option Cache
deriving DecidableEq

namespace Session

/-- A session that has run nothing yet. -/
def start (cached : Bool) : Session := ⟨if cached then some .empty else none⟩

/-- An action of a session over the storage `m`.  What it has done to the session and to the storage
stays done when it fails. -/
abbrev Action (m : Type → Type) := ExceptT Fault (StateT Session m)

/-- The key under which a statement's result is remembered; only selects have one. -/
def key? : Statement → Option CacheKey
  | .select table condition => some (table, condition)
  | _ => none

/-- The remembered result of a statement. -/
def remembered? (s : Session) (statement : Statement) : Option Outcome := do
  (← s.cache).get? (← key? statement)

/-- The session after a statement that changed nothing. -/
def remember (s : Session) (statement : Statement) (outcome : Outcome) : Session :=
  match key? statement with
  | some key => ⟨s.cache.map (·.put key outcome)⟩
  | none => s

/-- The session after a change of a table. -/
def forget (s : Session) (table : String) : Session := ⟨s.cache.map (·.forget table)⟩

variable {m : Type → Type} [Monad m]

/-- A call of the storage. -/
def call {α : Type} (c : m (Except Fault α)) : Action m α := ExceptT.mk (StateT.lift c)

variable [Storage m]

/-- What a statement works on: the registry, and the rows of its table if the registry has it. -/
def load (statement : Statement) : Action m Snapshot := do
  let schema ← call Storage.loadSchema
  match statement.dataTable? with
  | some table =>
    if schema.contains table then return ⟨schema, ← call (Storage.loadRows table)⟩
    else return ⟨schema, .empty⟩
  | none => return ⟨schema, .empty⟩

/-- Saves the rows of a table that the registry holds. -/
def saveRows (s : Snapshot) (table : String) (rows : Rows) : Action m Unit := do
  let t ← ExceptT.mk (pure (s.table table))
  call (Storage.saveRows t rows)

/-- Saves what a statement changed.  A new table starts with no rows, whatever an older table of its
name may have left behind. -/
def persist (outcome : Outcome) (s : Snapshot) : Action m Unit := do
  match outcome with
  | .created table _ =>
    call (Storage.saveSchema s.schema)
    saveRows s table .empty
    modify (·.forget table)
  | .dropped table =>
    call (Storage.saveSchema s.schema)
    call (Storage.deleteRows table)
    modify (·.forget table)
  | .inserted table _ | .updated table _ | .deleted table _ =>
    saveRows s table s.rows
    modify (·.forget table)
  | _ => return ()

/-- Runs a statement.  A select that is remembered makes no call of the storage. -/
def execute (statement : Statement) : Action m Outcome := do
  match (← get).remembered? statement with
  | some outcome => return outcome
  | none =>
    let before ← load statement
    let (outcome, after) ← ExceptT.mk (pure (statement.execute before))
    if outcome.isMutation then persist outcome after
    else modify (·.remember statement outcome)
    return outcome

/-- Runs a line; a blank one has no outcome. -/
def executeLine (line : String) : Action m (Option Outcome) := do
  match Statement.read line with
  | .error cause => throw (.malformed cause)
  | .ok none => return none
  | .ok (some statement) => return some (← execute statement)

end Session
end TableStore
