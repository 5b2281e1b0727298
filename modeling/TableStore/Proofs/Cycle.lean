import TableStore.Proofs.Stateful

/-
A statement on the storage alone.

Running a statement touches two things that do not meet: the storage, which it reads and writes, and
the remembered results, which it looks at before and brings up to date afterwards.  `Storage.cycle`
is the first of them, load, run and save, and `run_execute` puts a session together from it: a
remembered result answers by itself, and otherwise the cycle answers and the session remembers or
forgets as `Session.after` says.
-/
namespace TableStore

/-- The table that a command changed, if it changed one. -/
def Outcome.changed? : Outcome → Option String
  | created table _ | dropped table | inserted table _ => some table
  | updated table ids | deleted table ids => if ids.isEmpty then none else some table
  | _ => none

theorem Outcome.isMutation_eq (o : Outcome) : o.isMutation = o.changed?.isSome := by
  cases o with
  | updated table ids => cases ids <;> rfl
  | deleted table ids => cases ids <;> rfl
  | _ => rfl

theorem Outcome.isMutation_iff {o : Outcome} :
    o.isMutation = true ↔ ∃ table, o.changed? = some table := by
  rw [isMutation_eq, Option.isSome_iff_exists]

theorem Outcome.not_isMutation_iff {o : Outcome} : o.isMutation = false ↔ o.changed? = none := by
  rw [isMutation_eq, Option.isSome_eq_false_iff, Option.isNone_iff_eq_none]

theorem Session.remembered?_of_key_none {statement : Statement} (h : key? statement = none)
    (s : Session) : s.remembered? statement = none := by
  unfold remembered?
  rw [h]
  cases s.cache <;> rfl

/-- The session behind a statement that had to ask the storage. -/
def Session.after (s : Session) (statement : Statement) : Except Fault Outcome → Session
  | .error _ => s
  | .ok outcome =>
    match outcome.changed? with
    | some table => s.forget table
    | none => s.remember statement outcome

theorem Session.after_read (s : Session) (statement : Statement) {outcome : Outcome}
    (h : outcome.changed? = none) :
    s.after statement (.ok outcome) = s.remember statement outcome := by
  simp only [after, h]

theorem Session.after_write (s : Session) (statement : Statement) {outcome : Outcome}
    {table : String} (h : outcome.changed? = some table) :
    s.after statement (.ok outcome) = s.forget table := by
  simp only [after, h]

namespace Storage

variable {m : Type → Type} [Monad m] [Storage m]

/-- Loads what a statement works on. -/
def fetch (statement : Statement) : ExceptT Fault m Snapshot := do
  let schema ← ExceptT.mk Storage.loadSchema
  match statement.dataTable? with
  | some table =>
    if schema.contains table then return ⟨schema, ← ExceptT.mk (Storage.loadRows table)⟩
    else return ⟨schema, .empty⟩
  | none => return ⟨schema, .empty⟩

/-- Saves the rows of a table that the registry holds. -/
def keep (s : Snapshot) (table : String) (rows : Rows) : ExceptT Fault m Unit := do
  let t ← ExceptT.mk (pure (s.table table))
  ExceptT.mk (Storage.saveRows t rows)

def store (outcome : Outcome) (s : Snapshot) : ExceptT Fault m Unit :=
  match outcome with
  | .created table _ => do
    ExceptT.mk (Storage.saveSchema s.schema)
    keep s table .empty
  | .dropped table => do
    ExceptT.mk (Storage.saveSchema s.schema)
    ExceptT.mk (Storage.deleteRows table)
  | .inserted table _ | .updated table _ | .deleted table _ => keep s table s.rows
  | _ => return ()

def cycle (statement : Statement) : ExceptT Fault m Outcome := do
  let before ← fetch statement
  let (outcome, after) ← ExceptT.mk (pure (statement.execute before))
  if outcome.isMutation then store outcome after
  return outcome

end Storage

namespace Session

open Stateful

variable {m : Type → Type} [Monad m] {σ : Type} [Stateful m σ]

/-- The action `x` does to the storage what `y` does, and to the session what `f` does, but only if
`y` goes through. -/
def Follows {α : Type} (x : Action m α) (y : ExceptT Fault m α) (f : Session → Session) : Prop :=
  ∀ (s : Session) (w : σ), run x.run (s, w) =
    match run y.run w with
    | (.ok a, w') => (.ok a, f s, w')
    | (.error fault, w') => (.error fault, s, w')

theorem Follows.result {α : Type} (r : Except Fault α) :
    Follows (m := m) (ExceptT.mk (pure r)) (ExceptT.mk (pure r)) id := by
  intro s w
  cases r <;> simp

theorem Follows.pure {α : Type} (a : α) : Follows (m := m) (pure a) (pure a) id :=
  Follows.result (.ok a)

theorem Follows.call {α : Type} (c : m (Except Fault α)) : Follows (call c) (ExceptT.mk c) id := by
  intro s w
  rcases h : run c w with ⟨r, w'⟩
  cases r <;> simp [Session.call, h]

theorem Follows.bind {α β : Type} {x : Action m α} {y : ExceptT Fault m α}
    {f : α → Action m β} {g : α → ExceptT Fault m β} {h : Session → Session}
    (hx : Follows x y id) (hf : ∀ a, Follows (f a) (g a) h) :
    Follows (x >>= f) (y >>= g) h := by
  intro s w
  rw [run_exceptT_bind, run_exceptT_bind, hx]
  obtain ⟨r, w'⟩ := run y.run w
  cases r with
  | ok a => exact hf a s w'
  | error fault => rfl

theorem Follows.andModify {x : Action m Unit} {y : ExceptT Fault m Unit} (hx : Follows x y id)
    (f : Session → Session) : Follows (x >>= fun _ => modify f) y f := by
  intro s w
  rw [run_exceptT_bind, hx]
  obtain ⟨r, w'⟩ := run y.run w
  cases r with
  | ok _ => exact run_exceptT_modify f (s, w')
  | error fault => rfl

variable [Storage m]

theorem follows_load (statement : Statement) :
    Follows (load statement : Action m Snapshot) (Storage.fetch statement) id := by
  refine Follows.bind (.call _) fun schema => ?_
  cases statement.dataTable? with
  | none => exact .pure _
  | some table =>
    by_cases h : schema.contains table = true
    · simp only [h, if_true]
      exact Follows.bind (.call _) fun rows => .pure _
    · simp only [h]
      exact .pure _

theorem follows_saveRows (s : Snapshot) (table : String) (rows : Rows) :
    Follows (saveRows s table rows : Action m Unit) (Storage.keep s table rows) id :=
  Follows.bind (.result _) fun _ => .call _

/-- A session forgets a table only after everything that changed is saved. -/
theorem follows_persist {outcome : Outcome} {table : String} (after : Snapshot)
    (h : outcome.changed? = some table) :
    Follows (persist outcome after : Action m Unit) (Storage.store outcome after)
      (·.forget table) := by
  cases outcome with
  | created name columns =>
    obtain rfl : name = table := by simpa [Outcome.changed?] using h
    exact Follows.bind (.call _) fun _ => (follows_saveRows _ _ _).andModify _
  | dropped name =>
    obtain rfl : name = table := by simpa [Outcome.changed?] using h
    exact Follows.bind (.call _) fun _ => (Follows.call _).andModify _
  | inserted name id =>
    obtain rfl : name = table := by simpa [Outcome.changed?] using h
    exact (follows_saveRows _ _ _).andModify _
  | updated name ids =>
    obtain rfl : name = table := by simp_all [Outcome.changed?]
    exact (follows_saveRows _ _ _).andModify _
  | deleted name ids =>
    obtain rfl : name = table := by simp_all [Outcome.changed?]
    exact (follows_saveRows _ _ _).andModify _
  | _ => simp [Outcome.changed?] at h

/-- A remembered result answers by itself.  Otherwise the storage goes through one cycle, whose
result is the answer and decides what the session remembers and forgets. -/
theorem run_execute (statement : Statement) (s : Session) (w : σ) :
    run (execute statement : Action m Outcome).run (s, w) =
      match s.remembered? statement with
      | some outcome => (.ok outcome, s, w)
      | none =>
        let r := run (Storage.cycle statement : ExceptT Fault m Outcome).run w
        (r.1, s.after statement r.1, r.2) := by
  unfold execute Storage.cycle
  rw [run_exceptT_bind, run_exceptT_get]
  cases hs : s.remembered? statement with
  | some outcome => simp [hs]
  | none =>
    simp only [hs]
    rw [run_exceptT_bind, run_exceptT_bind, follows_load]
    obtain ⟨r, w'⟩ := run (Storage.fetch (m := m) statement).run w
    cases r with
    | error fault => rfl
    | ok before =>
      simp only
      rw [run_exceptT_bind, run_exceptT_bind, run_exceptT_mk_pure, run_exceptT_mk_pure]
      cases statement.execute before with
      | error fault => rfl
      | ok result =>
        obtain ⟨outcome, saved⟩ := result
        cases hc : outcome.changed? with
        | none =>
          simp only [Outcome.isMutation_eq, hc, Option.isSome_none, Bool.false_eq_true, if_false]
          rw [run_exceptT_bind, run_exceptT_modify]
          simp only [id_eq, run_exceptT_pure, after_read s _ hc]
        | some table =>
          have hp := follows_persist (m := m) saved hc s w'
          rcases hw : run (Storage.store (m := m) outcome saved).run w' with ⟨r, w''⟩
          rw [hw] at hp
          cases r with
          | error fault =>
            simp only [id_eq, Outcome.isMutation_eq, hc, Option.isSome_some, if_true]
            rw [run_exceptT_bind, run_exceptT_bind, hp, hw]
            rfl
          | ok _ =>
            simp only [id_eq, Outcome.isMutation_eq, hc, Option.isSome_some, if_true]
            rw [run_exceptT_bind, run_exceptT_bind, hp, hw]
            simp only [run_exceptT_pure, after_write s _ hc]

end Session
end TableStore
