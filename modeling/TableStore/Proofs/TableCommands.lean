import TableStore.Proofs.Execution
import TableStore.Proofs.Run

/-
Where a command that makes or drops a table can stop.

Such a command saves the registry first and settles the table's rows afterwards, and neither is
taken back.  `Storage.Stopped` lists the calls at which it can stop, over any storage: the registry
could not be loaded, the command was refused, the registry could not be saved, or the rows could not
be settled.
-/
namespace TableStore

open Stateful

namespace Statement

/-- The table that a command makes or drops. -/
def target? : Statement → Option String
  | createTable table _ => some table
  | dropTable table => some table
  | _ => none

/-- The call that settles the rows of a table that a command makes or drops. -/
def lastWrite? : Statement → Option CallKind
  | createTable .. => some .saveRows
  | dropTable _ => some .deleteRows
  | _ => none

theorem lastWrite?_of_target {statement : Statement} {name : String}
    (htarget : statement.target? = some name) :
    ∃ kind, statement.lastWrite? = some kind ∧ kind ≠ .loadSchema ∧ kind ≠ .loadRows ∧
      kind ≠ .saveSchema := by
  cases statement with
  | createTable table declarations => exact ⟨.saveRows, rfl, nofun, nofun, nofun⟩
  | dropTable table => exact ⟨.deleteRows, rfl, nofun, nofun, nofun⟩
  | _ => cases htarget

theorem dataTable?_of_target {statement : Statement} {name : String}
    (htarget : statement.target? = some name) : statement.dataTable? = none := by
  cases statement <;> first | rfl | cases htarget

theorem isMutation_of_target {statement : Statement} {name : String}
    (htarget : statement.target? = some name) {s after : Snapshot} {outcome : Outcome}
    (h : statement.execute s = .ok (outcome, after)) : outcome.isMutation = true := by
  cases statement with
  | createTable table declarations =>
    obtain ⟨-, -, t, schema, -, -, rfl, -⟩ := Snapshot.createTable_eq_ok_iff.mp h
    rfl
  | dropTable table =>
    obtain ⟨t, schema, -, rfl, -⟩ := Snapshot.dropTable_eq_ok_iff.mp h
    rfl
  | _ => cases htarget

/-- What a command makes of the registry: a new table behind the others, or one of them gone. -/
inductive Rewrites (schema : Schema) : Statement → Schema → Prop where
  | create {name : String} {declarations : List String} {t : Table} {schema' : Schema}
    (hname : Snapshot.validName name = true) (ht : Declaration.table name declarations = .ok t)
    (h : schema.create t = .ok schema') : Rewrites schema (.createTable name declarations) schema'
  | drop {name : String} {t : Table} {schema' : Schema}
    (h : schema.drop? name = some (t, schema')) : Rewrites schema (.dropTable name) schema'

theorem Rewrites.valid {schema schema' : Schema} {statement : Statement}
    (h : Rewrites schema statement schema') (hschema : schema.Valid) : schema'.Valid := by
  cases h with
  | create _ _ hcreate => exact hschema.create hcreate
  | drop hdrop => exact hschema.drop hdrop

end Statement

namespace Storage

variable {m : Type → Type} [Monad m] [Storage m] {σ : Type} [Stateful m σ]

/-- The call at which a command on the table `name` stopped, and what went before it. -/
inductive Stopped (m : Type → Type) [Monad m] [Storage m] {σ : Type} [Stateful m σ]
    (statement : Statement) (name : String) (w : σ) (fault : Fault) (w' : σ) : Prop where
  | unread (h : run (Storage.loadSchema : m (Except Fault Schema)) w = (.error fault, w'))
  | refused {schema : Schema}
    (hload : run (Storage.loadSchema : m (Except Fault Schema)) w = (.ok schema, w'))
    (h : statement.execute ⟨schema, .empty⟩ = .error fault)
  | unsaved {schema schema' : Schema} {w₁ : σ}
    (hload : run (Storage.loadSchema : m (Except Fault Schema)) w = (.ok schema, w₁))
    (hrewrites : statement.Rewrites schema schema')
    (h : run (Storage.saveSchema schema' : m (Except Fault Unit)) w₁ = (.error fault, w'))
  | rowsUnsaved {schema schema' : Schema} {t : Table} {w₁ w₂ : σ}
    (hload : run (Storage.loadSchema : m (Except Fault Schema)) w = (.ok schema, w₁))
    (hrewrites : statement.Rewrites schema schema') (ht : t.name = name)
    (hsave : run (Storage.saveSchema schema' : m (Except Fault Unit)) w₁ = (.ok (), w₂))
    (h : run (Storage.saveRows t .empty : m (Except Fault Unit)) w₂ = (.error fault, w'))
  | rowsKept {schema schema' : Schema} {w₁ w₂ : σ}
    (hload : run (Storage.loadSchema : m (Except Fault Schema)) w = (.ok schema, w₁))
    (hrewrites : statement.Rewrites schema schema')
    (hsave : run (Storage.saveSchema schema' : m (Except Fault Unit)) w₁ = (.ok (), w₂))
    (h : run (Storage.deleteRows name : m (Except Fault Unit)) w₂ = (.error fault, w'))

/-- A statement that works on no rows loads the registry and nothing else. -/
theorem fetch_of_no_table {statement : Statement} (h : statement.dataTable? = none) (w : σ) :
    run (Storage.fetch statement : ExceptT Fault m Snapshot).run w =
      match run (Storage.loadSchema : m (Except Fault Schema)) w with
      | (.ok schema, w') => (.ok ⟨schema, .empty⟩, w')
      | (.error fault, w') => (.error fault, w') := by
  unfold Storage.fetch
  rw [run_exceptT_bind, ExceptT.run_mk, h]
  rcases run (Storage.loadSchema : m (Except Fault Schema)) w with ⟨fault | schema, w'⟩
  · rfl
  · exact run_exceptT_pure _ w'

/-- A cycle behind what it has loaded. -/
theorem cycle_of_fetch {statement : Statement} {s : Snapshot} {w w' : σ}
    (h : run (Storage.fetch statement : ExceptT Fault m Snapshot).run w = (.ok s, w')) :
    run (Storage.cycle statement : ExceptT Fault m Outcome).run w =
      match statement.execute s with
      | .error fault => (.error fault, w')
      | .ok (outcome, after) =>
        if outcome.isMutation then
          let r := run (Storage.store outcome after : ExceptT Fault m Unit).run w'
          (r.1.map fun _ => outcome, r.2)
        else (.ok outcome, w') := by
  unfold Storage.cycle
  rw [run_exceptT_bind, h]
  simp only
  rw [run_exceptT_bind, run_exceptT_mk_pure]
  cases statement.execute s with
  | error fault => rfl
  | ok result =>
    obtain ⟨outcome, after⟩ := result
    simp only
    cases outcome.isMutation with
    | false => exact run_exceptT_pure outcome w'
    | true =>
      rw [if_pos rfl, if_pos rfl, run_exceptT_bind]
      rcases run (Storage.store outcome after : ExceptT Fault m Unit).run w' with ⟨fault | _, w''⟩
      · rfl
      · exact run_exceptT_pure outcome w''

theorem store_of_error {outcome : Outcome} {after : Snapshot} {w w' : σ} {fault : Fault}
    (h : run (do
      if outcome.isMutation then store outcome after
      return outcome : ExceptT Fault m Outcome).run w = (.error fault, w')) :
    run (store outcome after : ExceptT Fault m Unit).run w = (.error fault, w') := by
  cases ho : outcome.isMutation with
  | false =>
    rw [ho, if_neg (by decide), run_exceptT_pure] at h
    cases h
  | true =>
    rw [ho, if_pos rfl] at h
    rcases run_exceptT_bind_eq_error h with hstore | ⟨_, w₁, -, h⟩
    · exact hstore
    · rw [run_exceptT_pure] at h
      cases h

/-- A command on a table that fails has stopped at one of its calls. -/
theorem stopped_of_cycle {statement : Statement} {name : String}
    (htarget : statement.target? = some name) {w w' : σ} {fault : Fault}
    (h : run (Storage.cycle statement : ExceptT Fault m Outcome).run w = (.error fault, w')) :
    Stopped m statement name w fault w' := by
  unfold Storage.cycle at h
  rw [run_exceptT_bind, fetch_of_no_table (Statement.dataTable?_of_target htarget)] at h
  rcases hload : run (Storage.loadSchema : m (Except Fault Schema)) w with ⟨fault' | schema, w₁⟩
  · rw [hload] at h
    cases h
    exact .unread hload
  rw [hload] at h
  simp only at h
  rcases run_exceptT_bind_eq_error h with hexecute | ⟨⟨outcome, after⟩, w₂, hexecute, h⟩
  · rw [run_exceptT_mk_pure, Prod.mk.injEq] at hexecute
    obtain ⟨he, rfl⟩ := hexecute
    exact .refused hload he
  rw [run_exceptT_mk_pure, Prod.mk.injEq] at hexecute
  obtain ⟨he, rfl⟩ := hexecute
  cases statement with
  | createTable table declarations =>
    cases htarget
    obtain ⟨hname, -, t, schema', ht, hcreate, rfl, rfl⟩ := Snapshot.createTable_eq_ok_iff.mp he
    have hrewrites := Statement.Rewrites.create hname ht hcreate
    rcases run_exceptT_bind_eq_error (store_of_error h) with hsave | ⟨_, w₂, hsave, hkeep⟩
    · exact .unsaved hload hrewrites hsave
    · have hfound : schema'.table? name = some t := by
        rw [Schema.table?_create hcreate, Declaration.table_name ht, if_pos rfl]
      unfold Storage.keep at hkeep
      rw [run_exceptT_bind, run_exceptT_mk_pure, Snapshot.table_eq_ok_iff.mpr hfound] at hkeep
      exact .rowsUnsaved hload hrewrites (Declaration.table_name ht) hsave hkeep
  | dropTable table =>
    cases htarget
    obtain ⟨t, schema', hdrop, rfl, rfl⟩ := Snapshot.dropTable_eq_ok_iff.mp he
    have hrewrites := Statement.Rewrites.drop hdrop
    rcases run_exceptT_bind_eq_error (store_of_error h) with hsave | ⟨_, w₂, hsave, hdelete⟩
    · exact .unsaved hload hrewrites hsave
    · exact .rowsKept hload hrewrites hsave hdelete
  | _ => cases htarget

end Storage

theorem Session.remembered?_of_target {statement : Statement} {name : String}
    (htarget : statement.target? = some name) (s : Session) : s.remembered? statement = none := by
  refine remembered?_of_key_none ?_ s
  cases statement <;> first | rfl | cases htarget

/-- A command on a table fails as its cycle does and leaves the session as it was. -/
theorem Session.cycle_of_error {m : Type → Type} [Monad m] [Storage m] {σ : Type} [Stateful m σ]
    {step : Step} {statement : Statement} {name : String} {s s' : Session} {w w' : σ}
    {fault : Fault} (hstep : step.statement? = some statement)
    (htarget : statement.target? = some name)
    (h : Session.act m step (s, w) = (.error fault, s', w')) :
    s' = s ∧ run (Storage.cycle statement : ExceptT Fault m Outcome).run w = (.error fault, w') := by
  rw [act_of_statement? hstep, act_statement, remembered?_of_target htarget] at h
  simp only at h
  rcases hr : run (Storage.cycle statement : ExceptT Fault m Outcome).run w with ⟨fault' | _, w₁⟩
  · rw [hr] at h
    cases h
    exact ⟨rfl, rfl⟩
  · rw [hr] at h
    cases h

end TableStore
