import TableStore.Proofs.Execution
import TableStore.Proofs.Run

/-
Storages that cannot be told apart by a session.

Two storages simulate one another when each of the five calls answers the same in related worlds and
leaves related worlds.  A call need not do so for every argument: a session only ever saves
registries that it obtained from a stored one and only names tables that a registry holds, so it is
enough to know the calls for `Good` registries and `Allowed` names.  From the calls the relation
reaches the cycle of a statement (`Simulation.cycle`), a step and a run (`Simulation.trace_act`).
-/
namespace TableStore

open Stateful

section

variable {m m' : Type → Type} [Monad m] [Monad m'] {σ σ' : Type} [Stateful m σ] [Stateful m' σ']

/-- From related worlds both actions give the same result and end in related worlds, and what they
give, if they give anything, satisfies `Q`. -/
def Alike (R : σ → σ' → Prop) {α : Type} (Q : α → Prop) (x : ExceptT Fault m α)
    (y : ExceptT Fault m' α) : Prop :=
  ∀ w w', R w w' → (run x.run w).1 = (run y.run w').1 ∧ R (run x.run w).2 (run y.run w').2 ∧
    ∀ a, (run x.run w).1 = .ok a → Q a

namespace Alike

variable {R : σ → σ' → Prop} {α β : Type}

theorem result {Q : α → Prop} (r : Except Fault α) (hr : ∀ a, r = .ok a → Q a) :
    Alike R Q (ExceptT.mk (pure r) : ExceptT Fault m α) (ExceptT.mk (pure r) : ExceptT Fault m' α) := by
  intro w w' hw
  rw [run_exceptT_mk_pure, run_exceptT_mk_pure]
  exact ⟨rfl, hw, hr⟩

theorem pure {Q : α → Prop} (a : α) (ha : Q a) :
    Alike R Q (pure a : ExceptT Fault m α) (pure a : ExceptT Fault m' α) :=
  result (.ok a) fun b hb => by
    cases hb
    exact ha

/-- The second halves need only agree on what the first halves can give. -/
theorem bind {P : α → Prop} {Q : β → Prop} {x : ExceptT Fault m α} {y : ExceptT Fault m' α}
    {f : α → ExceptT Fault m β} {g : α → ExceptT Fault m' β} (hx : Alike R P x y)
    (hf : ∀ a, P a → Alike R Q (f a) (g a)) : Alike R Q (x >>= f) (y >>= g) := by
  intro w w' hw
  obtain ⟨hresult, hworlds, hP⟩ := hx w w' hw
  rw [run_exceptT_bind, run_exceptT_bind]
  rcases hxr : run x.run w with ⟨r, w₁⟩
  rcases hyr : run y.run w' with ⟨r', w₁'⟩
  simp only [hxr, hyr] at hresult hworlds hP
  subst hresult
  cases r with
  | ok a => exact hf a (hP a rfl) w₁ w₁' hworlds
  | error fault => exact ⟨rfl, hworlds, fun b hb => by cases hb⟩

end Alike

/-- The five calls answer alike, on the registries and the table names that a session comes to. -/
structure Simulation (m m' : Type → Type) [Monad m] [Monad m'] [Storage m] [Storage m'] {σ σ' : Type}
    [Stateful m σ] [Stateful m' σ'] (R : σ → σ' → Prop) (Good : Schema → Prop)
    (Allowed : String → Prop) : Prop where
  loadSchema : Alike R Good (ExceptT.mk Storage.loadSchema : ExceptT Fault m Schema)
    (ExceptT.mk Storage.loadSchema : ExceptT Fault m' Schema)
  saveSchema : ∀ schema, Good schema →
    Alike R (fun _ => True) (ExceptT.mk (Storage.saveSchema schema) : ExceptT Fault m Unit)
      (ExceptT.mk (Storage.saveSchema schema) : ExceptT Fault m' Unit)
  loadRows : ∀ table, Allowed table →
    Alike R (fun _ => True) (ExceptT.mk (Storage.loadRows table) : ExceptT Fault m Rows)
      (ExceptT.mk (Storage.loadRows table) : ExceptT Fault m' Rows)
  saveRows : ∀ (t : Table) rows, Allowed t.name →
    Alike R (fun _ => True) (ExceptT.mk (Storage.saveRows t rows) : ExceptT Fault m Unit)
      (ExceptT.mk (Storage.saveRows t rows) : ExceptT Fault m' Unit)
  deleteRows : ∀ table, Allowed table →
    Alike R (fun _ => True) (ExceptT.mk (Storage.deleteRows table) : ExceptT Fault m Unit)
      (ExceptT.mk (Storage.deleteRows table) : ExceptT Fault m' Unit)
  create : ∀ {s s' : Schema} {t : Table}, Good s → Allowed t.name → s.create t = .ok s' → Good s'
  drop : ∀ {s s' : Schema} {t : Table} {name : String}, Good s → s.drop? name = some (t, s') →
    Good s'
  allowed : ∀ {s : Schema} {name : String}, Good s → s.contains name = true → Allowed name

/-- The tables that a statement creates have allowed names. -/
def Statement.Creates (Allowed : String → Prop) (statement : Statement) : Prop :=
  ∀ name declarations, statement = .createTable name declarations → Allowed name

namespace Simulation

variable [Storage m] [Storage m'] {R : σ → σ' → Prop} {Good : Schema → Prop}
  {Allowed : String → Prop} (sim : Simulation m m' R Good Allowed)
include sim

theorem fetch (statement : Statement) :
    Alike R (fun s => Good s.schema) (Storage.fetch statement : ExceptT Fault m Snapshot)
      (Storage.fetch statement : ExceptT Fault m' Snapshot) := by
  refine sim.loadSchema.bind fun schema hschema => ?_
  cases statement.dataTable? with
  | none => exact .pure _ hschema
  | some table =>
    by_cases hc : schema.contains table = true
    · simp only [hc, if_true]
      exact (sim.loadRows table (sim.allowed hschema hc)).bind fun rows _ => .pure _ hschema
    · simp only [hc]
      exact .pure _ hschema

theorem keep (s : Snapshot) (hs : Good s.schema) (table : String) (rows : Rows) :
    Alike R (fun _ => True) (Storage.keep s table rows : ExceptT Fault m Unit)
      (Storage.keep s table rows : ExceptT Fault m' Unit) := by
  refine Alike.bind (.result (s.table table) fun t ht => Snapshot.table_eq_ok_iff.mp ht)
    fun t ht => sim.saveRows t rows ?_
  rw [(Schema.table?_eq_some ht).2]
  exact sim.allowed hs (Schema.contains_of_table? ht)

/-- Whatever a statement makes of a good registry can be saved on both sides. -/
theorem store {s after : Snapshot} {statement : Statement} {outcome : Outcome}
    (hs : Good s.schema) (hcreates : statement.Creates Allowed)
    (h : Snapshot.Change s statement outcome after) :
    Alike R (fun _ => True) (Storage.store outcome after : ExceptT Fault m Unit)
      (Storage.store outcome after : ExceptT Fault m' Unit) := by
  cases h with
  | create hname ht hcreate =>
    have hgood := sim.create hs (Declaration.table_name ht ▸ hcreates _ _ rfl) hcreate
    exact (sim.saveSchema _ hgood).bind fun _ _ => sim.keep ⟨_, s.rows⟩ hgood _ _
  | drop hdrop =>
    have hname := sim.allowed hs (Schema.contains_of_table? (Schema.drop?_eq_some_iff.mp hdrop).1)
    exact (sim.saveSchema _ (sim.drop hs hdrop)).bind fun _ _ => sim.deleteRows _ hname
  | insert _ _ _ _ => exact sim.keep ⟨s.schema, _⟩ hs _ _
  | update _ _ _ _ => exact sim.keep ⟨s.schema, _⟩ hs _ _
  | delete _ _ => exact sim.keep ⟨s.schema, _⟩ hs _ _

theorem cycle (statement : Statement) (hcreates : statement.Creates Allowed) :
    Alike R (fun _ => True) (Storage.cycle statement : ExceptT Fault m Outcome)
      (Storage.cycle statement : ExceptT Fault m' Outcome) := by
  refine (sim.fetch statement).bind fun before hbefore => ?_
  refine Alike.bind (.result (Q := fun r => statement.execute before = .ok r) _ fun _ h => h)
    fun (outcome, after) he => ?_
  cases ho : outcome.isMutation with
  | true =>
    simp only [ho, if_true]
    exact (sim.store hbefore hcreates (Statement.change_of_execute he ho)).bind fun _ _ =>
      .pure _ trivial
  | false =>
    simp only [ho, Bool.false_eq_true, if_false]
    exact .pure _ trivial

theorem act_statement {statement : Statement} (hcreates : statement.Creates Allowed) (s : Session)
    {w : σ} {w' : σ'} (hw : R w w') :
    (Session.act m (.statement statement) (s, w)).1 =
        (Session.act m' (.statement statement) (s, w')).1 ∧
      (Session.act m (.statement statement) (s, w)).2.1 =
        (Session.act m' (.statement statement) (s, w')).2.1 ∧
      R (Session.act m (.statement statement) (s, w)).2.2
        (Session.act m' (.statement statement) (s, w')).2.2 := by
  rw [Session.act_statement, Session.act_statement]
  cases s.remembered? statement with
  | some outcome => exact ⟨rfl, rfl, hw⟩
  | none =>
    obtain ⟨hresult, hworlds, -⟩ := sim.cycle statement hcreates w w' hw
    simp only
    rw [hresult]
    exact ⟨rfl, rfl, hworlds⟩

theorem trace_act {steps : List Step}
    (hsteps : ∀ step ∈ steps, ∀ statement, step.statement? = some statement →
      statement.Creates Allowed) (s : Session) {w : σ} {w' : σ'} (hw : R w w') :
    (trace (Session.act m) steps (s, w)).1 = (trace (Session.act m') steps (s, w')).1 ∧
      R (trace (Session.act m) steps (s, w)).2.2 (trace (Session.act m') steps (s, w')).2.2 := by
  let R' (w : Session × σ) (w' : Session × σ') : Prop := w.1 = w'.1 ∧ R w.2 w'.2
  have hstatement (step : Step) (hstep : step ∈ steps) (statement : Statement)
      (hst : step.statement? = some statement) (w : Session × σ) (w' : Session × σ')
      (h : R' w w') :
      (Session.act m (.statement statement) w).1 = (Session.act m' (.statement statement) w').1 ∧
        R' (Session.act m (.statement statement) w).2
          (Session.act m' (.statement statement) w').2 := by
    obtain ⟨s, w⟩ := w
    obtain ⟨s', w'⟩ := w'
    obtain ⟨rfl, hww'⟩ := h
    exact sim.act_statement (hsteps step hstep statement hst) s hww'
  have hrun : (trace (Session.act m) steps (s, w)).1 = (trace (Session.act m') steps (s, w')).1 ∧
      R' (trace (Session.act m) steps (s, w)).2 (trace (Session.act m') steps (s, w')).2 :=
    trace_simulation (fun step hstep w w' h => Session.act_simulation (hstatement step hstep)
      (fun w w' hww' => ⟨congrArg Session.reopened hww'.1, hww'.2⟩) h) ⟨rfl, hw⟩
  exact ⟨hrun.1, hrun.2.2⟩

end Simulation

end
end TableStore
