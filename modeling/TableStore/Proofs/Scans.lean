import TableStore.Proofs.CacheCoherence

/-
What a session remembers is the outcome of a select.

A session looks up a statement before it runs it, and a result that it finds is the whole answer.  So
over any storage, good or bad, an outcome of a run is a scan or comes from running the statement that
was asked for (`answered_or_executed`): no remembered result passes for a change, for help or for the
end of a program.
-/
namespace TableStore

open Stateful

/-! ## Where an outcome comes from -/

theorem Storage.executed_of_cycle {m : Type → Type} [Monad m] [Storage m] {σ : Type} [Stateful m σ]
    {statement : Statement} {w w' : σ} {outcome : Outcome}
    (h : run (Storage.cycle statement : ExceptT Fault m Outcome).run w = (.ok outcome, w')) :
    ∃ before after, statement.execute before = .ok (outcome, after) := by
  unfold Storage.cycle at h
  obtain ⟨before, w₁, -, h⟩ := run_exceptT_bind_eq_ok h
  obtain ⟨⟨o, after⟩, w₂, he, h⟩ := run_exceptT_bind_eq_ok h
  rw [run_exceptT_mk_pure] at he
  refine ⟨before, after, ?_⟩
  -- Saving or not, the outcome of the execution is the one that is returned.
  suffices heq : o = outcome by rw [← heq]; exact congrArg Prod.fst he
  cases ho : o.isMutation with
  | false =>
    simp only [ho, Bool.false_eq_true, if_false, run_exceptT_pure] at h
    exact Except.ok.inj (congrArg Prod.fst h)
  | true =>
    simp only [ho, if_true] at h
    obtain ⟨_, w₃, -, h⟩ := run_exceptT_bind_eq_ok h
    rw [run_exceptT_pure] at h
    exact Except.ok.inj (congrArg Prod.fst h)

/-- The outcome is that of a select. -/
def Outcome.IsScan (outcome : Outcome) : Prop :=
  ∃ table columns rows, outcome = scanned table columns rows

theorem Outcome.IsScan.isMutation {outcome : Outcome} (h : outcome.IsScan) :
    outcome.isMutation = false := by
  obtain ⟨table, columns, rows, rfl⟩ := h
  rfl

theorem Statement.isScan_of_execute {table : String} {condition : Option Fields}
    {s after : Snapshot} {outcome : Outcome}
    (h : (select table condition).execute s = .ok (outcome, after)) : outcome.IsScan := by
  obtain ⟨t, rows, -, -, -, rfl, -⟩ := Snapshot.select_eq_ok_iff.mp h
  exact ⟨table, t.columnNames, rows, rfl⟩

theorem Statement.eq_exit_of_execute {statement : Statement} {s after : Snapshot}
    (h : statement.execute s = .ok (.exit, after)) : statement = .exit := by
  cases statement with
  | exit => rfl
  | select table condition =>
    obtain ⟨_, _, _, heq⟩ := Statement.isScan_of_execute h
    cases heq
  | info table =>
    obtain ⟨t, -, heq, -⟩ := Snapshot.info_eq_ok_iff.mp h
    cases heq
  | createTable table declarations =>
    obtain ⟨-, -, t, schema, -, -, heq, -⟩ := Snapshot.createTable_eq_ok_iff.mp h
    cases heq
  | dropTable table =>
    obtain ⟨t, schema, -, heq, -⟩ := Snapshot.dropTable_eq_ok_iff.mp h
    cases heq
  | insert table values =>
    obtain ⟨t, record, id, -, -, -, -, heq, -⟩ := Snapshot.insert_eq_ok_iff.mp h
    cases heq
  | update table assignments condition =>
    obtain ⟨t, -, -, -, -, heq, -⟩ := Snapshot.update_eq_ok_iff.mp h
    cases heq
  | delete table condition =>
    obtain ⟨t, -, -, heq, -⟩ := Snapshot.delete_eq_ok_iff.mp h
    cases heq
  | listTables => cases h
  | help => cases h
  | unknown word => cases h

namespace Session

/-! ## Look-ups -/

/-- Forgetting a table takes out the selects of that table and no others. -/
theorem remembered?_forget_select (s : Session) (table name : String) (condition : Option Fields) :
    (s.forget table).remembered? (.select name condition) =
      if name = table then none else s.remembered? (.select name condition) := by
  cases hc : s.cache with
  | none => simp [forget, remembered?, hc]
  | some cache =>
    simp only [forget, key?, remembered?, hc, Option.map_some, Option.bind_eq_bind,
      Option.bind_some, Cache.get?_forget]

/-- Remembering the outcome of a statement leaves what is remembered of all others. -/
theorem remembered?_remember_of_ne (s : Session) {statement other : Statement} (outcome : Outcome)
    (hne : other ≠ statement) :
    (s.remember statement outcome).remembered? other = s.remembered? other := by
  cases other with
  | select name condition' =>
    cases statement with
    | select table condition =>
      have hkey : ((name, condition') : CacheKey) ≠ (table, condition) := by
        intro heq
        cases heq
        exact hne rfl
      cases hc : s.cache with
      | none => simp [remember, key?, remembered?, hc]
      | some cache =>
        simp only [remember, key?, remembered?, hc, Option.map_some, Option.bind_eq_bind,
          Option.bind_some, Cache.get?_put, if_neg hkey]
    | _ => rfl
  | _ => rw [remembered?_of_key_none rfl, remembered?_of_key_none rfl]

/-- A session without a cache remembers nothing. -/
theorem isSome_cache_of_remembered? {s : Session} {statement : Statement} {outcome : Outcome}
    (h : s.remembered? statement = some outcome) : s.cache.isSome = true := by
  cases hc : s.cache with
  | none => simp [remembered?, hc] at h
  | some cache => rfl

theorem remembered?_remember_self (s : Session) (table : String) (condition : Option Fields)
    (outcome : Outcome) :
    (s.remember (.select table condition) outcome).remembered? (.select table condition) =
      if s.cache.isSome then some outcome else none := by
  cases hc : s.cache with
  | none => simp [remember, key?, remembered?, hc]
  | some cache =>
    simp only [remember, key?, remembered?, hc, Option.map_some, Option.bind_eq_bind,
      Option.bind_some, Cache.get?_put, Option.isSome_some, if_true]

/-! ## Sessions that remember scans -/

/-- Everything that the session remembers is the outcome of a select; whether the storage would still
answer so is another matter. -/
def RemembersScans (s : Session) : Prop :=
  ∀ statement outcome, s.remembered? statement = some outcome → outcome.IsScan

theorem remembersScans_start (cached : Bool) : (start cached).RemembersScans := by
  intro statement outcome h
  obtain ⟨table, condition, rfl⟩ := remembered?_eq_some h
  cases cached <;> simp [start, remembered?, key?, Cache.get?, Cache.empty] at h

theorem RemembersScans.remember {s : Session} (hs : s.RemembersScans) {statement : Statement}
    {before after : Snapshot} {outcome : Outcome}
    (h : statement.execute before = .ok (outcome, after)) :
    (s.remember statement outcome).RemembersScans := by
  intro other o ho
  obtain ⟨table, condition, rfl⟩ := remembered?_eq_some ho
  rcases remembered?_remember ho with ⟨rfl, rfl⟩ | hold
  · exact Statement.isScan_of_execute h
  · exact hs _ _ hold

theorem RemembersScans.forget {s : Session} (hs : s.RemembersScans) (table : String) :
    (s.forget table).RemembersScans := by
  intro other o ho
  obtain ⟨name, condition, rfl⟩ := remembered?_eq_some ho
  exact hs _ _ (remembered?_forget ho).2

section

variable {m : Type → Type} [Monad m] [Storage m] {σ : Type} [Stateful m σ]

/-- The outcome of a statement was remembered, or comes from running the statement. -/
theorem answered_or_executed {statement : Statement} {s : Session} {w : σ} {outcome : Outcome}
    (h : (act m (.statement statement) (s, w)).1 = .ok (some outcome)) :
    s.remembered? statement = some outcome ∨
      ∃ before after, statement.execute before = .ok (outcome, after) := by
  rw [act_statement] at h
  cases hs : s.remembered? statement with
  | some o =>
    rw [hs] at h
    cases h
    exact .inl rfl
  | none =>
    rw [hs] at h
    rcases hr : run (Storage.cycle statement : ExceptT Fault m Outcome).run w with ⟨fault | o, w'⟩
    · rw [hr] at h
      cases h
    · rw [hr] at h
      cases h
      exact .inr (Storage.executed_of_cycle hr)

/-- A step keeps a session that remembers scans so, over any storage. -/
theorem RemembersScans.act {w : Session × σ} (hw : w.1.RemembersScans) (step : Step) :
    (act m step w).2.1.RemembersScans := by
  refine act_invariant (I := fun w => w.1.RemembersScans) (fun statement _ w hw => ?_)
    (fun w _ => remembersScans_start _) hw
  obtain ⟨s, w⟩ := w
  rw [act_statement]
  cases hs : s.remembered? statement with
  | some outcome => exact hw
  | none =>
    rcases hr : run (Storage.cycle statement : ExceptT Fault m Outcome).run w with ⟨fault | o, w'⟩
    · exact hw
    · obtain ⟨before, after, he⟩ := Storage.executed_of_cycle hr
      cases hc : o.changed? with
      | none => simpa only [after_read s statement hc] using hw.remember he
      | some table => simpa only [after_write s statement hc] using hw.forget table

/-- Nothing but running `exit` is answered by the end of the program. -/
theorem RemembersScans.statement_of_exit {s : Session} (hs : s.RemembersScans) {step : Step} {w : σ}
    (h : (Session.act m step (s, w)).1 = .ok (some .exit)) : step.statement? = some .exit := by
  cases hstep : step.statement? with
  | none => exact absurd h (not_answered_of_no_statement hstep _ _)
  | some statement =>
    rw [act_of_statement? hstep] at h
    rcases answered_or_executed h with hremembered | ⟨before, after, he⟩
    · obtain ⟨table, columns, rows, heq⟩ := hs _ _ hremembered
      cases heq
    · rw [Statement.eq_exit_of_execute he]

end

end Session
end TableStore
