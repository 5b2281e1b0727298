import TableStore.Proofs.CacheCoherence
import TableStore.Proofs.PairedMemory

/-
Runs over memory that never fails.

Where no call fails a statement is refused and changes nothing, or it has its outcome and everything
that it changed is saved.  A session that remembers only what memory would answer cannot be told from
one that asks memory, so this holds of every step of a session, whether or not it has a cache
(`InOrder.act_statement`).
-/
namespace TableStore

open Stateful

namespace Memory

/-- A cycle of which no call can fail does what the statement does to what it loads. -/
theorem Cycle.of_unarmed {memory memory' : Memory} {statement : Statement}
    {result : Except Fault Outcome} {armed' : Option CallKind}
    (h : Cycle none memory statement result armed' memory') :
    (∃ fault, statement.execute (memory.snapshot statement) = .error fault ∧
      result = .error fault ∧ memory' = memory) ∨
    ∃ outcome after, statement.execute (memory.snapshot statement) = .ok (outcome, after) ∧
      result = .ok outcome ∧
      memory' = if outcome.isMutation then memory.commit outcome after else memory := by
  cases h with
  | unread harmed _ => cases harmed
  | refused he => exact .inl ⟨_, he, rfl, rfl⟩
  | answered he ho => exact .inr ⟨_, _, he, rfl, by simp [ho]⟩
  | unsaved harmed _ _ _ => cases harmed
  | halfSaved harmed _ _ _ => cases harmed
  | saved he ho => exact .inr ⟨_, _, he, rfl, by simp [ho]⟩

/-- The registry obeys its laws, and what the session remembers is what memory would answer. -/
structure InOrder (w : Session × Memory) : Prop where
  valid : w.2.schema.Valid
  coherent : w.1.Coherent w.2

theorem inOrder_start (cached : Bool) : InOrder (.start cached, empty) :=
  ⟨Schema.valid_empty, Session.coherent_start cached empty⟩

theorem valid_commit {memory : Memory} (h : memory.schema.Valid) {statement : Statement}
    {outcome : Outcome} {after : Snapshot}
    (hchange : Snapshot.Change (memory.snapshot statement) statement outcome after) :
    (memory.commit outcome after).schema.Valid := by
  cases hchange with
  | create _ _ hcreate => exact h.create hcreate
  | drop hdrop => exact h.drop hdrop
  | insert _ _ _ _ => exact h
  | update _ _ _ _ => exact h
  | delete _ _ => exact h

/-- A statement is refused, or it is answered and everything that it changed is saved. -/
theorem InOrder.act_statement {w : Session × Memory} (h : InOrder w) (statement : Statement) :
    let r := Session.act (StateM Memory) (.statement statement) w
    InOrder r.2 ∧
      ((∃ fault, statement.execute (w.2.snapshot statement) = .error fault ∧ r.1 = .error fault ∧
        r.2.2 = w.2) ∨
      ∃ outcome after, statement.execute (w.2.snapshot statement) = .ok (outcome, after) ∧
        r.1 = .ok (some outcome) ∧
        r.2.2 = if outcome.isMutation then w.2.commit outcome after else w.2) := by
  obtain ⟨s, memory⟩ := w
  obtain ⟨hvalid, hs⟩ := h
  intro r
  have hr : r = _ := Session.act_statement statement s memory
  cases hremembered : s.remembered? statement with
  | some outcome =>
    obtain ⟨table, condition, rfl⟩ := Session.remembered?_eq_some hremembered
    obtain ⟨after, he⟩ := hs _ _ _ hremembered
    rw [hremembered] at hr
    rw [hr]
    refine ⟨⟨hvalid, hs⟩, .inr ⟨outcome, after, he, rfl, ?_⟩⟩
    rw [Snapshot.isMutation_select he]
    rfl
  | none =>
    have hcycle := cycle_unwatched statement memory
    rcases hrun : run (Storage.cycle (m := StateM Memory) statement).run memory with
      ⟨result, memory'⟩
    simp only [hrun, hremembered] at hr hcycle
    have hs' := hs.cycle hcycle nofun
    rw [hr]
    rcases hcycle.of_unarmed with ⟨fault, he, rfl, rfl⟩ | ⟨outcome, after, he, rfl, rfl⟩
    · exact ⟨⟨hvalid, hs'⟩, .inl ⟨fault, he, rfl, rfl⟩⟩
    · refine ⟨⟨?_, hs'⟩, .inr ⟨outcome, after, he, rfl, rfl⟩⟩
      dsimp only
      split
      · next ho => exact valid_commit hvalid (Statement.change_of_execute he ho)
      · exact hvalid

theorem InOrder.act {w : Session × Memory} (h : InOrder w) (step : Step) :
    InOrder (Session.act (StateM Memory) step w).2 :=
  Session.act_invariant (m := StateM Memory) (fun statement _ _ h => (h.act_statement statement).1)
    (fun w h => ⟨h.valid, Session.coherent_start w.1.cache.isSome w.2⟩) h

/-- A step leaves memory as it is, or it makes one of the five changes and saves it as a whole. -/
theorem InOrder.act_cases {w : Session × Memory} (h : InOrder w) (step : Step) :
    let r := Session.act (StateM Memory) step w
    (r.2.2 = w.2 ∧ ∀ outcome, r.1 = .ok (some outcome) → outcome.isMutation = false) ∨
    ∃ statement outcome after, step.statement? = some statement ∧
      Snapshot.Change (w.2.snapshot statement) statement outcome after ∧
      outcome.isMutation = true ∧ r.1 = .ok (some outcome) ∧ r.2.2 = w.2.commit outcome after := by
  intro r
  cases hstep : step.statement? with
  | none =>
    have hreply := Session.not_answered_of_no_statement (m := StateM Memory) hstep w
    refine .inl ⟨?_, fun outcome ho => absurd ho (hreply outcome)⟩
    rcases Session.act_of_no_statement (m := StateM Memory) hstep w with hsame | hnew
    · exact congrArg (·.2) hsame
    · exact congrArg (·.2) hnew
  | some statement =>
    have hr : r = Session.act (StateM Memory) (.statement statement) w :=
      Session.act_of_statement? hstep w
    have hact := (h.act_statement statement).2
    rw [← hr] at hact
    rcases hact with ⟨fault, -, hreply, hmemory⟩ | ⟨outcome, after, he, hreply, hmemory⟩
    · refine .inl ⟨hmemory, fun outcome ho => ?_⟩
      rw [hreply] at ho
      cases ho
    · cases ho : outcome.isMutation with
      | false =>
        rw [ho] at hmemory
        refine .inl ⟨hmemory, fun outcome' ho' => ?_⟩
        rw [hreply] at ho'
        cases ho'
        exact ho
      | true =>
        rw [ho] at hmemory
        exact .inr ⟨statement, outcome, after, rfl, Statement.change_of_execute he ho, ho, hreply,
          hmemory⟩

end Memory
end TableStore
