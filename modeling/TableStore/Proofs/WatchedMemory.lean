import TableStore.Proofs.Execution
import TableStore.Proofs.Run
import TableStore.Storage.Memory

/-
One cycle over watched memory.

`Memory.Cycle` lists everything that a cycle can come to when one kind of call is armed: the reading
fails, the statement is refused, it answers without a change, its first write fails, its second
write fails, or all its writes go through.  Only the fifth leaves memory half changed.  Whatever is
said about runs with faults is checked against these six cases (`cycle_run`).
-/
namespace TableStore

open Stateful

/-- The calls that save a change, in their order. -/
def Outcome.writes : Outcome → List CallKind
  | created .. => [.saveSchema, .saveRows]
  | dropped .. => [.saveSchema, .deleteRows]
  | inserted .. | updated .. | deleted .. => [.saveRows]
  | _ => []

namespace Watch

def injected (kind : CallKind) : Fault := .storage s!"injected {kind.name}"

def note (w : Watch) (kind : CallKind) (table : Option String) : Watch :=
  ⟨if w.armed = some kind then none else w.armed,
    w.calls ++ [⟨kind, table, w.armed = some kind⟩]⟩

theorem armed_note_of_eq {w : Watch} {kind : CallKind} (h : w.armed = some kind)
    (table : Option String) : (w.note kind table).armed = none := by
  simp [note, h]

theorem armed_note_of_ne {w : Watch} {kind : CallKind} (h : w.armed ≠ some kind)
    (table : Option String) : (w.note kind table).armed = w.armed := by
  simp [note, h]

section

variable {m : Type → Type} [Monad m] {σ α : Type} [Stateful m σ]

/-- A watched call fails without effect if its kind is armed, and is the call itself otherwise. -/
theorem run_watched (kind : CallKind) (table : Option String) (call : m (Except Fault α))
    (w : Watch) (s : σ) :
    run (watched kind table call) (w, s) =
      if w.armed = some kind then (.error (injected kind), w.note kind table, s)
      else ((run call s).1, w.note kind table, (run call s).2) := by
  unfold watched
  rw [run_bind, run_get]
  simp only [run_bind, run_modify]
  by_cases h : w.armed = some kind
  · simp [h, injected, note]
  · simp only [h, decide_false, if_false]
    show run (StateT.lift call) _ = _
    simp [h, note]

end

end Watch

namespace Memory

def snapshot (memory : Memory) (statement : Statement) : Snapshot :=
  ⟨memory.schema,
    match statement.dataTable? with
    | some table => if memory.schema.contains table then memory.rowsOf table else .empty
    | none => .empty⟩

/-- Memory with everything saved that a statement changed. -/
def commit (memory : Memory) (outcome : Outcome) (after : Snapshot) : Memory :=
  match outcome with
  | .created table _ => ⟨after.schema, memory.rows.insert table .empty⟩
  | .dropped table => ⟨after.schema, memory.rows.erase table⟩
  | .inserted table _ | .updated table _ | .deleted table _ =>
    { memory with rows := memory.rows.insert table after.rows }
  | _ => memory

/-- What a cycle over memory comes to when the calls of one kind are armed: its result, what is
armed behind it, and memory behind it. -/
inductive Cycle (armed : Option CallKind) (memory : Memory) (statement : Statement) :
    Except Fault Outcome → Option CallKind → Memory → Prop where
  | unread {kind : CallKind} (harmed : armed = some kind)
    (hkind : kind = .loadSchema ∨ kind = .loadRows) :
    Cycle armed memory statement (.error (Watch.injected kind)) none memory
  | refused {fault : Fault} (h : statement.execute (memory.snapshot statement) = .error fault) :
    Cycle armed memory statement (.error fault) armed memory
  | answered {outcome : Outcome} {after : Snapshot}
    (h : statement.execute (memory.snapshot statement) = .ok (outcome, after))
    (ho : outcome.isMutation = false) :
    Cycle armed memory statement (.ok outcome) armed memory
  | unsaved {outcome : Outcome} {after : Snapshot} {kind : CallKind} (harmed : armed = some kind)
    (h : statement.execute (memory.snapshot statement) = .ok (outcome, after))
    (ho : outcome.isMutation = true) (hkind : outcome.writes.head? = some kind) :
    Cycle armed memory statement (.error (Watch.injected kind)) none memory
  | halfSaved {outcome : Outcome} {after : Snapshot} {kind : CallKind} (harmed : armed = some kind)
    (h : statement.execute (memory.snapshot statement) = .ok (outcome, after))
    (ho : outcome.isMutation = true) (hkind : outcome.writes[1]? = some kind) :
    Cycle armed memory statement (.error (Watch.injected kind)) none
      { memory with schema := after.schema }
  | saved {outcome : Outcome} {after : Snapshot}
    (h : statement.execute (memory.snapshot statement) = .ok (outcome, after))
    (ho : outcome.isMutation = true) :
    Cycle armed memory statement (.ok outcome) armed (memory.commit outcome after)

theorem Cycle.armed_eq {armed armed' : Option CallKind} {memory memory' : Memory}
    {statement : Statement} {result : Except Fault Outcome}
    (h : Cycle armed memory statement result armed' memory') :
    armed' = armed ∨ armed' = none := by
  cases h with
  | unread _ _ => exact .inr rfl
  | refused _ => exact .inl rfl
  | answered _ _ => exact .inl rfl
  | unsaved _ _ _ _ => exact .inr rfl
  | halfSaved _ _ _ _ => exact .inr rfl
  | saved _ _ => exact .inl rfl

theorem Cycle.executed {armed armed' : Option CallKind} {memory memory' : Memory}
    {statement : Statement} {outcome : Outcome}
    (h : Cycle armed memory statement (.ok outcome) armed' memory') :
    ∃ after, statement.execute (memory.snapshot statement) = .ok (outcome, after) := by
  cases h with
  | answered he _ => exact ⟨_, he⟩
  | saved he _ => exact ⟨_, he⟩

/-- Unless its loads fail, a statement that only answers is answered and changes nothing. -/
theorem Cycle.of_answer {armed armed' : Option CallKind} {memory memory' : Memory}
    {statement : Statement} {result : Except Fault Outcome} {outcome : Outcome} {after : Snapshot}
    (h : Cycle armed memory statement result armed' memory')
    (he : statement.execute (memory.snapshot statement) = .ok (outcome, after))
    (ho : outcome.isMutation = false) (hschema : armed ≠ some .loadSchema)
    (hrows : armed ≠ some .loadRows) : result = .ok outcome ∧ armed' = armed ∧ memory' = memory := by
  -- Every other way a cycle can end runs the statement to a result that it does not have.
  have hother {o : Outcome} {s : Snapshot} (he' : statement.execute (memory.snapshot statement) =
      .ok (o, s)) : o = outcome := by
    rw [he] at he'
    cases he'
    rfl
  cases h with
  | unread harmed hkind =>
    rcases hkind with rfl | rfl
    · exact absurd harmed hschema
    · exact absurd harmed hrows
  | refused he' =>
    rw [he] at he'
    cases he'
  | answered he' _ => exact ⟨by rw [hother he'], rfl, rfl⟩
  | unsaved _ he' ho' _ => simp [hother he', ho] at ho'
  | halfSaved _ he' ho' _ => simp [hother he', ho] at ho'
  | saved he' ho' => simp [hother he', ho] at ho'

/-- Where deletions go through, only a new table can be half saved. -/
theorem create_of_second_write {statement : Statement} {s after : Snapshot} {outcome : Outcome}
    {kind : CallKind} (he : statement.execute s = .ok (outcome, after))
    (ho : outcome.isMutation = true) (hkind : outcome.writes[1]? = some kind)
    (hdelete : kind ≠ .deleteRows) : ∃ t, s.schema.create t = .ok after.schema := by
  cases Statement.change_of_execute he ho with
  | create _ _ hcreate => exact ⟨_, hcreate⟩
  | drop _ => exact absurd (Option.some.inj hkind).symm hdelete
  | insert _ _ _ _ => simp [Outcome.writes] at hkind
  | update _ _ _ _ => simp [Outcome.writes] at hkind
  | delete _ _ => simp [Outcome.writes] at hkind

abbrev Watched := StateT Watch (StateM Memory)

section Calls

variable (w : Watch) (memory : Memory)

theorem run_loadSchema :
    run (Storage.loadSchema : Watched (Except Fault Schema)) (w, memory) =
      if w.armed = some .loadSchema then
        (.error (Watch.injected .loadSchema), w.note .loadSchema none, memory)
      else (.ok memory.schema, w.note .loadSchema none, memory) :=
  Watch.run_watched ..

theorem run_saveSchema (schema : Schema) :
    run (Storage.saveSchema schema : Watched (Except Fault Unit)) (w, memory) =
      if w.armed = some .saveSchema then
        (.error (Watch.injected .saveSchema), w.note .saveSchema none, memory)
      else (.ok (), w.note .saveSchema none, { memory with schema }) :=
  Watch.run_watched ..

theorem run_loadRows (table : String) :
    run (Storage.loadRows table : Watched (Except Fault Rows)) (w, memory) =
      if w.armed = some .loadRows then
        (.error (Watch.injected .loadRows), w.note .loadRows (some table), memory)
      else (.ok (memory.rowsOf table), w.note .loadRows (some table), memory) :=
  Watch.run_watched ..

theorem run_saveRows (table : Table) (rows : Rows) :
    run (Storage.saveRows table rows : Watched (Except Fault Unit)) (w, memory) =
      if w.armed = some .saveRows then
        (.error (Watch.injected .saveRows), w.note .saveRows (some table.name), memory)
      else (.ok (), w.note .saveRows (some table.name),
        { memory with rows := memory.rows.insert table.name rows }) :=
  Watch.run_watched ..

theorem run_deleteRows (table : String) :
    run (Storage.deleteRows table : Watched (Except Fault Unit)) (w, memory) =
      if w.armed = some .deleteRows then
        (.error (Watch.injected .deleteRows), w.note .deleteRows (some table), memory)
      else (.ok (), w.note .deleteRows (some table),
        { memory with rows := memory.rows.erase table }) :=
  Watch.run_watched ..

end Calls

/-- Loading fails without effect, or hands over what the statement works on. -/
theorem fetch_run (statement : Statement) (w : Watch) (memory : Memory) :
    (∃ kind w', w.armed = some kind ∧ (kind = .loadSchema ∨ kind = .loadRows) ∧ w'.armed = none ∧
      run (Storage.fetch statement : ExceptT Fault Watched Snapshot).run (w, memory) =
        (.error (Watch.injected kind), w', memory)) ∨
    ∃ w', w'.armed = w.armed ∧
      run (Storage.fetch statement : ExceptT Fault Watched Snapshot).run (w, memory) =
        (.ok (memory.snapshot statement), w', memory) := by
  unfold Storage.fetch
  rw [run_exceptT_bind, ExceptT.run_mk, run_loadSchema]
  by_cases hschema : w.armed = some .loadSchema
  · exact .inl ⟨.loadSchema, _, hschema, .inl rfl, Watch.armed_note_of_eq hschema none,
      by simp only [hschema, if_true]⟩
  have hw := Watch.armed_note_of_ne hschema none
  simp only [hschema, if_false]
  cases htable : statement.dataTable? with
  | none => exact .inr ⟨_, hw, by simp [snapshot, htable]⟩
  | some table =>
    by_cases hc : memory.schema.contains table = true
    · simp only [hc, if_true]
      rw [run_exceptT_bind, ExceptT.run_mk, run_loadRows, hw]
      by_cases hrows : w.armed = some .loadRows
      · exact .inl ⟨.loadRows, _, hrows, .inr rfl,
          Watch.armed_note_of_eq (hw.trans hrows) (some table), by simp only [hrows, if_true]⟩
      · refine .inr ⟨_, (Watch.armed_note_of_ne (hw ▸ hrows) (some table)).trans hw, ?_⟩
        simp [hrows, snapshot, htable, hc]
    · exact .inr ⟨_, hw, by simp [hc, snapshot, htable]⟩

theorem keep_run {s : Snapshot} {table : String} {t : Table} (ht : s.schema.table? table = some t)
    (rows : Rows) (w : Watch) (memory : Memory) :
    run (Storage.keep s table rows : ExceptT Fault Watched Unit).run (w, memory) =
      if w.armed = some .saveRows then
        (.error (Watch.injected .saveRows), w.note .saveRows (some table), memory)
      else (.ok (), w.note .saveRows (some table),
        { memory with rows := memory.rows.insert table rows }) := by
  obtain rfl := (Schema.table?_eq_some ht).2
  unfold Storage.keep
  rw [run_exceptT_bind, run_exceptT_mk_pure, Snapshot.table_eq_ok_iff.mpr ht]
  exact run_saveRows w memory t rows

/-- What saving a change comes to when the calls of one kind are armed. -/
inductive Stored (armed : Option CallKind) (memory : Memory) (outcome : Outcome)
    (after : Snapshot) : Except Fault Unit → Option CallKind → Memory → Prop where
  | unsaved {kind : CallKind} (harmed : armed = some kind)
    (hkind : outcome.writes.head? = some kind) :
    Stored armed memory outcome after (.error (Watch.injected kind)) none memory
  | halfSaved {kind : CallKind} (harmed : armed = some kind)
    (hkind : outcome.writes[1]? = some kind) :
    Stored armed memory outcome after (.error (Watch.injected kind)) none
      { memory with schema := after.schema }
  | saved : Stored armed memory outcome after (.ok ()) armed (memory.commit outcome after)

theorem stored_rows (outcome : Outcome) (after : Snapshot) {memory : Memory} {name : String}
    {t : Table} (ht : after.schema.table? name = some t) (hwrites : outcome.writes = [.saveRows])
    (hcommit : memory.commit outcome after =
      { memory with rows := memory.rows.insert name after.rows }) (w : Watch) :
    let r := run (Storage.keep after name after.rows : ExceptT Fault Watched Unit).run (w, memory)
    Stored w.armed memory outcome after r.1 r.2.1.armed r.2.2 := by
  intro r
  have hr : r = _ := keep_run ht after.rows w memory
  by_cases hw : w.armed = some .saveRows
  · rw [hr, if_pos hw, Watch.armed_note_of_eq hw]
    exact .unsaved hw (by rw [hwrites]; rfl)
  · rw [hr, if_neg hw, Watch.armed_note_of_ne hw, ← hcommit]
    exact .saved

/-- Saving a new registry and settling the rows of one table is two writes. -/
theorem stored_registry (table : String) {outcome : Outcome} {after : Snapshot} {memory : Memory}
    {kind : CallKind} {rest : ExceptT Fault Watched Unit}
    (hwrites : outcome.writes = [.saveSchema, kind])
    (hrest : ∀ w : Watch, run rest.run (w, { memory with schema := after.schema }) =
      if w.armed = some kind then
        (.error (Watch.injected kind), w.note kind (some table),
          { memory with schema := after.schema })
      else (.ok (), w.note kind (some table), memory.commit outcome after)) (w : Watch) :
    let r := run (do
      ExceptT.mk (Storage.saveSchema after.schema)
      rest : ExceptT Fault Watched Unit).run (w, memory)
    Stored w.armed memory outcome after r.1 r.2.1.armed r.2.2 := by
  intro r
  have hr : r = _ := run_exceptT_bind ..
  rw [ExceptT.run_mk, run_saveSchema] at hr
  by_cases hschema : w.armed = some .saveSchema
  · simp only [hschema, if_true] at hr
    rw [hr, Watch.armed_note_of_eq hschema]
    exact .unsaved hschema (by rw [hwrites]; rfl)
  have hw := Watch.armed_note_of_ne hschema none
  simp only [hschema, if_false] at hr
  rw [hrest, hw] at hr
  by_cases hrows : w.armed = some kind
  · rw [hr, if_pos hrows, Watch.armed_note_of_eq (hw.trans hrows)]
    exact .halfSaved hrows (by rw [hwrites]; rfl)
  · rw [hr, if_neg hrows, Watch.armed_note_of_ne (hw ▸ hrows), hw]
    exact .saved

theorem store_run {statement : Statement} {outcome : Outcome} {after : Snapshot} {memory : Memory}
    (h : Snapshot.Change (memory.snapshot statement) statement outcome after) (w : Watch) :
    let r := run (Storage.store outcome after : ExceptT Fault Watched Unit).run (w, memory)
    Stored w.armed memory outcome after r.1 r.2.1.armed r.2.2 := by
  cases h with
  | @insert _ _ t _ _ ht =>
    refine stored_rows _ _ (t := t) ?_ rfl rfl w
    exact ht
  | @update _ _ _ t ht =>
    refine stored_rows _ _ (t := t) ?_ rfl rfl w
    exact ht
  | @delete _ _ t ht =>
    refine stored_rows _ _ (t := t) ?_ rfl rfl w
    exact ht
  | @create name declarations t schema hname ht hcreate =>
    have hfound : schema.table? name = some t := by
      rw [Schema.table?_create hcreate, Declaration.table_name ht, if_pos rfl]
    refine stored_registry name rfl (fun w => ?_) w
    exact keep_run hfound .empty w _
  | @drop name t schema hdrop =>
    refine stored_registry name rfl (fun w => ?_) w
    exact run_deleteRows w _ name

/-- A cycle over watched memory comes to one of the six. -/
theorem cycle_run (statement : Statement) (w : Watch) (memory : Memory) :
    let r := run (Storage.cycle statement : ExceptT Fault Watched Outcome).run (w, memory)
    Cycle w.armed memory statement r.1 r.2.1.armed r.2.2 := by
  intro r
  have hr : r = _ := run_exceptT_bind ..
  rcases fetch_run statement w memory with ⟨kind, w', harmed, hkind, hw', hf⟩ | ⟨w', hw', hf⟩
  · rw [hf] at hr
    rw [hr, hw']
    exact .unread harmed hkind
  rw [hf] at hr
  simp only at hr
  rw [run_exceptT_bind, run_exceptT_mk_pure] at hr
  cases he : statement.execute (memory.snapshot statement) with
  | error fault =>
    rw [he] at hr
    rw [hr, hw']
    exact .refused he
  | ok result =>
    obtain ⟨outcome, after⟩ := result
    rw [he] at hr
    cases ho : outcome.isMutation with
    | false =>
      simp only [ho, Bool.false_eq_true, if_false, run_exceptT_pure] at hr
      rw [hr, hw']
      exact .answered he ho
    | true =>
      simp only [ho, if_true] at hr
      rw [run_exceptT_bind] at hr
      have hs := store_run (Statement.change_of_execute he ho) w'
      rcases hstore : run (Storage.store (m := Watched) outcome after).run (w', memory) with
        ⟨result, w'', memory'⟩
      simp only [hstore] at hr hs
      rw [hw'] at hs
      generalize harmed' : w''.armed = armed' at hs
      cases result with
      | error fault =>
        rw [hr, harmed']
        cases hs with
        | unsaved harmed hkind => exact .unsaved harmed he ho hkind
        | halfSaved harmed hkind => exact .halfSaved harmed he ho hkind
      | ok _ =>
        simp only [run_exceptT_pure] at hr
        rw [hr, harmed']
        cases hs with
        | saved => exact .saved he ho

end Memory
end TableStore
