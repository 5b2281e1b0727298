import TableStore.Proofs.Independence
import TableStore.Proofs.Records

/-
New tables have no records.

Whatever is stored under a name before a table of this name is made, and whatever a session
remembers of an older one, the making leaves an empty table: its rows are saved as none, and the
session forgets the name.  A table without records stays so until one is inserted or the table is
dropped, because an update or a delete finds nothing to change
(`Snapshot.Vacant.inserted_of_isMutation`).
-/
namespace TableStore

open Stateful

/-! ## Statements on a table without records -/

namespace Snapshot

/-- The registry has the table, and there are no rows. -/
structure Vacant (s : Snapshot) (t : Table) : Prop where
  table : s.schema.table? t.name = some t
  rows : s.rows = .empty

namespace Vacant

variable {s after : Snapshot} {t : Table} (h : s.Vacant t) {outcome : Outcome}
include h

theorem matching_eq (condition : Fields) : (matching condition s.rows).entries = [] := by
  rw [h.rows]
  rfl

theorem keys_matching (condition : Fields) : (matching condition s.rows).keys = [] := by
  rw [SortedMap.keys, h.matching_eq]
  rfl

theorem select {condition : Option Fields} (hcondition : condition.getD .empty = .empty) :
    s.select t.name condition = .ok (.scanned t.name t.columnNames [], s) := by
  refine select_eq_ok_iff.mpr ⟨t, [], h.table, ?_, ?_, rfl, rfl⟩
  · rw [hcondition]
    rfl
  · rw [h.matching_eq]
    rfl

/-- Under whatever condition, a select that is answered finds nothing. -/
theorem scanned_of_select {condition : Option Fields}
    (he : s.select t.name condition = .ok (outcome, after)) :
    outcome = .scanned t.name t.columnNames [] := by
  obtain ⟨t', rows, ht, -, hrows, rfl, -⟩ := select_eq_ok_iff.mp he
  rw [h.table] at ht
  cases ht
  rw [h.matching_eq] at hrows
  cases hrows
  rfl

theorem info : s.info t.name = .ok (.described t.name t.columns 0, s) := by
  refine info_eq_ok_iff.mpr ⟨t, h.table, ?_, rfl⟩
  rw [h.rows]
  rfl

theorem nextKey_eq : nextKey t.name s.rows = .ok 1 := by
  rw [h.rows]
  rfl

/-- Values of the right number and types make up the first record. -/
theorem insert {values : List Value}
    (hvalues : values.map Value.dataType = t.dataColumns.map Column.dataType) :
    ∃ after, s.insert t.name values = .ok (.inserted t.name 1, after) := by
  obtain ⟨record, hrecord⟩ := exists_fillFrom hvalues 1
  exact ⟨_, insert_eq_ok_iff.mpr ⟨t, record, 1, h.table, length_eq_of_types hvalues, hrecord,
    h.nextKey_eq, rfl, rfl⟩⟩

/-- Only an insert changes a table that has no records. -/
theorem inserted_of_isMutation {statement : Statement} (hname : statement.dataTable? = some t.name)
    (he : statement.execute s = .ok (outcome, after)) (ho : outcome.isMutation = true) :
    outcome = .inserted t.name 1 := by
  cases Statement.change_of_execute he ho with
  | create _ _ _ => cases hname
  | drop _ => cases hname
  | insert _ _ _ hid =>
    obtain rfl := Option.some.inj hname
    rw [h.nextKey_eq] at hid
    cases hid
    rfl
  -- Nothing matches, and what changes no key is no change.
  | update _ _ _ _ =>
    rw [h.keys_matching] at ho
    cases ho
  | delete _ _ =>
    rw [h.keys_matching] at ho
    cases ho

end Vacant
end Snapshot

/-! ## Sessions -/

namespace Session

/-- Whatever a session remembers of the table, it has no records. -/
def RemembersVacant (s : Session) (t : Table) : Prop :=
  ∀ condition outcome, s.remembered? (.select t.name condition) = some outcome →
    outcome = .scanned t.name t.columnNames []

namespace RemembersVacant

variable {s : Session} {t : Table}

theorem reopened (s : Session) (t : Table) : s.reopened.RemembersVacant t := by
  intro condition outcome h
  cases hc : s.cache <;>
    simp [Session.reopened, start, remembered?, key?, hc, Cache.get?, Cache.empty] at h

theorem forgotten (s : Session) (t : Table) : (s.forget t.name).RemembersVacant t := by
  intro condition outcome h
  exact absurd rfl (remembered?_forget h).1

/-- What is remembered behind a statement is that there are no records, if this is what a select
from the table was answered. -/
theorem after (h : s.RemembersVacant t) {statement : Statement} {result : Except Fault Outcome}
    (hresult : ∀ condition outcome, statement = .select t.name condition → result = .ok outcome →
      outcome = .scanned t.name t.columnNames []) :
    (s.after statement result).RemembersVacant t := by
  cases result with
  | error fault => exact h
  | ok outcome =>
    intro condition found hfound
    cases hchanged : outcome.changed? with
    | some table =>
      rw [after_write s _ hchanged] at hfound
      exact h condition found (remembered?_forget hfound).2
    | none =>
      rw [after_read s _ hchanged] at hfound
      rcases remembered?_remember hfound with ⟨hstatement, rfl⟩ | hbefore
      · exact hresult condition _ hstatement rfl
      · exact h condition found hbefore

end RemembersVacant

variable {m : Type → Type} [Monad m] [Storage m] {σ : Type} [Stateful m σ]

/-- What a session answers of a table without records: a select without a condition finds nothing,
the description counts nothing, and values of the right number and types get the first key. -/
structure AnswersVacant (m : Type → Type) [Monad m] [Storage m] {σ : Type} [Stateful m σ]
    (t : Table) (w : Session × σ) : Prop where
  select : ∀ condition : Option Fields, condition.getD .empty = .empty →
    (act m (.statement (.select t.name condition)) w).1 =
      .ok (some (.scanned t.name t.columnNames []))
  info : (act m (.statement (.info t.name)) w).1 = .ok (some (.described t.name t.columns 0))
  insert : ∀ values : List Value,
    values.map Value.dataType = t.dataColumns.map Column.dataType →
      (act m (.statement (.insert t.name values)) w).1 = .ok (some (.inserted t.name 1))

/-- A session answers so if it remembers nothing else, and if its storage has no rows of the table
and takes in what is saved of it. -/
theorem answersVacant_of_cycle {t : Table} {s : Session} (hs : s.RemembersVacant t) {w : σ}
    {snapshot : Snapshot} (h : snapshot.Vacant t)
    (hcycle : ∀ statement, statement.dataTable? = some t.name → ∀ outcome after,
      statement.execute snapshot = .ok (outcome, after) →
      (run (Storage.cycle statement : ExceptT Fault m Outcome).run w).1 = .ok outcome) :
    AnswersVacant m t (s, w) := by
  have hanswer {statement : Statement} {outcome : Outcome} {after : Snapshot}
      (hr : s.remembered? statement = none) (hname : statement.dataTable? = some t.name)
      (he : statement.execute snapshot = .ok (outcome, after)) :
      (act m (.statement statement) (s, w)).1 = .ok (some outcome) := by
    rw [act_statement, hr]
    exact congrArg (Except.map some) (hcycle statement hname outcome after he)
  refine ⟨fun condition hcondition => ?_, ?_, fun values hvalues => ?_⟩
  · cases hr : s.remembered? (.select t.name condition) with
    | some outcome => rw [act_statement, hr, hs condition outcome hr]
    | none => exact hanswer hr rfl (h.select hcondition)
  · exact hanswer (remembered?_of_key_none rfl s) rfl h.info
  · obtain ⟨after, he⟩ := h.insert hvalues
    exact hanswer (remembered?_of_key_none rfl s) rfl he

end Session

/-! ## Memory -/

namespace Memory

/-- The registry has the table, and no rows are stored under its name. -/
structure Vacant (memory : Memory) (t : Table) : Prop where
  table : memory.schema.table? t.name = some t
  rows : memory.rowsOf t.name = .empty

namespace Vacant

variable {memory memory' : Memory} {t : Table} (h : memory.Vacant t) {statement : Statement}
  {armed armed' : Option CallKind} {result : Except Fault Outcome}
include h

theorem snapshot (hname : statement.dataTable? = some t.name) :
    (memory.snapshot statement).Vacant t := by
  refine ⟨h.table, ?_⟩
  rw [snapshot_rows hname (Schema.contains_of_table? h.table), h.rows]

theorem of_sameAt (hsame : SameAt memory memory' t.name) : memory'.Vacant t :=
  ⟨hsame.1.trans h.table, hsame.2.trans h.rows⟩

/-- What a statement changes is another table, unless it drops this one or inserts into it. -/
theorem changed_ne {outcome : Outcome} {after : Snapshot}
    (he : statement.execute (memory.snapshot statement) = .ok (outcome, after))
    (ho : outcome.isMutation = true) (hdrop : statement ≠ .dropTable t.name)
    (hinsert : ∀ id, outcome ≠ .inserted t.name id) : outcome.changed? ≠ some t.name := by
  intro hchanged
  have hchange := Statement.change_of_execute he ho
  have hname := table?_of_changed hchange hchanged
  have hown (hdata : statement.dataTable? = some t.name) : False :=
    hinsert 1 ((h.snapshot hdata).inserted_of_isMutation hdata he ho)
  cases hchange with
  | create _ ht hcreate =>
    obtain rfl := Option.some.inj hname
    exact Schema.ne_of_create hcreate h.table (Declaration.table_name ht).symm
  | drop _ => exact hdrop (congrArg Statement.dropTable (Option.some.inj hname))
  | insert _ _ _ _ => exact hown hname
  | update _ _ _ _ => exact hown hname
  | delete _ _ => exact hown hname

/-- A cycle leaves a table without records alone, unless it drops the table or inserts into it. -/
theorem cycle (hcycle : Cycle armed memory statement result armed' memory')
    (hdrop : statement ≠ .dropTable t.name)
    (hinsert : ∀ id, result ≠ .ok (.inserted t.name id)) : memory'.Vacant t := by
  cases hcycle with
  | unread _ _ => exact h
  | refused _ => exact h
  | answered _ _ => exact h
  | unsaved _ _ _ _ => exact h
  | halfSaved _ he ho hkind =>
    refine ⟨?_, h.rows⟩
    cases Statement.change_of_execute he ho with
    | create _ _ hcreate => exact Schema.table?_create_of_some hcreate h.table
    | @drop name _ _ hdropped =>
      have hne : t.name ≠ name := fun heq => hdrop (congrArg Statement.dropTable heq.symm)
      rw [Schema.table?_drop_of_ne hdropped hne]
      exact h.table
    | insert _ _ _ _ => cases hkind
    | update _ _ _ _ => cases hkind
    | delete _ _ => cases hkind
  | saved he ho =>
    obtain ⟨table, hchanged⟩ := Outcome.isMutation_iff.mp ho
    refine h.of_sameAt (commit_sameAt (Statement.change_of_execute he ho) hchanged ?_)
    rintro rfl
    exact h.changed_ne he ho hdrop (fun id heq => hinsert id (congrArg Except.ok heq)) hchanged

/-- What a select from the table is answered behind a cycle, the cycle itself included. -/
theorem scanned (hcycle : Cycle armed memory statement result armed' memory')
    (condition : Option Fields) (outcome : Outcome)
    (hstatement : statement = .select t.name condition) (hresult : result = .ok outcome) :
    outcome = .scanned t.name t.columnNames [] := by
  subst hstatement hresult
  obtain ⟨after, he⟩ := hcycle.executed
  exact (h.snapshot rfl).scanned_of_select he

theorem answersVacant {s : Session} (hs : s.RemembersVacant t) {w : Watch} (hw : w.armed = none) :
    Session.AnswersVacant Watched t (s, w, memory) := by
  have hvacant : (memory.snapshot (.info t.name)).Vacant t := h.snapshot rfl
  refine Session.answersVacant_of_cycle hs hvacant ?_
  intro statement hname outcome after he
  have hsnapshot : memory.snapshot (.info t.name) = memory.snapshot statement := by
    rw [Memory.snapshot, Memory.snapshot, hname]
    rfl
  rw [hsnapshot] at he
  have hcycle := cycle_run statement w memory
  rw [hw] at hcycle
  rcases hcycle.of_unarmed with ⟨fault, hfault, -⟩ | ⟨outcome', after', he', hresult, -⟩
  · rw [he] at hfault
    cases hfault
  · rw [he] at he'
    cases he'
    exact hresult

end Vacant

/-- A table that is made has no rows, whatever was stored under its name. -/
theorem vacant_of_cycle {memory memory' : Memory} {name : String} {declarations : List String}
    {outcome : Outcome} {armed armed' : Option CallKind}
    (h : Cycle armed memory (.createTable name declarations) (.ok outcome) armed' memory') :
    ∃ t, Declaration.table name declarations = .ok t ∧ outcome = .created name t.columns ∧
      memory'.Vacant t := by
  cases h with
  | answered he ho =>
    obtain ⟨-, -, t, schema, -, -, rfl, -⟩ := Snapshot.createTable_eq_ok_iff.mp he
    cases ho
  | saved he ho =>
    obtain ⟨-, -, t, schema, ht, hcreate, rfl, rfl⟩ := Snapshot.createTable_eq_ok_iff.mp he
    obtain rfl := Declaration.table_name ht
    refine ⟨t, ht, rfl, ?_, ?_⟩
    · show schema.table? t.name = some t
      rw [Schema.table?_create hcreate, if_pos rfl]
    · rw [commit, rowsOf_insert, if_pos rfl]

end Memory

/-! ## Runs over memory -/

namespace World

/-- What is kept of a table without records. -/
structure Vacant (w : World) (t : Table) : Prop where
  memory : w.2.2.Vacant t
  session : w.1.RemembersVacant t

theorem Vacant.answersVacant {w : World} {t : Table} (h : w.Vacant t) (hw : w.2.1.armed = none) :
    Session.AnswersVacant Memory.Watched t w :=
  h.memory.answersVacant h.session hw

/-- A table without records stays so while it is neither dropped nor inserted into. -/
theorem Vacant.act {w : World} {t : Table} (h : w.Vacant t) {event : Event}
    (hdrop : ∀ step, event = .step step → step.statement? ≠ some (.dropTable t.name))
    (hinsert : ∀ id, (act event w).1 ≠ .ok (some (.inserted t.name id))) :
    (World.act event w).2.Vacant t := by
  obtain ⟨s, watch, memory⟩ := w
  cases event with
  | fail kind => exact ⟨h.memory, h.session⟩
  | step step =>
    cases hstep : step.statement? with
    | none =>
      rcases Session.act_of_no_statement (m := Memory.Watched) hstep (s, watch, memory) with
        hsame | hsame
      · show Vacant (Session.act Memory.Watched step _).2 t
        rw [hsame]
        exact h
      · show Vacant (Session.act Memory.Watched step _).2 t
        rw [hsame]
        exact ⟨h.memory, .reopened s t⟩
    | some statement =>
      have hact := Session.act_of_statement? (m := Memory.Watched) hstep (s, watch, memory)
      change ∀ id, (Session.act Memory.Watched step _).1 ≠ _ at hinsert
      show Vacant (Session.act Memory.Watched step _).2 t
      rw [hact] at hinsert ⊢
      cases hr : s.remembered? statement with
      | some outcome =>
        rw [Session.act_statement, hr]
        exact h
      | none =>
        obtain ⟨result, w', memory', hcycle, hrun⟩ := act_statement_cycle hr watch memory
        rw [hrun] at hinsert ⊢
        have hkept := h.memory.cycle hcycle (fun heq => hdrop step rfl (heq ▸ hstep))
          fun id heq => hinsert id (by rw [heq]; rfl)
        exact ⟨hkept, h.session.after (h.memory.scanned hcycle)⟩

/-- What is made is a table without records, whatever memory holds under its name and whatever the
session remembers of it. -/
theorem vacant_of_createTable {w : World} {step : Step} {name : String} {declarations : List String}
    {outcome : Outcome} (hstep : step.statement? = some (.createTable name declarations))
    (hdone : (act (.step step) w).1 = .ok (some outcome)) :
    ∃ t, Declaration.table name declarations = .ok t ∧ outcome = .created name t.columns ∧
      (act (.step step) w).2.Vacant t := by
  obtain ⟨s, watch, memory⟩ := w
  have hr : s.remembered? (.createTable name declarations) = none :=
    Session.remembered?_of_key_none rfl s
  obtain ⟨result, w', memory', hcycle, hrun⟩ := act_statement_cycle hr watch memory
  have hact : act (.step step) (s, watch, memory) = _ :=
    (Session.act_of_statement? hstep (s, watch, memory)).trans hrun
  rw [hact] at hdone ⊢
  cases result with
  | error fault => cases hdone
  | ok done =>
    cases hdone
    obtain ⟨t, ht, rfl, hvacant⟩ := Memory.vacant_of_cycle hcycle
    refine ⟨t, ht, rfl, hvacant, ?_⟩
    obtain rfl := Declaration.table_name ht
    exact .forgotten s t

/-- A table without records stays so in a run that neither drops it nor inserts into it. -/
theorem Vacant.run {w : World} {t : Table} (h : w.Vacant t) {events : List Event}
    (hdrop : ∀ step, .step step ∈ events → step.statement? ≠ some (.dropTable t.name))
    (hinsert : ∀ id, .ok (some (.inserted t.name id)) ∉ (trace World.act events w).1) :
    (trace World.act events w).2.Vacant t := by
  refine trace_invariant_of_answers (I := (Vacant · t))
    (fun reply => ∀ id, reply ≠ .ok (some (.inserted t.name id)))
    (fun event hevent w hw hreply => ?_) h fun reply hreply id heq => hinsert id (heq ▸ hreply)
  exact hw.act (fun step heq => hdrop step (heq ▸ hevent)) hreply

end World
end TableStore
