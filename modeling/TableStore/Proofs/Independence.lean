import TableStore.Proofs.FaultlessRun
import TableStore.Proofs.TableCommands

/-
Tables do not notice one another.

A statement that names a table reads that table of the registry and the rows stored for it, and
changes nothing else.  So two memories that have the same table and the same rows under a name answer
every statement on it alike and stay so, and a statement that does not name the table leaves both as
they are.  In a run over several tables the statements on one of them are answered as if the others
had never been there, although all of them rewrite one registry and share one cache
(`tables_independent`).
-/
namespace TableStore

open Stateful

/-- The table that a statement names. -/
def Statement.table? (statement : Statement) : Option String :=
  statement.target?.or statement.dataTable?

def Step.table? (step : Step) : Option String := step.statement?.bind Statement.table?

/-! ## What a statement reads and changes -/

namespace Snapshot

/-- Both snapshots have the same table of this name and the same rows. -/
def SameAt (s s' : Snapshot) (table : String) : Prop :=
  s'.schema.table? table = s.schema.table? table ∧ s'.rows = s.rows

/-- Two results of a statement that nobody can tell apart who knows only one table. -/
inductive Agree (table : String) : Except Fault (Outcome × Snapshot) →
    Except Fault (Outcome × Snapshot) → Prop where
  | fault (fault : Fault) : Agree table (.error fault) (.error fault)
  | outcome (outcome : Outcome) {s s' : Snapshot} (h : SameAt s s' table) :
    Agree table (.ok (outcome, s)) (.ok (outcome, s'))

theorem Agree.bind {table : String} {α : Type} {x : Except Fault α}
    {f g : α → Except Fault (Outcome × Snapshot)} (h : ∀ a, x = .ok a → Agree table (f a) (g a)) :
    Agree table (x >>= f) (x >>= g) := by
  cases x with
  | error e => exact .fault e
  | ok a => exact h a rfl

/-- A check that both results depend on in the same way. -/
theorem Agree.check {table : String} {c : Prop} [Decidable c] {fault : Fault} {α : Type}
    {f g : α → Except Fault (Outcome × Snapshot)} {x y : Except Fault (Outcome × Snapshot)}
    (h : ¬ c → Agree table x y) :
    Agree table (if c then throw fault >>= f else x) (if c then throw fault >>= g else y) := by
  split
  · exact .fault fault
  · next hc => exact h hc

variable {s s' : Snapshot} {name : String} (h : SameAt s s' name)
include h

theorem SameAt.table_eq : s'.table name = s.table name := by
  rw [table, table, h.1]

theorem SameAt.with_rows (rows : Rows) : SameAt { s with rows } { s' with rows } name := ⟨h.1, rfl⟩

theorem SameAt.createTable (declarations : List String) :
    Agree name (s.createTable name declarations) (s'.createTable name declarations) := by
  have hcontains : s'.schema.contains name = s.schema.contains name := by
    rw [Schema.contains, Schema.contains, h.1]
  unfold Snapshot.createTable
  rw [hcontains]
  refine .check fun _ => .check fun hfree => .bind fun t ht => ?_
  obtain rfl := Declaration.table_name ht
  rw [Bool.not_eq_true] at hfree
  rw [hfree] at hcontains
  rw [Schema.create, Schema.create, hfree, hcontains]
  cases hvalid : t.validate with
  | error cause => exact .fault _
  | ok _ =>
    -- The new table stands behind tables that have another name, on both sides.
    have hlast (schema : Schema) (hnone : schema.contains t.name = false) :
        Schema.table? ⟨schema.tables ++ [t]⟩ t.name = some t := by
      have hcreate : schema.create t = .ok ⟨schema.tables ++ [t]⟩ :=
        Schema.create_eq_ok_iff.mpr ⟨hnone, Table.validate_eq_ok_iff.mp hvalid, rfl⟩
      rw [Schema.table?_create hcreate, if_pos rfl]
    exact .outcome _ ⟨(hlast _ hcontains).trans (hlast _ hfree).symm, h.2⟩

theorem SameAt.dropTable (hs : s.schema.Valid) (hs' : s'.schema.Valid) :
    Agree name (s.dropTable name) (s'.dropTable name) := by
  unfold Snapshot.dropTable
  cases ht : s.schema.table? name with
  | none =>
    rw [Schema.drop?, Schema.drop?, h.1, ht]
    exact .fault _
  | some t =>
    have hdrop := Schema.drop?_eq_some_iff.mpr ⟨ht, rfl⟩
    have hdrop' := Schema.drop?_eq_some_iff.mpr ⟨h.1.trans ht, rfl⟩
    have hgone := Schema.contains_drop_self hs hdrop
    have hgone' := Schema.contains_drop_self hs' hdrop'
    rw [Schema.contains, Option.isSome_eq_false_iff, Option.isNone_iff_eq_none] at hgone hgone'
    rw [hdrop, hdrop']
    exact .outcome _ ⟨hgone'.trans hgone.symm, h.2⟩

theorem SameAt.insert (values : List Value) :
    Agree name (s.insert name values) (s'.insert name values) := by
  unfold Snapshot.insert
  rw [h.table_eq, h.2]
  refine .bind fun t _ => .check fun _ => .bind fun record _ => .bind fun id _ => ?_
  exact .outcome _ (h.with_rows _)

theorem SameAt.select (condition : Option Fields) :
    Agree name (s.select name condition) (s'.select name condition) := by
  unfold Snapshot.select
  rw [h.table_eq, h.2]
  exact .bind fun t _ => .bind fun _ _ => .bind fun rows _ => .outcome _ h

theorem SameAt.update (assignments condition : Fields) :
    Agree name (s.update name assignments condition) (s'.update name assignments condition) := by
  unfold Snapshot.update
  rw [h.table_eq, h.2]
  refine .bind fun t _ => .check fun _ => .bind fun _ _ => .bind fun _ _ => ?_
  exact .outcome _ (h.with_rows _)

theorem SameAt.delete (condition : Fields) :
    Agree name (s.delete name condition) (s'.delete name condition) := by
  unfold Snapshot.delete
  rw [h.table_eq, h.2]
  exact .bind fun t _ => .bind fun _ _ => .outcome _ (h.with_rows _)

theorem SameAt.info : Agree name (s.info name) (s'.info name) := by
  unfold Snapshot.info
  rw [h.table_eq, h.2]
  exact .bind fun t _ => .outcome _ h

/-- A statement on a table depends on that table alone. -/
theorem SameAt.execute (hs : s.schema.Valid) (hs' : s'.schema.Valid) {statement : Statement}
    (hname : statement.table? = some name) :
    Agree name (statement.execute s) (statement.execute s') := by
  cases statement with
  | createTable table declarations =>
    obtain rfl : table = name := Option.some.inj hname
    exact h.createTable declarations
  | dropTable table =>
    obtain rfl : table = name := Option.some.inj hname
    exact h.dropTable hs hs'
  | insert table values =>
    obtain rfl : table = name := Option.some.inj hname
    exact h.insert values
  | select table condition =>
    obtain rfl : table = name := Option.some.inj hname
    exact h.select condition
  | update table assignments condition =>
    obtain rfl : table = name := Option.some.inj hname
    exact h.update assignments condition
  | delete table condition =>
    obtain rfl : table = name := Option.some.inj hname
    exact h.delete condition
  | info table =>
    obtain rfl : table = name := Option.some.inj hname
    exact h.info
  | listTables => cases hname
  | help => cases hname
  | exit => cases hname
  | unknown word => cases hname

end Snapshot

namespace Memory

theorem SameAt.snapshot {memory memory' : Memory} {name : String}
    (h : SameAt memory memory' name) {statement : Statement}
    (hname : statement.table? = some name) :
    Snapshot.SameAt (memory.snapshot statement) (memory'.snapshot statement) name := by
  have hcontains : memory'.schema.contains name = memory.schema.contains name := by
    rw [Schema.contains, Schema.contains, h.1]
  refine ⟨h.1, ?_⟩
  unfold Memory.snapshot
  cases hdata : statement.dataTable? with
  | none => rfl
  | some table =>
    have htarget : statement.target? = none := by
      cases statement <;> first | rfl | cases hdata
    rw [Statement.table?, htarget, hdata] at hname
    obtain rfl : table = name := Option.some.inj hname
    simp only [hcontains, h.2]

theorem table?_of_changed {s after : Snapshot} {statement : Statement} {outcome : Outcome}
    {name : String} (h : Snapshot.Change s statement outcome after)
    (hchanged : outcome.changed? = some name) : statement.table? = some name := by
  cases h with
  | create _ _ _ => exact hchanged
  | drop _ => exact hchanged
  | insert _ _ _ _ => exact hchanged
  | update _ _ _ _ =>
    rw [Outcome.changed?] at hchanged
    split at hchanged
    · cases hchanged
    · exact hchanged
  | delete _ _ =>
    rw [Outcome.changed?] at hchanged
    split at hchanged
    · cases hchanged
    · exact hchanged

/-- What is saved for the table that a statement names is what the statement made of it. -/
theorem commit_at {memory : Memory} {statement : Statement} {outcome : Outcome} {after : Snapshot}
    {name : String} (h : Snapshot.Change (memory.snapshot statement) statement outcome after)
    (hname : statement.table? = some name) :
    (memory.commit outcome after).schema.table? name = after.schema.table? name ∧
      (memory.commit outcome after).rowsOf name = after.rows := by
  cases h with
  | create _ _ _ =>
    obtain rfl := Option.some.inj hname
    exact ⟨rfl, by rw [commit, rowsOf_insert, if_pos rfl]; rfl⟩
  | drop _ =>
    obtain rfl := Option.some.inj hname
    exact ⟨rfl, by rw [commit, rowsOf_erase, if_pos rfl]; rfl⟩
  | insert _ _ _ _ =>
    obtain rfl := Option.some.inj hname
    exact ⟨rfl, by rw [commit, rowsOf_insert, if_pos rfl]⟩
  | update _ _ _ _ =>
    obtain rfl := Option.some.inj hname
    exact ⟨rfl, by rw [commit, rowsOf_insert, if_pos rfl]⟩
  | delete _ _ =>
    obtain rfl := Option.some.inj hname
    exact ⟨rfl, by rw [commit, rowsOf_insert, if_pos rfl]⟩

/-! ## Runs -/

/-- Two worlds in order whose memories have the same table of this name with the same rows. -/
structure AlikeAt (name : String) (w w' : Session × Memory) : Prop where
  left : InOrder w
  right : InOrder w'
  same : SameAt w.2 w'.2 name

theorem AlikeAt.act_statement {name : String} {w w' : Session × Memory} (h : AlikeAt name w w')
    {statement : Statement} (hname : statement.table? = some name) :
    let r := Session.act (StateM Memory) (.statement statement) w
    let r' := Session.act (StateM Memory) (.statement statement) w'
    r.1 = r'.1 ∧ AlikeAt name r.2 r'.2 := by
  intro r r'
  have hagree := (h.same.snapshot hname).execute h.left.valid h.right.valid hname
  obtain ⟨hleft, hr⟩ := h.left.act_statement statement
  obtain ⟨hright, hr'⟩ := h.right.act_statement statement
  rcases hr with ⟨fault, he, hreply, hmemory⟩ | ⟨outcome, after, he, hreply, hmemory⟩
  · rcases hr' with ⟨fault', he', hreply', hmemory'⟩ | ⟨_, _, he', _⟩
    · rw [he, he'] at hagree
      cases hagree
      exact ⟨hreply.trans hreply'.symm, hleft, hright, by rw [hmemory, hmemory']; exact h.same⟩
    · rw [he, he'] at hagree
      cases hagree
  · rcases hr' with ⟨_, he', _⟩ | ⟨outcome', after', he', hreply', hmemory'⟩
    · rw [he, he'] at hagree
      cases hagree
    · rw [he, he'] at hagree
      obtain ⟨rfl, hafter⟩ : outcome = outcome' ∧ Snapshot.SameAt after after' name := by
        cases hagree with
        | outcome _ hafter => exact ⟨rfl, hafter⟩
      refine ⟨hreply.trans hreply'.symm, hleft, hright, ?_⟩
      rw [hmemory, hmemory']
      cases ho : outcome.isMutation with
      | false => exact h.same
      | true =>
        have hat := commit_at (Statement.change_of_execute he ho) hname
        have hat' := commit_at (Statement.change_of_execute he' ho) hname
        exact ⟨hat'.1.trans (hafter.1.trans hat.1.symm), hat'.2.trans (hafter.2.trans hat.2.symm)⟩

/-- A step that does not name the table leaves it and its rows as they are. -/
theorem InOrder.sameAt_of_other {name : String} {w : Session × Memory} (h : InOrder w) {step : Step}
    (hname : step.table? ≠ some name) :
    SameAt w.2 (Session.act (StateM Memory) step w).2.2 name := by
  rcases h.act_cases step with ⟨hmemory, -⟩ | ⟨statement, outcome, after, hstep, hchange, ho, -, hmemory⟩
  · rw [hmemory]
    exact ⟨rfl, rfl⟩
  · obtain ⟨other, hchanged⟩ := Outcome.isMutation_iff.mp ho
    rw [hmemory]
    refine commit_sameAt hchange hchanged fun heq => hname ?_
    rw [Step.table?, hstep, Option.bind_some, table?_of_changed hchange hchanged, heq]

/-- In a run of any steps from the empty memory on, the steps that name a table are answered as they
are when they are run alone, and they leave the same table with the same rows: whatever stands
between them, on other tables or on none, is not noticed. -/
theorem tables_independent (cached : Bool) (table : String) (steps : List Step) :
    let names (step : Step) : Bool := step.table? = some table
    let together := trace (Session.act (StateM Memory)) steps (.start cached, empty)
    let alone := trace (Session.act (StateM Memory)) (steps.filter names) (.start cached, empty)
    answersTo names steps together.1 = alone.1 ∧
      together.2.2.schema.table? table = alone.2.2.schema.table? table ∧
      together.2.2.rowsOf table = alone.2.2.rowsOf table := by
  intro names together alone
  have hstart : AlikeAt table (.start cached, empty) (.start cached, empty) :=
    ⟨inOrder_start cached, inOrder_start cached, rfl, rfl⟩
  have hrun : answersTo names steps together.1 = alone.1 ∧ AlikeAt table together.2 alone.2 := by
    refine trace_filter (fun step hstep w w' h => ?_) (fun step hstep w w' h => ?_) steps hstart
    · obtain ⟨statement, hstatement, hname⟩ := Option.bind_eq_some_iff.mp (of_decide_eq_true hstep)
      rw [Session.act_of_statement? hstatement, Session.act_of_statement? hstatement]
      exact h.act_statement hname
    · have hsame := h.left.sameAt_of_other (of_decide_eq_false hstep)
      exact ⟨h.left.act step, h.right, h.same.1.trans hsame.1.symm, h.same.2.trans hsame.2.symm⟩
  exact ⟨hrun.1, hrun.2.same.1.symm, hrun.2.same.2.symm⟩

end Memory
end TableStore
