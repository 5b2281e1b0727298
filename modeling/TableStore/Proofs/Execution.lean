import TableStore.Execution
import TableStore.Proofs.Schema

/-
When a statement succeeds, and what it then leaves.

One lemma for each statement says exactly when it has an outcome, which outcome that is and what
snapshot stands behind it.  `Snapshot.Change` gathers the five ways in which a statement can
show something, so that whatever is to be kept by every change is checked against five cases.
-/
namespace TableStore

theorem Declaration.addTo_name {t t' : Table} {declaration : String}
    (h : addTo t declaration = .ok t') : t'.name = t.name := by
  unfold addTo at h
  split at h
  · cases h
  · split at h
    · cases h
      rfl
    · split at h
      · cases h
      · cases h
        rfl

theorem Declaration.table_name {name : String} {declarations : List String} {t : Table}
    (h : table name declarations = .ok t) : t.name = name := by
  have hfold : ∀ (l : List String) (t₀ t : Table), l.foldlM addTo t₀ = .ok t → t.name = t₀.name := by
    intro l
    induction l with
    | nil =>
      intro t₀ t h
      cases h
      rfl
    | cons d rest ih =>
      intro t₀ t h
      rw [List.foldlM_cons, bind_eq_ok_iff] at h
      obtain ⟨t₁, h₁, h⟩ := h
      rw [ih t₁ t h, addTo_name h₁]
  exact hfold declarations (Table.blank name) t h

namespace Snapshot

theorem table_eq_ok_iff {s : Snapshot} {name : String} {t : Table} :
    s.table name = .ok t ↔ s.schema.table? name = some t := by
  unfold table
  cases s.schema.table? name <;> simp

theorem slash_not_mem_of_validName {name : String} (h : validName name = true) :
    '/' ∉ name.toList := by
  intro hmem
  simp only [validName, Bool.and_eq_true, List.all_eq_true] at h
  simpa using h.2 '/' hmem

theorem createTable_eq_ok_iff {name : String} {declarations : List String} {s after : Snapshot}
    {outcome : Outcome} :
    s.createTable name declarations = .ok (outcome, after) ↔
      validName name = true ∧ s.schema.contains name = false ∧
        ∃ t schema, Declaration.table name declarations = .ok t ∧
          s.schema.create t = .ok schema ∧ outcome = .created name t.columns ∧
          after = ⟨schema, s.rows⟩ := by
  simp only [createTable, check_eq_ok_iff, bind_eq_ok_iff, mapError_eq_ok_iff, pure_eq_ok_iff,
    Prod.mk.injEq, Bool.not_eq_true', Bool.not_eq_false, Bool.not_eq_true]
  grind

theorem dropTable_eq_ok_iff {name : String} {s after : Snapshot} {outcome : Outcome} :
    s.dropTable name = .ok (outcome, after) ↔
      ∃ t schema, s.schema.drop? name = some (t, schema) ∧ outcome = .dropped name ∧
        after = ⟨schema, s.rows⟩ := by
  unfold dropTable
  cases h : s.schema.drop? name with
  | none => simp
  | some dropped =>
    obtain ⟨t, schema⟩ := dropped
    constructor
    · intro hok
      cases hok
      exact ⟨t, schema, rfl, rfl, rfl⟩
    · intro hdropped
      obtain ⟨_, _, heq, rfl, rfl⟩ := hdropped
      cases heq
      rfl

theorem info_eq_ok_iff {name : String} {s after : Snapshot} {outcome : Outcome} :
    s.info name = .ok (outcome, after) ↔
      ∃ t, s.schema.table? name = some t ∧ outcome = .described name t.columns s.rows.size ∧
        after = s := by
  simp only [info, bind_eq_ok_iff, table_eq_ok_iff, pure_eq_ok_iff, Prod.mk.injEq]
  grind

theorem insert_eq_ok_iff {name : String} {values : List Value} {s after : Snapshot}
    {outcome : Outcome} :
    s.insert name values = .ok (outcome, after) ↔
      ∃ t record id, s.schema.table? name = some t ∧ values.length = t.dataColumns.length ∧
        fillFrom 1 t.dataColumns values = .ok record ∧ nextKey name s.rows = .ok id ∧
        outcome = .inserted name id ∧ after = ⟨s.schema, s.rows.insert id record⟩ := by
  simp only [insert, check_eq_ok_iff, bind_eq_ok_iff, table_eq_ok_iff, pure_eq_ok_iff,
    Prod.mk.injEq]
  grind

theorem select_eq_ok_iff {name : String} {condition : Option Fields} {s after : Snapshot}
    {outcome : Outcome} :
    s.select name condition = .ok (outcome, after) ↔
      ∃ t rows, s.schema.table? name = some t ∧ t.check (condition.getD .empty) = .ok () ∧
        (matching (condition.getD .empty) s.rows).entries.mapM (fun e => row t e.1 e.2) = .ok rows ∧
        outcome = .scanned name t.columnNames rows ∧ after = s := by
  simp only [select, bind_eq_ok_iff, table_eq_ok_iff, pure_eq_ok_iff, Prod.mk.injEq]
  grind

theorem isMutation_select {name : String} {condition : Option Fields} {s after : Snapshot}
    {outcome : Outcome} (h : s.select name condition = .ok (outcome, after)) :
    outcome.isMutation = false := by
  obtain ⟨_, _, -, -, -, rfl, -⟩ := select_eq_ok_iff.mp h
  rfl

theorem update_eq_ok_iff {name : String} {assignments condition : Fields} {s after : Snapshot}
    {outcome : Outcome} :
    s.update name assignments condition = .ok (outcome, after) ↔
      ∃ t, s.schema.table? name = some t ∧ assignments.contains keyColumn = false ∧
        t.check assignments = .ok () ∧ t.check condition = .ok () ∧
        outcome = .updated name (matching condition s.rows).keys ∧
        after = ⟨s.schema, s.rows.map fun id record =>
          if record.satisfies id condition then record.overlay assignments else record⟩ := by
  simp only [update, check_eq_ok_iff, bind_eq_ok_iff, table_eq_ok_iff, pure_eq_ok_iff,
    Prod.mk.injEq, Bool.not_eq_true]
  grind

theorem delete_eq_ok_iff {name : String} {condition : Fields} {s after : Snapshot}
    {outcome : Outcome} :
    s.delete name condition = .ok (outcome, after) ↔
      ∃ t, s.schema.table? name = some t ∧ t.check condition = .ok () ∧
        outcome = .deleted name (matching condition s.rows).keys ∧
        after = ⟨s.schema, s.rows.filter fun id record => !record.satisfies id condition⟩ := by
  simp only [delete, bind_eq_ok_iff, table_eq_ok_iff, pure_eq_ok_iff, Prod.mk.injEq]
  grind

/-- The ways in which a statement changes a snapshot, with everything that was checked before. -/
inductive Change (s : Snapshot) : Statement → Outcome → Snapshot → Prop where
  | create {name : String} {declarations : List String} {t : Table} {schema : Schema}
    (hname : validName name = true) (ht : Declaration.table name declarations = .ok t)
    (h : s.schema.create t = .ok schema) :
    Change s (.createTable name declarations) (.created name t.columns) ⟨schema, s.rows⟩
  | drop {name : String} {t : Table} {schema : Schema}
    (h : s.schema.drop? name = some (t, schema)) :
    Change s (.dropTable name) (.dropped name) ⟨schema, s.rows⟩
  | insert {name : String} {values : List Value} {t : Table} {record : Fields} {id : Int64}
    (ht : s.schema.table? name = some t) (hlength : values.length = t.dataColumns.length)
    (hrecord : fillFrom 1 t.dataColumns values = .ok record)
    (hid : nextKey name s.rows = .ok id) :
    Change s (.insert name values) (.inserted name id) ⟨s.schema, s.rows.insert id record⟩
  | update {name : String} {assignments condition : Fields} {t : Table}
    (ht : s.schema.table? name = some t) (hkey : assignments.contains keyColumn = false)
    (hassignments : t.check assignments = .ok ()) (hcondition : t.check condition = .ok ()) :
    Change s (.update name assignments condition)
      (.updated name (matching condition s.rows).keys)
      ⟨s.schema, s.rows.map fun id record =>
        if record.satisfies id condition then record.overlay assignments else record⟩
  | delete {name : String} {condition : Fields} {t : Table}
    (ht : s.schema.table? name = some t) (hcondition : t.check condition = .ok ()) :
    Change s (.delete name condition) (.deleted name (matching condition s.rows).keys)
      ⟨s.schema, s.rows.filter fun id record => !record.satisfies id condition⟩

end Snapshot

/-- Whatever reports a change is one of the five. -/
theorem Statement.change_of_execute {statement : Statement} {s after : Snapshot} {outcome : Outcome}
    (h : statement.execute s = .ok (outcome, after)) (ho : outcome.isMutation = true) :
    Snapshot.Change s statement outcome after := by
  cases statement with
  | createTable name declarations =>
    obtain ⟨hname, -, t, schema, ht, hcreate, rfl, rfl⟩ := Snapshot.createTable_eq_ok_iff.mp h
    exact .create hname ht hcreate
  | dropTable name =>
    obtain ⟨t, schema, hdrop, rfl, rfl⟩ := Snapshot.dropTable_eq_ok_iff.mp h
    exact .drop hdrop
  | insert name values =>
    obtain ⟨t, record, id, ht, hlength, hrecord, hid, rfl, rfl⟩ := Snapshot.insert_eq_ok_iff.mp h
    exact .insert ht hlength hrecord hid
  | update name assignments condition =>
    obtain ⟨t, ht, hkey, hassignments, hcondition, rfl, rfl⟩ := Snapshot.update_eq_ok_iff.mp h
    exact .update ht hkey hassignments hcondition
  | delete name condition =>
    obtain ⟨t, ht, hcondition, rfl, rfl⟩ := Snapshot.delete_eq_ok_iff.mp h
    exact .delete ht hcondition
  | select name condition =>
    rw [Snapshot.isMutation_select h] at ho
    cases ho
  | info name =>
    obtain ⟨t, -, rfl, -⟩ := Snapshot.info_eq_ok_iff.mp h
    cases ho
  | listTables =>
    cases h
    cases ho
  | help =>
    cases h
    cases ho
  | exit =>
    cases h
    cases ho
  | unknown word => cases h

end TableStore
