import TableStore.Proofs.FirstFaults

/-
What a statement on the records of a table is refused for, and when it is not.

Several things can be wrong at once, and one is reported.  `Snapshot.Refuses` says which, by the order
in which they are looked for: the table, the assignments, the condition and only then the records.
`Snapshot.Accepts` says what has to hold for none to be wrong, and between them they cover every statement
on records, once (`verdicts`).
-/
namespace TableStore

open Stateful

namespace Snapshot

/-! ## Refusals -/

/-- What a statement on the records of a table is refused for.  Each case says what was found to be right
before. -/
inductive Refuses (s : Snapshot) : Statement → Fault → Prop where
  | noTable {statement : Statement} {name : String} (hname : statement.dataTable? = some name)
    (ht : s.schema.table? name = none) : Refuses s statement (.tableNotFound name)
  | valueCount {name : String} {values : List Value} {t : Table}
    (ht : s.schema.table? name = some t) (h : values.length ≠ t.dataColumns.length) :
    Refuses s (.insert name values) (.valueCount t.dataColumns.length values.length)
  | mistypedValue {name : String} {values : List Value} {t : Table} {i : Nat} {c : Column} {v : Value}
    (ht : s.schema.table? name = some t) (hlength : values.length = t.dataColumns.length)
    (hbefore : ∀ j < i, values[j]?.map Value.dataType = t.dataColumns[j]?.map Column.dataType)
    (hc : t.dataColumns[i]? = some c) (hv : values[i]? = some v) (h : v.dataType ≠ c.dataType) :
    Refuses s (.insert name values) (.typeMismatch c.name (some (i + 1)) c.dataType v.dataType)
  | noKeyLeft {name : String} {values : List Value} {t : Table}
    (ht : s.schema.table? name = some t)
    (hvalues : values.map Value.dataType = t.dataColumns.map Column.dataType)
    (h : s.rows.contains Int64.maxValue = true) :
    Refuses s (.insert name values) (.noKeyLeft name Int64.maxValue)
  | selectCondition {name : String} {condition : Option Fields} {t : Table} {fault : Fault}
    (ht : s.schema.table? name = some t) (h : t.FirstObjection (condition.getD .empty) fault) :
    Refuses s (.select name condition) fault
  | missingValue {name : String} {condition : Option Fields} {t : Table} {id : Int64}
    {record : Fields} {c : Column} (ht : s.schema.table? name = some t)
    (hcondition : t.Admits (condition.getD .empty)) (hrecord : s.rows.get? id = some record)
    (hagrees : record.Agrees id (condition.getD .empty))
    (hbefore : ∀ id' record', s.rows.get? id' = some record' →
      record'.Agrees id' (condition.getD .empty) → id' < id → t.Covers record')
    (h : t.FirstGap record c) : Refuses s (.select name condition) (.missingValue name id c.name)
  | keyAssigned {name : String} {assignments condition : Fields} {t : Table}
    (ht : s.schema.table? name = some t) (h : assignments.contains keyColumn = true) :
    Refuses s (.update name assignments condition) (.immutableColumn keyColumn)
  | assignments {name : String} {assignments condition : Fields} {t : Table} {fault : Fault}
    (ht : s.schema.table? name = some t) (hkey : assignments.contains keyColumn = false)
    (h : t.FirstObjection assignments fault) : Refuses s (.update name assignments condition) fault
  | updateCondition {name : String} {assignments condition : Fields} {t : Table} {fault : Fault}
    (ht : s.schema.table? name = some t) (hkey : assignments.contains keyColumn = false)
    (hassignments : t.Admits assignments) (h : t.FirstObjection condition fault) :
    Refuses s (.update name assignments condition) fault
  | deleteCondition {name : String} {condition : Fields} {t : Table} {fault : Fault}
    (ht : s.schema.table? name = some t) (h : t.FirstObjection condition fault) :
    Refuses s (.delete name condition) fault

theorem insert_eq_error_iff {s : Snapshot} {name : String} {values : List Value} {fault : Fault} :
    s.insert name values = .error fault ↔ s.Refuses (.insert name values) fault := by
  simp only [insert, bind_eq_error_iff, table_eq_error_iff, table_eq_ok_iff, check_eq_error_iff,
    fillFrom_eq_error_iff, nextKey_eq_error_iff]
  constructor
  · intro h
    rcases h with ⟨ht, rfl⟩ | ⟨t, ht, h⟩
    · exact .noTable rfl ht
    rcases h with ⟨hlength, rfl⟩ | ⟨hlength, h⟩
    · exact .valueCount ht hlength
    have hlength := Decidable.not_not.mp hlength
    rcases h with ⟨i, c, v, hc, hv, hne, hbefore, rfl⟩ | ⟨record, hrecord, h⟩
    · rw [Nat.add_comm]
      exact .mistypedValue ht hlength hbefore hc hv hne
    have hvalues := (exists_fillFrom_iff hlength).mp ⟨record, hrecord⟩
    rcases h with ⟨hmax, rfl⟩ | ⟨_, _, h⟩
    · exact .noKeyLeft ht hvalues hmax
    · cases h
  · intro h
    cases h with
    | noTable hname ht =>
      cases hname
      exact .inl ⟨ht, rfl⟩
    | valueCount ht h => exact .inr ⟨_, ht, .inl ⟨h, rfl⟩⟩
    | mistypedValue ht hlength hbefore hc hv h =>
      refine .inr ⟨_, ht, .inr ⟨not_not_intro hlength, .inl ⟨_, _, _, hc, hv, h, hbefore, ?_⟩⟩⟩
      rw [Nat.add_comm]
    | noKeyLeft ht hvalues h =>
      obtain ⟨record, hrecord⟩ := exists_fillFrom hvalues 1
      exact .inr ⟨_, ht, .inr ⟨not_not_intro (length_eq_of_types hvalues),
        .inr ⟨record, hrecord, .inl ⟨h, rfl⟩⟩⟩⟩

theorem select_eq_error_iff {s : Snapshot} {name : String} {condition : Option Fields}
    {fault : Fault} :
    s.select name condition = .error fault ↔ s.Refuses (.select name condition) fault := by
  simp only [select, bind_eq_error_iff, table_eq_error_iff, table_eq_ok_iff,
    Table.check_eq_error_iff, mapM_eq_error_iff, SortedMap.firstRefusal_entries_iff, get?_matching,
    row_eq_error_iff, exists_row_iff]
  constructor
  · intro h
    rcases h with ⟨ht, rfl⟩ | ⟨t, ht, h⟩
    · exact .noTable rfl ht
    rcases h with h | ⟨_, hcondition, h⟩
    · exact .selectCondition ht h
    rcases h with ⟨id, record, ⟨hrecord, hagrees⟩, ⟨c, hgap, rfl⟩, hbefore⟩ | ⟨_, _, h⟩
    · rw [(Schema.table?_eq_some ht).2]
      exact .missingValue ht (Table.check_eq_ok_iff.mp hcondition) hrecord hagrees
        (fun id' record' hr ha hlt => hbefore id' record' ⟨hr, ha⟩ hlt) hgap
    · cases h
  · intro h
    cases h with
    | noTable hname ht =>
      cases hname
      exact .inl ⟨ht, rfl⟩
    | selectCondition ht h => exact .inr ⟨_, ht, .inl h⟩
    | missingValue ht hcondition hrecord hagrees hbefore h =>
      refine .inr ⟨_, ht, .inr ⟨(), Table.check_eq_ok_iff.mpr hcondition, .inl ⟨_, _,
        ⟨hrecord, hagrees⟩, ⟨_, h, ?_⟩, fun id' record' hr hlt => hbefore id' record' hr.1 hr.2 hlt⟩⟩⟩
      rw [(Schema.table?_eq_some ht).2]

theorem update_eq_error_iff {s : Snapshot} {name : String} {assignments condition : Fields}
    {fault : Fault} :
    s.update name assignments condition = .error fault ↔
      s.Refuses (.update name assignments condition) fault := by
  simp only [update, bind_eq_error_iff, table_eq_error_iff, table_eq_ok_iff, check_eq_error_iff,
    Table.check_eq_error_iff]
  constructor
  · intro h
    rcases h with ⟨ht, rfl⟩ | ⟨t, ht, h⟩
    · exact .noTable rfl ht
    rcases h with ⟨hkey, rfl⟩ | ⟨hkey, h⟩
    · exact .keyAssigned ht hkey
    have hkey := Bool.eq_false_iff.mpr hkey
    rcases h with h | ⟨_, hassignments, h⟩
    · exact .assignments ht hkey h
    rcases h with h | ⟨_, _, h⟩
    · exact .updateCondition ht hkey (Table.check_eq_ok_iff.mp hassignments) h
    · cases h
  · intro h
    cases h with
    | noTable hname ht =>
      cases hname
      exact .inl ⟨ht, rfl⟩
    | keyAssigned ht h => exact .inr ⟨_, ht, .inl ⟨h, rfl⟩⟩
    | assignments ht hkey h => exact .inr ⟨_, ht, .inr ⟨Bool.eq_false_iff.mp hkey, .inl h⟩⟩
    | updateCondition ht hkey hassignments h =>
      exact .inr ⟨_, ht, .inr ⟨Bool.eq_false_iff.mp hkey, .inr ⟨(),
        Table.check_eq_ok_iff.mpr hassignments, .inl h⟩⟩⟩

theorem delete_eq_error_iff {s : Snapshot} {name : String} {condition : Fields} {fault : Fault} :
    s.delete name condition = .error fault ↔ s.Refuses (.delete name condition) fault := by
  simp only [delete, bind_eq_error_iff, table_eq_error_iff, table_eq_ok_iff,
    Table.check_eq_error_iff]
  constructor
  · intro h
    rcases h with ⟨ht, rfl⟩ | ⟨t, ht, h⟩
    · exact .noTable rfl ht
    rcases h with h | ⟨_, _, h⟩
    · exact .deleteCondition ht h
    · cases h
  · intro h
    cases h with
    | noTable hname ht =>
      cases hname
      exact .inl ⟨ht, rfl⟩
    | deleteCondition ht h => exact .inr ⟨_, ht, .inl h⟩

theorem info_eq_error_iff {s : Snapshot} {name : String} {fault : Fault} :
    s.info name = .error fault ↔ s.Refuses (.info name) fault := by
  simp only [info, bind_eq_error_iff, table_eq_error_iff, table_eq_ok_iff]
  constructor
  · intro h
    rcases h with ⟨ht, rfl⟩ | ⟨t, ht, h⟩
    · exact .noTable rfl ht
    · cases h
  · intro h
    cases h with
    | noTable hname ht =>
      cases hname
      exact .inl ⟨ht, rfl⟩

/-- What an update or a delete is refused for does not depend on the rows. -/
theorem Refuses.of_schema_eq {s s' : Snapshot} {statement : Statement} {name : String} {fault : Fault}
    (hstatement : (∃ assignments condition, statement = .update name assignments condition) ∨
      ∃ condition, statement = .delete name condition)
    (hschema : s'.schema = s.schema) (h : s.Refuses statement fault) : s'.Refuses statement fault := by
  rcases hstatement with ⟨assignments, condition, rfl⟩ | ⟨condition, rfl⟩
  · cases h with
    | noTable hname ht => exact .noTable hname (hschema ▸ ht)
    | keyAssigned ht h => exact .keyAssigned (hschema ▸ ht) h
    | assignments ht hkey h => exact .assignments (hschema ▸ ht) hkey h
    | updateCondition ht hkey hassignments h =>
      exact .updateCondition (hschema ▸ ht) hkey hassignments h
  · cases h with
    | noTable hname ht => exact .noTable hname (hschema ▸ ht)
    | deleteCondition ht h => exact .deleteCondition (hschema ▸ ht) h

/-! ## Acceptance -/

/-- What has to hold for a statement on the records of a table to go through. -/
inductive Accepts (s : Snapshot) : Statement → Prop where
  | insert {name : String} {values : List Value} {t : Table} (ht : s.schema.table? name = some t)
    (hvalues : values.map Value.dataType = t.dataColumns.map Column.dataType)
    (hkey : s.rows.contains Int64.maxValue = false) : Accepts s (.insert name values)
  | select {name : String} {condition : Option Fields} {t : Table}
    (ht : s.schema.table? name = some t) (hcondition : t.Admits (condition.getD .empty))
    (hcovers : ∀ id record, s.rows.get? id = some record →
      record.Agrees id (condition.getD .empty) → t.Covers record) : Accepts s (.select name condition)
  | update {name : String} {assignments condition : Fields} {t : Table}
    (ht : s.schema.table? name = some t) (hkey : assignments.contains keyColumn = false)
    (hassignments : t.Admits assignments) (hcondition : t.Admits condition) :
    Accepts s (.update name assignments condition)
  | delete {name : String} {condition : Fields} {t : Table} (ht : s.schema.table? name = some t)
    (hcondition : t.Admits condition) : Accepts s (.delete name condition)
  | info {name : String} {t : Table} (ht : s.schema.table? name = some t) : Accepts s (.info name)

theorem exists_insert_iff {s : Snapshot} {name : String} {values : List Value} :
    (∃ result, s.insert name values = .ok result) ↔ s.Accepts (.insert name values) := by
  constructor
  · intro h
    obtain ⟨⟨outcome, after⟩, h⟩ := h
    obtain ⟨t, record, id, ht, hlength, hrecord, hid, -⟩ := insert_eq_ok_iff.mp h
    exact .insert ht ((exists_fillFrom_iff hlength).mp ⟨record, hrecord⟩)
      (exists_nextKey_iff.mp ⟨id, hid⟩)
  · intro h
    cases h with
    | @insert _ _ t ht hvalues hkey =>
      obtain ⟨record, hrecord⟩ := exists_fillFrom hvalues 1
      obtain ⟨id, hid⟩ := exists_nextKey_iff.mpr hkey
      exact ⟨_, insert_eq_ok_iff.mpr
        ⟨t, record, id, ht, length_eq_of_types hvalues, hrecord, hid, rfl, rfl⟩⟩

theorem exists_select_iff {s : Snapshot} {name : String} {condition : Option Fields} :
    (∃ result, s.select name condition = .ok result) ↔ s.Accepts (.select name condition) := by
  have hrows (t : Table) : (∃ rows, (matching (condition.getD .empty) s.rows).entries.mapM
        (fun e => row t e.1 e.2) = .ok rows) ↔
      ∀ id record, s.rows.get? id = some record → record.Agrees id (condition.getD .empty) →
        t.Covers record := by
    simp only [exists_mapM_iff, exists_row_iff, Prod.forall, ← SortedMap.get?_eq_some_iff,
      get?_matching, and_imp]
  constructor
  · intro h
    obtain ⟨⟨outcome, after⟩, h⟩ := h
    obtain ⟨t, rows, ht, hcondition, h, -⟩ := select_eq_ok_iff.mp h
    exact .select ht (Table.check_eq_ok_iff.mp hcondition) ((hrows t).mp ⟨rows, h⟩)
  · intro h
    cases h with
    | @select _ _ t ht hcondition hcovers =>
      obtain ⟨rows, h⟩ := (hrows t).mpr hcovers
      exact ⟨_, select_eq_ok_iff.mpr
        ⟨t, rows, ht, Table.check_eq_ok_iff.mpr hcondition, h, rfl, rfl⟩⟩

theorem exists_update_iff {s : Snapshot} {name : String} {assignments condition : Fields} :
    (∃ result, s.update name assignments condition = .ok result) ↔
      s.Accepts (.update name assignments condition) := by
  constructor
  · intro h
    obtain ⟨⟨outcome, after⟩, h⟩ := h
    obtain ⟨t, ht, hkey, hassignments, hcondition, -⟩ := update_eq_ok_iff.mp h
    exact .update ht hkey (Table.check_eq_ok_iff.mp hassignments)
      (Table.check_eq_ok_iff.mp hcondition)
  · intro h
    cases h with
    | @update _ _ _ t ht hkey hassignments hcondition =>
      exact ⟨_, update_eq_ok_iff.mpr ⟨t, ht, hkey, Table.check_eq_ok_iff.mpr hassignments,
        Table.check_eq_ok_iff.mpr hcondition, rfl, rfl⟩⟩

theorem exists_delete_iff {s : Snapshot} {name : String} {condition : Fields} :
    (∃ result, s.delete name condition = .ok result) ↔ s.Accepts (.delete name condition) := by
  constructor
  · intro h
    obtain ⟨⟨outcome, after⟩, h⟩ := h
    obtain ⟨t, ht, hcondition, -⟩ := delete_eq_ok_iff.mp h
    exact .delete ht (Table.check_eq_ok_iff.mp hcondition)
  · intro h
    cases h with
    | @delete _ _ t ht hcondition =>
      exact ⟨_, delete_eq_ok_iff.mpr ⟨t, ht, Table.check_eq_ok_iff.mpr hcondition, rfl, rfl⟩⟩

theorem exists_info_iff {s : Snapshot} {name : String} :
    (∃ result, s.info name = .ok result) ↔ s.Accepts (.info name) := by
  constructor
  · intro h
    obtain ⟨⟨outcome, after⟩, h⟩ := h
    obtain ⟨t, ht, -⟩ := info_eq_ok_iff.mp h
    exact .info ht
  · intro h
    cases h with
    | @info _ t ht => exact ⟨_, info_eq_ok_iff.mpr ⟨t, ht, rfl, rfl⟩⟩

end Snapshot

/-! ## Verdicts -/

namespace Statement

/-- What a statement that is carried out in place is answered with. -/
def verdict (statement : Statement) (s : Snapshot) : Except Fault Outcome :=
  (run statement.inPlace.run s).1

theorem verdict_eq_error_iff {statement : Statement} {s : Snapshot} {fault : Fault} :
    statement.verdict s = .error fault ↔ statement.execute s = .error fault := by
  rw [verdict, statement.settles_inPlace s]
  cases statement.execute s <;> simp [InPlace.settled]

theorem exists_verdict_iff {statement : Statement} {s : Snapshot} :
    (∃ outcome, statement.verdict s = .ok outcome) ↔ ∃ result, statement.execute s = .ok result := by
  rw [verdict, statement.settles_inPlace s]
  cases statement.execute s <;> simp [InPlace.settled]

variable {statement : Statement} {name : String} (hname : statement.dataTable? = some name)
include hname

theorem execute_eq_error_iff {s : Snapshot} {fault : Fault} :
    statement.execute s = .error fault ↔ s.Refuses statement fault := by
  cases statement with
  | insert _ _ => exact Snapshot.insert_eq_error_iff
  | select _ _ => exact Snapshot.select_eq_error_iff
  | update _ _ _ => exact Snapshot.update_eq_error_iff
  | delete _ _ => exact Snapshot.delete_eq_error_iff
  | info _ => exact Snapshot.info_eq_error_iff
  | _ => cases hname

theorem exists_execute_iff {s : Snapshot} :
    (∃ result, statement.execute s = .ok result) ↔ s.Accepts statement := by
  cases statement with
  | insert _ _ => exact Snapshot.exists_insert_iff
  | select _ _ => exact Snapshot.exists_select_iff
  | update _ _ _ => exact Snapshot.exists_update_iff
  | delete _ _ => exact Snapshot.exists_delete_iff
  | info _ => exact Snapshot.exists_info_iff
  | _ => cases hname

end Statement

/-- What a statement on the records of a table is refused for, and when it goes through.  For an update
and a delete the records make no difference. -/
theorem verdicts {statement : Statement} {name : String}
    (hname : statement.dataTable? = some name) (s : Snapshot) :
    (∀ fault, statement.verdict s = .error fault ↔ s.Refuses statement fault) ∧
      ((∃ outcome, statement.verdict s = .ok outcome) ↔ s.Accepts statement) ∧
      ((∃ assignments condition, statement = .update name assignments condition) ∨
          (∃ condition, statement = .delete name condition) →
        ∀ rows, (statement.verdict ⟨s.schema, rows⟩).map (fun _ => ()) =
          (statement.verdict s).map fun _ => ()) := by
  have herror (s : Snapshot) (fault : Fault) :
      statement.verdict s = .error fault ↔ s.Refuses statement fault :=
    Statement.verdict_eq_error_iff.trans (Statement.execute_eq_error_iff hname)
  refine ⟨herror s, Statement.exists_verdict_iff.trans (Statement.exists_execute_iff hname),
    fun hstatement rows => map_eq_map_of_error_iff fun fault => ?_⟩
  rw [herror, herror]
  exact ⟨.of_schema_eq hstatement rfl, .of_schema_eq hstatement rfl⟩

/-- Of all that is wrong with this update, the assignment of the primary key is reported, and of all that
is wrong with this condition the name that comes first. -/
theorem verdicts_of_several :
    let t : Table := ⟨"t", [Column.key, ⟨"v", .int⟩, ⟨"n", .str⟩]⟩
    let s : Snapshot := ⟨⟨[t]⟩, .singleton 1 .empty⟩
    let wrong : Fields := .ofList [("z", .int 1), ("n", .bool true), ("v", .str "x")]
    let update : Statement := .update "t" (wrong.insert "ID" (.str "x")) wrong
    let select : Statement := .select "t" (some wrong)
    let scan : Statement := .select "t" none
    update.dataTable? = some "t" ∧ select.dataTable? = some "t" ∧ scan.dataTable? = some "t" ∧
      s.Refuses update (.immutableColumn "ID") ∧
      (∀ rows outcome, update.verdict ⟨s.schema, rows⟩ ≠ .ok outcome) ∧
      s.Refuses select (.typeMismatch "n" none .str .bool) ∧
      s.Refuses scan (.missingValue "t" 1 "v") := by
  intro t s wrong update select scan
  obtain ⟨hupdate, -, hrows⟩ := verdicts (rfl : update.dataTable? = some "t") s
  obtain ⟨hselect, -⟩ := verdicts (rfl : select.dataTable? = some "t") s
  obtain ⟨hscan, -⟩ := verdicts (rfl : scan.dataTable? = some "t") s
  have hanswer : update.verdict s = .error (.immutableColumn "ID") := rfl
  refine ⟨rfl, rfl, rfl, (hupdate _).mp hanswer, fun rows outcome hok => ?_,
    (hselect _).mp rfl, (hscan _).mp rfl⟩
  have hsame := hrows (.inl ⟨_, _, rfl⟩) rows
  rw [hok, hanswer] at hsame
  cases hsame

end TableStore
