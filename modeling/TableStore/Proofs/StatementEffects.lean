import TableStore.Proofs.Matching
import TableStore.Proofs.TableCommands

/-
What a statement leaves of the snapshot that it is carried out on, by what it answers.

A session saves what a statement reports as changed and nothing else, so the report has to be right both
ways: what reports no change makes none, and but for an update that writes what was there already, what
reports a change makes one (`effects_in_place`).
-/
namespace TableStore

open Stateful

namespace Snapshot

/-! ## Changes that are none -/

theorem matching_eq_nil_iff {condition : Fields} {rows : Rows} :
    (matching condition rows).keys = [] ↔
      ∀ id record, rows.get? id = some record → ¬ record.Agrees id condition := by
  rw [List.eq_nil_iff_forall_not_mem]
  simp only [mem_keys_matching, not_exists, not_and]

/-- Where a condition picks nothing, whatever is done to the records that it picks is done to none. -/
theorem map_of_unpicked {condition : Fields} {rows : Rows}
    (h : (matching condition rows).keys = []) (f : Fields → Fields) :
    rows.map (fun id record => if record.satisfies id condition then f record else record) = rows := by
  refine SortedMap.ext_get? fun id => ?_
  rw [SortedMap.get?_map]
  cases hrecord : rows.get? id with
  | none => rfl
  | some record =>
    have hnot := matching_eq_nil_iff.mp h id record hrecord
    rw [← Fields.satisfies_iff] at hnot
    simp [hnot]

theorem unmatched_of_unpicked {condition : Fields} {rows : Rows}
    (h : (matching condition rows).keys = []) : unmatched condition rows = rows := by
  refine SortedMap.ext_get? fun id => ?_
  rw [get?_unmatched, h]
  simp

end Snapshot

namespace Statement

/-- A statement that reports no change makes none. -/
theorem unchanged_of_execute {statement : Statement} {s after : Snapshot} {outcome : Outcome}
    (h : statement.execute s = .ok (outcome, after)) (ho : outcome.isMutation = false) :
    after = s := by
  cases statement with
  | createTable name declarations =>
    obtain ⟨-, -, t, schema, -, -, rfl, -⟩ := Snapshot.createTable_eq_ok_iff.mp h
    cases ho
  | dropTable name =>
    obtain ⟨t, schema, -, rfl, -⟩ := Snapshot.dropTable_eq_ok_iff.mp h
    cases ho
  | insert name values =>
    obtain ⟨t, record, id, -, -, -, -, rfl, -⟩ := Snapshot.insert_eq_ok_iff.mp h
    cases ho
  | update name assignments condition =>
    obtain ⟨t, -, -, -, -, rfl, rfl⟩ := Snapshot.update_eq_ok_iff.mp h
    have hnone : (Snapshot.matching condition s.rows).keys = [] := by
      simpa [Outcome.isMutation] using ho
    rw [Snapshot.map_of_unpicked hnone]
  | delete name condition =>
    obtain ⟨t, -, -, rfl, rfl⟩ := Snapshot.delete_eq_ok_iff.mp h
    have hnone : (Snapshot.matching condition s.rows).keys = [] := by
      simpa [Outcome.isMutation] using ho
    exact congrArg (Snapshot.mk s.schema) (Snapshot.unmatched_of_unpicked hnone)
  | select name condition =>
    obtain ⟨t, rows, -, -, -, -, rfl⟩ := Snapshot.select_eq_ok_iff.mp h
    rfl
  | info name =>
    obtain ⟨t, -, -, rfl⟩ := Snapshot.info_eq_ok_iff.mp h
    rfl
  | listTables =>
    cases h
    rfl
  | help =>
    cases h
    rfl
  | exit =>
    cases h
    rfl
  | unknown word => cases h

end Statement

namespace Snapshot

/-! ## Changes that are some -/

/-- But for an update, a change that is reported is one. -/
theorem Change.ne {s after : Snapshot} {statement : Statement} {outcome : Outcome}
    (h : Change s statement outcome after) (ho : outcome.isMutation = true)
    (hupdate : ∀ name assignments condition, statement ≠ .update name assignments condition) :
    after ≠ s := by
  intro heq
  have hschema := congrArg Snapshot.schema heq
  cases h with
  | create _ _ hcreate =>
    -- One name more stands in the registry.
    have hnames := congrArg Schema.names hschema
    simp [Schema.names_create hcreate] at hnames
  | drop hdrop =>
    -- One name less stands in the registry.
    have hlength := congrArg (fun schema : Schema => schema.names.length) hschema
    have hmem := Schema.mem_names_of_drop? hdrop
    have hpos := List.length_pos_of_mem hmem
    simp only [Schema.names_drop hdrop, List.length_erase_of_mem hmem] at hlength
    omega
  | @insert _ _ _ record id _ _ _ hid =>
    -- The new key stands behind all keys that were there.
    have hrows : s.rows.insert id record = s.rows := congrArg Snapshot.rows heq
    have hnew : (s.rows.insert id record).contains id = true := Rows.contains_insert.mpr (.inl rfl)
    rw [hrows] at hnew
    exact KeyOrder.irrefl _ (Rows.lt_nextKey hid hnew)
  | update _ _ _ _ => exact hupdate _ _ _ rfl
  | @delete _ condition _ _ _ =>
    -- A key that was picked is gone.
    have hrows : unmatched condition s.rows = s.rows := congrArg Snapshot.rows heq
    cases hkeys : (matching condition s.rows).keys with
    | nil =>
      rw [hkeys] at ho
      cases ho
    | cons id rest =>
      have hid : id ∈ (matching condition s.rows).keys := hkeys ▸ List.mem_cons_self
      obtain ⟨record, hrecord, -⟩ := mem_keys_matching.mp hid
      have hgone := get?_unmatched condition s.rows id
      rw [hrows, if_pos hid, hrecord] at hgone
      cases hgone

end Snapshot

/-- A command on a table as a whole leaves the rows, and every other statement the registry. -/
theorem Statement.frame_of_execute {statement : Statement} {s after : Snapshot} {outcome : Outcome}
    (h : statement.execute s = .ok (outcome, after)) :
    if statement.target?.isSome then after.rows = s.rows else after.schema = s.schema := by
  cases ho : outcome.isMutation with
  | false =>
    rw [unchanged_of_execute h ho]
    split <;> rfl
  | true =>
    cases change_of_execute h ho with
    | create _ _ _ => rfl
    | drop _ => rfl
    | insert _ _ _ _ => rfl
    | update _ _ _ _ => rfl
    | delete _ _ => rfl

/-- What a statement leaves when it is carried out in place: all of the snapshot if it fails or reports
no change, the rows or the registry if it reports one.  The report is true, except that an update also
reports the records that it overwrites with what they held. -/
theorem effects_in_place (statement : Statement) (s : Snapshot) :
    let r := run statement.inPlace.run s
    r = InPlace.settled s (statement.execute s) ∧
      (∀ fault, r.1 = .error fault → r.2 = s) ∧
      (∀ outcome, r.1 = .ok outcome → outcome.isMutation = false → r.2 = s) ∧
      (if statement.target?.isSome then r.2.rows = s.rows else r.2.schema = s.schema) ∧
      (∀ outcome, r.1 = .ok outcome → outcome.isMutation = true →
        (∀ name assignments condition, statement ≠ .update name assignments condition) → r.2 ≠ s) ∧
      ∀ name assignments condition outcome, statement = .update name assignments condition →
        r.1 = .ok outcome → outcome.isMutation = false →
        ∀ id record, s.rows.get? id = some record → ¬ record.Agrees id condition := by
  intro r
  have hr : r = InPlace.settled s (statement.execute s) := statement.settles_inPlace s
  refine ⟨hr, ?_⟩
  rw [hr]
  cases he : statement.execute s with
  | error fault =>
    refine ⟨fun _ _ => rfl, nofun, ?_, nofun, nofun⟩
    split <;> rfl
  | ok result =>
    obtain ⟨outcome, after⟩ := result
    refine ⟨nofun, ?_, ?_, ?_, ?_⟩
    · intro _ heq ho
      cases heq
      exact Statement.unchanged_of_execute he ho
    · exact Statement.frame_of_execute he
    · intro _ heq ho hupdate
      cases heq
      exact (Statement.change_of_execute he ho).ne ho hupdate
    · intro name assignments condition _ hstatement heq ho
      subst hstatement
      cases heq
      obtain ⟨t, -, -, -, -, rfl, -⟩ := Snapshot.update_eq_ok_iff.mp he
      exact Snapshot.matching_eq_nil_iff.mp (by simpa [Outcome.isMutation] using ho)

end TableStore
