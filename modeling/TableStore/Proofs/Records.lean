import TableStore.Proofs.Execution

/-
Records that fit their table.

A record fits a list of columns when its fields are exactly those columns, each with a value of the
column's type.  What an insert fills in fits, an update keeps the fit, and a record that fits can be
laid out as a row, so a select has nothing to complain about but its condition.
-/
namespace TableStore

/-! ## Checks -/

theorem Column.check_eq_ok_iff {c : Column} {v : Value} {position : Option Nat} :
    c.check v position = .ok () ↔ v.dataType = c.dataType := by
  unfold check
  by_cases h : v.dataType = c.dataType <;> simp [h]

/-- Every entry names a column of the table and has its type. -/
def Table.Admits (t : Table) (fields : Fields) : Prop :=
  ∀ name v, fields.get? name = some v → ∃ c, t.column? name = some c ∧ v.dataType = c.dataType

theorem Table.check_eq_ok_iff {t : Table} {fields : Fields} :
    t.check fields = .ok () ↔ t.Admits fields := by
  unfold check
  rw [forM_eq_ok_iff]
  constructor
  · intro h name v hv
    have hentry := h (name, v) (SortedMap.get?_eq_some_iff.mp hv)
    cases hc : t.column? name with
    | none =>
      simp only [hc] at hentry
      cases hentry
    | some c =>
      simp only [hc] at hentry
      exact ⟨c, rfl, Column.check_eq_ok_iff.mp hentry⟩
  · intro h entry hv
    obtain ⟨name, v⟩ := entry
    obtain ⟨c, hc, htype⟩ := h name v (SortedMap.get?_eq_some_iff.mpr hv)
    simp only [hc]
    exact Column.check_eq_ok_iff.mpr htype

/-! ## Records -/

/-- The fields of the record are these columns, with values of their types. -/
structure Fields.Fits (columns : List Column) (record : Fields) : Prop where
  total : ∀ c ∈ columns, ∃ v, record.get? c.name = some v ∧ v.dataType = c.dataType
  only : ∀ name v, record.get? name = some v → ∃ c ∈ columns, c.name = name

theorem Snapshot.fits_of_fillFrom {position : Nat} {columns : List Column} {values : List Value}
    {record : Fields} (hnodup : (columns.map (·.name)).Nodup)
    (hlength : values.length = columns.length)
    (h : fillFrom position columns values = .ok record) : record.Fits columns := by
  induction columns generalizing position values record with
  | nil =>
    have hrecord : record = .empty := by
      simp only [fillFrom] at h
      exact (Except.ok.inj h).symm
    subst hrecord
    exact ⟨by simp, by simp⟩
  | cons c cs ih =>
    cases values with
    | nil => simp at hlength
    | cons v vs =>
      simp only [fillFrom, bind_eq_ok_iff, pure_eq_ok_iff] at h
      obtain ⟨_, hv, rest, hrest, rfl⟩ := h
      rw [Column.check_eq_ok_iff] at hv
      obtain ⟨hc, hcs⟩ := List.nodup_cons.mp hnodup
      have hfits := ih hcs (by simpa using hlength) hrest
      constructor
      · intro c' hc'
        rcases List.mem_cons.mp hc' with rfl | hc'
        · exact ⟨v, by rw [SortedMap.get?_insert, if_pos rfl], hv⟩
        · have hne : c'.name ≠ c.name := fun heq => hc (List.mem_map.mpr ⟨c', hc', heq⟩)
          rw [SortedMap.get?_insert, if_neg hne]
          exact hfits.total c' hc'
      · intro name w hw
        rw [SortedMap.get?_insert] at hw
        split at hw
        · next heq => exact ⟨c, by simp, heq.symm⟩
        · obtain ⟨c', hc', hname⟩ := hfits.only name w hw
          exact ⟨c', List.mem_cons_of_mem c hc', hname⟩

namespace Snapshot

theorem length_eq_of_types {values : List Value} {columns : List Column}
    (h : values.map Value.dataType = columns.map Column.dataType) :
    values.length = columns.length := by
  simpa using congrArg List.length h

theorem exists_fillFrom {columns : List Column} {values : List Value}
    (h : values.map Value.dataType = columns.map Column.dataType) (position : Nat) :
    ∃ record, fillFrom position columns values = .ok record := by
  induction columns generalizing values position with
  | nil => exact ⟨.empty, rfl⟩
  | cons c cs ih =>
    cases values with
    | nil => cases h
    | cons v vs =>
      rw [List.map_cons, List.map_cons, List.cons.injEq] at h
      obtain ⟨rest, hrest⟩ := ih h.2 (position + 1)
      refine ⟨rest.insert c.name v, ?_⟩
      rw [fillFrom, Column.check_eq_ok_iff.mpr h.1]
      show (fillFrom (position + 1) cs vs >>= _) = _
      rw [hrest]
      rfl

theorem exists_fillFrom_iff {position : Nat} {columns : List Column} {values : List Value}
    (hlength : values.length = columns.length) :
    (∃ record, fillFrom position columns values = .ok record) ↔
      values.map Value.dataType = columns.map Column.dataType := by
  refine ⟨fun h => ?_, fun h => exists_fillFrom h position⟩
  induction columns generalizing position values with
  | nil => rw [List.eq_nil_of_length_eq_zero hlength, List.map_nil, List.map_nil]
  | cons c cs ih =>
    cases values with
    | nil => cases hlength
    | cons v vs =>
      obtain ⟨record, hrecord⟩ := h
      obtain ⟨_, hcheck, hrecord⟩ := bind_eq_ok_iff.mp hrecord
      obtain ⟨rest, hrest, -⟩ := bind_eq_ok_iff.mp hrecord
      rw [List.map_cons, List.map_cons, Column.check_eq_ok_iff.mp hcheck,
        ih (Nat.succ.inj hlength) ⟨rest, hrest⟩]

end Snapshot

/-- An update gives a column a value of its own type, and never touches the primary key. -/
theorem Fields.Fits.overlay {t : Table} (ht : t.Valid) {record assignments : Fields}
    (hrecord : record.Fits t.dataColumns) (hkey : assignments.contains keyColumn = false)
    (hassignments : t.Admits assignments) : Fields.Fits t.dataColumns (record.overlay assignments) := by
  constructor
  · intro c hc
    rw [SortedMap.get?_overlay]
    cases ha : assignments.get? c.name with
    | none => exact hrecord.total c hc
    | some v =>
      obtain ⟨c', hc', htype⟩ := hassignments c.name v ha
      rw [ht.column?_of_mem (Table.mem_dataColumns.mp hc).1] at hc'
      cases hc'
      exact ⟨v, rfl, htype⟩
  · intro name w hw
    rw [SortedMap.get?_overlay] at hw
    cases ha : assignments.get? name with
    | none =>
      rw [ha] at hw
      exact hrecord.only name w hw
    | some v =>
      obtain ⟨c, hc, -⟩ := hassignments name v ha
      obtain ⟨hmem, hname⟩ := Table.column?_eq_some hc
      refine ⟨c, Table.mem_dataColumns.mpr ⟨hmem, fun heq => ?_⟩, hname⟩
      have hcontains : assignments.contains keyColumn = true := by
        simp [SortedMap.contains, ← heq, hname, ha]
      rw [hcontains] at hkey
      cases hkey

/-! ## Keys -/

theorem one_le_add_one_of_ne_max {n : Int64} (h : 1 ≤ n) (hmax : n ≠ Int64.maxValue) :
    1 ≤ n + 1 := by
  have hone : (1 : Int64).toInt = 1 := rfl
  have hlt : n.toInt ≠ 2 ^ 63 - 1 := fun heq =>
    hmax (Int64.toInt_inj.mp (heq.trans Int64.toInt_maxValue.symm))
  have hbound := n.toInt_lt
  rw [Int64.le_iff_toInt_le, hone] at h ⊢
  rw [Int64.toInt_add, hone, Int.bmod_eq_of_le] <;> omega

/-! ## Rows -/

/-- The records fit the table, and no key is below 1. -/
def Table.Holds (t : Table) (rows : Rows) : Prop :=
  ∀ id record, rows.get? id = some record → 1 ≤ id ∧ Fields.Fits t.dataColumns record

namespace Table.Holds

variable {t : Table} {rows : Rows}

theorem empty : t.Holds .empty := by
  intro id record h
  cases h

theorem one_le_nextKey (h : t.Holds rows) {name : String} {id : Int64}
    (hid : Snapshot.nextKey name rows = .ok id) : 1 ≤ id := by
  unfold Snapshot.nextKey at hid
  cases hlast : rows.last? with
  | none =>
    rw [hlast] at hid
    cases hid
    decide
  | some e =>
    obtain ⟨last, record⟩ := e
    have hmem : rows.get? last = some record :=
      SortedMap.get?_eq_some_iff.mpr (List.mem_of_getLast? hlast)
    simp only [hlast] at hid
    split at hid
    · cases hid
    · next hmax =>
      cases hid
      exact one_le_add_one_of_ne_max (h last record hmem).1 hmax

theorem insert (h : t.Holds rows) {id : Int64} {record : Fields} (hid : 1 ≤ id)
    (hrecord : record.Fits t.dataColumns) : t.Holds (rows.insert id record) := by
  intro id' record' hr
  rw [SortedMap.get?_insert] at hr
  split at hr
  · next heq =>
    cases hr
    exact ⟨heq ▸ hid, hrecord⟩
  · exact h id' record' hr

theorem map (h : t.Holds rows) {f : Int64 → Fields → Fields}
    (hf : ∀ id record, Fields.Fits t.dataColumns record → Fields.Fits t.dataColumns (f id record)) :
    t.Holds (rows.map f) := by
  intro id record' hr
  rw [SortedMap.get?_map, Option.map_eq_some_iff] at hr
  obtain ⟨record, hr, rfl⟩ := hr
  obtain ⟨hid, hfits⟩ := h id record hr
  exact ⟨hid, hf id record hfits⟩

theorem filter (h : t.Holds rows) (p : Int64 → Fields → Bool) : t.Holds (rows.filter p) := by
  intro id record hr
  rw [SortedMap.get?_filter, Option.filter_eq_some_iff] at hr
  exact h id record hr.1

end Table.Holds

/-! ## Selects -/

theorem Snapshot.exists_row {t : Table} (ht : t.Valid) {record : Fields}
    (h : record.Fits t.dataColumns) (id : Int64) :
    ∃ values, row t id record = .ok values ∧ values.length = t.columns.length := by
  refine (exists_mapM_eq_ok (P := fun _ : Value => True) fun c hc => ?_).elim fun values hvalues =>
    ⟨.int id :: values, bind_eq_ok_iff.mpr ⟨values, hvalues.1, rfl⟩, ?_⟩
  · obtain ⟨v, hv, -⟩ := h.total c hc
    exact ⟨v, by rw [hv], trivial⟩
  · rw [ht.columns_eq, List.length_cons, List.length_cons, hvalues.2.1]

/-- Over rows that fit, a condition that the table admits always selects, and every row is whole. -/
theorem Table.Holds.exists_rows {t : Table} (ht : t.Valid) {rows : Rows} (h : t.Holds rows) :
    ∃ lines, rows.entries.mapM (fun e => Snapshot.row t e.1 e.2) = .ok lines ∧
      lines.length = rows.size ∧ ∀ line ∈ lines, line.length = t.columns.length :=
  exists_mapM_eq_ok fun e he =>
    Snapshot.exists_row ht (h e.1 e.2 (SortedMap.get?_eq_some_iff.mpr he)).2 e.1

theorem Snapshot.matching_empty (rows : Rows) : matching .empty rows = rows := by
  have hall : ∀ id record, Fields.satisfies id record .empty = true := fun _ _ => rfl
  ext1
  simp [matching, SortedMap.filter, hall]

end TableStore
