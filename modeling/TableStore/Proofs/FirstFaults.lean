import TableStore.Proofs.ByteOrder
import TableStore.Proofs.Matching

/-
Which fault is reported when there are several of a kind.

A loop over the entries of a map stops at the least key that is refused
(`SortedMap.firstRefusal_entries_iff`), a loop over the columns of a table at the first.  So of the entries
of a condition the one whose name comes first is reported, of the values of an insert the one furthest
left, and of the columns that a record lacks the first of the table.
-/
namespace TableStore

/-! ## The first refusal -/

namespace SortedMap

variable {κ α ε β : Type} [LT κ] [KeyOrder κ] [DecidableEq κ]

/-- A loop over a map stops at the least key whose binding is refused. -/
theorem firstRefusal_entries_iff {m : SortedMap κ α} {f : κ × α → Except ε β} {e : ε} :
    FirstRefusal f e m.entries ↔
      ∃ k v, m.get? k = some v ∧ f (k, v) = .error e ∧
        ∀ k' v', m.get? k' = some v' → k' < k → ∃ b, f (k', v') = .ok b := by
  rw [firstRefusal_iff]
  constructor
  · intro h
    obtain ⟨before, ⟨k, v⟩, after, hentries, hbefore, hrefused⟩ := h
    have hascending := m.ascending
    rw [hentries] at hascending
    obtain ⟨-, hrest, -⟩ := List.pairwise_append.mp hascending
    refine ⟨k, v, get?_eq_some_iff.mpr (by simp [hentries]), hrefused, fun k' v' hv' hlt => ?_⟩
    have hmem := get?_eq_some_iff.mp hv'
    rw [hentries, List.mem_append, List.mem_cons] at hmem
    rcases hmem with hmem | heq | hmem
    · exact hbefore _ hmem
    · cases heq
      exact absurd hlt (KeyOrder.irrefl _)
    · exact absurd (KeyOrder.trans hlt ((List.pairwise_cons.mp hrest).1 _ hmem)) (KeyOrder.irrefl _)
  · intro h
    obtain ⟨k, v, hv, hrefused, hleast⟩ := h
    obtain ⟨before, after, hentries⟩ := List.append_of_mem (get?_eq_some_iff.mp hv)
    have hascending := m.ascending
    rw [hentries] at hascending
    refine ⟨before, (k, v), after, hentries, fun e he => ?_, hrefused⟩
    have hlt := (List.pairwise_append.mp hascending).2.2 e he (k, v) List.mem_cons_self
    exact hleast e.1 e.2 (get?_eq_some_iff.mpr (by simp [hentries, he])) hlt

end SortedMap

/-! ## Conditions and assignments -/

theorem Column.check_eq_error_iff {c : Column} {v : Value} {position : Option Nat} {fault : Fault} :
    c.check v position = .error fault ↔
      v.dataType ≠ c.dataType ∧ fault = .typeMismatch c.name position c.dataType v.dataType := by
  unfold check
  by_cases h : v.dataType = c.dataType <;> simp [h, eq_comm]

namespace Table

/-- What a table objects to in one entry of a condition, or of the assignments of an update. -/
inductive Objects (t : Table) (name : String) (v : Value) : Fault → Prop where
  | unknown (h : t.column? name = none) : Objects t name v (.columnNotFound t.name name)
  | mistyped {c : Column} (hc : t.column? name = some c) (h : v.dataType ≠ c.dataType) :
    Objects t name v (.typeMismatch name none c.dataType v.dataType)

/-- Of the entries that a table objects to, the one whose name comes first byte by byte. -/
def FirstObjection (t : Table) (fields : Fields) (fault : Fault) : Prop :=
  ∃ name v, fields.get? name = some v ∧ t.Objects name v fault ∧
    ∀ other w, fields.get? other = some w → bytes other < bytes name → ∀ f, ¬ t.Objects other w f

/-- The check of one entry. -/
def checkEntry (t : Table) (entry : String × Value) : Except Fault Unit :=
  match t.column? entry.1 with
  | none => .error (.columnNotFound t.name entry.1)
  | some c => c.check entry.2 none

theorem check_eq (t : Table) (fields : Fields) : t.check fields = fields.entries.forM t.checkEntry :=
  rfl

theorem objects_iff {t : Table} {name : String} {v : Value} {fault : Fault} :
    t.Objects name v fault ↔ t.checkEntry (name, v) = .error fault := by
  unfold checkEntry
  cases hc : t.column? name with
  | none =>
    constructor
    · intro h
      cases h with
      | unknown _ => rfl
      | mistyped hc' _ => cases hc.symm.trans hc'
    · intro h
      cases h
      exact .unknown hc
  | some c =>
    obtain ⟨-, rfl⟩ := column?_eq_some hc
    rw [Column.check_eq_error_iff]
    constructor
    · intro h
      cases h with
      | unknown hc' => cases hc.symm.trans hc'
      | mistyped hc' h =>
        cases hc.symm.trans hc'
        exact ⟨h, rfl⟩
    · intro h
      obtain ⟨hne, rfl⟩ := h
      exact .mistyped hc hne

theorem check_eq_error_iff {t : Table} {fields : Fields} {fault : Fault} :
    t.check fields = .error fault ↔ t.FirstObjection fields fault := by
  rw [check_eq, forM_eq_error_iff, SortedMap.firstRefusal_entries_iff]
  simp only [FirstObjection, objects_iff, ← lt_iff_bytes_lt, exists_ok_iff, ne_eq]

/-! ## Records -/

/-- The first column for which the record has no value. -/
def FirstGap (t : Table) (record : Fields) (c : Column) : Prop :=
  ∃ before after, t.dataColumns = before ++ c :: after ∧ record.contains c.name = false ∧
    ∀ b ∈ before, record.contains b.name = true

end Table

namespace Snapshot

theorem table_eq_error_iff {s : Snapshot} {name : String} {fault : Fault} :
    s.table name = .error fault ↔ s.schema.table? name = none ∧ fault = .tableNotFound name := by
  unfold table
  cases s.schema.table? name <;> simp [eq_comm]

/-- A record can be laid out if it has a value for every column. -/
theorem exists_row_iff {t : Table} {id : Int64} {record : Fields} :
    (∃ line, row t id record = .ok line) ↔ t.Covers record := by
  constructor
  · intro h
    obtain ⟨line, hline⟩ := h
    obtain ⟨values, hvalues, -⟩ := bind_eq_ok_iff.mp hline
    exact fun c hc => exists_cell_iff.mp (exists_mapM_iff.mp ⟨values, hvalues⟩ c hc)
  · intro h
    obtain ⟨line, hline, -⟩ := exists_row_of_covers h id
    exact ⟨line, hline⟩

theorem cell_eq_error_iff {t : Table} {id : Int64} {record : Fields} {c : Column} {fault : Fault} :
    cell t id record c = .error fault ↔
      record.contains c.name = false ∧ fault = .missingValue t.name id c.name := by
  rw [cell, SortedMap.contains]
  cases record.get? c.name <;> simp [eq_comm]

/-- A record that cannot be laid out is reported with the first column that has no value. -/
theorem row_eq_error_iff {t : Table} {id : Int64} {record : Fields} {fault : Fault} :
    row t id record = .error fault ↔
      ∃ c, t.FirstGap record c ∧ fault = .missingValue t.name id c.name := by
  rw [row_eq, bind_eq_error_iff, mapM_eq_error_iff, firstRefusal_iff]
  simp only [exists_cell_iff, cell_eq_error_iff]
  constructor
  · intro h
    rcases h with ⟨before, c, after, hcolumns, hbefore, hc, rfl⟩ | ⟨_, _, h⟩
    · exact ⟨c, ⟨before, after, hcolumns, hc, hbefore⟩, rfl⟩
    · cases h
  · intro h
    obtain ⟨c, ⟨before, after, hcolumns, hc, hbefore⟩, rfl⟩ := h
    exact .inl ⟨before, c, after, hcolumns, hbefore, hc, rfl⟩

/-- Values are filled in up to the first of another type than its column, which is reported with its
place. -/
theorem fillFrom_eq_error_iff {position : Nat} {columns : List Column} {values : List Value}
    {fault : Fault} :
    fillFrom position columns values = .error fault ↔
      ∃ i c v, columns[i]? = some c ∧ values[i]? = some v ∧ v.dataType ≠ c.dataType ∧
        (∀ j < i, values[j]?.map Value.dataType = columns[j]?.map Column.dataType) ∧
        fault = .typeMismatch c.name (some (position + i)) c.dataType v.dataType := by
  induction columns generalizing position values with
  | nil => simp [fillFrom]
  | cons c cs ih =>
    cases values with
    | nil => simp [fillFrom]
    | cons v vs =>
      rw [fillFrom]
      simp only [bind_eq_error_iff, Column.check_eq_error_iff, ih]
      constructor
      · intro h
        rcases h with ⟨hne, rfl⟩ | ⟨_, hfits, h⟩
        · exact ⟨0, c, v, rfl, rfl, hne, fun j hj => absurd hj (Nat.not_lt_zero j), rfl⟩
        rcases h with ⟨i, c', v', hc, hv, h, hbefore, rfl⟩ | ⟨_, _, h⟩
        · refine ⟨i + 1, c', v', hc, hv, h, fun j hj => ?_, ?_⟩
          · cases j with
            | zero => exact congrArg some (Column.check_eq_ok_iff.mp hfits)
            | succ j => exact hbefore j (by omega)
          · rw [Nat.add_right_comm, Nat.add_assoc]
        · cases h
      · intro h
        obtain ⟨i, c', v', hc, hv, h, hbefore, rfl⟩ := h
        cases i with
        | zero =>
          cases hc
          cases hv
          exact .inl ⟨h, rfl⟩
        | succ i =>
          have hfits : v.dataType = c.dataType := Option.some.inj (hbefore 0 (by omega))
          refine .inr ⟨(), Column.check_eq_ok_iff.mpr hfits, .inl ⟨i, c', v', hc, hv, h,
            fun j hj => hbefore (j + 1) (by omega), ?_⟩⟩
          rw [Nat.add_right_comm, Nat.add_assoc]

/-- There is a next key as long as the greatest integer is none. -/
theorem nextKey_eq_error_iff {name : String} {rows : Rows} {fault : Fault} :
    nextKey name rows = .error fault ↔
      rows.contains Int64.maxValue = true ∧ fault = .noKeyLeft name Int64.maxValue := by
  unfold nextKey
  cases hlast : rows.last? with
  | none =>
    have hnone : rows.contains Int64.maxValue = false := by
      rw [SortedMap.contains, SortedMap.get?, List.getLast?_eq_none_iff.mp hlast]
      rfl
    simp [hnone]
  | some e =>
    obtain ⟨last, record⟩ := e
    obtain ⟨hlast, hgreatest⟩ := SortedMap.get?_of_last? hlast
    have hmax : rows.contains Int64.maxValue = true ↔ last = Int64.maxValue := by
      constructor
      · intro h
        rcases hgreatest _ h with heq | hlt
        · exact heq.symm
        · exact absurd hlt (Int64.not_lt.mpr last.le_maxValue)
      · intro heq
        exact SortedMap.contains_iff.mpr ⟨record, heq ▸ hlast⟩
    rw [hmax]
    by_cases h : last = Int64.maxValue <;> simp [h, eq_comm]

theorem exists_nextKey_iff {name : String} {rows : Rows} :
    (∃ id, nextKey name rows = .ok id) ↔ rows.contains Int64.maxValue = false := by
  simp [exists_ok_iff, nextKey_eq_error_iff]

end Snapshot
end TableStore
