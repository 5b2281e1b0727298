import TableStore.Execution

/-
The greatest key of some rows.

The key of a new record is the next one behind the greatest key that its table holds, 1 for the first
(`toInt_nextKey`), so a new record stands behind all others and takes the place of none.
-/
namespace TableStore

theorem SortedMap.contains_iff {κ α : Type} [LT κ] [DecidableEq κ] {m : SortedMap κ α} {k : κ} :
    m.contains k = true ↔ ∃ v, m.get? k = some v := by
  rw [contains, Option.isSome_iff_exists]

/-- The last binding has the greatest key. -/
theorem SortedMap.get?_of_last? {κ α : Type} [LT κ] [KeyOrder κ] [DecidableEq κ]
    {m : SortedMap κ α} {k : κ} {v : α} (h : m.last? = some (k, v)) :
    m.get? k = some v ∧ ∀ k', m.contains k' = true → k' = k ∨ k' < k := by
  refine ⟨get?_eq_some_iff.mpr (List.mem_of_getLast? h), fun k' hk' => ?_⟩
  obtain ⟨v', hv'⟩ := contains_iff.mp hk'
  have hmem := get?_eq_some_iff.mp hv'
  obtain ⟨init, hentries⟩ := List.getLast?_eq_some_iff.mp h
  have hascending := m.ascending
  rw [hentries] at hascending hmem
  rcases List.mem_append.mp hmem with hinit | hlast
  · exact .inr ((List.pairwise_append.mp hascending).2.2 _ hinit _ (List.mem_singleton.mpr rfl))
  · exact .inl (congrArg Prod.fst (List.mem_singleton.mp hlast))

namespace Rows

/-- The greatest key of some rows; 0 if there are none. -/
def top (rows : Rows) : Int := (rows.last?.map (·.1.toInt)).getD 0

/-- Rows have a key that is their greatest, or no key at all. -/
theorem top_cases (rows : Rows) :
    (top rows = 0 ∧ ∀ k, rows.contains k = false) ∨
      ∃ k, rows.contains k = true ∧ top rows = k.toInt := by
  cases hlast : rows.last? with
  | none =>
    refine .inl ⟨by rw [top, hlast]; rfl, fun k => ?_⟩
    rw [SortedMap.contains, SortedMap.get?, List.getLast?_eq_none_iff.mp hlast]
    rfl
  | some e =>
    refine .inr ⟨e.1, SortedMap.contains_iff.mpr ⟨e.2, (SortedMap.get?_of_last? hlast).1⟩, ?_⟩
    rw [top, hlast]
    rfl

theorem toInt_le_top {rows : Rows} {k : Int64} (hk : rows.contains k = true) :
    k.toInt ≤ top rows := by
  cases hlast : rows.last? with
  | none =>
    rw [SortedMap.contains, SortedMap.get?, List.getLast?_eq_none_iff.mp hlast] at hk
    cases hk
  | some e =>
    have htop : top rows = e.1.toInt := by
      rw [top, hlast]
      rfl
    rcases (SortedMap.get?_of_last? hlast).2 k hk with rfl | hlt
    · omega
    · have := Int64.lt_iff_toInt_lt.mp hlt
      omega

theorem top_of_keys_eq {rows rows' : Rows} (h : rows'.keys = rows.keys) : top rows' = top rows := by
  have hlast (rows : Rows) : top rows = (rows.keys.getLast?.map (·.toInt)).getD 0 := by
    rw [SortedMap.keys, List.getLast?_map, Option.map_map]
    rfl
  rw [hlast, hlast, h]

/-- The key of a new record is the next one behind the greatest. -/
theorem toInt_nextKey {table : String} {rows : Rows} {id : Int64}
    (h : Snapshot.nextKey table rows = .ok id) : id.toInt = top rows + 1 := by
  unfold Snapshot.nextKey at h
  cases hlast : rows.last? with
  | none =>
    rw [hlast] at h
    obtain rfl := Except.ok.inj h
    rw [top, hlast]
    rfl
  | some e =>
    rw [hlast] at h
    simp only at h
    split at h
    · cases h
    · next hmax =>
      obtain rfl := Except.ok.inj h
      have hne : e.1.toInt ≠ 2 ^ 63 - 1 := fun heq =>
        hmax (Int64.toInt_inj.mp (heq.trans Int64.toInt_maxValue.symm))
      have hlt := e.1.toInt_lt
      have hge := e.1.le_toInt
      have hone : (1 : Int64).toInt = 1 := rfl
      have htop : top rows = e.1.toInt := by
        rw [top, hlast]
        rfl
      rw [htop, Int64.toInt_add, hone, Int.bmod_eq_of_le] <;> omega

theorem lt_nextKey {table : String} {rows : Rows} {id k : Int64}
    (h : Snapshot.nextKey table rows = .ok id) (hk : rows.contains k = true) : k < id := by
  have hid := toInt_nextKey h
  have hle := toInt_le_top hk
  exact Int64.lt_iff_toInt_lt.mpr (by omega)

theorem contains_insert {rows : Rows} {id k : Int64} {record : Fields} :
    (rows.insert id record).contains k = true ↔ k = id ∨ rows.contains k = true := by
  rw [SortedMap.contains, SortedMap.get?_insert]
  by_cases hk : k = id
  · simp [hk]
  · simp [hk, SortedMap.contains]

theorem top_insert {table : String} {rows : Rows} {id : Int64} {record : Fields}
    (h : Snapshot.nextKey table rows = .ok id) :
    top (rows.insert id record) = top rows + 1 := by
  have hid := toInt_nextKey h
  have hnew : (rows.insert id record).contains id = true := contains_insert.mpr (.inl rfl)
  have hge := toInt_le_top hnew
  rcases top_cases (rows.insert id record) with ⟨-, hnone⟩ | ⟨k, hk, htop⟩
  · exact absurd (hnew.symm.trans (hnone id)) nofun
  · rcases contains_insert.mp hk with rfl | hold
    · omega
    · have hle := toInt_le_top hold
      omega

theorem keys_map (f : Int64 → Fields → Fields) (rows : Rows) : (rows.map f).keys = rows.keys := by
  simp [SortedMap.keys, SortedMap.map]

theorem contains_of_filter {rows : Rows} {p : Int64 → Fields → Bool} {k : Int64}
    (h : (rows.filter p).contains k = true) : rows.contains k = true := by
  obtain ⟨record, hrecord⟩ := SortedMap.contains_iff.mp h
  rw [SortedMap.get?_filter, Option.filter_eq_some_iff] at hrecord
  exact SortedMap.contains_iff.mpr ⟨record, hrecord.1⟩

theorem contains_iff_mem_keys {rows : Rows} {k : Int64} : rows.contains k = true ↔ k ∈ rows.keys := by
  rw [SortedMap.contains_iff, SortedMap.keys, List.mem_map]
  constructor
  · intro h
    obtain ⟨record, hrecord⟩ := h
    exact ⟨(k, record), SortedMap.get?_eq_some_iff.mp hrecord, rfl⟩
  · intro h
    obtain ⟨e, he, rfl⟩ := h
    exact ⟨e.2, SortedMap.get?_eq_some_iff.mpr he⟩

end Rows
end TableStore
