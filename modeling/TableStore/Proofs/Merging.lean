import TableStore.Proofs.Matching

/-
What an update makes of the records that its condition picks.

An update lays its assignments over every record that agrees with the condition and touches nothing
else.  Doing so once more changes nothing (`Snapshot.updated_updated`), but it may be answered in another
way: where an assignment writes something else than the condition asks for in the same column, the records
that were picked once are not picked again (`Fields.agrees_overlay_iff`).
-/
namespace TableStore

open Stateful

/-! ## Records under assignments -/

theorem SortedMap.overlay_overlay {κ α : Type} [LT κ] [KeyOrder κ] [DecidableEq κ] [DecidableLT κ]
    (m new : SortedMap κ α) : (m.overlay new).overlay new = m.overlay new := by
  refine ext_get? fun k => ?_
  rw [get?_overlay, get?_overlay, ← Option.or_assoc, Option.or_self]

namespace Fields

/-- The record `merged` has what is assigned, and is `record` in every other field. -/
structure Merges (record assignments merged : Fields) : Prop where
  assigned : ∀ column v, assignments.get? column = some v → merged.get? column = some v
  kept : ∀ column, assignments.contains column = false → merged.get? column = record.get? column

theorem merges_overlay (record assignments : Fields) :
    Merges record assignments (record.overlay assignments) := by
  constructor
  · intro column v hv
    rw [SortedMap.get?_overlay, hv, Option.some_or]
  · intro column hcolumn
    have hnone : assignments.get? column = none := by simpa [SortedMap.contains] using hcolumn
    rw [SortedMap.get?_overlay, hnone, Option.none_or]

/-- Where the condition asks for something in a column that is assigned, it asks for what is assigned. -/
def Affirms (assignments condition : Fields) : Prop :=
  ∀ column v w, condition.get? column = some v → assignments.get? column = some w → v = w

/-- A record that agreed with the condition still does so under the assignments if these affirm it. -/
theorem agrees_overlay_iff {id : Int64} {record assignments condition : Fields}
    (hkey : assignments.contains keyColumn = false) (h : record.Agrees id condition) :
    Agrees id (record.overlay assignments) condition ↔ assignments.Affirms condition := by
  constructor
  · intro hmerged column v w hv hw
    have hcolumn : column ≠ keyColumn := by
      rintro rfl
      rw [SortedMap.contains, hw] at hkey
      cases hkey
    have hentry := hmerged column v hv
    rw [if_neg hcolumn, SortedMap.get?_overlay, hw, Option.some_or] at hentry
    exact (Option.some.inj hentry).symm
  · intro haffirms column v hv
    have hentry := h column v hv
    by_cases hcolumn : column = keyColumn
    · rw [if_pos hcolumn] at hentry ⊢
      exact hentry
    · rw [if_neg hcolumn] at hentry ⊢
      rw [SortedMap.get?_overlay]
      cases hw : assignments.get? column with
      | none => rw [Option.none_or, hentry]
      | some w => rw [Option.some_or, haffirms column v w hv hw]

end Fields

/-! ## Rows behind an update -/

namespace Snapshot

/-- Some rows, with the assignments over those that agree with the condition. -/
def updated (assignments condition : Fields) (rows : Rows) : Rows :=
  rows.map fun id record =>
    if record.satisfies id condition then record.overlay assignments else record

variable {assignments condition : Fields} {rows : Rows} {id : Int64} {record : Fields}

theorem get?_updated_of_agrees (h : rows.get? id = some record) (hagrees : record.Agrees id condition) :
    (updated assignments condition rows).get? id = some (record.overlay assignments) := by
  rw [updated, SortedMap.get?_map, h, Option.map_some, if_pos (Fields.satisfies_iff.mpr hagrees)]

theorem get?_updated_of_not_agrees (h : rows.get? id = some record)
    (hagrees : ¬ record.Agrees id condition) :
    (updated assignments condition rows).get? id = some record := by
  rw [← Fields.satisfies_iff] at hagrees
  rw [updated, SortedMap.get?_map, h, Option.map_some, if_neg hagrees]

/-- Whether or not the records that were picked are picked again, they have the assignments already. -/
theorem updated_updated (assignments condition : Fields) (rows : Rows) :
    updated assignments condition (updated assignments condition rows) =
      updated assignments condition rows := by
  refine SortedMap.ext_get? fun id => ?_
  cases h : rows.get? id with
  | none => simp [updated, SortedMap.get?_map, h]
  | some record =>
    by_cases hagrees : record.Agrees id condition
    · have hmerged : (updated assignments condition rows).get? id =
          some (record.overlay assignments) := get?_updated_of_agrees h hagrees
      rw [hmerged]
      by_cases hagain : Fields.Agrees id (record.overlay assignments) condition
      · rw [get?_updated_of_agrees hmerged hagain, SortedMap.overlay_overlay]
      · exact get?_updated_of_not_agrees hmerged hagain
    · have hkept : (updated assignments condition rows).get? id = some record :=
        get?_updated_of_not_agrees h hagrees
      rw [hkept]
      exact get?_updated_of_not_agrees hkept hagrees

theorem keys_matching_map (condition : Fields) (f : Int64 → Fields → Fields) (rows : Rows) :
    (matching condition (rows.map f)).keys =
      (rows.filter fun id record => Fields.satisfies id (f id record) condition).keys := by
  simp only [matching, SortedMap.keys, SortedMap.filter, SortedMap.map, List.filter_map, List.map_map]
  rfl

/-- Behind an update that affirms its condition the same records are picked as before. -/
theorem keys_matching_updated (hkey : assignments.contains keyColumn = false)
    (haffirms : assignments.Affirms condition) (rows : Rows) :
    (matching condition (updated assignments condition rows)).keys = (matching condition rows).keys := by
  rw [updated, keys_matching_map]
  refine congrArg (fun p => (SortedMap.filter p rows).keys) (funext fun id => funext fun record => ?_)
  by_cases hsat : record.satisfies id condition = true
  · rw [if_pos hsat, hsat, Fields.satisfies_iff,
      Fields.agrees_overlay_iff hkey (Fields.satisfies_iff.mp hsat)]
    exact haffirms
  · rw [if_neg hsat]

/-- Behind an update that does not affirm its condition none is picked: those that agreed with it before
have been written over, and the others do not agree with it now either. -/
theorem keys_matching_updated_eq_nil (hkey : assignments.contains keyColumn = false)
    (haffirms : ¬ assignments.Affirms condition) (rows : Rows) :
    (matching condition (updated assignments condition rows)).keys = [] := by
  have hnone (id : Int64) (record : Fields) : Fields.satisfies id
      (if record.satisfies id condition then record.overlay assignments else record) condition =
        false := by
    by_cases hsat : record.satisfies id condition = true
    · rw [if_pos hsat, Bool.eq_false_iff, Ne, Fields.satisfies_iff,
        Fields.agrees_overlay_iff hkey (Fields.satisfies_iff.mp hsat)]
      exact haffirms
    · rw [if_neg hsat]
      exact Bool.eq_false_iff.mpr hsat
  rw [updated, keys_matching_map]
  simp [hnone, SortedMap.keys, SortedMap.filter]

end Snapshot

/-! ## Updates -/

/-- An update keeps all keys and all records that do not agree with its condition, and lays its
assignments over the others.  Carried out once more it changes nothing.  It then picks the same records
if the assignments affirm the condition, and none if they do not. -/
theorem update_merges {s : Snapshot} {name : String} {t : Table} {assignments condition : Fields}
    (ht : s.schema.table? name = some t) (hkey : assignments.contains keyColumn = false)
    (hassignments : t.Admits assignments) (hcondition : t.Admits condition) :
    let update := (Statement.update name assignments condition).inPlace
    ∃ (picked again : List Int64) (rows : Rows),
      run update.run s = (.ok (.updated name picked), ⟨s.schema, rows⟩) ∧
      (∀ id, id ∈ picked ↔ ∃ record, s.rows.get? id = some record ∧ record.Agrees id condition) ∧
      rows.keys = s.rows.keys ∧
      (∀ id record, s.rows.get? id = some record → ¬ record.Agrees id condition →
        rows.get? id = some record) ∧
      (∀ id record, s.rows.get? id = some record → record.Agrees id condition →
        ∃ merged, rows.get? id = some merged ∧ record.Merges assignments merged) ∧
      run update.run ⟨s.schema, rows⟩ = (.ok (.updated name again), ⟨s.schema, rows⟩) ∧
      (assignments.Affirms condition → again = picked) ∧
      (¬ assignments.Affirms condition → again = []) := by
  intro update
  have hrun (rows : Rows) : run update.run ⟨s.schema, rows⟩ =
      (.ok (.updated name (Snapshot.matching condition rows).keys),
        ⟨s.schema, Snapshot.updated assignments condition rows⟩) :=
    Statement.run_inPlace (Snapshot.update_eq_ok_iff.mpr
      ⟨t, ht, hkey, Table.check_eq_ok_iff.mpr hassignments, Table.check_eq_ok_iff.mpr hcondition, rfl,
        rfl⟩)
  refine ⟨_, _, _, hrun s.rows, fun id => Snapshot.mem_keys_matching, Rows.keys_map _ _,
    fun id record => Snapshot.get?_updated_of_not_agrees, fun id record hrecord hagrees => ?_, ?_,
    fun haffirms => Snapshot.keys_matching_updated hkey haffirms s.rows,
    fun haffirms => Snapshot.keys_matching_updated_eq_nil hkey haffirms s.rows⟩
  · exact ⟨_, Snapshot.get?_updated_of_agrees hrecord hagrees, record.merges_overlay assignments⟩
  · rw [hrun, Snapshot.updated_updated]

/-- The assignment takes the record with the key 7 out of the condition's reach.  That the record has no
name and has a field that no column declares makes no difference. -/
theorem update_merges_over_condition :
    let t : Table := ⟨"t", [Column.key, ⟨"v", .int⟩, ⟨"n", .str⟩]⟩
    let record : Fields := .ofList [("v", .int 1), ("x", .bool true)]
    let other : Fields := .ofList [("v", .int 2), ("n", .str "b")]
    let s : Snapshot := ⟨⟨[t]⟩, .ofList [(7, record), (-3, other)]⟩
    let assignments : Fields := .ofList [("v", .int 5), ("n", .str "a")]
    let condition : Fields := .singleton "v" (.int 1)
    let update := (Statement.update "t" assignments condition).inPlace
    s.schema.table? "t" = some t ∧ assignments.contains keyColumn = false ∧ t.Admits assignments ∧
      t.Admits condition ∧ ¬ assignments.Affirms condition ∧
      ∃ rows : Rows, run update.run s = (.ok (.updated "t" [7]), ⟨s.schema, rows⟩) ∧
        rows.keys = [-3, 7] ∧ rows.get? (-3) = some other ∧
        (∃ merged, rows.get? 7 = some merged ∧ record.Merges assignments merged) ∧
        run update.run ⟨s.schema, rows⟩ = (.ok (.updated "t" []), ⟨s.schema, rows⟩) := by
  intro t record other s assignments condition update
  have ht : s.schema.table? "t" = some t := rfl
  have hkey : assignments.contains keyColumn = false := by decide +kernel
  have hassignments : t.Admits assignments := Table.check_eq_ok_iff.mp rfl
  have hcondition : t.Admits condition := Table.check_eq_ok_iff.mp rfl
  have haffirms : ¬ assignments.Affirms condition := by
    intro h
    cases h "v" (.int 1) (.int 5) (by decide +kernel) (by decide +kernel)
  obtain ⟨picked, again, rows, hrun, hpicked, hkeys, hkept, hmerged, hrerun, -, hnone⟩ :=
    update_merges ht hkey hassignments hcondition
  have hanswer : (run update.run s).1 = .ok (.updated "t" [7]) := rfl
  have heq : picked = [7] := by
    rw [hrun] at hanswer
    simpa using hanswer
  subst heq
  have hrecord : s.rows.get? 7 = some record := by decide +kernel
  have hother : s.rows.get? (-3) = some other := by decide +kernel
  have hthree : (-3 : Int64) ∉ [(7 : Int64)] := by decide
  refine ⟨ht, hkey, hassignments, hcondition, haffirms, rows, hrun, ?_, ?_, ?_, ?_⟩
  · rw [hkeys]
    decide +kernel
  · exact hkept (-3) other hother fun h => hthree ((hpicked (-3)).mpr ⟨other, hother, h⟩)
  · obtain ⟨found, hfound, hagrees⟩ := (hpicked 7).mp List.mem_cons_self
    rw [hrecord] at hfound
    cases hfound
    exact hmerged 7 record hrecord hagrees
  · rw [← hnone haffirms]
    exact hrerun

end TableStore
