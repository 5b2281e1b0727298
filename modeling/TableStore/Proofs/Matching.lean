import TableStore.Proofs.InPlace
import TableStore.Proofs.Records

/-
Which records a condition picks, and what a select, an update and a delete make of them.

The three walk over the records in their own ways, one to lay them out, one to overwrite them as it goes,
one to take them out.  They pick the same ones (`pick_alike`): those that agree with the condition, in the
order of their keys.
-/
namespace TableStore

open Stateful

/-! ## Agreement with a condition -/

/-- The record agrees with every entry of the condition.  The primary key column stands for the key, so a
field of that name counts for nothing. -/
def Fields.Agrees (id : Int64) (record condition : Fields) : Prop :=
  ∀ column v, condition.get? column = some v →
    if column = keyColumn then v = .int id else record.get? column = some v

theorem Fields.satisfies_iff {id : Int64} {record condition : Fields} :
    record.satisfies id condition = true ↔ record.Agrees id condition := by
  unfold satisfies Agrees
  rw [List.all_eq_true]
  constructor
  · intro h column v hv
    have hentry := h (column, v) (SortedMap.get?_eq_some_iff.mp hv)
    by_cases hkey : column = keyColumn <;> simpa [hkey] using hentry
  · intro h entry hentry
    obtain ⟨column, v⟩ := entry
    have hv := h column v (SortedMap.get?_eq_some_iff.mpr hentry)
    by_cases hkey : column = keyColumn <;> simpa [hkey] using hv

namespace Snapshot

theorem get?_matching {condition : Fields} {rows : Rows} {id : Int64} {record : Fields} :
    (matching condition rows).get? id = some record ↔
      rows.get? id = some record ∧ record.Agrees id condition := by
  rw [matching, SortedMap.get?_filter, Option.filter_eq_some_iff, Fields.satisfies_iff]

theorem mem_keys_matching {condition : Fields} {rows : Rows} {id : Int64} :
    id ∈ (matching condition rows).keys ↔
      ∃ record, rows.get? id = some record ∧ record.Agrees id condition := by
  simp only [← Rows.contains_iff_mem_keys, SortedMap.contains_iff, get?_matching]

theorem ascending_keys (rows : Rows) : rows.keys.Pairwise (· < ·) :=
  List.pairwise_map.mpr rows.ascending

end Snapshot

/-! ## Records laid out as rows -/

/-- The record has a value for every column that an insert fills. -/
def Table.Covers (t : Table) (record : Fields) : Prop :=
  ∀ c ∈ t.dataColumns, record.contains c.name = true

namespace Snapshot

/-- What a record has for a column. -/
def cell (t : Table) (id : Int64) (record : Fields) (c : Column) : Except Fault Value :=
  match record.get? c.name with
  | some v => .ok v
  | none => .error (.missingValue t.name id c.name)

theorem row_eq (t : Table) (id : Int64) (record : Fields) :
    row t id record = t.dataColumns.mapM (cell t id record) >>= fun values =>
      pure (.int id :: values) := rfl

theorem exists_cell_iff {t : Table} {id : Int64} {record : Fields} {c : Column} :
    (∃ v, cell t id record c = .ok v) ↔ record.contains c.name = true := by
  rw [cell, SortedMap.contains]
  cases record.get? c.name <;> simp

theorem exists_row_of_covers {t : Table} {record : Fields} (h : t.Covers record) (id : Int64) :
    ∃ line, row t id record = .ok line ∧ line.head? = some (.int id) := by
  obtain ⟨values, hvalues⟩ := exists_mapM_iff.mpr fun c hc =>
    exists_cell_iff.mpr (h c hc)
  exact ⟨.int id :: values, bind_eq_ok_iff.mpr ⟨values, hvalues, rfl⟩, rfl⟩

/-- Rows whose records cover the columns can be laid out, each behind its key. -/
theorem exists_rows_of_covers {t : Table} {entries : List (Int64 × Fields)}
    (h : ∀ e ∈ entries, t.Covers e.2) :
    ∃ lines, entries.mapM (fun e => row t e.1 e.2) = .ok lines ∧
      lines.map List.head? = (entries.map (·.1)).map fun id => some (.int id) := by
  induction entries with
  | nil => exact ⟨[], rfl, rfl⟩
  | cons e rest ih =>
    obtain ⟨hfirst, hrest⟩ := List.forall_mem_cons.mp h
    obtain ⟨line, hline, hhead⟩ := exists_row_of_covers hfirst e.1
    obtain ⟨lines, hlines, hheads⟩ := ih hrest
    refine ⟨line :: lines, ?_, ?_⟩
    · rw [List.mapM_cons, bind_eq_ok_iff]
      exact ⟨line, hline, bind_eq_ok_iff.mpr ⟨lines, hlines, rfl⟩⟩
    · rw [List.map_cons, List.map_cons, List.map_cons, hhead, hheads]

/-! ## What a delete leaves -/

/-- The rows that a condition does not pick. -/
def unmatched (condition : Fields) (rows : Rows) : Rows :=
  rows.filter fun id record => !record.satisfies id condition

theorem get?_unmatched (condition : Fields) (rows : Rows) (id : Int64) :
    (unmatched condition rows).get? id =
      if id ∈ (matching condition rows).keys then none else rows.get? id := by
  rw [unmatched, SortedMap.get?_filter]
  cases h : rows.get? id with
  | none => simp
  | some record =>
    have hpicked : id ∈ (matching condition rows).keys ↔ record.satisfies id condition = true := by
      rw [mem_keys_matching, h, Fields.satisfies_iff]
      simp
    by_cases hsat : record.satisfies id condition = true <;> simp [hpicked, hsat, Option.filter]

theorem matching_unmatched (condition : Fields) (rows : Rows) :
    matching condition (unmatched condition rows) = .empty := by
  refine SortedMap.ext_get? fun id => ?_
  rw [matching, unmatched, SortedMap.get?_filter, SortedMap.get?_filter, SortedMap.get?_empty]
  cases rows.get? id with
  | none => rfl
  | some record =>
    by_cases hsat : record.satisfies id condition = true <;> simp [hsat, Option.filter]

theorem unmatched_unmatched (condition : Fields) (rows : Rows) :
    unmatched condition (unmatched condition rows) = unmatched condition rows := by
  ext1
  simp [unmatched, SortedMap.filter]

/-- The keys of the rows that a condition picks and of those that it does not pick are all keys. -/
theorem perm_keys (condition : Fields) (rows : Rows) :
    ((matching condition rows).keys ++ (unmatched condition rows).keys).Perm rows.keys := by
  have hperm := (List.filter_append_perm (fun e : Int64 × Fields => e.2.satisfies e.1 condition)
    rows.entries).map (·.1)
  rw [List.map_append] at hperm
  exact hperm

end Snapshot

/-! ## Select, update and delete -/

/-- A statement that succeeds on a copy does so in place. -/
theorem Statement.run_inPlace {statement : Statement} {s after : Snapshot} {outcome : Outcome}
    (h : statement.execute s = .ok (outcome, after)) :
    run statement.inPlace.run s = (.ok outcome, after) := by
  rw [statement.settles_inPlace s, h]
  rfl

/-- A select, an update and a delete under one condition pick the same records, those that agree with the
condition, in the order of their keys.  A delete leaves the others as they are, and after it the condition
picks nothing more. -/
theorem pick_alike {s : Snapshot} {name : String} {t : Table} {condition : Fields}
    (hschema : s.schema.Obtainable) (ht : s.schema.table? name = some t)
    (hcovers : ∀ id record, s.rows.get? id = some record → t.Covers record)
    (hcondition : t.check condition = .ok ()) :
    ∃ picked : List Int64,
      picked.Pairwise (· < ·) ∧
      (∀ id, id ∈ picked ↔ ∃ record, s.rows.get? id = some record ∧ record.Agrees id condition) ∧
      t.columnNames.head? = some keyColumn ∧
      (∀ asked : Option Fields, asked.getD .empty = condition → ∃ lines,
        run (Statement.select name asked).inPlace.run s =
          (.ok (.scanned name t.columnNames lines), s) ∧
        lines.map List.head? = picked.map fun id => some (.int id)) ∧
      (∀ assignments : Fields, assignments.contains keyColumn = false →
        t.check assignments = .ok () → ∃ rows,
          run (Statement.update name assignments condition).inPlace.run s =
            (.ok (.updated name picked), ⟨s.schema, rows⟩)) ∧
      ∃ rest : Rows,
        run (Statement.delete name condition).inPlace.run s =
          (.ok (.deleted name picked), ⟨s.schema, rest⟩) ∧
        (∀ id, rest.get? id = if id ∈ picked then none else s.rows.get? id) ∧
        (picked ++ rest.keys).Perm s.rows.keys ∧ (picked ++ rest.keys).Nodup ∧
        run (Statement.select name (some condition)).inPlace.run ⟨s.schema, rest⟩ =
          (.ok (.scanned name t.columnNames []), ⟨s.schema, rest⟩) ∧
        run (Statement.delete name condition).inPlace.run ⟨s.schema, rest⟩ =
          (.ok (.deleted name []), ⟨s.schema, rest⟩) := by
  have hhead : t.columnNames.head? = some keyColumn := by
    have hvalid := hschema.valid.tables t (Schema.table?_eq_some ht).1
    rw [Table.columnNames, hvalid.columns_eq]
    rfl
  refine ⟨(Snapshot.matching condition s.rows).keys, Snapshot.ascending_keys _,
    fun id => Snapshot.mem_keys_matching, hhead, fun asked hasked => ?_,
    fun assignments hkey hassignments => ?_, Snapshot.unmatched condition s.rows, ?_,
    Snapshot.get?_unmatched condition s.rows, Snapshot.perm_keys condition s.rows, ?_, ?_, ?_⟩
  · have hmatching : ∀ e ∈ (Snapshot.matching condition s.rows).entries, t.Covers e.2 :=
      fun e he => hcovers e.1 e.2 (Snapshot.get?_matching.mp (SortedMap.get?_eq_some_iff.mpr he)).1
    obtain ⟨lines, hlines, hheads⟩ := Snapshot.exists_rows_of_covers hmatching
    refine ⟨lines, Statement.run_inPlace (Snapshot.select_eq_ok_iff.mpr ?_), hheads⟩
    rw [hasked]
    exact ⟨t, lines, ht, hcondition, hlines, rfl, rfl⟩
  · exact ⟨_, Statement.run_inPlace (Snapshot.update_eq_ok_iff.mpr
      ⟨t, ht, hkey, hassignments, hcondition, rfl, rfl⟩)⟩
  · exact Statement.run_inPlace (Snapshot.delete_eq_ok_iff.mpr ⟨t, ht, hcondition, rfl, rfl⟩)
  · exact (Snapshot.perm_keys condition s.rows).nodup_iff.mpr (InPlace.nodup_keys s.rows)
  · refine Statement.run_inPlace (Snapshot.select_eq_ok_iff.mpr ⟨t, [], ht, hcondition, ?_, rfl, rfl⟩)
    rw [Option.getD_some, Snapshot.matching_unmatched]
    rfl
  · refine Statement.run_inPlace (Snapshot.delete_eq_ok_iff.mpr ⟨t, ht, hcondition, ?_, ?_⟩)
    · rw [Snapshot.matching_unmatched]
      rfl
    · exact congrArg (Snapshot.mk s.schema) (Snapshot.unmatched_unmatched condition s.rows).symm

/-- A condition on the primary key picks by the key, also a record that has a field of that name. -/
theorem pick_alike_by_key :
    let t : Table := ⟨"t", [Column.key, ⟨"v", .int⟩, ⟨"n", .str⟩]⟩
    let record (v : Int64) : Fields := .ofList [("v", .int v), ("n", .str "x")]
    let rows : Rows :=
      .ofList [(-3, record 42), (1, record 7), (7, (record 42).insert "ID" (.int 1))]
    let s : Snapshot := ⟨⟨[t]⟩, rows⟩
    let condition : Fields := .ofList [("ID", .int 7), ("v", .int 42)]
    let assignments : Fields := .singleton "v" (.int 0)
    s.schema.Obtainable ∧ s.schema.table? "t" = some t ∧
      (∀ id record, rows.get? id = some record → t.Covers record) ∧
      t.check condition = .ok () ∧ assignments.contains keyColumn = false ∧
      t.check assignments = .ok () ∧
      (∃ lines, run (Statement.select "t" (some condition)).inPlace.run s =
          (.ok (.scanned "t" ["ID", "v", "n"] lines), s) ∧
        lines.map List.head? = [some (.int 7)]) ∧
      (run (Statement.update "t" assignments condition).inPlace.run s).1 =
        .ok (.updated "t" [7]) ∧
      ∃ rest : Rows, run (Statement.delete "t" condition).inPlace.run s =
          (.ok (.deleted "t" [7]), ⟨s.schema, rest⟩) ∧ ([7] ++ rest.keys).Perm [-3, 1, 7] := by
  intro t record rows s condition assignments
  have hschema : s.schema.Obtainable := .create .empty (t := t) rfl
  have ht : s.schema.table? "t" = some t := rfl
  have hcovers : ∀ id record, rows.get? id = some record → t.Covers record := by
    have hentries : ∀ e ∈ rows.entries, ∀ c ∈ t.dataColumns, e.2.contains c.name = true := by
      decide +kernel
    exact fun id record h => hentries (id, record) (SortedMap.get?_eq_some_iff.mp h)
  have hcondition : t.check condition = .ok () := rfl
  have hkey : assignments.contains keyColumn = false := by decide +kernel
  have hassignments : t.check assignments = .ok () := rfl
  obtain ⟨picked, -, -, -, hselect, hupdate, rest, hdelete, -, hperm, -⟩ :=
    pick_alike hschema ht hcovers hcondition
  have hpicked : picked = [7] := by
    have hanswer : (run (Statement.delete "t" condition).inPlace.run s).1 =
        .ok (.deleted "t" [7]) := rfl
    rw [hdelete] at hanswer
    simpa using hanswer
  subst hpicked
  obtain ⟨updated, hupdated⟩ := hupdate assignments hkey hassignments
  exact ⟨hschema, ht, hcovers, hcondition, hkey, hassignments, hselect (some condition) rfl,
    congrArg Prod.fst hupdated, rest, hdelete, hperm⟩

end TableStore
