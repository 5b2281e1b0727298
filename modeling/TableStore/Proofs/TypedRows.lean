import Mathlib.Control.Monad.Basic
import TableStore.Proofs.CacheCoherence
import TableStore.Proofs.Records

/-
Stored rows fit the stored tables.

The registry and the rows are saved by different calls and nothing checks them against one another
when they are loaded, so that they fit is a matter of what is saved when.  `Memory.Typed` is kept by
every cycle whose deletions go through, also by one that fails half way: a new table then stands in
the registry with no rows at all, because a name that is not in the registry has none
(`Typed.cycle`).  Over such a memory a select can only complain about its condition.
-/
namespace TableStore

namespace Memory

/-- The rows of every table fit it, and there are no others. -/
structure Typed (memory : Memory) : Prop where
  schema : memory.schema.Valid
  rows : ∀ t ∈ memory.schema.tables, t.Holds (memory.rowsOf t.name)
  others : ∀ name, memory.schema.contains name = false → memory.rowsOf name = .empty

theorem typed_empty : Typed empty where
  schema := Schema.valid_empty
  rows := by simp [empty, Schema.empty]
  others _ _ := rfl

namespace Typed

variable {memory : Memory}

/-- New rows for one table: they have to fit, and nothing else is asked. -/
theorem insert (h : memory.Typed) {t : Table} (ht : t ∈ memory.schema.tables) {rows : Rows}
    (hrows : t.Holds rows) : Typed { memory with rows := memory.rows.insert t.name rows } := by
  have hfound := h.schema.table?_of_mem ht
  refine ⟨h.schema, fun t' ht' => ?_, fun name hname => ?_⟩
  · rw [rowsOf_insert]
    split
    · next heq =>
      have hfound' := h.schema.table?_of_mem ht'
      rw [heq, hfound] at hfound'
      cases hfound'
      exact hrows
    · exact h.rows t' ht'
  · rw [rowsOf_insert, if_neg]
    · exact h.others name hname
    · rintro rfl
      rw [Schema.contains_of_table? hfound] at hname
      cases hname

/-- A new table has no rows yet, whether or not its empty rows could be saved. -/
theorem create (h : memory.Typed) {t : Table} {schema : Schema}
    (hcreate : memory.schema.create t = .ok schema) : Typed { memory with schema } := by
  have hvalid := h.schema.create hcreate
  have htable := Schema.table?_create hcreate
  obtain ⟨hfree, -, rfl⟩ := Schema.create_eq_ok_iff.mp hcreate
  refine ⟨hvalid, fun t' ht' => ?_, fun name hname => ?_⟩
  · rcases List.mem_append.mp ht' with ht' | ht'
    · exact h.rows t' ht'
    · rw [List.mem_singleton.mp ht']
      show t.Holds (memory.rowsOf t.name)
      rw [h.others t.name hfree]
      exact .empty
  · refine h.others name ?_
    rw [Schema.contains, htable] at hname
    split at hname
    · cases hname
    · exact hname

/-- A dropped table takes its rows along. -/
theorem drop (h : memory.Typed) {t : Table} {schema : Schema} {name : String}
    (hdrop : memory.schema.drop? name = some (t, schema)) :
    Typed ⟨schema, memory.rows.erase name⟩ := by
  have hvalid := h.schema.drop hdrop
  have hgone := Schema.contains_drop_self h.schema hdrop
  refine ⟨hvalid, fun t' ht' => ?_, fun other hother => ?_⟩
  · have hne : t'.name ≠ name := by
      rintro rfl
      rw [Schema.contains_of_table? (hvalid.table?_of_mem ht')] at hgone
      cases hgone
    rw [rowsOf_erase, if_neg hne]
    obtain ⟨-, rfl⟩ := Schema.drop?_eq_some_iff.mp hdrop
    exact h.rows t' (List.mem_of_mem_eraseP ht')
  · rw [rowsOf_erase]
    by_cases heq : other = name
    · rw [if_pos heq]
    · rw [if_neg heq]
      refine h.others other ?_
      rw [Schema.contains, Schema.table?_drop_of_ne hdrop heq] at hother
      exact hother

theorem snapshot (h : memory.Typed) {statement : Statement} {t : Table} {name : String}
    (hname : statement.dataTable? = some name)
    (ht : (memory.snapshot statement).schema.table? name = some t) :
    t ∈ memory.schema.tables ∧ t.name = name ∧ t.Valid ∧
      t.Holds (memory.snapshot statement).rows := by
  obtain ⟨hmem, rfl⟩ := Schema.table?_eq_some ht
  rw [snapshot_rows hname (Schema.contains_of_table? ht)]
  exact ⟨hmem, rfl, h.schema.tables t hmem, h.rows t hmem⟩

theorem commit (h : memory.Typed) {statement : Statement} {outcome : Outcome} {after : Snapshot}
    (hchange : Snapshot.Change (memory.snapshot statement) statement outcome after) :
    Typed (memory.commit outcome after) := by
  cases hchange with
  | create _ ht hcreate =>
    have hmem := (Schema.create_eq_ok_iff.mp hcreate).2.2
    obtain rfl := Declaration.table_name ht
    exact (h.create hcreate).insert (by simp [hmem]) .empty
  | drop hdrop => exact h.drop hdrop
  | insert ht hlength hrecord hid =>
    obtain ⟨hmem, rfl, hvalid, hrows⟩ := h.snapshot rfl ht
    exact h.insert hmem (hrows.insert (hrows.one_le_nextKey hid)
      (Snapshot.fits_of_fillFrom hvalid.nodup_dataColumns hlength hrecord))
  | update ht hkey hassignments _ =>
    obtain ⟨hmem, rfl, hvalid, hrows⟩ := h.snapshot rfl ht
    refine h.insert hmem (hrows.map fun id record hrecord => ?_)
    split
    · exact hrecord.overlay hvalid hkey (Table.check_eq_ok_iff.mp hassignments)
    · exact hrecord
  | delete ht _ =>
    obtain ⟨hmem, rfl, -, hrows⟩ := h.snapshot rfl ht
    exact h.insert hmem (hrows.filter _)

/-- A cycle keeps the rows fitting, unless the rows of a dropped table stay behind. -/
theorem cycle (h : memory.Typed) {armed armed' : Option CallKind} {memory' : Memory}
    {statement : Statement} {result : Except Fault Outcome}
    (hcycle : Memory.Cycle armed memory statement result armed' memory')
    (harmed : armed ≠ some .deleteRows) : memory'.Typed := by
  cases hcycle with
  | unread _ _ => exact h
  | refused _ => exact h
  | answered _ _ => exact h
  | unsaved _ _ _ _ => exact h
  | saved he ho => exact h.commit (Statement.change_of_execute he ho)
  | halfSaved harmed' he ho hkind =>
    obtain ⟨t, hcreate⟩ := create_of_second_write he ho hkind fun heq => harmed (heq ▸ harmed')
    exact h.create hcreate

/-- A select on a table that the registry holds fails only if its condition does not fit the
table.  Without a condition it gives every row. -/
theorem selects (h : memory.Typed) {t : Table} {name : String}
    (ht : memory.schema.table? name = some t) {condition : Option Fields}
    (hcondition : t.Admits (condition.getD .empty)) :
    ∃ rows, memory.Selects name condition (.scanned name t.columnNames rows) ∧
      (∀ row ∈ rows, row.length = t.columns.length) ∧
      (condition.getD .empty = .empty → rows.length = (memory.rowsOf name).size) := by
  obtain ⟨hmem, rfl⟩ := Schema.table?_eq_some ht
  have hmatching : t.Holds (Snapshot.matching (condition.getD .empty) (memory.rowsOf t.name)) :=
    (h.rows t hmem).filter _
  obtain ⟨rows, hrows, hlength, hwhole⟩ := hmatching.exists_rows (h.schema.tables t hmem)
  refine ⟨rows, selects_iff.mpr ⟨t, rows, ht, Table.check_eq_ok_iff.mpr hcondition, hrows, rfl⟩,
    hwhole, fun hempty => ?_⟩
  rw [hlength, hempty, Snapshot.matching_empty]

theorem describes {t : Table} {name : String} (ht : memory.schema.table? name = some t) :
    (Statement.info name).execute (memory.snapshot (.info name)) =
      .ok (.described name t.columns (memory.rowsOf name).size, memory.snapshot (.info name)) := by
  refine Snapshot.info_eq_ok_iff.mpr ⟨t, ht, ?_, rfl⟩
  rw [snapshot_rows rfl (Schema.contains_of_table? ht)]

end Typed
end Memory

/-! ## Runs -/

namespace World

/-- What the memory of a world answers, its session answers, from memory or from what it
remembers. -/
theorem act_select {s : Session} {w : Watch} {memory : Memory} (hs : s.Coherent memory)
    (hschema : w.armed ≠ some .loadSchema) (hrows : w.armed ≠ some .loadRows) {table : String}
    {condition : Option Fields} {outcome : Outcome}
    (h : memory.Selects table condition outcome) :
    (act (.step (.statement (.select table condition))) (s, w, memory)).1 = .ok (some outcome) := by
  obtain ⟨after, he⟩ := h
  show (Session.act Memory.Watched _ _).1 = _
  cases hr : s.remembered? (.select table condition) with
  | some o =>
    obtain ⟨after', he'⟩ := hs table condition o hr
    rw [he] at he'
    cases he'
    rw [Session.act_statement, hr]
  | none =>
    obtain ⟨result, w', memory', hcycle, hact⟩ := act_statement_cycle hr w memory
    rw [hact, (hcycle.of_answer he (Snapshot.isMutation_select he) hschema hrows).1]
    rfl

theorem act_info {s : Session} {w : Watch} {memory : Memory}
    (hschema : w.armed ≠ some .loadSchema) (hrows : w.armed ≠ some .loadRows) {name : String}
    {t : Table} (ht : memory.schema.table? name = some t) :
    (act (.step (.statement (.info name))) (s, w, memory)).1 =
      .ok (some (.described name t.columns (memory.rowsOf name).size)) := by
  have hr : s.remembered? (.info name) = none := by
    cases hc : s.cache <;> simp [Session.remembered?, Session.key?, hc]
  show (Session.act Memory.Watched _ _).1 = _
  obtain ⟨result, w', memory', hcycle, hact⟩ := act_statement_cycle hr w memory
  rw [hact, (hcycle.of_answer (Memory.Typed.describes ht) rfl hschema hrows).1]
  rfl

theorem typed_of_trace {cached : Bool} {events : List Event}
    (hdeletes : .fail .deleteRows ∉ events) :
    let last := (trace act events (start cached .empty)).2
    last.2.2.Typed ∧ last.1.Coherent last.2.2 := by
  refine (trace_act_invariant (I := fun s armed memory =>
    (memory.Typed ∧ s.Coherent memory) ∧ armed ≠ some .deleteRows) ?_ ?_ ?_ ?_).1
  · intro s armed memory statement result armed' memory' hinv hcycle
    obtain ⟨⟨htyped, hs⟩, harmed⟩ := hinv
    refine ⟨⟨htyped.cycle hcycle harmed, hs.cycle hcycle harmed⟩, ?_⟩
    rcases hcycle.armed_eq with h | h
    · rw [h]
      exact harmed
    · rw [h]
      exact nofun
  · intro s armed memory hinv
    obtain ⟨⟨htyped, -⟩, harmed⟩ := hinv
    exact ⟨⟨htyped, Session.coherent_start _ _⟩, harmed⟩
  · intro s armed memory kind hkind hboth
    obtain ⟨hinv, -⟩ := hboth
    exact ⟨hinv, fun heq => hdeletes (Option.some.inj heq ▸ hkind)⟩
  · exact ⟨⟨Memory.typed_empty, Session.coherent_start _ _⟩, nofun⟩

/-- Whatever is done from the empty memory on, and whichever calls fail other than deletions, every
stored record has exactly the columns of its table apart from the primary key, values of their
types, and a key of at least 1, and no rows are stored for a table that the registry does not hold.
So unless a load fails, a select with a condition that fits the table succeeds with whole rows, and
the description of the table counts the rows of a select without a condition. -/
theorem typed_rows (cached : Bool) (events : List Event) (hdeletes : .fail .deleteRows ∉ events) :
    let last := (trace act events (start cached .empty)).2
    let memory := last.2.2
    (∀ t ∈ memory.schema.tables, ∀ id record, (memory.rowsOf t.name).get? id = some record →
      1 ≤ id ∧
      (∀ name, record.contains name = true ↔ ∃ c ∈ t.columns, c.name = name ∧ name ≠ keyColumn) ∧
      ∀ c ∈ t.columns, ∀ v, c.name ≠ keyColumn → record.get? c.name = some v →
        v.dataType = c.dataType) ∧
    (∀ name, memory.schema.contains name = false → memory.rowsOf name = .empty) ∧
    (last.2.1.armed ≠ some .loadSchema → last.2.1.armed ≠ some .loadRows →
      ∀ name t, memory.schema.table? name = some t → ∀ condition : Option Fields,
        (∀ column v, (condition.getD .empty).get? column = some v →
          ∃ c ∈ t.columns, c.name = column ∧ v.dataType = c.dataType) →
        ∃ rows, (act (.step (.statement (.select name condition))) last).1 =
            .ok (some (.scanned name t.columnNames rows)) ∧
          (∀ row ∈ rows, row.length = t.columns.length) ∧
          (condition.getD .empty = .empty →
            (act (.step (.statement (.info name))) last).1 =
              .ok (some (.described name t.columns rows.length)))) := by
  intro last memory
  obtain ⟨htyped, hs⟩ : memory.Typed ∧ last.1.Coherent memory := typed_of_trace hdeletes
  refine ⟨fun t ht id record hr => ?_, htyped.others, fun hschema hrows name t ht condition hc => ?_⟩
  · obtain ⟨hid, hfits⟩ := htyped.rows t ht id record hr
    refine ⟨hid, fun name => ⟨fun hcontains => ?_, ?_⟩, fun c hc v hkey hv => ?_⟩
    · obtain ⟨v, hv⟩ := Option.isSome_iff_exists.mp hcontains
      obtain ⟨c, hc, rfl⟩ := hfits.only name v hv
      obtain ⟨hmem, hkey⟩ := Table.mem_dataColumns.mp hc
      exact ⟨c, hmem, rfl, hkey⟩
    · intro hcolumn
      obtain ⟨c, hc, rfl, hkey⟩ := hcolumn
      obtain ⟨v, hv, -⟩ := hfits.total c (Table.mem_dataColumns.mpr ⟨hc, hkey⟩)
      simp [SortedMap.contains, hv]
    · obtain ⟨v', hv', htype⟩ := hfits.total c (Table.mem_dataColumns.mpr ⟨hc, hkey⟩)
      rw [hv] at hv'
      cases hv'
      exact htype
  · have hvalid := htyped.schema.tables t (Schema.table?_eq_some ht).1
    have hadmits : t.Admits (condition.getD .empty) := fun column v hv => by
      obtain ⟨c, hc, rfl, htype⟩ := hc column v hv
      exact ⟨c, hvalid.column?_of_mem hc, htype⟩
    obtain ⟨rows, hselects, hwhole, hall⟩ := htyped.selects ht hadmits
    refine ⟨rows, act_select hs hschema hrows hselects, hwhole, fun hempty => ?_⟩
    rw [hall hempty]
    exact act_info hschema hrows ht

/-- A table that was only half made, dropped, and made again with another type. -/
theorem typed_rows_of_half_made_table :
    let events : List Event := [
      .fail .saveRows, .step (.statement (.createTable "t" ["v:int"])),
      .step (.statement (.insert "t" [.int 7])), .step (.statement (.dropTable "t")),
      .step (.statement (.createTable "t" ["v:str"])), .step (.statement (.insert "t" [.str "a"])),
      .step (.statement (.update "t" (.singleton "v" (.str "b")) .empty)), .fail .loadRows,
      .step (.statement (.info "t"))]
    let last := (trace act events (start true .empty)).2
    let columns : List Column := [Column.key, ⟨"v", .str⟩]
    .fail .deleteRows ∉ events ∧ last.2.1.armed = none ∧
      last.2.2.schema.table? "t" = some ⟨"t", columns⟩ ∧
      ∃ rows, (act (.step (.statement (.select "t" none))) last).1 =
          .ok (some (.scanned "t" ["ID", "v"] rows)) ∧
        (∀ row ∈ rows, row.length = 2) ∧
        (act (.step (.statement (.info "t"))) last).1 =
          .ok (some (.described "t" columns rows.length)) := by
  intro events last columns
  have hdeletes : .fail .deleteRows ∉ events := by simp [events]
  have harmed : last.2.1.armed = none := by decide +kernel
  have htable : last.2.2.schema.table? "t" = some ⟨"t", columns⟩ := by decide +kernel
  obtain ⟨rows, hselect, hwhole, hinfo⟩ := (typed_rows true events hdeletes).2.2
    (by rw [harmed]; exact nofun) (by rw [harmed]; exact nofun) "t" _ htable none nofun
  exact ⟨hdeletes, harmed, htable, rows, hselect, hwhole, hinfo rfl⟩

end World
end TableStore
