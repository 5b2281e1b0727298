import TableStore.Proofs.KeyRuns
import TableStore.Proofs.Matching
import TableStore.Proofs.TypedRows

/-
What is inserted is what is read.

A new record has the greatest key, so it is the last row of a scan, and its fields are laid out in the
order that its values came in (`Snapshot.row_of_fillFrom`).  A session answers a select with what memory
holds, remembered or not (`Memory.InOrder.act_select_iff`), and steps that report no change leave memory as
it is, so the row is read back until something changes (`inserted_read_back`).
-/
namespace TableStore

/-! ## A record behind all others -/

theorem SortedMap.insertEntry_of_lt {κ α : Type} [LT κ] [KeyOrder κ] [DecidableLT κ]
    {entries : List (κ × α)} {k : κ} (h : ∀ e ∈ entries, e.1 < k) (v : α) :
    insertEntry k v entries = entries ++ [(k, v)] := by
  induction entries with
  | nil => rfl
  | cons e rest ih =>
    obtain ⟨he, hrest⟩ := List.forall_mem_cons.mp h
    have hnot : ¬ k < e.1 := fun hlt => KeyOrder.irrefl _ (KeyOrder.trans he hlt)
    rw [insertEntry, if_neg hnot, if_pos he, ih hrest, List.cons_append]

namespace Snapshot

theorem lt_nextKey_of_mem {table : String} {rows : Rows} {id : Int64}
    (h : nextKey table rows = .ok id) {e : Int64 × Fields} (he : e ∈ rows.entries) : e.1 < id := by
  apply Rows.lt_nextKey h
  exact SortedMap.contains_iff.mpr ⟨e.2, SortedMap.get?_eq_some_iff.mpr he⟩

/-- A new record stands behind all others. -/
theorem entries_insert_nextKey {table : String} {rows : Rows} {id : Int64}
    (h : nextKey table rows = .ok id) (record : Fields) :
    (rows.insert id record).entries = rows.entries ++ [(id, record)] :=
  SortedMap.insertEntry_of_lt (fun _ he => lt_nextKey_of_mem h he) record

/-! ## A record laid out -/

/-- The fields of a new record are its values, each under the column of its position. -/
theorem get?_of_fillFrom {position : Nat} {columns : List Column} {values : List Value}
    {record : Fields} (hnodup : (columns.map (·.name)).Nodup)
    (hlength : values.length = columns.length)
    (h : fillFrom position columns values = .ok record) :
    columns.map (fun c => record.get? c.name) = values.map some := by
  induction columns generalizing position values record with
  | nil =>
    rw [List.eq_nil_of_length_eq_zero hlength]
    rfl
  | cons c cs ih =>
    cases values with
    | nil => cases hlength
    | cons v vs =>
      simp only [fillFrom, bind_eq_ok_iff, pure_eq_ok_iff] at h
      obtain ⟨_, -, rest, hrest, rfl⟩ := h
      obtain ⟨hc, hcs⟩ := List.nodup_cons.mp hnodup
      have hlater : cs.map (fun c' => (rest.insert c.name v).get? c'.name) =
          cs.map fun c' => rest.get? c'.name := by
        apply List.map_congr_left
        intro c' hc'
        have hne : c'.name ≠ c.name := fun heq => hc (List.mem_map.mpr ⟨c', hc', heq⟩)
        rw [SortedMap.get?_insert, if_neg hne]
      rw [List.map_cons, List.map_cons, hlater, ih hcs (Nat.succ.inj hlength) hrest,
        SortedMap.get?_insert, if_pos rfl]

theorem mapM_cell {t : Table} {id : Int64} {record : Fields} {columns : List Column}
    {values : List Value} (h : columns.map (fun c => record.get? c.name) = values.map some) :
    columns.mapM (cell t id record) = .ok values := by
  induction columns generalizing values with
  | nil =>
    rw [List.map_eq_nil_iff.mp h.symm]
    rfl
  | cons c cs ih =>
    cases values with
    | nil => cases h
    | cons v vs =>
      obtain ⟨hv, hvs⟩ := List.cons.inj h
      have hfield : record.get? c.name = some v := hv
      have hcell : cell t id record c = .ok v := by rw [cell, hfield]
      rw [List.mapM_cons, bind_eq_ok_iff]
      exact ⟨v, hcell, bind_eq_ok_iff.mpr ⟨vs, ih hvs, rfl⟩⟩

/-- A new record is laid out as the values that it was made of. -/
theorem row_of_fillFrom {t : Table} (ht : t.Valid) {values : List Value} {record : Fields}
    (hlength : values.length = t.dataColumns.length)
    (h : fillFrom 1 t.dataColumns values = .ok record) (id : Int64) :
    row t id record = .ok (.int id :: values) := by
  rw [row_eq, mapM_cell (get?_of_fillFrom ht.nodup_dataColumns hlength h)]
  rfl

theorem mapM_row_concat {t : Table} {entries : List (Int64 × Fields)} {rows : List (List Value)}
    {id : Int64} {record : Fields} {line : List Value}
    (hrows : entries.mapM (fun e => row t e.1 e.2) = .ok rows) (hline : row t id record = .ok line) :
    (entries ++ [(id, record)]).mapM (fun e => row t e.1 e.2) = .ok (rows ++ [line]) := by
  rw [List.mapM_append, hrows, List.mapM_cons, List.mapM_nil, hline]
  rfl

/-- The condition that asks for one key. -/
def ofKey (id : Int64) : Fields := .singleton keyColumn (.int id)

theorem satisfies_ofKey {id key : Int64} {record : Fields} :
    record.satisfies key (ofKey id) = decide (id = key) := by
  simp [Fields.satisfies, ofKey, SortedMap.singleton]

theorem check_ofKey {t : Table} (ht : t.Valid) (id : Int64) : t.check (ofKey id) = .ok () := by
  have hkey : Column.key ∈ t.columns := by
    rw [ht.columns_eq]
    exact List.mem_cons_self
  have hfound : t.column? keyColumn = some Column.key := ht.column?_of_mem hkey
  apply Table.check_eq_ok_iff.mpr
  intro name v hv
  have hentry : (name, v) ∈ [(keyColumn, Value.int id)] := SortedMap.get?_eq_some_iff.mp hv
  obtain ⟨rfl, rfl⟩ := Prod.mk.inj (List.mem_singleton.mp hentry)
  exact ⟨Column.key, hfound, rfl⟩

/-- Asking for the key of a new record picks it alone. -/
theorem matching_ofKey {table : String} {rows : Rows} {id : Int64}
    (h : nextKey table rows = .ok id) (record : Fields) :
    (matching (ofKey id) (rows.insert id record)).entries = [(id, record)] := by
  have hothers : rows.entries.filter (fun e => Fields.satisfies e.1 e.2 (ofKey id)) = [] := by
    apply List.filter_eq_nil_iff.mpr
    intro e he hsat
    rw [satisfies_ofKey, decide_eq_true_eq] at hsat
    exact KeyOrder.irrefl _ (hsat ▸ lt_nextKey_of_mem h he)
  have hself : [(id, record)].filter (fun e => Fields.satisfies e.1 e.2 (ofKey id)) =
      [(id, record)] := by
    simp [satisfies_ofKey]
  show (rows.insert id record).entries.filter _ = _
  rw [entries_insert_nextKey h, List.filter_append, hothers, hself, List.nil_append]

end Snapshot

namespace Memory

/-! ## What a select answers -/

/-- Memory with a new record. -/
def withRecord (memory : Memory) (table : String) (id : Int64) (record : Fields) : Memory :=
  { memory with rows := memory.rows.insert table ((memory.rowsOf table).insert id record) }

/-- A scan has the new record as its last row, laid out as the values that it was made of. -/
theorem Selects.withRecord {memory : Memory} {name : String} {asked asked' : Option Fields}
    {t : Table} {values : List Value} {record : Fields} {id : Int64} {columns : List String}
    {rows : List (List Value)}
    (h : memory.Selects name asked (.scanned name columns rows)) (hasked : asked.getD .empty = .empty)
    (hasked' : asked'.getD .empty = .empty) (ht : memory.schema.table? name = some t)
    (hid : Snapshot.nextKey name (memory.rowsOf name) = .ok id)
    (hline : Snapshot.row t id record = .ok (.int id :: values)) :
    (memory.withRecord name id record).Selects name asked'
      (.scanned name columns (rows ++ [.int id :: values])) := by
  obtain ⟨t', rows', ht', hcheck, hrows, ho⟩ := selects_iff.mp h
  obtain rfl : t = t' := Option.some.inj (ht.symm.trans ht')
  obtain ⟨-, rfl, rfl⟩ := Outcome.scanned.inj ho
  rw [hasked] at hcheck hrows
  rw [Snapshot.matching_empty] at hrows
  apply selects_iff.mpr
  rw [hasked', Snapshot.matching_empty, Memory.withRecord, rowsOf_insert, if_pos rfl,
    Snapshot.entries_insert_nextKey hid]
  exact ⟨t, _, ht, hcheck, Snapshot.mapM_row_concat hrows hline, rfl⟩

theorem selects_ofKey_withRecord {memory : Memory} {name : String} {t : Table}
    {values : List Value} {record : Fields} {id : Int64} (hvalid : t.Valid)
    (ht : memory.schema.table? name = some t)
    (hid : Snapshot.nextKey name (memory.rowsOf name) = .ok id)
    (hline : Snapshot.row t id record = .ok (.int id :: values)) :
    (memory.withRecord name id record).Selects name (some (Snapshot.ofKey id))
      (.scanned name t.columnNames [.int id :: values]) := by
  have hrows : [(id, record)].mapM (fun e => Snapshot.row t e.1 e.2) =
      .ok [.int id :: values] := by
    rw [List.mapM_cons, List.mapM_nil, hline]
    rfl
  apply selects_iff.mpr
  rw [Option.getD_some, withRecord, rowsOf_insert, if_pos rfl, Snapshot.matching_ofKey hid]
  exact ⟨t, _, ht, Snapshot.check_ofKey hvalid id, hrows, rfl⟩

/-- What a session answers to a select is what memory would answer. -/
theorem InOrder.act_select_iff {w : Session × Memory} (h : InOrder w) {step : Step} {name : String}
    {condition : Option Fields} (hstep : step.statement? = some (.select name condition))
    {outcome : Outcome} :
    (Session.act (StateM Memory) step w).1 = .ok (some outcome) ↔
      w.2.Selects name condition outcome := by
  rw [Session.act_of_statement? hstep]
  rcases (h.act_statement (.select name condition)).2 with
    ⟨fault, he, hreply, -⟩ | ⟨outcome', after, he, hreply, -⟩
  · rw [hreply]
    refine ⟨nofun, fun hselects => ?_⟩
    obtain ⟨after, hok⟩ := hselects
    rw [he] at hok
    cases hok
  · rw [hreply]
    constructor
    · intro heq
      cases heq
      exact ⟨after, he⟩
    · intro hselects
      obtain ⟨after', hok⟩ := hselects
      rw [he] at hok
      cases hok
      rfl

/-! ## Runs -/

/-- The world is in order and the rows in memory fit their tables. -/
structure Consistent (w : Session × Memory) : Prop where
  inOrder : InOrder w
  typed : w.2.Typed

theorem consistent_start (cached : Bool) : Consistent (.start cached, .empty) :=
  ⟨inOrder_start cached, typed_empty⟩

theorem Consistent.act {w : Session × Memory} (h : Consistent w) (step : Step) :
    Consistent (Session.act (StateM Memory) step w).2 := by
  refine ⟨h.inOrder.act step, ?_⟩
  rcases h.inOrder.act_cases step with ⟨hmemory, -⟩ | ⟨_, _, _, -, hchange, -, -, hmemory⟩
  · rw [hmemory]
    exact h.typed
  · rw [hmemory]
    exact h.typed.commit hchange

theorem Consistent.run {w : Session × Memory} (h : Consistent w) (steps : List Step) :
    Consistent (reached steps w) :=
  trace_invariant (fun step _ _ h => h.act step) h

/-- None of the steps reports a change. -/
def Quiet (steps : List Step) (w : Session × Memory) : Prop :=
  ∀ outcome, .ok (some outcome) ∈ replies steps w → outcome.isMutation = false

/-- Steps that report no change leave memory as it is, whatever the session remembers of them. -/
theorem Consistent.memory_of_quiet {w : Session × Memory} (h : Consistent w) {steps : List Step}
    (hquiet : Quiet steps w) : (reached steps w).2 = w.2 := by
  let I (w' : Session × Memory) : Prop := Consistent w' ∧ w'.2 = w.2
  let good (reply : Session.Reply) : Prop :=
    ∀ outcome, reply = .ok (some outcome) → outcome.isMutation = false
  have hact : ∀ step ∈ steps, ∀ w', I w' → good (Session.act (StateM Memory) step w').1 →
      I (Session.act (StateM Memory) step w').2 := by
    intro step _ w' hw' hgood
    refine ⟨hw'.1.act step, ?_⟩
    rcases hw'.1.inOrder.act_cases step with ⟨hmemory, -⟩ | ⟨_, outcome, _, -, -, ho, hreply, -⟩
    · rw [hmemory, hw'.2]
    · rw [hgood outcome hreply] at ho
      cases ho
  have hreplies : ∀ reply ∈ replies steps w, good reply := fun reply hreply outcome heq =>
    hquiet outcome (heq ▸ hreply)
  exact (trace_invariant_of_answers good hact ⟨h, rfl⟩ hreplies).2

/-- An insert that is answered has put a record that is laid out as its values behind all others. -/
theorem Consistent.act_insert {w : Session × Memory} (h : Consistent w) {step : Step} {name : String}
    {values : List Value} {id : Int64} (hstep : step.statement? = some (.insert name values))
    (hreply : (Session.act (StateM Memory) step w).1 = .ok (some (.inserted name id))) :
    ∃ t record, t.Valid ∧ w.2.schema.table? name = some t ∧
      Snapshot.nextKey name (w.2.rowsOf name) = .ok id ∧
      Snapshot.row t id record = .ok (.int id :: values) ∧
      (Session.act (StateM Memory) step w).2.2 = w.2.withRecord name id record := by
  rcases h.inOrder.act_cases step with
    ⟨-, hnone⟩ | ⟨statement, outcome, after, hstep', hchange, -, hreply', hmemory⟩
  · exact absurd (hnone _ hreply) nofun
  · obtain rfl : Statement.insert name values = statement := by
      rw [hstep] at hstep'
      exact Option.some.inj hstep'
    obtain rfl : Outcome.inserted name id = outcome := by
      rw [hreply] at hreply'
      exact Option.some.inj (Except.ok.inj hreply')
    cases hchange with
    | @insert _ _ t record _ ht hlength hrecord hid =>
      have hvalid : t.Valid := h.inOrder.valid.tables t (Schema.table?_eq_some ht).1
      have hrows : (w.2.snapshot (.insert name values)).rows = w.2.rowsOf name :=
        snapshot_rows rfl (Schema.contains_of_table? ht)
      rw [hrows] at hid hmemory
      exact ⟨t, record, hvalid, ht, hid, Snapshot.row_of_fillFrom hvalid hlength hrecord id, hmemory⟩

end Memory

open Memory (reached replies Quiet Consistent)

/-- In every world that steps lead to from nothing stored, an insert that is answered puts one row behind
the rows that a scan showed before: the new key and the values as they were given.  Until something is
changed, a scan shows these rows, and asking for the key shows the new one. -/
theorem inserted_read_back (cached : Bool) (steps between later : List Step) {scan insert : Step}
    {name : String} {asked : Option Fields} {values : List Value} {columns : List String}
    {rows : List (List Value)} {id : Int64}
    (hscan : scan.statement? = some (.select name asked)) (hasked : asked.getD .empty = .empty)
    (hinsert : insert.statement? = some (.insert name values)) :
    let act := Session.act (StateM Memory)
    let before := reached steps (.start cached, .empty)
    let middle := reached (scan :: between) before
    let after := reached (insert :: later) middle
    (act scan before).1 = .ok (some (.scanned name columns rows)) →
    Quiet between (act scan before).2 →
    (act insert middle).1 = .ok (some (.inserted name id)) →
    Quiet later (act insert middle).2 →
      (∀ again asked', again.statement? = some (.select name asked') → asked'.getD .empty = .empty →
        (act again after).1 = .ok (some (.scanned name columns (rows ++ [.int id :: values])))) ∧
      ∀ one, one.statement? = some (.select name (some (.singleton keyColumn (.int id)))) →
        (act one after).1 = .ok (some (.scanned name columns [.int id :: values])) := by
  intro act before middle after hscanned hbetween hinserted hlater
  have hbefore : Consistent before := (Memory.consistent_start cached).run steps
  have hmiddle : Consistent middle := hbefore.run _
  have hafter : Consistent after := hmiddle.run _
  have hquiet : Quiet (scan :: between) before := by
    intro outcome hmem
    rcases List.mem_cons.mp hmem with heq | hmem
    · have hreply : (act scan before).1 = .ok (some outcome) := heq.symm
      rw [hscanned] at hreply
      cases hreply
      rfl
    · exact hbetween outcome hmem
  have hmemory : middle.2 = before.2 := hbefore.memory_of_quiet hquiet
  obtain ⟨t, record, hvalid, ht, hid, hline, hinsertion⟩ := hmiddle.act_insert hinsert hinserted
  have hstored : after.2 = middle.2.withRecord name id record := by
    rw [← hinsertion]
    exact (hmiddle.act insert).memory_of_quiet hlater
  have hselects : middle.2.Selects name asked (.scanned name columns rows) := by
    rw [hmemory]
    exact (hbefore.inOrder.act_select_iff hscan).mp hscanned
  constructor
  · intro again asked' hagain hasked'
    apply (hafter.inOrder.act_select_iff hagain).mpr
    rw [hstored]
    exact hselects.withRecord hasked hasked' ht hid hline
  · intro one hone
    have hcolumns : columns = t.columnNames := by
      obtain ⟨t', _, ht', -, -, ho⟩ := Memory.selects_iff.mp hselects
      obtain rfl : t = t' := Option.some.inj (ht.symm.trans ht')
      exact (Outcome.scanned.inj ho).2.1
    apply (hafter.inOrder.act_select_iff hone).mpr
    rw [hstored, hcolumns]
    exact Memory.selects_ofKey_withRecord hvalid ht hid hline

/-- The columns do not stand in the order of their names, and the scan in front is remembered. -/
theorem inserted_read_back_remembered :
    let act := Session.act (StateM Memory)
    let scan : Step := .statement (.select "t" none)
    let insert : Step := .statement (.insert "t" [.str "b", .int 8])
    let before := reached [.line "create_table t z:str a:int",
      .statement (.insert "t" [.str "a", .int 7])] (.start true, .empty)
    let middle := reached [scan, scan] before
    let after := reached [insert, .statement (.info "t"), scan] middle
    (act scan before).1 = .ok (some (.scanned "t" ["ID", "z", "a"] [[.int 1, .str "a", .int 7]])) ∧
      (act insert middle).1 = .ok (some (.inserted "t" 2)) ∧
      (act scan after).1 = .ok (some (.scanned "t" ["ID", "z", "a"]
        [[.int 1, .str "a", .int 7], [.int 2, .str "b", .int 8]])) ∧
      (act (.statement (.select "t" (some (.singleton "ID" (.int 2))))) after).1 =
        .ok (some (.scanned "t" ["ID", "z", "a"] [[.int 2, .str "b", .int 8]])) := by
  intro act scan insert before middle after
  have hscanned : (act scan before).1 =
      .ok (some (.scanned "t" ["ID", "z", "a"] [[.int 1, .str "a", .int 7]])) := by decide +kernel
  have hinserted : (act insert middle).1 = .ok (some (.inserted "t" 2)) := by decide +kernel
  have hbetween : replies [scan] (act scan before).2 =
      [.ok (some (.scanned "t" ["ID", "z", "a"] [[.int 1, .str "a", .int 7]]))] := by
    decide +kernel
  have hlater : replies [.statement (.info "t"), scan] (act insert middle).2 =
      [.ok (some (.described "t" [⟨"ID", .int⟩, ⟨"z", .str⟩, ⟨"a", .int⟩] 2)),
        .ok (some (.scanned "t" ["ID", "z", "a"]
          [[.int 1, .str "a", .int 7], [.int 2, .str "b", .int 8]]))] := by
    decide +kernel
  have hquiet : Quiet [scan] (act scan before).2 := by
    intro outcome hmem
    rw [hbetween] at hmem
    obtain rfl : outcome = _ := by simpa using hmem
    rfl
  have hquiet' : Quiet [.statement (.info "t"), scan] (act insert middle).2 := by
    intro outcome hmem
    rw [hlater] at hmem
    rcases List.mem_cons.mp hmem with heq | hmem
    · cases heq
      rfl
    · obtain rfl : outcome = _ := by simpa using hmem
      rfl
  obtain ⟨hscan, hkey⟩ := inserted_read_back true _ [scan] [.statement (.info "t"), scan] rfl rfl rfl
    hscanned hquiet hinserted hquiet'
  exact ⟨hscanned, hinserted, hscan scan none rfl rfl, hkey _ rfl⟩

end TableStore
