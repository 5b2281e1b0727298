import TableStore.Proofs.Files.Commands
import TableStore.Proofs.Files.Refinement
import TableStore.Proofs.Independence
import TableStore.Proofs.Keys

/-
Primary keys over whole runs.

`RowsMove` lists what a step can do to the rows of a table that it does not drop: an insert adds a
record behind all others, a delete takes records out, and everything else leaves the keys alone.  What
each of the three keeps of the replies so far and the rows behind them, a run keeps (`rows_history`),
and so the keys of a table are tied to the inserts since it was made, however these are mixed with
updates, deletes and commands on other tables (`keys_ascend`).
-/
namespace TableStore

open Stateful

namespace Session

/-- The key that a reply reports for a new record of the table. -/
def insertedKey? (table : String) : Reply → Option Int64
  | .ok (some (.inserted name id)) => if name = table then some id else none
  | _ => none

/-- The keys that replies report for new records of the table, in their order. -/
def insertedKeys (table : String) (replies : List Reply) : List Int64 :=
  replies.filterMap (insertedKey? table)

theorem insertedKeys_concat (table : String) (replies : List Reply) (reply : Reply) :
    insertedKeys table (replies ++ [reply]) =
      insertedKeys table replies ++ (insertedKey? table reply).toList := by
  rw [insertedKeys, List.filterMap_append, List.filterMap_cons, List.filterMap_nil]
  cases insertedKey? table reply <;> rfl

theorem insertedKey?_inserted (table : String) (id : Int64) :
    insertedKey? table (.ok (some (.inserted table id))) = some id := if_pos rfl

end Session

namespace Memory

open Session (Reply insertedKey? insertedKeys)

/-! ## One step -/

/-- What a step can do to the rows of a table that it does not drop. -/
inductive RowsMove (table : String) (rows : Rows) (step : Step) : Reply → Rows → Prop where
  | inserted {id : Int64} {record : Fields} (hid : Snapshot.nextKey table rows = .ok id) :
    RowsMove table rows step (.ok (some (.inserted table id))) (rows.insert id record)
  | thinned {reply : Reply} {condition : Fields} {p : Int64 → Fields → Bool}
    (hstep : step.statement? = some (.delete table condition))
    (hreply : insertedKey? table reply = none) : RowsMove table rows step reply (rows.filter p)
  | kept {reply : Reply} {rows' : Rows} (hreply : insertedKey? table reply = none)
    (hkeys : rows'.keys = rows.keys) : RowsMove table rows step reply rows'

theorem insertedKey?_of_changed_ne {outcome : Outcome} {table : String}
    (h : outcome.changed? ≠ some table) : insertedKey? table (.ok (some outcome)) = none := by
  cases outcome with
  | inserted name id => exact if_neg fun heq => h (congrArg some heq)
  | _ => rfl

theorem insertedKey?_of_not_mutation {table : String} {reply : Reply}
    (h : ∀ outcome, reply = .ok (some outcome) → outcome.isMutation = false) :
    insertedKey? table reply = none := by
  rcases reply with fault | _ | outcome
  · rfl
  · rfl
  · cases outcome with
    | inserted name id => exact absurd (h _ rfl) nofun
    | _ => rfl

/-- A step that does not drop a table leaves it in the registry and makes one of the three moves. -/
theorem InOrder.rowsMove {w : Session × Memory} (h : InOrder w) {table : String}
    (hcontains : w.2.schema.contains table = true) (step : Step)
    (hkept : (Session.act (StateM Memory) step w).1 ≠ .ok (some (.dropped table))) :
    let r := Session.act (StateM Memory) step w
    r.2.2.schema.contains table = true ∧
      RowsMove table (w.2.rowsOf table) step r.1 (r.2.2.rowsOf table) := by
  intro r
  have hsame (hat : SameAt w.2 r.2.2 table) (hreply : insertedKey? table r.1 = none) :
      r.2.2.schema.contains table = true ∧
        RowsMove table (w.2.rowsOf table) step r.1 (r.2.2.rowsOf table) := by
    refine ⟨?_, .kept hreply (by rw [hat.2])⟩
    rw [Schema.contains, hat.1]
    exact hcontains
  rcases h.act_cases step with
    ⟨hmemory, hreply⟩ | ⟨statement, outcome, after, hstep, hchange, ho, hreply, hmemory⟩
  · refine hsame (by rw [hmemory]; exact ⟨rfl, rfl⟩) ?_
    exact insertedKey?_of_not_mutation hreply
  by_cases hchanged : outcome.changed? = some table
  · change r.1 = _ at hreply
    change r.2.2 = _ at hmemory
    rw [hreply, hmemory]
    have hname := table?_of_changed hchange hchanged
    -- All that is known of the table is that the registry has it, so it cannot be made now.
    cases hchange with
    | create _ ht hcreate =>
      obtain rfl := Option.some.inj hname
      have hfree := (Schema.create_eq_ok_iff.mp hcreate).1
      rw [Declaration.table_name ht] at hfree
      exact absurd (hfree.symm.trans hcontains) Bool.false_ne_true
    | drop _ =>
      obtain rfl := Option.some.inj hname
      exact absurd hreply hkept
    | insert _ _ _ hid =>
      obtain rfl := Option.some.inj hname
      rw [snapshot_rows rfl hcontains] at hid ⊢
      refine ⟨hcontains, ?_⟩
      rw [commit, rowsOf_insert, if_pos rfl]
      exact .inserted hid
    | update _ _ _ _ =>
      obtain rfl := Option.some.inj hname
      rw [snapshot_rows rfl hcontains]
      refine ⟨hcontains, .kept rfl ?_⟩
      rw [commit, rowsOf_insert, if_pos rfl]
      exact Rows.keys_map _ _
    | delete _ _ =>
      obtain rfl := Option.some.inj hname
      rw [snapshot_rows rfl hcontains]
      refine ⟨hcontains, ?_⟩
      rw [commit, rowsOf_insert, if_pos rfl]
      dsimp only
      exact .thinned hstep rfl
  · obtain ⟨other, hother⟩ := Outcome.isMutation_iff.mp ho
    refine hsame ?_ ?_
    · rw [hmemory]
      exact commit_sameAt hchange hother fun heq => hchanged (heq ▸ hother)
    · rw [hreply]
      exact insertedKey?_of_changed_ne hchanged

/-! ## Stretches of steps -/

/-- The replies to some steps, and the world behind them. -/
def replies (steps : List Step) (w : Session × Memory) : List Reply :=
  (trace (Session.act (StateM Memory)) steps w).1

def reached (steps : List Step) (w : Session × Memory) : Session × Memory :=
  (trace (Session.act (StateM Memory)) steps w).2

/-- The rows that are stored for a table behind some steps. -/
def rowsAfter (table : String) (steps : List Step) (w : Session × Memory) : Rows :=
  (reached steps w).2.rowsOf table

/-- None of the steps drops the table. -/
def Undropped (table : String) (steps : List Step) (w : Session × Memory) : Prop :=
  .ok (some (.dropped table)) ∉ replies steps w

/-- The world is in order and its registry has the table. -/
structure HasTable (table : String) (w : Session × Memory) : Prop where
  inOrder : InOrder w
  contains : w.2.schema.contains table = true

/-- What each move of the rows keeps of the replies so far, a stretch of steps keeps. -/
theorem rows_history {table : String} {Q : List Reply → Rows → Prop} {steps : List Step}
    (hmove : ∀ step ∈ steps, ∀ replies rows reply rows', Q replies rows →
      RowsMove table rows step reply rows' → Q (replies ++ [reply]) rows')
    {w : Session × Memory} (h : HasTable table w) (hstart : Q [] (w.2.rowsOf table))
    (hkept : Undropped table steps w) :
    HasTable table (reached steps w) ∧ Q (replies steps w) (rowsAfter table steps w) := by
  let P (replies : List Reply) (w : Session × Memory) : Prop :=
    .ok (some (.dropped table)) ∉ replies → HasTable table w ∧ Q replies (w.2.rowsOf table)
  refine trace_history (P := P) (fun step hstep replies w hw hdropped => ?_)
    (fun _ => ⟨h, hstart⟩) hkept
  rw [List.mem_append, List.mem_singleton, not_or] at hdropped
  obtain ⟨hbefore, hreply⟩ := hdropped
  obtain ⟨⟨hinOrder, hcontains⟩, hQ⟩ := hw hbefore
  obtain ⟨hcontains', hrows⟩ := hinOrder.rowsMove hcontains step fun heq => hreply heq.symm
  exact ⟨⟨hinOrder.act step, hcontains'⟩, hmove step hstep _ _ _ _ hQ hrows⟩

theorem HasTable.reached {table : String} {steps : List Step} {w : Session × Memory}
    (h : HasTable table w) (hkept : Undropped table steps w) :
    HasTable table (reached steps w) :=
  (rows_history (Q := fun _ _ => True) (fun _ _ _ _ _ _ _ _ => trivial) h trivial hkept).1

theorem replies_append (first more : List Step) (w : Session × Memory) :
    replies (first ++ more) w = replies first w ++ replies more (reached first w) :=
  congrArg Prod.fst (trace_append _ first more w)

theorem Undropped.of_append {table : String} {first more : List Step} {w : Session × Memory}
    (h : Undropped table (first ++ more) w) :
    Undropped table first w ∧ Undropped table more (Memory.reached first w) := by
  unfold Undropped at h ⊢
  rw [replies_append, List.mem_append, not_or] at h
  exact h

/-- Every key is at least 1, and none is greater than the number of inserts. -/
theorem bounded_of_undropped {table : String} {steps : List Step} {w : Session × Memory}
    (h : HasTable table w) (hempty : w.2.rowsOf table = .empty) (hkept : Undropped table steps w)
    {k : Int64} (hk : (rowsAfter table steps w).contains k = true) :
    1 ≤ k.toInt ∧ k.toInt ≤ (insertedKeys table (replies steps w)).length := by
  let Q (replies : List Reply) (rows : Rows) : Prop := ∀ k, rows.contains k = true →
    1 ≤ k.toInt ∧ k.toInt ≤ (insertedKeys table replies).length
  refine (rows_history (Q := Q) (fun step _ replies rows reply rows' hrows hmove k hk => ?_) h
    (fun k hk => ?_) hkept).2 k hk
  · rw [Session.insertedKeys_concat, List.length_append]
    cases hmove with
    | inserted hid =>
      rw [Session.insertedKey?_inserted]
      rcases Rows.contains_insert.mp hk with rfl | hold
      · have htop := Rows.toInt_nextKey hid
        rcases Rows.top_cases rows with ⟨hzero, -⟩ | ⟨last, hlast, heq⟩
        · simp; omega
        · have := hrows last hlast
          simp; omega
      · have := hrows k hold
        simp; omega
    | thinned _ hreply =>
      have := hrows k (Rows.contains_of_filter hk)
      rw [hreply]
      simp; omega
    | kept hreply hkeys =>
      rw [Rows.contains_iff_mem_keys, hkeys, ← Rows.contains_iff_mem_keys] at hk
      have := hrows k hk
      rw [hreply]
      simp; omega
  · rw [hempty] at hk
    cases hk

/-- Where nothing is deleted, each insert gets the key behind the one before it. -/
theorem consecutive_of_undeleted {table : String} {steps : List Step} {w : Session × Memory}
    (h : HasTable table w) (hkept : Undropped table steps w)
    (hdeletes : ∀ step ∈ steps, ∀ condition, step.statement? ≠ some (.delete table condition)) :
    (insertedKeys table (replies steps w)).map (·.toInt) =
      (List.range (insertedKeys table (replies steps w)).length).map
        fun n : Nat => Rows.top (w.2.rowsOf table) + 1 + n := by
  let first := Rows.top (w.2.rowsOf table) + 1
  let Q (replies : List Reply) (rows : Rows) : Prop :=
    Rows.top rows + 1 = first + (insertedKeys table replies).length ∧
      (insertedKeys table replies).map (·.toInt) =
        (List.range (insertedKeys table replies).length).map fun n : Nat => first + n
  refine (rows_history (Q := Q) (fun step hstep replies rows reply rows' hrows hmove => ?_) h
    ⟨?_, rfl⟩ hkept).2.2
  · obtain ⟨htop, hkeys⟩ := hrows
    cases hmove with
    | @inserted id record hid =>
      have hnext := Rows.toInt_nextKey hid
      have hkeys' : insertedKeys table (replies ++ [.ok (some (.inserted table id))]) =
          insertedKeys table replies ++ [id] := by
        rw [Session.insertedKeys_concat, Session.insertedKey?_inserted]
        rfl
      refine ⟨?_, ?_⟩
      · rw [hkeys', Rows.top_insert hid, List.length_append, List.length_singleton]
        omega
      · rw [hkeys', List.map_append, hkeys, List.length_append, List.length_singleton,
          List.range_succ, List.map_append, List.map_singleton, List.map_singleton]
        congr 2
        omega
    | thinned hdelete _ => exact absurd hdelete (hdeletes step hstep _)
    | kept hreply hsame =>
      have hkeys' : insertedKeys table (replies ++ [reply]) = insertedKeys table replies := by
        rw [Session.insertedKeys_concat, hreply]
        exact List.append_nil _
      show Rows.top rows' + 1 = _ ∧ _
      rw [hkeys', Rows.top_of_keys_eq hsame]
      exact ⟨htop, hkeys⟩
  · show _ = first + 0
    omega

/-- A table that was just made is in the registry and has no rows. -/
theorem InOrder.made {w : Session × Memory} (h : InOrder w) {step : Step} {table : String}
    {columns : List Column}
    (hmade : (Session.act (StateM Memory) step w).1 = .ok (some (.created table columns))) :
    HasTable table (Session.act (StateM Memory) step w).2 ∧
      (Session.act (StateM Memory) step w).2.2.rowsOf table = .empty := by
  rcases h.act_cases step with
    ⟨-, hreply⟩ | ⟨statement, outcome, after, hstep, hchange, ho, hreply, hmemory⟩
  · exact absurd (hreply _ hmade) nofun
  · obtain rfl : Outcome.created table columns = outcome := by
      rw [hmade] at hreply
      exact Option.some.inj (Except.ok.inj hreply)
    cases hchange with
    | create hname ht hcreate =>
      refine ⟨⟨h.act step, ?_⟩, ?_⟩
      · rw [hmemory, commit, Schema.contains, Schema.table?_create hcreate,
          Declaration.table_name ht, if_pos rfl]
        rfl
      · rw [hmemory, commit, rowsOf_insert, if_pos rfl]

/-- The inserts that succeed are the steps that report a new key. -/
theorem InOrder.inserted_iff {w : Session × Memory} (h : InOrder w) {step : Step} {table : String} :
    (∃ id, (Session.act (StateM Memory) step w).1 = .ok (some (.inserted table id))) ↔
      ∃ values outcome, step.statement? = some (.insert table values) ∧
        (Session.act (StateM Memory) step w).1 = .ok (some outcome) := by
  constructor
  · intro hinserted
    obtain ⟨id, hid⟩ := hinserted
    rcases h.act_cases step with
      ⟨-, hreply⟩ | ⟨statement, outcome, after, hstep, hchange, ho, hreply, -⟩
    · exact absurd (hreply _ hid) nofun
    · obtain rfl : Outcome.inserted table id = outcome := by
        rw [hid] at hreply
        exact Option.some.inj (Except.ok.inj hreply)
      cases hchange with
      | insert _ _ _ _ => exact ⟨_, _, hstep, hid⟩
  · intro hinsert
    obtain ⟨values, outcome, hstep, hreply⟩ := hinsert
    rw [Session.act_of_statement? hstep] at hreply ⊢
    rcases (h.act_statement (.insert table values)).2 with
      ⟨fault, -, hfault, -⟩ | ⟨outcome', after, he, hreply', -⟩
    · rw [hfault] at hreply
      cases hreply
    · obtain ⟨t, record, id, -, -, -, -, rfl, -⟩ := Snapshot.insert_eq_ok_iff.mp he
      exact ⟨id, hreply'⟩

/-- An insert adds a record behind all others and keeps them as they are. -/
theorem HasTable.inserted {table : String} {w : Session × Memory} (h : HasTable table w)
    {step : Step} {id : Int64}
    (hreply : (Session.act (StateM Memory) step w).1 = .ok (some (.inserted table id))) :
    (∀ k, (w.2.rowsOf table).contains k = true → k < id) ∧
      ∀ k record, (w.2.rowsOf table).get? k = some record →
        ((Session.act (StateM Memory) step w).2.2.rowsOf table).get? k = some record := by
  obtain ⟨-, hmove⟩ := h.inOrder.rowsMove h.contains step (by rw [hreply]; exact nofun)
  generalize ((Session.act (StateM Memory) step w).2.2.rowsOf table) = rows' at hmove
  rw [hreply] at hmove
  cases hmove with
  | inserted hid =>
    have hlt (k : Int64) (hk : (w.2.rowsOf table).contains k = true) : k < id :=
      Rows.lt_nextKey hid hk
    refine ⟨hlt, fun k record hrecord => ?_⟩
    have hne : k ≠ id := by
      rintro rfl
      exact Int64.lt_irrefl (hlt k (SortedMap.contains_iff.mpr ⟨record, hrecord⟩))
    rw [SortedMap.get?_insert, if_neg hne]
    exact hrecord
  | thinned _ hnone => exact absurd ((Session.insertedKey?_inserted table id).symm.trans hnone) nofun
  | kept hnone _ => exact absurd ((Session.insertedKey?_inserted table id).symm.trans hnone) nofun

/-- An update of any table leaves the keys of every table alone. -/
theorem InOrder.keys_of_update {w : Session × Memory} (h : InOrder w) {step : Step} {name : String}
    {assignments condition : Fields}
    (hstep : step.statement? = some (.update name assignments condition)) (table : String) :
    ((Session.act (StateM Memory) step w).2.2.rowsOf table).keys = (w.2.rowsOf table).keys := by
  rcases h.act_cases step with
    ⟨hmemory, -⟩ | ⟨statement, outcome, after, hstep', hchange, ho, hreply, hmemory⟩
  · rw [hmemory]
  · obtain rfl : Statement.update name assignments condition = statement := by
      rw [hstep] at hstep'
      exact Option.some.inj hstep'
    cases hchange with
    | update ht _ _ _ =>
      rw [hmemory, snapshot_rows rfl (Schema.contains_of_table? ht), commit, rowsOf_insert]
      split
      · next heq =>
        rw [heq]
        exact Rows.keys_map _ _
      · rfl

/-! ## The keys of a table -/

/-- How the keys of a table go with the inserts, in every stretch of steps from the world `w` on that
does not drop the table. -/
structure KeysAscend (table : String) (w : Session × Memory) : Prop where
  /-- The inserts that succeed are the steps that report a new key. -/
  inserts : ∀ steps step, Undropped table steps w →
    ((∃ id, (Session.act (StateM Memory) step (reached steps w)).1 =
        .ok (some (.inserted table id))) ↔
      ∃ values outcome, step.statement? = some (.insert table values) ∧
        (Session.act (StateM Memory) step (reached steps w)).1 = .ok (some outcome))
  /-- A new record gets a key greater than all others, and replaces none of them. -/
  fresh : ∀ steps step id, Undropped table steps w →
    (Session.act (StateM Memory) step (reached steps w)).1 = .ok (some (.inserted table id)) →
    (∀ k, (rowsAfter table steps w).contains k = true → k < id) ∧
      ∀ k record, (rowsAfter table steps w).get? k = some record →
        (rowsAfter table (steps ++ [step]) w).get? k = some record
  /-- Every key is at least 1, and none is greater than the number of inserts so far. -/
  bounded : ∀ steps k, Undropped table steps w → (rowsAfter table steps w).contains k = true →
    1 ≤ k.toInt ∧ k.toInt ≤ (insertedKeys table (replies steps w)).length
  /-- As long as nothing is deleted from the table, new records get one key after the other. -/
  consecutive : ∀ steps more, Undropped table (steps ++ more) w →
    (∀ step ∈ more, ∀ condition, step.statement? ≠ some (.delete table condition)) →
    ∃ first : Int, (insertedKeys table (replies more (reached steps w))).map (·.toInt) =
      (List.range (insertedKeys table (replies more (reached steps w))).length).map
        fun n : Nat => first + n
  /-- An update leaves the keys as they are. -/
  updated : ∀ steps step name assignments condition, Undropped table steps w →
    step.statement? = some (.update name assignments condition) →
    (rowsAfter table (steps ++ [step]) w).keys = (rowsAfter table steps w).keys
  /-- A key that is given out again was free in between, and so were all keys above it. -/
  reused : ∀ steps i j id, Undropped table steps w → i < j →
    (replies steps w)[i]? = some (.ok (some (.inserted table id))) →
    (replies steps w)[j]? = some (.ok (some (.inserted table id))) →
    ∃ n, i < n ∧ n ≤ j ∧ ∀ k, (rowsAfter table (steps.take n) w).contains k = true → k < id

theorem reached_concat (steps : List Step) (step : Step) (w : Session × Memory) :
    reached (steps ++ [step]) w = (Session.act (StateM Memory) step (reached steps w)).2 :=
  congrArg Prod.snd (trace_append _ steps [step] w)

theorem HasTable.keysAscend {table : String} {w : Session × Memory} (h : HasTable table w)
    (hempty : w.2.rowsOf table = .empty) : KeysAscend table w where
  inserts steps step hkept := (h.reached hkept).inOrder.inserted_iff
  fresh steps step id hkept hreply := by
    rw [rowsAfter, rowsAfter, reached_concat]
    exact (h.reached hkept).inserted hreply
  bounded steps k hkept hk := bounded_of_undropped h hempty hkept hk
  consecutive steps more hkept hdeletes :=
    ⟨_, consecutive_of_undeleted (h.reached hkept.of_append.1) hkept.of_append.2 hdeletes⟩
  updated steps step name assignments condition hkept hstep := by
    rw [rowsAfter, rowsAfter, reached_concat]
    exact (h.reached hkept).inOrder.keys_of_update hstep table
  reused steps i j id hkept hij _ hj := by
    -- The state right in front of the second of the two inserts is such a state.
    refine ⟨j, hij, Nat.le_refl j, fun k hk => ?_⟩
    rw [← List.take_append_drop j steps] at hkept
    rw [replies, trace_getElem?, Option.map_eq_some_iff] at hj
    obtain ⟨step, -, hreply⟩ := hj
    exact ((h.reached hkept.of_append.1).inserted hreply).1 k hk

end Memory

/-- In every run from nothing stored on, the keys of a table ascend from the step that makes it until
one that drops it.  Over files, under the default configuration and with names that files can have, a
session answers and stores the same, so they do there too. -/
theorem keys_ascend (cached : Bool) :
    (∀ (before : List Step) (create : Step) (table : String) (columns : List Column),
      let w := Memory.reached before (.start cached, .empty)
      (Session.act (StateM Memory) create w).1 = .ok (some (.created table columns)) →
      Memory.KeysAscend table (Session.act (StateM Memory) create w).2) ∧
    ∀ steps : List Step,
      (∀ step ∈ steps, ∀ table declarations,
        step.statement? = some (.createTable table declarations) → FileName table) →
      let files := trace (Session.act FileTree.Stored) steps (.start cached, {}, .empty)
      files.1 = Memory.replies steps (.start cached, .empty) ∧
        ∀ table, (Memory.reached steps (.start cached, .empty)).2.schema.contains table = true →
          files.2.2.2.rows {} table = .ok (Memory.rowsAfter table steps (.start cached, .empty)) := by
  constructor
  · intro before create table columns w hmade
    have hw : Memory.InOrder w :=
      trace_invariant (fun step _ _ h => h.act step) (Memory.inOrder_start cached)
    obtain ⟨htable, hempty⟩ := hw.made hmade
    exact htable.keysAscend hempty
  · intro steps hsteps files
    have hstart : FileTree.Kept ({}, .empty) .empty ∧ FileTree.Storable Memory.empty.schema :=
      ⟨⟨rfl, FileTree.mirrors_empty⟩, Schema.valid_empty, fun _ h => by cases h⟩
    have hcreates (step : Step) (hstep : step ∈ steps) (statement : Statement)
        (hst : step.statement? = some statement) : statement.Creates FileName := by
      intro table declarations heq
      subst heq
      exact hsteps step hstep table declarations hst
    obtain ⟨hanswers, ⟨hconfig, hmirrors⟩, hstorable⟩ :=
      FileTree.simulation.trace_act hcreates (.start cached) hstart
    refine ⟨hanswers, fun table hcontains => ?_⟩
    rw [FileTree.rows, hmirrors.run_loadRows (hstorable.2 table hcontains)]
    rfl

/-- Deleting the last record frees its key, and the next insert takes it again. -/
theorem keys_ascend_over_freed_key :
    let create : Step := .line "create_table t v:int"
    let more : List Step := [.statement (.insert "t" [.int 5]), .statement (.insert "t" [.int 6]),
      .statement (.update "t" (.singleton "v" (.int 7)) .empty),
      .statement (.delete "t" (.singleton "ID" (.int 2))), .statement (.insert "t" [.int 8]),
      .statement (.insert "t" [.int 9])]
    let w := Memory.reached [create] (.start true, .empty)
    let files := trace (Session.act FileTree.Stored) (create :: more) (.start true, {}, .empty)
    (Session.act (StateM Memory) create (.start true, .empty)).1 =
        .ok (some (.created "t" [⟨"ID", .int⟩, ⟨"v", .int⟩])) ∧
      Memory.Undropped "t" more w ∧
      Session.insertedKeys "t" (Memory.replies more w) = [1, 2, 2, 3] ∧
      (∀ k, (Memory.rowsAfter "t" more w).contains k = true → 1 ≤ k.toInt ∧ k.toInt ≤ 4) ∧
      (∃ n, 1 < n ∧ n ≤ 4 ∧ ∀ k, (Memory.rowsAfter "t" (more.take n) w).contains k = true → k < 2) ∧
      (∀ step ∈ create :: more, ∀ table declarations,
        step.statement? = some (.createTable table declarations) → FileName table) ∧
      files.1 = Memory.replies (create :: more) (.start true, .empty) ∧
      files.2.2.2.rows {} "t" =
        .ok (Memory.rowsAfter "t" (create :: more) (.start true, .empty)) := by
  intro create more w files
  have hmade : (Session.act (StateM Memory) create (.start true, .empty)).1 =
      .ok (some (.created "t" [⟨"ID", .int⟩, ⟨"v", .int⟩])) := by decide +kernel
  have hkeys : Memory.KeysAscend "t" w := (keys_ascend true).1 [] create "t" [⟨"ID", .int⟩, ⟨"v", .int⟩] hmade
  have hkept : Memory.Undropped "t" more w := by
    unfold Memory.Undropped
    decide +kernel
  have hinserted : Session.insertedKeys "t" (Memory.replies more w) = [1, 2, 2, 3] := by
    decide +kernel
  have hread : create.statement? = some (.createTable "t" ["v:int"]) := by decide +kernel
  have hsteps : ∀ step ∈ create :: more, ∀ table declarations,
      step.statement? = some (.createTable table declarations) → FileName table := by
    intro step hstep table declarations hst
    simp only [more, List.mem_cons, List.not_mem_nil, or_false] at hstep
    rcases hstep with rfl | rfl | rfl | rfl | rfl | rfl | rfl
    · rw [hread] at hst
      cases hst
      exact ⟨by decide, by decide, by decide⟩
    all_goals cases hst
  obtain ⟨hanswers, hrows⟩ := (keys_ascend true).2 (create :: more) hsteps
  refine ⟨hmade, hkept, hinserted, fun k hk => ?_, ?_, hsteps, hanswers, hrows "t" (by decide +kernel)⟩
  · have hbounds := hkeys.bounded more k hkept hk
    rw [hinserted] at hbounds
    exact hbounds
  · exact hkeys.reused more 1 4 2 hkept (by decide) (by decide +kernel) (by decide +kernel)

end TableStore
