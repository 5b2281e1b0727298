import TableStore.Proofs.FaultyRun

/-
Remembered results are what memory would answer.

A session keeps the results of selects between commands, and a result is still good only while the
table that it came from, and the table's rows, are what they were.  `Session.Coherent` says that
every remembered result is good.  It survives a whole cycle, also one that fails half way
(`Coherent.cycle`), except for one: a drop whose rows could not be deleted has already taken the
table out of the registry, and its results are still remembered.
-/
namespace TableStore

/-! ## What a select reads -/

namespace Memory

/-- A select of this table under this condition has this outcome. -/
def Selects (memory : Memory) (table : String) (condition : Option Fields) (outcome : Outcome) :
    Prop :=
  ∃ after, (Statement.select table condition).execute
    (memory.snapshot (.select table condition)) = .ok (outcome, after)

theorem snapshot_rows {memory : Memory} {statement : Statement} {table : String}
    (h : statement.dataTable? = some table) (hc : memory.schema.contains table = true) :
    (memory.snapshot statement).rows = memory.rowsOf table := by
  simp [snapshot, h, hc]

/-- A select looks at one table of the registry and at the rows of that table. -/
theorem selects_iff {memory : Memory} {table : String} {condition : Option Fields}
    {outcome : Outcome} :
    memory.Selects table condition outcome ↔
      ∃ t rows, memory.schema.table? table = some t ∧
        t.check (condition.getD .empty) = .ok () ∧
        (Snapshot.matching (condition.getD .empty) (memory.rowsOf table)).entries.mapM
          (fun e => Snapshot.row t e.1 e.2) = .ok rows ∧
        outcome = .scanned table t.columnNames rows := by
  have hrows {t : Table} (ht : memory.schema.table? table = some t) :
      (memory.snapshot (.select table condition)).rows = memory.rowsOf table :=
    snapshot_rows rfl (Schema.contains_of_table? ht)
  constructor
  · intro hselects
    obtain ⟨after, h⟩ := hselects
    obtain ⟨t, rows, ht, hcheck, hmap, ho, -⟩ := Snapshot.select_eq_ok_iff.mp h
    rw [hrows ht] at hmap
    exact ⟨t, rows, ht, hcheck, hmap, ho⟩
  · intro hselects
    obtain ⟨t, rows, ht, hcheck, hmap, ho⟩ := hselects
    rw [← hrows ht] at hmap
    exact ⟨_, Snapshot.select_eq_ok_iff.mpr ⟨t, rows, ht, hcheck, hmap, ho, rfl⟩⟩

/-- Both memories have the same table of this name with the same rows. -/
def SameAt (memory memory' : Memory) (table : String) : Prop :=
  memory'.schema.table? table = memory.schema.table? table ∧
    memory'.rowsOf table = memory.rowsOf table

theorem Selects.of_sameAt {memory memory' : Memory} {table : String} {condition : Option Fields}
    {outcome : Outcome} (h : memory.Selects table condition outcome)
    (hsame : SameAt memory memory' table) : memory'.Selects table condition outcome := by
  rw [selects_iff] at h ⊢
  rwa [hsame.1, hsame.2]

theorem rowsOf_insert (memory : Memory) (schema : Schema) (table other : String) (rows : Rows) :
    rowsOf ⟨schema, memory.rows.insert table rows⟩ other =
      if other = table then rows else memory.rowsOf other := by
  by_cases h : other = table <;> simp [rowsOf, SortedMap.get?_insert, h]

theorem rowsOf_erase (memory : Memory) (schema : Schema) (table other : String) :
    rowsOf ⟨schema, memory.rows.erase table⟩ other =
      if other = table then .empty else memory.rowsOf other := by
  by_cases h : other = table <;> simp [rowsOf, SortedMap.get?_erase, h]

theorem commit_sameAt {memory : Memory} {statement : Statement} {outcome : Outcome}
    {after : Snapshot} {table other : String}
    (h : Snapshot.Change (memory.snapshot statement) statement outcome after)
    (hchanged : outcome.changed? = some table) (hother : other ≠ table) :
    SameAt memory (memory.commit outcome after) other := by
  have hrows {name : String} {rows : Rows} (hname : name = table) :
      SameAt memory { memory with rows := memory.rows.insert name rows } other :=
    ⟨rfl, by rw [rowsOf_insert, if_neg (hname ▸ hother)]⟩
  cases h with
  | create _ ht hcreate =>
    obtain rfl : _ = table := Option.some.inj hchanged
    refine ⟨?_, by rw [commit, rowsOf_insert, if_neg hother]⟩
    rw [commit, Schema.table?_create hcreate, Declaration.table_name ht, if_neg hother]
    rfl
  | drop hdrop =>
    obtain rfl : _ = table := Option.some.inj hchanged
    refine ⟨?_, by rw [commit, rowsOf_erase, if_neg hother]⟩
    rw [commit, Schema.table?_drop_of_ne hdrop hother]
    rfl
  | insert _ _ _ _ => exact hrows (Option.some.inj hchanged)
  | update _ _ _ _ =>
    refine hrows ?_
    simp only [Outcome.changed?] at hchanged
    split at hchanged
    · cases hchanged
    · exact Option.some.inj hchanged
  | delete _ _ =>
    refine hrows ?_
    simp only [Outcome.changed?] at hchanged
    split at hchanged
    · cases hchanged
    · exact Option.some.inj hchanged

end Memory

/-! ## Remembered results -/

namespace Session

/-- Every remembered result is what memory would answer. -/
def Coherent (s : Session) (memory : Memory) : Prop :=
  ∀ table condition outcome, s.remembered? (.select table condition) = some outcome →
    memory.Selects table condition outcome

theorem remembered?_eq_some {s : Session} {statement : Statement} {outcome : Outcome}
    (h : s.remembered? statement = some outcome) :
    ∃ table condition, statement = .select table condition := by
  cases statement with
  | select table condition => exact ⟨table, condition, rfl⟩
  | _ => cases hc : s.cache <;> simp [remembered?, key?, hc] at h

theorem coherent_start (cached : Bool) (memory : Memory) : (start cached).Coherent memory := by
  intro table condition outcome h
  cases cached <;> simp [start, remembered?, key?, Cache.get?, Cache.empty] at h

theorem remembered?_remember {s : Session} {statement : Statement} {outcome : Outcome}
    {table : String} {condition : Option Fields} {o : Outcome}
    (h : (s.remember statement outcome).remembered? (.select table condition) = some o) :
    (statement = .select table condition ∧ o = outcome) ∨
      s.remembered? (.select table condition) = some o := by
  cases statement with
  | select table' condition' =>
    cases hc : s.cache with
    | none => simp [remember, key?, remembered?, hc] at h
    | some cache =>
      simp only [remember, key?, remembered?, hc, Option.map_some, Option.bind_eq_bind,
        Option.bind_some, Cache.get?_put] at h ⊢
      split at h
      · next heq =>
        cases heq
        exact .inl ⟨rfl, (Option.some.inj h).symm⟩
      · exact .inr h
  | _ => exact .inr h

theorem remembered?_forget {s : Session} {name table : String} {condition : Option Fields}
    {o : Outcome} (h : (s.forget name).remembered? (.select table condition) = some o) :
    table ≠ name ∧ s.remembered? (.select table condition) = some o := by
  cases hc : s.cache with
  | none => simp [forget, remembered?, hc] at h
  | some cache =>
    simp only [forget, key?, remembered?, hc, Option.map_some, Option.bind_eq_bind,
      Option.bind_some, Cache.get?_forget] at h ⊢
    split at h
    · cases h
    · next hne => exact ⟨hne, h⟩

namespace Coherent

variable {s : Session} {memory : Memory}

theorem remember (hs : s.Coherent memory) {statement : Statement} {outcome : Outcome}
    {after : Snapshot} (h : statement.execute (memory.snapshot statement) = .ok (outcome, after)) :
    (s.remember statement outcome).Coherent memory := by
  intro table condition o ho
  rcases remembered?_remember ho with ⟨rfl, rfl⟩ | ho
  · exact ⟨after, h⟩
  · exact hs table condition o ho

theorem forget (hs : s.Coherent memory) {memory' : Memory} {name : String}
    (hsame : ∀ other, other ≠ name → memory.SameAt memory' other) :
    (s.forget name).Coherent memory' := by
  intro table condition o ho
  obtain ⟨hne, ho⟩ := remembered?_forget ho
  exact (hs table condition o ho).of_sameAt (hsame table hne)

theorem create (hs : s.Coherent memory) {t : Table} {schema : Schema}
    (h : memory.schema.create t = .ok schema) : s.Coherent { memory with schema } := by
  intro table condition o ho
  have hselects := hs table condition o ho
  refine hselects.of_sameAt ⟨?_, rfl⟩
  obtain ⟨_, _, ht, -⟩ := Memory.selects_iff.mp hselects
  obtain ⟨hfree, -⟩ := Schema.create_eq_ok_iff.mp h
  rw [Schema.table?_create h, if_neg]
  rintro rfl
  rw [Schema.contains_of_table? ht] at hfree
  cases hfree

/-- A cycle keeps the remembered results good, unless the rows of a dropped table stay behind. -/
theorem cycle (hs : s.Coherent memory) {armed armed' : Option CallKind} {memory' : Memory}
    {statement : Statement} {result : Except Fault Outcome}
    (h : Memory.Cycle armed memory statement result armed' memory')
    (harmed : armed ≠ some .deleteRows) : (s.after statement result).Coherent memory' := by
  cases h with
  | unread _ _ => exact hs
  | refused _ => exact hs
  | unsaved _ _ _ _ => exact hs
  | answered he ho =>
    rw [after_read s _ (Outcome.not_isMutation_iff.mp ho)]
    exact hs.remember he
  | halfSaved harmed' he ho hkind =>
    obtain ⟨t, hcreate⟩ :=
      Memory.create_of_second_write he ho hkind fun heq => harmed (heq ▸ harmed')
    exact hs.create hcreate
  | saved he ho =>
    have hchange := Statement.change_of_execute he ho
    obtain ⟨table, hchanged⟩ := Outcome.isMutation_iff.mp ho
    rw [after_write s _ hchanged]
    exact hs.forget fun other hother => Memory.commit_sameAt hchange hchanged hother

end Coherent
end Session
end TableStore
