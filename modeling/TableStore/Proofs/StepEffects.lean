import TableStore.Proofs.CallLog
import TableStore.Proofs.Independence
import TableStore.Proofs.Scans

/-
What a step may leave behind.

A session saves after a statement if the outcome reports a change and at no other time, so the outcome
alone tells what may have happened to the storage and to the remembered results.  `effects_of_step`
says so for every step, whatever is stored, whichever call fails, and however old the remembered
results are.
-/
namespace TableStore

open Stateful

namespace Schema

/-- Making a table leaves the others and their order. -/
theorem others_create {s s' : Schema} {t : Table} (h : s.create t = .ok s') :
    s'.tables.filter (·.name ≠ t.name) = s.tables.filter (·.name ≠ t.name) := by
  obtain ⟨-, -, rfl⟩ := create_eq_ok_iff.mp h
  simp

/-- Dropping a table leaves the others and their order. -/
theorem others_drop {s s' : Schema} {t : Table} {name : String} (h : s.drop? name = some (t, s')) :
    s'.tables.filter (·.name ≠ name) = s.tables.filter (·.name ≠ name) := by
  obtain ⟨-, rfl⟩ := drop?_eq_some_iff.mp h
  dsimp only
  generalize s.tables = tables
  induction tables with
  | nil => rfl
  | cons t rest ih =>
    by_cases ht : t.name = name
    · simp [ht]
    · simpa [ht] using ih

end Schema

namespace Memory

/-- What is saved of a change is about the table that was changed. -/
theorem others_commit {memory : Memory} {statement : Statement} {outcome : Outcome}
    {after : Snapshot} {table : String}
    (h : Snapshot.Change (memory.snapshot statement) statement outcome after)
    (hchanged : outcome.changed? = some table) :
    (∀ other, other ≠ table →
      (memory.commit outcome after).rows.get? other = memory.rows.get? other) ∧
      (memory.commit outcome after).schema.tables.filter (·.name ≠ table) =
        memory.schema.tables.filter (·.name ≠ table) := by
  have hname := table?_of_changed h hchanged
  cases h with
  | create _ ht hcreate =>
    obtain rfl := Option.some.inj hname
    refine ⟨fun other hne => ?_, ?_⟩
    · rw [commit, SortedMap.get?_insert, if_neg hne]
    · rw [← Declaration.table_name ht]
      exact Schema.others_create hcreate
  | drop hdrop =>
    obtain rfl := Option.some.inj hname
    refine ⟨fun other hne => ?_, Schema.others_drop hdrop⟩
    rw [commit, SortedMap.get?_erase, if_neg hne]
  | insert _ _ _ _ =>
    obtain rfl := Option.some.inj hname
    exact ⟨fun other hne => by rw [commit, SortedMap.get?_insert, if_neg hne], rfl⟩
  | update _ _ _ _ =>
    obtain rfl := Option.some.inj hname
    exact ⟨fun other hne => by rw [commit, SortedMap.get?_insert, if_neg hne], rfl⟩
  | delete _ _ =>
    obtain rfl := Option.some.inj hname
    exact ⟨fun other hne => by rw [commit, SortedMap.get?_insert, if_neg hne], rfl⟩

end Memory

namespace World

/-- What a statement that failed leaves: the session as it was, and memory too unless it was left at
the second of two writes. -/
structure Failed (statement : Statement) (made : List Call) (w w' : World) : Prop where
  session : w'.1 = w.1
  memory : Memory.Failed statement w.2.2 made w'.2.2

/-- What a statement leaves that reports no change: memory as it was, after calls that only load, and
what was remembered of all other statements.  A select is remembered now, if there is a cache. -/
structure Answered (statement : Statement) (outcome : Outcome) (made : List Call) (w w' : World) :
    Prop where
  memory : w'.2.2 = w.2.2
  calls : ∀ call ∈ made, call.kind.writes = false
  others : ∀ other, other ≠ statement → w'.1.remembered? other = w.1.remembered? other
  own : ∀ table condition, statement = .select table condition →
    w'.1.remembered? statement = if w.1.cache.isSome then some outcome else none

/-- What a statement leaves that reports a change of a table: everything else, in the registry, in the
rows and in what is remembered.  Nothing is remembered of the table. -/
structure Changed (table : String) (w w' : World) : Prop where
  registry : w'.2.2.schema.tables.filter (·.name ≠ table) =
    w.2.2.schema.tables.filter (·.name ≠ table)
  rows : ∀ other, other ≠ table → w'.2.2.rows.get? other = w.2.2.rows.get? other
  remembered : ∀ name condition, w'.1.remembered? (.select name condition) =
    if name = table then none else w.1.remembered? (.select name condition)

/-- What a statement leaves, by what it is answered. -/
def Effect (statement : Statement) (made : List Call) (w w' : World) : Session.Reply → Prop
  | .error _ => Failed statement made w w'
  | .ok none => False
  | .ok (some outcome) =>
    if outcome.isMutation then
      ∃ table, statement.table? = some table ∧ outcome.changed? = some table ∧ Changed table w w'
    else Answered statement outcome made w w'

theorem effect_of_statement {w : World} (hw : w.1.RemembersScans) (statement : Statement) :
    let r := Session.act Memory.Watched (.statement statement) w
    ∃ made, r.2.2.1.calls = w.2.1.calls ++ made ∧ Effect statement made w r.2 r.1 := by
  obtain ⟨s, watch, memory⟩ := w
  intro r
  have hr : r = _ := Session.act_statement statement s (watch, memory)
  cases hremembered : s.remembered? statement with
  | some outcome =>
    rw [hremembered] at hr
    rw [hr]
    have ho := (hw _ _ hremembered).isMutation
    refine ⟨[], (List.append_nil _).symm, ?_⟩
    simp only [Effect, ho]
    refine ⟨rfl, nofun, fun _ _ => rfl, fun _ _ _ => ?_⟩
    rw [if_pos (Session.isSome_cache_of_remembered? hremembered)]
    exact hremembered
  | none =>
    rw [hremembered] at hr
    obtain ⟨made, hcalls, hfailed, hanswered⟩ := Memory.cycle_ends statement memory watch
    have hcycle := Memory.cycle_run statement watch memory
    rcases hrun : run (Storage.cycle statement : ExceptT Fault Memory.Watched Outcome).run
      (watch, memory) with ⟨result, watch', memory'⟩
    simp only [hrun] at hr hcalls hfailed hanswered hcycle
    rw [hr]
    refine ⟨made, hcalls, ?_⟩
    cases result with
    | error fault => exact ⟨rfl, hfailed fault rfl⟩
    | ok outcome =>
      generalize watch'.armed = armed' at hcycle
      cases hcycle with
      | answered he ho =>
        have hchanged := Outcome.not_isMutation_iff.mp ho
        simp only [Effect, Except.map, ho, Session.after_read s statement hchanged]
        refine ⟨rfl, hanswered outcome rfl ho, fun other hne => ?_, ?_⟩
        · exact Session.remembered?_remember_of_ne s outcome hne
        · rintro table condition rfl
          exact Session.remembered?_remember_self s table condition outcome
      | saved he ho =>
        have hchange := Statement.change_of_execute he ho
        obtain ⟨table, hchanged⟩ := Outcome.isMutation_iff.mp ho
        obtain ⟨hrows, hregistry⟩ := Memory.others_commit hchange hchanged
        simp only [Effect, Except.map, ho, if_true, Session.after_write s statement hchanged]
        exact ⟨table, Memory.table?_of_changed hchange hchanged, hchanged, hregistry, hrows,
          fun name condition => Session.remembered?_forget_select s table name condition⟩

/-- Every step leaves what its answer says, whatever is stored, whichever call fails and however old
the remembered results are.  A step that is no statement makes no call and touches nothing, or takes a
new session. -/
theorem effects_of_step {w : World} (hw : w.1.RemembersScans) (step : Step) :
    let r := Session.act Memory.Watched step w
    r.2.1.RemembersScans ∧ ∃ made, r.2.2.1.calls = w.2.1.calls ++ made ∧
      match step.statement? with
      | some statement => Effect statement made w r.2 r.1
      | none => made = [] ∧ r.2.2.2 = w.2.2 ∧ (∀ outcome, r.1 ≠ .ok (some outcome)) ∧
        (r.2.1 = w.1 ∨ step = .reopen ∧ r.2.1 = w.1.reopened) := by
  intro r
  refine ⟨hw.act step, ?_⟩
  cases hstep : step.statement? with
  | some statement =>
    have hr : r = _ := Session.act_of_statement? hstep w
    rw [hr]
    exact effect_of_statement hw statement
  | none =>
    refine ⟨[], ?_⟩
    have houtcome := Session.not_answered_of_no_statement (m := Memory.Watched) hstep w
    cases step with
    | reopen =>
      have hr : r = _ := Session.act_reopen w
      rw [hr, List.append_nil]
      exact ⟨rfl, rfl, rfl, nofun, .inr ⟨rfl, rfl⟩⟩
    | statement statement => cases hstep
    | line text =>
      have hr : r.2 = w := Session.act_line_of_no_statement hstep w
      rw [hr, List.append_nil]
      exact ⟨rfl, rfl, rfl, houtcome, .inl rfl⟩

/-- In every run a session remembers scans, so every step of a run has such an effect. -/
theorem remembersScans_trace (cached : Bool) (memory : Memory) (events : List Event) :
    (trace act events (start cached memory)).2.1.RemembersScans := by
  let I (w : World) : Prop := w.1.RemembersScans
  refine trace_invariant (I := I) (fun event _ w hw => ?_) (Session.remembersScans_start cached)
  cases event with
  | step step => exact hw.act step
  | fail kind => exact hw

/-- After a drop that failed half way, the dropped table is still answered from what is remembered.
Making it again can fail half way too, and when it is made its old scan is forgotten. -/
theorem effects_of_step_on_dropped_table :
    let scan := Statement.select "t" none
    let make := Statement.createTable "t" ["v:str"]
    let events : List Event := [.step (.line "create_table t v:int"), .step (.statement scan),
      .fail .deleteRows, .step (.statement (.dropTable "t")), .fail .saveRows]
    let w := (trace act events (start true .empty)).2
    let scanned := Session.act Memory.Watched (.statement scan) w
    let failed := Session.act Memory.Watched (.statement make) w
    let w' : World := (w.1, { w.2.1 with armed := none }, w.2.2)
    let made := Session.act Memory.Watched (.statement make) w'
    w.1.RemembersScans ∧ w.2.2.schema.contains "t" = false ∧
      (scanned.1 = .ok (some (.scanned "t" ["ID", "v"] [])) ∧
        scanned.2.2.2 = w.2.2 ∧ scanned.2.1.remembered? scan = w.1.remembered? scan) ∧
      (failed.1 = .error (Watch.injected .saveRows) ∧ failed.2.1 = w.1 ∧
        ∃ calls, failed.2.2.1.calls = w.2.1.calls ++ calls ∧
          Memory.Failed make w.2.2 calls failed.2.2.2) ∧
      made.1 = .ok (some (.created "t" [⟨"ID", .int⟩, ⟨"v", .str⟩])) ∧
      made.2.1.remembered? scan = none := by
  intro scan make events w scanned failed w' made
  have hw : w.1.RemembersScans := remembersScans_trace true .empty events
  have hscanned : scanned.1 = .ok (some (.scanned "t" ["ID", "v"] [])) := by decide +kernel
  have hfailed : failed.1 = .error (Watch.injected .saveRows) := by decide +kernel
  have hmade : made.1 = .ok (some (.created "t" [⟨"ID", .int⟩, ⟨"v", .str⟩])) := by decide +kernel
  refine ⟨hw, by decide +kernel, ⟨hscanned, ?_⟩, ⟨hfailed, ?_⟩, hmade, ?_⟩
  · obtain ⟨-, calls, -, heffect⟩ := effects_of_step hw (.statement scan)
    change Effect scan calls w scanned.2 scanned.1 at heffect
    rw [hscanned] at heffect
    have hanswered : Answered scan _ calls w scanned.2 := heffect
    refine ⟨hanswered.memory, ?_⟩
    rw [hanswered.own "t" none rfl]
    decide +kernel
  · obtain ⟨-, calls, hcalls, heffect⟩ := effects_of_step hw (.statement make)
    change Effect make calls w failed.2 failed.1 at heffect
    rw [hfailed] at heffect
    exact ⟨heffect.session, calls, hcalls, heffect.memory⟩
  · obtain ⟨-, calls, -, heffect⟩ := effects_of_step (w := w') hw (.statement make)
    change Effect make calls w' made.2 made.1 at heffect
    rw [hmade] at heffect
    obtain ⟨table, hnames, -, hchanged⟩ := heffect
    obtain rfl := Option.some.inj hnames
    exact hchanged.remembered "t" none

end World
end TableStore
