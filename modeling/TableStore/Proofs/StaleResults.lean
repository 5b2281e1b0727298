import Mathlib.Control.Monad.Basic
import TableStore.Proofs.CacheCoherence

/-
Remembered results of tables that are no longer there.

A session forgets the results of a table when a change of the table has been saved as a whole.  A drop
takes the table out of the registry first and deletes its rows afterwards, and if the rows cannot be
deleted it stops before anything is forgotten.  This is the only way: whatever else fails in a run, a
remembered table is one of the registry.
-/
namespace TableStore

namespace Session

/-- The session has the result of some select on this table. -/
def Remembers (s : Session) (table : String) : Prop :=
  ∃ cache, s.cache = some cache ∧ ∃ entry ∈ cache.entries, entry.1.1 = table

theorem remembers_of_remembered? {s : Session} {table : String} {condition : Option Fields}
    {outcome : Outcome} (h : s.remembered? (.select table condition) = some outcome) :
    s.Remembers table := by
  cases hc : s.cache with
  | none => simp [remembered?, hc] at h
  | some cache =>
    simp only [remembered?, hc, key?, Option.bind_eq_bind, Option.bind_some] at h
    obtain ⟨before, after, hentries, -⟩ := List.lookup_eq_some_iff.mp h
    exact ⟨cache, hc, ((table, condition), outcome), by simp [hentries], rfl⟩

theorem not_remembers_start (cached : Bool) (table : String) : ¬ (start cached).Remembers table := by
  intro h
  obtain ⟨cache, hcache, entry, hentry, -⟩ := h
  cases cached with
  | false => cases hcache
  | true =>
    cases hcache
    cases hentry

theorem Remembers.of_remember {s : Session} {statement : Statement} {outcome : Outcome}
    {table : String} (h : (s.remember statement outcome).Remembers table) :
    s.Remembers table ∨ ∃ condition, statement = .select table condition := by
  cases statement with
  | select name condition =>
    obtain ⟨cache, hcache, entry, hentry, rfl⟩ := h
    obtain ⟨old, hold, rfl⟩ := Option.map_eq_some_iff.mp hcache
    rcases List.mem_cons.mp hentry with rfl | hentry
    · exact .inr ⟨condition, rfl⟩
    · exact .inl ⟨old, hold, entry, (List.mem_filter.mp hentry).1, rfl⟩
  | _ => exact .inl h

theorem Remembers.of_forget {s : Session} {name table : String}
    (h : (s.forget name).Remembers table) : s.Remembers table ∧ table ≠ name := by
  obtain ⟨cache, hcache, entry, hentry, rfl⟩ := h
  obtain ⟨old, hold, rfl⟩ := Option.map_eq_some_iff.mp hcache
  obtain ⟨hentry, hne⟩ := List.mem_filter.mp hentry
  exact ⟨⟨old, hold, entry, hentry, rfl⟩, by simpa using hne⟩

/-- A table that is remembered only while the registry has it stays so through a cycle, unless the
cycle is a drop of the table whose rows could not be deleted. -/
theorem remembered_after_cycle {s : Session} {armed armed' : Option CallKind}
    {memory memory' : Memory} {statement : Statement} {result : Except Fault Outcome} {table : String}
    (hs : s.Remembers table → memory.schema.contains table = true)
    (hcycle : Memory.Cycle armed memory statement result armed' memory')
    (h : (s.after statement result).Remembers table) :
    memory'.schema.contains table = true ∨
      statement = .dropTable table ∧ result = .error (Watch.injected .deleteRows) := by
  cases hcycle with
  | unread _ _ => exact .inl (hs h)
  | refused _ => exact .inl (hs h)
  | unsaved _ _ _ _ => exact .inl (hs h)
  | answered he ho =>
    rw [after_read s _ (Outcome.not_isMutation_iff.mp ho)] at h
    rcases h.of_remember with h | ⟨condition, rfl⟩
    · exact .inl (hs h)
    · obtain ⟨t, _, ht, -⟩ := Memory.selects_iff.mp ⟨_, he⟩
      exact .inl (Schema.contains_of_table? ht)
  | halfSaved _ he ho hkind =>
    have hcontains : memory.schema.contains table = true := hs h
    cases Statement.change_of_execute he ho with
    | create _ _ hcreate =>
      left
      show Schema.contains _ table = true
      rw [Schema.contains, Schema.table?_create hcreate]
      split
      · rfl
      · exact hcontains
    | @drop name _ _ hdrop =>
      by_cases hname : table = name
      · obtain rfl : _ = CallKind.deleteRows := (Option.some.inj hkind).symm
        exact .inr ⟨by rw [hname], rfl⟩
      · left
        show Schema.contains _ table = true
        rw [Schema.contains, Schema.table?_drop_of_ne hdrop hname]
        exact hcontains
    | insert _ _ _ _ => simp [Outcome.writes] at hkind
    | update _ _ _ _ => simp [Outcome.writes] at hkind
    | delete _ _ => simp [Outcome.writes] at hkind
  | saved he ho =>
    have hchange := Statement.change_of_execute he ho
    obtain ⟨name, hchanged⟩ := Outcome.isMutation_iff.mp ho
    rw [after_write s _ hchanged] at h
    obtain ⟨h, hne⟩ := h.of_forget
    left
    rw [Schema.contains, (Memory.commit_sameAt hchange hchanged hne).1]
    exact hs h

end Session

namespace World

/-- The table is remembered only while the registry has it. -/
def Tracked (table : String) (w : World) : Prop :=
  w.1.Remembers table → w.2.2.schema.contains table = true

theorem drop_of_tracked_lost {table : String} {event : Event} {w : World} (hw : Tracked table w)
    (hlost : ¬ Tracked table (act event w).2) :
    ∃ step, event = .step step ∧ step.statement? = some (.dropTable table) ∧
      (act event w).1 = .error (Watch.injected .deleteRows) := by
  cases event with
  | fail kind => exact absurd hw hlost
  | step step =>
    refine ⟨step, rfl, ?_⟩
    cases hstep : step.statement? with
    | none =>
      rcases Session.act_of_no_statement (m := Memory.Watched) hstep w with hsame | hnew
      · refine absurd ?_ hlost
        show Tracked table (Session.act Memory.Watched step w).2
        rw [hsame]
        exact hw
      · refine absurd (fun h => ?_) hlost
        change ((Session.act Memory.Watched step w).2).1.Remembers table at h
        rw [hnew] at h
        exact absurd h (Session.not_remembers_start _ _)
    | some statement =>
      have hact : act (.step step) w = Session.act Memory.Watched (.statement statement) w :=
        Session.act_of_statement? hstep w
      rw [hact] at hlost ⊢
      obtain ⟨s, watch, memory⟩ := w
      cases hs : s.remembered? statement with
      | some outcome =>
        rw [Session.act_statement, hs] at hlost
        exact absurd hw hlost
      | none =>
        obtain ⟨result, watch', memory', hcycle, hcycled⟩ := act_statement_cycle hs watch memory
        rw [hcycled] at hlost ⊢
        obtain ⟨hremembers, hgone⟩ := Classical.not_imp.mp hlost
        rcases Session.remembered_after_cycle hw hcycle hremembers with hstays | ⟨rfl, rfl⟩
        · exact absurd hstays hgone
        · exact ⟨rfl, rfl⟩

/-- A select that is answered is answered from a table of the registry, or from what the session
remembers. -/
theorem remembers_of_scanned {table : String} {condition : Option Fields} {outcome : Outcome}
    {w : World}
    (h : (act (.step (.statement (.select table condition))) w).1 = .ok (some outcome)) :
    w.1.Remembers table ∨ w.2.2.schema.contains table = true := by
  obtain ⟨s, watch, memory⟩ := w
  change (Session.act Memory.Watched (.statement (.select table condition)) _).1 = _ at h
  cases hs : s.remembered? (.select table condition) with
  | some remembered => exact .inl (Session.remembers_of_remembered? hs)
  | none =>
    obtain ⟨result, watch', memory', hcycle, hact⟩ := act_statement_cycle hs watch memory
    rw [hact] at h
    right
    cases result with
    | error fault => cases h
    | ok answer =>
      obtain ⟨t, _, ht, -⟩ := Memory.selects_iff.mp hcycle.executed
      exact Schema.contains_of_table? ht

/-- Whatever memory holds at first, whatever is done and whichever calls fail: a table of which a
result is remembered, or of which a select is answered, is in the registry, unless a drop of it failed
to delete its rows, and then the registry has not had the table since. -/
theorem remembered_table_stored (memory : Memory) (events : List Event) (table : String) :
    let last := (trace act events (start true memory)).2
    (last.1.Remembers table ∨ ∃ condition outcome,
      (act (.step (.statement (.select table condition))) last).1 = .ok (some outcome)) →
    last.2.2.schema.contains table = true ∨
      ∃ earlier drop later, events = earlier ++ .step drop :: later ∧
        drop.statement? = some (.dropTable table) ∧
        (act (.step drop) (trace act earlier (start true memory)).2).1 =
          .error (Watch.injected .deleteRows) ∧
        ∀ since, since <+: later →
          (trace act (earlier ++ .step drop :: since) (start true memory)).2.2.2.schema.contains
            table = false := by
  intro last h
  have hremembers : last.1.Remembers table ∨ last.2.2.schema.contains table = true := by
    rcases h with h | ⟨condition, outcome, h⟩
    · exact .inl h
    · exact remembers_of_scanned h
  by_cases htracked : Tracked table last
  · exact .inl (hremembers.elim htracked id)
  have hstart : Tracked table (start true memory) :=
    fun h => absurd h (Session.not_remembers_start true table)
  obtain ⟨earlier, event, later, hevents, hheld, hsince⟩ := trace_lost hstart htracked
  have hlost : ¬ Tracked table (act event (trace act earlier (start true memory)).2).2 := by
    simpa [trace_append, trace_cons, trace] using hsince [] List.nil_prefix
  obtain ⟨drop, rfl, hdrop, hfault⟩ := drop_of_tracked_lost hheld hlost
  refine .inr ⟨earlier, drop, later, hevents, hdrop, hfault, fun since hprefix => ?_⟩
  exact Bool.eq_false_iff.mpr (Classical.not_imp.mp (hsince since hprefix)).2

/-- A table is scanned, its rows cannot be deleted when it is dropped, and another one is made. -/
theorem remembered_table_stored_but_for_failed_drop :
    let events : List Event := [
      .step (.line "create_table t v:int"), .step (.statement (.select "t" none)),
      .fail .deleteRows, .step (.line "drop_table t"), .step (.line "create_table u")]
    let last := (trace act events (start true .empty)).2
    last.1.Remembers "t" ∧ last.2.2.schema.contains "t" = false ∧
      ∃ earlier drop later, events = earlier ++ .step drop :: later ∧
        drop.statement? = some (.dropTable "t") ∧
        (act (.step drop) (trace act earlier (start true .empty)).2).1 =
          .error (Watch.injected .deleteRows) ∧
        ∀ since, since <+: later →
          (trace act (earlier ++ .step drop :: since) (start true .empty)).2.2.2.schema.contains
            "t" = false := by
  intro events last
  have hremembered : last.1.remembered? (.select "t" none) =
      some (.scanned "t" ["ID", "v"] []) := by decide +kernel
  have hremembers : last.1.Remembers "t" := Session.remembers_of_remembered? hremembered
  have hgone : last.2.2.schema.contains "t" = false := by decide +kernel
  refine ⟨hremembers, hgone, ?_⟩
  rcases remembered_table_stored .empty events "t" (.inl hremembers) with hstored | hdropped
  · exact absurd (hgone.symm.trans hstored) (by decide)
  · exact hdropped

/-- So a remembered table need not be in the registry: a select on it is still answered. -/
theorem dropped_table_scanned :
    let events : List Event := [
      .step (.statement (.createTable "t" ["v:int"])), .step (.statement (.select "t" none)),
      .fail .deleteRows, .step (.statement (.dropTable "t"))]
    let last := (trace act events (start true .empty)).2
    last.1.Remembers "t" ∧ last.2.2.schema.contains "t" = false ∧
      (act (.step (.statement (.select "t" none))) last).1 =
        .ok (some (.scanned "t" ["ID", "v"] [])) := by
  intro events last
  have hremembered : last.1.remembered? (.select "t" none) =
      some (.scanned "t" ["ID", "v"] []) := by decide +kernel
  exact ⟨Session.remembers_of_remembered? hremembered, by decide +kernel, by decide +kernel⟩

end World
end TableStore
