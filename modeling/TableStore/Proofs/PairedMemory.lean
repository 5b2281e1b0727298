import TableStore.Proofs.Simulation
import TableStore.Proofs.WatchedMemory

/-
Sessions over memory that is not watched.

A watch on which nothing is armed cannot be noticed, so a cycle over plain memory is one of the
cycles over watched memory, and none that failed.  What is kept here, for use where a table's rows
are a file, is that rows are stored for the tables of the registry and for no others.
-/
namespace TableStore

open Stateful

namespace Memory

def Unarmed (w : Watch × Memory) (memory : Memory) : Prop := w.1.armed = none ∧ w.2 = memory

theorem alike_unarmed {α : Type} (kind : CallKind) (table : Option String)
    (call : StateM Memory (Except Fault α)) :
    Alike Unarmed (fun _ => True)
      (ExceptT.mk (Watch.watched kind table call) : ExceptT Fault Watched α)
      (ExceptT.mk call : ExceptT Fault (StateM Memory) α) := by
  intro world memory hworld
  obtain ⟨w, memory⟩ := world
  obtain ⟨harmed, rfl⟩ := hworld
  have hfree : w.armed ≠ some kind := by
    rw [harmed]
    exact nofun
  rw [ExceptT.run_mk, ExceptT.run_mk, Watch.run_watched, if_neg hfree]
  exact ⟨rfl, ⟨(Watch.armed_note_of_ne hfree table).trans harmed, rfl⟩, fun _ _ => trivial⟩

theorem simulation_unarmed :
    Simulation Watched (StateM Memory) Unarmed (fun _ => True) (fun _ => True) where
  loadSchema := alike_unarmed _ _ _
  saveSchema _ _ := alike_unarmed _ _ _
  loadRows _ _ := alike_unarmed _ _ _
  saveRows _ _ _ := alike_unarmed _ _ _
  deleteRows _ _ := alike_unarmed _ _ _
  create _ _ _ := trivial
  drop _ _ := trivial
  allowed _ _ := trivial

theorem cycle_unwatched (statement : Statement) (memory : Memory) :
    let r := run (Storage.cycle statement : ExceptT Fault (StateM Memory) Outcome).run memory
    Cycle none memory statement r.1 none r.2 := by
  intro r
  have hcycle := cycle_run statement .start memory
  obtain ⟨hresult, ⟨harmed, hmemory⟩, -⟩ := simulation_unarmed.cycle statement
    (fun _ _ _ => trivial) (.start, memory) memory ⟨rfl, rfl⟩
  dsimp only at hcycle
  rw [hresult, harmed, hmemory] at hcycle
  exact hcycle

/-- Every table of the registry has stored rows, and nothing else has. -/
structure Paired (memory : Memory) : Prop where
  valid : memory.schema.Valid
  contains : ∀ name, memory.rows.contains name = memory.schema.contains name

theorem paired_empty : Paired empty := ⟨Schema.valid_empty, fun _ => rfl⟩

theorem Paired.insert {memory : Memory} (h : memory.Paired) {name : String} (rows : Rows)
    (hname : memory.schema.contains name = true) :
    Paired { memory with rows := memory.rows.insert name rows } := by
  refine ⟨h.valid, fun other => ?_⟩
  rw [SortedMap.contains, SortedMap.get?_insert]
  split
  · next heq =>
    rw [heq, hname]
    rfl
  · exact h.contains other

theorem Paired.commit {memory : Memory} (h : memory.Paired) {statement : Statement}
    {outcome : Outcome} {after : Snapshot}
    (hchange : Snapshot.Change (memory.snapshot statement) statement outcome after) :
    Paired (memory.commit outcome after) := by
  cases hchange with
  | create _ ht hcreate =>
    refine ⟨h.valid.create hcreate, fun other => ?_⟩
    rw [Memory.commit, SortedMap.contains, SortedMap.get?_insert, Schema.contains,
      Schema.table?_create hcreate, Declaration.table_name ht]
    split
    · rfl
    · exact h.contains other
  | @drop name _ _ hdrop =>
    refine ⟨h.valid.drop hdrop, fun other => ?_⟩
    rw [Memory.commit, SortedMap.contains, SortedMap.get?_erase]
    split
    · next heq =>
      rw [heq, Schema.contains_drop_self h.valid hdrop]
      rfl
    · next hne =>
      rw [Schema.contains, Schema.table?_drop_of_ne hdrop hne]
      exact h.contains other
  | insert ht _ _ _ => exact h.insert _ (Schema.contains_of_table? ht)
  | update ht _ _ _ => exact h.insert _ (Schema.contains_of_table? ht)
  | delete ht _ => exact h.insert _ (Schema.contains_of_table? ht)

theorem Paired.cycle {memory : Memory} (h : memory.Paired) (statement : Statement) :
    Paired (run (Storage.cycle statement : ExceptT Fault (StateM Memory) Outcome).run memory).2 := by
  have hcycle := cycle_unwatched statement memory
  revert hcycle
  generalize run (Storage.cycle (m := StateM Memory) statement).run memory = r
  obtain ⟨result, memory'⟩ := r
  intro hcycle
  cases hcycle with
  | unread _ _ => exact h
  | refused _ => exact h
  | answered _ _ => exact h
  | unsaved _ _ _ _ => exact h
  | halfSaved harmed _ _ _ => cases harmed
  | saved he ho => exact h.commit (Statement.change_of_execute he ho)

theorem Paired.act {w : Session × Memory} (h : w.2.Paired) (step : Step) :
    (Session.act (StateM Memory) step w).2.2.Paired := by
  refine Session.act_invariant (m := StateM Memory) (I := fun w => w.2.Paired)
    (fun statement _ w hw => ?_) (fun _ hw => hw) h
  obtain ⟨s, memory⟩ := w
  rw [Session.act_statement]
  cases s.remembered? statement with
  | some outcome => exact hw
  | none => exact Paired.cycle hw statement

end Memory
end TableStore
