import Mathlib.Control.Monad.Basic
import TableStore.Proofs.CacheCoherence
import TableStore.Proofs.Simulation

/-
A cache cannot be noticed.

The same run, with the same saves failing, is followed once with a cache and once without.  The two
worlds stay in step: same memory, same kind armed, and a coherent session on one side.  A remembered
result is then the answer that the other session gets from memory, and where nothing is remembered
both sides go through the same cycle.
-/
namespace TableStore

open Stateful

/-! ## The record of calls is never looked at -/

/-- Memories that agree, under watches that are armed alike. -/
def Watch.Same (w w' : Watch × Memory) : Prop := w.1.armed = w'.1.armed ∧ w.2 = w'.2

theorem Watch.alike_watched {α : Type} (kind : CallKind) (table : Option String)
    (call : StateM Memory (Except Fault α)) :
    Alike Watch.Same (fun _ => True)
      (ExceptT.mk (watched kind table call) : ExceptT Fault Memory.Watched α)
      (ExceptT.mk (watched kind table call) : ExceptT Fault Memory.Watched α) := by
  intro world world' hsame
  obtain ⟨w, memory⟩ := world
  obtain ⟨w', memory'⟩ := world'
  obtain ⟨harmed, hmemory⟩ : w.armed = w'.armed ∧ memory = memory' := hsame
  subst hmemory
  simp only [ExceptT.run_mk, run_watched, harmed]
  by_cases h : w'.armed = some kind
  · simp only [h, if_true]
    exact ⟨trivial, ⟨by simp [note, harmed], rfl⟩, fun _ _ => trivial⟩
  · simp only [h, if_false]
    exact ⟨trivial, ⟨by simp [note, harmed], rfl⟩, fun _ _ => trivial⟩

theorem Watch.simulation_same :
    Simulation Memory.Watched Memory.Watched Watch.Same (fun _ => True) (fun _ => True) where
  loadSchema := alike_watched _ _ _
  saveSchema _ _ := alike_watched _ _ _
  loadRows _ _ := alike_watched _ _ _
  saveRows _ _ _ := alike_watched _ _ _
  deleteRows _ _ := alike_watched _ _ _
  create _ _ _ := trivial
  drop _ _ := trivial
  allowed _ _ := trivial

/-! ## Two sessions in step -/

/-- The calls that save, apart from the deletion of rows. -/
def CallKind.Saves (kind : CallKind) : Prop := kind = .saveSchema ∨ kind = .saveRows

namespace World

/-- A world with a cache and one without: only saves can fail, in both alike, and what the one
remembers is what the other would be answered. -/
structure InStep (cached plain : World) : Prop where
  noCache : plain.1.cache = none
  same : Watch.Same cached.2 plain.2
  armed : ∀ kind, cached.2.1.armed = some kind → kind.Saves
  coherent : cached.1.Coherent cached.2.2

theorem remembered?_of_plain {s : Session} (hs : s.cache = none) (statement : Statement) :
    s.remembered? statement = none := by
  simp [Session.remembered?, hs]

theorem plain_after {s : Session} (hs : s.cache = none) (statement : Statement)
    (result : Except Fault Outcome) : (s.after statement result).cache = none := by
  rcases result with fault | outcome
  · exact hs
  · simp only [Session.after]
    cases outcome.changed? with
    | some table => simp [Session.forget, hs]
    | none => cases statement <;> simp [Session.remember, Session.key?, hs]

/-- Worlds in step answer a statement alike and stay in step. -/
theorem InStep.act_statement {cached plain : World} (h : InStep cached plain)
    (statement : Statement) :
    (Session.act Memory.Watched (.statement statement) cached).1 =
        (Session.act Memory.Watched (.statement statement) plain).1 ∧
      InStep (Session.act Memory.Watched (.statement statement) cached).2
        (Session.act Memory.Watched (.statement statement) plain).2 := by
  obtain ⟨s, w, memory⟩ := cached
  obtain ⟨s', w', memory'⟩ := plain
  obtain ⟨hplain, hsame, harmed, hcoherent⟩ := h
  obtain ⟨hw, hmemory⟩ : w.armed = w'.armed ∧ memory = memory' := hsame
  subst hmemory
  simp only at hplain harmed hcoherent
  have hs' := remembered?_of_plain hplain statement
  cases hs : s.remembered? statement with
  | some outcome =>
    obtain ⟨table, condition, rfl⟩ := Session.remembered?_eq_some hs
    obtain ⟨result, w'', memory', hcycle, hact⟩ := act_statement_cycle hs' w' memory
    obtain ⟨after, hselect⟩ := hcoherent _ _ _ hs
    have hloads {kind : CallKind} (hkind : w'.armed = some kind) : kind.Saves :=
      harmed kind (hw.trans hkind)
    obtain ⟨rfl, harmed', rfl⟩ := hcycle.of_answer hselect (Snapshot.isMutation_select hselect)
      (fun h => by rcases hloads h with h | h <;> cases h)
      (fun h => by rcases hloads h with h | h <;> cases h)
    rw [hact, Session.act_statement, hs]
    exact ⟨rfl, plain_after hplain _ _, ⟨hw.trans harmed'.symm, rfl⟩, harmed, hcoherent⟩
  | none =>
    have hcycle := Memory.cycle_run statement w memory
    obtain ⟨hresult, hworlds, -⟩ := Watch.simulation_same.cycle statement
      (fun _ _ _ => trivial) (w, memory) (w', memory) ⟨hw, rfl⟩
    rw [Session.act_statement, Session.act_statement, hs, hs']
    simp only
    rw [← hresult]
    refine ⟨rfl, plain_after hplain _ _, hworlds, fun kind hk => ?_, ?_⟩
    · rcases hcycle.armed_eq with h | h
      · exact harmed kind (h.symm.trans hk)
      · rw [h] at hk
        cases hk
    · refine hcoherent.cycle hcycle fun hk => ?_
      rcases harmed _ hk with h | h <;> cases h

theorem InStep.act {cached plain : World} (h : InStep cached plain) {event : Event}
    (hevent : ∀ kind, event = .fail kind → kind.Saves) :
    (World.act event cached).1 = (World.act event plain).1 ∧
      InStep (World.act event cached).2 (World.act event plain).2 := by
  cases event with
  | fail kind =>
    obtain ⟨hplain, ⟨-, hmemory⟩, -, hcoherent⟩ := h
    refine ⟨rfl, hplain, ⟨rfl, hmemory⟩, fun kind' hk => ?_, hcoherent⟩
    cases hk
    exact hevent kind rfl
  | step step =>
    refine Session.act_simulation (fun statement _ _ _ h => h.act_statement statement) ?_ h
    intro cached plain h
    refine ⟨?_, h.same, h.armed, Session.coherent_start _ _⟩
    simp [Session.reopened, Session.start, h.noCache]

/-- A session with a cache and a session without one give the same answers and leave the same
memory, whatever memory holds at first, whatever is done, and whichever saves fail. -/
theorem cache_transparent (memory : Memory) (events : List Event)
    (hsaves : ∀ kind, .fail kind ∈ events → kind = .saveSchema ∨ kind = .saveRows) :
    let cached := trace act events (start true memory)
    let plain := trace act events (start false memory)
    cached.1 = plain.1 ∧ cached.2.2.2.schema = plain.2.2.2.schema ∧
      ∀ table, cached.2.2.2.rowsOf table = plain.2.2.2.rowsOf table := by
  intro cached plain
  have hstart : InStep (start true memory) (start false memory) :=
    ⟨rfl, ⟨rfl, rfl⟩, fun _ h => (by cases h), Session.coherent_start true memory⟩
  have hrun : cached.1 = plain.1 ∧ InStep cached.2 plain.2 :=
    trace_simulation (fun event hevent _ _ hw => hw.act fun kind hk => hsaves kind (hk ▸ hevent))
      hstart
  refine ⟨hrun.1, ?_⟩
  have hmemory : cached.2.2.2 = plain.2.2.2 := hrun.2.same.2
  rw [hmemory]
  exact ⟨rfl, fun _ => rfl⟩

/-- Saves that fail, a result that is remembered over one of them, and a table made anew. -/
theorem cache_transparent_over_failed_saves :
    let condition : Option Fields := some (.singleton "v" (.int 7))
    let events : List Event := [
      .step (.statement (.createTable "t" ["v:int"])), .step (.statement (.insert "t" [.int 7])),
      .step (.statement (.select "t" condition)), .fail .saveRows,
      .step (.statement (.delete "t" .empty)), .step (.statement (.select "t" condition)),
      .step (.statement (.dropTable "t")), .fail .saveRows,
      .step (.statement (.createTable "t" ["v:str"])), .step (.statement (.select "t" condition))]
    let cached := trace act events (start true .empty)
    let plain := trace act events (start false .empty)
    (∀ kind, .fail kind ∈ events → kind = .saveSchema ∨ kind = .saveRows) ∧
      cached.1[5]? = some (.ok (some (.scanned "t" ["ID", "v"] [[.int 1, .int 7]]))) ∧
      cached.1 = plain.1 ∧ cached.2.2.2.schema = plain.2.2.2.schema ∧
        ∀ table, cached.2.2.2.rowsOf table = plain.2.2.2.rowsOf table := by
  intro condition events cached plain
  have hsaves : ∀ kind, .fail kind ∈ events → kind = .saveSchema ∨ kind = .saveRows := by
    intro kind h
    simp only [events, List.mem_cons, reduceCtorEq, Event.fail.injEq, false_or, or_false,
      List.not_mem_nil] at h
    rcases h with rfl | rfl <;> simp
  exact ⟨hsaves, by decide +kernel, cache_transparent .empty events hsaves⟩

end World
end TableStore
