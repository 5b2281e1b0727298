import TableStore.Proofs.WatchedMemory

/-
Runs over memory whose calls may fail.

Between the steps of a session any kind of call can be armed, and the next call of that kind then
fails without effect.  A command makes at most one call of each kind and stops at the first that
fails, so arming a kind before a step is enough to make any one call of any run fail.
-/
namespace TableStore

/-- What happens in a run: a step of the session, or the next call of a kind is made to fail. -/
inductive Event where
  | step (step : Step)
  | fail (kind : CallKind)

abbrev World := Session × Watch × Memory

namespace World

def start (cached : Bool) (memory : Memory) : World := (.start cached, .start, memory)

def act : Event → World → Session.Reply × World
  | .step step, w => Session.act Memory.Watched step w
  | .fail kind, (s, w, memory) => (.ok none, s, { w with armed := some kind }, memory)

theorem act_statement_cycle {statement : Statement} {s : Session}
    (hs : s.remembered? statement = none) (w : Watch) (memory : Memory) :
    ∃ result w' memory', Memory.Cycle w.armed memory statement result w'.armed memory' ∧
      Session.act Memory.Watched (.statement statement) (s, w, memory) =
        (result.map some, s.after statement result, w', memory') := by
  refine ⟨_, _, _, Memory.cycle_run statement w memory, ?_⟩
  rw [Session.act_statement, hs]

/-- What every cycle, every new session and every arming keeps, a run keeps.  Of the watch only the
armed kind can matter. -/
theorem trace_act_invariant {I : Session → Option CallKind → Memory → Prop} {events : List Event}
    (hcycle : ∀ {s armed memory statement result armed' memory'}, I s armed memory →
      Memory.Cycle armed memory statement result armed' memory' →
      I (s.after statement result) armed' memory')
    (hreopen : ∀ {s armed memory}, I s armed memory → I s.reopened armed memory)
    (hfail : ∀ {s armed memory kind}, .fail kind ∈ events → I s armed memory →
      I s (some kind) memory) {s : Session} {w : Watch} {memory : Memory}
    (hstart : I s w.armed memory) :
    let last := (trace act events (s, w, memory)).2
    I last.1 last.2.1.armed last.2.2 := by
  let J (w : World) : Prop := I w.1 w.2.1.armed w.2.2
  refine trace_invariant (I := J) (fun event hevent => ?_) hstart
  cases event with
  | fail kind => exact fun _ hw => hfail hevent hw
  | step step =>
    intro _
    refine Session.act_invariant (I := J) (fun statement _ => ?_) fun _ hw => hreopen hw
    intro world hw
    obtain ⟨s, w, memory⟩ := world
    cases hs : s.remembered? statement with
    | some outcome =>
      rw [Session.act_statement, hs]
      exact hw
    | none =>
      obtain ⟨result, w', memory', hrun, hact⟩ := act_statement_cycle hs w memory
      rw [hact]
      exact hcycle hw hrun

end World
end TableStore
