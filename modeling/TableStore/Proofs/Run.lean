import Mathlib.Data.List.Induction
import TableStore.Proofs.Cycle
import TableStore.Storage.Watched

/-
Runs: what a session answers to one thing after another.

`trace` follows any transition function along a list of inputs, and its two lemmas are the two
inductions that every statement about runs comes down to: an invariant that one step keeps is kept
by the run (`trace_invariant`), and two systems that answer alike and stay related for one step do
so for the run (`trace_simulation`).
-/
namespace TableStore

/-! ## Traces -/

section Trace

variable {ι α σ σ' : Type}

/-- The answers to a list of inputs, and the world behind the last of them. -/
def trace (act : ι → σ → α × σ) : List ι → σ → List α × σ
  | [], w => ([], w)
  | i :: rest, w =>
    let (a, w) := act i w
    let (as, w) := trace act rest w
    (a :: as, w)

theorem trace_cons (act : ι → σ → α × σ) (i : ι) (rest : List ι) (w : σ) :
    trace act (i :: rest) w =
      ((act i w).1 :: (trace act rest (act i w).2).1, (trace act rest (act i w).2).2) := rfl

theorem trace_append (act : ι → σ → α × σ) (earlier later : List ι) (w : σ) :
    trace act (earlier ++ later) w =
      ((trace act earlier w).1 ++ (trace act later (trace act earlier w).2).1,
        (trace act later (trace act earlier w).2).2) := by
  induction earlier generalizing w with
  | nil => rfl
  | cons i rest ih => rw [List.cons_append, trace_cons, ih, trace_cons, List.cons_append]

/-- What every input keeps, a run keeps. -/
theorem trace_invariant {act : ι → σ → α × σ} {I : σ → Prop} {inputs : List ι}
    (hstep : ∀ i ∈ inputs, ∀ w, I w → I (act i w).2) {w : σ} (hw : I w) :
    I (trace act inputs w).2 := by
  induction inputs generalizing w with
  | nil => exact hw
  | cons i rest ih =>
    rw [trace_cons]
    exact ih (fun j hj => hstep j (List.mem_cons_of_mem i hj)) (hstep i (by simp) w hw)

/-- What every input keeps of the answers so far and the world behind them, a run keeps. -/
theorem trace_history {act : ι → σ → α × σ} {P : List α → σ → Prop} {inputs : List ι}
    (hstep : ∀ i ∈ inputs, ∀ answers w, P answers w → P (answers ++ [(act i w).1]) (act i w).2)
    {w : σ} (hw : P [] w) : P (trace act inputs w).1 (trace act inputs w).2 := by
  induction inputs using List.reverseRecOn with
  | nil => exact hw
  | append_singleton inputs i ih =>
    rw [trace_append]
    exact hstep i (by simp) _ _ (ih fun j hj => hstep j (List.mem_append_left _ hj))

/-- What every input keeps whose answer is of one kind, a run keeps that is answered in no other
way. -/
theorem trace_invariant_of_answers (good : α → Prop) {act : ι → σ → α × σ} {I : σ → Prop}
    {inputs : List ι} (hstep : ∀ i ∈ inputs, ∀ w, I w → good (act i w).1 → I (act i w).2) {w : σ}
    (hw : I w) (hgood : ∀ a ∈ (trace act inputs w).1, good a) : I (trace act inputs w).2 := by
  induction inputs generalizing w with
  | nil => exact hw
  | cons i rest ih =>
    rw [trace_cons] at hgood ⊢
    obtain ⟨hfirst, hrest⟩ := List.forall_mem_cons.mp hgood
    exact ih (fun j hj => hstep j (List.mem_cons_of_mem i hj)) (hstep i (by simp) w hw hfirst) hrest

theorem trace_getElem? (act : ι → σ → α × σ) (inputs : List ι) (w : σ) (n : Nat) :
    (trace act inputs w).1[n]? =
      inputs[n]?.map fun i => (act i (trace act (inputs.take n) w).2).1 := by
  induction inputs generalizing w n with
  | nil => rfl
  | cons i rest ih =>
    rw [trace_cons]
    cases n with
    | zero => rfl
    | succ n => exact ih (act i w).2 n

/-- Answers that are reworded one by one are those of the run, reworded. -/
theorem trace_map {β : Type} (act : ι → σ → α × σ) (f : α → β) (inputs : List ι) (w : σ) :
    trace (fun i w => (f (act i w).1, (act i w).2)) inputs w =
      ((trace act inputs w).1.map f, (trace act inputs w).2) := by
  induction inputs generalizing w with
  | nil => rfl
  | cons i rest ih => rw [trace_cons, trace_cons, ih, List.map_cons]

/-- A run has no answer of some kind, or has a first one. -/
theorem trace_first (kind : α → Prop) (act : ι → σ → α × σ) (inputs : List ι) (w : σ) :
    (∀ a ∈ (trace act inputs w).1, ¬ kind a) ∨
      ∃ earlier i later, inputs = earlier ++ i :: later ∧
        (∀ a ∈ (trace act earlier w).1, ¬ kind a) ∧ kind (act i (trace act earlier w).2).1 := by
  induction inputs generalizing w with
  | nil => exact .inl nofun
  | cons i rest ih =>
    by_cases hfirst : kind (act i w).1
    · exact .inr ⟨[], i, rest, rfl, nofun, hfirst⟩
    · rcases ih (act i w).2 with hnone | ⟨earlier, j, later, rfl, hearlier, hj⟩
      · exact .inl (List.forall_mem_cons.mpr ⟨hfirst, hnone⟩)
      · exact .inr ⟨i :: earlier, j, later, rfl, List.forall_mem_cons.mpr ⟨hfirst, hearlier⟩, hj⟩

/-- What held at first and does not hold at the end was lost at one input for good: it held before
that input and at no time since. -/
theorem trace_lost {act : ι → σ → α × σ} {I : σ → Prop} {inputs : List ι} {w : σ} (hw : I w)
    (hlast : ¬ I (trace act inputs w).2) :
    ∃ earlier i later, inputs = earlier ++ i :: later ∧ I (trace act earlier w).2 ∧
      ∀ since, since <+: later → ¬ I (trace act (earlier ++ i :: since) w).2 := by
  induction inputs using List.reverseRecOn with
  | nil => exact absurd hw hlast
  | append_singleton inputs i ih =>
    by_cases hbefore : I (trace act inputs w).2
    · refine ⟨inputs, i, [], rfl, hbefore, fun since hsince => ?_⟩
      rw [List.prefix_nil.mp hsince]
      exact hlast
    · obtain ⟨earlier, lost, later, rfl, hheld, hgone⟩ := ih hbefore
      refine ⟨earlier, lost, later ++ [i], by simp, hheld, fun since hsince => ?_⟩
      rcases List.prefix_concat_iff.mp hsince with rfl | hsince
      · simpa using hlast
      · exact hgone since hsince

/-- Two systems that answer every input alike, and stay related, answer a run alike. -/
theorem trace_simulation {act : ι → σ → α × σ} {act' : ι → σ' → α × σ'} {R : σ → σ' → Prop}
    {inputs : List ι}
    (hstep : ∀ i ∈ inputs, ∀ w w', R w w' →
      (act i w).1 = (act' i w').1 ∧ R (act i w).2 (act' i w').2)
    {w : σ} {w' : σ'} (hw : R w w') :
    (trace act inputs w).1 = (trace act' inputs w').1 ∧
      R (trace act inputs w).2 (trace act' inputs w').2 := by
  induction inputs generalizing w w' with
  | nil => exact ⟨rfl, hw⟩
  | cons i rest ih =>
    obtain ⟨hanswer, hnext⟩ := hstep i (by simp) w w' hw
    obtain ⟨hanswers, hlast⟩ := ih (fun j hj => hstep j (List.mem_cons_of_mem i hj)) hnext
    rw [trace_cons, trace_cons, hanswer, hanswers]
    exact ⟨rfl, hlast⟩

/-- The answers of a run to the inputs of one kind. -/
def answersTo (own : ι → Bool) (inputs : List ι) (answers : List α) : List α :=
  ((inputs.zip answers).filter fun e => own e.1).map (·.2)

/-- Where inputs of one kind are answered alike from related worlds, and all others leave a world
related to what it was related to, the others can be taken out of a run without a trace. -/
theorem trace_filter {act : ι → σ → α × σ} {act' : ι → σ' → α × σ'} {R : σ → σ' → Prop}
    {own : ι → Bool}
    (hown : ∀ i, own i = true → ∀ w w', R w w' →
      (act i w).1 = (act' i w').1 ∧ R (act i w).2 (act' i w').2)
    (hother : ∀ i, own i = false → ∀ w w', R w w' → R (act i w).2 w')
    (inputs : List ι) {w : σ} {w' : σ'} (hw : R w w') :
    answersTo own inputs (trace act inputs w).1 = (trace act' (inputs.filter own) w').1 ∧
      R (trace act inputs w).2 (trace act' (inputs.filter own) w').2 := by
  induction inputs generalizing w w' with
  | nil => exact ⟨rfl, hw⟩
  | cons i rest ih =>
    rw [trace_cons]
    cases hi : own i with
    | true =>
      obtain ⟨hanswer, hnext⟩ := hown i hi w w' hw
      obtain ⟨hanswers, hlast⟩ := ih hnext
      rw [List.filter_cons_of_pos hi, trace_cons, ← hanswers, ← hanswer]
      exact ⟨by simp [answersTo, hi], hlast⟩
    | false =>
      obtain ⟨hanswers, hlast⟩ := ih (hother i hi w w' hw)
      rw [List.filter_cons_of_neg (by simp [hi]), ← hanswers]
      exact ⟨by simp [answersTo, hi], hlast⟩

end Trace

/-! ## Steps of a session -/

/-- What can be done with a session from outside. -/
inductive Step where
  | line (text : String)
  | statement (statement : Statement)
  /-- A new session over the same storage. -/
  | reopen

namespace Session

open Stateful

abbrev Reply := Except Fault (Option Outcome)

/-- The session that takes the place of another one; whether it has a cache is a setting. -/
def reopened (s : Session) : Session := start s.cache.isSome

section

variable {m : Type → Type} [Monad m] [Storage m] {σ : Type} [Stateful m σ]

def perform : Step → Action m (Option Outcome)
  | .line text => executeLine text
  | .statement statement => return some (← execute statement)
  | .reopen => do
    modify reopened
    return none

/-- The answer to a step, and the session and the storage behind it. -/
def act (m : Type → Type) [Monad m] [Storage m] {σ : Type} [Stateful m σ] (step : Step)
    (w : Session × σ) : Reply × Session × σ :=
  run (perform step : Action m (Option Outcome)).run w

@[simp] theorem act_reopen (w : Session × σ) :
    act m .reopen w = (.ok none, w.1.reopened, w.2) := by
  rw [act, perform, run_exceptT_bind, run_exceptT_modify]
  exact run_exceptT_pure none _

theorem act_statement (statement : Statement) (s : Session) (w : σ) :
    act m (.statement statement) (s, w) =
      match s.remembered? statement with
      | some outcome => (.ok (some outcome), s, w)
      | none =>
        let r := run (Storage.cycle statement : ExceptT Fault m Outcome).run w
        (r.1.map some, s.after statement r.1, r.2) := by
  simp only [act, perform]
  rw [run_exceptT_bind, run_execute]
  cases s.remembered? statement with
  | some outcome => simp
  | none =>
    rcases run (Storage.cycle (m := m) statement).run w with ⟨r, w'⟩
    cases r <;> simp [Except.map]

/-- A line is the statement that it reads as; one that reads as none touches nothing. -/
theorem act_line (text : String) (w : Session × σ) :
    act m (.line text) w =
      match Statement.read text with
      | .error cause => (.error (.malformed cause), w)
      | .ok none => (.ok none, w)
      | .ok (some statement) => act m (.statement statement) w := by
  simp only [act, perform, executeLine]
  cases Statement.read text with
  | error cause => simp
  | ok read =>
    cases read with
    | none => simp
    | some statement => rfl

end

end Session

def Step.statement? : Step → Option Statement
  | .line text => (Statement.read text).toOption.join
  | .statement s => some s
  | .reopen => none

namespace Session

variable {m : Type → Type} [Monad m] [Storage m] {σ : Type} [Stateful m σ]

theorem act_of_statement? {step : Step} {statement : Statement}
    (hstep : step.statement? = some statement) (w : Session × σ) :
    act m step w = act m (.statement statement) w := by
  cases step with
  | reopen => cases hstep
  | statement _ =>
    cases hstep
    rfl
  | line text =>
    rw [act_line]
    rcases h : Statement.read text with cause | _ | read
    · simp [Step.statement?, h, Except.toOption] at hstep
    · simp [Step.statement?, h, Except.toOption] at hstep
    · have heq : read = statement := by simpa [Step.statement?, h, Except.toOption] using hstep
      rw [heq]

/-- A line that reads as no statement touches nothing. -/
theorem act_line_of_no_statement {text : String} (h : (Step.line text).statement? = none)
    (w : Session × σ) : (act m (.line text) w).2 = w := by
  rw [act_line]
  rcases hread : Statement.read text with cause | _ | read
  · rfl
  · rfl
  · simp [Step.statement?, hread, Except.toOption] at h

/-- A step that is no statement changes nothing, or only takes a new session. -/
theorem act_of_no_statement {step : Step} (hstep : step.statement? = none) (w : Session × σ) :
    (act m step w).2 = w ∨ (act m step w).2 = (w.1.reopened, w.2) := by
  cases step with
  | reopen => exact .inr (by rw [act_reopen])
  | statement statement => cases hstep
  | line text => exact .inl (act_line_of_no_statement hstep w)

/-- A step that is no statement has no outcome. -/
theorem not_answered_of_no_statement {step : Step} (hstep : step.statement? = none)
    (w : Session × σ) (outcome : Outcome) : (act m step w).1 ≠ .ok (some outcome) := by
  cases step with
  | reopen =>
    rw [act_reopen]
    exact nofun
  | statement statement => cases hstep
  | line text =>
    rw [act_line]
    rcases h : Statement.read text with cause | _ | statement
    · exact nofun
    · exact nofun
    · simp [Step.statement?, h, Except.toOption] at hstep

theorem act_invariant {I : Session × σ → Prop} {step : Step}
    (hstatement : ∀ statement, step.statement? = some statement → ∀ w, I w →
      I (act m (.statement statement) w).2)
    (hreopen : ∀ w, I w → I (w.1.reopened, w.2)) {w : Session × σ} (hw : I w) :
    I (act m step w).2 := by
  cases step with
  | reopen => simpa using hreopen w hw
  | statement statement => exact hstatement statement rfl w hw
  | line text =>
    rw [act_line]
    rcases h : Statement.read text with cause | _ | statement
    · exact hw
    · exact hw
    · exact hstatement statement (by simp [Step.statement?, h, Except.toOption]) w hw

theorem act_simulation {m' : Type → Type} [Monad m'] [Storage m'] {σ' : Type} [Stateful m' σ']
    {R : Session × σ → Session × σ' → Prop} {step : Step}
    (hstatement : ∀ statement, step.statement? = some statement → ∀ w w', R w w' →
      (act m (.statement statement) w).1 = (act m' (.statement statement) w').1 ∧
        R (act m (.statement statement) w).2 (act m' (.statement statement) w').2)
    (hreopen : ∀ w w', R w w' → R (w.1.reopened, w.2) (w'.1.reopened, w'.2))
    {w : Session × σ} {w' : Session × σ'} (hw : R w w') :
    (act m step w).1 = (act m' step w').1 ∧ R (act m step w).2 (act m' step w').2 := by
  cases step with
  | reopen => simpa using hreopen w w' hw
  | statement statement => exact hstatement statement rfl w w' hw
  | line text =>
    rw [act_line, act_line]
    rcases h : Statement.read text with cause | _ | statement
    · exact ⟨rfl, hw⟩
    · exact ⟨rfl, hw⟩
    · exact hstatement statement (by simp [Step.statement?, h, Except.toOption]) w w' hw

end Session
end TableStore
