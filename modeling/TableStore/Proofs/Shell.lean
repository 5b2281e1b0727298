import TableStore.Proofs.Grid.Shape
import TableStore.Proofs.Scans
import TableStore.Shell

/-
Conversations with the shell.

The shell is a session that is asked one line after another, so what it prints is what the answers of a
trace say, up to the first line that it does not read on behind (`run_converse_append`,
`run_converse_of_stop`).  There are two kinds of such lines: only one that reads as `exit` ends the shell
(`exit_of_ends`), and it breaks off only over a scan whose table is too wide
(`breaksOff_ofResult_iff`).
-/
namespace TableStore

/-- The outcome is a scan with a column that the formatter does not fill up. -/
def Outcome.Overwide (outcome : Outcome) : Prop :=
  ∃ table columns rows, outcome = scanned table columns rows ∧ Grid.Overwide columns rows

/-- Every outcome can be printed, but for a scan that is too wide. -/
theorem Outcome.text?_eq_none_iff {outcome : Outcome} :
    outcome.text? = none ↔ outcome.Overwide := by
  cases outcome with
  | scanned table columns rows =>
    rw [text?, Option.map_eq_none_iff, Grid.render?_eq_none_iff]
    constructor
    · exact fun h => ⟨table, columns, rows, rfl, h⟩
    · rintro ⟨_, _, _, heq, h⟩
      cases heq
      exact h
  | listed tables => cases tables <;> simp [text?, Overwide]
  | _ => simp [text?, Overwide]

namespace Shell

open Stateful

/-- The statement that a piece of the input reads as. -/
def statement? (line : List UInt8) : Option Statement :=
  (String.fromUTF8? ⟨line.toArray⟩).bind fun text => (Step.line text).statement?

/-- What the shell prints for some answers, each behind a prompt. -/
def printed : List Answer → String
  | [] => ""
  | a :: rest => prompt ++ a.text ++ printed rest

@[simp] theorem Transcript.behind_empty (t : Transcript) : t.behind "" = t := by
  simp [behind]

@[simp] theorem Transcript.behind_behind (first second : String) (t : Transcript) :
    (t.behind second).behind first = t.behind (first ++ second) := by
  simp [behind, String.append_assoc]

/-! ## What becomes of the shell -/

theorem ends_ofOutcome_iff {outcome : Outcome} :
    (Answer.ofOutcome outcome).sequel = .ends ↔ outcome = .exit := by
  constructor
  · intro h
    cases htext : outcome.text? with
    | none => simp [Answer.ofOutcome, htext] at h
    | some text =>
      by_contra hexit
      simp [Answer.ofOutcome, htext, hexit] at h
  · rintro rfl
    rfl

theorem breaksOff_ofOutcome_iff {outcome : Outcome} :
    (Answer.ofOutcome outcome).sequel = .breaksOff ↔ outcome.Overwide := by
  rw [← Outcome.text?_eq_none_iff, Answer.ofOutcome]
  cases outcome.text? with
  | none => simp
  | some text => by_cases h : outcome = .exit <;> simp [h]

variable {words : Wording} {result : Except Fault (Option Outcome)}

theorem ends_ofResult_iff :
    (Answer.ofResult words result).sequel = .ends ↔ result = .ok (some .exit) := by
  rcases result with fault | _ | outcome
  · simp [Answer.ofResult]
  · simp [Answer.ofResult]
  · simp [Answer.ofResult, ends_ofOutcome_iff]

theorem breaksOff_ofResult_iff :
    (Answer.ofResult words result).sequel = .breaksOff ↔
      ∃ outcome, result = .ok (some outcome) ∧ outcome.Overwide := by
  rcases result with fault | _ | outcome
  · simp [Answer.ofResult]
  · simp [Answer.ofResult]
  · simp [Answer.ofResult, breaksOff_ofOutcome_iff]

variable {m : Type → Type} [Monad m] [Storage m] {σ : Type} [Stateful m σ]

/-- The answer to a piece of the input, and the session and the storage behind it. -/
def act (words : Wording) (m : Type → Type) [Monad m] [Storage m] {σ : Type} [Stateful m σ]
    (line : List UInt8) (w : Session × σ) : Answer × Session × σ :=
  Stateful.run (answer words line : StateT Session m Answer) w

/-! ## One line -/

theorem act_eq (line : List UInt8) (w : Session × σ) :
    act words m line w =
      match String.fromUTF8? ⟨line.toArray⟩ with
      | none => (⟨"Error: stream did not contain valid UTF-8\n", .readsOn⟩, w)
      | some text =>
        let r := Session.act m (.line text) w
        (.ofResult words r.1, r.2) := by
  unfold act answer
  cases String.fromUTF8? ⟨line.toArray⟩ with
  | none => exact run_pure _ w
  | some text =>
    simp only [run_bind, run_pure]
    rfl

/-- A line that reads as a statement is answered as the statement is. -/
theorem act_of_statement? {line : List UInt8} {statement : Statement}
    (h : statement? line = some statement) (w : Session × σ) :
    act words m line w =
      (.ofResult words (Session.act m (.statement statement) w).1,
        (Session.act m (.statement statement) w).2) := by
  obtain ⟨text, htext, hstatement⟩ := Option.bind_eq_some_iff.mp h
  rw [act_eq, htext]
  simp only [Session.act_of_statement? hstatement]

theorem remembersScans_act {w : Session × σ} (hw : w.1.RemembersScans) (line : List UInt8) :
    (act words m line w).2.1.RemembersScans := by
  rw [act_eq]
  cases String.fromUTF8? ⟨line.toArray⟩ with
  | none => exact hw
  | some text => exact hw.act (.line text)

/-- Only `exit` ends the shell. -/
theorem exit_of_ends {w : Session × σ} (hw : w.1.RemembersScans) {line : List UInt8}
    (h : (act words m line w).1.sequel = .ends) : statement? line = some .exit := by
  rw [act_eq] at h
  unfold statement?
  cases htext : String.fromUTF8? ⟨line.toArray⟩ with
  | none =>
    rw [htext] at h
    cases h
  | some text =>
    rw [htext] at h
    exact hw.statement_of_exit (ends_ofResult_iff.mp h)

/-- Nothing is printed of an outcome over which the shell breaks off. -/
theorem text_of_breaksOff {line : List UInt8} {w : Session × σ}
    (h : (act words m line w).1.sequel = .breaksOff) : (act words m line w).1.text = "" := by
  rw [act_eq] at h ⊢
  cases htext : String.fromUTF8? ⟨line.toArray⟩ with
  | none =>
    rw [htext] at h
    cases h
  | some text =>
    rw [htext] at h
    obtain ⟨outcome, hreply, hwide⟩ := breaksOff_ofResult_iff.mp h
    simp [hreply, Answer.ofResult, Answer.ofOutcome, Outcome.text?_eq_none_iff.mpr hwide]

/-! ## Conversations -/

theorem run_eq (input : List UInt8) (w : Session × σ) :
    Stateful.run (run words input : StateT Session m Transcript) w =
      let r := Stateful.run (converse words (lines input) : StateT Session m Transcript) w
      (r.1.behind greeting, r.2) := by
  rw [run, run_bind, run_pure]

theorem run_converse_cons (line : List UInt8) (rest : List (List UInt8)) (w : Session × σ) :
    Stateful.run (converse words (line :: rest) : StateT Session m Transcript) w =
      let a := act words m line w
      match a.1.sequel with
      | .readsOn =>
        let r := Stateful.run (converse words rest : StateT Session m Transcript) a.2
        (r.1.behind (prompt ++ a.1.text), r.2)
      | .ends => (⟨prompt ++ a.1.text, false⟩, a.2)
      | .breaksOff => (⟨prompt ++ a.1.text, true⟩, a.2) := by
  unfold act
  rw [converse, run_bind]
  cases h : (Stateful.run (answer words line : StateT Session m Answer) w).1.sequel <;> simp [h]

/-- As long as the shell reads on, it answers one line after another. -/
theorem run_converse_append {before : List (List UInt8)} {w : Session × σ}
    (h : ∀ a ∈ (trace (act words m) before w).1, a.sequel = .readsOn) (rest : List (List UInt8)) :
    Stateful.run (converse words (before ++ rest) : StateT Session m Transcript) w =
      let t := trace (act words m) before w
      let r := Stateful.run (converse words rest : StateT Session m Transcript) t.2
      (r.1.behind (printed t.1), r.2) := by
  induction before generalizing w with
  | nil => simp [trace, printed]
  | cons line before ih =>
    rw [trace_cons] at h ⊢
    have hfirst : (act words m line w).1.sequel = .readsOn := h _ (List.mem_cons_self ..)
    rw [List.cons_append, run_converse_cons]
    simp only [hfirst]
    rw [ih fun a ha => h a (List.mem_cons_of_mem _ ha)]
    simp [printed]

/-- At the first line behind which it does not read on, the shell is through. -/
theorem run_converse_of_stop {before : List (List UInt8)} {line : List UInt8} {w : Session × σ}
    (hbefore : ∀ a ∈ (trace (act words m) before w).1, a.sequel = .readsOn)
    (hline : (act words m line (trace (act words m) before w).2).1.sequel ≠ .readsOn)
    (rest : List (List UInt8)) :
    Stateful.run (converse words (before ++ line :: rest) : StateT Session m Transcript) w =
      let t := trace (act words m) before w
      let a := act words m line t.2
      (⟨printed t.1 ++ (prompt ++ a.1.text), a.1.sequel = .breaksOff⟩, a.2) := by
  rw [run_converse_append hbefore]
  dsimp only
  rw [run_converse_cons]
  cases hsequel : (act words m line (trace (act words m) before w).2).1.sequel with
  | readsOn => exact absurd hsequel hline
  | ends => simp [hsequel, Transcript.behind]
  | breaksOff => simp [hsequel, Transcript.behind]

/-- At the first line over which it breaks off, the shell prints no more than the prompt. -/
theorem run_converse_of_breaksOff {before : List (List UInt8)} {line : List UInt8} {w : Session × σ}
    (hbefore : ∀ a ∈ (trace (act words m) before w).1, a.sequel = .readsOn)
    (hline : (act words m line (trace (act words m) before w).2).1.sequel = .breaksOff)
    (rest : List (List UInt8)) :
    Stateful.run (converse words (before ++ line :: rest) : StateT Session m Transcript) w =
      let t := trace (act words m) before w
      (⟨printed t.1 ++ prompt, true⟩, (act words m line t.2).2) := by
  have hstop : (act words m line (trace (act words m) before w).2).1.sequel ≠ .readsOn := by
    rw [hline]
    exact nofun
  rw [run_converse_of_stop hbefore hstop]
  simp [hline, text_of_breaksOff hline]

/-- Lines that do not read as `exit` never end the shell. -/
theorem not_ends_of_not_exit {before : List (List UInt8)} {w : Session × σ}
    (hw : w.1.RemembersScans) (h : ∀ line ∈ before, statement? line ≠ some .exit) :
    ∀ a ∈ (trace (act words m) before w).1, a.sequel ≠ .ends := by
  induction before generalizing w with
  | nil => exact nofun
  | cons line before ih =>
    rw [trace_cons]
    obtain ⟨hline, hbefore⟩ := List.forall_mem_cons.mp h
    exact List.forall_mem_cons.mpr ⟨fun hends => hline (exit_of_ends hw hends),
      ih (remembersScans_act hw line) hbefore⟩

theorem readsOn_of_not_exit {before : List (List UInt8)} {w : Session × σ}
    (hw : w.1.RemembersScans) (h : ∀ line ∈ before, statement? line ≠ some .exit)
    (hbreaks : ∀ a ∈ (trace (act words m) before w).1, ¬ a.sequel = .breaksOff) :
    ∀ a ∈ (trace (act words m) before w).1, a.sequel = .readsOn := by
  intro a ha
  have hends := not_ends_of_not_exit hw h a ha
  have hgoes := hbreaks a ha
  cases hsequel : a.sequel with
  | readsOn => rfl
  | ends => exact absurd hsequel hends
  | breaksOff => exact absurd hsequel hgoes

end Shell
end TableStore
