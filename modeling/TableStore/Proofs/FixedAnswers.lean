import TableStore.Proofs.Files.Commands
import TableStore.Proofs.Shell
import TableStore.Proofs.TableCommands

/-
Statements whose answer is fixed.

What `help`, `exit` and an unknown word are answered is written in the program, and no table takes part
in it.  But a session loads the registry before it looks at the statement, so a registry that cannot be
loaded is all that such a statement is answered with, and a shell over one reads on behind `exit`
(`fixed_answers`, `exit_ignored`).  Where the registry can be loaded, nothing behind the first `exit` is
read; a shell that never comes to it has broken off over a scan before.
-/
namespace TableStore

open Stateful

namespace Statement

/-- The answer of a statement that has the same one whatever is stored. -/
def fixed? : Statement → Option (Except Fault Outcome)
  | help => some (.ok .help)
  | exit => some (.ok .exit)
  | unknown word => some (.error (.unknownCommand word))
  | _ => none

theorem execute_of_fixed {statement : Statement} {answer : Except Fault Outcome}
    (h : statement.fixed? = some answer) (s : Snapshot) :
    statement.execute s = answer.map fun outcome => (outcome, s) := by
  cases statement with
  | help =>
    cases h
    rfl
  | exit =>
    cases h
    rfl
  | unknown word =>
    cases h
    rfl
  | _ => cases h

theorem dataTable?_of_fixed {statement : Statement} {answer : Except Fault Outcome}
    (h : statement.fixed? = some answer) : statement.dataTable? = none := by
  cases statement <;> first | rfl | cases h

theorem key?_of_fixed {statement : Statement} {answer : Except Fault Outcome}
    (h : statement.fixed? = some answer) : Session.key? statement = none := by
  cases statement <;> first | rfl | cases h

theorem changed?_of_fixed {statement : Statement} {outcome : Outcome}
    (h : statement.fixed? = some (.ok outcome)) : outcome.changed? = none := by
  cases statement <;> first | cases h; rfl | cases h

end Statement

section

variable {m : Type → Type} [Monad m] [Storage m] {σ : Type} [Stateful m σ]

/-- The cycle of a statement with a fixed answer is one call. -/
theorem Storage.cycle_of_fixed {statement : Statement} {answer : Except Fault Outcome}
    (h : statement.fixed? = some answer) (w : σ) :
    run (Storage.cycle statement : ExceptT Fault m Outcome).run w =
      match run (Storage.loadSchema : m (Except Fault Schema)) w with
      | (.ok _, w') => (answer, w')
      | (.error fault, w') => (.error fault, w') := by
  unfold Storage.cycle
  rw [run_exceptT_bind, fetch_of_no_table (statement.dataTable?_of_fixed h)]
  rcases run (Storage.loadSchema : m (Except Fault Schema)) w with ⟨fault | schema, w'⟩
  · rfl
  simp only
  rw [run_exceptT_bind, run_exceptT_mk_pure, statement.execute_of_fixed h]
  cases answer with
  | error fault => rfl
  | ok outcome =>
    have ho := Outcome.not_isMutation_iff.mpr (statement.changed?_of_fixed h)
    simp [Except.map, ho]

/-- A statement with a fixed answer has it if the registry can be loaded, and no other. -/
theorem Session.act_of_fixed {step : Step} {statement : Statement} {answer : Except Fault Outcome}
    (hstep : step.statement? = some statement) (h : statement.fixed? = some answer) (s : Session)
    (w : σ) :
    Session.act m step (s, w) =
      match run (Storage.loadSchema : m (Except Fault Schema)) w with
      | (.ok _, w') => (answer.map some, s, w')
      | (.error fault, w') => (.error fault, s, w') := by
  have hkey := Statement.key?_of_fixed h
  rw [act_of_statement? hstep, act_statement, remembered?_of_key_none hkey,
    Storage.cycle_of_fixed h]
  rcases run (Storage.loadSchema : m (Except Fault Schema)) w with ⟨fault | schema, w'⟩
  · rfl
  cases answer with
  | error fault => rfl
  | ok outcome =>
    simp only [after_read s statement (Statement.changed?_of_fixed h), remember, hkey]

/-- A shell that comes to a line that reads as `exit` ends there if the registry can be loaded, and
otherwise it reports the fault and reads on. -/
theorem Shell.converse_at_exit {words : Wording} {w : Session × σ} {before : List (List UInt8)}
    {line : List UInt8} (hbefore : ∀ a ∈ (trace (Shell.act words m) before w).1, a.sequel = .readsOn)
    (hline : Shell.statement? line = some .exit) (after : List (List UInt8)) :
    let told := trace (Shell.act words m) before w
    Stateful.run (Shell.converse words (before ++ line :: after) : StateT Session m Transcript) w =
      match Stateful.run (Storage.loadSchema : m (Except Fault Schema)) told.2.2 with
      | (.ok _, w') => (⟨printed told.1 ++ (prompt ++ "Bye!\n"), false⟩, told.2.1, w')
      | (.error fault, w') =>
        let rest := Stateful.run (Shell.converse words after : StateT Session m Transcript) (told.2.1, w')
        (rest.1.behind (printed told.1 ++ (prompt ++ s!"Error: {fault.message words}\n")), rest.2) := by
  intro told
  have hexit : Step.statement? (.statement .exit) = some .exit := rfl
  have hcons := @run_converse_cons words m _ _ _ _ line after told.2
  rw [act_of_statement? hline, Session.act_of_fixed hexit rfl] at hcons
  rw [run_converse_append hbefore]
  dsimp only
  rw [hcons]
  rcases Stateful.run (Storage.loadSchema : m (Except Fault Schema)) told.2.2 with ⟨fault | _, w'⟩
  · simp [Answer.ofResult, told]
  · rfl

/-- A statement with a fixed answer has it, and leaves the session as it is, wherever the registry can
be loaded; where it cannot, its fault is the answer.  So the shell ends at the first line that reads as
`exit`, whatever is stored, if the registry can be loaded then, and reads on behind it otherwise; unless it
has broken off before, over a line in front of it. -/
theorem fixed_answers :
    (∀ (step : Step) (statement : Statement) (answer : Except Fault Outcome),
      step.statement? = some statement → statement.fixed? = some answer →
      ∀ (s : Session) (w : σ), Session.act m step (s, w) =
        match run (Storage.loadSchema : m (Except Fault Schema)) w with
        | (.ok _, w') => (answer.map some, s, w')
        | (.error fault, w') => (.error fault, s, w')) ∧
    ∀ (words : Wording) (cached : Bool) (w : σ) (input : List UInt8) (before : List (List UInt8))
      (line : List UInt8) (after : List (List UInt8)), Shell.lines input = before ++ line :: after →
      (∀ l ∈ before, Shell.statement? l ≠ some .exit) → Shell.statement? line = some .exit →
      let shown := run (Shell.run words input : StateT Session m Shell.Transcript) (.start cached, w)
      (∃ earlier piece later, before = earlier ++ piece :: later ∧
          let told := trace (Shell.act words m) earlier (.start cached, w)
          let last := Shell.act words m piece told.2
          last.1.sequel = .breaksOff ∧
            shown = (⟨Shell.greeting ++ Shell.printed told.1 ++ Shell.prompt, true⟩, last.2)) ∨
        let told := trace (Shell.act words m) before (.start cached, w)
        shown =
          match run (Storage.loadSchema : m (Except Fault Schema)) told.2.2 with
          | (.ok _, w') =>
            (⟨Shell.greeting ++ Shell.printed told.1 ++ Shell.prompt ++ "Bye!\n", false⟩,
              told.2.1, w')
          | (.error fault, w') =>
            let rest := run (Shell.converse words after : StateT Session m Shell.Transcript)
              (told.2.1, w')
            (rest.1.behind (Shell.greeting ++ Shell.printed told.1 ++ Shell.prompt ++
              s!"Error: {fault.message words}\n"), rest.2) := by
  refine ⟨fun step statement answer hstep h s w => Session.act_of_fixed hstep h s w, ?_⟩
  intro words cached w input before line after hinput hbefore hline shown
  have hstart : (Session.start cached, w).1.RemembersScans := Session.remembersScans_start cached
  have hshown : shown = let r := run (Shell.converse words (before ++ line :: after) :
      StateT Session m Shell.Transcript) (.start cached, w)
      (r.1.behind Shell.greeting, r.2) := by
    rw [← hinput]
    exact Shell.run_eq input _
  rcases trace_first (·.sequel = .breaksOff) (Shell.act words m) before (.start cached, w) with
    hnone | ⟨earlier, piece, later, rfl, hearlier, hpiece⟩
  · right
    have hreads := Shell.readsOn_of_not_exit hstart hbefore hnone
    rw [hshown, Shell.converse_at_exit hreads hline]
    dsimp only
    rcases run (Storage.loadSchema : m (Except Fault Schema)) _ with ⟨fault | _, w'⟩
    · simp [String.append_assoc]
    · simp [Shell.Transcript.behind, String.append_assoc]
  · left
    have hreads := Shell.readsOn_of_not_exit hstart
      (fun l hl => hbefore l (List.mem_append_left _ hl)) hearlier
    refine ⟨earlier, piece, later, rfl, hpiece, ?_⟩
    rw [hshown, List.append_assoc, List.cons_append, Shell.run_converse_of_breaksOff hreads hpiece]
    simp [Shell.Transcript.behind, String.append_assoc]

end

/-- A registry that is no JSON cannot be loaded. -/
theorem loadSchema_of_broken :
    let broken : FileTree := ⟨.singleton ["db_meta.json"] (.file "\x7bnot json".toUTF8)⟩
    run (Storage.loadSchema : FileTree.Stored (Except Fault Schema)) ({}, broken) =
      (.error (.file "./db_meta.json" (.unread .registry "\x7bnot json" .badJson)), {}, broken) := by
  intro broken
  rw [Storage.Files.run_loadSchema]
  exact Prod.ext (by decide +kernel) rfl

/-- An unknown word and `exit` are answered over an empty directory, and neither is over a registry that
is no JSON. -/
theorem fixed_answers_over_files :
    let broken : FileTree := ⟨.singleton ["db_meta.json"] (.file "\x7bnot json".toUTF8)⟩
    let fault : Fault := .file "./db_meta.json" (.unread .registry "\x7bnot json" .badJson)
    let first := "bogus\n".toUTF8.data.toList
    let last := "exit\n".toUTF8.data.toList
    let s := Session.start true
    Session.act FileTree.Stored (.line "bogus") (s, {}, .empty) =
        (.error (.unknownCommand "bogus"), s, {}, .empty) ∧
      Session.act FileTree.Stored (.line "exit") (s, {}, broken) = (.error fault, s, {}, broken) ∧
      ∀ words : Wording,
        run (Shell.run words (first ++ last ++ first) :
            StateT Session FileTree.Stored Shell.Transcript) (s, {}, .empty) =
          (⟨Shell.greeting ++ ("> Error: unknown command \"bogus\", try \"help\"\n" ++ "> Bye!\n"),
            false⟩, s, {}, .empty) := by
  intro broken fault first last s
  have hbogus : Step.statement? (.line "bogus") = some (.unknown "bogus") := by decide +kernel
  have hexit : Step.statement? (.line "exit") = some .exit := by decide +kernel
  have hloaded : run (Storage.loadSchema : FileTree.Stored (Except Fault Schema)) ({}, .empty) =
      (.ok .empty, {}, .empty) := by
    rw [Storage.Files.run_loadSchema]
    exact Prod.ext (by decide +kernel) rfl
  have hbroken : run (Storage.loadSchema : FileTree.Stored (Except Fault Schema)) ({}, broken) =
      (.error fault, {}, broken) := loadSchema_of_broken
  obtain ⟨hanswers, hends⟩ := fixed_answers (m := FileTree.Stored)
  have hfirst : Shell.statement? first = some (.unknown "bogus") := by decide +kernel
  have hact (words : Wording) : Shell.act words FileTree.Stored first (s, {}, .empty) =
      (⟨"Error: unknown command \"bogus\", try \"help\"\n", .readsOn⟩, s, {}, .empty) := by
    rw [Shell.act_of_statement? hfirst, hanswers (.statement (.unknown "bogus")) _ _ rfl rfl, hloaded]
    rfl
  refine ⟨?_, ?_, fun words => ?_⟩
  · rw [hanswers _ _ _ hbogus rfl, hloaded]
    rfl
  · rw [hanswers _ _ _ hexit rfl, hbroken]
  · have hlines : Shell.lines (first ++ last ++ first) = [first] ++ last :: [first] := by
      decide +kernel
    rcases hends words true ({}, .empty) _ [first] last [first] hlines (by decide +kernel)
        (by decide +kernel) with ⟨earlier, piece, later, hpieces, hbreaks, -⟩ | hshown
    · -- The shell has read on behind the one line in front.
      obtain ⟨rfl, rfl, rfl⟩ : earlier = [] ∧ piece = first ∧ later = [] := by
        cases earlier <;> simp_all
      rw [trace, hact] at hbreaks
      cases hbreaks
    · rw [hshown, trace_cons, hact]
      simp only [trace]
      rw [hloaded]
      refine Prod.ext ?_ rfl
      simp [Shell.printed, Shell.prompt, String.append_assoc]

/-- So `exit` does not always leave the program: over this directory neither help nor the end of the
program is answered, no word is reported as unknown, and the shell goes on to the next line. -/
theorem exit_ignored :
    let broken : FileTree := ⟨.singleton ["db_meta.json"] (.file "\x7bnot json".toUTF8)⟩
    let fault : Fault := .file "./db_meta.json" (.unread .registry "\x7bnot json" .badJson)
    let answer (word : String) :=
      (Session.act FileTree.Stored (.line word) (.start true, {}, broken)).1
    let input := "exit\nhelp\n".toUTF8.data.toList
    Step.statement? (.line "help") = some .help ∧ answer "help" = .error fault ∧
      Step.statement? (.line "exit") = some .exit ∧ answer "exit" = .error fault ∧
      Step.statement? (.line "bogus") = some (.unknown "bogus") ∧ answer "bogus" = .error fault ∧
      (Shell.lines input).map Shell.statement? = [some .exit, some .help] ∧
      ∀ words : Wording,
        let report := "> " ++ s!"Error: {fault.message words}\n"
        (run (Shell.run words input : StateT Session FileTree.Stored Shell.Transcript)
            (.start true, {}, broken)).1 =
          ⟨Shell.greeting ++ (report ++ report ++ "> \n"), false⟩ := by
  intro broken fault answer input
  refine ⟨by decide +kernel, by decide +kernel, by decide +kernel, by decide +kernel,
    by decide +kernel, by decide +kernel, by decide +kernel, fun words => ?_⟩
  have hbroken : run (Storage.loadSchema : FileTree.Stored (Except Fault Schema)) ({}, broken) =
      (.error fault, {}, broken) := loadSchema_of_broken
  have hact {line : List UInt8} {statement : Statement} {result : Except Fault Outcome}
      (hline : Shell.statement? line = some statement) (hresult : statement.fixed? = some result) :
      Shell.act words FileTree.Stored line (.start true, {}, broken) =
        (⟨s!"Error: {fault.message words}\n", .readsOn⟩, .start true, {}, broken) := by
    have hstep : Step.statement? (.statement statement) = some statement := rfl
    rw [Shell.act_of_statement? hline, Session.act_of_fixed hstep hresult, hbroken]
    rfl
  have hexit := @hact "exit\n".toUTF8.data.toList .exit _ (by decide +kernel) rfl
  have hhelp := @hact "help\n".toUTF8.data.toList .help _ (by decide +kernel) rfl
  have hlines : Shell.lines input = ["exit\n".toUTF8.data.toList, "help\n".toUTF8.data.toList] := by
    decide +kernel
  rw [Shell.run_eq, hlines]
  dsimp only
  rw [Shell.run_converse_cons, hexit]
  dsimp only
  rw [Shell.run_converse_cons, hhelp]
  dsimp only
  rw [Shell.converse, run_pure]
  simp [Shell.Transcript.behind, Shell.prompt, String.append_assoc]

end TableStore
