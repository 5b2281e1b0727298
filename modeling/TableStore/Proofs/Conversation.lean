import TableStore.Proofs.NewTables
import TableStore.Proofs.Shell

/-
Whole conversations with the shell.

The shell takes its input apart behind every line feed (`splitsAfter_iff`), and what it prints is the
greeting and one answer for each piece, up to the first that is answered with the end of the program or
else up to the end of the input (`run_hears`).  A fault is one more answer, and so is a piece that is no
text at all.  But a scan that is too wide to be printed is none: there the shell breaks off
(`broken_off_over_scan`).
-/
namespace TableStore
namespace Shell

open Stateful

/-! ## The pieces of an input -/

/-- The input is taken apart behind each line feed, the byte 10.  What stands behind the last one is a
piece of its own, if anything does. -/
inductive SplitsAfter : List UInt8 → List (List UInt8) → Prop where
  | done : SplitsAfter [] []
  | last {text : List UInt8} (htext : 10 ∉ text) (hne : text ≠ []) : SplitsAfter text [text]
  | line {text rest : List UInt8} {pieces : List (List UInt8)} (htext : 10 ∉ text)
    (hrest : SplitsAfter rest pieces) : SplitsAfter (text ++ 10 :: rest) ((text ++ [10]) :: pieces)

theorem lines_cons_of_ne {b : UInt8} (hb : b ≠ 10) (rest : List UInt8) :
    lines (b :: rest) =
      match lines rest with
      | [] => [[b]]
      | line :: more => (b :: line) :: more := by
  rw [lines]
  exact if_neg hb

theorem lines_line {text : List UInt8} (htext : 10 ∉ text) (rest : List UInt8) :
    lines (text ++ 10 :: rest) = (text ++ [10]) :: lines rest := by
  induction text with
  | nil => rfl
  | cons b text ih =>
    rw [List.mem_cons, not_or] at htext
    rw [List.cons_append, lines_cons_of_ne (Ne.symm htext.1), ih htext.2]
    rfl

theorem lines_last {text : List UInt8} (htext : 10 ∉ text) (hne : text ≠ []) :
    lines text = [text] := by
  induction text with
  | nil => exact absurd rfl hne
  | cons b text ih =>
    rw [List.mem_cons, not_or] at htext
    rw [lines_cons_of_ne (Ne.symm htext.1)]
    cases text with
    | nil => rfl
    | cons c text => rw [ih htext.2 (List.cons_ne_nil c text)]

theorem splitsAfter_lines (input : List UInt8) : SplitsAfter input (lines input) := by
  induction input with
  | nil => exact .done
  | cons b rest ih =>
    by_cases hb : b = 10
    · subst hb
      exact @SplitsAfter.line [] rest _ nofun ih
    · -- One more byte in front belongs to the first piece, if there is one.
      have hne : (10 : UInt8) ≠ b := fun h => hb h.symm
      rw [lines_cons_of_ne hb]
      generalize lines rest = pieces at ih
      cases ih with
      | done => exact .last (by simpa using hne) (List.cons_ne_nil b [])
      | last htext _ => exact .last (by simp [hne, htext]) (List.cons_ne_nil b _)
      | @line text rest pieces htext hrest =>
        exact @SplitsAfter.line (b :: text) rest pieces (by simp [hne, htext]) hrest

/-- There is one way to take an input apart, and it is the shell's. -/
theorem splitsAfter_iff {input : List UInt8} {pieces : List (List UInt8)} :
    SplitsAfter input pieces ↔ lines input = pieces := by
  constructor
  · intro h
    induction h with
    | done => rfl
    | last htext hne => exact lines_last htext hne
    | line htext _ ih => rw [lines_line htext, ih]
  · intro h
    exact h ▸ splitsAfter_lines input

/-- Other bytes behind a line leave the pieces up to it as they are. -/
theorem lines_replace {input : List UInt8} {earlier later : List (List UInt8)} {line : List UInt8}
    (hlines : lines input = earlier ++ line :: later) (hline : line.getLast? = some 10)
    (tail : List UInt8) :
    lines ((earlier ++ [line]).flatten ++ tail) = earlier ++ line :: lines tail := by
  have hsplits := splitsAfter_lines input
  rw [hlines] at hsplits
  clear hlines
  induction earlier generalizing input with
  | nil =>
    cases hsplits with
    | last htext _ => exact absurd (List.mem_of_getLast? hline) htext
    | @line text _ _ htext _ => simpa using lines_line htext tail
  | cons first earlier ih =>
    rw [List.cons_append] at hsplits
    generalize hpieces : earlier ++ line :: later = pieces at hsplits
    cases hsplits with
    | last _ _ => simp at hpieces
    | @line text rest _ htext hrest =>
      rw [List.cons_append, List.flatten_cons, List.append_assoc, List.append_assoc,
        List.singleton_append, lines_line htext, ih (hpieces ▸ hrest), List.cons_append]

/-- Only a line feed parts a piece from the next. -/
theorem getLast?_of_lines {input : List UInt8} {earlier later : List (List UInt8)}
    {line : List UInt8} (hlines : lines input = earlier ++ line :: later) (hlater : later ≠ []) :
    line.getLast? = some 10 := by
  have hsplits := splitsAfter_lines input
  rw [hlines] at hsplits
  clear hlines
  induction earlier generalizing input with
  | nil =>
    cases hsplits with
    | last _ _ => exact absurd rfl hlater
    | line _ _ => exact List.getLast?_concat
  | cons first earlier ih =>
    rw [List.cons_append] at hsplits
    generalize hpieces : earlier ++ line :: later = pieces at hsplits
    cases hsplits with
    | last _ _ => simp at hpieces
    | line _ hrest => exact ih (hpieces ▸ hrest)

/-! ## Replies -/

variable {m : Type → Type} [Monad m] [Storage m] {σ : Type} [Stateful m σ]

/-- What a piece of the input comes to: as a line of text it has the reply of the session, and one that
is not UTF-8 has none and reaches neither the session nor the storage. -/
def hear (m : Type → Type) [Monad m] [Storage m] {σ : Type} [Stateful m σ] (piece : List UInt8)
    (w : Session × σ) : Option Session.Reply × Session × σ :=
  match String.fromUTF8? ⟨piece.toArray⟩ with
  | none => (none, w)
  | some text =>
    let r := Session.act m (.line text) w
    (some r.1, r.2)

/-- What is printed for a piece; of an outcome that cannot be printed there is nothing. -/
def said (words : Wording) : Option Session.Reply → String
  | none => "Error: stream did not contain valid UTF-8\n"
  | some (.error fault) => s!"Error: {fault.message words}\n"
  | some (.ok none) => ""
  | some (.ok (some outcome)) => outcome.text?.elim "" (· ++ "\n")

/-- The reply that ends a conversation. -/
def farewell : Option Session.Reply := some (.ok (some .exit))

/-- A reply that cannot be printed: a scan with a column name or a cell of more than 65535 characters. -/
def Unprintable (reply : Option Session.Reply) : Prop :=
  ∃ outcome, reply = some (.ok (some outcome)) ∧ outcome.Overwide

/-- The text of a conversation: a prompt for each piece, and what is printed for it. -/
def told (words : Wording) (replies : List (Option Session.Reply)) : String :=
  String.join (replies.map fun reply => prompt ++ said words reply)

/-- The shell's answer to a piece with a reply. -/
def answerTo (words : Wording) : Option Session.Reply → Answer
  | none => ⟨said words none, .readsOn⟩
  | some reply => .ofResult words reply

variable {words : Wording} {reply : Option Session.Reply}

theorem text_answerTo : (answerTo words reply).text = said words reply := by
  rcases reply with _ | fault | _ | outcome
  · rfl
  · rfl
  · rfl
  · cases h : outcome.text? <;> simp [answerTo, Answer.ofResult, Answer.ofOutcome, said, h]

theorem ends_answerTo_iff : (answerTo words reply).sequel = .ends ↔ reply = farewell := by
  cases reply with
  | none => simp [answerTo, farewell]
  | some result => rw [answerTo, ends_ofResult_iff, farewell, Option.some_inj]

theorem breaksOff_answerTo_iff : (answerTo words reply).sequel = .breaksOff ↔ Unprintable reply := by
  cases reply with
  | none => simp [answerTo, Unprintable]
  | some result =>
    rw [answerTo, breaksOff_ofResult_iff]
    simp only [Unprintable, Option.some_inj]

theorem readsOn_answerTo_iff :
    (answerTo words reply).sequel = .readsOn ↔ ¬ (reply = farewell ∨ Unprintable reply) := by
  rw [← @ends_answerTo_iff words, ← @breaksOff_answerTo_iff words]
  cases (answerTo words reply).sequel <;> simp

theorem act_eq_hear (piece : List UInt8) (w : Session × σ) :
    act words m piece w = (answerTo words (hear m piece w).1, (hear m piece w).2) := by
  rw [act_eq]
  unfold hear
  cases String.fromUTF8? ⟨piece.toArray⟩ <;> rfl

/-- The answers to some pieces are those to their replies. -/
theorem trace_act_eq (pieces : List (List UInt8)) (w : Session × σ) :
    trace (act words m) pieces w =
      ((trace (hear m) pieces w).1.map (answerTo words), (trace (hear m) pieces w).2) := by
  rw [← trace_map]
  exact congrArg (fun f => trace f pieces w) (funext fun piece => funext fun w => act_eq_hear piece w)

theorem printed_map_answerTo (replies : List (Option Session.Reply)) :
    printed (replies.map (answerTo words)) = told words replies := by
  induction replies with
  | nil => rfl
  | cons reply rest ih =>
    rw [List.map_cons, printed, ih, text_answerTo]
    simp [told, String.join_cons]

/-! ## Conversations -/

theorem readsOn_of_heard {pieces : List (List UInt8)} {w : Session × σ}
    (h : ∀ reply ∈ (trace (hear m) pieces w).1, ¬ (reply = farewell ∨ Unprintable reply)) :
    ∀ a ∈ (trace (act words m) pieces w).1, a.sequel = .readsOn := by
  rw [trace_act_eq, List.forall_mem_map]
  exact fun reply hreply => readsOn_answerTo_iff.mpr (h reply hreply)

/-- A conversation without a last reply goes on to the end of the input. -/
theorem run_of_heard {input : List UInt8} {w : Session × σ}
    (h : ∀ reply ∈ (trace (hear m) (lines input) w).1, ¬ (reply = farewell ∨ Unprintable reply)) :
    Stateful.run (run words input : StateT Session m Transcript) w =
      let all := trace (hear m) (lines input) w
      (⟨greeting ++ told words all.1 ++ (prompt ++ "\n"), false⟩, all.2) := by
  have hend := run_converse_append (@readsOn_of_heard m _ _ _ _ words _ _ h) []
  rw [List.append_nil, trace_act_eq] at hend
  dsimp only at hend
  rw [converse, run_pure, printed_map_answerTo] at hend
  rw [run_eq, hend]
  simp [Transcript.behind, String.append_assoc]

/-- Behind the last reply nothing is read. -/
theorem run_of_last {input : List UInt8} {earlier later : List (List UInt8)} {piece : List UInt8}
    {w : Session × σ} (hlines : lines input = earlier ++ piece :: later)
    (hearlier : ∀ reply ∈ (trace (hear m) earlier w).1, ¬ (reply = farewell ∨ Unprintable reply))
    (hpiece : (hear m piece (trace (hear m) earlier w).2).1 = farewell ∨
      Unprintable (hear m piece (trace (hear m) earlier w).2).1) :
    Stateful.run (run words input : StateT Session m Transcript) w =
      let heard := trace (hear m) earlier w
      let last := hear m piece heard.2
      (⟨greeting ++ told words heard.1 ++ (prompt ++ said words last.1),
        (answerTo words last.1).sequel = .breaksOff⟩, last.2) := by
  have hstop := @run_converse_of_stop words m _ _ _ _ earlier piece w (readsOn_of_heard hearlier)
  simp only [trace_act_eq, act_eq_hear, printed_map_answerTo, text_answerTo] at hstop
  rw [run_eq, hlines, hstop (fun h => readsOn_answerTo_iff.mp h hpiece) later]
  simp only [Transcript.behind, String.append_assoc]

/-- The shell is the fold of the pieces of its input: over any storage it prints the greeting and then, for
each piece in order, a prompt and what comes of the piece, up to the first piece whose reply is the
farewell, or with one more prompt up to the end of the input.  The one exception is a reply that cannot be
printed: there it breaks off behind the prompt.  Nothing that stands behind the last piece has any
effect. -/
theorem run_hears (words : Wording) (input : List UInt8) (w : Session × σ) :
    (∀ pieces, SplitsAfter input pieces ↔ lines input = pieces) ∧
      let all := trace (hear m) (lines input) w
      ((∀ reply ∈ all.1, ¬ (reply = farewell ∨ Unprintable reply)) ∧
          Stateful.run (run words input : StateT Session m Transcript) w =
            (⟨greeting ++ told words all.1 ++ (prompt ++ "\n"), false⟩, all.2) ∨
        ∃ earlier piece later, lines input = earlier ++ piece :: later ∧
          let heard := trace (hear m) earlier w
          let last := hear m piece heard.2
          (∀ reply ∈ heard.1, ¬ (reply = farewell ∨ Unprintable reply)) ∧
            ∃ shown : Transcript,
              (last.1 = farewell ∧
                  shown = ⟨greeting ++ told words heard.1 ++ (prompt ++ "Bye!\n"), false⟩ ∨
                Unprintable last.1 ∧ shown = ⟨greeting ++ told words heard.1 ++ prompt, true⟩) ∧
              Stateful.run (run words input : StateT Session m Transcript) w = (shown, last.2) ∧
              ∀ tail, later ≠ [] ∨ piece.getLast? = some 10 →
                Stateful.run
                    (run words ((earlier ++ [piece]).flatten ++ tail) : StateT Session m Transcript) w =
                  (shown, last.2)) := by
  refine ⟨fun _ => splitsAfter_iff, ?_⟩
  intro all
  rcases trace_first (fun reply => reply = farewell ∨ Unprintable reply) (hear m) (lines input) w with
    hnone | ⟨earlier, piece, later, hlines, hearlier, hpiece⟩
  · exact .inl ⟨hnone, run_of_heard hnone⟩
  · refine .inr ⟨earlier, piece, later, hlines, hearlier, _, ?_, run_of_last hlines hearlier hpiece, ?_⟩
    · rcases hpiece with hpiece | hpiece
      · refine .inl ⟨hpiece, ?_⟩
        rw [hpiece]
        rfl
      · refine .inr ⟨hpiece, ?_⟩
        obtain ⟨outcome, hreply, hwide⟩ := hpiece
        have hbreaks := (@breaksOff_answerTo_iff words _).mpr ⟨outcome, hreply, hwide⟩
        rw [hbreaks, hreply, said, Outcome.text?_eq_none_iff.mpr hwide]
        simp
    · -- What is printed does not depend on the pieces behind.
      intro tail hfeed
      have hline : piece.getLast? = some 10 := hfeed.elim (getLast?_of_lines hlines) id
      exact run_of_last (lines_replace hlines hline tail) hearlier hpiece

/-- A select from a table without records breaks the shell off if a column name is too long. -/
theorem act_of_vacant {memory : Memory} {t : Table} (hvacant : memory.Vacant t) {name : String}
    (hname : name ∈ t.columnNames) (hlong : Grid.widthLimit < name.length) {s : Session}
    (hs : s.RemembersVacant t) {watch : Watch} (hwatch : watch.armed = none) {line : List UInt8}
    (hline : statement? line = some (.select t.name none)) :
    (act words Memory.Watched line (s, watch, memory)).1 = ⟨"", .breaksOff⟩ := by
  have hwide : (Outcome.scanned t.name t.columnNames []).Overwide :=
    ⟨_, _, _, rfl, .inl ⟨name, hname, hlong⟩⟩
  rw [act_of_statement? hline, (hvacant.answersVacant hs hwatch).select none rfl]
  simp [Answer.ofResult, Answer.ofOutcome, Outcome.text?_eq_none_iff.mpr hwide]

/-- So there are outcomes that end the program: over a table with a column name of 65536 characters, a scan
is answered by nothing at all, and the line behind it is not read. -/
theorem broken_off_over_scan :
    let wide := String.ofList (List.replicate 65536 'x')
    let memory : Memory := ⟨⟨[⟨"t", [Column.key, ⟨wide, .int⟩]⟩]⟩, .empty⟩
    let w : Session × Watch × Memory := (.start true, .start, memory)
    let input := "select from t\nlist_tables\n".toUTF8.data.toList
    (lines input).map statement? = [some (.select "t" none), some .listTables] ∧
      (Session.act Memory.Watched (.statement (.select "t" none)) w).1 =
        .ok (some (.scanned "t" ["ID", wide] [])) ∧
      ∀ words : Wording,
        (Stateful.run (run words input : StateT Session Memory.Watched Transcript) w).1 =
          ⟨greeting ++ "> ", true⟩ := by
  intro wide memory w input
  have hlong : Grid.widthLimit < wide.length := by
    show 65535 < (String.ofList (List.replicate 65536 'x')).length
    rw [String.length_ofList, List.length_replicate]
    decide
  clear_value wide
  let t : Table := ⟨"t", [Column.key, ⟨wide, .int⟩]⟩
  have hvacant : memory.Vacant t := ⟨rfl, rfl⟩
  have hs : (Session.start true).RemembersVacant t := .reopened (.start true) t
  have hlines : lines input =
      ["select from t\n".toUTF8.data.toList, "list_tables\n".toUTF8.data.toList] := by
    decide +kernel
  have hselect : statement? "select from t\n".toUTF8.data.toList = some (.select "t" none) := by
    decide +kernel
  refine ⟨by decide +kernel, (hvacant.answersVacant hs rfl).select none rfl, fun words => ?_⟩
  have hact : (act words Memory.Watched _ w).1 = ⟨"", .breaksOff⟩ :=
    act_of_vacant hvacant (List.mem_of_getLast? rfl) hlong hs rfl hselect
  rw [run_eq, hlines]
  dsimp only
  rw [run_converse_cons]
  simp only [hact]
  rfl

end Shell
end TableStore
