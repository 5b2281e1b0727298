import TableStore.Proofs.Statement.Layout
import TableStore.Proofs.Statement.Spelling
import TableStore.Proofs.Text.Quoted

/-
What unquoting a word leaves of it.

The scan of a line and the unquoting of a word go over the quotes of a text separately.  They agree on every
word that a line is cut into (`Token.scan_front`): both open and close the same quotes, and all of them are
closed at the end of the word.  So such a word falls into pieces in one way, bare characters and sections in
quotes, and unquoting it leaves the pieces without their quotes (`unquote_words`).
-/
namespace TableStore

/-! ## Unquoting as a loop -/

/-- Where the unquoting of a word stands: the quote that is open, and the text so far. -/
structure Unquoting where
  quote : Option Char
  text : List Char
deriving DecidableEq

namespace Unquoting

open Tokens

/-- Takes in one more character of the word. -/
def step (u : Unquoting) (c : Char) : Unquoting :=
  match u.quote with
  | some q => if c = q then { u with quote := none } else { u with text := u.text ++ [c] }
  | none => if isQuote c then { u with quote := some c } else { u with text := u.text ++ [c] }

def run (chars : List Char) : Unquoting := chars.foldl step ⟨none, []⟩

theorem foldl_step (quote : Option Char) (text chars : List Char) :
    chars.foldl step ⟨quote, text⟩ = ⟨openQuote quote chars, text ++ unquoteFrom quote chars⟩ := by
  induction chars generalizing quote text with
  | nil => rw [unquoteFrom, List.append_nil, List.foldl_nil, openQuote]
  | cons c rest ih =>
    rw [List.foldl_cons]
    cases quote with
    | some q =>
      by_cases hc : c = q
      · simp only [step, openQuote, unquoteFrom, if_pos hc, ih]
      · simp only [step, openQuote, unquoteFrom, if_neg hc, ih, List.append_assoc,
          List.singleton_append]
    | none =>
      by_cases hc : isQuote c = true
      · simp only [step, openQuote, unquoteFrom, if_pos hc, ih]
      · simp only [step, openQuote, unquoteFrom, if_neg hc, ih, List.append_assoc,
          List.singleton_append]

theorem run_eq (chars : List Char) :
    run chars = ⟨openQuote none chars, unquoteFrom none chars⟩ :=
  foldl_step none [] chars

/-- The loop goes on from where it stands. -/
theorem unquoteFrom_append (quote : Option Char) (front behind : List Char) :
    unquoteFrom quote (front ++ behind) =
      unquoteFrom quote front ++ unquoteFrom (openQuote quote front) behind := by
  have hloop := foldl_step quote [] (front ++ behind)
  rw [List.foldl_append, foldl_step, foldl_step] at hloop
  exact (congrArg Unquoting.text hloop).symm

end Unquoting

/-- A piece of a word: one character outside of quotes, or a section between two quotes. -/
inductive Piece where
  | bare (c : Char)
  | quoted (quote : Char) (inside : List Char)
deriving DecidableEq

namespace Piece

open Token (Sections isBare)
open Tokens (openQuote)

def written : Piece → List Char
  | bare c => [c]
  | quoted quote inside => quote :: (inside ++ [quote])

/-- A piece without its quotes. -/
def inside : Piece → List Char
  | bare c => [c]
  | quoted _ inside => inside

/-- A piece as it stands in a line: the section ends at the first quote that is like the one it begins
with. -/
def WellFormed : Piece → Prop
  | bare c => isBare c = true
  | quoted quote inside => isQuote quote = true ∧ quote ∉ inside

/-- The pieces of a word, one after the other. -/
structure Of (word : String) (pieces : List Piece) : Prop where
  wellFormed : ∀ p ∈ pieces, p.WellFormed
  written : word.toList = pieces.flatMap Piece.written

theorem sections_flatMap_written {pieces : List Piece} (h : ∀ p ∈ pieces, p.WellFormed) :
    Sections isBare (pieces.flatMap written) := by
  induction pieces with
  | nil => exact .nil
  | cons p rest ih =>
    obtain ⟨hp, hrest⟩ := List.forall_mem_cons.mp h
    rw [List.flatMap_cons]
    cases p with
    | bare c => exact .plain hp (ih hrest)
    | quoted quote inside =>
      rw [written, List.cons_append, List.append_assoc]
      exact .quoted hp.1 hp.2 (ih hrest)

theorem exists_of_sections {chars : List Char} (h : Sections isBare chars) :
    ∃ pieces : List Piece, (∀ p ∈ pieces, p.WellFormed) ∧ chars = pieces.flatMap written := by
  induction h with
  | nil => exact ⟨[], nofun, rfl⟩
  | @plain c _ hc _ ih =>
    obtain ⟨pieces, hpieces, rfl⟩ := ih
    exact ⟨.bare c :: pieces, List.forall_mem_cons.mpr ⟨hc, hpieces⟩, rfl⟩
  | @quoted quote inside _ hquote hinside _ ih =>
    obtain ⟨pieces, hpieces, rfl⟩ := ih
    refine ⟨.quoted quote inside :: pieces,
      List.forall_mem_cons.mpr ⟨⟨hquote, hinside⟩, hpieces⟩, ?_⟩
    rw [List.flatMap_cons, written, List.cons_append, List.append_assoc, List.singleton_append]

/-- The first character says which kind of piece it is, and the quote that closes a section where it
ends. -/
theorem prefixFree_written : PrefixFree WellFormed written where
  ne_nil p _ := by cases p <;> exact List.cons_ne_nil _ _
  eq p p' hp hp' s t heq := by
    have hkinds : ∀ {c quote : Char}, isBare c = true → isQuote quote = true → c ≠ quote := by
      rintro c _ hc hquote rfl
      rw [(Token.isBare_iff.mp hc).2] at hquote
      cases hquote
    cases p with
    | bare c =>
      cases p' with
      | bare d =>
        obtain ⟨rfl, -⟩ := List.cons.inj heq
        rfl
      | quoted quote inside => exact absurd (List.cons.inj heq).1 (hkinds hp hp'.1)
    | quoted quote inside =>
      cases p' with
      | bare d => exact absurd (List.cons.inj heq).1.symm (hkinds hp' hp.1)
      | quoted quote' inside' =>
        obtain ⟨rfl, hrest⟩ := List.cons.inj heq
        simp only [List.append_eq, List.append_assoc, List.singleton_append] at hrest
        rw [front_inj hp.2 hp'.2 hrest]

theorem Of.unique {word : String} {pieces pieces' : List Piece} (h : Of word pieces)
    (h' : Of word pieces') : pieces = pieces' :=
  prefixFree_written.flatMap_inj h.wellFormed h'.wellFormed (h.written.symm.trans h'.written)

theorem openQuote_written {p : Piece} (h : p.WellFormed) : openQuote none p.written = none := by
  cases p with
  | bare c =>
    rw [written, openQuote, (Token.isBare_iff.mp h).2]
    rfl
  | quoted quote inside =>
    rw [written, openQuote, if_pos h.1, Token.openQuote_append, Token.openQuote_of_not_mem h.2,
      openQuote, if_pos rfl, openQuote]

theorem openQuote_flatMap_written {pieces : List Piece} (h : ∀ p ∈ pieces, p.WellFormed) :
    openQuote none (pieces.flatMap written) = none := by
  induction pieces with
  | nil => rfl
  | cons p rest ih =>
    obtain ⟨hp, hrest⟩ := List.forall_mem_cons.mp h
    rw [List.flatMap_cons, Token.openQuote_append, openQuote_written hp, ih hrest]

theorem unquoteFrom_written {p : Piece} (h : p.WellFormed) :
    unquoteFrom none p.written = p.inside := by
  cases p with
  | bare c =>
    rw [written, unquoteFrom, (Token.isBare_iff.mp h).2]
    rfl
  | quoted quote inside => rw [written, unquoteFrom, if_pos h.1, unquoteFrom_section h.2, Piece.inside]

theorem unquoteFrom_flatMap_written {pieces : List Piece} (h : ∀ p ∈ pieces, p.WellFormed) :
    unquoteFrom none (pieces.flatMap written) = pieces.flatMap inside := by
  induction pieces with
  | nil => rfl
  | cons p rest ih =>
    obtain ⟨hp, hrest⟩ := List.forall_mem_cons.mp h
    rw [List.flatMap_cons, List.flatMap_cons, Unquoting.unquoteFrom_append, openQuote_written hp,
      unquoteFrom_written hp, ih hrest]

theorem Of.openQuote_eq {word : String} {pieces : List Piece} (h : Of word pieces) :
    openQuote none word.toList = none := by
  rw [h.written, openQuote_flatMap_written h.wellFormed]

theorem Of.unquote_eq {word : String} {pieces : List Piece} (h : Of word pieces) :
    (unquote word).toList = pieces.flatMap inside := by
  rw [unquote, String.toList_ofList, h.written, unquoteFrom_flatMap_written h.wellFormed]

/-- What falls into pieces is cut out of a line as a whole. -/
theorem Of.ofText {word : String} {pieces : List Piece} (h : Of word pieces) (hne : pieces ≠ []) :
    Tokens.ofText word = .ofList [.word word] := by
  have hword : Token.IsWord word := by
    constructor
    · rw [h.written]
      obtain ⟨p, rest, rfl⟩ := List.exists_cons_of_ne_nil hne
      rw [List.flatMap_cons]
      exact List.append_ne_nil_of_left_ne_nil
        (prefixFree_written.ne_nil p (h.wellFormed p List.mem_cons_self)) _
    · rw [h.written]
      exact Token.inWord_iff.mpr (sections_flatMap_written h.wellFormed)
  exact hword.scans.ofText

/-- A character in quotes of the kind that it is not. -/
def around (c : Char) : Piece := quoted (if c = '"' then '\'' else '"') [c]

theorem wellFormed_around (c : Char) : (around c).WellFormed := by
  by_cases hc : c = '"'
  · subst hc
    exact ⟨by decide, by decide⟩
  · rw [around, if_neg hc]
    exact ⟨by decide, fun hmem => hc (List.mem_singleton.mp hmem).symm⟩

/-- Every text is what some word is unquoted to.  The empty section in front makes a word of the empty
text. -/
theorem exists_of_unquote (text : String) :
    ∃ word pieces, Of word pieces ∧ pieces ≠ [] ∧ unquote word = text := by
  have hpieces : ∀ p ∈ quoted '"' [] :: text.toList.map around, p.WellFormed := by
    rw [List.forall_mem_cons, List.forall_mem_map]
    exact ⟨⟨by decide, List.not_mem_nil⟩, fun c _ => wellFormed_around c⟩
  have hof : Of (String.ofList ((quoted '"' [] :: text.toList.map around).flatMap written))
      (quoted '"' [] :: text.toList.map around) := ⟨hpieces, String.toList_ofList⟩
  refine ⟨_, _, hof, List.cons_ne_nil _ _, ?_⟩
  apply String.toList_inj.mp
  rw [hof.unquote_eq, List.flatMap_cons, List.flatMap_map]
  show text.toList.flatMap (fun c => [c]) = text.toList
  simp

end Piece

/-! ## The words of a line -/

namespace Tokens

/-- The tokens of a line as far as it goes. -/
def toList : Tokens → List Token
  | nil => []
  | unclosed _ => []
  | cons token rest => token :: rest.toList

end Tokens

namespace Token

open Tokens

/-- The scan takes the front of a word as a whole and is left in the quote that is open behind it. -/
theorem scan_modeAt_append {quote : Option Char} {front behind : List Char}
    (h : InWord quote (front ++ behind)) (taken rest : List Char) :
    scan (modeAt quote taken) (front ++ rest) =
      scan (modeAt (openQuote quote front) (front.reverse ++ taken)) rest := by
  induction front generalizing quote taken with
  | nil => rfl
  | cons c front ih =>
    have hopen : openQuote quote (c :: front) = openQuote (openQuote quote [c]) front :=
      openQuote_append quote [c] front
    rw [List.cons_append, scan_modeAt_cons h, ih h.tail, hopen, List.reverse_cons,
      List.append_assoc]
    rfl

/-- Behind the front of a word the scan has the same quote open as the unquoting. -/
theorem scan_front {front behind : List Char} (h : InWord none (front ++ behind)) (hne : front ≠ [])
    (rest : List Char) :
    scan .between (front ++ rest) =
      scan (modeAt (Unquoting.run front).quote front.reverse) rest := by
  obtain ⟨c, front, rfl⟩ := List.exists_cons_of_ne_nil hne
  have hopen : openQuote none (c :: front) = openQuote (openQuote none [c]) front :=
    openQuote_append none [c] front
  obtain ⟨hblank, hsymbol, -⟩ := id h
  have hstart : scan .between (c :: (front ++ rest)) =
      scan (modeAt (openQuote none [c]) [c]) (front ++ rest) :=
    scan_taken rfl hblank hsymbol (front ++ rest)
  rw [List.cons_append, hstart, scan_modeAt_append h.tail, Unquoting.run_eq, hopen,
    List.reverse_cons]

/-- What was taken of a word, where `quote` is open: whatever can follow makes a word of it. -/
def Begins (quote : Option Char) (taken : List Char) : Prop :=
  ∀ chars, InWord quote chars → InWord none (taken.reverse ++ chars)

theorem begins_nil : Begins none [] := fun _ h => h

theorem Begins.cons {quote : Option Char} {taken : List Char} (h : Begins quote taken) {c : Char}
    (hc : ∀ chars, InWord (openQuote quote [c]) chars → InWord quote (c :: chars)) :
    Begins (openQuote quote [c]) (c :: taken) := by
  intro chars hchars
  rw [List.reverse_cons, List.append_assoc]
  exact h _ (hc chars hchars)

theorem begins_modeAt {quote : Option Char} {taken : List Char} (h : Begins quote taken) :
    Begins (modeAt quote taken).quote? (modeAt quote taken).taken := by
  cases quote <;> exact h

/-- The word that a mode is in, if it is closed there, and the words behind it. -/
theorem inWord_of_mem_close {mode : Mode} (hmode : Begins mode.quote? mode.taken) {rest : Tokens}
    {word : String} (h : .word word ∈ (mode.close rest).toList)
    (hrest : .word word ∈ rest.toList → InWord none word.toList) : InWord none word.toList := by
  cases mode with
  | between => exact hrest h
  | word taken =>
    rcases List.mem_cons.mp h with heq | h
    · cases heq
      rw [String.toList_ofList, ← List.append_nil taken.reverse]
      exact hmode [] rfl
    · exact hrest h
  | quoted quote taken => cases h

/-- The words that a scan comes to are well quoted, also in front of a quote that is never closed. -/
theorem inWord_of_mem_scan {mode : Mode} (hmode : Begins mode.quote? mode.taken) {chars : List Char}
    {word : String} (h : .word word ∈ (scan mode chars).toList) : InWord none word.toList := by
  induction chars generalizing mode with
  | nil =>
    have hclose : scan mode [] = mode.close .nil := by cases mode <;> rfl
    rw [hclose] at h
    exact inWord_of_mem_close hmode h nofun
  | cons c rest ih =>
    cases hquote : mode.quote? with
    | some q =>
      obtain ⟨taken, rfl⟩ : ∃ taken, mode = .quoted q taken := by
        cases mode <;> cases hquote
        exact ⟨_, rfl⟩
      rw [scan_quoted] at h
      exact ih (begins_modeAt (Begins.cons hmode fun _ hinside => hinside)) h
    | none =>
      rw [scan_of_not_quoted hquote] at h
      split at h
      · exact inWord_of_mem_close hmode h (@ih .between begins_nil)
      · next hblank =>
        split at h
        · next token htoken =>
          refine inWord_of_mem_close hmode h fun hmem => ?_
          rcases List.mem_cons.mp hmem with heq | hmem
          · exact absurd heq.symm ((text_of_ofSymbol? htoken).2.2 word)
          · exact @ih .between begins_nil hmem
        · next hsymbol =>
          rw [extend_eq_modeAt] at h
          rw [hquote] at hmode
          refine ih (begins_modeAt (hmode.cons fun inside hinside => ?_)) h
          exact ⟨by simpa using hblank, hsymbol, hinside⟩

end Token

open Token (Sections)

/-- A word that a line is cut into falls into pieces in one way, and closes the quotes that it opens where
the scan does.  Unquoting it leaves its pieces without their quotes.  What is in front with its quotes
closed does not change how the rest is unquoted, and every text is what some word is unquoted to. -/
theorem unquote_words :
    (∀ text word : String, .word word ∈ (Tokens.ofText text).toList →
      Unquoting.run word.toList = ⟨none, (unquote word).toList⟩ ∧
      (∃ pieces, Piece.Of word pieces ∧ (unquote word).toList = pieces.flatMap Piece.inside ∧
        ∀ others, Piece.Of word others → others = pieces) ∧
      ∀ front behind rest, word.toList = front ++ behind → front ≠ [] →
        Tokens.scan .between (front ++ rest) =
          Tokens.scan (Token.modeAt (Unquoting.run front).quote front.reverse) rest) ∧
    (∀ front behind : String, Sections (fun c => !isQuote c) front.toList →
      unquote (front ++ behind) = unquote front ++ unquote behind) ∧
    ∀ text : String, ∃ word, Tokens.ofText word = .ofList [.word word] ∧ unquote word = text := by
  refine ⟨fun text word hmem => ?_, fun front behind hfront => ?_, fun text => ?_⟩
  · have hword : Token.InWord none word.toList :=
      @Token.inWord_of_mem_scan .between Token.begins_nil _ _ hmem
    obtain ⟨pieces, hpieces, hwritten⟩ := Piece.exists_of_sections (Token.inWord_iff.mp hword)
    have hof : Piece.Of word pieces := ⟨hpieces, hwritten⟩
    refine ⟨?_, ⟨pieces, hof, hof.unquote_eq, fun others hothers => hothers.unique hof⟩, ?_⟩
    · rw [Unquoting.run_eq, hof.openQuote_eq, unquote, String.toList_ofList]
    · intro front behind rest hsplit hne
      rw [hsplit] at hword
      exact Token.scan_front hword hne rest
  · have hclosed : Tokens.openQuote none front.toList = none :=
      Token.openQuote_eq_none_iff.mpr hfront
    apply String.toList_inj.mp
    rw [unquote, unquote, unquote, String.toList_append, String.toList_append,
      Unquoting.unquoteFrom_append, hclosed]
    simp only [String.toList_ofList]
  · obtain ⟨word, pieces, hof, hne, hunquote⟩ := Piece.exists_of_unquote text
    exact ⟨word, hof.ofText hne, hunquote⟩

/-- Each kind of quote stands in a section of the other kind, and the line does not close its last quote. -/
theorem unquote_words_adjoining :
    let word := "a\"b 'c\"'d\" e'"
    (.word word ∈ (Tokens.ofText "info a\"b 'c\"'d\" e' 'f").toList ∧
      Unquoting.run word.toList = ⟨none, "ab 'cd\" e".toList⟩) ∧
    (∀ rest, Tokens.scan .between ("a\"b".toList ++ rest) =
      Tokens.scan (.quoted '"' "b\"a".toList) rest) ∧
    Sections (fun c => !isQuote c) "a\"b 'c\"".toList ∧
      unquote ("a\"b 'c\"" ++ "'d\" e'") = unquote "a\"b 'c\"" ++ unquote "'d\" e'" := by
  intro word
  have hmem : .word word ∈ (Tokens.ofText "info a\"b 'c\"'d\" e' 'f").toList := by decide +kernel
  have htext : unquote word = "ab 'cd\" e" := by decide +kernel
  have hclosed : Sections (fun c => !isQuote c) "a\"b 'c\"".toList :=
    (@Token.openQuote_eq_none_iff none _).mp (by decide +kernel)
  obtain ⟨hrun, -, hagree⟩ := unquote_words.1 _ word hmem
  rw [htext] at hrun
  refine ⟨⟨hmem, hrun⟩, fun rest => ?_, hclosed, unquote_words.2.1 _ _ hclosed⟩
  exact hagree "a\"b".toList " 'c\"'d\" e'".toList rest (by decide +kernel) (by decide)

end TableStore
