import Mathlib.Data.List.Chain
import Mathlib.Data.List.Induction
import TableStore.Proofs.Statement.Scanning

/-
Lines laid out from tokens.

Tokens are laid out in a line with white space around them, which may be missing except between two words
(`LaidOut`).  Such a line is cut into the tokens again (`LaidOut.scan`), and every line that closes its
quotes is laid out so (`exists_laidOut`): nothing but the white space outside of quotes is lost.
-/
namespace TableStore
namespace Token

open Tokens

/-! ## Sections in quotes -/

/-- Plain characters and sections in quotes, in which everything but the quote that closes them may
stand. -/
inductive Sections (plain : Char → Bool) : List Char → Prop where
  | nil : Sections plain []
  | plain {c : Char} {rest : List Char} (hc : plain c = true) (hrest : Sections plain rest) :
    Sections plain (c :: rest)
  | quoted {quote : Char} {inside rest : List Char} (hquote : isQuote quote = true)
    (hinside : quote ∉ inside) (hrest : Sections plain rest) :
    Sections plain (quote :: (inside ++ quote :: rest))

/-- What may follow where `quote` is open: the rest of its section, and sections behind it. -/
def SectionsFrom (plain : Char → Bool) : Option Char → List Char → Prop
  | none, chars => Sections plain chars
  | some quote, chars =>
    ∃ inside rest, chars = inside ++ quote :: rest ∧ quote ∉ inside ∧ Sections plain rest

section

variable {plain : Char → Bool}

theorem sectionsFrom_nil_iff {quote : Option Char} : SectionsFrom plain quote [] ↔ quote = none := by
  cases quote with
  | none => exact ⟨fun _ => rfl, fun _ => .nil⟩
  | some q =>
    refine ⟨fun h => ?_, nofun⟩
    obtain ⟨inside, rest, htext, -⟩ := h
    cases inside <;> cases htext

theorem sectionsFrom_some_cons_iff {quote c : Char} {rest : List Char} :
    SectionsFrom plain (some quote) (c :: rest) ↔
      SectionsFrom plain (if c = quote then none else some quote) rest := by
  constructor
  · intro h
    obtain ⟨inside, behind, htext, hinside, hbehind⟩ := h
    cases inside with
    | nil =>
      obtain ⟨rfl, rfl⟩ := List.cons.inj htext
      rw [if_pos rfl]
      exact hbehind
    | cons d inside =>
      obtain ⟨rfl, rfl⟩ := List.cons.inj htext
      obtain ⟨hne, hinside⟩ := List.ne_and_not_mem_of_not_mem_cons hinside
      rw [if_neg (Ne.symm hne)]
      exact ⟨inside, behind, rfl, hinside, hbehind⟩
  · intro h
    by_cases hc : c = quote
    · rw [if_pos hc] at h
      subst hc
      exact ⟨[], rest, rfl, List.not_mem_nil, h⟩
    · rw [if_neg hc] at h
      obtain ⟨inside, behind, rfl, hinside, hbehind⟩ := h
      refine ⟨c :: inside, behind, rfl, ?_, hbehind⟩
      exact List.not_mem_cons_of_ne_of_not_mem (Ne.symm hc) hinside

theorem sectionsFrom_none_cons_iff (hplain : ∀ c, plain c = true → isQuote c = false) {c : Char}
    {rest : List Char} :
    SectionsFrom plain none (c :: rest) ↔
      (isQuote c = true ∨ plain c = true) ∧
        SectionsFrom plain (if isQuote c then some c else none) rest := by
  constructor
  · intro h
    cases h with
    | plain hc hrest =>
      rw [hplain c hc]
      exact ⟨.inr hc, hrest⟩
    | quoted hquote hinside hrest =>
      rw [if_pos hquote]
      exact ⟨.inl hquote, _, _, rfl, hinside, hrest⟩
  · intro h
    obtain ⟨hc, hrest⟩ := h
    by_cases hquote : isQuote c = true
    · rw [if_pos hquote] at hrest
      obtain ⟨inside, behind, rfl, hinside, hbehind⟩ := hrest
      exact .quoted hquote hinside hbehind
    · rw [if_neg hquote] at hrest
      exact .plain (hc.resolve_left hquote) hrest

end

theorem isBare_iff {c : Char} :
    isBare c = true ↔ (Text.isBlank c = false ∧ ofSymbol? c = none) ∧ isQuote c = false := by
  simp [isBare]

theorem of_isQuote {c : Char} (h : isQuote c = true) :
    Text.isBlank c = false ∧ ofSymbol? c = none := by
  constructor
  · rw [Bool.eq_false_iff]
    intro hblank
    rw [isQuote_of_isBlank hblank] at h
    cases h
  · rw [Option.eq_none_iff_forall_ne_some]
    intro token htoken
    rw [isQuote_of_ofSymbol? htoken] at h
    cases h

theorem isQuote_or_isBare_iff {c : Char} :
    isQuote c = true ∨ isBare c = true ↔ Text.isBlank c = false ∧ ofSymbol? c = none := by
  rw [isBare_iff]
  constructor
  · intro h
    rcases h with hquote | hbare
    · exact of_isQuote hquote
    · exact hbare.1
  · intro h
    cases hquote : isQuote c with
    | true => exact .inl rfl
    | false => exact .inr ⟨h, rfl⟩

theorem inWord_iff {quote : Option Char} {chars : List Char} :
    InWord quote chars ↔ SectionsFrom isBare quote chars := by
  have hplain : ∀ c, isBare c = true → isQuote c = false := fun c hc => (isBare_iff.mp hc).2
  induction chars generalizing quote with
  | nil =>
    rw [sectionsFrom_nil_iff]
    cases quote <;> rfl
  | cons c rest ih =>
    cases quote with
    | some q =>
      rw [sectionsFrom_some_cons_iff, InWord]
      exact ih
    | none =>
      rw [sectionsFrom_none_cons_iff hplain, isQuote_or_isBare_iff, InWord, and_assoc]
      exact and_congr_right' (and_congr_right' ih)

theorem openQuote_eq_none_iff {quote : Option Char} {chars : List Char} :
    openQuote quote chars = none ↔ SectionsFrom (fun c => !isQuote c) quote chars := by
  have hplain : ∀ c, (!isQuote c) = true → isQuote c = false := by simp
  induction chars generalizing quote with
  | nil => rw [sectionsFrom_nil_iff, openQuote]
  | cons c rest ih =>
    cases quote with
    | some q =>
      rw [sectionsFrom_some_cons_iff, openQuote]
      exact ih
    | none =>
      have hstart : isQuote c = true ∨ (!isQuote c) = true := by cases isQuote c <;> simp
      rw [sectionsFrom_none_cons_iff hplain, openQuote, and_iff_right hstart]
      exact ih

theorem openQuote_append (quote : Option Char) (front behind : List Char) :
    openQuote quote (front ++ behind) = openQuote (openQuote quote front) behind := by
  induction front generalizing quote with
  | nil => rfl
  | cons c rest ih => cases quote <;> rw [List.cons_append, openQuote, openQuote, ih]

theorem openQuote_of_not_mem {quote : Char} {chars : List Char} (h : quote ∉ chars) :
    openQuote (some quote) chars = some quote := by
  induction chars with
  | nil => rfl
  | cons c rest ih =>
    obtain ⟨hc, hrest⟩ := List.ne_and_not_mem_of_not_mem_cons h
    rw [openQuote, if_neg (Ne.symm hc), ih hrest]

/-- The quote that is open at the end of a text was opened outside of quotes, and is not in what
follows. -/
theorem openQuote_eq_some_iff {quote : Char} {chars : List Char} :
    openQuote none chars = some quote ↔
      ∃ before after, chars = before ++ quote :: after ∧ isQuote quote = true ∧
        Sections (fun c => !isQuote c) before ∧ quote ∉ after := by
  constructor
  · intro h
    induction chars using List.reverseRecOn with
    | nil => cases h
    | append_singleton chars c ih =>
      rw [openQuote_append] at h
      cases hopen : openQuote none chars with
      | none =>
        rw [hopen, openQuote, openQuote] at h
        split at h
        · next hquote =>
          cases h
          exact ⟨chars, [], rfl, hquote, openQuote_eq_none_iff.mp hopen, List.not_mem_nil⟩
        · cases h
      | some q =>
        rw [hopen, openQuote, openQuote] at h
        split at h
        · cases h
        · next hc =>
          cases h
          obtain ⟨before, after, rfl, hquote, hbefore, hafter⟩ := ih hopen
          refine ⟨before, after ++ [c], by simp, hquote, hbefore, ?_⟩
          simpa [hafter] using Ne.symm hc
  · rintro ⟨before, after, rfl, hquote, hbefore, hafter⟩
    have hclosed : openQuote none before = none := openQuote_eq_none_iff.mpr hbefore
    rw [openQuote_append, hclosed, openQuote, if_pos hquote, openQuote_of_not_mem hafter]

/-! ## Layouts -/

/-- A token that a line can hold: a word is not empty, and it holds white space and symbols in quotes
only. -/
def WellFormed : Token → Prop
  | word text => text.toList ≠ [] ∧ Sections isBare text.toList
  | _ => True

/-- Tokens with white space in front of all of them and behind each of them. -/
def layOut (front : List Char) (pieces : List (Token × List Char)) : List Char :=
  front ++ pieces.flatMap fun piece => piece.1.text.toList ++ piece.2

/-- The tokens can stand in a line, only white space is around them, and some is between two words. -/
structure LaidOut (front : List Char) (pieces : List (Token × List Char)) : Prop where
  front : ∀ c ∈ front, Text.isBlank c = true
  gaps : ∀ piece ∈ pieces, ∀ c ∈ piece.2, Text.isBlank c = true
  tokens : ∀ piece ∈ pieces, piece.1.WellFormed
  apart : pieces.IsChain fun a b => ∀ v w, a.1 = .word v → b.1 = .word w → a.2 ≠ []

theorem layOut_cons (front gap : List Char) (token : Token) (pieces : List (Token × List Char)) :
    layOut front ((token, gap) :: pieces) = front ++ (token.text.toList ++ layOut gap pieces) := by
  rw [layOut, layOut, List.flatMap_cons, List.append_assoc]

theorem isWord_of_wellFormed {text : String} (h : (Token.word text).WellFormed) : IsWord text :=
  ⟨h.1, inWord_iff.mpr h.2⟩

/-- What is not a word is written as one character. -/
theorem symbol_of_not_word {token : Token} (h : ∀ w, token ≠ .word w) :
    ∃ c, token.text.toList = [c] ∧ ofSymbol? c = some token := by
  cases token with
  | word w => exact absurd rfl (h w)
  | openParen => exact ⟨'(', rfl, rfl⟩
  | closeParen => exact ⟨')', rfl, rfl⟩
  | comma => exact ⟨',', rfl, rfl⟩
  | equal => exact ⟨'=', rfl, rfl⟩

theorem text_of_ofSymbol? {c : Char} {token : Token} (h : ofSymbol? c = some token) :
    token.text.toList = [c] ∧ token.WellFormed ∧ ∀ w, token ≠ .word w := by
  unfold ofSymbol? at h
  split at h <;> cases h <;> exact ⟨rfl, trivial, nofun⟩

namespace LaidOut

variable {front gap : List Char} {token : Token} {pieces : List (Token × List Char)}

theorem of_cons (h : LaidOut front ((token, gap) :: pieces)) : LaidOut gap pieces where
  front := h.gaps _ List.mem_cons_self
  gaps piece hpiece := h.gaps piece (List.mem_cons_of_mem _ hpiece)
  tokens piece hpiece := h.tokens piece (List.mem_cons_of_mem _ hpiece)
  apart := h.apart.tail

/-- What stands behind a word ends it. -/
theorem ends {w : String} (h : LaidOut front ((.word w, gap) :: pieces)) :
    Ends (layOut gap pieces) := by
  cases gap with
  | cons c gap => exact ends_cons (.inl (h.of_cons.front c List.mem_cons_self)) _
  | nil =>
    cases pieces with
    | nil => exact ends_nil
    | cons piece pieces =>
      obtain ⟨token, gap⟩ := piece
      have hnext : ∀ v, token ≠ .word v := fun v heq =>
        (List.isChain_cons_cons.mp h.apart).1 w v rfl heq rfl
      obtain ⟨c, htext, hsymbol⟩ := symbol_of_not_word hnext
      have hends : (ofSymbol? c).isSome = true := by rw [hsymbol, Option.isSome_some]
      rw [layOut_cons, List.nil_append, htext]
      exact ends_cons (.inr hends) _

/-- A token can be laid out in front of others where they end it. -/
theorem cons (hfront : ∀ c ∈ front, Text.isBlank c = true) (htoken : token.WellFormed)
    (h : LaidOut gap pieces) (hends : ∀ w, token = .word w → Ends (layOut gap pieces)) :
    LaidOut front ((token, gap) :: pieces) where
  front := hfront
  gaps := List.forall_mem_cons.mpr ⟨h.front, h.gaps⟩
  tokens := List.forall_mem_cons.mpr ⟨htoken, h.tokens⟩
  apart := by
    cases pieces with
    | nil => exact .singleton _
    | cons piece pieces =>
      obtain ⟨next, behind⟩ := piece
      refine List.isChain_cons_cons.mpr ⟨fun v w hv hw hgap => ?_, h.apart⟩
      obtain rfl : gap = [] := hgap
      obtain rfl : next = .word w := hw
      -- The first character of a word does not end the one in front.
      obtain ⟨hne, hword⟩ := isWord_of_wellFormed (h.tokens _ List.mem_cons_self)
      obtain ⟨c, rest, htext⟩ := List.exists_cons_of_ne_nil hne
      rw [htext] at hword
      obtain ⟨hblank, hsymbol, -⟩ := hword
      have hhead : (layOut [] ((.word w, behind) :: pieces)).head? = some c := by
        rw [layOut_cons, List.nil_append, text, htext]
        rfl
      rcases hends v hv c hhead with hends | hends
      · rw [hblank] at hends
        cases hends
      · rw [hsymbol] at hends
        cases hends

end LaidOut

/-! ## From the layout to the tokens -/

theorem scan_blanks {gap : List Char} (h : ∀ c ∈ gap, Text.isBlank c = true) (rest : List Char) :
    scan .between (gap ++ rest) = scan .between rest := by
  induction gap with
  | nil => rfl
  | cons c gap ih =>
    obtain ⟨hc, hgap⟩ := List.forall_mem_cons.mp h
    rw [List.cons_append, scan_blank hc, ih hgap]

/-- A line that is laid out is cut into its tokens. -/
theorem LaidOut.scan {front : List Char} {pieces : List (Token × List Char)}
    (h : LaidOut front pieces) :
    Tokens.scan .between (layOut front pieces) = ofList (pieces.map (·.1)) := by
  induction pieces generalizing front with
  | nil => exact scan_blanks h.front []
  | cons piece pieces ih =>
    obtain ⟨token, gap⟩ := piece
    rw [layOut_cons, scan_blanks h.front, List.map_cons, ofList_cons, ← ih h.of_cons]
    by_cases hword : ∃ w, token = .word w
    · obtain ⟨w, rfl⟩ := hword
      exact (isWord_of_wellFormed (h.tokens _ List.mem_cons_self)).scans _ h.ends
    · obtain ⟨c, htext, hsymbol⟩ := symbol_of_not_word (not_exists.mp hword)
      rw [htext]
      exact scan_symbol hsymbol _

/-! ## From the tokens to the layout -/

theorem cons_eq_ofList {token : Token} {rest : Tokens} {tokens : List Token}
    (h : Tokens.cons token rest = ofList tokens) :
    ∃ later, tokens = token :: later ∧ rest = ofList later := by
  cases tokens with
  | nil => cases h
  | cons first later =>
    rw [ofList_cons] at h
    cases h
    exact ⟨later, rfl, rfl⟩

/-- The text goes to the end of a word first, which has `taken` in front, and then to the later tokens. -/
def WordFirst (quote : Option Char) (taken chars : List Char) (tokens : List Token) : Prop :=
  ∃ inside rest later, chars = inside ++ rest ∧ InWord quote inside ∧ Ends rest ∧
    tokens = .word (String.ofList (taken.reverse ++ inside)) :: later ∧
    scan .between rest = ofList later

theorem WordFirst.of_ends {taken chars : List Char} {tokens : List Token} (hends : Ends chars)
    (h : scan (.word taken) chars = ofList tokens) : WordFirst none taken chars tokens := by
  rw [scan_of_ends taken hends] at h
  obtain ⟨later, htokens, hlater⟩ := cons_eq_ofList h
  refine ⟨[], chars, later, rfl, rfl, hends, ?_, hlater⟩
  rw [List.append_nil]
  exact htokens

theorem WordFirst.cons {quote quote' : Option Char} {c : Char} {taken chars : List Char}
    {tokens : List Token} (h : WordFirst quote' (c :: taken) chars tokens)
    (hword : ∀ inside, InWord quote' inside → InWord quote (c :: inside)) :
    WordFirst quote taken (c :: chars) tokens := by
  obtain ⟨inside, rest, later, rfl, hinside, hends, htokens, hlater⟩ := h
  refine ⟨c :: inside, rest, later, rfl, hword inside hinside, hends, ?_, hlater⟩
  rw [htokens, List.reverse_cons, List.append_assoc]
  rfl

/-- A scan that is in a word and comes to tokens goes to the end of the word first. -/
theorem wordFirst_of_scan {quote : Option Char} {taken chars : List Char} {tokens : List Token}
    (h : scan (modeAt quote taken) chars = ofList tokens) : WordFirst quote taken chars tokens := by
  induction chars generalizing quote taken with
  | nil =>
    cases quote with
    | some q => cases tokens <;> cases h
    | none => exact .of_ends ends_nil h
  | cons c chars ih =>
    cases quote with
    | some q =>
      have hnext : scan (modeAt (some q) taken) (c :: chars) =
          scan (modeAt (if c = q then none else some q) (c :: taken)) chars :=
        scan_quoted q c taken chars
      rw [hnext] at h
      exact (ih h).cons fun inside hinside => hinside
    | none =>
      by_cases hends : Text.isBlank c = true ∨ (ofSymbol? c).isSome = true
      · exact .of_ends (ends_cons hends chars) h
      · obtain ⟨hblank, hsymbol⟩ : Text.isBlank c = false ∧ ofSymbol? c = none := by
          simpa using hends
        have hnext : scan (modeAt none taken) (c :: chars) = _ :=
          scan_taken rfl hblank hsymbol chars
        rw [hnext] at h
        exact (ih h).cons fun inside hinside => ⟨hblank, hsymbol, hinside⟩

/-- A line that is cut into tokens is laid out from them. -/
theorem exists_laidOut {chars : List Char} {tokens : List Token}
    (h : scan .between chars = ofList tokens) :
    ∃ front pieces, LaidOut front pieces ∧ pieces.map (·.1) = tokens ∧
      chars = layOut front pieces := by
  -- A word takes several characters at once, so the induction is on the length of the line.
  induction hlength : chars.length using Nat.strong_induction_on generalizing chars tokens with
  | _ length ih =>
    subst hlength
    cases chars with
    | nil =>
      refine ⟨[], [], ⟨nofun, nofun, nofun, .nil⟩, ?_, rfl⟩
      exact ofList_inj.mp h
    | cons c chars =>
      by_cases hblank : Text.isBlank c = true
      · rw [scan_blank hblank] at h
        obtain ⟨front, pieces, hlaid, htokens, rfl⟩ := ih _ (Nat.lt_succ_self _) h rfl
        refine ⟨c :: front, pieces, ?_, htokens, rfl⟩
        exact ⟨List.forall_mem_cons.mpr ⟨hblank, hlaid.front⟩, hlaid.gaps, hlaid.tokens,
          hlaid.apart⟩
      have hblank : Text.isBlank c = false := by simpa using hblank
      cases hsymbol : ofSymbol? c with
      | some token =>
        rw [scan_symbol hsymbol] at h
        obtain ⟨later, rfl, hlater⟩ := cons_eq_ofList h
        obtain ⟨gap, pieces, hlaid, rfl, rfl⟩ := ih _ (Nat.lt_succ_self _) hlater rfl
        obtain ⟨htext, htoken, hnot⟩ := text_of_ofSymbol? hsymbol
        refine ⟨[], (token, gap) :: pieces, hlaid.cons nofun htoken ?_, rfl, ?_⟩
        · exact fun w heq => absurd heq (hnot w)
        · rw [layOut_cons, htext]
          rfl
      | none =>
        rw [scan_taken rfl hblank hsymbol] at h
        obtain ⟨inside, rest, later, rfl, hinside, hends, rfl, hlater⟩ := wordFirst_of_scan h
        have hshorter : rest.length < (c :: (inside ++ rest)).length := by
          rw [List.length_cons, List.length_append]
          omega
        obtain ⟨gap, pieces, hlaid, rfl, rfl⟩ := ih _ hshorter hlater rfl
        have htext : (String.ofList (c :: inside)).toList = c :: inside := String.toList_ofList
        have hword : InWord none (c :: inside) := ⟨hblank, hsymbol, hinside⟩
        have htoken : (Token.word (String.ofList (c :: inside))).WellFormed := by
          rw [WellFormed, htext]
          exact ⟨List.cons_ne_nil _ _, inWord_iff.mp hword⟩
        refine ⟨[], (.word (String.ofList (c :: inside)), gap) :: pieces, ?_, rfl, ?_⟩
        · exact hlaid.cons nofun htoken fun _ _ => hends
        · rw [layOut_cons, text, htext]
          rfl

end Token

open Token (LaidOut layOut Sections)

/-- A line has these tokens if and only if it is laid out from them with white space.  It has no tokens
if and only if a quote that stands outside of quotes is never closed. -/
theorem tokens_laid_out (text : String) :
    (∀ tokens, Tokens.ofText text = .ofList tokens ↔
      ∃ front pieces, LaidOut front pieces ∧ pieces.map (·.1) = tokens ∧
        text.toList = layOut front pieces) ∧
    ((∀ tokens, Tokens.ofText text ≠ .ofList tokens) ↔
      ∃ before quote after, text.toList = before ++ quote :: after ∧ isQuote quote = true ∧
        Sections (fun c => !isQuote c) before ∧ quote ∉ after) := by
  constructor
  · intro tokens
    constructor
    · exact Token.exists_laidOut
    · rintro ⟨front, pieces, h, rfl, htext⟩
      rw [Tokens.ofText, htext]
      exact h.scan
  · have hfails : (∀ tokens, Tokens.ofText text ≠ .ofList tokens) ↔
        ∃ quote, Tokens.openQuote none text.toList = some quote := by
      rw [← Option.ne_none_iff_exists', Ne, ← Tokens.ofText_eq_ofList, not_exists]
    rw [hfails]
    constructor
    · rintro ⟨quote, hopen⟩
      obtain ⟨before, after, h⟩ := Token.openQuote_eq_some_iff.mp hopen
      exact ⟨before, quote, after, h⟩
    · rintro ⟨before, quote, after, h⟩
      exact ⟨quote, Token.openQuote_eq_some_iff.mpr ⟨before, after, h⟩⟩

/-- White space and symbols in quotes are part of a word, and words next to symbols need no blank. -/
example : Tokens.ofText "where note='a, (b)' " =
    .ofList [.word "where", .word "note", .equal, .word "'a, (b)'"] := by decide +kernel

end TableStore
