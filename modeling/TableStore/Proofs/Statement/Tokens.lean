import TableStore.Token

/-
Lines as lists of tokens.

A line has a list of tokens unless it ends with a quote open, and whether one is open is a matter of
its characters alone: `Tokens.ofText_eq_ofList`.
-/
namespace TableStore
namespace Tokens

/-- Tokens in front of others. -/
def prepend (front : List Token) (rest : Tokens) : Tokens := front.foldr cons rest

def ofList (tokens : List Token) : Tokens := prepend tokens nil

@[simp] theorem prepend_nil (rest : Tokens) : prepend [] rest = rest := rfl

@[simp] theorem prepend_cons (token : Token) (front : List Token) (rest : Tokens) :
    prepend (token :: front) rest = cons token (prepend front rest) := rfl

@[simp] theorem ofList_nil : ofList [] = nil := rfl

@[simp] theorem ofList_cons (token : Token) (tokens : List Token) :
    ofList (token :: tokens) = cons token (ofList tokens) := rfl

theorem ofList_inj {ts us : List Token} : ofList ts = ofList us ↔ ts = us := by
  induction ts generalizing us with
  | nil => cases us <;> simp
  | cons t ts ih => cases us <;> simp [ih]

/-- A line that closes its quotes is a list of tokens. -/
theorem unclosed?_eq_none {tokens : Tokens} :
    tokens.unclosed? = none ↔ ∃ ts, tokens = ofList ts := by
  induction tokens with
  | nil => exact ⟨fun _ => ⟨[], rfl⟩, fun _ => rfl⟩
  | unclosed word =>
    refine ⟨nofun, ?_⟩
    rintro ⟨_ | ⟨t, ts⟩, h⟩ <;> cases h
  | cons token rest ih =>
    refine ih.trans ⟨?_, ?_⟩
    · rintro ⟨ts, rfl⟩
      exact ⟨token :: ts, rfl⟩
    · rintro ⟨_ | ⟨t, ts⟩, h⟩
      · cases h
      · cases h
        exact ⟨ts, rfl⟩

/-! ## Open quotes -/

/-- The quote that is open behind a text, if `quote` is open in front of it.  A quote opens outside of
quotes only, and only its like closes it. -/
def openQuote (quote : Option Char) : List Char → Option Char
  | [] => quote
  | c :: rest =>
    match quote with
    | some q => openQuote (if c = q then none else some q) rest
    | none => openQuote (if isQuote c then some c else none) rest

namespace Mode

def quote? : Mode → Option Char
  | quoted quote _ => some quote
  | _ => none

theorem unclosed?_close {mode : Mode} (h : mode.quote? = none) (rest : Tokens) :
    (mode.close rest).unclosed? = rest.unclosed? := by
  cases mode with
  | between => rfl
  | word taken => rfl
  | quoted quote taken => cases h

theorem quote?_extend (mode : Mode) (c : Char) :
    (mode.extend c).quote? = if isQuote c then some c else none := by
  unfold extend
  split <;> rfl

end Mode

theorem scan_of_not_quoted {mode : Mode} (h : mode.quote? = none) (c : Char) (rest : List Char) :
    scan mode (c :: rest) =
      if Text.isBlank c then mode.close (scan .between rest)
      else match Token.ofSymbol? c with
        | some token => mode.close (cons token (scan .between rest))
        | none => scan (mode.extend c) rest := by
  cases mode with
  | between => rfl
  | word taken => rfl
  | quoted quote taken => cases h

theorem isQuote_of_isBlank {c : Char} (h : Text.isBlank c = true) : isQuote c = false := by
  rw [Bool.eq_false_iff]
  intro hquote
  rcases (by simpa [isQuote] using hquote : c = '"' ∨ c = '\'') with rfl | rfl <;>
    exact absurd h (by decide)

theorem isQuote_of_ofSymbol? {c : Char} {token : Token} (h : Token.ofSymbol? c = some token) :
    isQuote c = false := by
  unfold Token.ofSymbol? at h
  split at h <;> first | decide | cases h

/-- The scan of a line fails exactly if a quote is open at its end. -/
theorem unclosed?_scan (mode : Mode) (text : List Char) :
    (scan mode text).unclosed? = none ↔ openQuote mode.quote? text = none := by
  induction text generalizing mode with
  | nil => cases mode <;> simp [scan, Mode.close, unclosed?, openQuote, Mode.quote?]
  | cons c rest ih =>
    cases hmode : mode.quote? with
    | some quote =>
      obtain ⟨taken, rfl⟩ : ∃ taken, mode = .quoted quote taken := by
        cases mode with
        | between => cases hmode
        | word taken => cases hmode
        | quoted _ taken => exact ⟨taken, by cases hmode; rfl⟩
      rw [scan, ih, openQuote]
      split <;> rfl
    | none =>
      rw [scan_of_not_quoted hmode, openQuote]
      split
      · rename_i hblank
        rw [Mode.unclosed?_close hmode, ih, isQuote_of_isBlank hblank]
        rfl
      · split
        · rename_i token htoken
          rw [Mode.unclosed?_close hmode, isQuote_of_ofSymbol? htoken]
          exact ih .between
        · rw [ih, Mode.quote?_extend]

theorem ofText_eq_ofList {text : String} :
    (∃ ts, ofText text = ofList ts) ↔ openQuote none text.toList = none := by
  rw [← unclosed?_eq_none]
  exact unclosed?_scan .between text.toList

end Tokens
end TableStore
