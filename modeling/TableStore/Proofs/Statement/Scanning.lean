import TableStore.Proofs.Statement.Steps

/-
Texts that are cut into given tokens.

A word goes on until white space or a symbol follows it outside of quotes.  So what a piece of text
is cut into is said of the piece in front of everything that ends a word (`Token.Scans`), and
longer texts are put together from pieces: with a blank between any two of them (`Spaced.scans`),
or as words in parentheses (`Scans.listed`).
-/
namespace TableStore
namespace Token

open Tokens

/-! ## Words -/

/-- The characters from some place in a word on, where `quote` is open: white space and symbols
stand inside of quotes only, and the quotes are closed at the end. -/
def InWord : Option Char → List Char → Prop
  | quote, [] => quote = none
  | some q, c :: rest => InWord (if c = q then none else some q) rest
  | none, c :: rest =>
    Text.isBlank c = false ∧ ofSymbol? c = none ∧ InWord (if isQuote c then some c else none) rest

/-- A text that can be a word. -/
structure IsWord (written : String) : Prop where
  ne_nil : written.toList ≠ []
  inWord : InWord none written.toList

/-- A text that ends a word in front of it. -/
def Ends (rest : List Char) : Prop :=
  ∀ c, rest.head? = some c → Text.isBlank c = true ∨ (ofSymbol? c).isSome = true

theorem ends_nil : Ends [] := by
  intro c h
  cases h

theorem ends_cons {c : Char} (h : Text.isBlank c = true ∨ (ofSymbol? c).isSome = true)
    (rest : List Char) : Ends (c :: rest) := by
  intro d hd
  cases hd
  exact h

/-- Characters that are in a word wherever they stand. -/
def isBare (c : Char) : Bool := !Text.isBlank c && (ofSymbol? c).isNone && !isQuote c

theorem inWord_of_bare {chars : List Char} (h : chars.all isBare = true) : InWord none chars := by
  induction chars with
  | nil => rfl
  | cons c rest ih =>
    rw [List.all_cons, Bool.and_eq_true] at h
    obtain ⟨⟨hblank, hsymbol⟩, hquote⟩ : (Text.isBlank c = false ∧ ofSymbol? c = none) ∧
        isQuote c = false := by
      simpa [isBare] using h.1
    refine ⟨hblank, hsymbol, ?_⟩
    rw [hquote]
    exact ih h.2

theorem isWord_of_bare {word : String} (h : word.toList ≠ [] ∧ word.toList.all isBare = true) :
    IsWord word :=
  ⟨h.1, inWord_of_bare h.2⟩

/-- A section that `quote` is open in front of, up to the character that closes it. -/
theorem inWord_of_section {quote : Char} {inside : List Char} (h : quote ∉ inside) :
    InWord (some quote) (inside ++ [quote]) := by
  induction inside with
  | nil =>
    rw [List.nil_append, InWord, if_pos rfl]
    rfl
  | cons c rest ih =>
    rw [List.mem_cons, not_or] at h
    rw [List.cons_append, InWord, if_neg (Ne.symm h.1)]
    exact ih h.2

/-- The mode in a word, where `quote` is open. -/
def modeAt (quote : Option Char) (taken : List Char) : Mode :=
  match quote with
  | none => .word taken
  | some q => .quoted q taken

theorem extend_eq_modeAt (mode : Mode) (c : Char) :
    mode.extend c = modeAt (if isQuote c then some c else none) (c :: mode.taken) := by
  unfold Mode.extend
  split <;> rfl

/-- Outside of quotes a character that ends no word is taken. -/
theorem scan_taken {mode : Mode} (hmode : mode.quote? = none) {c : Char}
    (hblank : Text.isBlank c = false) (hsymbol : ofSymbol? c = none) (rest : List Char) :
    scan mode (c :: rest) =
      scan (modeAt (if isQuote c then some c else none) (c :: mode.taken)) rest := by
  rw [scan_of_not_quoted hmode, if_neg (by simp [hblank]), hsymbol]
  exact congrArg (scan · rest) (extend_eq_modeAt mode c)

/-- In quotes every character is taken, and one like the quote ends the section. -/
theorem scan_quoted (quote c : Char) (taken rest : List Char) :
    scan (.quoted quote taken) (c :: rest) =
      scan (modeAt (if c = quote then none else some quote) (c :: taken)) rest := by
  rw [scan]
  split <;> rfl

theorem InWord.tail {quote : Option Char} {c : Char} {chars : List Char}
    (h : InWord quote (c :: chars)) : InWord (openQuote quote [c]) chars := by
  cases quote with
  | some q => exact h
  | none => exact h.2.2

/-- The scan takes the next character of a word, wherever in the word that is. -/
theorem scan_modeAt_cons {quote : Option Char} {c : Char} {chars : List Char}
    (h : InWord quote (c :: chars)) (taken rest : List Char) :
    scan (modeAt quote taken) (c :: rest) =
      scan (modeAt (openQuote quote [c]) (c :: taken)) rest := by
  cases quote with
  | some q => exact scan_quoted q c taken rest
  | none =>
    obtain ⟨hblank, hsymbol, -⟩ := h
    show scan (.word taken) (c :: rest) = _
    exact scan_taken rfl hblank hsymbol rest

theorem scan_blank {c : Char} (h : Text.isBlank c = true) (rest : List Char) :
    scan .between (c :: rest) = scan .between rest := by
  rw [scan_of_not_quoted rfl, if_pos h]
  rfl

theorem scan_symbol {c : Char} {token : Token} (h : ofSymbol? c = some token) (rest : List Char) :
    scan .between (c :: rest) = cons token (scan .between rest) := by
  have hblank : Text.isBlank c = false := by
    unfold ofSymbol? at h
    split at h <;> first | decide | cases h
  rw [scan_of_not_quoted rfl, if_neg (by simp [hblank]), h]
  rfl

/-- What ends a word is scanned as if there had been none. -/
theorem scan_of_ends (taken : List Char) {rest : List Char} (h : Ends rest) :
    scan (.word taken) rest =
      cons (.word (String.ofList taken.reverse)) (scan .between rest) := by
  cases rest with
  | nil => rfl
  | cons c rest =>
    rw [scan_of_not_quoted rfl]
    cases hblank : Text.isBlank c with
    | true =>
      rw [if_pos rfl, scan_blank hblank]
      rfl
    | false =>
      have hsymbol := (h c rfl).resolve_left (by simp [hblank])
      obtain ⟨token, htoken⟩ := Option.isSome_iff_exists.mp hsymbol
      rw [if_neg (by decide), htoken, scan_symbol htoken]
      rfl

/-- The scan of a word goes to its end, whatever was taken of the word before. -/
theorem scan_inWord {quote : Option Char} {chars : List Char} (h : InWord quote chars)
    (taken : List Char) {rest : List Char} (hrest : Ends rest) :
    scan (modeAt quote taken) (chars ++ rest) =
      cons (.word (String.ofList (taken.reverse ++ chars))) (scan .between rest) := by
  induction chars generalizing quote taken with
  | nil =>
    obtain rfl : quote = none := by cases quote <;> exact h
    rw [List.append_nil]
    exact scan_of_ends taken hrest
  | cons c chars ih =>
    have hmoved : taken.reverse ++ c :: chars = (c :: taken).reverse ++ chars := by simp
    rw [hmoved, List.cons_append, scan_modeAt_cons h, ih h.tail]

/-! ## Pieces of a line -/

/-- In front of anything that ends a word, the text is cut into these tokens. -/
def Scans (written : List Char) (tokens : List Token) : Prop :=
  ∀ rest, Ends rest → scan .between (written ++ rest) = prepend tokens (scan .between rest)

theorem prepend_append (front behind : List Token) (rest : Tokens) :
    prepend (front ++ behind) rest = prepend front (prepend behind rest) := by
  rw [prepend, List.foldr_append]
  rfl

theorem IsWord.scans {written : String} (h : IsWord written) :
    Scans written.toList [.word written] := by
  intro rest hrest
  obtain ⟨hne, hchars⟩ := h
  cases htext : written.toList with
  | nil => exact absurd htext hne
  | cons c chars =>
    rw [htext] at hchars
    obtain ⟨hblank, hsymbol, hchars⟩ := hchars
    have hstart : scan .between (c :: (chars ++ rest)) =
        scan (modeAt (if isQuote c then some c else none) [c]) (chars ++ rest) :=
      scan_taken rfl hblank hsymbol _
    have hword : String.ofList ([c].reverse ++ chars) = written := by
      rw [List.reverse_singleton, List.singleton_append, ← htext, String.ofList_toList]
    rw [List.cons_append, hstart, scan_inWord hchars [c] hrest, hword]
    rfl

theorem Scans.nil : Scans [] [] := fun _ _ => rfl

theorem Scans.ofText {written : String} {tokens : List Token} (h : Scans written.toList tokens) :
    Tokens.ofText written = ofList tokens := by
  have hscan := h [] ends_nil
  rwa [List.append_nil] at hscan

/-- Two pieces with a blank between them are cut one after the other. -/
theorem Scans.blank {front behind : List Char} {ts us : List Token} (hfront : Scans front ts)
    (hbehind : Scans behind us) : Scans (front ++ ' ' :: behind) (ts ++ us) := by
  intro rest hrest
  have hblank : Text.isBlank ' ' = true := by decide
  rw [List.append_assoc, List.cons_append, hfront _ (ends_cons (.inl hblank) _), scan_blank hblank,
    hbehind rest hrest, prepend_append]

/-- So are two pieces with a symbol between them, and the symbol is a token. -/
theorem Scans.symbol {front behind : List Char} {ts us : List Token} (hfront : Scans front ts)
    {c : Char} {token : Token} (h : ofSymbol? c = some token) (hbehind : Scans behind us) :
    Scans (front ++ c :: behind) (ts ++ token :: us) := by
  intro rest hrest
  have hends : (ofSymbol? c).isSome = true := by rw [h, Option.isSome_some]
  rw [List.append_assoc, List.cons_append, hfront _ (ends_cons (.inr hends) _), scan_symbol h,
    hbehind rest hrest, prepend_append, prepend_cons]

/-- The tokens of pieces that stand in a line with blanks between them. -/
inductive Spaced : List String → List Token → Prop where
  | nil : Spaced [] []
  | cons {piece : String} {pieces : List String} {ts us : List Token}
      (hpiece : Scans piece.toList ts) (hpieces : Spaced pieces us) :
    Spaced (piece :: pieces) (ts ++ us)

namespace Spaced

variable {pieces : List String} {tokens : List Token}

theorem scans (h : Spaced pieces tokens) : Scans (" ".intercalate pieces).toList tokens := by
  rw [String.toList_intercalate]
  induction h with
  | nil => exact .nil
  | cons hpiece hpieces ih =>
    cases hpieces with
    | nil => simpa using hpiece
    | cons hsecond hrest =>
      rw [List.map_cons] at ih
      rw [List.map_cons, List.map_cons, List.intercalate_cons_cons, List.append_assoc]
      exact hpiece.blank ih

theorem word {word : String} (h : IsWord word) (hpieces : Spaced pieces tokens) :
    Spaced (word :: pieces) (.word word :: tokens) :=
  .cons h.scans hpieces

theorem words {words : List String} (h : ∀ word ∈ words, IsWord word) :
    Spaced words (words.map .word) := by
  induction words with
  | nil => exact .nil
  | cons word words ih =>
    exact .word (h word (by simp)) (ih fun w hw => h w (List.mem_cons_of_mem word hw))

/-- An entry `column = value`. -/
theorem entry {column value : String} (hcolumn : IsWord column) (hvalue : IsWord value)
    (hpieces : Spaced pieces tokens) :
    Spaced (column :: "=" :: value :: pieces) (Statement.assigning column value ++ tokens) := by
  have hequal : Scans "=".toList [.equal] := Scans.nil.symbol rfl .nil
  have hbehind := Spaced.cons hequal (.word hvalue hpieces)
  exact .word hcolumn hbehind

end Spaced

/-- Words in parentheses, with commas between them. -/
theorem Scans.listed {words : List String} (h : ∀ word ∈ words, IsWord word) :
    Scans ("(" ++ ",".intercalate words ++ ")").toList
      (.openParen :: Statement.listing words) := by
  suffices hbehind : Scans ((",".intercalate words).toList ++ [')']) (Statement.listing words) by
    rw [String.toList_append, String.toList_append, List.append_assoc]
    exact Scans.nil.symbol rfl hbehind
  rw [String.toList_intercalate]
  induction words with
  | nil => exact Scans.nil.symbol rfl .nil
  | cons word words ih =>
    have hword := (h word (by simp)).scans
    cases words with
    | nil =>
      have hclosed : Scans (word.toList ++ [')']) (Statement.listing [word]) :=
        hword.symbol rfl .nil
      rwa [List.map_singleton, List.intercalate_singleton]
    | cons second words =>
      have hrest := ih fun w hw => h w (List.mem_cons_of_mem word hw)
      have hlisting : Statement.listing (word :: second :: words) =
          [.word word] ++ .comma :: Statement.listing (second :: words) := by
        simp [Statement.listing]
      rw [List.map_cons] at hrest
      rw [List.map_cons, List.map_cons, List.intercalate_cons_cons, List.append_assoc,
        List.append_assoc, hlisting]
      exact hword.symbol rfl hrest

end Token
end TableStore
