import TableStore.Json.Escape
import TableStore.Json.Lexeme

/-
Quoted texts read back as what they were written for.

Escaping goes character by character, so both directions are a lemma on one character and an
induction over the text: what stands for a character is read as that character, whatever follows,
and no quote in it ends the text.
-/
namespace TableStore
namespace Json

/-! ## One character -/

/-- A character that is written as it stands. -/
def Plain (c : Char) : Prop := c ≠ '"' ∧ c ≠ '\\' ∧ ¬ c < ' '

theorem escapeChar_of_plain {c : Char} (h : Plain c) : escapeChar c = [c] := by
  have hletter : escapeLetter? c = none := by
    unfold escapeLetter?
    split
    · exact absurd rfl h.1
    · exact absurd rfl h.2.1
    · exact absurd (by decide) h.2.2
    · exact absurd (by decide) h.2.2
    · exact absurd (by decide) h.2.2
    · exact absurd (by decide) h.2.2
    · exact absurd (by decide) h.2.2
    · rfl
  simp only [escapeChar, hletter, h.2.2, if_false]

/-- How a character is written: as it stands, with a letter, or by its number. -/
theorem escapeChar_cases (c : Char) :
    (Plain c ∧ escapeChar c = [c]) ∨
    (∃ letter, escapeChar c = ['\\', letter] ∧ letter ≠ 'u' ∧ escapedBy? letter = some c) ∨
    ∃ a b, escapeChar c = ['\\', 'u', '0', '0', a, b] ∧ a ≠ '"' ∧ a ≠ '\\' ∧ b ≠ '"' ∧ b ≠ '\\' ∧
      hex4? '0' '0' a b = some c.toNat ∧ c.toNat < 32 := by
  unfold escapeChar
  cases h : escapeLetter? c with
  | some letter =>
    refine .inr (.inl ⟨letter, rfl, ?_⟩)
    unfold escapeLetter? at h
    split at h <;> cases h <;> decide
  | none =>
    by_cases hc : c < ' '
    · rw [if_pos hc]
      refine .inr (.inr ⟨_, _, rfl, ?_⟩)
      have hlt : c.toNat < 32 := hc
      have hall : ∀ n < 32, hexDigit (n / 16) ≠ '"' ∧ hexDigit (n / 16) ≠ '\\' ∧
          hexDigit (n % 16) ≠ '"' ∧ hexDigit (n % 16) ≠ '\\' ∧
          hex4? '0' '0' (hexDigit (n / 16)) (hexDigit (n % 16)) = some n := by
        decide
      obtain ⟨ha, ha', hb, hb', hn⟩ := hall c.toNat hlt
      exact ⟨ha, ha', hb, hb', hn, hlt⟩
    · rw [if_neg hc]
      refine .inl ⟨⟨?_, ?_, hc⟩, rfl⟩
      · rintro rfl
        cases h
      · rintro rfl
        cases h

/-! ## Reading -/

theorem readText_escapeChar (c : Char) (rest : List Char) :
    readText (escapeChar c ++ rest) = (readText rest).map (c :: ·) := by
  rcases escapeChar_cases c with ⟨⟨-, hslash, hc⟩, h⟩ | ⟨letter, h, hu, hletter⟩ |
    ⟨a, b, h, -, -, -, -, hhex, hlt⟩
  · rw [h, List.singleton_append, readText.eq_def]
    simp only [hslash, hc, if_false]
    cases readText rest <;> rfl
  · rw [h, List.cons_append, List.singleton_append, readText.eq_def]
    simp only [if_true]
    split
    · next heq => exact absurd (List.cons.inj heq).1 hu
    · next heq =>
      obtain ⟨rfl, rfl⟩ := List.cons.inj heq
      rw [hletter]
      cases readText rest <;> rfl
    · next heq => cases heq
  · rw [h, List.cons_append, readText.eq_def]
    have hhigh : isHighSurrogate c.toNat = false := by
      simp only [isHighSurrogate, Bool.and_eq_false_iff, decide_eq_false_iff_not]
      omega
    have hlow : isLowSurrogate c.toNat = false := by
      simp only [isLowSurrogate, Bool.and_eq_false_iff, decide_eq_false_iff_not]
      omega
    simp only [if_true, List.cons_append, List.nil_append, hhex, Option.bind_eq_bind,
      Option.bind_some, hhigh, hlow, Bool.false_eq_true, if_false, Char.ofNat_toNat]
    cases readText rest <;> rfl

/-- The inside of a quoted text. -/
def escapeText (s : String) : List Char := s.toList.flatMap escapeChar

/-- A text of plain characters is written as it stands. -/
theorem escapeText_of_plain {s : String} (h : ∀ c ∈ s.toList, Plain c) : escapeText s = s.toList := by
  unfold escapeText
  revert h
  induction s.toList with
  | nil => exact fun _ => rfl
  | cons c rest ih =>
    intro h
    have hc : escapeChar c = [c] := escapeChar_of_plain (h c (by simp))
    rw [List.flatMap_cons, hc, ih fun d hd => h d (List.mem_cons_of_mem c hd)]
    rfl

theorem readText_escapeText (s : String) : readText (escapeText s) = some s.toList := by
  unfold escapeText
  induction s.toList with
  | nil => rfl
  | cons c rest ih => rw [List.flatMap_cons, readText_escapeChar, ih, Option.map_some]

/-! ## Scanning -/

namespace Lexeme

/-- The scan of a quoted text goes through what stands for a character and is still inside. -/
theorem scan_escapeChar (c : Char) (taken rest : List Char) :
    scan (.text taken) (escapeChar c ++ rest) =
      scan (.text ((escapeChar c).reverse ++ taken)) rest := by
  rcases escapeChar_cases c with ⟨⟨hquote, hslash, -⟩, h⟩ | ⟨letter, h, -⟩ |
    ⟨a, b, h, ha, ha', hb, hb', -⟩
  · rw [h]
    simp [scan, hquote, hslash]
  · rw [h]
    simp [scan]
  · rw [h]
    simp [scan, ha, ha', hb, hb']

theorem scan_escapeText (s : String) (taken rest : List Char) :
    scan (.text taken) (escapeText s ++ rest) =
      scan (.text ((escapeText s).reverse ++ taken)) rest := by
  unfold escapeText
  induction s.toList generalizing taken with
  | nil => rfl
  | cons c text ih =>
    rw [List.flatMap_cons, List.append_assoc, scan_escapeChar, ih]
    simp

theorem scan_writeText (s : String) (rest : List Char) :
    scan .between (writeText s ++ rest) = .text (escapeText s) :: scan .between rest := by
  have hopen : writeText s ++ rest = '"' :: (escapeText s ++ '"' :: rest) := by
    simp [writeText, escapeText]
  rw [hopen]
  show scan (.text []) (escapeText s ++ '"' :: rest) = _
  rw [scan_escapeText]
  simp [scan]

end Lexeme
end Json
end TableStore
