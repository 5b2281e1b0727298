import Mathlib.Data.List.Basic
import TableStore.Json.Escape
import TableStore.Text.Quoted

/-
What the quoted form of a text keeps and what it leaves out.

Every character is written in one of three ways (`Escape`), and what one character is written as is never
the beginning of what another one is written as.  So the escapes can be told apart without anything between
them, and different texts have different quoted forms (`flatMap_escapeChar_inj`), none with a line break.
-/
namespace TableStore

/-! ## Codes -/

/-- A code for some things: what stands for one of them is never the beginning of what stands for
another. -/
structure PrefixFree {α β : Type} (valid : α → Prop) (code : α → List β) : Prop where
  ne_nil : ∀ a, valid a → code a ≠ []
  eq : ∀ a b, valid a → valid b → ∀ s t, code a ++ s = code b ++ t → a = b

/-- A row of code words stands for one list only. -/
theorem PrefixFree.flatMap_inj {α β : Type} {valid : α → Prop} {code : α → List β}
    (h : PrefixFree valid code) {l l' : List α} (hl : ∀ a ∈ l, valid a) (hl' : ∀ a ∈ l', valid a)
    (heq : l.flatMap code = l'.flatMap code) : l = l' := by
  induction l generalizing l' with
  | nil =>
    cases l' with
    | nil => rfl
    | cons b rest' =>
      obtain ⟨hb, -⟩ := List.forall_mem_cons.mp hl'
      rw [List.flatMap_nil, List.flatMap_cons, eq_comm, List.append_eq_nil_iff] at heq
      exact absurd heq.1 (h.ne_nil b hb)
  | cons a rest ih =>
    obtain ⟨ha, hrest⟩ := List.forall_mem_cons.mp hl
    cases l' with
    | nil =>
      rw [List.flatMap_nil, List.flatMap_cons, List.append_eq_nil_iff] at heq
      exact absurd heq.1 (h.ne_nil a ha)
    | cons b rest' =>
      obtain ⟨hb, hrest'⟩ := List.forall_mem_cons.mp hl'
      rw [List.flatMap_cons, List.flatMap_cons] at heq
      obtain rfl := h.eq a b ha hb _ _ heq
      rw [ih hrest hrest' (List.append_cancel_left heq)]

/-- What stands in front of the first `a`. -/
theorem front_inj {α : Type} {a : α} {x y s t : List α} (hx : a ∉ x) (hy : a ∉ y)
    (h : x ++ a :: s = y ++ a :: t) : x = y := by
  rcases List.append_eq_append_iff.mp h with ⟨between, rfl, hbetween⟩ | ⟨between, rfl, hbetween⟩
  · cases between with
    | nil => simp
    | cons b rest =>
      obtain ⟨rfl, -⟩ := List.cons.inj hbetween
      exact absurd (by simp) hy
  · cases between with
    | nil => simp
    | cons b rest =>
      obtain ⟨rfl, -⟩ := List.cons.inj hbetween
      exact absurd (by simp) hx

namespace Text

/-! ## Hexadecimal digits -/

theorem exists_digit_of_mem_toDigits {n : Nat} {c : Char} (h : c ∈ Nat.toDigits 16 n) :
    ∃ d < 16, c = d.digitChar := by
  induction n using Nat.strongRecOn with
  | ind n ih =>
    by_cases hn : n < 16
    · rw [Nat.toDigits_of_lt_base hn, List.mem_singleton] at h
      exact ⟨n, hn, h⟩
    · rw [Nat.toDigits_of_base_le (by omega) (by omega), List.mem_append, List.mem_singleton] at h
      rcases h with h | h
      · exact ih (n / 16) (by omega) h
      · exact ⟨n % 16, Nat.mod_lt n (by omega), h⟩

/-- The number of hexadecimal digits. -/
def ofHex (digits : List Char) : Nat :=
  digits.foldl (fun n c => 16 * n + (Json.hexValue? c).getD 0) 0

theorem ofHex_toDigits (n : Nat) : ofHex (Nat.toDigits 16 n) = n := by
  have hdigit : ∀ d < 16, (Json.hexValue? d.digitChar).getD 0 = d := by decide
  induction n using Nat.strongRecOn with
  | ind n ih =>
    by_cases hn : n < 16
    · rw [Nat.toDigits_of_lt_base hn]
      simpa [ofHex] using hdigit n hn
    · have hlast := hdigit (n % 16) (Nat.mod_lt n (by omega))
      have hfront := ih (n / 16) (by omega)
      rw [ofHex] at hfront
      rw [Nat.toDigits_of_base_le (by omega) (by omega), ofHex, List.foldl_append, hfront]
      show 16 * (n / 16) + (Json.hexValue? (n % 16).digitChar).getD 0 = n
      omega

theorem not_mem_toDigits {n : Nat} {c : Char} (h : ∀ d < 16, d.digitChar ≠ c) :
    c ∉ Nat.toDigits 16 n := by
  intro hc
  obtain ⟨d, hd, rfl⟩ := exists_digit_of_mem_toDigits hc
  exact h d hd rfl

/-! ## One character -/

/-- The characters that are written with a letter behind a backslash, each with its letter. -/
def lettered : List (Char × Char) :=
  [('\x00', '0'), ('\t', 't'), ('\r', 'r'), ('\n', 'n'), ('"', '"'), ('\\', '\\')]

theorem escapeLetter?_eq_some_iff {c letter : Char} :
    escapeLetter? c = some letter ↔ (c, letter) ∈ lettered := by
  constructor
  · intro h
    unfold escapeLetter? at h
    split at h <;> cases h <;> decide
  · intro h
    simp only [lettered, List.mem_cons, Prod.mk.injEq, List.not_mem_nil, or_false] at h
    rcases h with ⟨rfl, rfl⟩ | ⟨rfl, rfl⟩ | ⟨rfl, rfl⟩ | ⟨rfl, rfl⟩ | ⟨rfl, rfl⟩ | ⟨rfl, rfl⟩ <;> rfl

/-- How a character is written: with a letter, by its number, or as it stands. -/
inductive Escape (c : Char) : List Char → Prop where
  | letter {letter : Char} (h : (c, letter) ∈ lettered) : Escape c ['\\', letter]
  | number : Escape c (byNumber c)
  | plain (h : ∀ letter, (c, letter) ∉ lettered) : Escape c [c]

theorem escape_escapeChar (c : Char) : Escape c (escapeChar c) := by
  unfold escapeChar
  cases h : escapeLetter? c with
  | some letter => exact .letter (escapeLetter?_eq_some_iff.mp h)
  | none =>
    have hnone : ∀ letter, (c, letter) ∉ lettered := fun letter hletter => by
      rw [escapeLetter?_eq_some_iff.mpr hletter] at h
      cases h
    by_cases hc : isUnshown c = true
    · simp only [if_pos hc]
      exact .number
    · simp only [if_neg hc]
      exact .plain hnone

theorem byNumber_append (c : Char) (rest : List Char) :
    byNumber c ++ rest =
      '\\' :: 'u' :: '\x7b' :: (Nat.toDigits 16 c.toNat ++ '\x7d' :: rest) := by
  simp [byNumber]

theorem byNumber_inj {a b : Char} {s t : List Char} (h : byNumber a ++ s = byNumber b ++ t) :
    a = b := by
  have hend : ∀ c : Char, '\x7d' ∉ Nat.toDigits 16 c.toNat := fun c => not_mem_toDigits (by decide)
  have hdigits : Nat.toDigits 16 a.toNat ++ '\x7d' :: s = Nat.toDigits 16 b.toNat ++ '\x7d' :: t := by
    simpa [byNumber_append] using h
  have hsame := congrArg ofHex (front_inj (hend a) (hend b) hdigits)
  rw [ofHex_toDigits, ofHex_toDigits] at hsame
  exact Char.toNat_inj.mp hsame

/-- A backslash begins an escape and never stands for itself. -/
theorem ne_backslash {c : Char} (h : ∀ letter, (c, letter) ∉ lettered) : c ≠ '\\' := by
  rintro rfl
  exact h '\\' (by decide)

theorem letter_eq {a b letter : Char} (ha : (a, letter) ∈ lettered) (hb : (b, letter) ∈ lettered) :
    a = b := by
  have hall : ∀ p ∈ lettered, ∀ q ∈ lettered, p.2 = q.2 → p.1 = q.1 := by decide
  exact hall _ ha _ hb rfl

theorem letter_ne {c letter : Char} (h : (c, letter) ∈ lettered) :
    letter ≠ 'u' ∧ letter ≠ '\n' := by
  have hall : ∀ p ∈ lettered, p.2 ≠ 'u' ∧ p.2 ≠ '\n' := by decide
  exact hall _ h

namespace Escape

variable {a b : Char} {x y : List Char}

theorem ne_nil (h : Escape a x) : x ≠ [] := by
  cases h with
  | letter => exact List.cons_ne_nil _ _
  | number => exact List.cons_ne_nil _ _
  | plain => exact List.cons_ne_nil _ _

/-- Two escapes are told apart by what they begin with. -/
theorem eq (ha : Escape a x) (hb : Escape b y) {s t : List Char} (h : x ++ s = y ++ t) : a = b := by
  cases ha with
  | letter ha =>
    cases hb with
    | letter hb =>
      obtain ⟨rfl, -⟩ := List.cons.inj (List.cons.inj h).2
      exact letter_eq ha hb
    | number =>
      rw [byNumber_append] at h
      exact absurd (List.cons.inj (List.cons.inj h).2).1 (letter_ne ha).1
    | plain hb => exact absurd (List.cons.inj h).1.symm (ne_backslash hb)
  | number =>
    cases hb with
    | letter hb =>
      rw [byNumber_append] at h
      exact absurd (List.cons.inj (List.cons.inj h).2).1.symm (letter_ne hb).1
    | number => exact byNumber_inj h
    | plain hb => exact absurd (List.cons.inj h).1.symm (ne_backslash hb)
  | plain ha =>
    cases hb with
    | letter => exact absurd (List.cons.inj h).1 (ne_backslash ha)
    | number => exact absurd (List.cons.inj h).1 (ne_backslash ha)
    | plain => exact (List.cons.inj h).1

theorem newline_not_mem (h : Escape a x) : '\n' ∉ x := by
  cases h with
  | letter h => simpa [eq_comm] using (letter_ne h).2
  | number =>
    have hdigits : '\n' ∉ Nat.toDigits 16 a.toNat := not_mem_toDigits (by decide)
    simpa [byNumber] using hdigits
  | plain h =>
    rw [List.mem_singleton]
    rintro rfl
    exact h 'n' (by decide)

end Escape

/-! ## Texts -/

theorem prefixFree_escapeChar : PrefixFree (fun _ => True) escapeChar where
  ne_nil c _ := (escape_escapeChar c).ne_nil
  eq a b _ _ _ _ h := (escape_escapeChar a).eq (escape_escapeChar b) h

theorem flatMap_escapeChar_inj {cs ds : List Char}
    (h : cs.flatMap escapeChar = ds.flatMap escapeChar) : cs = ds :=
  prefixFree_escapeChar.flatMap_inj (fun _ _ => trivial) (fun _ _ => trivial) h

theorem newline_not_mem_quotedChars (cs : List Char) : '\n' ∉ quotedChars cs := by
  have hinside : '\n' ∉ cs.flatMap escapeChar := by
    rw [List.mem_flatMap]
    rintro ⟨c, -, hc⟩
    exact (escape_escapeChar c).newline_not_mem hc
  simpa [quotedChars] using hinside

end Text
end TableStore
