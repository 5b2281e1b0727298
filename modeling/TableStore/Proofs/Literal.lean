import Mathlib.Data.List.Basic
import TableStore.Literal
import TableStore.Proofs.Decimal

/-
What a word of a command is read as.

The words of the three types have nothing in common: two words are booleans, the words that begin with a
digit or a sign are meant as integers, and those between two quotes of one kind are texts.  So the order
in which the kinds are tried makes no difference, and `read_eq_iff` states the result of every word by its
kind.
-/
namespace TableStore

theorem eq_of_isQuote {c : Char} (h : isQuote c = true) : c = '"' ∨ c = '\'' := by
  simpa [isQuote] using h

namespace Literal

/-- The word for a boolean. -/
def boolWord (b : Bool) : String := if b then "true" else "false"

/-- A text between two quotes of one kind, whatever stands in it. -/
def Enclosed (text word : String) : Prop :=
  ∃ quote, isQuote quote = true ∧ word.toList = quote :: (text.toList ++ [quote])

theorem enclosed_inside {word : String} {quote : Char} {rest : List Char}
    (hword : word.toList = quote :: rest) (hquote : isQuote quote = true)
    (hlast : rest.getLast? = some quote) : Enclosed (String.ofList rest.dropLast) word := by
  refine ⟨quote, hquote, ?_⟩
  rw [hword, String.toList_ofList, List.dropLast_append_getLast? quote hlast]

/-- What a word is read as, by its kind. -/
inductive Means (word : String) : Except Malformed Value → Prop where
  | bool {b : Bool} (h : word = boolWord b) : Means word (.ok (.bool b))
  | int {n : Int64} (h : Decimal.read word.toList = .ok n) : Means word (.ok (.int n))
  | str {text : String} (h : Enclosed text word) : Means word (.ok (.str text))
  | noInteger {c : Char} {rest : List Char} {fault : Decimal.Fault} (hword : word.toList = c :: rest)
    (hc : startsInteger c = true) (h : Decimal.read word.toList = .error fault) :
    Means word (.error (.integer fault))
  | noKind (hbool : ∀ b, word ≠ boolWord b)
    (hint : ∀ c rest, word.toList = c :: rest → startsInteger c = false)
    (hstr : ∀ text, ¬ Enclosed text word) : Means word (.error (.invalidValue word))

theorem startsInteger_iff {c : Char} :
    startsInteger c = true ↔ c.isDigit = true ∨ c = '+' ∨ c = '-' := by
  have hdigit : (Decimal.digit? c).isSome = true ↔ c.isDigit = true := by
    rw [Option.isSome_iff_exists]
    simp [Decimal.digit?_eq_some_iff]
  simp only [startsInteger, Bool.or_eq_true, hdigit, decide_eq_true_eq, or_assoc]

/-- A word is read as its first character has it, unless it is a boolean. -/
theorem read_of_toList {word : String} {c : Char} {rest : List Char}
    (hword : word.toList = c :: rest) (hc : c ≠ 't' ∧ c ≠ 'f') :
    read word =
      if startsInteger c then (Decimal.read (c :: rest)).mapError .integer |>.map .int
      else if isQuote c && rest.getLast? = some c then .ok (.str (String.ofList rest.dropLast))
      else .error (.invalidValue word) := by
  have htrue : word ≠ "true" := by
    rintro rfl
    cases hword
    exact absurd rfl hc.1
  have hfalse : word ≠ "false" := by
    rintro rfl
    cases hword
    exact absurd rfl hc.2
  rw [read, if_neg htrue, if_neg hfalse, hword]

theorem ne_of_startsInteger {c : Char} (h : startsInteger c = true) : c ≠ 't' ∧ c ≠ 'f' := by
  constructor
  · rintro rfl
    exact absurd h (by decide)
  · rintro rfl
    exact absurd h (by decide)

theorem means_read (word : String) : Means word (read word) := by
  unfold read
  split
  · next htrue => exact .bool (b := true) htrue
  · next htrue =>
    split
    · next hfalse => exact .bool (b := false) hfalse
    · next hfalse =>
      have hbool : ∀ b, word ≠ boolWord b := fun b => by cases b <;> assumption
      split
      · next hword =>
        refine .noKind hbool (fun c rest h => ?_) fun text h => ?_
        · rw [hword] at h
          cases h
        · obtain ⟨_, -, h⟩ := h
          rw [hword] at h
          cases h
      · next c rest hword =>
        split
        · next hc =>
          rw [← hword]
          cases h : Decimal.read word.toList with
          | error fault => exact .noInteger hword hc h
          | ok n => exact .int h
        · next hc =>
          split
          · next hquote =>
            rw [Bool.and_eq_true, decide_eq_true_eq] at hquote
            exact .str (enclosed_inside hword hquote.1 hquote.2)
          · next hquote =>
            refine .noKind hbool (fun _ _ h => ?_) fun text h => ?_
            · rw [hword] at h
              cases h
              exact Bool.eq_false_iff.mpr hc
            · obtain ⟨quote, hisQuote, h⟩ := h
              rw [hword] at h
              cases h
              exact hquote (by simp [hisQuote])

/-- The kinds have nothing in common, so the result does not depend on which is tried first. -/
theorem read_eq_iff {word : String} {r : Except Malformed Value} :
    read word = r ↔ Means word r := by
  refine ⟨fun h => h ▸ means_read word, fun h => ?_⟩
  cases h with
  | @bool b h =>
    subst h
    cases b <;> rfl
  | @int n h =>
    obtain ⟨c, rest, hword, hc⟩ := (Decimal.read_eq_ok_iff.mp h).exists_cons
    rw [← startsInteger_iff] at hc
    rw [read_of_toList hword (ne_of_startsInteger hc), if_pos hc, ← hword, h]
    rfl
  | @str text h =>
    obtain ⟨quote, hquote, hword⟩ := h
    obtain ⟨hletters, hinteger⟩ :
        (quote ≠ 't' ∧ quote ≠ 'f') ∧ startsInteger quote = false := by
      rcases eq_of_isQuote hquote with rfl | rfl
      · decide
      · decide
    rw [read_of_toList hword hletters, hinteger, if_neg (by decide), if_pos (by simp [hquote]),
      List.dropLast_concat, String.ofList_toList]
  | noInteger hword hc h =>
    rw [read_of_toList hword (ne_of_startsInteger hc), if_pos hc, ← hword, h]
    rfl
  | noKind hbool hint hstr =>
    have htrue : word ≠ "true" := hbool true
    have hfalse : word ≠ "false" := hbool false
    rw [read, if_neg htrue, if_neg hfalse]
    split
    · rfl
    · next c rest hword =>
      have hquote : ¬ (isQuote c && rest.getLast? = some c) = true := by
        rw [Bool.and_eq_true, decide_eq_true_eq]
        exact fun h => hstr _ (enclosed_inside hword h.1 h.2)
      rw [if_neg (Bool.eq_false_iff.mp (hint c rest hword)), if_neg hquote]

/-! ## The three types -/

theorem read_eq_bool_iff {word : String} {b : Bool} :
    read word = .ok (.bool b) ↔ word = boolWord b := by
  rw [read_eq_iff]
  exact ⟨fun h => by cases h; assumption, .bool⟩

theorem read_eq_int_iff {word : String} {n : Int64} :
    read word = .ok (.int n) ↔ Decimal.Numeral word.toList n.toInt := by
  rw [read_eq_iff, ← Decimal.read_eq_ok_iff]
  exact ⟨fun h => by cases h; assumption, .int⟩

theorem read_eq_str_iff {word text : String} :
    read word = .ok (.str text) ↔ Enclosed text word := by
  rw [read_eq_iff]
  exact ⟨fun h => by cases h; assumption, .str⟩

/-- A numeral is read as the integer that it stands for if this is a 64-bit integer, however long the
numeral is. -/
theorem exists_read_eq_int_iff {word : String} {z : Int} :
    (∃ n : Int64, n.toInt = z ∧ read word = .ok (.int n)) ↔
      Decimal.Numeral word.toList z ∧
        -9223372036854775808 ≤ z ∧ z ≤ 9223372036854775807 := by
  constructor
  · rintro ⟨n, rfl, h⟩
    exact ⟨read_eq_int_iff.mp h, n.le_toInt, Int.le_of_lt_add_one n.toInt_lt⟩
  · rintro ⟨h, hlow, hhigh⟩
    have hz : (Int64.ofInt z).toInt = z :=
      Int64.toInt_ofInt_of_le hlow (Int.lt_add_one_of_le hhigh)
    refine ⟨Int64.ofInt z, hz, read_eq_int_iff.mpr ?_⟩
    rw [hz]
    exact h

/-- A word is read as a boolean, an integer or a text exactly if it is a literal of it, and every other
word is refused. -/
theorem read_kinds (word : String) :
    (∀ b, read word = .ok (.bool b) ↔ word = boolWord b) ∧
      (∀ z : Int, (∃ n : Int64, n.toInt = z ∧ read word = .ok (.int n)) ↔
        Decimal.Numeral word.toList z ∧
          -9223372036854775808 ≤ z ∧ z ≤ 9223372036854775807) ∧
      (∀ text, read word = .ok (.str text) ↔ Enclosed text word) ∧
      ((∃ cause, read word = .error cause) ↔
        (∀ b, word ≠ boolWord b) ∧
        (∀ z : Int, Decimal.Numeral word.toList z →
          z < -9223372036854775808 ∨ 9223372036854775807 < z) ∧
        ∀ text, ¬ Enclosed text word) := by
  refine ⟨fun b => read_eq_bool_iff, fun z => exists_read_eq_int_iff, fun text => read_eq_str_iff,
    ?_⟩
  constructor
  · rintro ⟨cause, h⟩
    have hnot : ∀ v, read word ≠ .ok v := fun v hv => by
      rw [hv] at h
      cases h
    refine ⟨fun b hb => hnot _ (read_eq_bool_iff.mpr hb), fun z hz => ?_,
      fun text htext => hnot _ (read_eq_str_iff.mpr htext)⟩
    by_contra hrange
    obtain ⟨n, -, hn⟩ := exists_read_eq_int_iff.mpr ⟨hz, by omega, by omega⟩
    exact hnot _ hn
  · rintro ⟨hbool, hint, hstr⟩
    cases h : read word with
    | error cause => exact ⟨cause, rfl⟩
    | ok v =>
      cases v with
      | bool b => exact absurd (read_eq_bool_iff.mp h) (hbool b)
      | str text => exact absurd (read_eq_str_iff.mp h) (hstr text)
      | int n =>
        obtain ⟨hn, hlow, hhigh⟩ := exists_read_eq_int_iff.mp ⟨n, rfl, h⟩
        exact absurd (hint _ hn) (by omega)

end Literal
end TableStore
