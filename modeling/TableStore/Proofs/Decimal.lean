import Mathlib.Data.List.Induction
import TableStore.Decimal
import TableStore.Proofs.Refusable

/-
Numerals of 64-bit integers.

The digits are taken in one after another, each step checked against the range.  A numeral stands for one
integer whatever its length (`Numeral`), and it is read exactly if this integer is in range
(`read_eq_ok_iff`): what the digits come to on the way is nearer to zero than what they come to at the end.
What is written for an integer is one of its numerals, and so reads back.
-/
namespace TableStore
namespace Decimal

/-! ## Numerals -/

/-- One or more ASCII digits. -/
def Digits (cs : List Char) : Prop := cs ≠ [] ∧ ∀ c ∈ cs, c.isDigit = true

/-- The numerals of an integer: its digits, with any number of zeros in front, behind at most one
sign. -/
inductive Numeral : List Char → Int → Prop where
  | bare {digits : List Char} (h : Digits digits) : Numeral digits (Nat.ofDigitChars 10 digits 0)
  | plus {digits : List Char} (h : Digits digits) :
    Numeral ('+' :: digits) (Nat.ofDigitChars 10 digits 0)
  | minus {digits : List Char} (h : Digits digits) :
    Numeral ('-' :: digits) (-Nat.ofDigitChars 10 digits 0)

theorem numeral_plus_iff {digits : List Char} {z : Int} :
    Numeral ('+' :: digits) z ↔ Digits digits ∧ z = Nat.ofDigitChars 10 digits 0 := by
  constructor
  · intro h
    cases h with
    | bare h => exact absurd (h.2 '+' List.mem_cons_self) (by decide)
    | plus h => exact ⟨h, rfl⟩
  · rintro ⟨h, rfl⟩
    exact .plus h

theorem numeral_minus_iff {digits : List Char} {z : Int} :
    Numeral ('-' :: digits) z ↔ Digits digits ∧ z = -Nat.ofDigitChars 10 digits 0 := by
  constructor
  · intro h
    cases h with
    | bare h => exact absurd (h.2 '-' List.mem_cons_self) (by decide)
    | minus h => exact ⟨h, rfl⟩
  · rintro ⟨h, rfl⟩
    exact .minus h

/-- A numeral begins with a digit or a sign. -/
theorem Numeral.exists_cons {cs : List Char} {z : Int} (h : Numeral cs z) :
    ∃ c rest, cs = c :: rest ∧ (c.isDigit = true ∨ c = '+' ∨ c = '-') := by
  cases h with
  | bare h =>
    obtain ⟨c, rest, rfl⟩ := List.exists_cons_of_ne_nil h.1
    exact ⟨c, rest, rfl, .inl (h.2 c List.mem_cons_self)⟩
  | plus h => exact ⟨_, _, rfl, .inr (.inl rfl)⟩
  | minus h => exact ⟨_, _, rfl, .inr (.inr rfl)⟩

/-! ## Reading -/

theorem digit?_eq_some_iff {c : Char} {d : Nat} :
    digit? c = some d ↔ c.isDigit = true ∧ d = c.toNat - '0'.toNat := by
  have hc : c.isDigit = true ↔ '0' ≤ c ∧ c ≤ '9' := Char.isDigit_iff_toNat
  rw [hc, digit?]
  split
  · next h => simp [h, eq_comm]
  · next h => simp [h]

/-- The integer that a natural number stands for behind a sign. -/
def signed (negative : Bool) (n : Nat) : Int := if negative then -n else n

theorem extend_eq_ok_iff {negative : Bool} {n : Nat} {c : Char} {next : Int} :
    extend negative (signed negative n) c = .ok next ↔
      c.isDigit = true ∧ next = signed negative (Nat.ofDigitChars 10 [c] n) ∧
        least ≤ next ∧ next ≤ greatest := by
  have hnext : ∀ d : Nat, (if negative then signed negative n * 10 - d
      else signed negative n * 10 + d) = signed negative (10 * n + d) := by
    intro d
    unfold signed
    cases negative <;> simp only [if_true, if_false, Bool.false_eq_true] <;> omega
  rw [Nat.ofDigitChars_cons, Nat.ofDigitChars_nil, extend]
  cases h : digit? c with
  | none =>
    have hc : ¬ c.isDigit = true := fun hc => by
      rw [digit?_eq_some_iff.mpr ⟨hc, rfl⟩] at h
      cases h
    simp [hc]
  | some d =>
    obtain ⟨hc, rfl⟩ := digit?_eq_some_iff.mp h
    simp only [hnext, hc, true_and]
    split
    · next hlow => exact ⟨nofun, fun h => absurd hlow (by omega)⟩
    · split
      · next hhigh => exact ⟨nofun, fun h => absurd hhigh (by omega)⟩
      · next hlow hhigh =>
        rw [Except.ok.injEq]
        exact ⟨fun h => ⟨h.symm, by omega, by omega⟩, fun h => h.1.symm⟩

/-- What the digits come to on the way is nearer to zero, so nothing there is out of range if what they
come to at the end is not. -/
theorem foldlM_extend_eq_ok_iff {negative : Bool} {digits : List Char} {last : Int} :
    digits.foldlM (extend negative) 0 = .ok last ↔
      (∀ c ∈ digits, c.isDigit = true) ∧ last = signed negative (Nat.ofDigitChars 10 digits 0) ∧
        least ≤ last ∧ last ≤ greatest := by
  induction digits using List.reverseRecOn generalizing last with
  | nil =>
    have hzero : signed negative 0 = 0 := by simp [signed]
    rw [List.foldlM_nil, pure_eq_ok_iff, Nat.ofDigitChars_nil, hzero]
    simp only [least, greatest]
    exact ⟨fun h => ⟨nofun, h.symm, by omega, by omega⟩, fun h => h.2.1.symm⟩
  | append_singleton digits c ih =>
    have hnearer : Nat.ofDigitChars 10 digits 0 ≤ Nat.ofDigitChars 10 (digits ++ [c]) 0 := by
      rw [Nat.ofDigitChars_append, Nat.ofDigitChars_cons, Nat.ofDigitChars_nil]
      omega
    rw [List.foldlM_append, bind_eq_ok_iff, List.forall_mem_append, List.forall_mem_singleton]
    simp only [List.foldlM_cons, List.foldlM_nil, bind_pure, ih]
    constructor
    · rintro ⟨_, ⟨hdigits, rfl, -⟩, hlast⟩
      obtain ⟨hc, hlast, hrange⟩ := extend_eq_ok_iff.mp hlast
      rw [← Nat.ofDigitChars_append] at hlast
      exact ⟨⟨hdigits, hc⟩, hlast, hrange⟩
    · rintro ⟨⟨hdigits, hc⟩, hlast, hrange⟩
      have hbefore : least ≤ signed negative (Nat.ofDigitChars 10 digits 0) ∧
          signed negative (Nat.ofDigitChars 10 digits 0) ≤ greatest := by
        unfold signed at *
        simp only [least, greatest] at *
        cases negative <;> simp only [if_true, if_false, Bool.false_eq_true] at * <;> omega
      rw [Nat.ofDigitChars_append] at hlast
      exact ⟨_, ⟨hdigits, rfl, hbefore⟩, extend_eq_ok_iff.mpr ⟨hc, hlast, hrange⟩⟩

theorem readDigits_eq_ok_iff {negative : Bool} {digits : List Char} {n : Int64} :
    readDigits negative digits = .ok n ↔
      Digits digits ∧ n.toInt = signed negative (Nat.ofDigitChars 10 digits 0) := by
  have hleast : least ≤ n.toInt := n.le_toInt
  have hgreatest : n.toInt ≤ greatest := Int.le_of_lt_add_one n.toInt_lt
  by_cases hne : digits = []
  · subst hne
    exact ⟨nofun, fun h => absurd rfl h.1.1⟩
  · have hread : readDigits negative digits = .ok n ↔
        digits.foldlM (extend negative) 0 = .ok n.toInt := by
      rw [readDigits, if_neg (by simpa using hne)]
      cases h : digits.foldlM (extend negative) 0 with
      | error fault => exact ⟨nofun, nofun⟩
      | ok last =>
        obtain ⟨-, -, hlow, hhigh⟩ := foldlM_extend_eq_ok_iff.mp h
        show Except.ok (Int64.ofInt last) = _ ↔ _
        rw [Except.ok.injEq, Except.ok.injEq, ← Int64.toInt_inj,
          Int64.toInt_ofInt_of_le hlow (Int.lt_add_one_of_le hhigh)]
    rw [hread, foldlM_extend_eq_ok_iff]
    exact ⟨fun h => ⟨⟨hne, h.1⟩, h.2.1⟩, fun h => ⟨h.1.2, h.2, hleast, hgreatest⟩⟩

/-- A text is read exactly if it is a numeral of a 64-bit integer. -/
theorem read_eq_ok_iff {cs : List Char} {n : Int64} : read cs = .ok n ↔ Numeral cs n.toInt := by
  unfold read
  split
  · refine ⟨nofun, fun h => ?_⟩
    obtain ⟨_, _, heq, -⟩ := h.exists_cons
    cases heq
  · rw [readDigits_eq_ok_iff, numeral_minus_iff]
    rfl
  · rw [readDigits_eq_ok_iff, numeral_plus_iff]
    rfl
  · next hminus hplus =>
    rw [readDigits_eq_ok_iff]
    constructor
    · rintro ⟨h, heq⟩
      rw [heq]
      exact .bare h
    · intro h
      generalize n.toInt = z at h
      cases h with
      | bare h => exact ⟨h, rfl⟩
      | plus h => exact absurd rfl (hplus _)
      | minus h => exact absurd rfl (hminus _)

/-! ## Writing -/

/-- The numeral that is written is a run of digits, behind a minus if it is negative. -/
theorem write_toList (n : Int64) : (write n).toList =
    if n.toInt < 0 then '-' :: Nat.toDigits 10 (-n.toInt).toNat
    else Nat.toDigits 10 n.toInt.toNat := by
  rw [write, Int.toString_eq_repr, Int.repr_eq_if]
  by_cases h : n.toInt < 0
  · rw [if_neg (by omega), if_pos h]
    simp
  · rw [if_pos (by omega), if_neg h]
    simp

theorem isDigit_of_mem_toDigits {m : Nat} {c : Char} (h : c ∈ Nat.toDigits 10 m) :
    c.isDigit = true :=
  Nat.isDigit_of_mem_toDigits (by decide) (by decide) h

theorem write_ne_nil (n : Int64) : (write n).toList ≠ [] := by
  rw [write_toList]
  split
  · simp
  · exact Nat.toDigits_ne_nil

theorem mem_write {n : Int64} {c : Char} (h : c ∈ (write n).toList) :
    c.isDigit = true ∨ c = '-' := by
  rw [write_toList] at h
  split at h
  · rcases List.mem_cons.mp h with rfl | h
    · exact .inr rfl
    · exact .inl (isDigit_of_mem_toDigits h)
  · exact .inl (isDigit_of_mem_toDigits h)

/-- The characters of numerals are these few, so what holds of each of them is decided. -/
theorem mem_write_of_digits {n : Int64} {c : Char} (h : c ∈ (write n).toList) :
    c ∈ "-0123456789".toList := by
  rcases mem_write h with hdigit | rfl
  · have hall : ∀ code < 58, 48 ≤ code → Char.ofNat code ∈ "-0123456789".toList := by decide
    have hrange : 48 ≤ c.toNat ∧ c.toNat ≤ 57 := by
      simpa [Char.isDigit, Char.le_def, UInt32.le_iff_toNat_le] using hdigit
    rw [← Char.ofNat_toNat c]
    exact hall c.toNat (by omega) hrange.1
  · decide

theorem numeral_write (n : Int64) : Numeral (write n).toList n.toInt := by
  have hdigits : ∀ m, Digits (Nat.toDigits 10 m) := fun m =>
    ⟨Nat.toDigits_ne_nil, fun _ => isDigit_of_mem_toDigits⟩
  rw [write_toList]
  split
  · rw [numeral_minus_iff, Nat.ofDigitChars_ten_toDigits]
    exact ⟨hdigits _, by omega⟩
  · have h := Numeral.bare (hdigits n.toInt.toNat)
    rwa [Nat.ofDigitChars_ten_toDigits, Int.toNat_of_nonneg (by omega)] at h

theorem read_write (n : Int64) : read (write n).toList = .ok n :=
  read_eq_ok_iff.mpr (numeral_write n)

end Decimal
end TableStore
