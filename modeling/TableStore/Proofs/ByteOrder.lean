import Mathlib.Data.String.Basic

/-
The order of names is the order of their bytes.

A map keeps its names in the order of their characters.  UTF-8 keeps that order: the first bytes of two
characters tell which of them needs more bytes, and where both need as many the bytes hold the digits of
their codes (`Utf8.encode_append_lt`).  So comparing names byte by byte comes to the same (`lt_iff_bytes_lt`).
-/
namespace TableStore

namespace Utf8

theorem ofNat_cons_lt_iff {x y : Nat} (hx : x < 256) (hy : y < 256) {l l' : List UInt8} :
    UInt8.ofNat x :: l < UInt8.ofNat y :: l' ↔ x < y ∨ x = y ∧ l < l' := by
  rw [List.cons_lt_cons_iff, UInt8.lt_iff_toNat_lt, ← UInt8.toNat_inj, UInt8.toNat_ofNat',
    UInt8.toNat_ofNat', Nat.mod_eq_of_lt hx, Nat.mod_eq_of_lt hy]

/-- The code of a character in groups of six bits. -/
theorem eq_groups {v : Nat} (h : v < 0x110000) :
    v = v / 262144 % 8 * 262144 + v / 4096 % 64 * 4096 + v / 64 % 64 * 64 + v % 64 := by omega

theorem toNat_val_lt (c : Char) : c.val.toNat < 0x110000 := by
  rcases c.valid with h | h
  · exact Nat.lt_trans h (by decide)
  · exact h.2

/-- Whatever stands behind them, the bytes of the lesser character come first. -/
theorem encode_append_lt {a b : Char} (h : a < b) (rest rest' : List UInt8) :
    String.utf8EncodeChar a ++ rest < String.utf8EncodeChar b ++ rest' := by
  have hlt : a.val.toNat < b.val.toNat := h
  have hv := eq_groups (toNat_val_lt a)
  have hw := eq_groups (toNat_val_lt b)
  unfold String.utf8EncodeChar
  simp only
  generalize a.val.toNat = v at hlt hv
  generalize b.val.toNat = w at hlt hw
  -- One case for each pair of lengths; the lesser code is never the longer one.
  split <;> split <;> try omega
  all_goals repeat' split
  all_goals simp (disch := omega) only [List.cons_append, List.nil_append, ofNat_cons_lt_iff]
  all_goals omega

theorem flatMap_encode_lt {l l' : List Char} (h : l < l') :
    l.flatMap String.utf8EncodeChar < l'.flatMap String.utf8EncodeChar := by
  induction l generalizing l' with
  | nil =>
    cases l' with
    | nil => cases h
    | cons b l' =>
      obtain ⟨byte, more, hbytes⟩ :=
        List.exists_cons_of_ne_nil (String.utf8EncodeChar_ne_nil (c := b))
      rw [List.flatMap_nil, List.flatMap_cons, hbytes]
      exact List.nil_lt_cons _ _
  | cons a l ih =>
    cases l' with
    | nil => cases h
    | cons b l' =>
      rw [List.flatMap_cons, List.flatMap_cons]
      rcases List.cons_lt_cons_iff.mp h with hab | ⟨rfl, hrest⟩
      · exact encode_append_lt hab _ _
      · exact List.Lex.append_left _ (ih hrest) _

end Utf8

/-- The bytes of a name. -/
def bytes (name : String) : List UInt8 := name.toUTF8.data.toList

theorem bytes_eq (name : String) : bytes name = name.toList.flatMap String.utf8EncodeChar := by
  conv_lhs => rw [bytes, ← String.ofList_toList (s := name), String.toUTF8_eq_toByteArray,
    String.toByteArray_ofList]
  simp [List.utf8Encode]

theorem lt_iff_bytes_lt {a b : String} : a < b ↔ bytes a < bytes b := by
  rw [bytes_eq, bytes_eq, String.lt_iff_toList_lt]
  refine ⟨Utf8.flatMap_encode_lt, fun h => ?_⟩
  rcases lt_trichotomy a.toList b.toList with hab | hab | hab
  · exact hab
  · rw [hab] at h
    exact absurd h (List.lt_irrefl _)
  · exact absurd h (List.lt_asymm (Utf8.flatMap_encode_lt hab))

end TableStore
