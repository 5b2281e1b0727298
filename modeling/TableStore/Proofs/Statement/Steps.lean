import Mathlib.Data.List.Forall2
import TableStore.Statement.Reading
import TableStore.Proofs.Refusable
import TableStore.Proofs.Statement.Tokens

/-
The steps of the reading of a command line.

Every step is characterized by the tokens that it succeeds on and by what it leaves of them, so what
a command succeeds on is put together from its steps with `Reading.run_bind_eq_ok`.
-/
namespace TableStore
namespace Statement

/-- The tokens of `column = value`. -/
def assigning (column word : String) : List Token := [.word column, .equal, .word word]

/-- The tokens behind the opening parenthesis of a list of values. -/
def listing (words : List String) : List Token :=
  (words.map Token.word).intersperse .comma ++ [.closeParen]

namespace Reading

variable {tokens rest : Tokens}

theorem run_bind_eq_ok {α β : Type} {x : Reading α} {f : α → Reading β} {b : β} :
    (x >>= f).run tokens = .ok (b, rest) ↔
      ∃ a behind, x.run tokens = .ok (a, behind) ∧ (f a).run behind = .ok (b, rest) := by
  rw [StateT.run_bind]
  cases hx : x.run tokens with
  | error e => simp [Bind.bind, Except.bind]
  | ok p =>
    refine ⟨fun h => ⟨p.1, p.2, rfl, h⟩, ?_⟩
    rintro ⟨a, behind, ha, h⟩
    cases ha
    exact h

theorem run_pure_eq_ok {α : Type} {a b : α} :
    (pure a : Reading α).run tokens = .ok (b, rest) ↔ b = a ∧ rest = tokens := by
  rw [StateT.run_pure]
  show Except.ok (a, tokens) = Except.ok (b, rest) ↔ _
  simp [eq_comm]

theorem run_lift_eq_ok {α : Type} {x : Except Malformed α} {a : α} :
    (StateT.lift x : Reading α).run tokens = .ok (a, rest) ↔ x = .ok a ∧ rest = tokens := by
  show (x >>= fun a => pure (a, tokens)) = _ ↔ _
  cases x with
  | error e => exact ⟨nofun, nofun⟩
  | ok b =>
    show Except.ok (b, tokens) = Except.ok (a, rest) ↔ _
    simp [eq_comm]

theorem next_eq_ok {token : Token} :
    next.run tokens = .ok (token, rest) ↔ tokens = .cons token rest := by
  cases tokens with
  | nil => exact ⟨nofun, nofun⟩
  | unclosed word => exact ⟨nofun, nofun⟩
  | cons first behind =>
    show Except.ok (first, behind) = Except.ok (token, rest) ↔ _
    simp

/-- Reads on from a word, and from nothing else. -/
theorem run_word_eq_ok {α : Type} {f : String → Reading α} {refusal : Token → Malformed} {a : α} :
    (next >>= fun
        | .word word => f word
        | found => throw (refusal found)).run tokens = .ok (a, rest) ↔
      ∃ word behind, tokens = .cons (.word word) behind ∧
        (f word).run behind = .ok (a, rest) := by
  simp only [run_bind_eq_ok, next_eq_ok]
  refine ⟨?_, fun ⟨word, behind, htokens, h⟩ => ⟨.word word, behind, htokens, h⟩⟩
  rintro ⟨token, behind, htokens, h⟩
  cases token with
  | word word => exact ⟨word, behind, htokens, h⟩
  | openParen => cases h
  | closeParen => cases h
  | comma => cases h
  | equal => cases h

theorem name_eq_ok {name : String} :
    Reading.name.run tokens = .ok (name, rest) ↔
      ∃ word, tokens = .cons (.word word) rest ∧ name = unquote word := by
  refine run_word_eq_ok.trans ?_
  simp only [run_pure_eq_ok]
  grind

theorem value_eq_ok {value : Value} :
    Reading.value.run tokens = .ok (value, rest) ↔
      ∃ word, tokens = .cons (.word word) rest ∧ Literal.read word = .ok value := by
  refine run_word_eq_ok.trans ?_
  simp only [liftM, monadLift, MonadLift.monadLift, run_lift_eq_ok]
  grind

theorem expect_eq_ok {expected : Token} {u : Unit} :
    (expect expected).run tokens = .ok (u, rest) ↔ tokens = .cons expected rest := by
  simp only [expect, run_bind_eq_ok, next_eq_ok]
  constructor
  · rintro ⟨found, behind, htokens, h⟩
    split at h
    · cases h
    · rename_i hfound
      rw [run_pure_eq_ok] at h
      rw [htokens, h.2, Decidable.not_not.mp hfound]
  · intro htokens
    refine ⟨expected, rest, htokens, ?_⟩
    rw [if_neg (by simp), run_pure_eq_ok]
    exact ⟨rfl, rfl⟩

theorem atEnd_eq_ok {u : Unit} :
    atEnd.run tokens = .ok (u, rest) ↔ tokens = .nil ∧ rest = .nil := by
  cases tokens with
  | nil =>
    show Except.ok ((), Tokens.nil) = Except.ok (u, rest) ↔ _
    simp [eq_comm]
  | unclosed word => exact ⟨nofun, nofun⟩
  | cons first behind => exact ⟨nofun, nofun⟩

theorem skipRest_eq_ok {u : Unit} :
    skipRest.run tokens = .ok (u, rest) ↔ (∃ ts, tokens = .ofList ts) ∧ rest = .nil := by
  rw [← Tokens.unclosed?_eq_none]
  show skipRest tokens = _ ↔ _
  cases h : tokens.unclosed? with
  | none => simp [skipRest, h, eq_comm]
  | some word => simp [skipRest, h]

theorem assignment_eq_ok {fields : Fields} :
    assignment.run tokens = .ok (fields, rest) ↔ ∃ column word value,
      tokens = .prepend (assigning column word) rest ∧ Literal.read word = .ok value ∧
        fields = .singleton (unquote column) value := by
  simp only [assignment, run_bind_eq_ok, run_pure_eq_ok, name_eq_ok, expect_eq_ok, value_eq_ok]
  constructor
  · rintro ⟨_, _, ⟨column, rfl, rfl⟩, _, _, rfl, value, _, ⟨word, rfl, hvalue⟩, rfl, rfl⟩
    exact ⟨column, word, value, rfl, hvalue, rfl⟩
  · rintro ⟨column, word, value, rfl, hvalue, rfl⟩
    exact ⟨_, _, ⟨column, rfl, rfl⟩, (), _, rfl, value, _, ⟨word, rfl, hvalue⟩, rfl, rfl⟩

theorem condition_eq_ok {fields : Fields} :
    condition.run tokens = .ok (fields, rest) ↔ ∃ column word value,
      tokens = .prepend (.word "where" :: assigning column word) rest ∧
        Literal.read word = .ok value ∧ fields = .singleton (unquote column) value := by
  simp only [condition, keyword, run_bind_eq_ok, expect_eq_ok, assignment_eq_ok]
  constructor
  · rintro ⟨_, _, rfl, column, word, value, rfl, hvalue, rfl⟩
    exact ⟨column, word, value, rfl, hvalue, rfl⟩
  · rintro ⟨column, word, value, rfl, hvalue, rfl⟩
    exact ⟨(), _, rfl, column, word, value, rfl, hvalue, rfl⟩

theorem declarations_eq_ok {words : List String} :
    StateT.run declarations tokens = .ok (words, rest) ↔
      rest = .nil ∧ ∃ written : List String, tokens = .ofList (written.map .word) ∧
        words = written.map unquote := by
  change declarations tokens = _ ↔ _
  induction tokens using declarations.induct generalizing words rest with
  | case1 =>
    rw [declarations]
    constructor
    · rintro ⟨⟩
      exact ⟨rfl, [], rfl, rfl⟩
    · rintro ⟨rfl, _ | ⟨w, written⟩, h, rfl⟩
      · rfl
      · cases h
  | case2 word =>
    refine ⟨nofun, ?_⟩
    rintro ⟨rfl, _ | ⟨w, written⟩, h, rfl⟩ <;> cases h
  | case3 word behind ih =>
    rw [declarations]
    simp only [bind_eq_ok_iff, Prod.exists, ih]
    constructor
    · rintro ⟨_, _, ⟨rfl, written, rfl, rfl⟩, ⟨⟩⟩
      exact ⟨rfl, word :: written, rfl, rfl⟩
    · rintro ⟨rfl, _ | ⟨w, written⟩, h, rfl⟩
      · cases h
      · cases h
        exact ⟨_, _, ⟨rfl, written, rfl, rfl⟩, rfl⟩
  | case4 found behind hfound =>
    rw [declarations.eq_4 found behind hfound]
    refine ⟨nofun, ?_⟩
    rintro ⟨rfl, _ | ⟨w, written⟩, h, rfl⟩
    · cases h
    · cases h
      exact (hfound w rfl).elim

theorem prepend_listing_cons (word : String) (words : List String) (rest : Tokens) :
    ∃ behind, Tokens.prepend (listing (word :: words)) rest = .cons (.word word) behind := by
  cases words with
  | nil => exact ⟨_, rfl⟩
  | cons second words => exact ⟨_, rfl⟩

theorem prepend_listing_cons_cons (first second : String) (words : List String) (rest : Tokens) :
    Tokens.prepend (listing (first :: second :: words)) rest =
      .cons (.word first) (.cons .comma (.prepend (listing (second :: words)) rest)) := by
  simp [listing]

theorem values_eq_ok {values : List Value} :
    Reading.values tokens = .ok (values, rest) ↔
      ∃ words, words ≠ [] ∧ tokens = .prepend (listing words) rest ∧
        List.Forall₂ (Literal.read · = .ok ·) words values := by
  induction tokens using Reading.values.induct generalizing values with
  | case1 =>
    refine ⟨nofun, ?_⟩
    rintro ⟨_ | ⟨w, words⟩, hne, h, -⟩
    · exact absurd rfl hne
    obtain ⟨_, hcons⟩ := prepend_listing_cons w words rest
    cases h.trans hcons
  | case2 word =>
    refine ⟨nofun, ?_⟩
    rintro ⟨_ | ⟨w, words⟩, hne, h, -⟩
    · exact absurd rfl hne
    obtain ⟨_, hcons⟩ := prepend_listing_cons w words rest
    cases h.trans hcons
  | case3 word behind ih =>
    rw [Reading.values]
    simp only [bind_eq_ok_iff]
    constructor
    · rintro ⟨v, hv, h⟩
      split at h
      · cases h
      · cases h
      · cases h
        exact ⟨[word], by simp, rfl, .cons hv .nil⟩
      · obtain ⟨⟨vs, behind'⟩, hvs, ⟨⟩⟩ := bind_eq_ok_iff.mp h
        obtain ⟨_ | ⟨second, words⟩, hne, rfl, hwords⟩ := ih.mp hvs
        · exact absurd rfl hne
        exact ⟨word :: second :: words, by simp, (prepend_listing_cons_cons ..).symm,
          .cons hv hwords⟩
      · cases h
    · rintro ⟨_ | ⟨w, _ | ⟨second, words⟩⟩, hne, h, hwords⟩
      · exact absurd rfl hne
      · cases h
        obtain _ | ⟨hv, _ | _⟩ := hwords
        exact ⟨_, hv, rfl⟩
      · cases h.trans (prepend_listing_cons_cons ..)
        obtain _ | ⟨hv, hvs⟩ := hwords
        exact ⟨_, hv, bind_eq_ok_iff.mpr ⟨_, ih.mpr ⟨_, by simp, rfl, hvs⟩, rfl⟩⟩
  | case4 found behind hfound =>
    rw [Reading.values.eq_4 found behind hfound]
    refine ⟨nofun, ?_⟩
    rintro ⟨_ | ⟨w, words⟩, hne, h, -⟩
    · exact absurd rfl hne
    obtain ⟨_, hcons⟩ := prepend_listing_cons w words rest
    cases h.trans hcons
    exact (hfound w rfl).elim

theorem valueList_eq_ok {values : List Value} :
    valueList.run tokens = .ok (values, rest) ↔
      ∃ words, tokens = .prepend (listing words) rest ∧
        List.Forall₂ (Literal.read · = .ok ·) words values := by
  change valueList tokens = _ ↔ _
  unfold valueList
  split
  · rename_i behind
    constructor
    · rintro ⟨⟩
      exact ⟨[], rfl, .nil⟩
    · rintro ⟨_ | ⟨w, words⟩, h, hwords⟩
      · cases h
        cases hwords
        rfl
      obtain ⟨_, hcons⟩ := prepend_listing_cons w words rest
      cases h.trans hcons
  · rename_i hparen
    rw [values_eq_ok]
    refine exists_congr fun words => and_iff_right_of_imp ?_
    rintro ⟨h, -⟩ rfl
    exact hparen rest h

end Reading
end Statement
end TableStore
