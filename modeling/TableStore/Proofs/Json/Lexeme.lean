import TableStore.Json.Layout
import TableStore.Proofs.Json.Escape

/-
Written objects are cut into the lexemes that they were put together from.

A layout only adds blanks, so the scan of an object is the same in both: a brace, the members with
commas between them, a brace (`Scans.object`).  A word is the one lexeme whose end is not its own
last character, so what is scanned is always taken together with something behind it that ends a
word.
-/
namespace TableStore
namespace Json

namespace Lexeme

/-! ## Single lexemes -/

theorem scan_mark {c : Char} {mark : Lexeme} (h : ofMark? c = some mark) (rest : List Char) :
    scan .between (c :: rest) = mark :: scan .between rest := by
  have hc : isBlank c = false ∧ c ≠ '"' := by
    unfold ofMark? at h
    split at h <;> first | decide | cases h
  simp [scan, hc, h, Mode.close]

theorem scan_blank {c : Char} (h : isBlank c = true) (rest : List Char) :
    scan .between (c :: rest) = scan .between rest := by
  simp [scan, h, Mode.close]

theorem scan_blanks {blanks : List Char} (h : ∀ c ∈ blanks, isBlank c = true) (rest : List Char) :
    scan .between (blanks ++ rest) = scan .between rest := by
  induction blanks with
  | nil => rfl
  | cons c blanks ih =>
    rw [List.cons_append, scan_blank (h c (by simp)), ih fun d hd => h d (by simp [hd])]

/-- A text that ends a word in front of it. -/
def Ends (rest : List Char) : Prop :=
  ∀ c, rest.head? = some c → isBlank c = true ∨ (ofMark? c).isSome = true

theorem ends_nil : Ends [] := by
  intro c h
  cases h

theorem ends_cons {c : Char} (h : isBlank c = true ∨ (ofMark? c).isSome = true)
    (rest : List Char) : Ends (c :: rest) := by
  intro d hd
  cases hd
  exact h

/-- A character that a word may have: no blank, no quote and no mark. -/
def InWord (c : Char) : Prop := isBlank c = false ∧ c ≠ '"' ∧ ofMark? c = none

theorem scan_word {word : List Char} (hword : ∀ c ∈ word, InWord c) (taken : List Char)
    {rest : List Char} (hrest : Ends rest) :
    scan (.word taken) (word ++ rest) = .word (taken.reverse ++ word) :: scan .between rest := by
  induction word generalizing taken with
  | nil =>
    cases rest with
    | nil => simp [scan, Mode.close]
    | cons c rest =>
      cases hb : isBlank c with
      | true => simp [scan, hb, Mode.close]
      | false =>
        obtain ⟨mark, hmark⟩ := Option.isSome_iff_exists.mp
          ((hrest c rfl).resolve_left (by simp [hb]))
        rw [scan_mark hmark]
        have hquote : c ≠ '"' := by
          rintro rfl
          cases hmark
        simp [scan, hb, hquote, hmark, Mode.close]
  | cons c word ih =>
    obtain ⟨hb, hquote, hmark⟩ := hword c (by simp)
    have hstep : scan (.word taken) (c :: word ++ rest) = scan (.word (c :: taken)) (word ++ rest) := by
      simp [scan, hb, hquote, hmark]
    rw [hstep, ih fun d hd => hword d (by simp [hd])]
    simp

/-- Scanned in front of anything that ends a word, the text gives these lexemes. -/
def Scans (written : List Char) (lexemes : List Lexeme) : Prop :=
  ∀ rest, Ends rest → scan .between (written ++ rest) = lexemes ++ scan .between rest

theorem Scans.text (s : String) : Scans (writeText s) [.text (escapeText s)] :=
  fun rest _ => scan_writeText s rest

theorem Scans.word {word : List Char} (hne : word ≠ []) (hword : ∀ c ∈ word, InWord c) :
    Scans word [.word word] := by
  intro rest hrest
  cases word with
  | nil => exact absurd rfl hne
  | cons c word =>
    obtain ⟨hb, hquote, hmark⟩ := hword c (by simp)
    have hstart : scan .between (c :: word ++ rest) = scan (.word [c]) (word ++ rest) := by
      simp [scan, hb, hquote, hmark]
    rw [hstart, scan_word (fun d hd => hword d (by simp [hd])) [c] hrest]
    simp

theorem Scans.ofText {written : String} {lexemes : List Lexeme}
    (h : Scans written.toList lexemes) : Lexeme.ofText written = lexemes := by
  have hscan := h [] ends_nil
  rwa [List.append_nil, show scan .between [] = [] from rfl, List.append_nil] at hscan

/-! ## Objects -/

/-- The lexemes of an object whose members' names and values have these. -/
def object (members : List (List Char × List Lexeme)) : List Lexeme :=
  opening :: [comma].intercalate (members.map fun m => text m.1 :: colon :: m.2) ++ [closing]

end Lexeme

open Lexeme

theorem intercalate_singleton_cons {α : Type} (a : α) (x : List α) (xs : List (List α)) :
    [a].intercalate (x :: xs) = x ++ xs.flatMap (a :: ·) := by
  induction xs generalizing x with
  | nil => simp
  | cons y ys ih => rw [List.intercalate_cons_cons, ih]; simp

theorem Lexeme.object_cons (m : List Char × List Lexeme) (members : List (List Char × List Lexeme)) :
    Lexeme.object (m :: members) =
      .opening :: .text m.1 :: .colon :: (m.2 ++
        (members.flatMap (fun m => .comma :: .text m.1 :: .colon :: m.2) ++ [.closing])) := by
  simp [Lexeme.object, intercalate_singleton_cons, List.flatMap_map]

namespace Layout

variable (l : Layout) (depth : Nat)

theorem isBlank_of_mem_lineStart {c : Char} (h : c ∈ l.lineStart depth) : isBlank c = true := by
  cases l with
  | compact => cases h
  | pretty =>
    rcases List.mem_cons.mp h with rfl | h
    · decide
    · rw [List.eq_of_mem_replicate h]
      decide

theorem scan_lineStart (rest : List Char) :
    scan .between (l.lineStart depth ++ rest) = scan .between rest :=
  scan_blanks (fun _ => l.isBlank_of_mem_lineStart depth) rest

theorem ends_lineStart (rest : List Char) : Ends (l.lineStart depth ++ '\x7d' :: rest) := by
  cases l with
  | compact => exact ends_cons (.inr rfl) rest
  | pretty => exact ends_cons (.inl rfl) _

theorem scan_afterKey (rest : List Char) :
    scan .between (l.afterKey ++ rest) = .colon :: scan .between rest := by
  cases l with
  | compact => exact scan_mark rfl rest
  | pretty => exact (scan_mark rfl _).trans (congrArg _ (scan_blank rfl rest))

theorem scans_member {name : String} {written : List Char} {lexemes : List Lexeme}
    (h : Scans written lexemes) :
    Scans (l.member depth (name, written)) (.text (escapeText name) :: .colon :: lexemes) := by
  intro rest hrest
  simp only [member, List.append_assoc]
  rw [scan_lineStart, scan_writeText, scan_afterKey, h rest hrest]
  rfl

end Layout

section Objects

variable {α : Type} {name : α → String} {written : α → List Char} {lexemes : α → List Lexeme}

theorem ends_further_members {β : Type} (items : List β) (member : β → List Char) {rest : List Char}
    (hrest : Ends rest) : Ends (items.flatMap (fun b => ',' :: member b) ++ rest) := by
  cases items with
  | nil => exact hrest
  | cons b items => exact ends_cons (.inr rfl) _

theorem scan_further_members (l : Layout) (depth : Nat) {items : List α}
    (h : ∀ a ∈ items, Scans (written a) (lexemes a)) {rest : List Char} (hrest : Ends rest) :
    scan .between
        (items.flatMap (fun a => ',' :: l.member depth (name a, written a)) ++ rest) =
      items.flatMap (fun a => .comma :: .text (escapeText (name a)) :: .colon :: lexemes a) ++
        scan .between rest := by
  induction items with
  | nil => rfl
  | cons a items ih =>
    simp only [List.flatMap_cons, List.append_assoc, List.cons_append]
    rw [scan_mark rfl,
      l.scans_member depth (h a (by simp)) _ (ends_further_members items _ hrest),
      ih fun b hb => h b (by simp [hb])]
    simp

theorem Lexeme.Scans.object (l : Layout) (depth : Nat) {items : List α}
    (h : ∀ a ∈ items, Scans (written a) (lexemes a)) :
    Scans (l.object depth (items.map fun a => (name a, written a)))
      (Lexeme.object (items.map fun a => (escapeText (name a), lexemes a))) := by
  intro rest _
  cases items with
  | nil =>
    show scan .between ('\x7b' :: '\x7d' :: rest) = _
    rw [scan_mark rfl, scan_mark rfl]
    rfl
  | cons a items =>
    rw [List.map_cons, List.map_cons, Lexeme.object_cons]
    simp only [Layout.object, List.map_cons, intercalate_singleton_cons, List.cons_append,
      List.nil_append, List.append_assoc, List.flatMap_map, List.map_map, Function.comp_def]
    have hclose : Ends (l.lineStart depth ++ '\x7d' :: rest) := l.ends_lineStart depth rest
    rw [scan_mark rfl,
      l.scans_member (depth + 1) (h a (by simp)) _ (ends_further_members items _ hclose),
      scan_further_members l (depth + 1) (fun b hb => h b (by simp [hb])) hclose,
      l.scan_lineStart, scan_mark rfl]
    rfl

end Objects
end Json
end TableStore
