import TableStore.Json.RowFile
import TableStore.Json.SchemaFile
import TableStore.Proofs.Decimal
import TableStore.Proofs.Json.Nested
import TableStore.Proofs.Schema

/-
Stored files read back as what was written into them.

Every valid registry comes back as it was (`Schema.ofJson_toJson`), and so do all rows, whatever
columns their fields were ordered by (`Rows.ofJson_toJson`): the order of the fields is no part of a
record, and a field that is written twice is written with the same value.
-/
namespace TableStore
namespace Json

open Lexeme

/-! ## Members -/

theorem readName?_escapeText (s : String) : readName? (escapeText s) = some s := by
  rw [readName?, readText_escapeText, Option.map_some, String.ofList_toList]

theorem readInteger?_write (n : Int64) : readInteger? (Decimal.write n).toList = some n := by
  rw [readInteger?, Decimal.read_write]
  simp

theorem readType?_tag (t : DataType) : readType? (.text (escapeText t.tag)) = some t := by
  show readName? (escapeText t.tag) >>= DataType.ofTag? = some t
  rw [readName?_escapeText]
  exact DataType.ofTag?_tag t

/-- The leaf that a value is written as. -/
def leaf : Value → Leaf
  | .bool b => .word (Value.bool b).text.toList
  | .int n => .word (Decimal.write n).toList
  | .str s => .text (escapeText s)

theorem write_ne_of_mem (n : Int64) {word : List Char} {c : Char} (hc : c ∈ word)
    (hletter : c.isDigit = false ∧ c ≠ '-') : (Decimal.write n).toList ≠ word := by
  rintro rfl
  rcases Decimal.mem_write hc with h | h
  · rw [hletter.1] at h
    cases h
  · exact hletter.2 h

theorem readValue?_leaf (v : Value) : readValue? (leaf v) = some v := by
  cases v with
  | bool b => cases b <;> rfl
  | int n =>
    have htrue : (Decimal.write n).toList ≠ "true".toList :=
      write_ne_of_mem n (c := 't') (by decide) (by decide)
    have hfalse : (Decimal.write n).toList ≠ "false".toList :=
      write_ne_of_mem n (c := 'f') (by decide) (by decide)
    simp only [leaf, readValue?, htrue, hfalse, if_false, readInteger?_write, Option.map_some]
  | str s => simp only [leaf, readValue?, readName?_escapeText, Option.map_some]

theorem isDigit_range {c : Char} (h : c.isDigit = true) : 48 ≤ c.toNat ∧ c.toNat ≤ 57 := by
  simpa [Char.isDigit, Char.le_def, UInt32.le_iff_toNat_le] using h

theorem ne_of_isDigit {c d : Char} (h : c.isDigit = true) (hd : d.isDigit = false) : c ≠ d := by
  rintro rfl
  rw [h] at hd
  cases hd

theorem inWord_of_isDigit {c : Char} (h : c.isDigit = true) : InWord c := by
  refine ⟨?_, ne_of_isDigit h (by decide), ?_⟩
  · simp only [isBlank, Bool.or_eq_false_iff, decide_eq_false_iff_not]
    exact ⟨⟨⟨ne_of_isDigit h (by decide), ne_of_isDigit h (by decide)⟩,
      ne_of_isDigit h (by decide)⟩, ne_of_isDigit h (by decide)⟩
  · unfold ofMark?
    split
    · exact absurd rfl (ne_of_isDigit h (by decide))
    · exact absurd rfl (ne_of_isDigit h (by decide))
    · exact absurd rfl (ne_of_isDigit h (by decide))
    · exact absurd rfl (ne_of_isDigit h (by decide))
    · rfl

theorem escapeText_write (n : Int64) : escapeText (Decimal.write n) = (Decimal.write n).toList := by
  refine escapeText_of_plain fun c hc => ?_
  rcases Decimal.mem_write hc with h | rfl
  · exact ⟨ne_of_isDigit h (by decide), ne_of_isDigit h (by decide),
      fun hlt => absurd (isDigit_range h).1 (by have : c.toNat < 32 := hlt; omega)⟩
  · unfold Plain
    decide

theorem scans_writeValue (v : Value) : Scans (writeValue v) (leaf v).lexemes := by
  cases v with
  | bool b =>
    refine Scans.word ?_ ?_
    · cases b <;> decide
    · intro c hc
      have hall : (Value.bool b).text.toList.all
          (fun c => isBlank c = false ∧ c ≠ '"' ∧ ofMark? c = none) = true := by
        cases b <;> decide
      have hc' := List.all_eq_true.mp hall c hc
      rw [decide_eq_true_eq] at hc'
      exact hc'
  | int n =>
    refine Scans.word (Decimal.write_ne_nil n) fun c hc => ?_
    rcases Decimal.mem_write hc with h | rfl
    · exact inWord_of_isDigit h
    · unfold InWord
      decide
  | str s => exact Scans.text s

end Json

open Json Lexeme

/-! ## Registries -/

namespace Schema

/-- A registry as it is read: the names and columns of its tables. -/
def sections (s : Schema) : List (List Char × List (List Char × Leaf)) :=
  s.tables.map fun t => (escapeText t.name,
    t.columns.map fun c => (escapeText c.name, .text (escapeText c.dataType.tag)))

theorem ofText_toJson (l : Layout) (s : Schema) :
    Lexeme.ofText (s.toJson l) = Lexeme.object (s.sections.map fun part =>
      (part.1, Lexeme.object (part.2.map fun m => (m.1, m.2.lexemes)))) := by
  refine Scans.ofText ?_
  rw [toJson, String.toList_ofList]
  simp only [sections, List.map_map, Function.comp_def]
  exact Scans.object l 0 fun t _ => Scans.object l 1 fun c _ => Scans.text c.dataType.tag

theorem takeMembers_columns (columns done : List Column) :
    shape.takeMembers done
      (columns.map fun c => (escapeText c.name, .text (escapeText c.dataType.tag))) =
      .ok (done ++ columns) := by
  induction columns generalizing done with
  | nil => simp [Shape.takeMembers, pure, Except.pure]
  | cons c columns ih =>
    have hmember : shape.addMember done (escapeText c.name) (.text (escapeText c.dataType.tag)) =
        .ok (done ++ [c]) := by
      simp only [shape, readName?_escapeText, readType?_tag]
      rfl
    rw [Shape.takeMembers, List.map_cons, List.foldlM_cons, hmember]
    exact (ih (done ++ [c])).trans (by simp)

theorem takeParts_tables {tables done : List Table} (h : Valid ⟨done ++ tables⟩) :
    shape.takeParts ⟨done⟩ (sections ⟨tables⟩) = .ok ⟨done ++ tables⟩ := by
  induction tables generalizing done with
  | nil => simp [Shape.takeParts, sections, pure, Except.pure]
  | cons t tables ih =>
    have hmoved : done ++ t :: tables = (done ++ [t]) ++ tables := by simp
    have hcreate : create ⟨done⟩ t = .ok ⟨done ++ [t]⟩ := by
      refine create_eq_ok_iff.mpr ⟨?_, h.tables t (by simp), rfl⟩
      rw [contains_eq_false_iff]
      have hnodup := h.nodup
      simp only [names, List.map_append, List.map_cons] at hnodup ⊢
      exact fun hmem => (List.nodup_append.mp hnodup).2.2 t.name hmem t.name (by simp) rfl
    have hpart : shape.addPart ⟨done⟩ (escapeText t.name) t.columns = .ok ⟨done ++ [t]⟩ := by
      simp only [shape, readName?_escapeText, expect]
      show (create ⟨done⟩ t).mapError _ = _
      rw [hcreate]
      rfl
    have hrest := @ih (done ++ [t]) (hmoved ▸ h)
    simp only [Shape.takeParts, sections, List.map_cons, List.foldlM_cons] at hrest ⊢
    rw [takeMembers_columns t.columns shape.part]
    show (shape.addPart ⟨done⟩ (escapeText t.name) t.columns >>= _) = _
    rw [hpart, hmoved]
    exact hrest

/-- A valid registry is read back from what it is written as. -/
theorem ofJson_toJson {s : Schema} (h : s.Valid) (l : Layout) : ofJson (s.toJson l) = .ok s := by
  rw [ofJson, ofText_toJson, Shape.read_object]
  exact mapError_eq_ok_iff.mpr (@takeParts_tables s.tables [] h)

/-- Whatever is read as a registry is a valid one. -/
theorem valid_of_ofJson {text : String} {s : Schema} (h : ofJson text = .ok s) : s.Valid := by
  refine Shape.read_invariant shape .badJson (P := Valid) valid_empty ?_ (mapError_eq_ok_iff.mp h)
  intro schema name columns schema' hvalid hadd
  simp only [shape, bind_eq_ok_iff, mapError_eq_ok_iff] at hadd
  obtain ⟨name, -, hcreate⟩ := hadd
  exact hvalid.create hcreate

end Schema

/-! ## Rows -/

namespace SortedMap

variable {κ α : Type} [LT κ] [KeyOrder κ] [DecidableEq κ] [DecidableLT κ]

/-- Bindings of a map, inserted in any order and any number of times until none is missing, make up
the map. -/
theorem foldl_insert_eq {m acc : SortedMap κ α} {l : List (κ × α)}
    (hl : ∀ e ∈ l, m.get? e.1 = some e.2)
    (hacc : ∀ k, acc.get? k = m.get? k ∨ ∃ v, (k, v) ∈ l) :
    l.foldl (fun acc e => acc.insert e.1 e.2) acc = m := by
  induction l generalizing acc with
  | nil => exact ext_get? fun k => (hacc k).resolve_right (by simp)
  | cons e l ih =>
    refine ih (fun d hd => hl d (by simp [hd])) fun k => ?_
    rw [get?_insert]
    by_cases hk : k = e.1
    · rw [if_pos hk, hk, hl e (by simp)]
      exact .inl rfl
    · rw [if_neg hk]
      refine (hacc k).imp id ?_
      intro hvalue
      obtain ⟨v, hv⟩ := hvalue
      rcases List.mem_cons.mp hv with rfl | hv
      · exact absurd rfl hk
      · exact ⟨v, hv⟩

theorem foldl_insert_entries (m : SortedMap κ α) :
    m.entries.foldl (fun acc e => acc.insert e.1 e.2) empty = m := by
  refine foldl_insert_eq (fun e he => get?_eq_some_iff.mpr he) fun k => ?_
  cases h : m.get? k with
  | none => exact .inl rfl
  | some v => exact .inr ⟨v, get?_eq_some_iff.mp h⟩

end SortedMap

namespace Rows

/-- Rows as they are read: their keys and the fields of their records. -/
def sections (columns : List Column) (rows : Rows) : List (List Char × List (List Char × Leaf)) :=
  rows.entries.map fun e => ((Decimal.write e.1).toList,
    (fieldOrder columns e.2).map fun f => (escapeText f.1, leaf f.2))

/-- Whatever the columns, a record is written with all of its fields and no others. -/
theorem mem_fieldOrder {columns : List Column} {record : Fields} {name : String} {v : Value} :
    (name, v) ∈ fieldOrder columns record ↔ record.get? name = some v := by
  simp only [fieldOrder, List.mem_append, List.mem_filterMap, Option.map_eq_some_iff,
    Prod.mk.injEq, List.mem_filter, ← SortedMap.get?_eq_some_iff]
  constructor
  · intro h
    rcases h with ⟨c, -, w, hw, rfl, rfl⟩ | ⟨h, -⟩
    · exact hw
    · exact h
  · intro h
    by_cases hc : ∃ c ∈ columns, c.name = name
    · obtain ⟨c, hc, rfl⟩ := hc
      exact .inl ⟨c, hc, v, h, rfl, rfl⟩
    · refine .inr ⟨h, ?_⟩
      simp only [List.all_eq_true, decide_eq_true_eq]
      exact fun c hmem heq => hc ⟨c, hmem, heq⟩

theorem ofText_toJson (l : Layout) (columns : List Column) (rows : Rows) :
    Lexeme.ofText (toJson l columns rows) = Lexeme.object ((sections columns rows).map fun part =>
      (part.1, Lexeme.object (part.2.map fun m => (m.1, m.2.lexemes)))) := by
  refine Scans.ofText ?_
  rw [toJson, String.toList_ofList]
  simp only [sections, List.map_map, Function.comp_def, ← escapeText_write]
  exact Scans.object l 0 fun e _ => Scans.object l 1 fun f _ => scans_writeValue f.2

theorem takeMembers_fields (fields : List (String × Value)) (done : Fields) :
    shape.takeMembers done (fields.map fun f => (escapeText f.1, leaf f.2)) =
      .ok (fields.foldl (fun record f => record.insert f.1 f.2) done) := by
  induction fields generalizing done with
  | nil => rfl
  | cons f fields ih =>
    have hmember : shape.addMember done (escapeText f.1) (leaf f.2) = .ok (done.insert f.1 f.2) := by
      simp only [shape, readName?_escapeText, readValue?_leaf]
      rfl
    rw [Shape.takeMembers, List.map_cons, List.foldlM_cons, hmember]
    exact ih (done.insert f.1 f.2)

theorem takeMembers_record (columns : List Column) (record : Fields) :
    shape.takeMembers shape.part
      ((fieldOrder columns record).map fun f => (escapeText f.1, leaf f.2)) = .ok record := by
  rw [takeMembers_fields]
  refine congrArg Except.ok (SortedMap.foldl_insert_eq (fun f hf => mem_fieldOrder.mp hf) ?_)
  intro name
  cases h : record.get? name with
  | none => exact .inl rfl
  | some v => exact .inr ⟨v, mem_fieldOrder.mpr h⟩

theorem takeParts_records (columns : List Column) (entries : List (Int64 × Fields)) (done : Rows) :
    shape.takeParts done (entries.map fun e => ((Decimal.write e.1).toList,
      (fieldOrder columns e.2).map fun f => (escapeText f.1, leaf f.2))) =
      .ok (entries.foldl (fun rows e => rows.insert e.1 e.2) done) := by
  induction entries generalizing done with
  | nil => rfl
  | cons e entries ih =>
    have hpart : shape.addPart done (Decimal.write e.1).toList e.2 = .ok (done.insert e.1 e.2) := by
      simp only [shape, readInteger?_write]
      rfl
    simp only [Shape.takeParts, List.map_cons, List.foldlM_cons] at ih ⊢
    rw [takeMembers_record]
    show (shape.addPart done (Decimal.write e.1).toList e.2 >>= _) = _
    rw [hpart]
    exact ih (done.insert e.1 e.2)

/-- All rows are read back from what they are written as. -/
theorem ofJson_toJson (l : Layout) (columns : List Column) (rows : Rows) :
    ofJson (toJson l columns rows) = .ok rows := by
  rw [ofJson, ofText_toJson, Shape.read_object, mapError_eq_ok_iff]
  refine (takeParts_records columns rows.entries .empty).trans ?_
  rw [SortedMap.foldl_insert_entries]

end Rows
end TableStore
