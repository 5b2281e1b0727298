import TableStore.Proofs.Files.Calls
import TableStore.Storage.Memory

/-
A tree of files that keeps what a memory keeps.

`Mirrors` says of every node of the tree what it holds, and that nothing else is there.  Each call
answers the same on a tree and on the memory that it mirrors, and leaves a tree that mirrors the
memory it leaves.  Only names that a file can carry are asked for: the files of two tables then have
different names, and the operating system has no objection to any of them.
-/
namespace TableStore

open Stateful

namespace FileTree

/-- The tree holds the registry and the rows of the memory, each in its file, and nothing else. -/
structure Mirrors (t : FileTree) (memory : Memory) : Prop where
  valid : memory.schema.Valid
  schema : (t.nodes.get? ["db_meta.json"] = none ∧ memory.schema = .empty) ∨
    t.nodes.get? ["db_meta.json"] = some (.file (memory.schema.toJson .pretty).toUTF8)
  data : t.nodes.get? ["data"] = some .directory ∨
    (t.nodes.get? ["data"] = none ∧ ∀ table, memory.rows.get? table = none)
  rows : ∀ table rows, memory.rows.get? table = some rows → ∃ columns,
    t.nodes.get? ["data", rowFile table] = some (.file (Rows.toJson .pretty columns rows).toUTF8)
  others : ∀ names node, t.nodes.get? names = some node → names = ["db_meta.json"] ∨
    names = ["data"] ∨ ∃ table, memory.rows.contains table = true ∧ names = ["data", rowFile table]

theorem mirrors_empty : Mirrors empty .empty where
  valid := Schema.valid_empty
  schema := .inl ⟨rfl, rfl⟩
  data := .inr ⟨rfl, fun _ => rfl⟩
  rows _ _ h := by cases h
  others _ _ h := by cases h

namespace Mirrors

variable {t : FileTree} {memory : Memory} (h : Mirrors t memory)
include h

theorem get?_rowFile_of_none {table : String} (hrows : memory.rows.get? table = none) :
    t.nodes.get? ["data", rowFile table] = none := by
  cases hnode : t.nodes.get? ["data", rowFile table] with
  | none => rfl
  | some node =>
    rcases h.others _ node hnode with heq | heq | ⟨table', hcontains, heq⟩
    · simp at heq
    · simp at heq
    · obtain rfl : table = table' := rowFile_inj (by simpa using heq)
      rw [SortedMap.contains, hrows] at hcontains
      cases hcontains

/-! ## The registry -/

theorem run_loadSchema :
    run (Storage.loadSchema : Stored (Except Fault Schema)) ({}, t) =
      (.ok memory.schema, {}, t) := by
  rw [Storage.Files.run_loadSchema, readFile_schemaPath]
  rcases h.schema with ⟨hnone, hempty⟩ | hfile
  · rw [hnone, hempty]
    rfl
  · rw [hfile]
    simp only [Storage.Files.decoded_toUTF8, Schema.ofJson_toJson h.valid]
    rfl

theorem putSchema {schema : Schema} (hschema : schema.Valid) :
    Mirrors ⟨t.nodes.insert ["db_meta.json"] (.file (schema.toJson .pretty).toUTF8)⟩
      { memory with schema } where
  valid := hschema
  schema := .inr (by rw [SortedMap.get?_insert, if_pos rfl])
  data := by
    rw [SortedMap.get?_insert, if_neg (by decide)]
    exact h.data
  rows table rows hrows := by
    rw [SortedMap.get?_insert, if_neg (by simp)]
    exact h.rows table rows hrows
  others names node hnode := by
    rw [SortedMap.get?_insert] at hnode
    split at hnode
    · next heq => exact .inl heq
    · exact h.others names node hnode

theorem run_saveSchema {schema : Schema} (hschema : schema.Valid) :
    ∃ t', run (Storage.saveSchema schema : Stored (Except Fault Unit)) ({}, t) = (.ok (), {}, t') ∧
      Mirrors t' { memory with schema } := by
  refine ⟨_, ?_, h.putSchema hschema⟩
  rw [Storage.Files.run_saveSchema, Storage.Files.run_save,
    Storage.Files.run_prepare_schemaPath]
  simp only [writeFile_schemaPath]
  rcases h.schema with ⟨hnone, -⟩ | hfile
  · rw [hnone]
  · rw [hfile]

/-! ## Rows -/

theorem makeData : Mirrors ⟨t.nodes.insert ["data"] .directory⟩ memory where
  valid := h.valid
  schema := by
    rw [SortedMap.get?_insert, if_neg (by decide)]
    exact h.schema
  data := .inl (by rw [SortedMap.get?_insert, if_pos rfl])
  rows table rows hrows := by
    rw [SortedMap.get?_insert, if_neg (by simp)]
    exact h.rows table rows hrows
  others names node hnode := by
    rw [SortedMap.get?_insert] at hnode
    split at hnode
    · next heq => exact .inr (.inl heq)
    · exact h.others names node hnode

theorem putRows (table : String) (hdata : t.nodes.get? ["data"] = some .directory) (columns : List Column)
    (rows : Rows) :
    Mirrors ⟨t.nodes.insert ["data", rowFile table]
        (.file (Rows.toJson .pretty columns rows).toUTF8)⟩
      { memory with rows := memory.rows.insert table rows } where
  valid := h.valid
  schema := by
    rw [SortedMap.get?_insert, if_neg (by simp)]
    exact h.schema
  data := .inl (by
    rw [SortedMap.get?_insert, if_neg (by simp)]
    exact hdata)
  rows other found hfound := by
    rw [SortedMap.get?_insert] at hfound ⊢
    by_cases heq : other = table
    · rw [if_pos heq] at hfound
      cases hfound
      exact ⟨columns, if_pos (by rw [heq])⟩
    · rw [if_neg heq] at hfound
      rw [if_neg fun hfile => heq (rowFile_inj (by simpa using hfile))]
      exact h.rows other found hfound
  others names node hnode := by
    rw [SortedMap.get?_insert] at hnode
    split at hnode
    · next heq => exact .inr (.inr ⟨table, by simp [SortedMap.contains, SortedMap.get?_insert], heq⟩)
    · refine (h.others names node hnode).imp id (Or.imp id ?_)
      intro hother
      obtain ⟨other, hcontains, heq⟩ := hother
      refine ⟨other, ?_, heq⟩
      rw [SortedMap.contains, SortedMap.get?_insert]
      split
      · rfl
      · exact hcontains

theorem eraseRows (table : String) (hdata : t.nodes.get? ["data"] = some .directory) :
    Mirrors ⟨t.nodes.erase ["data", rowFile table]⟩
      { memory with rows := memory.rows.erase table } where
  valid := h.valid
  schema := by
    rw [SortedMap.get?_erase, if_neg (by simp)]
    exact h.schema
  data := .inl (by
    rw [SortedMap.get?_erase, if_neg (by simp)]
    exact hdata)
  rows other found hfound := by
    rw [SortedMap.get?_erase] at hfound ⊢
    by_cases heq : other = table
    · rw [if_pos heq] at hfound
      cases hfound
    · rw [if_neg heq] at hfound
      rw [if_neg fun hfile => heq (rowFile_inj (by simpa using hfile))]
      exact h.rows other found hfound
  others names node hnode := by
    rw [SortedMap.get?_erase] at hnode
    split at hnode
    · cases hnode
    · next hne =>
      refine (h.others names node hnode).imp id (Or.imp id ?_)
      intro hother
      obtain ⟨other, hcontains, rfl⟩ := hother
      refine ⟨other, ?_, rfl⟩
      rw [SortedMap.contains, SortedMap.get?_erase, if_neg]
      · exact hcontains
      · rintro rfl
        exact hne rfl

variable {table : String} (hname : FileName table)
include hname

theorem run_loadRows :
    run (Storage.loadRows table : Stored (Except Fault Rows)) ({}, t) =
      (.ok (memory.rowsOf table), {}, t) := by
  rw [Storage.Files.run_loadRows, Memory.rowsOf]
  rcases h.data with hdata | ⟨hdata, hnone⟩
  · rw [readFile_tablePath hname hdata]
    cases hrows : memory.rows.get? table with
    | none =>
      rw [h.get?_rowFile_of_none hrows]
      rfl
    | some rows =>
      obtain ⟨columns, hfile⟩ := h.rows table rows hrows
      rw [hfile]
      simp only [Storage.Files.decoded_toUTF8, Rows.ofJson_toJson]
      rfl
  · rw [readFile_tablePath_of_none hname hdata, hnone]
    rfl

theorem write_rows (hdata : t.nodes.get? ["data"] = some .directory) (columns : List Column)
    (rows : Rows) :
    t.writeFile (({} : Config).tablePath table) (Rows.toJson .pretty columns rows).toUTF8 =
      .ok ⟨t.nodes.insert ["data", rowFile table]
        (.file (Rows.toJson .pretty columns rows).toUTF8)⟩ := by
  rw [writeFile_tablePath hname hdata]
  cases hrows : memory.rows.get? table with
  | none => rw [h.get?_rowFile_of_none hrows]
  | some old =>
    obtain ⟨_, hfile⟩ := h.rows table old hrows
    rw [hfile]

theorem run_saveRows (columns : List Column) (rows : Rows) :
    ∃ t', run (Storage.saveRows ⟨table, columns⟩ rows : Stored (Except Fault Unit)) ({}, t) =
        (.ok (), {}, t') ∧
      Mirrors t' { memory with rows := memory.rows.insert table rows } := by
  rw [Storage.Files.run_saveRows, Storage.Files.run_save,
    Storage.Files.run_prepare_tablePath t hname.noSlash]
  rcases h.data with hdata | ⟨hdata, -⟩
  · rw [hdata]
    simp only [h.write_rows hname hdata]
    exact ⟨_, rfl, h.putRows table hdata columns rows⟩
  · have hmade : SortedMap.get? (t.nodes.insert ["data"] .directory) ["data"] = some .directory := by
      rw [SortedMap.get?_insert, if_pos rfl]
    rw [hdata]
    simp only [h.makeData.write_rows hname hmade]
    exact ⟨_, rfl, h.makeData.putRows table hmade columns rows⟩

theorem run_deleteRows :
    ∃ t', run (Storage.deleteRows table : Stored (Except Fault Unit)) ({}, t) = (.ok (), {}, t') ∧
      Mirrors t' { memory with rows := memory.rows.erase table } := by
  have hkept (hnone : memory.rows.get? table = none) :
      Mirrors t { memory with rows := memory.rows.erase table } := by
    have herase : memory.rows.erase table = memory.rows := by
      refine SortedMap.ext_get? fun other => ?_
      rw [SortedMap.get?_erase]
      split
      · next heq => rw [heq, hnone]
      · rfl
    rw [herase]
    exact h
  rw [Storage.Files.run_deleteRows, Storage.Files.run_remove]
  rcases h.data with hdata | ⟨hdata, hnone⟩
  · rw [removeFile_tablePath hname hdata]
    cases hrows : memory.rows.get? table with
    | none =>
      rw [h.get?_rowFile_of_none hrows]
      exact ⟨t, rfl, hkept hrows⟩
    | some rows =>
      obtain ⟨_, hfile⟩ := h.rows table rows hrows
      rw [hfile]
      exact ⟨_, rfl, h.eraseRows table hdata⟩
  · rw [removeFile_tablePath_of_none hname hdata]
    exact ⟨t, rfl, hkept (hnone table)⟩

end Mirrors
end FileTree
end TableStore
