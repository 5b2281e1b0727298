import Mathlib.Data.List.Forall2
import TableStore.Proofs.Files.Commands

/-
What stands in stored files.

Writing and reading are inverse to each other over everything that a store can hold: a registry
keeps its order and its laws (`Schema.registry_read_back`), and rows keep every field, each written
once and in its place (`Rows.rows_read_back`).
-/
namespace TableStore

open Json Stateful Storage.Files

/-! ## Registries -/

namespace Schema

/-- Whatever is read as a registry could as well have been made by creating its tables. -/
theorem obtainable_of_ofJson {text : String} {s : Schema} (h : ofJson text = .ok s) :
    s.Obtainable := by
  refine Shape.read_invariant shape .badJson (P := Obtainable) .empty ?_ (mapError_eq_ok_iff.mp h)
  intro schema name columns schema' hschema hadd
  simp only [shape, bind_eq_ok_iff, mapError_eq_ok_iff] at hadd
  obtain ⟨name, -, hcreate⟩ := hadd
  exact hschema.create hcreate

/-- In either layout the text of a registry is read as this registry, with its tables and columns in
order, and every text that is read at all is read as such a registry. -/
theorem registry_read_back :
    (∀ s : Schema, s.Obtainable → ∀ l : Layout, ofJson (s.toJson l) = .ok s) ∧
    (∀ text s, ofJson text = .ok s →
      s.Obtainable ∧ s.names.Nodup ∧
      (∀ t ∈ s.tables, t.columns.head? = some ⟨"ID", .int⟩ ∧ t.columnNames.Nodup) ∧
      ∀ l : Layout, ofJson (s.toJson l) = .ok s) := by
  have hwritten : ∀ s : Schema, s.Obtainable → ∀ l : Layout, ofJson (s.toJson l) = .ok s :=
    fun s hs l => ofJson_toJson hs.valid l
  refine ⟨hwritten, fun text s h => ?_⟩
  have hs := obtainable_of_ofJson h
  have htables : ∀ t ∈ s.tables, t.columns.head? = some Column.key ∧ t.columnNames.Nodup :=
    fun t ht => ⟨(hs.valid.tables t ht).head, (hs.valid.tables t ht).nodup⟩
  exact ⟨hs, hs.valid.nodup, htables, hwritten s hs⟩

/-- Names with quotes, a line break and a character behind U+FFFF, behind a table that was dropped,
and a text that writes names with escapes and a type as an object. -/
theorem registry_read_back_odd_names :
    let odd : Table := ⟨"\"\n😀", [Column.key, ⟨"", .str⟩, ⟨"\\ é", .bool⟩]⟩
    let made : Schema := ⟨[odd, .blank "b"]⟩
    let text := "\x7b\"\\ud83d\\ude00\": \x7b\"ID\":\x7b\"int\":null\x7d,\"\\/\":\"bool\"\x7d," ++
      "\"a\":\x7b\"ID\":\"int\"\x7d\x7d"
    let found : Schema := ⟨[⟨"😀", [Column.key, ⟨"/", .bool⟩]⟩, .blank "a"]⟩
    (made.Obtainable ∧ ofJson (made.toJson .compact) = .ok made) ∧
      ofJson text = .ok found ∧ found.names.Nodup ∧ ofJson (found.toJson .pretty) = .ok found := by
  intro odd made text found
  have hmade : made.Obtainable := by
    have hfirst : Schema.empty.create (.blank "a") = .ok ⟨[.blank "a"]⟩ := by decide +kernel
    have hsecond : create ⟨[.blank "a"]⟩ odd = .ok ⟨[.blank "a", odd]⟩ := by decide +kernel
    have hthird : create ⟨[.blank "a", odd]⟩ (.blank "b") =
        .ok ⟨[.blank "a", odd, .blank "b"]⟩ := by
      decide +kernel
    have hdrop : drop? ⟨[.blank "a", odd, .blank "b"]⟩ "a" = some (.blank "a", made) := by
      decide +kernel
    exact .drop (.create (.create (.create .empty hfirst) hsecond) hthird) hdrop
  have hfound : ofJson text = .ok found := by decide +kernel
  obtain ⟨-, hnames, -, hwritten⟩ := registry_read_back.2 text found hfound
  exact ⟨⟨hmade, registry_read_back.1 made hmade .compact⟩, hfound, hnames, hwritten .pretty⟩

end Schema

/-! ## Rows -/

namespace Rows

/-- The fields of a record as they are to be listed: each of them once, the declared ones first, in
the order of the columns, and the others behind them, in the order of their names. -/
structure Listing (columns : List String) (record : Fields) (fields : List (String × Value)) :
    Prop where
  mem : ∀ name v, (name, v) ∈ fields ↔ record.get? name = some v
  nodup : (fields.map (·.1)).Nodup
  order : ∃ declared others, fields = declared ++ others ∧
    (declared.map (·.1)).Sublist columns ∧ (∀ f ∈ others, f.1 ∉ columns) ∧
    (others.map (·.1)).Pairwise (· < ·)

theorem declared_sublist (columns : List Column) (record : Fields) :
    ((columns.filterMap fun c => (record.get? c.name).map fun v => (c.name, v)).map (·.1)).Sublist
      (columns.map (·.name)) := by
  induction columns with
  | nil => exact .slnil
  | cons c columns ih =>
    rw [List.map_cons]
    cases h : record.get? c.name with
    | none =>
      simp only [List.filterMap_cons, h, Option.map_none]
      exact ih.cons c.name
    | some v =>
      simp only [List.filterMap_cons, h, Option.map_some, List.map_cons]
      exact ih.cons_cons c.name

theorem listing_fieldOrder {columns : List Column} (h : (columns.map (·.name)).Nodup)
    (record : Fields) : Listing (columns.map (·.name)) record (fieldOrder columns record) := by
  have hdeclared := declared_sublist columns record
  have hothers : ∀ f ∈ record.entries.filter (fun e => columns.all fun c => c.name ≠ e.1),
      f.1 ∉ columns.map (·.name) := by
    intro f hf hmem
    obtain ⟨c, hc, hname⟩ := List.mem_map.mp hmem
    have hall := (List.mem_filter.mp hf).2
    rw [List.all_eq_true] at hall
    exact absurd hname (by simpa using hall c hc)
  have hascending : ((record.entries.filter fun e => columns.all fun c => c.name ≠ e.1).map
      (·.1)).Pairwise (· < ·) :=
    List.pairwise_map.mpr (record.ascending.filter _)
  refine ⟨fun name v => mem_fieldOrder, ?_, _, _, rfl, hdeclared, hothers, hascending⟩
  rw [fieldOrder, List.map_append, List.nodup_append]
  have hdistinct : ∀ {a b : String}, a < b → a ≠ b := fun hlt heq => KeyOrder.irrefl _ (heq ▸ hlt)
  refine ⟨h.sublist hdeclared, hascending.imp hdistinct, ?_⟩
  intro name hname other hother heq
  obtain ⟨f, hf, rfl⟩ := List.mem_map.mp hother
  exact hothers f hf (heq ▸ hdeclared.subset hname)

/-- The text of records whose fields are listed already. -/
def listedText (l : Layout) (records : List (Int64 × List (String × Value))) : String :=
  String.ofList (l.object 0 (records.map fun r =>
    (Decimal.write r.1, l.object 1 (r.2.map fun f => (f.1, writeValue f.2)))))

theorem toJson_eq_listedText (l : Layout) (columns : List Column) (rows : Rows) :
    toJson l columns rows =
      listedText l (rows.entries.map fun e => (e.1, fieldOrder columns e.2)) := by
  rw [toJson, listedText, List.map_map]
  rfl

/-- The text of rows is read as these rows, whatever their fields and whatever columns are declared,
and a save that goes through leaves this text in the table's file.  If no column is declared twice,
the text lists every field of a record once and in its place. -/
theorem rows_read_back (table : Table) (rows : Rows) :
    ofJson (toJson .pretty table.columns rows) = .ok rows ∧
    (∀ (c : Config) (t t' : FileTree),
      run (Storage.saveRows table rows : FileTree.Stored (Except Fault Unit)) (c, t) =
        (.ok (), c, t') →
      t'.readFile (c.tablePath table.name) = .ok (toJson .pretty table.columns rows).toUTF8 ∧
        t'.rows c table.name = .ok rows) ∧
    (table.columnNames.Nodup → ∃ records, toJson .pretty table.columns rows =
        listedText .pretty records ∧
      (records.map (·.1)).Pairwise (· < ·) ∧
      List.Forall₂ (fun e r => r.1 = e.1 ∧ Listing table.columnNames e.2 r.2)
        rows.entries records) := by
  have hread := ofJson_toJson .pretty table.columns rows
  refine ⟨hread, fun c t t' h => ?_, fun hnodup => ?_⟩
  · have hsave : FileTree.Saves (c.tablePath table.name) (toJson .pretty table.columns rows) t
        (.ok ()) t' := by
      rw [run_saveRows, Prod.mk.injEq, Prod.mk.injEq] at h
      exact Prod.ext h.1 h.2.2
    have hfile := (save_eq_ok hsave (.refl t')).1
    refine ⟨hfile, ?_⟩
    rw [FileTree.rows_eq, hfile, decoded_toUTF8, hread]
    rfl
  · refine ⟨_, toJson_eq_listedText .pretty table.columns rows, ?_, ?_⟩
    · rw [List.map_map]
      exact List.pairwise_map.mpr rows.ascending
    · rw [List.forall₂_map_right_iff, List.forall₂_same]
      exact fun e _ => ⟨rfl, listing_fieldOrder hnodup e.2⟩

/-- A record that lacks a declared column and has fields that none declares, under the least key. -/
theorem rows_read_back_undeclared_fields :
    let table : Table := ⟨"t", [Column.key, ⟨"b", .bool⟩, ⟨"a", .str⟩]⟩
    let record : Fields := .ofList [("z", .str "42"), ("a", .str "\"é\n"), ("ID", .int 42)]
    let rows : Rows := .singleton Int64.minValue record
    let saved :=
      run (Storage.saveRows table rows : FileTree.Stored (Except Fault Unit)) ({}, .empty)
    saved = (.ok (), {}, saved.2.2) ∧ saved.2.2.rows {} "t" = .ok rows ∧ table.columnNames.Nodup ∧
      ∃ fields, toJson .pretty table.columns rows = listedText .pretty [(Int64.minValue, fields)] ∧
        Listing ["ID", "b", "a"] record fields := by
  intro table record rows saved
  have hsaved : saved = (.ok (), {}, saved.2.2) := by
    have hok : saved.1 = .ok () := by decide +kernel
    exact Prod.ext hok (by rfl)
  have hnodup : table.columnNames.Nodup := by decide
  obtain ⟨-, hfile, hlisted⟩ := rows_read_back table rows
  obtain ⟨records, htext, -, hrecords⟩ := hlisted hnodup
  have hsingle : List.Forall₂ (fun (e : Int64 × Fields) r => r.1 = e.1 ∧
      Listing table.columnNames e.2 r.2) [(Int64.minValue, record)] records := hrecords
  obtain ⟨⟨key, fields⟩, _, ⟨rfl, hfields⟩, hnone, rfl⟩ := List.forall₂_cons_left_iff.mp hsingle
  obtain rfl := List.forall₂_nil_left_iff.mp hnone
  exact ⟨hsaved, (hfile {} .empty _ hsaved).2, hnodup, fields, htext, hfields⟩

end Rows
end TableStore
