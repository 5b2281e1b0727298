import TableStore.Proofs.CreateTable

/-
Declaring the columns of a table again.

A column is printed as `name:type`.  A name that a declaration states has no white space at its ends and,
since the first colon ends it, no colon in it (`States.declarable`).  So what is printed states the column
itself (`Declarable.states_text`), and the columns of a table that was made declare the same columns once
more (`printed_columns_declare`).
-/
namespace TableStore

open Stateful

/-- A trimmed text stays as it is when it is trimmed again. -/
theorem Text.Trimmed.self {inner outer : List Char} (h : Text.Trimmed inner outer) :
    Text.Trimmed inner inner where
  around := ⟨[], [], by simp, nofun, nofun⟩
  first := h.first
  last := h.last

theorem Text.Trimmed.subset {inner outer : List Char} (h : Text.Trimmed inner outer) :
    inner ⊆ outer := by
  obtain ⟨⟨front, behind, rfl, -, -⟩, -, -⟩ := h
  intro c hc
  exact List.mem_append_left _ (List.mem_append_right _ hc)

namespace DataType

theorem tag_ne_empty (type : DataType) : type.tag ≠ "" := by cases type <;> decide

theorem trimmed_tag (type : DataType) : Text.Trimmed type.tag.toList type.tag.toList := by
  rw [Text.trimmed_iff]
  cases type <;> decide +kernel

end DataType

namespace Declaration

/-! ## Names that can be declared -/

/-- A name that a declaration can state: the first colon ends it and it is trimmed.  It is not empty. -/
structure Declarable (name : String) : Prop where
  ne_empty : name ≠ ""
  no_colon : ':' ∉ name.toList
  trimmed : Text.Trimmed name.toList name.toList

theorem declarable_keyColumn : Declarable keyColumn where
  ne_empty := by decide
  no_colon := by decide
  trimmed := Text.trimmed_iff.mpr (by decide +kernel)

/-- Where a type is stated, the name stands in front of a colon. -/
theorem States.declarable {declaration name : String} {type : DataType}
    (h : States declaration name type.tag) (hname : name ≠ "") : Declarable name := by
  cases h with
  | colon htext hfirst hname' htag =>
    exact ⟨hname, fun hcolon => hfirst (hname'.subset hcolon), hname'.self⟩
  | bare _ _ htag => exact absurd htag type.tag_ne_empty

/-- The printed column states its name and its type. -/
theorem Declarable.states_text {c : Column} (h : Declarable c.name) :
    States c.text c.name c.dataType.tag := by
  have htext : c.text.toList = c.name.toList ++ ':' :: c.dataType.tag.toList := by
    simp [Column.text, String.toList_append]
  exact .colon htext h.no_colon h.trimmed c.dataType.trimmed_tag

theorem Declares.exists_states {declarations : List String} {columns : List Column}
    (h : Declares declarations columns) {c : Column} (hc : c ∈ columns) :
    ∃ declaration ∈ declarations, States declaration c.name c.dataType.tag := by
  induction h with
  | nil => cases hc
  | key _ _ ih =>
    obtain ⟨declaration, hmem, hstates⟩ := ih hc
    exact ⟨declaration, List.mem_cons_of_mem _ hmem, hstates⟩
  | column hstates _ _ ih =>
    rcases List.mem_cons.mp hc with rfl | hc
    · exact ⟨_, List.mem_cons_self, hstates⟩
    · obtain ⟨declaration, hmem, hstates⟩ := ih hc
      exact ⟨declaration, List.mem_cons_of_mem _ hmem, hstates⟩

theorem Sound.not_unnamed {declarations : List String} (h : Sound declarations)
    {declaration tag : String} (hmem : declaration ∈ declarations) :
    ¬ States declaration "" tag := by
  intro hstates
  obtain ⟨before, behind, rfl⟩ := List.append_of_mem hmem
  exact h before declaration ⟨behind, by simp⟩ (.unnamed hstates)

/-- Every column that was declared, and the primary key, can be declared. -/
theorem declarable_of_table {name : String} {declarations : List String} {t : Table}
    (h : table name declarations = .ok t) : ∀ c ∈ t.columns, Declarable c.name := by
  obtain ⟨hsound, hbuilt⟩ := sound_of_table h
  rw [hbuilt.valid.columns_eq, List.forall_mem_cons]
  refine ⟨declarable_keyColumn, fun c hc => ?_⟩
  obtain ⟨declaration, hmem, hstates⟩ := hbuilt.declared.exists_states hc
  exact hstates.declarable fun hempty => hsound.not_unnamed hmem (hempty ▸ hstates)

/-! ## The loop over printed columns -/

theorem Declarable.parts?_text {c : Column} (h : Declarable c.name) :
    parts? c.text = some (c.name, c.dataType) :=
  parts?_eq_some_iff.mpr h.states_text

/-- A printed column is added as it is. -/
theorem addTo_text {t : Table} {c : Column} (hc : Declarable c.name) (hkey : c.name ≠ keyColumn)
    (hfree : c.name ∉ t.columnNames) :
    addTo t c.text = .ok { t with columns := t.columns ++ [c] } := by
  have hnone : t.column? c.name = none := by
    rw [Table.column?, List.find?_eq_none]
    intro other hother
    simpa using fun heq => hfree (List.mem_map.mpr ⟨other, hother, heq⟩)
  have hright : ¬ (c.name = "" ∨ (t.column? c.name).isSome = true) := by
    simp [hnone, hc.ne_empty]
  rw [addTo_of_parts?_eq_some hc.parts?_text, if_neg hkey, if_neg hright]

/-- The printed primary key is passed over. -/
theorem addTo_text_key (t : Table) : addTo t Column.key.text = .ok t := by
  have hparts : parts? Column.key.text = some (keyColumn, .int) :=
    Declarable.parts?_text declarable_keyColumn
  rw [addTo_of_parts?_eq_some hparts, if_pos rfl]

/-- The loop puts the printed columns behind those that are there. -/
theorem foldlM_addTo_texts {t : Table} {columns : List Column}
    (hcolumns : ∀ c ∈ columns, Declarable c.name ∧ c.name ≠ keyColumn)
    (hdistinct : ((t.columns ++ columns).map (·.name)).Nodup) :
    (columns.map Column.text).foldlM addTo t =
      .ok { t with columns := t.columns ++ columns } := by
  induction columns generalizing t with
  | nil =>
    rw [List.append_nil]
    rfl
  | cons c rest ih =>
    obtain ⟨⟨hc, hkey⟩, hrest⟩ := List.forall_mem_cons.mp hcolumns
    have hmoved : t.columns ++ c :: rest = (t.columns ++ [c]) ++ rest := by simp
    have hfree : c.name ∉ t.columnNames := by
      rw [List.map_append, List.nodup_append] at hdistinct
      exact fun hmem => hdistinct.2.2 _ hmem _ List.mem_cons_self rfl
    rw [hmoved] at hdistinct ⊢
    rw [List.map_cons, List.foldlM_cons, addTo_text hc hkey hfree]
    exact ih (t := { t with columns := t.columns ++ [c] }) hrest hdistinct

/-- The printed columns of a valid table build it again. -/
theorem table_texts {t : Table} (hvalid : t.Valid) (hcolumns : ∀ c ∈ t.columns, Declarable c.name)
    (name : String) : table name (t.columns.map Column.text) = .ok ⟨name, t.columns⟩ := by
  have hdata : ∀ c ∈ t.dataColumns, Declarable c.name ∧ c.name ≠ keyColumn := fun c hc => by
    obtain ⟨hmem, hkey⟩ := Table.mem_dataColumns.mp hc
    exact ⟨hcolumns c hmem, hkey⟩
  have hdistinct : (((Table.blank name).columns ++ t.dataColumns).map (·.name)).Nodup := by
    have hnodup := hvalid.nodup
    rw [Table.columnNames, hvalid.columns_eq] at hnodup
    exact hnodup
  rw [hvalid.columns_eq, List.map_cons, table, List.foldlM_cons, addTo_text_key]
  exact foldlM_addTo_texts hdata hdistinct

end Declaration

/-- The columns of a table that was made, the primary key among them, declare the same columns again under
every name that is valid and free. -/
theorem printed_columns_declare {s after : Snapshot} {name : String} {declarations : List String}
    {outcome : Outcome}
    (h : run (Statement.createTable name declarations).inPlace.run s = (.ok outcome, after)) :
    ∃ t, after.schema.table? name = some t ∧ outcome = .created name t.columns ∧
      ∀ (later : Snapshot) (other : String), ¬ BadName other → other ∉ later.schema.names →
        run (Statement.createTable other (t.columns.map Column.text)).inPlace.run later =
          (.ok (.created other t.columns),
            ⟨⟨later.schema.tables ++ [⟨other, t.columns⟩]⟩, later.rows⟩) := by
  obtain ⟨-, -, t, schema, ht, hcreate, houtcome, rfl⟩ :=
    Snapshot.createTable_eq_ok_iff.mp (Statement.run_inPlace_eq_ok_iff.mp h)
  have htable : schema.table? name = some t := by
    rw [Schema.table?_create hcreate, if_pos (Declaration.table_name ht).symm]
  have hvalid : t.Valid := (Schema.create_eq_ok_iff.mp hcreate).2.1
  refine ⟨t, htable, houtcome, fun later other hother hfree => ?_⟩
  have hfree : later.schema.contains other = false := Schema.contains_eq_false_iff.mpr hfree
  have hagain := Declaration.table_texts hvalid (Declaration.declarable_of_table ht) other
  -- The table goes into any registry that its name is free in, since its columns are as valid as before.
  have hcreated : later.schema.create ⟨other, t.columns⟩ =
      .ok ⟨later.schema.tables ++ [⟨other, t.columns⟩]⟩ :=
    Schema.create_eq_ok_iff.mpr ⟨hfree, ⟨hvalid.head, hvalid.nodup⟩, rfl⟩
  exact Statement.run_inPlace_eq_ok_iff.mpr (Snapshot.createTable_eq_ok_iff.mpr
    ⟨Snapshot.validName_iff.mpr hother, hfree, _, _, hagain, hcreated, rfl, rfl⟩)

/-- White space around a name is not part of the column, and inside of a name it is. -/
theorem printed_columns_declare_trimmed :
    let s : Snapshot := ⟨.empty, .empty⟩
    let columns : List Column := [Column.key, ⟨"a b", .int⟩, ⟨"c", .str⟩]
    let after : Snapshot := ⟨⟨[⟨"t", columns⟩]⟩, .empty⟩
    (run (Statement.createTable "t" ["\u00a0a b :\tint", "ID:bool", "c:str"]).inPlace.run s =
        (.ok (.created "t" columns), after) ∧ ¬ BadName "u" ∧ "u" ∉ after.schema.names) ∧
      run (Statement.createTable "u" ["ID:int", "a b:int", "c:str"]).inPlace.run after =
        (.ok (.created "u" columns), ⟨⟨[⟨"t", columns⟩, ⟨"u", columns⟩]⟩, .empty⟩) := by
  intro s columns after
  have hmade : run (Statement.createTable "t" ["\u00a0a b :\tint", "ID:bool", "c:str"]).inPlace.run s =
      (.ok (.created "t" columns), after) := rfl
  have hname : ¬ BadName "u" := Snapshot.validName_iff.mp rfl
  have hfree : "u" ∉ after.schema.names := by decide
  obtain ⟨t, ht, -, hagain⟩ := printed_columns_declare hmade
  cases ht
  exact ⟨⟨hmade, hname, hfree⟩, hagain after "u" hname hfree⟩

end TableStore
