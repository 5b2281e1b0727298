import TableStore.Proofs.Refusable
import TableStore.Schema

/-
What a registry of tables guarantees.

A registry is only ever built from the empty one by creating and dropping tables, and so obeys two
laws: every table starts with the primary key and repeats no column name, and no two tables share a
name (`Obtainable.valid`).  The look-up lemmas say what the two operations do to the table of every
name.
-/
namespace TableStore

theorem find?_of_mem_of_nodup {α : Type} (name : α → String) {l : List α} (h : (l.map name).Nodup)
    {a : α} (ha : a ∈ l) : l.find? (name · = name a) = some a := by
  induction l with
  | nil => cases ha
  | cons first rest ih =>
    obtain ⟨hfirst, hrest⟩ := List.nodup_cons.mp h
    rcases List.mem_cons.mp ha with rfl | ha
    · simp
    · have hne : name first ≠ name a := fun heq => hfirst (heq ▸ List.mem_map_of_mem ha)
      simp only [List.find?_cons, hne, decide_false]
      exact ih hrest ha

namespace Table

/-! ## Tables -/

/-- A table that a registry may hold. -/
structure Valid (t : Table) : Prop where
  head : t.columns.head? = some Column.key
  nodup : t.columnNames.Nodup

theorem firstRepeat?_eq_none_iff {seen names : List String} :
    firstRepeat? seen names = none ↔ names.Nodup ∧ ∀ name ∈ names, name ∉ seen := by
  induction names generalizing seen with
  | nil => simp [firstRepeat?]
  | cons name rest ih =>
    by_cases h : name ∈ seen
    · simp [firstRepeat?, h]
    · simp only [firstRepeat?, if_neg h, ih, List.nodup_cons, List.mem_cons, forall_eq_or_imp,
        not_or]
      constructor
      · intro h
        obtain ⟨hnodup, hfresh⟩ := h
        exact ⟨⟨fun hmem => (hfresh name hmem).1 rfl, hnodup⟩, h, fun n hn => (hfresh n hn).2⟩
      · intro h
        obtain ⟨⟨hmem, hnodup⟩, -, hfresh⟩ := h
        exact ⟨hnodup, fun n hn => ⟨fun heq => hmem (heq ▸ hn), hfresh n hn⟩⟩

theorem validate_eq_ok_iff {t : Table} : t.validate = .ok () ↔ t.Valid := by
  have hrepeat := @firstRepeat?_eq_none_iff [] t.columnNames
  unfold validate
  by_cases hhead : t.columns.head? = some Column.key
  · rw [if_pos hhead]
    cases h : firstRepeat? [] t.columnNames with
    | none => exact ⟨fun _ => ⟨hhead, (hrepeat.mp h).1⟩, fun _ => rfl⟩
    | some column =>
      refine ⟨fun hok => (by cases hok), fun hvalid => ?_⟩
      rw [hrepeat.mpr ⟨hvalid.nodup, by simp⟩] at h
      cases h
  · rw [if_neg hhead]
    exact ⟨fun hok => (by cases hok), fun hvalid => absurd hvalid.head hhead⟩

/-- The columns of a valid table: the primary key, then the ones that an insert fills. -/
theorem Valid.columns_eq {t : Table} (h : t.Valid) : t.columns = Column.key :: t.dataColumns := by
  obtain ⟨hhead, hnodup⟩ := h
  obtain ⟨name, columns⟩ := t
  cases columns with
  | nil => simp at hhead
  | cons c rest =>
    obtain rfl : c = Column.key := by simpa using hhead
    have hrest : ∀ c ∈ rest, (!c.isKey) = true := by
      intro c hc
      simp only [columnNames, List.map_cons, List.nodup_cons, List.mem_map, not_exists,
        not_and] at hnodup
      simpa [Column.isKey, Column.key] using hnodup.1 c hc
    show Column.key :: rest = Column.key :: List.filter (!·.isKey) (Column.key :: rest)
    rw [List.filter_cons_of_neg (by decide), List.filter_eq_self.mpr hrest]

theorem mem_dataColumns {t : Table} {c : Column} :
    c ∈ t.dataColumns ↔ c ∈ t.columns ∧ c.name ≠ keyColumn := by
  simp [dataColumns, Column.isKey]

theorem column?_eq_some {t : Table} {name : String} {c : Column} (h : t.column? name = some c) :
    c ∈ t.columns ∧ c.name = name :=
  ⟨List.mem_of_find?_eq_some h, by simpa using List.find?_some h⟩

theorem Valid.column?_of_mem {t : Table} (ht : t.Valid) {c : Column} (hc : c ∈ t.columns) :
    t.column? c.name = some c :=
  find?_of_mem_of_nodup Column.name ht.nodup hc

theorem Valid.nodup_dataColumns {t : Table} (ht : t.Valid) :
    (t.dataColumns.map (·.name)).Nodup :=
  ht.nodup.sublist (List.filter_sublist.map _)

end Table

/-! ## Registries -/

namespace Schema

/-- The two laws of a registry. -/
structure Valid (s : Schema) : Prop where
  tables : ∀ t ∈ s.tables, t.Valid
  nodup : s.names.Nodup

theorem table?_eq_some {s : Schema} {name : String} {t : Table} (h : s.table? name = some t) :
    t ∈ s.tables ∧ t.name = name :=
  ⟨List.mem_of_find?_eq_some h, by simpa using List.find?_some h⟩

theorem contains_iff {s : Schema} {name : String} : s.contains name = true ↔ name ∈ s.names := by
  simp [contains, table?, names]

theorem contains_eq_false_iff {s : Schema} {name : String} :
    s.contains name = false ↔ name ∉ s.names := by
  rw [Bool.eq_false_iff, Ne, contains_iff]

theorem contains_of_table? {s : Schema} {name : String} {t : Table} (h : s.table? name = some t) :
    s.contains name = true := by
  simp [contains, h]

theorem mem_names_of_table? {s : Schema} {name : String} {t : Table}
    (h : s.table? name = some t) : name ∈ s.names :=
  contains_iff.mp (contains_of_table? h)

theorem create_eq_ok_iff {s s' : Schema} {t : Table} :
    s.create t = .ok s' ↔
      s.contains t.name = false ∧ t.Valid ∧ s' = ⟨s.tables ++ [t]⟩ := by
  unfold create
  cases hc : s.contains t.name with
  | true => simp [throw, throwThe, MonadExceptOf.throw, bind, Except.bind]
  | false =>
    simp only [Bool.false_eq_true, if_false]
    rw [← Table.validate_eq_ok_iff]
    cases t.validate with
    | error cause => simp [bind, Except.bind]
    | ok _ => simp [bind, Except.bind, pure, Except.pure, eq_comm]

theorem drop?_eq_some_iff {s s' : Schema} {name : String} {t : Table} :
    s.drop? name = some (t, s') ↔
      s.table? name = some t ∧ s' = ⟨s.tables.eraseP (·.name = name)⟩ := by
  cases h : s.table? name with
  | none => simp [drop?, h]
  | some t' => simp [drop?, h, eq_comm]

theorem mem_names_of_drop? {s s' : Schema} {name : String} {t : Table}
    (h : s.drop? name = some (t, s')) : name ∈ s.names :=
  mem_names_of_table? (drop?_eq_some_iff.mp h).1

/-- Creating a table adds its name and changes no other look-up. -/
theorem table?_create {s s' : Schema} {t : Table} (h : s.create t = .ok s') (name : String) :
    s'.table? name = if name = t.name then some t else s.table? name := by
  obtain ⟨hfree, -, rfl⟩ := create_eq_ok_iff.mp h
  by_cases hname : name = t.name
  · subst hname
    have hnone : s.table? t.name = none := by simpa [contains] using hfree
    simp only [table?] at hnone ⊢
    simp [hnone]
  · have hne : t.name ≠ name := fun heq => hname heq.symm
    simp [table?, hname, hne]

/-- A table that is made has a new name. -/
theorem ne_of_create {s s' : Schema} {t found : Table} {name : String} (h : s.create t = .ok s')
    (hfound : s.table? name = some found) : name ≠ t.name := by
  rintro rfl
  have hfree := (create_eq_ok_iff.mp h).1
  rw [contains_of_table? hfound] at hfree
  cases hfree

theorem table?_create_of_some {s s' : Schema} {t found : Table} {name : String}
    (h : s.create t = .ok s') (hfound : s.table? name = some found) :
    s'.table? name = some found := by
  rw [table?_create h, if_neg (ne_of_create h hfound)]
  exact hfound

theorem names_create {s s' : Schema} {t : Table} (h : s.create t = .ok s') :
    s'.names = s.names ++ [t.name] := by
  obtain ⟨-, -, rfl⟩ := create_eq_ok_iff.mp h
  exact List.map_append

theorem table?_drop_of_ne {s s' : Schema} {t : Table} {name other : String}
    (h : s.drop? name = some (t, s')) (hother : other ≠ name) :
    s'.table? other = s.table? other := by
  obtain ⟨-, rfl⟩ := drop?_eq_some_iff.mp h
  simp only [table?]
  generalize s.tables = tables
  induction tables with
  | nil => rfl
  | cons t rest ih =>
    by_cases ht : t.name = name
    · have hne : name ≠ other := fun heq => hother heq.symm
      simp [ht, hne]
    · simp only [List.eraseP_cons, ht, decide_false, cond_false, List.find?_cons, ih]

theorem names_drop {s s' : Schema} {t : Table} {name : String}
    (h : s.drop? name = some (t, s')) : s'.names = s.names.erase name := by
  obtain ⟨-, rfl⟩ := drop?_eq_some_iff.mp h
  simp only [names]
  generalize s.tables = tables
  induction tables with
  | nil => rfl
  | cons t rest ih =>
    by_cases ht : t.name = name
    · simp [ht]
    · simp [ht, ih]

theorem valid_empty : Valid empty := ⟨by simp [empty], by simp [empty, names]⟩

theorem Valid.create {s s' : Schema} {t : Table} (hs : s.Valid) (h : s.create t = .ok s') :
    s'.Valid := by
  obtain ⟨hfree, ht, rfl⟩ := create_eq_ok_iff.mp h
  have hnot : t.name ∉ s.names := contains_eq_false_iff.mp hfree
  refine ⟨fun t' ht' => ?_, ?_⟩
  · rcases List.mem_append.mp ht' with ht' | ht'
    · exact hs.tables t' ht'
    · rw [List.mem_singleton.mp ht']
      exact ht
  · have hnodup := hs.nodup
    simp only [names, List.map_append, List.map_cons, List.map_nil] at hnot hnodup ⊢
    exact List.nodup_append.mpr ⟨hnodup, by simp, by
      intro a ha b hb heq
      rw [List.mem_singleton.mp hb] at heq
      exact hnot (heq ▸ ha)⟩

theorem Valid.drop {s s' : Schema} {t : Table} {name : String} (hs : s.Valid)
    (h : s.drop? name = some (t, s')) : s'.Valid := by
  have hnames := names_drop h
  obtain ⟨-, rfl⟩ := drop?_eq_some_iff.mp h
  refine ⟨fun t' ht' => hs.tables t' (List.mem_of_mem_eraseP ht'), ?_⟩
  rw [hnames]
  exact hs.nodup.erase name

theorem contains_drop_self {s s' : Schema} {t : Table} {name : String} (hs : s.Valid)
    (h : s.drop? name = some (t, s')) : s'.contains name = false := by
  rw [contains_eq_false_iff, names_drop h]
  exact hs.nodup.not_mem_erase

theorem Valid.table?_of_mem {s : Schema} (hs : s.Valid) {t : Table} (ht : t ∈ s.tables) :
    s.table? t.name = some t :=
  find?_of_mem_of_nodup Table.name hs.nodup ht

/-! ## Registries that operations lead to -/

/-- The registries that creating and dropping tables leads to. -/
inductive Obtainable : Schema → Prop where
  | empty : Obtainable .empty
  | create {s s' : Schema} {t : Table} (hs : Obtainable s) (h : s.create t = .ok s') :
    Obtainable s'
  | drop {s s' : Schema} {t : Table} {name : String} (hs : Obtainable s)
    (h : s.drop? name = some (t, s')) : Obtainable s'

theorem Obtainable.valid {s : Schema} (hs : s.Obtainable) : s.Valid := by
  induction hs with
  | empty => exact valid_empty
  | create _ h ih => exact ih.create h
  | drop _ h ih => exact ih.drop h

end Schema
end TableStore
