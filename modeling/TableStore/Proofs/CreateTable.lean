import TableStore.Proofs.Declaration
import TableStore.Proofs.InPlace

/-
Making a table.

The faults are those of the name, of the registry and of the declarations, in this order.  The table that
the declarations build is valid (`Declaration.Built`), so the registry, which checks it once more, has
nothing left to refuse.
-/
namespace TableStore

open Stateful

/-- What cannot be the name of a table. -/
def BadName (name : String) : Prop := name = "" ∨ '/' ∈ name.toList ∨ '\\' ∈ name.toList

theorem Snapshot.validName_iff {name : String} : validName name = true ↔ ¬ BadName name := by
  have hchars : (name.toList.all fun c => c ≠ '/' && c ≠ '\\') = true ↔
      '/' ∉ name.toList ∧ '\\' ∉ name.toList := by
    rw [List.all_eq_true]
    constructor
    · intro h
      exact ⟨fun hmem => by simpa using h _ hmem, fun hmem => by simpa using h _ hmem⟩
    · intro h c hc
      have hslash : c ≠ '/' := fun heq => h.1 (heq ▸ hc)
      have hback : c ≠ '\\' := fun heq => h.2 (heq ▸ hc)
      simp [hslash, hback]
  rw [validName, Bool.and_eq_true, hchars, BadName, not_or, not_or]
  simp

/-- Why a registry gets no table of this name with these declarations, each cause behind the ones that
are looked for earlier. -/
inductive Schema.Rejects (schema : Schema) (name : String) (declarations : List String) :
    Fault → Prop where
  | name (h : BadName name) : Rejects schema name declarations (.invalidTableName name)
  | taken (hname : ¬ BadName name) (h : name ∈ schema.names) :
    Rejects schema name declarations (.refused (.taken name))
  | column (hname : ¬ BadName name) (hfree : name ∉ schema.names) {declaration : String}
    (h : Declaration.FirstWrong declarations declaration) :
    Rejects schema name declarations (.invalidColumn declaration)

namespace Snapshot

theorem createTable_of_rejects {s : Snapshot} {name : String} {declarations : List String}
    {fault : Fault} (h : s.schema.Rejects name declarations fault) :
    s.createTable name declarations = .error fault := by
  cases h with
  | name hname =>
    have hinvalid : validName name = false := by
      rw [← Bool.not_eq_true, validName_iff, not_not]
      exact hname
    simp only [createTable, hinvalid]
    rfl
  | taken hname htaken =>
    rw [← Schema.contains_iff] at htaken
    simp only [createTable, validName_iff.mpr hname, htaken]
    rfl
  | column hname hfree hfirst =>
    have hfree : s.schema.contains name = false := Schema.contains_eq_false_iff.mpr hfree
    simp only [createTable, validName_iff.mpr hname, hfree,
      Declaration.table_of_firstWrong hfirst name]
    rfl

theorem createTable_of_not_rejects {s : Snapshot} {name : String} {declarations : List String}
    (h : ∀ fault, ¬ s.schema.Rejects name declarations fault) :
    ∃ columns, Declaration.Declares declarations columns ∧
      s.createTable name declarations = .ok (.created name (Column.key :: columns),
        ⟨⟨s.schema.tables ++ [⟨name, Column.key :: columns⟩]⟩, s.rows⟩) := by
  have hname : ¬ BadName name := fun hbad => h _ (.name hbad)
  have hfree : name ∉ s.schema.names := fun htaken => h _ (.taken hname htaken)
  obtain ⟨t, ht, hbuilt⟩ :=
    Declaration.exists_table_of_no_firstWrong (fun _ hwrong => h _ (.column hname hfree hwrong)) name
  have hcolumns : t = ⟨name, Column.key :: t.dataColumns⟩ := by
    rw [← hbuilt.valid.columns_eq, ← Declaration.table_name ht]
  have hcontains : s.schema.contains name = false := Schema.contains_eq_false_iff.mpr hfree
  have hcreate : s.schema.create t = .ok ⟨s.schema.tables ++ [t]⟩ :=
    Schema.create_eq_ok_iff.mpr ⟨Declaration.table_name ht ▸ hcontains, hbuilt.valid, rfl⟩
  refine ⟨t.dataColumns, hbuilt.declared, createTable_eq_ok_iff.mpr
    ⟨validName_iff.mpr hname, hcontains, t, _, ht, hcreate, ?_, ?_⟩⟩
  · rw [hbuilt.valid.columns_eq]
  · rw [← hcolumns]

end Snapshot

/-- A table is made unless its name is bad, or is taken, or a declaration is wrong, and the fault is the
first of these.  The table has the primary key and the columns that are declared, in their order, and goes
behind the others.  It is always one that the registry takes. -/
theorem createTable_builds (s : Snapshot) (name : String) (declarations : List String) :
    let r := run (Statement.createTable name declarations).inPlace.run s
    (∀ fault, r = (.error fault, s) ↔ s.schema.Rejects name declarations fault) ∧
      ((∀ fault, ¬ s.schema.Rejects name declarations fault) →
        ∃ columns, Declaration.Declares declarations columns ∧
          r = (.ok (.created name (Column.key :: columns)),
            ⟨⟨s.schema.tables ++ [⟨name, Column.key :: columns⟩]⟩, s.rows⟩)) ∧
      ∀ t, Declaration.table name declarations = .ok t → t.validate = .ok () := by
  intro r
  have hr : r = InPlace.settled s (s.createTable name declarations) :=
    (Statement.createTable name declarations).settles_inPlace s
  have hrejected : ∀ fault, s.schema.Rejects name declarations fault → r = (.error fault, s) := by
    intro fault h
    rw [hr, Snapshot.createTable_of_rejects h]
    rfl
  have hbuilt : (∀ fault, ¬ s.schema.Rejects name declarations fault) →
      ∃ columns, Declaration.Declares declarations columns ∧
        r = (.ok (.created name (Column.key :: columns)),
          ⟨⟨s.schema.tables ++ [⟨name, Column.key :: columns⟩]⟩, s.rows⟩) := by
    intro h
    obtain ⟨columns, hcolumns, hcreate⟩ := Snapshot.createTable_of_not_rejects h
    refine ⟨columns, hcolumns, ?_⟩
    rw [hr, hcreate]
    rfl
  refine ⟨fun fault => ⟨fun h => ?_, hrejected fault⟩, hbuilt, fun t ht => ?_⟩
  · by_cases hnone : ∀ other, ¬ s.schema.Rejects name declarations other
    · obtain ⟨columns, -, hok⟩ := hbuilt hnone
      rw [hok] at h
      cases h
    · obtain ⟨other, hother⟩ := not_forall_not.mp hnone
      rw [hrejected other hother] at h
      cases h
      exact hother
  · exact Table.validate_eq_ok_iff.mpr (Declaration.sound_of_table ht).2.valid

/-- The primary key may be declared with any type.  White space does not make another name. -/
theorem createTable_builds_blank :
    let s : Snapshot := ⟨.empty, .empty⟩
    run (Statement.createTable "t" [" a : int", "ID:bool", "b:str\t"]).inPlace.run s =
        (.ok (.created "t" [Column.key, ⟨"a", .int⟩, ⟨"b", .str⟩]),
          ⟨⟨[⟨"t", [Column.key, ⟨"a", .int⟩, ⟨"b", .str⟩]⟩]⟩, .empty⟩) ∧
      run (Statement.createTable "t" ["a:int", "b:str", " a :str", "c"]).inPlace.run s =
        (.error (.invalidColumn " a :str"), s) := by
  intro s
  have hname : ¬ BadName "t" := Snapshot.validName_iff.mp rfl
  have hfirst : Declaration.States "a:int" "a" "int" :=
    Declaration.states_iff.mpr (by decide +kernel)
  have hrepeat : Declaration.States " a :str" "a" "str" :=
    Declaration.states_iff.mpr (by decide +kernel)
  have hbuilt : Declaration.table "t" ["a:int", "b:str"] =
      .ok ⟨"t", [Column.key, ⟨"a", .int⟩, ⟨"b", .str⟩]⟩ := rfl
  have hsound : Declaration.Sound ["a:int", "b:str"] := (Declaration.sound_of_table hbuilt).1
  have hwrong : Declaration.Wrong ["a:int", "b:str"] " a :str" :=
    .repeated hrepeat (by decide) List.mem_cons_self hfirst
  refine ⟨rfl, ((createTable_builds s "t" _).1 _).mpr (.column hname List.not_mem_nil ?_)⟩
  exact ⟨_, ⟨["c"], rfl⟩, hsound, hwrong⟩

end TableStore
