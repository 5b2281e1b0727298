import TableStore.Proofs.Files.Apart

/-
What a command leaves of the registry and of the other tables.

In a store that was empty once the tables of the registry keep their files apart from the registry's
(`sound_of_trace`).  So a command that changes rows writes the file of its table alone, and a table
that was made is listed behind the others.  There is one exception: a table whose file is the
registry's is not there any more once it is made, and the others have gone with it.
-/
namespace TableStore

open Stateful Storage.Files

namespace FileTree

section

variable {c : Config} {t t' : FileTree} {schema : Schema}

/-! ## What commands keep of a sound store -/

theorem content?_erase_of_ne {names others : List String} (h : others ≠ names) :
    (FileTree.mk (t.nodes.erase names)).content? others = t.content? others := by
  rw [content?, SortedMap.get?_erase, if_neg h, content?]

/-- Rows that are written over the registry read as a registry without tables. -/
theorem registry_of_emptyRows (columns : List Column)
    (hread : t.readFile c.schemaPath = .ok (Rows.toJson .pretty columns .empty).toUTF8) :
    t.registry c = .ok .empty := by
  have htext : Rows.toJson .pretty columns .empty = Schema.toJson .pretty .empty := rfl
  rw [registry_eq, hread, htext, decoded_toUTF8, Schema.ofJson_toJson Schema.valid_empty]
  rfl

namespace Sound

variable (h : Sound c t) (hload : t.registry c = .ok schema)
include h hload

/-- A table that is made stands in the registry behind the others, unless its rows went into the
registry's file. -/
theorem made {table : Table} {schema' : Schema} {t₁ : FileTree} {r : Except Fault Unit}
    (hname : Snapshot.validName table.name = true) (hcreate : schema.create table = .ok schema')
    (hsave : Saves c.schemaPath (schema'.toJson .pretty) t (.ok ()) t₁)
    (hrows : Saves (c.tablePath table.name) (Rows.toJson .pretty table.columns .empty) t₁ r t') :
    Sound c t' ∧ (r = .ok () → t'.registry c =
      .ok (if Path.place (c.tablePath table.name) = Path.place c.schemaPath then .empty
        else schema')) := by
  have hslash := Snapshot.slash_not_mem_of_validName hname
  have hsaved := registry_of_saves ((valid_of_registry hload).create hcreate) hsave
  have hread := (save_eq_ok hsave (.refl t₁)).1
  have hkeeps := hrows.keeps
  rcases hrows.apart hslash hread with ⟨hapart, hcontent⟩ | ⟨rfl, hplace, hwritten⟩
  · have hload' : t'.registry c = .ok schema' :=
      (registry_of_content hread hkeeps.within hcontent).trans hsaved
    have htables : ∀ name ∈ schema'.names, '/' ∉ name.toList ∧ Apart c t' name := by
      intro name hmem
      rw [Schema.names_create hcreate, List.mem_append, List.mem_singleton] at hmem
      rcases hmem with hold | rfl
      · have hbefore := h.tables schema hload name hold
        exact ⟨hbefore.1, (hbefore.2.keeps hsave.keeps).keeps hkeeps⟩
      · exact ⟨hslash, hapart⟩
    refine ⟨sound_of_readFile (hkeeps.within.readFile hread hcontent) hload' htables, ?_⟩
    rintro rfl
    obtain ⟨-, here, last, hresolve, -⟩ := save_eq_ok hrows (.refl t')
    rw [hload', if_neg (hapart.place_ne hslash hresolve)]
  · have hread' : t'.readFile c.schemaPath =
        .ok (Rows.toJson .pretty table.columns .empty).toUTF8 := by
      obtain ⟨⟨here, last, hresolve, hshort⟩, -⟩ := readFile_eq_ok_iff.mp hread
      exact readFile_eq_ok_iff.mpr
        ⟨⟨here, last, hkeeps.within.resolve hresolve, hshort⟩, hwritten⟩
    have hload' := registry_of_emptyRows table.columns hread'
    refine ⟨sound_of_readFile hread' hload' nofun, fun _ => ?_⟩
    rw [hload', if_pos hplace]

theorem dropped {name : String} {table : Table} {schema' : Schema} {t₁ : FileTree}
    {r : Except Fault Unit} (hdrop : schema.drop? name = some (table, schema'))
    (hsave : Saves c.schemaPath (schema'.toJson .pretty) t (.ok ()) t₁)
    (hremove : Removes (c.tablePath name) t₁ r t') : Sound c t' := by
  have hsaved := registry_of_saves ((valid_of_registry hload).drop hdrop) hsave
  have hread := (save_eq_ok hsave (.refl t₁)).1
  have htables : ∀ name ∈ schema.names, '/' ∉ name.toList ∧ Apart c t₁ name := by
    intro name hmem
    have hbefore := h.tables schema hload name hmem
    exact ⟨hbefore.1, hbefore.2.keeps hsave.keeps⟩
  have hrest : ∀ other ∈ schema'.names, other ∈ schema.names := by
    intro other hmem
    rw [Schema.names_drop hdrop] at hmem
    exact List.mem_of_mem_erase hmem
  have hname : name ∈ schema.names := Schema.mem_names_of_drop? hdrop
  rcases hremove.cases with rfl | hremoved
  · exact sound_of_readFile hread hsaved fun other hmem => htables other (hrest other hmem)
  · obtain ⟨here, last, hresolve, ⟨content, hnode⟩, rfl⟩ := removeFile_eq_ok hremoved
    obtain ⟨hslash, hapart⟩ := htables name hname
    have hne : Path.place c.schemaPath ≠ here ++ [last] := by
      rw [place_of_resolve hresolve]
      exact (hapart.place_ne hslash hresolve).symm
    have hwithin : t₁.Within ⟨t₁.nodes.erase (here ++ [last])⟩ :=
      within_erase (by rw [hnode]; exact nofun)
    have hcontent := content?_erase_of_ne (t := t₁) hne
    have hload' := (registry_of_content hread hwithin hcontent).trans hsaved
    refine sound_of_readFile (hwithin.readFile hread hcontent) hload' fun other hmem => ?_
    obtain ⟨hother, hapart'⟩ := htables other (hrest other hmem)
    obtain ⟨there, hopen⟩ := hapart.exists_enter hslash (.refl t₁) hresolve
    exact ⟨hother, hapart'.within hopen hwithin⟩

theorem writes {statement : Statement} {r : Except Fault Unit}
    (hwrites : Writes c schema t statement r t') : Sound c t' := by
  cases hwrites with
  | unsaved hrewrites hsave => exact h.grows (save_eq_error hsave).2.1
  | made hname htable hcreate hsave hrows =>
    subst htable
    exact (h.made hload hname hcreate hsave hrows).1
  | dropped hdrop hsave hremove => exact h.dropped hload hdrop hsave hremove
  | changed hname htable hsave =>
    have hmem := Schema.mem_names_of_table? htable
    exact (h.changed hload hmem hsave).2

end Sound

/-! ## The rows of the other tables -/

section

variable {table other : String} (hslash : '/' ∉ table.toList) (hother : '/' ∉ other.toList)
  (hne : other ≠ table)
include hother hne

include hslash

end

end

/-! ## Steps -/

section

variable {c : Config} {w : Session × Config × FileTree} (hconfig : w.2.1 = c) {step : Step}
  {outcome : Outcome} (hdone : (Session.act Stored step w).1 = .ok (some outcome))
include hconfig hdone

variable (h : Sound c w.2.2)
include h

end

/-! ## Runs -/

end FileTree
end TableStore
