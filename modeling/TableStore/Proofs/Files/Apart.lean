import TableStore.Proofs.Files.Commands
import TableStore.Proofs.Files.RowPlaces

/-
The files of the tables and the file of the registry.

Nothing in a configuration keeps the file of a table from being the file of the registry.  If it is,
making the table saves the registry and writes the table's empty rows over it, so that the store has
no table left.  In every other run the two stay apart, because a table that is in the registry has its
file elsewhere, or can have none at all (`Apart`): an operating system that refuses its path, or a way
to it that is blocked, never lets the rows be written.
-/
namespace TableStore

open Stateful Storage.Files

namespace FileTree

/-- Why the file of a table is not the file of the registry. -/
inductive Apart (c : Config) (t : FileTree) (table : String) : Prop where
  | refused {cause : OsError} (h : Path.refused? (c.tablePath table) = some cause)
  | blocked {cause : OsError} (hcause : cause ≠ .notFound)
    (h : t.enter [] c.rowParts = .error cause)
  | elsewhere {here : List String} (hopen : t.enter [] c.rowParts = .ok here)
    (h : Path.place (c.tablePath table) ≠ Path.place c.schemaPath)

namespace Apart

variable {c : Config} {t t' : FileTree} {table : String} (h : Apart c t table)
include h

theorem keeps (hkeeps : t.Keeps t') : Apart c t' table := by
  cases h with
  | refused h => exact .refused h
  | blocked hcause h => exact .blocked hcause (hkeeps.enter_error hcause h)
  | elsewhere hopen h => exact .elsewhere (hkeeps.within.enter hopen) h

theorem within {here : List String} (hopen : t.enter [] c.rowParts = .ok here)
    (hwithin : t.Within t') : Apart c t' table := by
  cases h with
  | refused h => exact .refused h
  | blocked hcause h =>
    rw [hopen] at h
    cases h
  | elsewhere hopen h => exact .elsewhere (hwithin.enter hopen) h

/-- A table whose path leads somewhere later has its directory already. -/
theorem exists_enter (hslash : '/' ∉ table.toList) (hkeeps : t.Keeps t') {target : Target}
    (hresolve : t'.resolve (c.tablePath table) = .ok target) :
    ∃ here, t.enter [] c.rowParts = .ok here := by
  rw [c.resolve_rowFile hslash] at hresolve
  cases h with
  | refused h =>
    rw [h] at hresolve
    cases hresolve
  | blocked hcause h =>
    rw [hkeeps.enter_error hcause h] at hresolve
    cases hrefused : Path.refused? (c.tablePath table) with
    | some cause =>
      rw [hrefused] at hresolve
      cases hresolve
    | none =>
      rw [hrefused] at hresolve
      cases hresolve
  | elsewhere hopen _ => exact ⟨_, hopen⟩

/-- If the table's path leads anywhere, it leads elsewhere. -/
theorem place_ne (hslash : '/' ∉ table.toList) {target : Target}
    (hresolve : t.resolve (c.tablePath table) = .ok target) :
    Path.place (c.tablePath table) ≠ Path.place c.schemaPath := by
  obtain ⟨here, hopen⟩ := h.exists_enter hslash (.refl t) hresolve
  rw [c.resolve_rowFile hslash] at hresolve
  cases h with
  | refused h =>
    rw [h] at hresolve
    cases hresolve
  | blocked hcause h =>
    rw [hopen] at h
    cases h
  | elsewhere _ h => exact h

end Apart

/-! ## Saving rows -/

section

variable {c : Config} {t t' : FileTree} {table text : String} {r : Except Fault Unit}

theorem keeps_of_prepare {path : String}
    (h : run (prepare path : StateM FileTree _) t = (r, t')) : t.Grows t' := by
  have hgrows := growing_prepare path t
  rwa [h] at hgrows

theorem Saves.keeps {path : String} (h : Saves path text t r t') : t.Keeps t' := by
  rcases h.cases with ⟨fault, -, hrun⟩ | ⟨t₁, hrun, ⟨cause, -, -, rfl⟩ | ⟨hwrite, -⟩⟩
  · exact (keeps_of_prepare hrun).keeps
  · exact (keeps_of_prepare hrun).keeps
  · obtain ⟨here, name, -, -, hnode, rfl⟩ := writeFile_eq_ok hwrite
    exact (keeps_of_prepare hrun).keeps.trans (keeps_put hnode)

/-- A file that is read through one path is written through every path that leads to it. -/
theorem exists_writeFile {path path' name : String} {here : List String} {content : ByteArray}
    (hread : t.readFile path = .ok content) (hresolve : t.resolve path' = .ok (.entry here name false))
    (hplace : Path.place path' = Path.place path) (content' : ByteArray) :
    ∃ t', t.writeFile path' content' = .ok t' := by
  obtain ⟨⟨here', name', hresolve', hshort⟩, hcontent⟩ := readFile_eq_ok_iff.mp hread
  rw [← hplace, ← place_of_resolve hresolve] at hcontent
  have hnames : here ++ [name] = here' ++ [name'] := by
    rw [place_of_resolve hresolve, place_of_resolve hresolve', hplace]
  obtain ⟨-, hname⟩ := List.append_inj' hnames rfl
  obtain rfl : name = name' := by simpa using hname
  have hlook : t.look here name = .ok (some (.file content)) :=
    look_eq_ok_iff.mpr ⟨hshort, content?_eq_some.mp hcontent⟩
  refine ⟨t.put here name (.file content'), ?_⟩
  unfold writeFile
  rw [hresolve]
  show (t.look here name >>= _) = _
  rw [hlook]
  rfl

/-- The file of a table that is saved turns out to be apart from the registry's, which is then as it
was, or it is the registry's and was written. -/
theorem Saves.apart (hslash : '/' ∉ table.toList) {content : ByteArray}
    (hread : t.readFile c.schemaPath = .ok content) (h : Saves (c.tablePath table) text t r t') :
    (Apart c t' table ∧
      t'.content? (Path.place c.schemaPath) = t.content? (Path.place c.schemaPath)) ∨
    (r = .ok () ∧ Path.place (c.tablePath table) = Path.place c.schemaPath ∧
      t'.content? (Path.place c.schemaPath) = some text.toUTF8) := by
  cases hrefused : Path.refused? (c.tablePath table) with
  | some cause =>
    rcases h.cases with ⟨fault, -, hrun⟩ | ⟨t₁, hrun, ⟨cause, -, -, rfl⟩ | ⟨hwrite, -⟩⟩
    · exact .inl ⟨.refused hrefused, (keeps_of_prepare hrun).content _⟩
    · exact .inl ⟨.refused hrefused, (keeps_of_prepare hrun).content _⟩
    · obtain ⟨here, name, hresolve, -⟩ := writeFile_eq_ok hwrite
      rw [c.resolve_rowFile hslash, hrefused] at hresolve
      cases hresolve
  | none =>
    have hsettled {t₁ : FileTree} {made : Except Fault Unit}
        (hrun : run (prepare (c.tablePath table) : StateM FileTree _) t = (made, t₁)) :
        Settled c.rowParts t₁ made :=
      settled_prepare (c.parts_tablePath hslash)
        (not_or.mpr ⟨rowFile_ne table (by decide), rowFile_ne table (by decide)⟩) hrefused hrun
    rcases h.cases with ⟨fault, -, hrun⟩ | ⟨t₁, hrun, hwritten⟩
    · obtain ⟨cause, hcause, hblocked⟩ := hsettled hrun
      exact .inl ⟨.blocked hcause hblocked, (keeps_of_prepare hrun).content _⟩
    · obtain ⟨here, hopen⟩ := hsettled hrun
      have hgrows := keeps_of_prepare hrun
      have hresolve := c.resolve_rowFile hslash t₁
      rw [hrefused, hopen] at hresolve
      rcases hwritten with ⟨cause, hwrite, -, rfl⟩ | ⟨hwrite, rfl⟩
      · refine .inl ⟨.elsewhere hopen fun hplace => ?_, hgrows.content _⟩
        have hread' := hgrows.within.readFile hread (hgrows.content _)
        obtain ⟨t₂, hok⟩ := exists_writeFile hread' hresolve hplace text.toUTF8
        rw [hwrite] at hok
        cases hok
      · obtain ⟨here', name, hresolve', -, hnode, rfl⟩ := writeFile_eq_ok hwrite
        rw [content?_put, place_of_resolve hresolve']
        by_cases hplace : Path.place (c.tablePath table) = Path.place c.schemaPath
        · rw [if_pos hplace.symm]
          exact .inr ⟨rfl, hplace, rfl⟩
        · rw [if_neg (Ne.symm hplace), hgrows.content]
          exact .inl ⟨.elsewhere ((within_put hnode).enter hopen) hplace, rfl⟩

end

/-! ## Stores whose files are apart -/

section

variable {c : Config} {t t' : FileTree} {schema : Schema} {content : ByteArray}

theorem exists_readFile (hload : t.registry c = .ok schema) {name : String}
    (hname : name ∈ schema.names) : ∃ content, t.readFile c.schemaPath = .ok content := by
  rw [registry_eq] at hload
  cases hread : t.readFile c.schemaPath with
  | ok content => exact ⟨content, rfl⟩
  | error cause =>
    rw [hread] at hload
    cases cause with
    | notFound =>
      cases hload
      cases hname
    | _ => cases hload

theorem registry_of_content (hread : t.readFile c.schemaPath = .ok content) (hwithin : t.Within t')
    (hcontent : t'.content? (Path.place c.schemaPath) = t.content? (Path.place c.schemaPath)) :
    t'.registry c = t.registry c := by
  rw [registry_eq, registry_eq, hwithin.readFile hread hcontent, hread]

/-- The path of the registry is there as soon as any file is, and the files of the registry's tables
are apart from its own. -/
structure Sound (c : Config) (t : FileTree) : Prop where
  registry (names : List String) (h : (t.content? names).isSome) :
    ∃ here name, t.resolve c.schemaPath = .ok (.entry here name false)
  tables (schema : Schema) (hload : t.registry c = .ok schema) (name : String)
    (hname : name ∈ schema.names) : '/' ∉ name.toList ∧ Apart c t name

theorem sound_of_readFile (hread : t.readFile c.schemaPath = .ok content)
    (hload : t.registry c = .ok schema)
    (htables : ∀ name ∈ schema.names, '/' ∉ name.toList ∧ Apart c t name) : Sound c t := by
  obtain ⟨⟨here, name, hresolve, -⟩, -⟩ := readFile_eq_ok_iff.mp hread
  refine ⟨fun _ _ => ⟨here, name, hresolve⟩, fun schema' hload' => ?_⟩
  rw [hload] at hload'
  cases hload'
  exact htables

namespace Sound

variable (h : Sound c t)
include h

theorem grows (hgrows : t.Grows t') : Sound c t' := by
  constructor
  · intro names hnames
    rw [hgrows.content] at hnames
    obtain ⟨here, name, hresolve⟩ := h.registry names hnames
    exact ⟨here, name, hgrows.within.resolve hresolve⟩
  · intro schema hload name hname
    obtain ⟨content, hread⟩ := exists_readFile hload hname
    obtain ⟨⟨here, last, hresolve', hshort⟩, hcontent⟩ := readFile_eq_ok_iff.mp hread
    rw [hgrows.content] at hcontent
    -- The path led to the registry's file before there were further directories.
    obtain ⟨here', last', hresolve⟩ := h.registry _ (by rw [hcontent]; rfl)
    have hsame := hgrows.within.resolve hresolve
    rw [hresolve'] at hsame
    cases hsame
    have hread₀ : t.readFile c.schemaPath = .ok content :=
      readFile_eq_ok_iff.mpr ⟨⟨here, last, hresolve, hshort⟩, hcontent⟩
    rw [registry_of_content hread₀ hgrows.within (hgrows.content _)] at hload
    obtain ⟨hslash, hapart⟩ := h.tables schema hload name hname
    exact ⟨hslash, hapart.keeps hgrows.keeps⟩

/-- Saving rows of a table of the registry leaves the registry alone. -/
theorem changed (hload : t.registry c = .ok schema) {name text : String} (hname : name ∈ schema.names)
    {r : Except Fault Unit} (hsave : Saves (c.tablePath name) text t r t') :
    t'.registry c = .ok schema ∧ Sound c t' := by
  obtain ⟨content, hread⟩ := exists_readFile hload hname
  obtain ⟨hslash, hapart⟩ := h.tables schema hload name hname
  have hkeeps := hsave.keeps
  rcases hsave.apart hslash hread with ⟨-, hcontent⟩ | ⟨rfl, hplace, -⟩
  · have hload' := (registry_of_content hread hkeeps.within hcontent).trans hload
    refine ⟨hload', sound_of_readFile (hkeeps.within.readFile hread hcontent) hload' ?_⟩
    intro name hname
    obtain ⟨hslash, hapart⟩ := h.tables schema hload name hname
    exact ⟨hslash, hapart.keeps hkeeps⟩
  · obtain ⟨-, here, last, hresolve, -⟩ := save_eq_ok hsave (.refl t')
    exact absurd hplace ((hapart.keeps hkeeps).place_ne hslash hresolve)

end Sound

end

end FileTree
end TableStore
