import TableStore.Proofs.Files.Commands
import TableStore.Proofs.Files.RowPlaces

/-
Which files a session over the default configuration touches.

A session writes and removes the file of the registry and the files of tables, and a table that it
makes has a name without a slash.  So as long as no table of the registry that it finds has a slash in
its name, everything that it touches is the file of the registry, the directory of the rows, or a file
in this directory: `Contained` holds to the end.  A name that is found is not checked again, and one
with a slash leads out of the directory.
-/
namespace TableStore

open Stateful Storage.Files

namespace FileTree

/-- A table that a session may make, or that a registry has. -/
def Known (schema : Schema) (table : String) : Prop :=
  Snapshot.validName table = true ∨ table ∈ schema.names

/-! ## Single calls -/

theorem registry_of_node {t t' : FileTree}
    (h : t'.nodes.get? ["db_meta.json"] = t.nodes.get? ["db_meta.json"]) :
    t'.registry {} = t.registry {} := by
  rw [registry_eq, registry_eq, readFile_schemaPath, readFile_schemaPath, h]

theorem Saves.schemaPath {text : String} {t t' : FileTree} {r : Except Fault Unit}
    (h : Saves ({} : Config).schemaPath text t r t') :
    (t' = t ∧ ∃ fault, r = .error fault) ∨
      (r = .ok () ∧ t' = ⟨t.nodes.insert ["db_meta.json"] (.file text.toUTF8)⟩) := by
  unfold Saves at h
  rw [run_save, run_prepare_schemaPath] at h
  simp only [writeFile_schemaPath] at h
  rcases hnode : t.nodes.get? ["db_meta.json"] with _ | _ | content
  · rw [hnode] at h
    cases h
    exact .inr ⟨rfl, rfl⟩
  · rw [hnode] at h
    cases h
    exact .inl ⟨rfl, _, rfl⟩
  · rw [hnode] at h
    cases h
    exact .inr ⟨rfl, rfl⟩

section

variable {table : String} (hslash : '/' ∉ table.toList) {t t' : FileTree} {r : Except Fault Unit}
include hslash

theorem place_of_resolve_tablePath {here : List String} {name : String} {slash : Bool}
    (h : t.resolve (({} : Config).tablePath table) = .ok (.entry here name slash)) :
    here ++ [name] = ["data", rowFile table] := by
  rw [place_of_resolve h, Config.place_tablePath _ hslash]
  congr 1

theorem Saves.tablePath {text : String} (h : Saves (({} : Config).tablePath table) text t r t')
    {names : List String} (hnames : t'.nodes.get? names ≠ t.nodes.get? names) :
    (names = ["data"] ∧ t'.nodes.get? names = some .directory) ∨ names = ["data", rowFile table] := by
  have hprepare := run_prepare_tablePath t hslash
  -- Making the directory touches it, and the write touches the file.
  have hmade {t₁ : FileTree} {made : Except Fault Unit}
      (hrun : run (prepare (({} : Config).tablePath table) : StateM FileTree _) t = (made, t₁))
      (htouched : t₁.nodes.get? names ≠ t.nodes.get? names) :
      names = ["data"] ∧ t₁.nodes.get? names = some .directory := by
    rw [hprepare] at hrun
    rcases hdata : t.nodes.get? ["data"] with _ | _ | content
    · rw [hdata] at hrun
      cases hrun
      rw [SortedMap.get?_insert] at htouched ⊢
      split at htouched
      · next heq => exact ⟨heq, if_pos heq⟩
      · exact absurd rfl htouched
    · rw [hdata] at hrun
      cases hrun
      exact absurd rfl htouched
    · rw [hdata] at hrun
      cases hrun
      exact absurd rfl htouched
  rcases h.cases with ⟨fault, -, hrun⟩ | ⟨t₁, hrun, ⟨cause, -, -, rfl⟩ | ⟨hwrite, -⟩⟩
  · exact .inl (hmade hrun hnames)
  · exact .inl (hmade hrun hnames)
  · obtain ⟨here, name, hresolve, -, -, rfl⟩ := writeFile_eq_ok hwrite
    have hplace := place_of_resolve_tablePath hslash hresolve
    rw [put, SortedMap.get?_insert, hplace] at hnames ⊢
    by_cases heq : names = ["data", rowFile table]
    · exact .inr heq
    · rw [if_neg heq] at hnames ⊢
      exact .inl (hmade hrun hnames)

theorem Removes.tablePath (h : Removes (({} : Config).tablePath table) t r t')
    {names : List String} (hnames : t'.nodes.get? names ≠ t.nodes.get? names) :
    names = ["data", rowFile table] := by
  rcases h.cases with rfl | hremove
  · exact absurd rfl hnames
  · obtain ⟨here, name, hresolve, -, rfl⟩ := removeFile_eq_ok hremove
    have hplace := place_of_resolve_tablePath hslash hresolve
    rw [SortedMap.get?_erase, hplace] at hnames
    by_contra hne
    rw [if_neg hne] at hnames
    exact hnames rfl

end

/-! ## Sessions -/

/-- What was touched between two trees, where the registry of the first is `schema`. -/
structure Contained (schema : Schema) (t₀ t : FileTree) : Prop where
  nodes (names : List String) (h : t.nodes.get? names ≠ t₀.nodes.get? names) :
    names = ["db_meta.json"] ∨ (names = ["data"] ∧ t.nodes.get? names = some .directory) ∨
      ∃ table, Known schema table ∧ names = ["data", rowFile table]
  registry : ∃ schema', t.registry {} = .ok schema' ∧ ∀ name ∈ schema'.names, Known schema name

namespace Contained

variable {schema₀ schema : Schema} {t₀ t t' : FileTree} (h : Contained schema₀ t₀ t)
include h

theorem trans (htouched : ∀ names, t'.nodes.get? names ≠ t.nodes.get? names →
      names = ["db_meta.json"] ∨ (names = ["data"] ∧ t'.nodes.get? names = some .directory) ∨
        ∃ table, Known schema₀ table ∧ names = ["data", rowFile table])
    (hregistry : ∃ schema', t'.registry {} = .ok schema' ∧ ∀ name ∈ schema'.names,
      Known schema₀ name) : Contained schema₀ t₀ t' := by
  refine ⟨fun names hnames => ?_, hregistry⟩
  by_cases hsame : t'.nodes.get? names = t.nodes.get? names
  · rw [hsame] at hnames ⊢
    exact h.nodes names hnames
  · exact htouched names hsame

/-- A call on the file of a known table keeps the registry. -/
theorem table {name : String} (hname : Known schema₀ name)
    (htouched : ∀ names, t'.nodes.get? names ≠ t.nodes.get? names →
      (names = ["data"] ∧ t'.nodes.get? names = some .directory) ∨ names = ["data", rowFile name]) :
    Contained schema₀ t₀ t' := by
  refine h.trans (fun names hnames => ?_) ?_
  · rcases htouched names hnames with hdata | hfile
    · exact .inr (.inl hdata)
    · exact .inr (.inr ⟨name, hname, hfile⟩)
  · have hsame : t'.nodes.get? ["db_meta.json"] = t.nodes.get? ["db_meta.json"] := by
      by_contra hne
      rcases htouched _ hne with ⟨heq, -⟩ | heq
      · simp at heq
      · simp at heq
    rw [registry_of_node hsame]
    exact h.registry

theorem saveSchema (hschema : schema.Valid) (hnames : ∀ name ∈ schema.names, Known schema₀ name)
    (hsave : Saves ({} : Config).schemaPath (schema.toJson .pretty) t (.ok ()) t') :
    Contained schema₀ t₀ t' := by
  refine h.trans (fun names hne => .inl ?_) ⟨schema, registry_of_saves hschema hsave, hnames⟩
  rcases hsave.schemaPath with ⟨-, fault, hfault⟩ | ⟨-, rfl⟩
  · cases hfault
  · rw [SortedMap.get?_insert] at hne
    by_contra hother
    rw [if_neg hother] at hne
    exact hne rfl

variable (hslash : ∀ name ∈ schema₀.names, '/' ∉ name.toList)
include hslash

theorem writes {statement : Statement} {r : Except Fault Unit} (hload : t.registry {} = .ok schema)
    (hwrites : Writes {} schema t statement r t') : Contained schema₀ t₀ t' := by
  have hvalid := valid_of_registry hload
  have hknown : ∀ name ∈ schema.names, Known schema₀ name := by
    obtain ⟨schema', hload', hnames⟩ := h.registry
    rw [hload] at hload'
    cases hload'
    exact hnames
  have hnoSlash {name : String} (hname : Known schema₀ name) : '/' ∉ name.toList :=
    hname.elim Snapshot.slash_not_mem_of_validName (hslash name)
  cases hwrites with
  | unsaved hrewrites hsave =>
    rcases hsave.schemaPath with ⟨rfl, -⟩ | ⟨hok, -⟩
    · exact h
    · cases hok
  | made hname htable hcreate hsave hrows =>
    rename_i name declarations table schema' t₁
    have hnew : Known schema₀ name := .inl hname
    have hsaved := h.saveSchema (hvalid.create hcreate) (fun name hmem => ?_) hsave
    · exact hsaved.table hnew fun names hne => hrows.tablePath (hnoSlash hnew) hne
    · rw [Schema.names_create hcreate, htable] at hmem
      rcases List.mem_append.mp hmem with hold | hmem
      · exact hknown name hold
      · rw [List.mem_singleton.mp hmem]
        exact hnew
  | dropped hdrop hsave hremove =>
    rename_i name table schema' t₁
    have hold := hknown name (Schema.mem_names_of_drop? hdrop)
    have hsaved := h.saveSchema (hvalid.drop hdrop) (fun name hmem => ?_) hsave
    · exact hsaved.table hold fun names hne => .inr (hremove.tablePath (hnoSlash hold) hne)
    · rw [Schema.names_drop hdrop] at hmem
      exact hknown name (List.mem_of_mem_erase hmem)
  | changed hname htable hsave =>
    rename_i name table rows
    have hold := hknown name (Schema.mem_names_of_table? htable)
    exact h.table hold fun names hne => hsave.tablePath (hnoSlash hold) hne

end Contained

/-- The files that a session over the default configuration touches, if no table of the registry that
it finds has a slash in its name: the registry's own and files in the directory of the rows, of tables
that it made or found. -/
theorem files_contained {t₀ : FileTree} {schema : Schema} (hload : t₀.registry {} = .ok schema)
    (hslash : ∀ name ∈ schema.names, '/' ∉ name.toList) (s : Session) (steps : List Step) :
    let t := (trace (Session.act Stored) steps (s, {}, t₀)).2.2.2
    (∀ names, t.nodes.get? names ≠ t₀.nodes.get? names →
      names = ["db_meta.json"] ∨ (names = ["data"] ∧ t.nodes.get? names = some .directory) ∨
        ∃ table, Known schema table ∧ names = ["data", rowFile table]) ∧
    ∃ schema', t.registry {} = .ok schema' ∧ ∀ name ∈ schema'.names, Known schema name := by
  have hstart : Contained schema t₀ t₀ :=
    ⟨fun _ hne => absurd rfl hne, schema, hload, fun _ hname => .inr hname⟩
  obtain ⟨-, hcontained⟩ := trace_writes
    (fun step _ statement _ schema t t' r ht hload hwrites => ht.writes hslash hload hwrites) s hstart
  exact ⟨hcontained.nodes, hcontained.registry⟩

/-- A table is found, gets a row and is dropped, and another one is made. -/
theorem files_contained_for_found_table :
    let t₀ := FileTree.empty.put [] "db_meta.json"
      (.file (Schema.toJson .pretty ⟨[.blank "a\\b"]⟩).toUTF8)
    let steps : List Step := [.statement (.insert "a\\b" []), .line "create_table c v:int",
      .statement (.dropTable "a\\b")]
    let t := (trace (Session.act Stored) steps (.start true, {}, t₀)).2.2.2
    t₀.registry {} = .ok ⟨[.blank "a\\b"]⟩ ∧
      (∀ name ∈ (⟨[.blank "a\\b"]⟩ : Schema).names, '/' ∉ name.toList) ∧
      (t.content? ["data", "c.json"]).isSome ∧
      ∀ names, t.nodes.get? names ≠ t₀.nodes.get? names →
        names = ["db_meta.json"] ∨ (names = ["data"] ∧ t.nodes.get? names = some .directory) ∨
          ∃ table, Known ⟨[.blank "a\\b"]⟩ table ∧ names = ["data", rowFile table] := by
  intro t₀ steps t
  have hload : t₀.registry {} = .ok ⟨[.blank "a\\b"]⟩ := by decide +kernel
  have hslash : ∀ name ∈ (⟨[.blank "a\\b"]⟩ : Schema).names, '/' ∉ name.toList := by decide
  have hmade : (t.content? ["data", "c.json"]).isSome := by decide +kernel
  exact ⟨hload, hslash, hmade, (files_contained hload hslash (.start true) steps).1⟩

/-- A registry that was found may name a table outside of the directory, and its rows are written
there. -/
theorem file_outside_of_directory :
    let t := FileTree.empty.put [] "db_meta.json"
      (.file (Schema.toJson .compact ⟨[.blank "../evil"]⟩).toUTF8)
    let done := Session.act Stored (.statement (.insert "../evil" [])) (.start true, {}, t)
    t.registry {} = .ok ⟨[.blank "../evil"]⟩ ∧
      done.1 = .ok (some (.inserted "../evil" 1)) ∧
      t.content? ["evil.json"] = none ∧ (done.2.2.2.content? ["evil.json"]).isSome := by
  decide +kernel

end FileTree
end TableStore
