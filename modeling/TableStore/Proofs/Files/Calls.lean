import TableStore.Proofs.Files.StorePaths
import TableStore.Proofs.Json.RoundTrip
import TableStore.Proofs.Stateful
import TableStore.Storage.Files

/-
The calls of file storage on a tree of files.

Reading changes nothing, a write that is refused leaves at most a new directory behind, and a
removal that is refused leaves nothing.  With the default configuration each call comes down to a
look-up of one node of the tree.
-/
namespace TableStore

open Stateful

/-- The storage of sessions over a tree of files. -/
abbrev FileTree.Stored := ReaderT Config (StateM FileTree)

namespace Storage.Files

/-! ## Any paths -/

/-- What the content of a file comes to. -/
def decoded {α : Type} (path : String) (absent : α) (decode : String → Except FileFault α) :
    Except OsError ByteArray → Except Fault α
  | .error .notFound => .ok absent
  | .error cause => .error (.file path (.os cause))
  | .ok content =>
    match String.fromUTF8? content with
    | none => .error (.file path .notUtf8)
    | some text => (decode text).mapError (.file path)

theorem fromUTF8?_toUTF8 (s : String) : String.fromUTF8? s.toUTF8 = some s :=
  dif_pos s.isValidUTF8

theorem decoded_toUTF8 {α : Type} (path : String) (absent : α)
    (decode : String → Except FileFault α) (text : String) :
    decoded path absent decode (.ok text.toUTF8) = (decode text).mapError (.file path) := by
  simp only [decoded, fromUTF8?_toUTF8]

theorem valid_of_decoded {path : String} {content : Except OsError ByteArray} {schema : Schema}
    (h : decoded path .empty Schema.ofJson content = .ok schema) : schema.Valid := by
  unfold decoded at h
  split at h
  · cases h
    exact Schema.valid_empty
  · cases h
  · split at h
    · cases h
    · exact Schema.valid_of_ofJson (mapError_eq_ok_iff.mp h)

section Tree

variable (t : FileTree)

theorem run_change (f : FileTree → Except OsError FileTree) :
    run (FileSystem.change f) t =
      match f t with
      | .ok t' => (.ok (), t')
      | .error cause => (.error cause, t) := by
  unfold FileSystem.change
  rw [run_bind]
  show run (match f t with | .ok t' => _ | .error cause => _) t = _
  cases f t <;> rfl

theorem run_readFile (path : String) :
    run (FileSystem.readFile path : StateM FileTree _) t = (t.readFile path, t) := rfl

theorem run_isDirectory (path : String) :
    run (FileSystem.isDirectory path : StateM FileTree _) t = (t.isDirectory path, t) := rfl

theorem run_makeDirectory (path : String) :
    run (FileSystem.makeDirectory path : StateM FileTree _) t =
      match t.makeDirectory path with
      | .ok t' => (.ok (), t')
      | .error cause => (.error cause, t) :=
  run_change t _

theorem run_load {α : Type} (path : String) (absent : α) (decode : String → Except FileFault α) :
    run (load path absent decode : StateM FileTree _) t =
      (decoded path absent decode (t.readFile path), t) := by
  unfold load
  rw [run_bind, run_readFile]
  rcases t.readFile path with cause | content
  · cases cause <;> rfl
  · simp only [decoded]
    cases String.fromUTF8? content <;> rfl

theorem run_save (path text : String) :
    run (save path text : StateM FileTree _) t =
      match run (prepare path : StateM FileTree _) t with
      | (.error fault, t') => (.error fault, t')
      | (.ok _, t') =>
        match t'.writeFile path text.toUTF8 with
        | .ok t'' => (.ok (), t'')
        | .error cause => (.error (.file path (.os cause)), t') := by
  unfold save
  rw [run_bind]
  rcases run (prepare path : StateM FileTree _) t with ⟨fault | _, t'⟩
  · rfl
  · have hwrite : run (FileSystem.writeFile path text.toUTF8 : StateM FileTree _) t' =
        match t'.writeFile path text.toUTF8 with
        | .ok t'' => (.ok (), t'')
        | .error cause => (.error cause, t') := run_change t' _
    simp only [run_bind]
    rw [hwrite]
    cases t'.writeFile path text.toUTF8 <;> rfl

theorem run_remove (path : String) :
    run (remove path : StateM FileTree _) t =
      match t.removeFile path with
      | .ok t' => (.ok (), t')
      | .error .notFound => (.ok (), t)
      | .error cause => (.error (.file path (.os cause)), t) := by
  have hremove : run (FileSystem.removeFile path : StateM FileTree _) t =
      match t.removeFile path with
      | .ok t' => (.ok (), t')
      | .error cause => (.error cause, t) := run_change t _
  unfold remove
  rw [run_bind, hremove]
  rcases t.removeFile path with cause | t'
  · cases cause <;> rfl
  · rfl

/-! ## The five calls -/

section Calls

variable (c : Config)

theorem run_loadSchema : run (Storage.loadSchema : FileTree.Stored (Except Fault Schema)) (c, t) =
    (decoded c.schemaPath .empty Schema.ofJson (t.readFile c.schemaPath), c, t) := by
  have hcall : (Storage.loadSchema : FileTree.Stored (Except Fault Schema)).run c =
    load c.schemaPath .empty Schema.ofJson := rfl
  rw [run_readerT, hcall, run_load]

theorem run_saveSchema (schema : Schema) :
    run (Storage.saveSchema schema : FileTree.Stored (Except Fault Unit)) (c, t) =
      ((run (save c.schemaPath (schema.toJson .pretty) : StateM FileTree _) t).1, c,
        (run (save c.schemaPath (schema.toJson .pretty) : StateM FileTree _) t).2) := by
  have hcall : (Storage.saveSchema schema : FileTree.Stored (Except Fault Unit)).run c =
    save c.schemaPath (schema.toJson .pretty) := rfl
  rw [run_readerT, hcall]

theorem run_loadRows (table : String) :
    run (Storage.loadRows table : FileTree.Stored (Except Fault Rows)) (c, t) =
      (decoded (c.tablePath table) .empty Rows.ofJson (t.readFile (c.tablePath table)), c, t) := by
  have hcall : (Storage.loadRows table : FileTree.Stored (Except Fault Rows)).run c =
    load (c.tablePath table) .empty Rows.ofJson := rfl
  rw [run_readerT, hcall, run_load]

theorem run_saveRows (table : Table) (rows : Rows) :
    run (Storage.saveRows table rows : FileTree.Stored (Except Fault Unit)) (c, t) =
      ((run (save (c.tablePath table.name) (Rows.toJson .pretty table.columns rows) :
          StateM FileTree _) t).1, c,
        (run (save (c.tablePath table.name) (Rows.toJson .pretty table.columns rows) :
          StateM FileTree _) t).2) := by
  have hcall : (Storage.saveRows table rows : FileTree.Stored (Except Fault Unit)).run c =
    save (c.tablePath table.name) (Rows.toJson .pretty table.columns rows) := rfl
  rw [run_readerT, hcall]

theorem run_deleteRows (table : String) :
    run (Storage.deleteRows table : FileTree.Stored (Except Fault Unit)) (c, t) =
      ((run (remove (c.tablePath table) : StateM FileTree _) t).1, c,
        (run (remove (c.tablePath table) : StateM FileTree _) t).2) := by
  have hcall : (Storage.deleteRows table : FileTree.Stored (Except Fault Unit)).run c =
    remove (c.tablePath table) := rfl
  rw [run_readerT, hcall]

end Calls

/-! ## The paths of the default configuration -/

theorem run_settle (directory : String) (cause : OsError) :
    run (FileSystem.settle directory cause : StateM FileTree _) t =
      (if t.isDirectory directory then .ok () else .error cause, t) := by
  unfold FileSystem.settle
  rw [run_bind, run_isDirectory, run_pure]

/-- Where the directory around is there, making a directory is one call, and one look if that is
refused. -/
theorem run_makeDirectories {directory : String} {around : List String} (hname : directory ≠ "")
    (haround : t.makeDirectory directory ≠ .error .notFound) :
    run (FileSystem.makeDirectories (directory :: around) : StateM FileTree _) t =
      match t.makeDirectory directory with
      | .ok t' => (.ok (), t')
      | .error cause => (if t.isDirectory directory then .ok () else .error cause, t) := by
  rw [FileSystem.makeDirectories, run_bind, run_makeDirectory]
  · cases hmake : t.makeDirectory directory with
    | ok t' => rfl
    | error cause =>
      rw [hmake] at haround
      cases cause <;> first | exact absurd rfl haround | exact run_settle t directory _
  · exact hname

theorem run_prepare {path directory : String} {around : List String}
    (hpath : Path.enclosing path = directory :: around) (hname : directory ≠ "")
    (haround : t.makeDirectory directory ≠ .error .notFound) :
    run (prepare path : StateM FileTree _) t =
      match t.makeDirectory directory with
      | .ok t' => (.ok (), t')
      | .error cause =>
        (if t.isDirectory directory then .ok () else .error (.file directory (.os cause)), t) := by
  unfold prepare
  rw [hpath]
  simp only [run_bind, run_makeDirectories t hname haround]
  cases t.makeDirectory directory with
  | ok t' => rfl
  | error cause => cases t.isDirectory directory <;> rfl

theorem run_prepare_schemaPath :
    run (prepare ({} : Config).schemaPath : StateM FileTree _) t = (.ok (), t) := by
  have hmake : t.makeDirectory "." = .error .alreadyExists := rfl
  have hthere : t.isDirectory "." = true := rfl
  rw [run_prepare t Config.enclosing_schemaPath (by decide) (by rw [hmake]; exact nofun), hmake, hthere]
  rfl

theorem run_prepare_tablePath {table : String} (h : '/' ∉ table.toList) :
    run (prepare (({} : Config).tablePath table) : StateM FileTree _) t =
      match t.nodes.get? ["data"] with
      | none => (.ok (), ⟨t.nodes.insert ["data"] .directory⟩)
      | some .directory => (.ok (), t)
      | some (.file _) => (.error (.file "./data" (.os .alreadyExists)), t) := by
  have hmake := t.makeDirectory_rowPath
  have hthere := t.isDirectory_rowPath
  rw [run_prepare t (Config.enclosing_tablePath h) (by decide)]
  · rw [hmake, hthere]
    rcases t.nodes.get? ["data"] with _ | _ | _ <;> rfl
  · rw [hmake]
    rcases t.nodes.get? ["data"] with _ | _ | _ <;> exact nofun

end Tree

end Storage.Files
end TableStore
