import TableStore.Config
import TableStore.Files.FileSystem
import TableStore.Json.RowFile
import TableStore.Json.SchemaFile
import TableStore.Storage

/-
Storage in JSON files: one for the registry and one for the rows of each table.

A file that is not there reads as empty, and the directories of a file are made when it is first
written.  Any other failure is reported with the path it concerns.
-/
namespace TableStore
namespace Storage.Files

variable {m : Type → Type} [Monad m] [FileSystem m]

/-- Reads and decodes a file. -/
def load {α : Type} (path : String) (absent : α) (decode : String → Except FileFault α) :
    m (Except Fault α) := do
  match ← FileSystem.readFile path with
  | .error .notFound => return .ok absent
  | .error cause => return .error (.file path (.os cause))
  | .ok content =>
    match String.fromUTF8? content with
    | none => return .error (.file path .notUtf8)
    | some text => return (decode text).mapError (.file path)

/-- Makes the directory that a file is to be in. -/
def prepare (path : String) : m (Except Fault Unit) :=
  match Path.enclosing path with
  | [] => return .ok ()
  | directory :: around =>
    return (← FileSystem.makeDirectories (directory :: around)).mapError fun cause =>
      .file directory (.os cause)

def save (path text : String) : m (Except Fault Unit) := do
  match ← prepare path with
  | .error fault => return .error fault
  | .ok () =>
    return (← FileSystem.writeFile path text.toUTF8).mapError fun cause => .file path (.os cause)

/-- Removes a file; one that is not there needs no removal. -/
def remove (path : String) : m (Except Fault Unit) := do
  match ← FileSystem.removeFile path with
  | .ok () | .error .notFound => return .ok ()
  | .error cause => return .error (.file path (.os cause))

instance : Storage (ReaderT Config m) where
  loadSchema := fun c => load c.schemaPath .empty Schema.ofJson
  saveSchema schema := fun c => save c.schemaPath (schema.toJson .pretty)
  loadRows table := fun c => load (c.tablePath table) .empty Rows.ofJson
  saveRows table rows := fun c =>
    save (c.tablePath table.name) (Rows.toJson .pretty table.columns rows)
  deleteRows table := fun c => remove (c.tablePath table)

end Storage.Files
end TableStore
