import TableStore.Files.FileTree

/-
What the table files need of a file system, and the one thing that is built on it: a directory made
together with those around it.
-/
namespace TableStore

/-- A monad with the calls of a file system. -/
class FileSystem (m : Type → Type) where
  readFile : String → m (Except OsError ByteArray)
  writeFile : String → ByteArray → m (Except OsError Unit)
  makeDirectory : String → m (Except OsError Unit)
  isDirectory : String → m Bool
  removeFile : String → m (Except OsError Unit)

namespace FileSystem

variable {m : Type → Type} [Monad m] [FileSystem m]

/-- What a failed attempt to make a directory comes to: nothing is amiss if it is there already. -/
def settle (directory : String) (cause : OsError) : m (Except OsError Unit) := do
  return if ← isDirectory directory then .ok () else .error cause

/-- Makes the first of the directories; where the one around it is missing, that one before it. -/
def makeDirectories : List String → m (Except OsError Unit)
  | [] => return .error .notFound
  | "" :: _ => return .ok ()
  | directory :: around => do
    match ← makeDirectory directory with
    | .ok () => return .ok ()
    | .error .notFound =>
      match ← makeDirectories around with
      | .error cause => return .error cause
      | .ok () =>
        match ← makeDirectory directory with
        | .ok () => return .ok ()
        | .error cause => settle directory cause
    | .error cause => settle directory cause

/-- A call on a file tree that may change it; a refused one changes nothing. -/
def change (f : FileTree → Except OsError FileTree) : StateM FileTree (Except OsError Unit) := do
  match f (← get) with
  | .ok t => set t; return .ok ()
  | .error cause => return .error cause

instance : FileSystem (StateM FileTree) where
  readFile path := return (← get).readFile path
  writeFile path content := change fun t => t.writeFile path content
  makeDirectory path := change fun t => t.makeDirectory path
  isDirectory path := return (← get).isDirectory path
  removeFile path := change fun t => t.removeFile path

end FileSystem
end TableStore
