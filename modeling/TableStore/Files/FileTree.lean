import TableStore.Fault
import TableStore.Files.Path

/-
A tree of directories and files.

Nodes are kept under the names that lead to them from the top, which is a directory and has no node
of its own.  A relative path starts at the top as an absolute one does, and `..` at the top stays
there.  Every operation reports what stands in its way as an operating system does.
-/
namespace TableStore

inductive Node where
  | directory
  | file (content : ByteArray)

structure FileTree where
  nodes : SortedMap (List String) Node

namespace FileTree

def empty : FileTree := ⟨.empty⟩

instance : Inhabited FileTree := ⟨empty⟩

/-- The longest name of a file or directory, in bytes. -/
def nameLimit : Nat := 255

/-- The longest path, in bytes. -/
def pathLimit : Nat := 4095

/-- What has the name `name` in the directory `here`, if the name is not too long to be asked for. -/
def look (t : FileTree) (here : List String) (name : String) : Except OsError (Option Node) :=
  if nameLimit < name.utf8ByteSize then .error .nameTooLong
  else .ok (t.nodes.get? (here ++ [name]))

/-- Goes from the directory `here` through parts that all have to lead to directories. -/
def enter (t : FileTree) (here : List String) : List String → Except OsError (List String)
  | [] => .ok here
  | part :: rest =>
    if part = "" ∨ part = "." then enter t here rest
    else if part = ".." then enter t here.dropLast rest
    else match t.look here part with
      | .ok (some .directory) => enter t (here ++ [part]) rest
      | .ok (some (.file _)) => .error .notDirectory
      | .ok none => .error .notFound
      | .error cause => .error cause

/-- Where a path leads. -/
inductive Target where
  /-- A directory that is there: the path ends in dots or has nothing but slashes. -/
  | directory (names : List String)
  /-- A name in a directory that is there; `slash` if a slash follows it, so that only a directory
  may have it.  Whether anything has the name is not looked at. -/
  | entry (here : List String) (name : String) (slash : Bool)

/-- Goes through all parts of a path but the last one that is not empty. -/
def locate (t : FileTree) (parts : List String) : Except OsError Target :=
  match parts.reverse.dropWhile (· = "") with
  | [] => .ok (.directory [])
  | last :: before => do
    let here ← t.enter [] before.reverse
    if last = "." then return .directory here
    else if last = ".." then return .directory here.dropLast
    else return .entry here last (parts.getLast? = some "")

def resolve (t : FileTree) (path : String) : Except OsError Target :=
  if path.toList.contains '\x00' then .error .nulInPath
  else if path = "" then .error .notFound
  else if pathLimit < path.utf8ByteSize then .error .nameTooLong
  else t.locate ((Path.split path.toList).map String.ofList)

def put (t : FileTree) (here : List String) (name : String) (node : Node) : FileTree :=
  ⟨t.nodes.insert (here ++ [name]) node⟩

def readFile (t : FileTree) (path : String) : Except OsError ByteArray := do
  match ← t.resolve path with
  | .directory _ => throw .isDirectory
  | .entry here name slash =>
    match ← t.look here name with
    | none => throw .notFound
    | some .directory => throw .isDirectory
    | some (.file content) => if slash then throw .notDirectory else return content

/-- Writes a whole file, in place of what it held.  No file is made under a path that ends in a
slash, so there the last name is not looked at. -/
def writeFile (t : FileTree) (path : String) (content : ByteArray) : Except OsError FileTree := do
  match ← t.resolve path with
  | .directory _ => throw .isDirectory
  | .entry here name slash =>
    if slash then throw .isDirectory
    match ← t.look here name with
    | some .directory => throw .isDirectory
    | _ => return t.put here name (.file content)

/-- Makes a directory in one that is there. -/
def makeDirectory (t : FileTree) (path : String) : Except OsError FileTree := do
  match ← t.resolve path with
  | .directory _ => throw .alreadyExists
  | .entry here name _ =>
    match ← t.look here name with
    | some _ => throw .alreadyExists
    | none => return t.put here name .directory

def isDirectory (t : FileTree) (path : String) : Bool :=
  match t.resolve path with
  | .ok (.directory _) => true
  | .ok (.entry here name _) =>
    match t.look here name with
    | .ok (some .directory) => true
    | _ => false
  | .error _ => false

def removeFile (t : FileTree) (path : String) : Except OsError FileTree := do
  match ← t.resolve path with
  | .directory _ => throw .isDirectory
  | .entry here name slash =>
    match ← t.look here name with
    | none => throw .notFound
    | some .directory => throw .isDirectory
    | some (.file _) =>
      if slash then throw .notDirectory else return ⟨t.nodes.erase (here ++ [name])⟩

end FileTree
end TableStore
