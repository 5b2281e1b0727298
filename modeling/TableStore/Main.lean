import TableStore.Options
import TableStore.Shell
import TableStore.Storage.Files

/-
The command line program: the shell on standard input, over the files of a directory.
-/
namespace TableStore

/-- The number by which the operating system reported an error; some calls hand it over negated. -/
def osCode : IO.Error → Nat
  | .alreadyExists _ code _ | .otherError code _ | .resourceBusy code _ | .resourceVanished code _
  | .unsupportedOperation code _ | .hardwareFault code _ | .unsatisfiedConstraints code _
  | .illegalOperation code _ | .protocolError code _ | .timeExpired code _ | .interrupted _ code _
  | .noFileOrDirectory _ code _ | .invalidArgument _ code _ | .permissionDenied _ code _
  | .resourceExhausted _ code _ | .inappropriateType _ code _ | .noSuchThing _ code _ =>
    code.toInt32.toInt.natAbs
  | .unexpectedEof | .userError _ => 0

/-- Makes a call on a path; one that holds a NUL reaches no call. -/
def onPath {α : Type} (path : String) (call : String → IO α) : IO (Except OsError α) := do
  if path.toList.contains '\x00' then return .error .nulInPath
  return (← (call path).toBaseIO).mapError fun error => .ofCode (osCode error)

/-- A directory can be opened through its own entry. -/
def isDirectoryOnDisk (path : String) : IO Bool := do
  match ← onPath (path ++ "/.") fun path => IO.FS.Handle.mk path .read with
  | .ok _ => return true
  | .error _ => return false

instance : FileSystem IO where
  readFile path := onPath path fun path => IO.FS.readBinFile path
  writeFile path content := onPath path fun path => IO.FS.writeBinFile path content
  makeDirectory path := onPath path fun path => IO.FS.createDir path
  isDirectory := isDirectoryOnDisk
  removeFile path := do
    if ← isDirectoryOnDisk path then return .error .isDirectory
    onPath path fun path => IO.FS.removeFile path

/-- The next line of the input with its line feed; at the end of the input there is none. -/
partial def nextLine (input : IO.FS.Stream) (taken : List UInt8) : IO (List UInt8) := do
  match (← input.read 1).toList with
  | [] => return taken.reverse
  | b :: _ => if b = 10 then return (b :: taken).reverse else nextLine input (b :: taken)

/-- How the operating system describes its errors; the reader of JSON has few words of its own. -/
def plainWords : Wording where
  description
    | 1 => "Operation not permitted"
    | 2 => "No such file or directory"
    | 5 => "Input/output error"
    | 13 => "Permission denied"
    | 17 => "File exists"
    | 20 => "Not a directory"
    | 21 => "Is a directory"
    | 28 => "No space left on device"
    | 30 => "Read-only file system"
    | 36 => "File name too long"
    | 40 => "Too many levels of symbolic links"
    | code => s!"Unknown error {code}"
  complaint
    | .registry, _ => "no JSON of a registry"
    | .rows, _ => "no JSON of the rows of a table"
  located _ words := words

/-- Answers line after line, and gives the number with which the program is left. -/
partial def serve (input output : IO.FS.Stream) : StateT Session (ReaderT Config IO) UInt32 := do
  output.putStr Shell.prompt
  output.flush
  match ← nextLine input [] with
  | [] =>
    output.putStr "\n"
    return 0
  | line =>
    let a ← Shell.answer plainWords line
    output.putStr a.text
    match a.sequel with
    | .readsOn => serve input output
    | .ends => return 0
    | .breaksOff => return 101

end TableStore

open TableStore in
def main (arguments : List String) : IO UInt32 := do
  match Options.read? arguments with
  | none =>
    (← IO.getStderr).putStrLn
      "usage: [--dir DIR] [--meta-file NAME] [--data-dir NAME] [--no-cache]"
    return 2
  | some config =>
    let output ← IO.getStdout
    output.putStr Shell.greeting
    let code ← ((serve (← IO.getStdin) output).run' (.start config.cached)).run config
    output.flush
    return code
