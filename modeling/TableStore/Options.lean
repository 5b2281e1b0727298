import TableStore.Config

/-
The command line options of the shell: `--dir` or `-d`, `--meta-file` and `--data-dir` with a value
each, and `--no-cache`.

No option may be given twice, and a value in an argument of its own must not look like an option, so
that a forgotten value is noticed.  Two dashes alone end the options, and nothing may follow them.
-/
namespace TableStore
namespace Options

/-- The option that a letter behind a single dash stands for. -/
def ofLetter (c : Char) : String := if c = 'd' then "--dir" else String.ofList ['-', c]

/-- The option that an argument names, and the value that it carries itself, if it does: `--name`
and `--name=value`, or `-d`, `-dvalue` and `-d=value`. -/
def split (argument : String) : String × Option String :=
  match argument.toList with
  | '-' :: '-' :: rest =>
    let name := String.ofList ('-' :: '-' :: rest.takeWhile (· ≠ '='))
    match rest.dropWhile (· ≠ '=') with
    | [] => (name, none)
    | _ :: value => (name, some (String.ofList value))
  | ['-', c] => (ofLetter c, none)
  | '-' :: c :: '=' :: value => (ofLetter c, some (String.ofList value))
  | '-' :: c :: value => (ofLetter c, some (String.ofList value))
  | _ => (argument, none)

/-- Whether an argument can be the value of the option in front of it. -/
def isValue (argument : String) : Bool := argument = "-" || argument.toList.head? ≠ some '-'

/-- The configuration with the named option set to a value, if there is such an option and it takes
the value. -/
def setValue? (c : Config) (name value : String) : Option Config :=
  match name with
  | "--dir" => if value = "" then none else some { c with root := value }
  | "--meta-file" => some { c with schemaFile := value }
  | "--data-dir" => some { c with rowDirectory := value }
  | _ => none

/-- Takes in the arguments from left to right, behind the options `given`. -/
def readFrom (given : List String) (c : Config) : List String → Option Config
  | [] => some c
  | argument :: rest =>
    let (name, carried) := split argument
    if argument = "--" then if rest.isEmpty then some c else none
    else if name ∈ given then none
    else if name = "--no-cache" then
      if carried.isSome then none else readFrom (name :: given) { c with cached := false } rest
    else match carried, rest with
      | some value, rest => do readFrom (name :: given) (← setValue? c name value) rest
      | none, value :: rest =>
        if isValue value then do readFrom (name :: given) (← setValue? c name value) rest
        else none
      | none, [] => none

/-- The configuration that the arguments ask for; `none` if they are not options of the shell. -/
def read? (arguments : List String) : Option Config := readFrom [] {} arguments

end Options
end TableStore
