import TableStore.Schema
import TableStore.Token

/-
What can go wrong with a command, each cause a constructor and its wording in `Fault.message`.

Some of the words are not the program's own: the operating system describes its errors, and the JSON
reader what it does not take.  These are a parameter, `Wording`.
-/
namespace TableStore

/-- What a file holds. -/
inductive FileKind where
  | registry
  | rows
deriving DecidableEq

/-- The words that the program passes on from others. -/
structure Wording where
  /-- The operating system's description of an error, which it reports by a number. -/
  description : Nat → String
  /-- What the JSON reader says of a text that is not what it was to read. -/
  complaint : FileKind → String → String
  /-- What the JSON reader makes of the program's own words about a text: it may add the place in the
  text at which it stood. -/
  located : (text words : String) → String

/-- Why a line is no command. -/
inductive Malformed where
  | unclosedQuote (word : String)
  | unexpectedEnd
  | expectedName (found : Token)
  | expectedToken (expected found : Token)
  | expectedColumn (found : Token)
  | expectedValue (found : Token)
  | unexpectedToken (found : Token)
  | invalidValue (word : String)
  | integer (cause : Decimal.Fault)
  /-- Any other reason, in its own words. -/
  | remark (text : String)
deriving DecidableEq

namespace Malformed

def message : Malformed → String
  | unclosedQuote word => s!"[Lexer] No closing quotation in {word}"
  | unexpectedEnd => "[Parser] Unexpected end of input"
  | expectedName found => s!"[Parser] Expected name, got token {found.text}"
  | expectedToken expected found => s!"[Parser] Expected token {expected.text}, got {found.text}"
  | expectedColumn found => s!"[Parser] Expected column definition, got token {found.text}"
  | expectedValue found => s!"[Parser] Expected value, got token {found.text}"
  | unexpectedToken found => s!"[Parser] Unexpected token {found.text}"
  | invalidValue word => s!"[Parser] Invalid value {word}"
  | integer cause => cause.message
  | remark text => text

end Malformed

/-- Why the file system refuses a call. -/
inductive OsError where
  | notFound
  | alreadyExists
  | notDirectory
  | isDirectory
  | nameTooLong
  /-- A path may hold every character but NUL. -/
  | nulInPath
  | other (code : Nat)
deriving DecidableEq

namespace OsError

/-- The error that the operating system reports by a number. -/
def ofCode : Nat → OsError
  | 2 => notFound
  | 17 => alreadyExists
  | 20 => notDirectory
  | 21 => isDirectory
  | 36 => nameTooLong
  | code => other code

/-- The number by which the operating system reports the error; it is never asked about a NUL. -/
def code? : OsError → Option Nat
  | notFound => some 2
  | alreadyExists => some 17
  | notDirectory => some 20
  | isDirectory => some 21
  | nameTooLong => some 36
  | nulInPath => none
  | other code => some code

def message (words : Wording) (cause : OsError) : String :=
  match cause.code? with
  | some code => s!"{words.description code} (os error {code})"
  | none => "file name contained an unexpected NUL byte"

end OsError

/-- Why a text is not read as what a file is to hold. -/
inductive TextFault where
  /-- The text is not the JSON of the expected shape. -/
  | badJson
  /-- The schema file declares a table that a registry refuses. -/
  | refused (cause : Refusal)
deriving DecidableEq

/-- Why the content of a file is not taken. -/
inductive FileFault where
  | os (cause : OsError)
  | notUtf8
  | unread (kind : FileKind) (text : String) (cause : TextFault)
deriving DecidableEq

namespace FileFault

def message (words : Wording) : FileFault → String
  | os cause => cause.message words
  | notUtf8 => "stream did not contain valid UTF-8"
  | unread kind text .badJson => words.complaint kind text
  | unread _ text (.refused cause) => words.located text cause.message

end FileFault

/-- Why a command has no outcome. -/
inductive Fault where
  | malformed (cause : Malformed)
  | unknownCommand (word : String)
  | invalidTableName (name : String)
  | refused (cause : Refusal)
  | tableNotFound (table : String)
  | invalidColumn (declaration : String)
  | columnNotFound (table column : String)
  /-- `position` counts the values of an insert from 1. -/
  | typeMismatch (column : String) (position : Option Nat) (expected found : DataType)
  | valueCount (expected found : Nat)
  | immutableColumn (column : String)
  | noKeyLeft (table : String) (last : Int64)
  | missingValue (table : String) (id : Int64) (column : String)
  | file (path : String) (cause : FileFault)
  /-- Any other failure of the storage, in its own words. -/
  | storage (text : String)
deriving DecidableEq

namespace Fault

def message (words : Wording) : Fault → String
  | malformed cause => s!"syntax error: {cause.message}"
  | unknownCommand word => s!"unknown command \"{word}\", try \"help\""
  | invalidTableName name => s!"invalid table name \"{name}\""
  | refused cause => cause.message
  | tableNotFound table => s!"table \"{table}\" does not exist"
  | invalidColumn declaration =>
    s!"invalid column \"{declaration}\", expected name:int|str|bool"
  | columnNotFound table column => s!"column \"{column}\" not found in table \"{table}\""
  | typeMismatch column (some position) expected found =>
    s!"wrong type for column \"{column}\" ({position}): expected {expected.tag}, got {found.tag}"
  | typeMismatch column none expected found =>
    s!"wrong type for column \"{column}\": expected {expected.tag}, got {found.tag}"
  | valueCount expected found => s!"expected {expected} values, got {found}"
  | immutableColumn column => s!"column \"{column}\" cannot be updated"
  | noKeyLeft table last =>
    s!"storage error: table {table} has no key left after ID={Decimal.write last}"
  | missingValue table id column =>
    "storage error: " ++
      s!"record {Decimal.write id} of table {table} has no value for column {column}"
  | file path cause => s!"storage error: {path}: {cause.message words}"
  | storage text => s!"storage error: {text}"

end Fault
end TableStore
