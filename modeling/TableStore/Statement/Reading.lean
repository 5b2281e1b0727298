import TableStore.Literal
import TableStore.Statement

/-
Reading a command line.

A line is read from left to right over its tokens, so of two mistakes the one that stands first is
reported; a quoted section that is never closed stands last.
-/
namespace TableStore
namespace Statement

/-- A step of the reading: it takes tokens from the front of the line. -/
abbrev Reading := StateT Tokens (Except Malformed)

namespace Reading

/-- The next token, if there is one. -/
def next? : Reading (Option Token) := fun tokens =>
  match tokens with
  | .nil => .ok (none, .nil)
  | .unclosed word => .error (.unclosedQuote word)
  | .cons token rest => .ok (some token, rest)

def next : Reading Token := do
  match ← next? with
  | some token => return token
  | none => throw .unexpectedEnd

/-- A word that names a table or a column, without its quoting. -/
def name : Reading String := do
  match ← next with
  | .word word => return unquote word
  | found => throw (.expectedName found)

def expect (expected : Token) : Reading Unit := do
  let found ← next
  if found ≠ expected then throw (.expectedToken expected found)

/-- A word between the parts of a command.  It is taken as written: in quotes it is another word. -/
def keyword (word : String) : Reading Unit := expect (.word word)

def value : Reading Value := do
  match ← next with
  | .word word => Literal.read word
  | found => throw (.expectedValue found)

/-- Nothing may follow a complete command. -/
def atEnd : Reading Unit := do
  match ← next? with
  | some found => throw (.unexpectedToken found)
  | none => return ()

/-- Passes over the rest of the line, which still has to close its quotes. -/
def skipRest : Reading Unit := fun tokens =>
  match tokens.unclosed? with
  | some word => .error (.unclosedQuote word)
  | none => .ok ((), .nil)

/-- One entry: `column = value`. -/
def assignment : Reading Fields := do
  let column ← name
  expect .equal
  let v ← value
  return .singleton column v

/-- A condition of one entry: `where column = value`. -/
def condition : Reading Fields := do
  keyword "where"
  assignment

/-- The words up to the end of the line, without their quoting. -/
def declarations : Tokens → Except Malformed (List String × Tokens)
  | .nil => .ok ([], .nil)
  | .unclosed word => .error (.unclosedQuote word)
  | .cons (.word word) rest => do
    let (words, rest) ← declarations rest
    return (unquote word :: words, rest)
  | .cons found _ => .error (.expectedColumn found)

/-- One value or more, with commas between them, and the parenthesis that ends the list. -/
def values : Tokens → Except Malformed (List Value × Tokens)
  | .nil => .error .unexpectedEnd
  | .unclosed word => .error (.unclosedQuote word)
  | .cons (.word word) rest => do
    let v ← Literal.read word
    match rest with
    | .nil => throw .unexpectedEnd
    | .unclosed word => throw (.unclosedQuote word)
    | .cons .closeParen rest => return ([v], rest)
    | .cons .comma rest =>
      let (vs, rest) ← values rest
      return (v :: vs, rest)
    | .cons found _ => throw (.unexpectedToken found)
  | .cons found _ => .error (.expectedValue found)

/-- The values behind the opening parenthesis; there may be none. -/
def valueList : Reading (List Value) := fun tokens =>
  match tokens with
  | .cons .closeParen rest => .ok ([], rest)
  | tokens => values tokens

def createTable : Reading Statement := do
  let table ← name
  return .createTable table (← declarations)

def dropTable : Reading Statement := do
  let table ← name
  skipRest
  return .dropTable table

def insert : Reading Statement := do
  keyword "into"
  let table ← name
  keyword "values"
  expect .openParen
  let vs ← valueList
  atEnd
  return .insert table vs

def select : Reading Statement := do
  keyword "from"
  let table ← name
  match ← get with
  | .nil => return .select table none
  | _ =>
    let c ← condition
    atEnd
    return .select table (some c)

def update : Reading Statement := do
  let table ← name
  keyword "set"
  let assignments ← assignment
  let c ← condition
  atEnd
  return .update table assignments c

def delete : Reading Statement := do
  keyword "from"
  let table ← name
  let c ← condition
  atEnd
  return .delete table c

def info : Reading Statement := do
  let table ← name
  atEnd
  return .info table

/-- A command that takes no arguments passes over whatever follows it. -/
def bare (s : Statement) : Reading Statement := do
  skipRest
  return s

/-- What follows the first token; `written` is that token as it stands in the line. -/
def command (word written : String) : Reading Statement :=
  match word with
  | "help" => bare .help
  | "exit" => bare .exit
  | "list_tables" => bare .listTables
  | "create_table" => createTable
  | "drop_table" => dropTable
  | "insert" => insert
  | "select" => select
  | "update" => update
  | "delete" => delete
  | "info" => info
  | _ => bare (.unknown written)

/-- The statement of a line; a blank line has none. -/
def line : Reading (Option Statement) := do
  match ← next? with
  | none => return none
  | some (.word word) => return some (← command (unquote word) word)
  | some symbol => return some (← command symbol.text symbol.text)

end Reading

def read (text : String) : Except Malformed (Option Statement) :=
  Reading.line.run' (Tokens.ofText text)

end Statement
end TableStore
