import TableStore.Text.Blank

/-
The tokens of a command line.

White space separates words, four symbols stand for themselves, and a quoted section, which may hold
white space and symbols, belongs to the word it stands in.  A word keeps its quotes, so that a
quoted numeral can still be told from a bare one.
-/
namespace TableStore

inductive Token where
  | word (text : String)
  | openParen
  | closeParen
  | comma
  | equal
deriving DecidableEq

namespace Token

/-- A token as it is written. -/
def text : Token → String
  | word text => text
  | openParen => "("
  | closeParen => ")"
  | comma => ","
  | equal => "="

def ofSymbol? : Char → Option Token
  | '(' => some openParen
  | ')' => some closeParen
  | ',' => some comma
  | '=' => some equal
  | _ => none

end Token

def isQuote (c : Char) : Bool := c = '"' || c = '\''

/-- The text of a word without its quoting; `quote` is the quote that is open. -/
def unquoteFrom (quote : Option Char) : List Char → List Char
  | [] => []
  | c :: rest =>
    match quote with
    | some q => if c = q then unquoteFrom none rest else c :: unquoteFrom quote rest
    | none => if isQuote c then unquoteFrom (some c) rest else c :: unquoteFrom none rest

def unquote (word : String) : String := String.ofList (unquoteFrom none word.toList)

/-- The tokens of a line, one after the other.  A line that ends inside a quoted section ends in
`unclosed`, with the word as far as it goes: what is wrong there matters only to a reader that gets
so far. -/
inductive Tokens where
  | nil
  | unclosed (word : String)
  | cons (token : Token) (rest : Tokens)
deriving DecidableEq

namespace Tokens

/-- Where in a line the scan is: between words, in a word, or in a quoted section of a word.  The
characters of the word so far are kept last first. -/
inductive Mode where
  | between
  | word (taken : List Char)
  | quoted (quote : Char) (taken : List Char)
deriving DecidableEq

namespace Mode

def taken : Mode → List Char
  | between => []
  | word taken => taken
  | quoted _ taken => taken

/-- The mode behind one more character of a word. -/
def extend (m : Mode) (c : Char) : Mode :=
  if isQuote c then quoted c (c :: m.taken) else word (c :: m.taken)

/-- Closes the word that the mode is in, in front of what follows it. -/
def close (m : Mode) (rest : Tokens) : Tokens :=
  match m with
  | between => rest
  | word taken => cons (.word (String.ofList taken.reverse)) rest
  | quoted _ taken => unclosed (String.ofList taken.reverse)

end Mode

/-- Scans on from a mode.  Inside a quoted section only its quote has a meaning; elsewhere white
space and symbols end a word and every other character belongs to one. -/
def scan : Mode → List Char → Tokens
  | mode, [] => mode.close nil
  | .quoted quote taken, c :: rest =>
    scan (if c = quote then .word (c :: taken) else .quoted quote (c :: taken)) rest
  | mode, c :: rest =>
    if Text.isBlank c then mode.close (scan .between rest)
    else match Token.ofSymbol? c with
      | some token => mode.close (cons token (scan .between rest))
      | none => scan (mode.extend c) rest

def ofText (s : String) : Tokens := scan .between s.toList

/-- The word that a line ends in with a quote open, if it does. -/
def unclosed? : Tokens → Option String
  | nil => none
  | unclosed word => some word
  | cons _ rest => rest.unclosed?

end Tokens
end TableStore
