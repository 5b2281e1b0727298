/-
The lexemes of a JSON text.

Blanks are the four that JSON knows.  A text between quotes is kept as written, with its escapes,
and everything that is neither a text nor one of the four marks of an object is cut into words at
blanks and marks; what a word means is for its reader to say.
-/
namespace TableStore
namespace Json

inductive Lexeme where
  /-- An opening brace. -/
  | opening
  /-- A closing brace. -/
  | closing
  | colon
  | comma
  | text (written : List Char)
  | word (written : List Char)
  /-- The text ends inside quotes. -/
  | unclosed
deriving DecidableEq

namespace Lexeme

def ofMark? : Char → Option Lexeme
  | '\x7b' => some opening
  | '\x7d' => some closing
  | ':' => some colon
  | ',' => some comma
  | _ => none

def isBlank (c : Char) : Bool := c = ' ' || c = '\t' || c = '\n' || c = '\r'

/-- Where the scan is; `taken` holds the characters of the lexeme so far, last first. -/
inductive Mode where
  | between
  | word (taken : List Char)
  | text (taken : List Char)
  /-- Behind a backslash, where a quote does not end the text. -/
  | escaped (taken : List Char)
deriving DecidableEq

/-- Closes the word that the mode is in, in front of what follows it. -/
def Mode.close (m : Mode) (rest : List Lexeme) : List Lexeme :=
  match m with
  | between => rest
  | word taken => .word taken.reverse :: rest
  | text _ | escaped _ => [unclosed]

def scan : Mode → List Char → List Lexeme
  | mode, [] => mode.close []
  | .escaped taken, c :: rest => scan (.text (c :: taken)) rest
  | .text taken, c :: rest =>
    if c = '"' then text taken.reverse :: scan .between rest
    else scan (if c = '\\' then .escaped (c :: taken) else .text (c :: taken)) rest
  | mode, c :: rest =>
    if isBlank c then mode.close (scan .between rest)
    else if c = '"' then mode.close (scan (.text []) rest)
    else match ofMark? c with
      | some mark => mode.close (mark :: scan .between rest)
      | none =>
        match mode with
        | .word taken => scan (.word (c :: taken)) rest
        | _ => scan (.word [c]) rest

def ofText (s : String) : List Lexeme := scan .between s.toList

end Lexeme
end Json
end TableStore
