import TableStore.Text.Unshown

/-
The quoted form of a text in a table cell: between double quotes, with the quote, the backslash and
the common controls written as a backslash and a letter, and every other character that shows
nothing of its own written by its number.

Written so, a cell has no line break, and different texts have different cells.
-/
namespace TableStore
namespace Text

/-- The letter that stands behind a backslash for `c`. -/
def escapeLetter? : Char → Option Char
  | '\x00' => some '0'
  | '\t' => some 't'
  | '\r' => some 'r'
  | '\n' => some 'n'
  | '"' => some '"'
  | '\\' => some '\\'
  | _ => none

/-- A character by its number: lower-case hexadecimal digits, as few as will do, between braces. -/
def byNumber (c : Char) : List Char :=
  ['\\', 'u', '\x7b'] ++ Nat.toDigits 16 c.toNat ++ ['\x7d']

def escapeChar (c : Char) : List Char :=
  match escapeLetter? c with
  | some letter => ['\\', letter]
  | none => if isUnshown c then byNumber c else [c]

def quotedChars (cs : List Char) : List Char := '"' :: (cs.flatMap escapeChar ++ ['"'])

def quoted (s : String) : String := String.ofList (quotedChars s.toList)

end Text
end TableStore
