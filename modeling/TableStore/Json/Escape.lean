/-
Texts in JSON.

Written, a text keeps every character but the quote, the backslash and those below the space, which
are escaped.  Read, an escape may stand for any character, one above U+FFFF as a pair of surrogates.
-/
namespace TableStore
namespace Json

/-- A digit of a hexadecimal number, in lower case. -/
def hexDigit (n : Nat) : Char :=
  if n < 10 then Char.ofNat ('0'.toNat + n) else Char.ofNat ('a'.toNat + (n - 10))

def hexValue? (c : Char) : Option Nat :=
  if '0' ≤ c ∧ c ≤ '9' then some (c.toNat - '0'.toNat)
  else if 'a' ≤ c ∧ c ≤ 'f' then some (c.toNat - 'a'.toNat + 10)
  else if 'A' ≤ c ∧ c ≤ 'F' then some (c.toNat - 'A'.toNat + 10)
  else none

/-- The 16-bit number of four hexadecimal digits. -/
def hex4? (a b c d : Char) : Option Nat := do
  return (((← hexValue? a) * 16 + (← hexValue? b)) * 16 + (← hexValue? c)) * 16 + (← hexValue? d)

/-- The letter behind a backslash that stands for `c` when it is written. -/
def escapeLetter? : Char → Option Char
  | '"' => some '"'
  | '\\' => some '\\'
  | '\x08' => some 'b'
  | '\x0c' => some 'f'
  | '\n' => some 'n'
  | '\r' => some 'r'
  | '\t' => some 't'
  | _ => none

/-- The character that a letter behind a backslash stands for; `/` may be escaped and never is. -/
def escapedBy? : Char → Option Char
  | '"' => some '"'
  | '\\' => some '\\'
  | '/' => some '/'
  | 'b' => some '\x08'
  | 'f' => some '\x0c'
  | 'n' => some '\n'
  | 'r' => some '\r'
  | 't' => some '\t'
  | _ => none

def escapeChar (c : Char) : List Char :=
  match escapeLetter? c with
  | some letter => ['\\', letter]
  | none =>
    if c < ' ' then ['\\', 'u', '0', '0', hexDigit (c.toNat / 16), hexDigit (c.toNat % 16)]
    else [c]

/-- A text in quotes. -/
def writeText (s : String) : List Char := '"' :: (s.toList.flatMap escapeChar ++ ['"'])

/-- Whether `n` is the first half of a pair of surrogates. -/
def isHighSurrogate (n : Nat) : Bool := 0xD800 ≤ n && n < 0xDC00

def isLowSurrogate (n : Nat) : Bool := 0xDC00 ≤ n && n < 0xE000

/-- The characters that the inside of a quoted text stands for.  Controls have to be escaped, and a
surrogate that is not half of a pair stands for nothing. -/
def readText : List Char → Option (List Char)
  | [] => some []
  | c :: rest =>
    if c = '\\' then
      match rest with
      | 'u' :: a :: b :: d :: e :: rest => do
        let n ← hex4? a b d e
        if isHighSurrogate n then
          match rest with
          | '\\' :: 'u' :: a :: b :: d :: e :: rest => do
            let m ← hex4? a b d e
            if isLowSurrogate m then
              let chars ← readText rest
              return Char.ofNat (0x10000 + (n - 0xD800) * 0x400 + (m - 0xDC00)) :: chars
            else none
          | _ => none
        else if isLowSurrogate n then none
        else
          let chars ← readText rest
          return Char.ofNat n :: chars
      | letter :: rest => do
        let c ← escapedBy? letter
        let chars ← readText rest
        return c :: chars
      | [] => none
    else if c < ' ' then none
    else do
      let chars ← readText rest
      return c :: chars

end Json
end TableStore
