import TableStore.Text.Ranges

/-
White space: what separates the words of a command and what is cut from both ends of a column
declaration.

The set is the Unicode property White_Space, which has 25 characters; core's `Char.isWhitespace` is
its ASCII part without the vertical tab and the form feed.
-/
namespace TableStore
namespace Text

def blankRanges : Ranges :=
  [(0x09, 0x0D), (0x20, 0x20), (0x85, 0x85), (0xA0, 0xA0), (0x1680, 0x1680), (0x2000, 0x200A),
   (0x2028, 0x2029), (0x202F, 0x202F), (0x205F, 0x205F), (0x3000, 0x3000)]

def isBlank (c : Char) : Bool := blankRanges.holds c.toNat

example : blankRanges.count = 25 := by decide

/-- Cuts the white space at both ends. -/
def trimChars (cs : List Char) : List Char :=
  ((cs.dropWhile isBlank).reverse.dropWhile isBlank).reverse

end Text
end TableStore
