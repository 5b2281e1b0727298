/-
Sets of characters given as ranges of code points.
-/
namespace TableStore
namespace Text

/-- Closed ranges of code points, in ascending order and apart from one another. -/
abbrev Ranges := List (Nat × Nat)

namespace Ranges

/-- Whether `n` lies in one of the ranges.  The order lets the search stop at the first range that
begins above `n`. -/
def holds : Ranges → Nat → Bool
  | [], _ => false
  | r :: rest, n => if n < r.1 then false else n ≤ r.2 || holds rest n

/-- How many code points the ranges hold. -/
def count (rs : Ranges) : Nat := rs.foldl (fun n r => n + (r.2 + 1 - r.1)) 0

end Ranges

end Text
end TableStore
