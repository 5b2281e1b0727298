/-
Decimal text of signed 64-bit integers.

A numeral is read one digit at a time, and the first digit that is none, or that carries the value
out of range, decides the verdict; digits behind it are not looked at.
-/
namespace TableStore
namespace Decimal

/-- Why a text is not the numeral of a signed 64-bit integer. -/
inductive Fault where
  | empty
  | invalidDigit
  | tooLarge
  | tooSmall
deriving Repr, DecidableEq

def Fault.message : Fault → String
  | .empty => "cannot parse integer from empty string"
  | .invalidDigit => "invalid digit found in string"
  | .tooLarge => "number too large to fit in target type"
  | .tooSmall => "number too small to fit in target type"

/-- The value of an ASCII digit. -/
def digit? (c : Char) : Option Nat :=
  if '0' ≤ c ∧ c ≤ '9' then some (c.toNat - '0'.toNat) else none

/-- The least of the 64-bit integers. -/
def least : Int := -9223372036854775808

def greatest : Int := 9223372036854775807

/-- Takes in one more digit, away from zero in the direction of the sign. -/
def extend (negative : Bool) (value : Int) (c : Char) : Except Fault Int :=
  match digit? c with
  | none => .error .invalidDigit
  | some d =>
    let next := if negative then value * 10 - d else value * 10 + d
    if next < least then .error .tooSmall
    else if greatest < next then .error .tooLarge
    else .ok next

/-- A non-empty run of digits behind a sign. -/
def readDigits (negative : Bool) (digits : List Char) : Except Fault Int64 :=
  if digits.isEmpty then .error .invalidDigit
  else Int64.ofInt <$> digits.foldlM (extend negative) 0

/-- Reads digits behind at most one sign.  A sign alone is an invalid digit, the empty text has a
verdict of its own. -/
def read : List Char → Except Fault Int64
  | [] => .error .empty
  | '-' :: digits => readDigits true digits
  | '+' :: digits => readDigits false digits
  | digits => readDigits false digits

/-- The shortest numeral: no leading zero, and a sign only below zero. -/
def write (n : Int64) : String := toString n.toInt

end Decimal
end TableStore
