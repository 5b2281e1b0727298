import TableStore.Fault

/-
Values as they are written in commands: `true` and `false`, decimal integers, and texts between
two quotes of one kind.

The first character decides the kind, so `"42"` is a text while `42abc` is a malformed integer.
-/
namespace TableStore
namespace Literal

/-- Whether a word that starts with `c` is meant as an integer. -/
def startsInteger (c : Char) : Bool := (Decimal.digit? c).isSome || c = '+' || c = '-'

def read (word : String) : Except Malformed Value :=
  if word = "true" then .ok (.bool true)
  else if word = "false" then .ok (.bool false)
  else match word.toList with
    | [] => .error (.invalidValue word)
    | c :: rest =>
      if startsInteger c then (Decimal.read (c :: rest)).mapError .integer |>.map .int
      else if isQuote c && rest.getLast? = some c then .ok (.str (String.ofList rest.dropLast))
      else .error (.invalidValue word)

end Literal
end TableStore
