import TableStore.Json.Escape

/-
How JSON objects are laid out: without any blanks, or with one member to a line.
-/
namespace TableStore
namespace Json

inductive Layout where
  | compact
  /-- Two spaces for every level that a line is inside. -/
  | pretty
deriving DecidableEq

namespace Layout

/-- What stands before a member, or before the end of an object, on level `depth`. -/
def lineStart (l : Layout) (depth : Nat) : List Char :=
  match l with
  | compact => []
  | pretty => '\n' :: List.replicate (2 * depth) ' '

def afterKey : Layout → List Char
  | compact => [':']
  | pretty => [':', ' ']

def member (l : Layout) (depth : Nat) (m : String × List Char) : List Char :=
  l.lineStart depth ++ writeText m.1 ++ l.afterKey ++ m.2

/-- An object on level `depth` whose members' values are written already. -/
def object (l : Layout) (depth : Nat) (members : List (String × List Char)) : List Char :=
  match members with
  | [] => ['\x7b', '\x7d']
  | _ =>
    '\x7b' :: [','].intercalate (members.map (l.member (depth + 1))) ++ l.lineStart depth ++
      ['\x7d']

end Layout
end Json
end TableStore
