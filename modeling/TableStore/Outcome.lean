import TableStore.Schema

/-
What a command answers.
-/
namespace TableStore

inductive Outcome where
  | created (table : String) (columns : List Column)
  | dropped (table : String)
  | listed (tables : List String)
  | inserted (table : String) (id : Int64)
  | scanned (table : String) (columns : List String) (rows : List (List Value))
  | updated (table : String) (ids : List Int64)
  | deleted (table : String) (ids : List Int64)
  | described (table : String) (columns : List Column) (count : Nat)
  | help
  | exit
deriving DecidableEq

namespace Outcome

/-- Whether the command changed the registry or the rows of a table. -/
def isMutation : Outcome → Bool
  | created .. | dropped .. | inserted .. => true
  | updated _ ids | deleted _ ids => !ids.isEmpty
  | _ => false

end Outcome
end TableStore
