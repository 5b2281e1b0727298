import TableStore.Fault

/-
Column declarations: `name:type`, with white space allowed around either part.
-/
namespace TableStore
namespace Declaration

/-- The text before the first colon and the text behind it, which is empty without a colon. -/
def splitColon : List Char → List Char × List Char
  | [] => ([], [])
  | ':' :: rest => ([], rest)
  | c :: rest => let (name, tag) := splitColon rest; (c :: name, tag)

/-- The name and the type that a declaration states, if its type is one. -/
def parts? (declaration : String) : Option (String × DataType) :=
  let (name, tag) := splitColon declaration.toList
  (DataType.ofTag? (String.ofList (Text.trimChars tag))).map fun type =>
    (String.ofList (Text.trimChars name), type)

/-- Adds the declared column to a table.  The primary key is there from the start, so declaring it,
with whatever type, adds nothing. -/
def addTo (t : Table) (declaration : String) : Except Fault Table :=
  match parts? declaration with
  | none => .error (.invalidColumn declaration)
  | some (name, type) =>
    if name = keyColumn then .ok t
    else if name = "" ∨ (t.column? name).isSome then .error (.invalidColumn declaration)
    else .ok { t with columns := t.columns ++ [⟨name, type⟩] }

/-- The table of a list of declarations: the primary key, then the declared columns in order. -/
def table (name : String) (declarations : List String) : Except Fault Table :=
  declarations.foldlM addTo (Table.blank name)

end Declaration
end TableStore
