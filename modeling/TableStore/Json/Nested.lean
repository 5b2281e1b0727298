import TableStore.Json.Lexeme

/-
Reading an object of objects, the shape of every stored file: sections by name, and in each of them
members by name.

The reading goes from left to right and takes in each section as soon as it closes, so a section
that is refused is reported before anything that is wrong behind it.
-/
namespace TableStore
namespace Json

/-- The value of a member. -/
inductive Leaf where
  | text (written : List Char)
  | word (written : List Char)
  /-- An object of one member, whose value is a word. -/
  | tagged (tag word : List Char)
deriving DecidableEq

/-- What is made of a file: the whole `σ` and the section `τ` before anything is read, how a section
takes in a member, and how the whole takes in a section that is complete.  Names are as written. -/
structure Shape (ε σ τ : Type) where
  whole : σ
  part : τ
  addMember : τ → List Char → Leaf → Except ε τ
  addPart : σ → List Char → τ → Except ε σ

namespace Shape

variable {ε σ τ : Type} (shape : Shape ε σ τ) (bad : ε)

mutual

/-- At the name of a section. -/
def atName (whole : σ) : List Lexeme → Except ε σ
  | .text name :: .colon :: .opening :: .closing :: rest => do
    afterPart (← shape.addPart whole name shape.part) rest
  | .text name :: .colon :: .opening :: rest => atKey whole name shape.part rest
  | _ => .error bad

/-- Behind a section. -/
def afterPart (whole : σ) : List Lexeme → Except ε σ
  | .comma :: rest => atName whole rest
  | [.closing] => .ok whole
  | _ => .error bad

/-- At the name of a member. -/
def atKey (whole : σ) (name : List Char) (part : τ) : List Lexeme → Except ε σ
  | .text key :: .colon :: .text written :: rest => do
    afterMember whole name (← shape.addMember part key (.text written)) rest
  | .text key :: .colon :: .word written :: rest => do
    afterMember whole name (← shape.addMember part key (.word written)) rest
  | .text key :: .colon :: .opening :: .text tag :: .colon :: .word word :: .closing :: rest => do
    afterMember whole name (← shape.addMember part key (.tagged tag word)) rest
  | _ => .error bad

/-- Behind a member. -/
def afterMember (whole : σ) (name : List Char) (part : τ) : List Lexeme → Except ε σ
  | .comma :: rest => atKey whole name part rest
  | .closing :: rest => do afterPart (← shape.addPart whole name part) rest
  | _ => .error bad

end

/-- Reads a whole text; `bad` is the fault of a text that is no object of objects. -/
def read : List Lexeme → Except ε σ
  | [.opening, .closing] => .ok shape.whole
  | .opening :: rest => shape.atName bad shape.whole rest
  | _ => .error bad

end Shape
end Json
end TableStore
