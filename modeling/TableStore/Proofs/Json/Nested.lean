import TableStore.Json.Nested
import TableStore.Proofs.Json.Lexeme
import TableStore.Proofs.Refusable

/-
What is read from an object of objects.

Over the lexemes of such an object the reader does what two nested loops over its sections and their
members do (`Shape.read_object`).
-/
namespace TableStore
namespace Json

def Leaf.lexemes : Leaf → List Lexeme
  | .text written => [.text written]
  | .word written => [.word written]
  | .tagged tag written => [.opening, .text tag, .colon, .word written, .closing]

namespace Shape

variable {ε σ τ : Type} (shape : Shape ε σ τ) (bad : ε)

/-- Takes members in, from left to right. -/
def takeMembers (part : τ) (members : List (List Char × Leaf)) : Except ε τ :=
  members.foldlM (fun part m => shape.addMember part m.1 m.2) part

/-- Takes sections in, each after its members. -/
def takeParts (whole : σ) (sections : List (List Char × List (List Char × Leaf))) : Except ε σ :=
  sections.foldlM
    (fun whole s => do shape.addPart whole s.1 (← shape.takeMembers shape.part s.2)) whole

theorem atKey_leaf (whole : σ) (name : List Char) (part : τ) (key : List Char) (leaf : Leaf)
    (rest : List Lexeme) :
    shape.atKey bad whole name part (.text key :: .colon :: (leaf.lexemes ++ rest)) =
      shape.addMember part key leaf >>= fun part => shape.afterMember bad whole name part rest := by
  cases leaf <;> simp [Leaf.lexemes, atKey]

/-- Members behind commas, and the end of their section. -/
theorem afterMember_members (whole : σ) (name : List Char) (part : τ)
    (members : List (List Char × Leaf)) (rest : List Lexeme) :
    shape.afterMember bad whole name part
        (members.flatMap (fun m => .comma :: .text m.1 :: .colon :: m.2.lexemes) ++
          .closing :: rest) =
      shape.takeMembers part members >>= fun part =>
        shape.addPart whole name part >>= fun whole => shape.afterPart bad whole rest := by
  induction members generalizing part with
  | nil => simp [afterMember, takeMembers]
  | cons m members ih =>
    simp only [List.flatMap_cons, List.cons_append, List.append_assoc, afterMember, takeMembers,
      List.foldlM_cons, bind_assoc]
    rw [atKey_leaf]
    simp only [ih, takeMembers]

theorem atName_part (whole : σ) (name : List Char) (members : List (List Char × Leaf))
    (rest : List Lexeme) :
    shape.atName bad whole (.text name :: .colon ::
        (Lexeme.object (members.map fun m => (m.1, m.2.lexemes)) ++ rest)) =
      shape.takeMembers shape.part members >>= fun part =>
        shape.addPart whole name part >>= fun whole => shape.afterPart bad whole rest := by
  cases members with
  | nil => simp [Lexeme.object, atName, takeMembers]
  | cons m members =>
    rw [List.map_cons, Lexeme.object_cons]
    simp only [List.cons_append, List.append_assoc, List.nil_append, List.flatMap_map]
    rw [atName, atKey_leaf]
    · simp only [afterMember_members, takeMembers, List.foldlM_cons, bind_assoc]
    · simp

/-- Sections behind commas, and the end of the whole. -/
theorem afterPart_parts (whole : σ) (sections : List (List Char × List (List Char × Leaf))) :
    shape.afterPart bad whole
        (sections.flatMap (fun s => .comma :: .text s.1 :: .colon ::
          Lexeme.object (s.2.map fun m => (m.1, m.2.lexemes))) ++ [.closing]) =
      shape.takeParts whole sections := by
  induction sections generalizing whole with
  | nil => simp [afterPart, takeParts, pure, Except.pure]
  | cons s sections ih =>
    simp only [List.flatMap_cons, List.cons_append, List.append_assoc, afterPart, takeParts,
      List.foldlM_cons, bind_assoc]
    rw [atName_part]
    simp only [ih, takeParts]

theorem read_object (sections : List (List Char × List (List Char × Leaf))) :
    shape.read bad (Lexeme.object (sections.map fun s =>
        (s.1, Lexeme.object (s.2.map fun m => (m.1, m.2.lexemes))))) =
      shape.takeParts shape.whole sections := by
  cases sections with
  | nil => rfl
  | cons s sections =>
    rw [List.map_cons, Lexeme.object_cons, List.flatMap_map]
    simp only [read]
    rw [atName_part]
    simp only [afterPart_parts, takeParts, List.foldlM_cons, bind_assoc]

/-- What every section that is taken in keeps, a successful reading keeps. -/
theorem read_invariant {P : σ → Prop} (hwhole : P shape.whole)
    (hpart : ∀ {whole name part whole'}, P whole → shape.addPart whole name part = .ok whole' →
      P whole') {lexemes : List Lexeme} {whole : σ} (h : shape.read bad lexemes = .ok whole) :
    P whole := by
  -- The four positions of the reader are followed together, in the cases of its own recursion.
  have hall := atName.mutual_induct shape
    (fun whole lexemes => P whole → ∀ last, shape.atName bad whole lexemes = .ok last → P last)
    (fun whole name part lexemes =>
      P whole → ∀ last, shape.atKey bad whole name part lexemes = .ok last → P last)
    (fun whole name part lexemes =>
      P whole → ∀ last, shape.afterMember bad whole name part lexemes = .ok last → P last)
    (fun whole lexemes => P whole → ∀ last, shape.afterPart bad whole lexemes = .ok last → P last)
    ?emptyPart ?part ?noName ?textMember ?wordMember ?taggedMember ?noKey ?nextMember ?partEnd
    ?noMemberEnd ?nextPart ?wholeEnd ?noPartEnd
  · unfold read at h
    split at h
    · cases h
      exact hwhole
    · exact hall.1 _ _ hwhole _ h
    · cases h
  case emptyPart =>
    intro whole name rest ih hP last hlast
    rw [atName, bind_eq_ok_iff] at hlast
    obtain ⟨next, hnext, hlast⟩ := hlast
    exact ih next (hpart hP hnext) last hlast
  case part =>
    intro whole name rest hrest ih hP last hlast
    rw [atName] at hlast
    · exact ih hP last hlast
    · exact hrest
  case noName =>
    intro lexemes whole hempty hsome _ last hlast
    rw [atName] at hlast
    · cases hlast
    · exact hempty
    · exact hsome
  case textMember =>
    intro whole name part key written rest ih hP last hlast
    rw [atKey, bind_eq_ok_iff] at hlast
    obtain ⟨next, -, hlast⟩ := hlast
    exact ih next hP last hlast
  case wordMember =>
    intro whole name part key written rest ih hP last hlast
    rw [atKey, bind_eq_ok_iff] at hlast
    obtain ⟨next, -, hlast⟩ := hlast
    exact ih next hP last hlast
  case taggedMember =>
    intro whole name part key tag word rest ih hP last hlast
    rw [atKey, bind_eq_ok_iff] at hlast
    obtain ⟨next, -, hlast⟩ := hlast
    exact ih next hP last hlast
  case noKey =>
    intro lexemes whole name part htext hword htagged _ last hlast
    rw [atKey] at hlast
    · cases hlast
    · exact htext
    · exact hword
    · exact htagged
  case nextMember =>
    intro whole name part rest ih hP last hlast
    rw [afterMember] at hlast
    exact ih hP last hlast
  case partEnd =>
    intro whole name part rest ih hP last hlast
    rw [afterMember, bind_eq_ok_iff] at hlast
    obtain ⟨next, hnext, hlast⟩ := hlast
    exact ih next (hpart hP hnext) last hlast
  case noMemberEnd =>
    intro lexemes whole name part hcomma hclosing _ last hlast
    rw [afterMember] at hlast
    · cases hlast
    · exact hcomma
    · exact hclosing
  case nextPart =>
    intro whole rest ih hP last hlast
    rw [afterPart] at hlast
    exact ih hP last hlast
  case wholeEnd =>
    intro whole hP last hlast
    rw [afterPart] at hlast
    cases hlast
    exact hP
  case noPartEnd =>
    intro lexemes whole hcomma hclosing _ last hlast
    rw [afterPart] at hlast
    · cases hlast
    · exact hcomma
    · exact hclosing

end Shape
end Json
end TableStore
