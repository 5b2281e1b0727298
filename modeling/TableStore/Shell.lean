import TableStore.Outcome.Wording
import TableStore.Session

/-
The command shell: it reads its input line by line, answers each line, and ends at `exit` or at the
end of the input.  No fault ends it, but an outcome that is too wide to be printed does: the program
breaks off over it.
-/
namespace TableStore
namespace Shell

/-- The pieces of an input: each ends with a line feed, but for the last if the input does not. -/
def lines : List UInt8 → List (List UInt8)
  | [] => []
  | b :: rest =>
    if b = 10 then [b] :: lines rest
    else match lines rest with
      | [] => [[b]]
      | line :: more => (b :: line) :: more

def prompt : String := "> "

/-- What becomes of the shell behind a line. -/
inductive Sequel where
  | readsOn
  | ends
  /-- The program breaks off before it prints anything of the outcome. -/
  | breaksOff
deriving DecidableEq

/-- What the shell prints for one line, and what becomes of it. -/
structure Answer where
  text : String
  sequel : Sequel
deriving DecidableEq

def Answer.ofOutcome (outcome : Outcome) : Answer :=
  match outcome.text? with
  | some text => ⟨text ++ "\n", if outcome = .exit then .ends else .readsOn⟩
  | none => ⟨"", .breaksOff⟩

def Answer.ofResult (words : Wording) : Except Fault (Option Outcome) → Answer
  | .ok none => ⟨"", .readsOn⟩
  | .ok (some outcome) => .ofOutcome outcome
  | .error fault => ⟨s!"Error: {fault.message words}\n", .readsOn⟩

/-- What the shell printed by the time it was through, and whether it broke off. -/
structure Transcript where
  text : String
  brokeOff : Bool
deriving DecidableEq

/-- The same behind a text that was printed before. -/
def Transcript.behind (before : String) (t : Transcript) : Transcript :=
  ⟨before ++ t.text, t.brokeOff⟩

variable {m : Type → Type} [Monad m] [Storage m] (words : Wording)

/-- Answers one piece of the input.  A piece that is not UTF-8 reaches no session. -/
def answer (line : List UInt8) : StateT Session m Answer := do
  match String.fromUTF8? ⟨line.toArray⟩ with
  | none => return ⟨"Error: stream did not contain valid UTF-8\n", .readsOn⟩
  | some text => return .ofResult words (← (Session.executeLine text).run)

/-- What the shell prints for the lines of an input, prompts included. -/
def converse : List (List UInt8) → StateT Session m Transcript
  | [] => return ⟨prompt ++ "\n", false⟩
  | line :: rest => do
    let a ← answer words line
    match a.sequel with
    | .readsOn => return (← converse rest).behind (prompt ++ a.text)
    | .ends => return ⟨prompt ++ a.text, false⟩
    | .breaksOff => return ⟨prompt ++ a.text, true⟩

/-- What the shell prints before it reads anything. -/
def greeting : String := helpText ++ "\n"

/-- Everything that the shell prints for an input. -/
def run (input : List UInt8) : StateT Session m Transcript := do
  return (← converse words (lines input)).behind greeting

end Shell
end TableStore
