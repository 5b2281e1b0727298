import TableStore.Fault
import TableStore.Json.Layout
import TableStore.Json.Nested

/-
The members of stored files: names, column types and values.

Each has one written form.  Read, an integer has to be written exactly so, a text may use any
escape, and a type may also stand as the name of an object whose value is null.
-/
namespace TableStore
namespace Json

def readName? (written : List Char) : Option String := (readText written).map String.ofList

/-- An integer in its one written form: no sign but a minus, no leading zero, no minus zero. -/
def readInteger? (written : List Char) : Option Int64 :=
  match Decimal.read written with
  | .ok n => if (Decimal.write n).toList = written then some n else none
  | .error _ => none

def writeType (t : DataType) : List Char := writeText t.tag

def readType? : Leaf → Option DataType
  | .text written => readName? written >>= DataType.ofTag?
  | .tagged tag word =>
    if word = "null".toList then readName? tag >>= DataType.ofTag? else none
  | .word _ => none

def writeValue : Value → List Char
  | .bool b => (Value.bool b).text.toList
  | .int n => (Decimal.write n).toList
  | .str s => writeText s

def readValue? : Leaf → Option Value
  | .text written => (readName? written).map .str
  | .word written =>
    if written = "true".toList then some (.bool true)
    else if written = "false".toList then some (.bool false)
    else (readInteger? written).map .int
  | .tagged .. => none

/-- Something that is there, or the fault of a text of the wrong shape. -/
def expect {α : Type} : Option α → Except TextFault α
  | some a => .ok a
  | none => .error .badJson

end Json
end TableStore
