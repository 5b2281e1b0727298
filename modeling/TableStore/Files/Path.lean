/-
Paths as texts: parts between slashes.

A path keeps the text that was put together for it, so a fault names a file by that very text; only
the parts that lead nowhere, empty ones and single dots, are cut off where a path ends.
-/
namespace TableStore
namespace Path

/-- The parts between slashes; a slash at either end has an empty part beyond it. -/
def split : List Char → List (List Char)
  | [] => [[]]
  | c :: rest =>
    if c = '/' then [] :: split rest
    else match split rest with
      | [] => [[c]]
      | part :: parts => (c :: part) :: parts

def isAbsolute (path : String) : Bool := path.toList.head? = some '/'

/-- The path `part` taken from the directory `base`; an absolute one is the same from everywhere. -/
def join (base part : String) : String :=
  if isAbsolute part || base = "" then part
  else if base.toList.getLast? = some '/' then base ++ part
  else base ++ "/" ++ part

/-- A path's start, which is no part to be cut off: the slash of an absolute path, or the single dot
that a relative path may begin with. -/
def splitStart (path : List Char) : List Char × List Char :=
  match path with
  | '/' :: rest => (['/'], rest)
  | ['.'] => (['.'], [])
  | '.' :: '/' :: rest => (['.'], '/' :: rest)
  | _ => ([], path)

/-- A part that stays in the directory it is taken from. -/
def staysPut (part : List Char) : Bool := part = [] || part = ['.']

/-- The paths that the parts lead through, given last first: at every part that leads somewhere, the
path up to it. -/
def climb (start : List Char) : List (List Char) → List String
  | [] =>
    if start = ['.'] then [".", ""]
    else [String.ofList start]
  | part :: before =>
    if staysPut part then climb start before
    else
      String.ofList (start ++ ['/'].intercalate (part :: before).reverse) :: climb start before

/-- The directories that a path is in, the nearest first.  The one around a relative path is written
as the empty text. -/
def enclosing (path : String) : List String :=
  let (start, parts) := splitStart path.toList
  (climb start (split parts).reverse).tail

end Path
end TableStore
