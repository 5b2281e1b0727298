import TableStore.Config
import TableStore.Files.FileTree

/-
Where the default configuration leads.

The registry is a file at the top of the tree and the rows of a table are a file in the directory
`data` there, whatever the table's name is, as long as it has no slash.  Whether the operating
system takes that file's name is another matter (`rowsTarget`).
-/
namespace TableStore

namespace Path

theorem split_of_not_mem {part : List Char} (h : '/' ∉ part) : split part = [part] := by
  induction part with
  | nil => rfl
  | cons c rest ih =>
    rw [List.mem_cons, not_or] at h
    rw [split, if_neg (Ne.symm h.1), ih h.2]

theorem split_append_slash {part : List Char} (h : '/' ∉ part) (rest : List Char) :
    split (part ++ '/' :: rest) = part :: split rest := by
  induction part with
  | nil => rfl
  | cons c part ih =>
    rw [List.mem_cons, not_or] at h
    rw [List.cons_append, split, if_neg (Ne.symm h.1), ih h.2]

end Path

def rowFile (table : String) : String := table ++ ".json"

theorem rowFile_inj {table table' : String} (h : rowFile table = rowFile table') :
    table = table' :=
  (String.append_left_inj ".json").mp h

theorem length_rowFile (table : String) : 5 ≤ (rowFile table).toList.length := by
  have hlength : ".json".toList.length = 5 := by decide
  rw [rowFile, String.toList_append, List.length_append, hlength]
  omega

/-- The name of a table's file is none of the short names with a meaning of their own. -/
theorem rowFile_ne (table : String) {name : String} (h : name.toList.length < 5) :
    rowFile table ≠ name := by
  rintro rfl
  have hlength := length_rowFile table
  omega

namespace Config

theorem schemaPath_default : ({} : Config).schemaPath = "./db_meta.json" := by
  decide +kernel

theorem enclosing_schemaPath : Path.enclosing ({} : Config).schemaPath = [".", ""] := by
  rw [schemaPath_default]
  decide +kernel

theorem rowPath_default : ({} : Config).rowPath = "./data" := by
  decide +kernel

section

variable {table : String} (h : '/' ∉ table.toList)
include h

theorem not_mem_rowFile : '/' ∉ (rowFile table).toList := by
  simp [rowFile, h]

theorem tablePath_default : ({} : Config).tablePath table = "./data/" ++ rowFile table := by
  have hrelative : Path.isAbsolute (rowFile table) = false := by
    rw [Path.isAbsolute, decide_eq_false_iff_not]
    exact fun hhead => not_mem_rowFile h (List.mem_of_head? hhead)
  show Path.join ({} : Config).rowPath (rowFile table) = _
  rw [rowPath_default, Path.join, hrelative]
  simp only [Bool.false_or, String.reduceEq, decide_false, Bool.false_eq_true, if_false]
  rw [if_neg (by decide)]
  exact congrArg (· ++ rowFile table) (by decide)

theorem tablePath_toList : (({} : Config).tablePath table).toList =
    '.' :: '/' :: ("data".toList ++ '/' :: (rowFile table).toList) := by
  rw [tablePath_default h, String.toList_append]
  rfl

theorem split_rowPart : Path.split ("data".toList ++ '/' :: (rowFile table).toList) =
    ["data".toList, (rowFile table).toList] := by
  rw [Path.split_append_slash (by decide), Path.split_of_not_mem (not_mem_rowFile h)]

theorem split_tablePath :
    (Path.split (({} : Config).tablePath table).toList).map String.ofList =
      [".", "data", rowFile table] := by
  rw [tablePath_toList h, ← List.singleton_append, Path.split_append_slash (by decide),
    split_rowPart h]
  simp only [List.map_cons, List.map_nil, String.ofList_toList]

theorem enclosing_tablePath :
    Path.enclosing (({} : Config).tablePath table) = ["./data", ".", ""] := by
  have hmoves : Path.staysPut (rowFile table).toList = false := by
    simp only [Path.staysPut, Bool.or_eq_false_iff, decide_eq_false_iff_not]
    exact ⟨fun heq => rowFile_ne table (show "".toList.length < 5 by decide)
        (String.toList_inj.mp (heq.trans (by decide))),
      fun heq => rowFile_ne table (show ".".toList.length < 5 by decide)
        (String.toList_inj.mp (heq.trans (by decide)))⟩
  have hparts : Path.split ('/' :: ("data".toList ++ '/' :: (rowFile table).toList)) =
      [[], "data".toList, (rowFile table).toList] := by
    rw [Path.split, if_pos rfl, split_rowPart h]
  rw [Path.enclosing, tablePath_toList h]
  simp only [Path.splitStart, hparts]
  show (Path.climb ['.'] [(rowFile table).toList, "data".toList, []]).tail = _
  rw [Path.climb, hmoves]
  rfl

end

end Config

/-- A table name that a file can carry: no slash, no NUL, and not too long with its ending. -/
structure FileName (table : String) : Prop where
  noSlash : '/' ∉ table.toList
  noNul : '\x00' ∉ table.toList
  short : (rowFile table).utf8ByteSize ≤ FileTree.nameLimit

namespace FileTree

/-! ## The file of the registry -/

variable (t : FileTree)

theorem resolve_schemaPath :
    t.resolve ({} : Config).schemaPath = .ok (.entry [] "db_meta.json" false) := by
  rw [Config.schemaPath_default]
  rfl

theorem readFile_schemaPath : t.readFile ({} : Config).schemaPath =
    match t.nodes.get? ["db_meta.json"] with
    | none => .error .notFound
    | some .directory => .error .isDirectory
    | some (.file content) => .ok content := by
  unfold readFile
  rw [resolve_schemaPath]
  rfl

theorem writeFile_schemaPath (content : ByteArray) :
    t.writeFile ({} : Config).schemaPath content =
      match t.nodes.get? ["db_meta.json"] with
      | some .directory => .error .isDirectory
      | _ => .ok ⟨t.nodes.insert ["db_meta.json"] (.file content)⟩ := by
  unfold writeFile
  rw [resolve_schemaPath]
  rfl

/-! ## The directory of the rows -/

theorem resolve_rowPath : t.resolve "./data" = .ok (.entry [] "data" false) := rfl

theorem makeDirectory_rowPath : t.makeDirectory "./data" =
    match t.nodes.get? ["data"] with
    | some _ => .error .alreadyExists
    | none => .ok ⟨t.nodes.insert ["data"] .directory⟩ := by
  unfold makeDirectory
  rw [resolve_rowPath]
  rfl

theorem isDirectory_rowPath : t.isDirectory "./data" =
    match t.nodes.get? ["data"] with
    | some .directory => true
    | _ => false := by
  unfold isDirectory
  rw [resolve_rowPath]
  have hlook : t.look [] "data" = .ok (t.nodes.get? ["data"]) := rfl
  simp only [hlook]
  rcases t.nodes.get? ["data"] with _ | _ | _ <;> rfl

/-! ## The file of a table -/

section

variable {t} {table : String} (h : FileName table)
include h

theorem utf8ByteSize_tablePath :
    (({} : Config).tablePath table).utf8ByteSize = 7 + (rowFile table).utf8ByteSize := by
  have hstart : "./data/".utf8ByteSize = 7 := by decide
  rw [Config.tablePath_default h.noSlash, String.utf8ByteSize_append, hstart]

theorem not_mem_tablePath : (({} : Config).tablePath table).toList.contains '\x00' = false := by
  have hmem : '\x00' ∉ (rowFile table).toList := by
    simp [rowFile, h.noNul]
  rw [Config.tablePath_toList h.noSlash]
  simp [hmem]

theorem resolve_tablePath : t.resolve (({} : Config).tablePath table) =
    (t.enter [] ["data"]).map fun here => .entry here (rowFile table) false := by
  have hsize := utf8ByteSize_tablePath h
  have hshort := h.short
  have hne : ({} : Config).tablePath table ≠ "" := by
    intro heq
    rw [heq] at hsize
    have hzero : "".utf8ByteSize = 0 := by decide
    omega
  have hlimit : ¬ pathLimit < (({} : Config).tablePath table).utf8ByteSize := by
    have hlimits : nameLimit + 7 ≤ pathLimit := by decide
    omega
  unfold resolve
  rw [not_mem_tablePath h, Config.split_tablePath h.noSlash, if_neg (by decide), if_neg hne,
    if_neg hlimit]
  have hlast : (["." , "data", rowFile table].reverse.dropWhile (· = "")) =
      [rowFile table, "data", "."] := by
    simp [rowFile_ne table (show "".toList.length < 5 by decide)]
  have hstart : t.enter [] [".", "data"] = t.enter [] ["data"] := by
    rw [enter, if_pos (by decide)]
  unfold locate
  rw [hlast]
  show (t.enter [] [".", "data"] >>= _) = _
  rw [hstart]
  cases t.enter [] ["data"] with
  | error cause => rfl
  | ok here =>
    have hdot := rowFile_ne table (show ".".toList.length < 5 by decide)
    have hdots := rowFile_ne table (show "..".toList.length < 5 by decide)
    have hslash := rowFile_ne table (show "".toList.length < 5 by decide)
    show (if rowFile table = "." then _ else _) = _
    rw [if_neg hdot, if_neg hdots]
    simp [hslash, Except.map, pure, Except.pure]

theorem resolve_tablePath_of_directory (hdata : t.nodes.get? ["data"] = some .directory) :
    t.resolve (({} : Config).tablePath table) = .ok (.entry ["data"] (rowFile table) false) := by
  have henter : t.enter [] ["data"] = .ok ["data"] := by
    have hlook : t.look [] "data" = .ok (some .directory) := congrArg Except.ok hdata
    rw [enter, if_neg (by decide), if_neg (by decide), hlook]
    rfl
  rw [resolve_tablePath h, henter]
  rfl

theorem resolve_tablePath_of_none (hdata : t.nodes.get? ["data"] = none) :
    t.resolve (({} : Config).tablePath table) = .error .notFound := by
  have henter : t.enter [] ["data"] = .error .notFound := by
    have hlook : t.look [] "data" = .ok none := congrArg Except.ok hdata
    rw [enter, if_neg (by decide), if_neg (by decide), hlook]
  rw [resolve_tablePath h, henter]
  rfl

theorem readFile_tablePath_of_none (hdata : t.nodes.get? ["data"] = none) :
    t.readFile (({} : Config).tablePath table) = .error .notFound := by
  unfold readFile
  rw [resolve_tablePath_of_none h hdata]
  rfl

theorem removeFile_tablePath_of_none (hdata : t.nodes.get? ["data"] = none) :
    t.removeFile (({} : Config).tablePath table) = .error .notFound := by
  unfold removeFile
  rw [resolve_tablePath_of_none h hdata]
  rfl

theorem look_rowFile :
    t.look ["data"] (rowFile table) = .ok (t.nodes.get? ["data", rowFile table]) := by
  rw [look, if_neg (Nat.not_lt.mpr h.short)]
  rfl

variable (hdata : t.nodes.get? ["data"] = some .directory)
include hdata

theorem readFile_tablePath : t.readFile (({} : Config).tablePath table) =
    match t.nodes.get? ["data", rowFile table] with
    | none => .error .notFound
    | some .directory => .error .isDirectory
    | some (.file content) => .ok content := by
  unfold readFile
  rw [resolve_tablePath_of_directory h hdata]
  show (t.look ["data"] (rowFile table) >>= _) = _
  rw [look_rowFile h]
  rcases t.nodes.get? ["data", rowFile table] with _ | _ | _ <;> rfl

theorem writeFile_tablePath (content : ByteArray) :
    t.writeFile (({} : Config).tablePath table) content =
      match t.nodes.get? ["data", rowFile table] with
      | some .directory => .error .isDirectory
      | _ => .ok ⟨t.nodes.insert ["data", rowFile table] (.file content)⟩ := by
  unfold writeFile
  rw [resolve_tablePath_of_directory h hdata]
  show (t.look ["data"] (rowFile table) >>= _) = _
  rw [look_rowFile h]
  rcases t.nodes.get? ["data", rowFile table] with _ | _ | _ <;> rfl

theorem removeFile_tablePath : t.removeFile (({} : Config).tablePath table) =
    match t.nodes.get? ["data", rowFile table] with
    | none => .error .notFound
    | some .directory => .error .isDirectory
    | some (.file _) => .ok ⟨t.nodes.erase ["data", rowFile table]⟩ := by
  unfold removeFile
  rw [resolve_tablePath_of_directory h hdata]
  show (t.look ["data"] (rowFile table) >>= _) = _
  rw [look_rowFile h]
  rcases t.nodes.get? ["data", rowFile table] with _ | _ | _ <;> rfl

end

end FileTree
end TableStore
