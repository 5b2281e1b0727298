import TableStore.Proofs.Files.Directories

/-
Where the files of the tables are.

Whatever the configuration, the path of a table's file has the same parts in front of the file's name
for all tables (`Config.parts_tablePath`), if their names have no slash.  So the files of two tables
are in one directory under two names, and only the registry's file can be one of them.
-/
namespace TableStore

open Stateful

namespace Path

theorem exists_split_join (base : String) :
    ∃ before, ∀ part : String, '/' ∉ part.toList →
      split (join base part).toList = before ++ [part.toList] := by
  have hrelative {part : String} (h : '/' ∉ part.toList) : isAbsolute part = false := by
    rw [isAbsolute, decide_eq_false_iff_not]
    exact fun hhead => h (List.mem_of_head? hhead)
  by_cases hbase : base = ""
  · refine ⟨[], fun part h => ?_⟩
    rw [join, if_pos (by simp [hbase]), split_of_not_mem h]
    rfl
  by_cases hslash : base.toList.getLast? = some '/'
  · obtain ⟨front, hfront⟩ := List.getLast?_eq_some_iff.mp hslash
    refine ⟨split front, fun part h => ?_⟩
    rw [join, if_neg (by simp [hbase, hrelative h]), if_pos hslash, String.toList_append, hfront,
      List.append_assoc, List.singleton_append, split_append, split_of_not_mem h]
  · refine ⟨split base.toList, fun part h => ?_⟩
    rw [join, if_neg (by simp [hbase, hrelative h]), if_neg hslash, String.toList_append,
      String.toList_append, List.append_assoc]
    show split (base.toList ++ '/' :: part.toList) = _
    rw [split_append, split_of_not_mem h]

end Path

namespace Config

variable (c : Config)

/-- The parts of every table's path in front of the name of its file. -/
def rowParts : List String := (Path.parts (c.tablePath "")).dropLast

variable {table : String} (h : '/' ∉ table.toList)
include h

theorem parts_tablePath : Path.parts (c.tablePath table) = c.rowParts ++ [rowFile table] := by
  obtain ⟨before, hsplit⟩ := Path.exists_split_join c.rowPath
  have hparts {table : String} (h : '/' ∉ table.toList) :
      Path.parts (c.tablePath table) = before.map String.ofList ++ [rowFile table] := by
    show (Path.split (Path.join c.rowPath (rowFile table)).toList).map String.ofList = _
    rw [hsplit _ (not_mem_rowFile h)]
    simp
  rw [rowParts, hparts (show '/' ∉ "".toList by decide), List.dropLast_concat, hparts h]

theorem place_tablePath :
    Path.place (c.tablePath table) = Path.walk [] c.rowParts ++ [rowFile table] := by
  rw [Path.place, c.parts_tablePath h, Path.walk_append, Path.walk,
    if_neg (not_or.mpr ⟨rowFile_ne table (by decide), rowFile_ne table (by decide)⟩),
    if_neg (rowFile_ne table (by decide)), Path.walk]

theorem resolve_rowFile (t : FileTree) :
    t.resolve (c.tablePath table) =
      match Path.refused? (c.tablePath table) with
      | some cause => .error cause
      | none => (t.enter [] c.rowParts).map fun here => .entry here (rowFile table) false := by
  have hlast : (fun here : List String =>
      if rowFile table = ".." then FileTree.Target.directory here.dropLast
      else .entry here (rowFile table) false) = fun here => .entry here (rowFile table) false :=
    funext fun here => if_neg (rowFile_ne table (by decide : "..".toList.length < 5))
  rw [FileTree.resolve_of_parts (c.parts_tablePath h) (rowFile_ne table (by decide))
    (rowFile_ne table (by decide))]
  cases Path.refused? (c.tablePath table) with
  | some cause => rfl
  | none => exact congrArg (fun lead => (t.enter [] c.rowParts).map lead) hlast

end Config
end TableStore
