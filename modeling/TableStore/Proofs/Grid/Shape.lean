import Mathlib.Algebra.GroupWithZero.Nat
import Mathlib.Data.List.Forall2
import Mathlib.Data.List.Induction
import Mathlib.Order.Bounds.Basic
import TableStore.Grid
import TableStore.Proofs.Decimal
import TableStore.Proofs.Text.Quoted

/-
The shape of a table in plain text.

A column is as wide as the longest text in it (`isGreatest_widths`), so every text fits, and padded it
takes up the width of the column exactly.  The lines therefore have one length, and stand one above the
other bar by bar (`meets_line`).  As no cell holds a line break, they are the lines of the text
(`render_rectangular`).

A table has no text exactly if one of its texts is longer than the formatter fills up
(`render?_eq_none_iff`).
-/
namespace TableStore
namespace Grid

variable {columns : List String} {cells : List (List String)} {rows : List (List Value)}
  {ws : List Nat} {texts : List String}

/-! ## Widths -/

theorem getElem?_widen (ws : List Nat) (texts : List String) (i : Nat) :
    (widen ws texts)[i]? = ws[i]?.map fun w => max w (texts[i]?.elim 0 String.length) := by
  induction ws generalizing texts i with
  | nil => cases texts <;> rfl
  | cons w ws ih =>
    cases texts with
    | nil => simp [widen]
    | cons text texts =>
      cases i with
      | zero => simp [widen]
      | succ i => simpa [widen] using ih texts i

theorem length_widen (ws : List Nat) (texts : List String) :
    (widen ws texts).length = ws.length := by
  induction ws generalizing texts with
  | nil => cases texts <;> rfl
  | cons w ws ih =>
    cases texts with
    | nil => rfl
    | cons text texts => simp [widen, ih]

theorem widths_concat (columns : List String) (cells : List (List String)) (row : List String) :
    widths columns (cells ++ [row]) = widen (widths columns cells) row := by
  rw [widths, List.foldl_append]
  rfl

theorem length_widths (columns : List String) (cells : List (List String)) :
    (widths columns cells).length = columns.length := by
  induction cells using List.reverseRecOn with
  | nil => exact List.length_map ..
  | append_singleton cells row ih => rw [widths_concat, length_widen, ih]

/-- The lengths of the texts of a column, its name among them. -/
def columnLengths (columns : List String) (cells : List (List String)) (i : Nat) : Set Nat :=
  {n | ∃ row ∈ columns :: cells, ∃ text, row[i]? = some text ∧ n = text.length}

theorem columnLengths_concat_of_none {row : List String} {i : Nat} (h : row[i]? = none) :
    columnLengths columns (cells ++ [row]) i = columnLengths columns cells i := by
  ext n
  simp only [columnLengths, Set.mem_ofPred_eq, ← List.cons_append, List.mem_append,
    List.mem_singleton]
  constructor
  · rintro ⟨other, hother | rfl, text, htext, hn⟩
    · exact ⟨other, hother, text, htext, hn⟩
    · rw [h] at htext
      cases htext
  · rintro ⟨other, hother, text, htext, hn⟩
    exact ⟨other, .inl hother, text, htext, hn⟩

theorem columnLengths_concat_of_some {row : List String} {i : Nat} {text : String}
    (h : row[i]? = some text) :
    columnLengths columns (cells ++ [row]) i = insert text.length (columnLengths columns cells i) := by
  ext n
  simp only [columnLengths, Set.mem_ofPred_eq, Set.mem_insert_iff, ← List.cons_append,
    List.mem_append, List.mem_singleton]
  constructor
  · rintro ⟨other, hother | rfl, text', htext, hn⟩
    · exact .inr ⟨other, hother, text', htext, hn⟩
    · rw [h] at htext
      cases htext
      exact .inl hn
  · rintro (rfl | ⟨other, hother, text', htext, hn⟩)
    · exact ⟨row, .inr rfl, text, h, rfl⟩
    · exact ⟨other, .inl hother, text', htext, hn⟩

/-- A column is as wide as its longest text. -/
theorem isGreatest_widths {i w : Nat} (hw : (widths columns cells)[i]? = some w) :
    IsGreatest (columnLengths columns cells i) w := by
  induction cells using List.reverseRecOn generalizing w with
  | nil =>
    rw [widths, List.foldl_nil, List.getElem?_map, Option.map_eq_some_iff] at hw
    obtain ⟨name, hname, rfl⟩ := hw
    refine ⟨⟨columns, List.mem_cons_self, name, hname, rfl⟩, ?_⟩
    rintro n ⟨row, hrow, text, htext, rfl⟩
    rw [List.mem_singleton.mp hrow, hname] at htext
    cases htext
    exact Nat.le_refl _
  | append_singleton cells row ih =>
    rw [widths_concat, getElem?_widen, Option.map_eq_some_iff] at hw
    obtain ⟨before, hbefore, rfl⟩ := hw
    have hgreatest := ih hbefore
    cases h : row[i]? with
    | none =>
      rw [columnLengths_concat_of_none h, Option.elim_none, Nat.max_zero]
      exact hgreatest
    | some text =>
      rw [columnLengths_concat_of_some h, Option.elim_some, Nat.max_comm]
      exact hgreatest.insert text.length

/-- Some column is wider than `n` exactly if some text in a column is longer. -/
theorem exists_widths_gt_iff {n : Nat} :
    (∃ w ∈ widths columns cells, n < w) ↔
      ∃ row ∈ columns :: cells, ∃ text ∈ row.take columns.length, n < text.length := by
  constructor
  · rintro ⟨w, hw, hn⟩
    obtain ⟨i, hi⟩ := List.mem_iff_getElem?.mp hw
    obtain ⟨row, hrow, text, htext, rfl⟩ := (isGreatest_widths hi).1
    have hcolumn : i < columns.length := by
      rw [← length_widths columns cells]
      exact (List.getElem?_eq_some_iff.mp hi).1
    refine ⟨row, hrow, text, List.mem_iff_getElem?.mpr ⟨i, ?_⟩, hn⟩
    rw [List.getElem?_take_of_lt hcolumn, htext]
  · rintro ⟨row, hrow, text, htext, hn⟩
    obtain ⟨i, hi⟩ := List.mem_iff_getElem?.mp htext
    rw [List.getElem?_take, Option.ite_none_right_eq_some] at hi
    obtain ⟨hcolumn, hi⟩ := hi
    rw [← length_widths columns cells] at hcolumn
    have hwidest := (isGreatest_widths (List.getElem?_eq_getElem hcolumn)).2
    exact ⟨_, List.getElem_mem hcolumn, hn.trans_le (hwidest ⟨row, hrow, text, hi, rfl⟩)⟩

/-- Texts that are not wider than their columns. -/
def Fits (ws : List Nat) (texts : List String) : Prop :=
  List.Forall₂ (fun w text => text.length ≤ w) ws texts

theorem fits_widths {row : List String} (hrow : row ∈ columns :: cells)
    (hlength : row.length = columns.length) : Fits (widths columns cells) row := by
  refine List.forall₂_of_length_eq_of_get (by rw [length_widths, hlength]) fun i hi hi' => ?_
  exact (isGreatest_widths (List.getElem?_eq_getElem hi)).2
    ⟨row, hrow, row[i], List.getElem?_eq_getElem hi', rfl⟩

/-! ## Lines -/

theorem border_cons (w : Nat) (ws : List Nat) :
    (border (w :: ws)).toList = '+' :: (List.replicate (w + 2) '-' ++ (border ws).toList) := by
  simp [border]

theorem line_cons (w : Nat) (ws : List Nat) (text : String) (texts : List String) :
    (line (w :: ws) (text :: texts)).toList =
      '|' :: ((' ' :: pad w text ++ [' ']) ++ (line ws texts).toList) := by
  simp [line]

theorem length_pad {w : Nat} {text : String} (h : text.length ≤ w) : (pad w text).length = w := by
  rw [pad, List.length_append, String.length_toList, List.length_replicate]
  omega

theorem length_border (ws : List Nat) :
    (border ws).toList.length = 1 + (ws.map (· + 3)).sum := by
  induction ws with
  | nil => rfl
  | cons w ws ih =>
    rw [border_cons, List.length_cons, List.length_append, List.length_replicate, ih, List.map_cons,
      List.sum_cons]
    omega

/-- The plus signs of a border stand at the edges of the columns. -/
theorem count_border (ws : List Nat) : (border ws).toList.count '+' = ws.length + 1 := by
  induction ws with
  | nil => rfl
  | cons w ws ih =>
    rw [border_cons, List.count_cons_self, List.count_append, ih, List.count_replicate]
    simp

/-- Below a plus sign stands a bar. -/
def Meets (above below : Char) : Prop := above = '+' → below = '|'

theorem meets_replicate {n : Nat} {cs : List Char} (h : cs.length = n) :
    List.Forall₂ Meets (List.replicate n '-') cs := by
  subst h
  induction cs with
  | nil => exact .nil
  | cons c cs ih => exact .cons (fun hplus => absurd hplus (by decide)) ih

theorem meets_line (h : Fits ws texts) :
    List.Forall₂ Meets (border ws).toList (line ws texts).toList := by
  induction h with
  | nil => exact .cons (fun _ => rfl) .nil
  | @cons w text ws texts hfits _ ih =>
    rw [border_cons, line_cons]
    have hdashes : List.Forall₂ Meets (List.replicate (w + 2) '-') (' ' :: pad w text ++ [' ']) :=
      meets_replicate (by simp [length_pad hfits])
    exact .cons (fun _ => rfl) (List.rel_append hdashes ih)

theorem bar_of_meets {above below : List Char} (h : List.Forall₂ Meets above below) {i : Nat}
    (hplus : above[i]? = some '+') : below[i]? = some '|' := by
  obtain ⟨hi, hchar⟩ := List.getElem?_eq_some_iff.mp hplus
  have hi' : i < below.length := h.length_eq ▸ hi
  rw [List.getElem?_eq_getElem hi']
  exact congrArg some (h.get hi hi' hchar)

theorem newline_not_mem_border (ws : List Nat) : '\n' ∉ (border ws).toList := by
  induction ws with
  | nil => decide
  | cons w ws ih =>
    rw [border_cons]
    simp [ih]

theorem newline_not_mem_line (h : Fits ws texts) (htexts : ∀ text ∈ texts, '\n' ∉ text.toList) :
    '\n' ∉ (line ws texts).toList := by
  induction h with
  | nil => decide
  | @cons w text ws texts _ _ ih =>
    obtain ⟨htext, hrest⟩ := List.forall_mem_cons.mp htexts
    rw [line_cons]
    simp [pad, htext, ih hrest]

/-! ## Tables -/

theorem newline_not_mem_cell (v : Value) : '\n' ∉ (cell v).toList := by
  cases v with
  | bool b => cases b <;> decide
  | int n =>
    intro h
    exact absurd (Decimal.mem_write_of_digits h) (by decide)
  | str s =>
    show '\n' ∉ (String.ofList (Text.quotedChars s.toList)).toList
    rw [String.toList_ofList]
    exact Text.newline_not_mem_quotedChars s.toList

/-- The lines of a table, from top to bottom. -/
def lines (columns : List String) (cells : List (List String)) : List String :=
  let ws := widths columns cells
  border ws :: line ws columns :: border ws ::
    if cells.isEmpty then [] else cells.map (line ws) ++ [border ws]

theorem render_eq (columns : List String) (rows : List (List Value)) :
    render columns rows = String.intercalate "\n" (lines columns (rows.map (·.map cell))) := rfl

theorem mem_lines {l : String} (h : l ∈ lines columns cells) :
    l = border (widths columns cells) ∨
      ∃ row ∈ columns :: cells, l = line (widths columns cells) row := by
  simp only [lines, List.mem_cons] at h
  rcases h with rfl | rfl | rfl | h
  · exact .inl rfl
  · exact .inr ⟨columns, List.mem_cons_self, rfl⟩
  · exact .inl rfl
  · split at h
    · cases h
    · rw [List.mem_append, List.mem_map, List.mem_singleton] at h
      rcases h with ⟨row, hrow, rfl⟩ | rfl
      · exact .inr ⟨row, List.mem_cons_of_mem _ hrow, rfl⟩
      · exact .inl rfl

/-- A column name or the text of a cell in a column is longer than the formatter fills up. -/
def Overwide (columns : List String) (rows : List (List Value)) : Prop :=
  (∃ name ∈ columns, widthLimit < name.length) ∨
    ∃ row ∈ rows, ∃ v ∈ row.take columns.length, widthLimit < (cell v).length

theorem render?_eq_none_iff : render? columns rows = none ↔ Overwide columns rows := by
  have hnone : render? columns rows = none ↔
      ∃ w ∈ widths columns (rows.map (·.map cell)), widthLimit < w := by
    simp [render?]
  rw [hnone, exists_widths_gt_iff, List.exists_mem_cons_iff, List.take_length]
  simp only [Overwide, List.mem_map, exists_exists_and_eq_and, ← List.map_take]

/-- Names and cells fit into the columns of a table whose rows are complete. -/
theorem fits_of_mem (hrows : ∀ row ∈ rows, row.length = columns.length) {texts : List String}
    (h : texts ∈ columns :: rows.map (·.map cell)) :
    Fits (widths columns (rows.map (·.map cell))) texts := by
  refine fits_widths h ?_
  rcases List.mem_cons.mp h with rfl | h
  · rfl
  · obtain ⟨row, hrow, rfl⟩ := List.mem_map.mp h
    rw [List.length_map, hrows row hrow]

/-- The lines of a table are those of its text if no name has a line break. -/
theorem splitOn_render (hcolumns : ∀ name ∈ columns, '\n' ∉ name.toList)
    (hrows : ∀ row ∈ rows, row.length = columns.length) :
    (render columns rows).toList.splitOn '\n' =
      (lines columns (rows.map (·.map cell))).map String.toList := by
  have hbreak : "\n".toList = ['\n'] := rfl
  have htexts : ∀ texts ∈ columns :: rows.map (·.map cell), ∀ text ∈ texts, '\n' ∉ text.toList := by
    refine List.forall_mem_cons.mpr ⟨hcolumns, fun texts h => ?_⟩
    obtain ⟨row, -, rfl⟩ := List.mem_map.mp h
    exact List.forall_mem_map.mpr fun v _ => newline_not_mem_cell v
  rw [render_eq, String.toList_intercalate, hbreak]
  refine List.splitOn_intercalate '\n' (List.forall_mem_map.mpr fun l hl => ?_) (List.cons_ne_nil _ _)
  rcases mem_lines hl with rfl | ⟨texts, hmem, rfl⟩
  · exact newline_not_mem_border _
  · exact newline_not_mem_line (fits_of_mem hrows hmem) (htexts texts hmem)

/-- All lines of a table have one length, which is that of its columns, each as wide as its longest text
with three characters beside it.  A border stands above and below the names, and below the last row if there
are rows, and wherever it has a plus sign, every other line has a bar. -/
theorem render_rectangular (hcolumns : ∀ name ∈ columns, '\n' ∉ name.toList)
    (hrows : ∀ row ∈ rows, row.length = columns.length) :
    let cells := rows.map (·.map cell)
    let ws := widths columns cells
    let shown := (render columns rows).toList.splitOn '\n'
    (ws.length = columns.length ∧
        ∀ i w, ws[i]? = some w → IsGreatest (columnLengths columns cells i) w) ∧
      (∀ l ∈ shown, l.length = 1 + (ws.map (· + 3)).sum) ∧
      shown.length = (if rows.isEmpty then 3 else 4 + rows.length) ∧
      ∃ (frame header : List Char) (body : List (List Char)),
        shown = frame :: header :: frame :: (if rows.isEmpty then [] else body ++ [frame]) ∧
          body.length = rows.length ∧ frame.count '+' = columns.length + 1 ∧
          ∀ i : Nat, frame[i]? = some '+' → ∀ l ∈ header :: body, l[i]? = some '|' := by
  intro cells ws shown
  let frame := (border ws).toList
  let body := cells.map fun texts => (line ws texts).toList
  have hlines : shown = (lines columns cells).map String.toList := splitOn_render hcolumns hrows
  have hshown : shown = frame :: (line ws columns).toList :: frame ::
      if rows.isEmpty then [] else body ++ [frame] := by
    rw [hlines, lines, List.isEmpty_map]
    cases rows <;> simp [frame, body, ws, Function.comp_def]
  have hbody : body.length = rows.length := by simp [body, cells]
  have hmeets : ∀ texts ∈ columns :: cells, List.Forall₂ Meets frame (line ws texts).toList :=
    fun texts h => meets_line (fits_of_mem hrows h)
  refine ⟨⟨length_widths columns cells, fun i w hw => isGreatest_widths hw⟩, ?_, ?_,
    frame, (line ws columns).toList, body, hshown, hbody, ?_, fun i hi l hl => ?_⟩
  · rw [hlines, List.forall_mem_map]
    intro l hl
    rcases mem_lines hl with rfl | ⟨texts, htexts, rfl⟩
    · exact length_border ws
    · exact (hmeets texts htexts).length_eq ▸ length_border ws
  · rw [hshown]
    split
    · rfl
    · simp only [List.length_cons, List.length_append, hbody, List.length_nil]
      omega
  · rw [count_border, length_widths]
  · obtain ⟨texts, htexts, rfl⟩ : ∃ texts ∈ columns :: cells, (line ws texts).toList = l := by
      rcases List.mem_cons.mp hl with rfl | hl
      · exact ⟨columns, List.mem_cons_self, rfl⟩
      · obtain ⟨texts, htexts, rfl⟩ := List.mem_map.mp hl
        exact ⟨texts, List.mem_cons_of_mem _ htexts, rfl⟩
    exact bar_of_meets (hmeets texts htexts) hi

/-- A text with a bar and a line break takes up its line like any other. -/
theorem render_rectangular_with_break :
    let columns := ["ID", "näme"]
    let rows : List (List Value) := [[.int 1, .str "a|b\n"], [.int 10, .str "é"]]
    let shown := (render columns rows).toList.splitOn '\n'
    (∀ name ∈ columns, '\n' ∉ name.toList) ∧ (∀ row ∈ rows, row.length = columns.length) ∧
      widths columns (rows.map (·.map cell)) = [2, 7] ∧ (∀ l ∈ shown, l.length = 16) ∧
      shown.length = 6 := by
  intro columns rows shown
  have hcolumns : ∀ name ∈ columns, '\n' ∉ name.toList := by decide
  have hrows : ∀ row ∈ rows, row.length = columns.length := by decide
  have hwidths : widths columns (rows.map (·.map cell)) = [2, 7] := by decide
  obtain ⟨-, hlength, hcount, -⟩ := render_rectangular hcolumns hrows
  rw [hwidths] at hlength
  exact ⟨hcolumns, hrows, hwidths, hlength, hcount⟩

end Grid
end TableStore
