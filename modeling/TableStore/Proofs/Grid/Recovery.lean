import TableStore.Proofs.Grid.Shape
import TableStore.Proofs.Literal

/-
A table in plain text determines its rows.

The first line is a border, and from it the width of every column can be read off (`border_inj`).  So it is
known where each cell begins and ends, whatever stands in it, and a cell without the spaces behind it is
the text of one value only (`cell_inj`).
-/
namespace TableStore
namespace Grid

variable {columns : List String} {rows rows' : List (List Value)} {ws ws' : List Nat}
  {texts texts' : List String}

/-! ## Cells -/

/-- A value as it would be read in a command from its cell: a text comes with its escapes. -/
def escaped : Value → Value
  | .str s => .str (String.ofList (s.toList.flatMap Text.escapeChar))
  | v => v

theorem escaped_inj {v v' : Value} (h : escaped v = escaped v') : v = v' := by
  cases v with
  | bool b =>
    cases v' with
    | bool b' => exact h
    | int n' => cases h
    | str s' => cases h
  | int n =>
    cases v' with
    | bool b' => cases h
    | int n' => exact h
    | str s' => cases h
  | str s =>
    cases v' with
    | bool b => cases h
    | int n => cases h
    | str s' =>
      have hchars := congrArg String.toList (Value.str.inj h)
      rw [String.toList_ofList, String.toList_ofList] at hchars
      rw [String.toList_inj.mp (Text.flatMap_escapeChar_inj hchars)]

/-- Cells are literals. -/
theorem read_cell (v : Value) : Literal.read (cell v) = .ok (escaped v) := by
  cases v with
  | bool b => exact Literal.read_eq_bool_iff.mpr (by cases b <;> rfl)
  | int n => exact Literal.read_eq_int_iff.mpr (Decimal.numeral_write n)
  | str s =>
    refine Literal.read_eq_str_iff.mpr ⟨'"', by decide, ?_⟩
    simp [cell, Text.quoted, Text.quotedChars]

theorem cell_inj {v v' : Value} (h : cell v = cell v') : v = v' := by
  have hread := read_cell v
  rw [h, read_cell v'] at hread
  exact (escaped_inj (Except.ok.inj hread)).symm

/-- No cell ends in a space. -/
theorem getLast?_cell (v : Value) : (cell v).toList.getLast? ≠ some ' ' := by
  cases v with
  | bool b => cases b <;> decide
  | int n =>
    intro h
    exact absurd (Decimal.mem_write_of_digits (List.mem_of_getLast? h)) (by decide)
  | str s =>
    show (String.ofList ('"' :: s.toList.flatMap Text.escapeChar ++ ['"'])).toList.getLast? ≠ some ' '
    rw [String.toList_ofList, List.getLast?_concat]
    decide

/-! ## Lines -/

theorem border_eq_cons (ws : List Nat) : ∃ rest, (border ws).toList = '+' :: rest := by
  cases ws with
  | nil => exact ⟨[], rfl⟩
  | cons w ws => exact ⟨_, border_cons w ws⟩

theorem border_cons_ne (w : Nat) (ws : List Nat) :
    (border (w :: ws)).toList ≠ (border []).toList := by
  intro h
  have hlength := congrArg List.length h
  rw [length_border, length_border, List.map_cons, List.sum_cons, List.map_nil, List.sum_nil] at hlength
  omega

/-- The width of a column is the length of its run of dashes. -/
theorem border_inj (h : (border ws).toList = (border ws').toList) : ws = ws' := by
  induction ws generalizing ws' with
  | nil =>
    cases ws' with
    | nil => rfl
    | cons w' ws' => exact absurd h.symm (border_cons_ne w' ws')
  | cons w ws ih =>
    cases ws' with
    | nil => exact absurd h (border_cons_ne w ws)
    | cons w' ws' =>
      rw [border_cons, border_cons] at h
      obtain ⟨rest, hrest⟩ := border_eq_cons ws
      obtain ⟨rest', hrest'⟩ := border_eq_cons ws'
      have hplus : ∀ n : Nat, '+' ∉ List.replicate n '-' := fun n => by simp
      have hruns := (List.cons.inj h).2
      have hdashes : List.replicate (w + 2) '-' = List.replicate (w' + 2) '-' := by
        rw [hrest, hrest'] at hruns
        exact front_inj (hplus _) (hplus _) hruns
      have hw : w = w' := by simpa using congrArg List.length hdashes
      subst hw
      rw [ih (List.append_cancel_left hruns)]

/-- Spaces behind a text that does not end in one can be told from it. -/
theorem eq_of_append_replicate {cs ds : List Char} {m n : Nat} (hcs : cs.getLast? ≠ some ' ')
    (hds : ds.getLast? ≠ some ' ')
    (h : cs ++ List.replicate m ' ' = ds ++ List.replicate n ' ') : cs = ds := by
  induction m generalizing n with
  | zero =>
    cases n with
    | zero => simpa using h
    | succ n =>
      rw [List.replicate_zero, List.append_nil, List.replicate_succ', ← List.append_assoc] at h
      rw [h, List.getLast?_concat] at hcs
      exact absurd rfl hcs
  | succ m ih =>
    rw [List.replicate_succ', ← List.append_assoc] at h
    cases n with
    | zero =>
      rw [List.replicate_zero, List.append_nil] at h
      rw [← h, List.getLast?_concat] at hds
      exact absurd rfl hds
    | succ n =>
      rw [List.replicate_succ', ← List.append_assoc] at h
      exact ih (List.append_inj_left' h rfl)

/-- Texts that can be told from the spaces behind them. -/
def Solid (texts : List String) : Prop :=
  ∀ text ∈ texts, text.toList.getLast? ≠ some ' '

theorem line_inj (hfits : Fits ws texts) (hfits' : Fits ws texts') (hsolid : Solid texts)
    (hsolid' : Solid texts') (h : (line ws texts).toList = (line ws texts').toList) :
    texts = texts' := by
  induction hfits generalizing texts' with
  | nil =>
    cases hfits'
    rfl
  | @cons w text ws texts hw _ ih =>
    cases hfits' with
    | @cons _ text' _ texts' hw' hrest' =>
      obtain ⟨htext, hsolid⟩ := List.forall_mem_cons.mp hsolid
      obtain ⟨htext', hsolid'⟩ := List.forall_mem_cons.mp hsolid'
      rw [line_cons, line_cons] at h
      have hlength : (' ' :: pad w text ++ [' ']).length = (' ' :: pad w text' ++ [' ']).length := by
        simp [length_pad hw, length_pad hw']
      obtain ⟨hfield, hrest⟩ := List.append_inj (List.cons.inj h).2 hlength
      have hpad : pad w text = pad w text' := List.append_cancel_right (List.cons.inj hfield).2
      rw [String.toList_inj.mp (eq_of_append_replicate htext htext' hpad),
        ih hrest' hsolid hsolid' hrest]

/-! ## Tables -/

theorem intercalate_cons {α : Type} (a : α) (first : List α) (rest : List (List α)) :
    [a].intercalate (first :: rest) = first ++ rest.flatMap (a :: ·) := by
  induction rest generalizing first with
  | nil => simp
  | cons next rest ih => rw [List.intercalate_cons_cons, ih, List.flatMap_cons]; simp

/-- What stands below the names and their borders. -/
def below (ws : List Nat) (cells : List (List String)) : List Char :=
  (if cells.isEmpty then [] else cells.map (line ws) ++ [border ws]).flatMap ('\n' :: ·.toList)

theorem render_toList (columns : List String) (rows : List (List Value)) :
    let cells := rows.map (·.map cell)
    let ws := widths columns cells
    (render columns rows).toList =
      (border ws).toList ++ '\n' :: ((line ws columns).toList ++
        '\n' :: ((border ws).toList ++ below ws cells)) := by
  intro cells ws
  have hbreak : "\n".toList = ['\n'] := rfl
  rw [render_eq, String.toList_intercalate, hbreak, lines, List.map_cons, intercalate_cons,
    List.flatMap_map, List.flatMap_cons, List.flatMap_cons]
  rfl

/-- Rows of a table with these widths have lines of one length, so none begins another. -/
theorem prefixFree_line (ws : List Nat) :
    PrefixFree (fun texts => Fits ws texts ∧ Solid texts)
      (fun texts => '\n' :: (line ws texts).toList) where
  ne_nil _ _ := List.cons_ne_nil _ _
  eq texts texts' h h' s t heq := by
    have hlength : (line ws texts).toList.length = (line ws texts').toList.length :=
      (meets_line h.1).length_eq.symm.trans (meets_line h'.1).length_eq
    have hline := (List.append_inj (List.cons.inj heq).2 hlength).1
    exact line_inj h.1 h'.1 h.2 h'.2 hline

theorem below_nil (ws : List Nat) : below ws [] = [] := rfl

theorem below_of_ne_nil {cells : List (List String)} (h : cells ≠ []) :
    below ws cells =
      (cells.flatMap fun texts => '\n' :: (line ws texts).toList) ++ '\n' :: (border ws).toList := by
  rw [below, if_neg (by simpa using h), List.flatMap_append, List.flatMap_map]
  simp

theorem below_ne_nil {cells : List (List String)} (h : cells ≠ []) : below ws cells ≠ [] := by
  rw [below_of_ne_nil h]
  exact List.append_ne_nil_of_right_ne_nil _ (List.cons_ne_nil _ _)

theorem below_inj {cells cells' : List (List String)}
    (hcells : ∀ texts ∈ cells, Fits ws texts ∧ Solid texts)
    (hcells' : ∀ texts ∈ cells', Fits ws texts ∧ Solid texts)
    (h : below ws cells = below ws cells') : cells = cells' := by
  by_cases hnil : cells = []
  · by_cases hnil' : cells' = []
    · rw [hnil, hnil']
    · rw [hnil, below_nil] at h
      exact absurd h.symm (below_ne_nil hnil')
  · by_cases hnil' : cells' = []
    · rw [hnil', below_nil] at h
      exact absurd h (below_ne_nil hnil)
    · rw [below_of_ne_nil hnil, below_of_ne_nil hnil'] at h
      exact (prefixFree_line ws).flatMap_inj hcells hcells' (List.append_cancel_right h)

/-- The cells of complete rows fit their columns and can be told from the spaces behind them. -/
theorem fits_solid_of_mem (hrows : ∀ row ∈ rows, row.length = columns.length) :
    ∀ texts ∈ rows.map (·.map cell),
      Fits (widths columns (rows.map (·.map cell))) texts ∧ Solid texts := by
  intro texts htexts
  refine ⟨fits_of_mem hrows (List.mem_cons_of_mem _ htexts), ?_⟩
  obtain ⟨row, -, rfl⟩ := List.mem_map.mp htexts
  exact List.forall_mem_map.mpr fun v _ => getLast?_cell v

theorem cells_inj (h : rows.map (·.map cell) = rows'.map (·.map cell)) : rows = rows' :=
  have hcell : Function.Injective cell := fun _ _ => cell_inj
  List.map_injective_iff.mpr (List.map_injective_iff.mpr hcell) h

/-- A printed table determines its rows: how many there are, their order, and every value with its
type. -/
theorem render_inj (hrows : ∀ row ∈ rows, row.length = columns.length)
    (hrows' : ∀ row ∈ rows', row.length = columns.length) :
    render columns rows = render columns rows' ↔ rows = rows' := by
  refine ⟨fun h => ?_, congrArg (render columns)⟩
  have hchars := congrArg String.toList h
  rw [render_toList, render_toList] at hchars
  have hwidths : widths columns (rows.map (·.map cell)) = widths columns (rows'.map (·.map cell)) :=
    border_inj (front_inj (newline_not_mem_border _) (newline_not_mem_border _) hchars)
  have hcells' := fits_solid_of_mem hrows'
  rw [← hwidths] at hchars hcells'
  -- The widths agree, and with them everything above the rows.
  have hbelow : below (widths columns (rows.map (·.map cell))) (rows.map (·.map cell)) =
      below (widths columns (rows.map (·.map cell))) (rows'.map (·.map cell)) := by
    simpa using hchars
  exact cells_inj (below_inj (fits_solid_of_mem hrows) hcells' hbelow)

/-- Rows that differ in a space, in a type and in a bar. -/
theorem render_inj_notes :
    let numbers : List (List Value) := [[.int 1, .str "1 "], [.int 2, .int 1]]
    let texts : List (List Value) := [[.int 1, .str "1"], [.int 2, .str "1 |"]]
    (∀ row ∈ numbers, row.length = ["ID", "note"].length) ∧
      (∀ row ∈ texts, row.length = ["ID", "note"].length) ∧
      render ["ID", "note"] numbers ≠ render ["ID", "note"] texts := by
  intro numbers texts
  have hnumbers : ∀ row ∈ numbers, row.length = ["ID", "note"].length := by decide
  have htexts : ∀ row ∈ texts, row.length = ["ID", "note"].length := by decide
  have hne : numbers ≠ texts := by decide
  exact ⟨hnumbers, htexts, fun h => hne ((render_inj hnumbers htexts).mp h)⟩

end Grid
end TableStore
