import TableStore.Proofs.Files.Places

/-
The texts of the directories around a path.

The directories around a path are texts that are cut off the path, from the longest to the shortest.
Each has its own parts, but for the path's start, which stays where it is: `Climbs` is what such a
list of texts satisfies, and `exists_enclosing` finds the list around a path that ends in a name.
-/
namespace TableStore
namespace Path

/-! ## Splitting and joining -/

theorem split_eq_splitOn (path : List Char) : split path = path.splitOn '/' := by
  induction path with
  | nil => rfl
  | cons c path ih =>
    rw [split, ih, List.splitOn, List.splitOn, List.splitOnP_cons_eq_if_modifyHead]
    by_cases hc : c = '/'
    · rw [if_pos hc, if_pos (by simp [hc])]
    · rw [if_neg hc, if_neg (by simp [hc])]
      cases h : List.splitOnP (· == '/') path with
      | nil => exact absurd h (List.splitOnP_ne_nil _ path)
      | cons part rest => rfl

theorem split_append (front back : List Char) :
    split (front ++ '/' :: back) = split front ++ split back := by
  simp only [split_eq_splitOn, List.splitOn_append_cons_self]

theorem intercalate_split (path : List Char) : ['/'].intercalate (split path) = path := by
  rw [split_eq_splitOn, List.intercalate_splitOn]

theorem split_intercalate {parts : List (List Char)} (hne : parts ≠ [])
    (hparts : ∀ part ∈ parts, '/' ∉ part) : split (['/'].intercalate parts) = parts := by
  rw [split_eq_splitOn, List.splitOn_intercalate '/' hparts hne]

theorem not_mem_of_mem_split {path part : List Char} (h : part ∈ split path) : '/' ∉ part := by
  induction path generalizing part with
  | nil =>
    rw [split, List.mem_singleton] at h
    simp [h]
  | cons c path ih =>
    rw [split] at h
    split at h
    · rcases List.mem_cons.mp h with rfl | h
      · simp
      · exact ih h
    · next hc =>
      split at h
      · rw [List.mem_singleton.mp h]
        simpa using Ne.symm hc
      · next first rest hpath =>
        rw [hpath] at ih
        rcases List.mem_cons.mp h with rfl | h
        · rw [List.mem_cons, not_or]
          exact ⟨Ne.symm hc, ih List.mem_cons_self⟩
        · exact ih (List.mem_cons_of_mem _ h)

theorem intercalate_concat {parts : List (List Char)} (hne : parts ≠ []) (part : List Char) :
    ['/'].intercalate (parts ++ [part]) = ['/'].intercalate parts ++ '/' :: part := by
  induction parts with
  | nil => exact absurd rfl hne
  | cons first rest ih =>
    cases rest with
    | nil => simp
    | cons second rest =>
      rw [List.cons_append, List.cons_append, List.intercalate_cons_cons,
        List.intercalate_cons_cons, ← List.cons_append, ih (by simp)]
      simp

theorem prefix_intercalate (parts : List (List Char)) (part : List Char) :
    ['/'].intercalate parts <+: ['/'].intercalate (parts ++ [part]) := by
  by_cases hne : parts = []
  · rw [hne]
    exact List.nil_prefix
  · rw [intercalate_concat hne]
    exact List.prefix_append _ _

/-! ## The parts behind a path's start -/

/-- What stands behind a path's start: behind a dot nothing or a slash. -/
inductive Starts : List Char → List (List Char) → Prop where
  | relative (parts : List (List Char)) : Starts [] parts
  | absolute (parts : List (List Char)) : Starts ['/'] parts
  | dotted {parts : List (List Char)} (h : ∀ first ∈ parts.head?, first = []) : Starts ['.'] parts

theorem Starts.before {start part : List Char} {parts : List (List Char)}
    (h : Starts start (parts ++ [part])) : Starts start parts := by
  cases h with
  | relative => exact .relative _
  | absolute => exact .absolute _
  | dotted h =>
    refine .dotted fun first hfirst => h first ?_
    cases parts with
    | nil => cases hfirst
    | cons p ps => exact hfirst

theorem starts_splitStart (path : List Char) :
    Starts (splitStart path).1 (split (splitStart path).2) ∧
      (splitStart path).1 ++ (splitStart path).2 = path := by
  unfold splitStart
  split
  · exact ⟨.absolute _, rfl⟩
  · exact ⟨.dotted (by decide), rfl⟩
  · next rest =>
    refine ⟨.dotted ?_, rfl⟩
    rw [split, if_pos rfl]
    rintro first ⟨⟩
    rfl
  · exact ⟨.relative _, rfl⟩

/-- The text of a path that starts so and has these parts. -/
def textOf (start : List Char) (parts : List (List Char)) : String :=
  String.ofList (start ++ ['/'].intercalate parts)

/-- A path's start is a part that stays put, if it is one. -/
theorem Starts.exists_before {start part : List Char} {before : List (List Char)}
    (h : Starts start (before ++ [part])) (hslash : ∀ p ∈ before ++ [part], '/' ∉ p)
    (hpart : part ≠ []) :
    ∃ front, parts (textOf start (before ++ [part])) = front ++ [String.ofList part] ∧
      ∀ (t : FileTree) here, t.enter here front = t.enter here (before.map String.ofList) := by
  have hsplit := split_intercalate (by simp) hslash
  unfold parts textOf
  rw [String.toList_ofList]
  cases h with
  | relative => exact ⟨before.map String.ofList, by simp [hsplit], fun _ _ => rfl⟩
  | absolute =>
    refine ⟨"" :: before.map String.ofList, ?_, fun t here => ?_⟩
    · rw [List.cons_append, List.nil_append, split, if_pos rfl, hsplit]
      simp
    · rw [FileTree.enter, if_pos (.inl rfl)]
  | dotted h =>
    cases before with
    | nil => exact absurd (h part rfl) hpart
    | cons first before =>
      obtain rfl : first = [] := h first rfl
      refine ⟨"." :: before.map String.ofList, ?_, fun t here => ?_⟩
      · have hbehind := @split_intercalate (before ++ [part]) (by simp)
          fun p hp => hslash p (List.mem_cons_of_mem _ hp)
        have htext : ['.'] ++ ['/'].intercalate ([] :: before ++ [part]) =
            ['.'] ++ '/' :: ['/'].intercalate (before ++ [part]) := by
          cases before <;> rfl
        rw [htext, split_append, hbehind]
        simp [split]
      · rw [FileTree.enter, if_pos (.inr rfl), List.map_cons, FileTree.enter, if_pos (.inl rfl)]

/-! ## Directories as texts -/

/-- The texts that `climb` gives for these parts, last first, are texts that the operating system
takes. -/
structure Climbs (start : List Char) (reversed : List (List Char)) : Prop where
  starts : Starts start reversed.reverse
  noSlash (part : List Char) (h : part ∈ reversed) : '/' ∉ part
  usable (directory : String) (h : directory ∈ climb start reversed) :
    directory = "" ∨ refused? directory = none

theorem ofList_of_moves {part : List Char} (h : staysPut part = false) :
    ¬ (String.ofList part = "" ∨ String.ofList part = ".") := by
  rintro (heq | heq)
  · rw [← String.toList_inj, String.toList_ofList] at heq
    simp [staysPut, heq] at h
  · rw [← String.toList_inj, String.toList_ofList] at heq
    simp [staysPut, heq] at h

theorem textOf_ne_empty {part : List Char} (hpart : staysPut part = false) (start : List Char)
    (before : List (List Char)) : textOf start (before ++ [part]) ≠ "" := by
  intro h
  rw [textOf, ← String.toList_inj, String.toList_ofList, String.toList_empty,
    List.append_eq_nil_iff] at h
  have hnil : part = [] := by
    rcases before with _ | ⟨first, _ | ⟨second, before⟩⟩
    · simpa using h.2
    · simp at h
    · simp at h
  exact ofList_of_moves hpart (.inl (by rw [hnil]))

theorem climb_cons {part : List Char} (hpart : staysPut part = false) (start : List Char)
    (reversed : List (List Char)) :
    climb start (part :: reversed) =
      textOf start (reversed.reverse ++ [part]) :: climb start reversed := by
  rw [climb, if_neg (by simp [hpart]), List.reverse_cons, textOf]

theorem climb_ne_nil (start : List Char) (reversed : List (List Char)) :
    climb start reversed ≠ [] := by
  induction reversed with
  | nil =>
    rw [climb]
    split <;> exact List.cons_ne_nil _ _
  | cons part reversed ih =>
    rw [climb]
    split
    · exact ih
    · exact List.cons_ne_nil _ _

theorem climb_cons_of_stays {part : List Char} (hpart : staysPut part = true) (start : List Char)
    (reversed : List (List Char)) : climb start (part :: reversed) = climb start reversed := by
  rw [climb, if_pos hpart]

theorem Climbs.below {start part : List Char} {reversed : List (List Char)}
    (h : Climbs start (part :: reversed)) : Climbs start reversed where
  starts := by
    have hstarts := h.starts
    rw [List.reverse_cons] at hstarts
    exact hstarts.before
  noSlash p hp := h.noSlash p (List.mem_cons_of_mem _ hp)
  usable directory hd := by
    refine h.usable directory ?_
    cases hpart : staysPut part with
    | true => rwa [climb_cons_of_stays hpart]
    | false =>
      rw [climb_cons hpart]
      exact List.mem_cons_of_mem _ hd

/-- The texts of the directories around a path are cut off its own. -/
theorem prefix_of_mem_climb {start : List Char} {reversed : List (List Char)} {directory : String}
    (h : directory ∈ climb start reversed) (part : List Char) :
    directory = "" ∨
      directory.toList <+: (textOf start (reversed.reverse ++ [part])).toList := by
  rw [textOf, String.toList_ofList]
  induction reversed generalizing part with
  | nil =>
    rw [climb] at h
    split at h
    · next hstart =>
      rcases (by simpa using h : directory = "." ∨ directory = "") with rfl | rfl
      · rw [hstart]
        exact .inr (List.prefix_append _ _)
      · exact .inl rfl
    · rw [List.mem_singleton.mp h, String.toList_ofList]
      exact .inr (List.prefix_append _ _)
  | cons p reversed ih =>
    rw [List.reverse_cons]
    have hshorter : start ++ ['/'].intercalate (reversed.reverse ++ [p]) <+:
        start ++ ['/'].intercalate (reversed.reverse ++ [p] ++ [part]) :=
      (List.prefix_append_right_inj _).mpr (prefix_intercalate _ _)
    have hbelow (hmem : directory ∈ climb start reversed) :=
      (ih hmem p).imp_right fun hprefix => hprefix.trans hshorter
    cases hp : staysPut p with
    | true =>
      rw [climb, if_pos hp] at h
      exact hbelow h
    | false =>
      rw [climb_cons hp] at h
      rcases List.mem_cons.mp h with rfl | h
      · rw [textOf, String.toList_ofList]
        exact .inr hshorter
      · exact hbelow h

theorem refused?_of_cut {path directory : String} (h : directory.toList <+: path.toList)
    (hne : directory ≠ "") (hpath : refused? path = none) : refused? directory = none := by
  obtain ⟨rest, hrest⟩ := h
  have htext : path = directory ++ String.ofList rest := by
    rw [← String.toList_inj, ← hrest, String.toList_append, String.toList_ofList]
  unfold refused? at hpath ⊢
  split at hpath
  · cases hpath
  · next hnul =>
    split at hpath
    · cases hpath
    · split at hpath
      · cases hpath
      · next hlong =>
        have hnul' : ¬ directory.toList.contains '\x00' = true := by
          rw [← hrest] at hnul
          simp at hnul ⊢
          exact hnul.1
        have hlong' : ¬ FileTree.pathLimit < directory.utf8ByteSize := by
          rw [htext, String.utf8ByteSize_append] at hlong
          omega
        rw [if_neg hnul', if_neg hne, if_neg hlong']

/-- A path that ends in a name ends in a part that leads somewhere, behind its start. -/
theorem Starts.moves {start part : List Char} {front : List (List Char)} {before : List String}
    {last : String} (h : Starts start (front ++ [part])) (hslash : ∀ p ∈ front ++ [part], '/' ∉ p)
    (hparts : parts (textOf start (front ++ [part])) = before ++ [last])
    (hmoves : ¬ (last = "" ∨ last = ".")) : staysPut part = false := by
  have hlast := congrArg List.getLast? hparts
  rw [List.getLast?_concat] at hlast
  by_cases hpart : part = []
  · subst hpart
    refine absurd ?_ hmoves
    rw [parts, textOf, String.toList_ofList] at hlast
    by_cases hfront : front = []
    · subst hfront
      cases h with
      | relative => exact .inl (Option.some.inj hlast.symm)
      | absolute => exact .inl (Option.some.inj hlast.symm)
      | dotted => exact .inr (Option.some.inj hlast.symm)
    · rw [intercalate_concat hfront, ← List.append_assoc, split_append, split, List.map_append,
        List.map_singleton, List.getLast?_concat] at hlast
      exact .inl (Option.some.inj hlast.symm)
  · obtain ⟨_, hback, -⟩ := h.exists_before hslash hpart
    rw [hback, List.getLast?_concat, Option.some.injEq] at hlast
    rw [staysPut, Bool.or_eq_false_iff, decide_eq_false_iff_not, decide_eq_false_iff_not]
    refine ⟨hpart, fun heq => hmoves (.inr ?_)⟩
    rw [← hlast, heq]

theorem exists_split_eq (path : List Char) :
    ∃ (reversed : List (List Char)) (part : List Char), split path = reversed.reverse ++ [part] := by
  rcases List.eq_nil_or_concat (split path) with hnil | ⟨front, part, hfront⟩
  · exact absurd (split_eq_splitOn path ▸ hnil) (List.splitOn_ne_nil _ _)
  · exact ⟨front.reverse, part, by rw [List.reverse_reverse, hfront, List.concat_eq_append]⟩

/-- The directories around a path that ends in a name lead through the parts in front of the name. -/
theorem exists_enclosing {path last : String} {before : List String}
    (hparts : parts path = before ++ [last]) (hmoves : ¬ (last = "" ∨ last = "."))
    (husable : refused? path = none) :
    ∃ start reversed, enclosing path = climb start reversed ∧ Climbs start reversed ∧
      ∀ (t : FileTree) here, t.enter here (reversed.reverse.map String.ofList) =
        t.enter here before := by
  obtain ⟨hstarts, htext⟩ := starts_splitStart path.toList
  rcases hstart : splitStart path.toList with ⟨start, rest⟩
  rw [hstart] at hstarts htext
  obtain ⟨reversed, part, hreversed⟩ := exists_split_eq rest
  have hpath : path = textOf start (reversed.reverse ++ [part]) := by
    rw [textOf, ← hreversed, intercalate_split, htext, String.ofList_toList]
  have hslash : ∀ p ∈ reversed.reverse ++ [part], '/' ∉ p := fun p hp =>
    not_mem_of_mem_split (hreversed ▸ hp)
  simp only [hreversed] at hstarts
  have hpart := hstarts.moves hslash (hpath ▸ hparts) hmoves
  have hclimb : (split rest).reverse = part :: reversed := by simp [hreversed]
  refine ⟨start, reversed, ?_, ⟨hstarts.before, fun p hp => hslash p (by simp [hp]), ?_⟩, ?_⟩
  · rw [enclosing, hstart]
    simp only [hclimb, climb_cons hpart, List.tail_cons]
  · intro directory hd
    by_cases hne : directory = ""
    · exact .inl hne
    · have hprefix := (prefix_of_mem_climb hd part).resolve_left hne
      rw [← hpath] at hprefix
      exact .inr (refused?_of_cut hprefix hne husable)
  · have hne : part ≠ [] := fun heq => ofList_of_moves hpart (.inl (by rw [heq]))
    obtain ⟨front, hfront, henter⟩ := hstarts.exists_before hslash hne
    rw [← hpath, hparts] at hfront
    obtain ⟨rfl, -⟩ := List.append_inj' hfront rfl
    exact fun t here => (henter t here).symm

end Path
end TableStore
