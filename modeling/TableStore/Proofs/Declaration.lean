import Mathlib.Data.List.Induction
import Mathlib.Data.List.TakeWhile
import TableStore.Proofs.Execution

/-
What a list of column declarations builds.

A declaration states a name and the word for a type (`Declaration.States`).  The declarations are looked
at one after the other, and the loop stops at the first one that is wrong behind the ones before it.  What
the earlier ones have built is a valid table all along (`Declaration.Built`).
-/
namespace TableStore

namespace Text

/-! ## Trimming -/

/-- What is left of a text without the white space at both of its ends. -/
structure Trimmed (inner outer : List Char) : Prop where
  around : ∃ front behind, outer = front ++ inner ++ behind ∧
    (∀ c ∈ front, isBlank c = true) ∧ ∀ c ∈ behind, isBlank c = true
  first : ∀ c, inner.head? = some c → isBlank c = false
  last : ∀ c, inner.getLast? = some c → isBlank c = false

theorem dropWhile_append {front rest : List Char} (hfront : ∀ c ∈ front, isBlank c = true)
    (hrest : ∀ c, rest.head? = some c → isBlank c = false) :
    (front ++ rest).dropWhile isBlank = rest := by
  rw [List.dropWhile_append_of_pos hfront]
  cases rest with
  | nil => rfl
  | cons c behind => rw [List.dropWhile_cons_of_neg (by simp [hrest c rfl])]

theorem head?_dropWhile (cs : List Char) (c : Char) (h : (cs.dropWhile isBlank).head? = some c) :
    isBlank c = false := by
  have hnot := List.head?_dropWhile_not isBlank cs
  rw [h] at hnot
  exact hnot

/-- The white space at the end is what the reversed text starts with. -/
theorem Trimmed.eq_trimChars {inner outer : List Char} (h : Trimmed inner outer) :
    inner = trimChars outer := by
  obtain ⟨⟨front, behind, rfl, hfront, hbehind⟩, hfirst, hlast⟩ := h
  unfold trimChars
  by_cases hempty : inner = []
  · subst hempty
    have hall : ∀ c ∈ front ++ [] ++ behind, isBlank c = true := by
      rw [List.append_nil]
      exact List.forall_mem_append.mpr ⟨hfront, hbehind⟩
    rw [List.dropWhile_eq_nil_iff.mpr hall]
    rfl
  · have hhead : ∀ c, (inner ++ behind).head? = some c → isBlank c = false := by
      obtain ⟨c, rest, rfl⟩ := List.exists_cons_of_ne_nil hempty
      exact hfirst
    have hend : ∀ c, inner.reverse.head? = some c → isBlank c = false := by
      rw [List.head?_reverse]
      exact hlast
    have hreversed : ∀ c ∈ behind.reverse, isBlank c = true := fun c hc =>
      hbehind c (List.mem_reverse.mp hc)
    rw [List.append_assoc, dropWhile_append hfront hhead, List.reverse_append,
      dropWhile_append hreversed hend, List.reverse_reverse]

theorem trimmed_trimChars (cs : List Char) : Trimmed (trimChars cs) cs := by
  have hfront := List.takeWhile_append_dropWhile (p := isBlank) (l := cs)
  have hbehind := List.takeWhile_append_dropWhile (p := isBlank)
    (l := (cs.dropWhile isBlank).reverse)
  have hrest : trimChars cs ++ ((cs.dropWhile isBlank).reverse.takeWhile isBlank).reverse =
      cs.dropWhile isBlank := by
    rw [trimChars, ← List.reverse_append, hbehind, List.reverse_reverse]
  constructor
  · refine ⟨cs.takeWhile isBlank, ((cs.dropWhile isBlank).reverse.takeWhile isBlank).reverse, ?_,
      fun c hc => List.mem_takeWhile_imp hc, fun c hc => ?_⟩
    · rw [List.append_assoc, hrest, hfront]
    · exact List.mem_takeWhile_imp (List.mem_reverse.mp hc)
  · -- What begins the trimmed text begins the text behind the white space.
    intro c hc
    apply head?_dropWhile cs
    rw [← hrest, List.head?_append, hc, Option.some_or]
  · intro c hc
    rw [trimChars, List.getLast?_reverse] at hc
    exact head?_dropWhile _ c hc

theorem trimmed_iff {inner outer : List Char} : Trimmed inner outer ↔ inner = trimChars outer := by
  constructor
  · exact Trimmed.eq_trimChars
  · rintro rfl
    exact trimmed_trimChars outer

end Text

theorem DataType.ofTag?_eq_some_iff {tag : String} {type : DataType} :
    ofTag? tag = some type ↔ tag = type.tag := by
  constructor
  · intro h
    unfold ofTag? at h
    split at h
    · next htag =>
      cases h
      exact htag
    · split at h
      · next htag =>
        cases h
        exact htag
      · split at h
        · next htag =>
          cases h
          exact htag
        · cases h
  · rintro rfl
    exact ofTag?_tag type

namespace Table

/-- A column whose name is free can be put behind the others. -/
theorem Valid.concat {t : Table} (h : t.Valid) {c : Column} (hfresh : t.column? c.name = none) :
    Valid { t with columns := t.columns ++ [c] } := by
  constructor
  · show (t.columns ++ [c]).head? = some Column.key
    rw [List.head?_append, h.head, Option.some_or]
  · show ((t.columns ++ [c]).map (·.name)).Nodup
    rw [List.map_append, List.nodup_append]
    refine ⟨h.nodup, List.pairwise_singleton _ _, fun name hname other hother heq => ?_⟩
    have hc : other = c.name := List.mem_singleton.mp hother
    obtain ⟨column, hcolumn, rfl⟩ := List.mem_map.mp hname
    rw [← hc, ← heq, h.column?_of_mem hcolumn] at hfresh
    cases hfresh

theorem dataColumns_concat (t : Table) {c : Column} (hc : c.name ≠ keyColumn) :
    dataColumns { t with columns := t.columns ++ [c] } = t.dataColumns ++ [c] := by
  have hkept : (!c.isKey) = true := by simpa [Column.isKey] using hc
  show (t.columns ++ [c]).filter (!·.isKey) = _
  rw [List.filter_append]
  exact congrArg _ (List.filter_cons_of_pos hkept)

end Table

namespace Declaration

/-! ## What a declaration states -/

/-- The name and the word for a type that a declaration states.  The first colon stands between them, and
white space around either of them does not count; without a colon the word is empty. -/
inductive States (declaration name tag : String) : Prop where
  | colon {before behind : List Char} (htext : declaration.toList = before ++ ':' :: behind)
    (hfirst : ':' ∉ before) (hname : Text.Trimmed name.toList before)
    (htag : Text.Trimmed tag.toList behind)
  | bare (hnone : ':' ∉ declaration.toList) (hname : Text.Trimmed name.toList declaration.toList)
    (htag : tag = "")

theorem splitColon_append {before : List Char} (h : ':' ∉ before) (behind : List Char) :
    splitColon (before ++ ':' :: behind) = (before, behind) := by
  induction before with
  | nil => rfl
  | cons c rest ih =>
    obtain ⟨hc, hrest⟩ := List.ne_and_not_mem_of_not_mem_cons h
    rw [List.cons_append, splitColon, ih hrest]
    exact fun heq => hc heq.symm

theorem splitColon_of_not_mem {cs : List Char} (h : ':' ∉ cs) : splitColon cs = (cs, []) := by
  induction cs with
  | nil => rfl
  | cons c rest ih =>
    obtain ⟨hc, hrest⟩ := List.ne_and_not_mem_of_not_mem_cons h
    rw [splitColon, ih hrest]
    exact fun heq => hc heq.symm

/-- A declaration states one name and one word for a type. -/
theorem states_iff {declaration name tag : String} :
    States declaration name tag ↔
      name.toList = Text.trimChars (splitColon declaration.toList).1 ∧
        tag.toList = Text.trimChars (splitColon declaration.toList).2 := by
  constructor
  · intro h
    cases h with
    | colon htext hfirst hname htag =>
      rw [htext, splitColon_append hfirst]
      exact ⟨Text.trimmed_iff.mp hname, Text.trimmed_iff.mp htag⟩
    | bare hnone hname htag =>
      rw [splitColon_of_not_mem hnone, htag]
      exact ⟨Text.trimmed_iff.mp hname, rfl⟩
  · intro h
    obtain ⟨hname, htag⟩ := h
    by_cases hcolon : ':' ∈ declaration.toList
    · obtain ⟨before, behind, htext, hfirst⟩ := List.eq_append_cons_of_mem hcolon
      rw [htext, splitColon_append hfirst] at hname htag
      exact .colon htext hfirst (Text.trimmed_iff.mpr hname) (Text.trimmed_iff.mpr htag)
    · rw [splitColon_of_not_mem hcolon] at hname htag
      exact .bare hcolon (Text.trimmed_iff.mpr hname) (String.toList_inj.mp htag)

theorem States.name_eq {declaration name name' tag tag' : String}
    (h : States declaration name tag) (h' : States declaration name' tag') : name = name' := by
  apply String.toList_inj.mp
  rw [(states_iff.mp h).1, (states_iff.mp h').1]

theorem States.tag_eq {declaration name name' tag tag' : String}
    (h : States declaration name tag) (h' : States declaration name' tag') : tag = tag' := by
  apply String.toList_inj.mp
  rw [(states_iff.mp h).2, (states_iff.mp h').2]

theorem exists_states (declaration : String) : ∃ name tag, States declaration name tag :=
  ⟨String.ofList (Text.trimChars (splitColon declaration.toList).1),
    String.ofList (Text.trimChars (splitColon declaration.toList).2),
    states_iff.mpr ⟨String.toList_ofList, String.toList_ofList⟩⟩

theorem parts?_of_states {declaration name tag : String} (h : States declaration name tag) :
    parts? declaration = (DataType.ofTag? tag).map fun type => (name, type) := by
  obtain ⟨hname, htag⟩ := states_iff.mp h
  have hparts : parts? declaration =
      (DataType.ofTag? (String.ofList (Text.trimChars (splitColon declaration.toList).2))).map
        fun type => (String.ofList (Text.trimChars (splitColon declaration.toList).1), type) := rfl
  rw [hparts, ← hname, ← htag, String.ofList_toList, String.ofList_toList]

/-- A declaration is right on its own if it states one of the three types. -/
theorem parts?_eq_some_iff {declaration name : String} {type : DataType} :
    parts? declaration = some (name, type) ↔ States declaration name type.tag := by
  constructor
  · intro h
    obtain ⟨name', tag, hstates⟩ := exists_states declaration
    rw [parts?_of_states hstates, Option.map_eq_some_iff] at h
    obtain ⟨type', htype, heq⟩ := h
    obtain ⟨rfl, rfl⟩ := Prod.mk.inj heq
    rw [← DataType.ofTag?_eq_some_iff.mp htype]
    exact hstates
  · intro h
    rw [parts?_of_states h, DataType.ofTag?_tag, Option.map_some]

/-! ## Which declarations are wrong -/

/-- What is wrong with a declaration that stands behind some others: it states no type, or no name, or a
name that is stated already.  The primary key is there in any case and may be stated again. -/
inductive Wrong (earlier : List String) (declaration : String) : Prop where
  | type {name tag : String} (h : States declaration name tag)
    (htag : ∀ type : DataType, tag ≠ type.tag)
  | unnamed {tag : String} (h : States declaration "" tag)
  | repeated {other name tag tag' : String} (h : States declaration name tag)
    (hname : name ≠ keyColumn) (hother : other ∈ earlier) (hrepeat : States other name tag')

/-- Where a type is stated, all depends on the name. -/
theorem wrong_iff (earlier : List String) {declaration name : String} {type : DataType}
    (h : States declaration name type.tag) :
    Wrong earlier declaration ↔
      name ≠ keyColumn ∧ (name = "" ∨ ∃ other ∈ earlier, ∃ tag, States other name tag) := by
  constructor
  · intro hwrong
    cases hwrong with
    | type h' htag => exact absurd (h'.tag_eq h) (htag type)
    | unnamed h' =>
      have hname : name = "" := h.name_eq h'
      refine ⟨?_, .inl hname⟩
      rw [hname]
      decide
    | repeated h' hname hother hrepeat =>
      rw [h'.name_eq h] at hname hrepeat
      exact ⟨hname, .inr ⟨_, hother, _, hrepeat⟩⟩
  · intro hwrong
    obtain ⟨hname, hempty | ⟨other, hother, tag, hrepeat⟩⟩ := hwrong
    · rw [hempty] at h
      exact .unnamed h
    · exact .repeated h hname hother hrepeat

/-- No declaration is wrong behind the ones before it. -/
def Sound (declarations : List String) : Prop :=
  ∀ before declaration, before ++ [declaration] <+: declarations → ¬ Wrong before declaration

/-- The first declaration that is wrong behind the ones before it. -/
def FirstWrong (declarations : List String) (declaration : String) : Prop :=
  ∃ before, before ++ [declaration] <+: declarations ∧ Sound before ∧ Wrong before declaration

theorem sound_concat_iff {declarations : List String} {declaration : String} :
    Sound (declarations ++ [declaration]) ↔
      Sound declarations ∧ ¬ Wrong declarations declaration := by
  constructor
  · intro h
    refine ⟨fun before d hprefix => h before d ?_, h declarations declaration List.prefix_rfl⟩
    exact hprefix.trans (List.prefix_append _ _)
  · intro h before d hprefix
    rcases List.prefix_concat_iff.mp hprefix with heq | hprefix
    · obtain ⟨rfl, rfl⟩ := List.append_singleton_inj.mp heq
      exact h.2
    · exact h.1 before d hprefix

theorem firstWrong_concat_iff {declarations : List String} {declaration first : String} :
    FirstWrong (declarations ++ [declaration]) first ↔
      FirstWrong declarations first ∨
        Sound declarations ∧ Wrong declarations declaration ∧ first = declaration := by
  constructor
  · intro h
    obtain ⟨before, hprefix, hsound, hwrong⟩ := h
    rcases List.prefix_concat_iff.mp hprefix with heq | hprefix
    · obtain ⟨rfl, rfl⟩ := List.append_singleton_inj.mp heq
      exact .inr ⟨hsound, hwrong, rfl⟩
    · exact .inl ⟨before, hprefix, hsound, hwrong⟩
  · intro h
    rcases h with ⟨before, hprefix, hsound, hwrong⟩ | ⟨hsound, hwrong, rfl⟩
    · exact ⟨before, hprefix.trans (List.prefix_append _ _), hsound, hwrong⟩
    · exact ⟨declarations, List.prefix_rfl, hsound, hwrong⟩

theorem FirstWrong.unique {declarations : List String} {first first' : String}
    (h : FirstWrong declarations first) (h' : FirstWrong declarations first') : first = first' := by
  obtain ⟨before, hprefix, hsound, hwrong⟩ := h
  obtain ⟨before', hprefix', hsound', hwrong'⟩ := h'
  rcases List.prefix_or_prefix_of_prefix hprefix hprefix' with hle | hle
  · rcases List.prefix_concat_iff.mp hle with heq | hle
    · exact (List.append_singleton_inj.mp heq).2
    · exact absurd hwrong (hsound' before first hle)
  · rcases List.prefix_concat_iff.mp hle with heq | hle
    · exact (List.append_singleton_inj.mp heq).2.symm
    · exact absurd hwrong' (hsound before' first' hle)

theorem Sound.not_firstWrong {declarations : List String} (h : Sound declarations)
    (declaration : String) : ¬ FirstWrong declarations declaration := by
  intro hfirst
  obtain ⟨before, hprefix, -, hwrong⟩ := hfirst
  exact h before declaration hprefix hwrong

/-! ## The columns that are declared -/

/-- The columns that some declarations state, in their order and without the primary key. -/
inductive Declares : List String → List Column → Prop where
  | nil : Declares [] []
  | key {declaration : String} {type : DataType} {rest : List String} {columns : List Column}
    (h : States declaration keyColumn type.tag) (hrest : Declares rest columns) :
    Declares (declaration :: rest) columns
  | column {declaration name : String} {type : DataType} {rest : List String}
    {columns : List Column} (h : States declaration name type.tag) (hname : name ≠ keyColumn)
    (hrest : Declares rest columns) : Declares (declaration :: rest) (⟨name, type⟩ :: columns)

theorem Declares.append {earlier later : List String} {columns more : List Column}
    (h : Declares earlier columns) (hmore : Declares later more) :
    Declares (earlier ++ later) (columns ++ more) := by
  induction h with
  | nil => exact hmore
  | key hstates _ ih => exact .key hstates ih
  | column hstates hname _ ih => exact .column hstates hname ih

/-- But for the primary key, the names of the columns are the names that are stated. -/
theorem Declares.mem_names_iff {declarations : List String} {columns : List Column} {name : String}
    (h : Declares declarations columns) (hname : name ≠ keyColumn) :
    name ∈ columns.map (·.name) ↔ ∃ other ∈ declarations, ∃ tag, States other name tag := by
  induction h with
  | nil => simp
  | key hstates _ ih =>
    have hother : ¬ ∃ tag, States _ name tag := fun h =>
      h.elim fun _ h => hname (h.name_eq hstates)
    simp only [List.mem_cons, exists_eq_or_imp]
    rw [ih, or_iff_right hother]
  | @column _ stated _ _ _ hstates _ _ ih =>
    have hfirst : name = stated ↔ ∃ tag, States _ name tag :=
      ⟨fun heq => heq ▸ ⟨_, hstates⟩, fun h => h.elim fun _ h => h.name_eq hstates⟩
    simp only [List.map_cons, List.mem_cons, exists_eq_or_imp]
    rw [ih, hfirst]

/-! ## The loop over the declarations -/

theorem addTo_of_parts?_eq_some {t : Table} {declaration name : String} {type : DataType}
    (h : parts? declaration = some (name, type)) :
    addTo t declaration =
      if name = keyColumn then .ok t
      else if name = "" ∨ (t.column? name).isSome then .error (.invalidColumn declaration)
      else .ok { t with columns := t.columns ++ [⟨name, type⟩] } := by
  rw [addTo, h]

/-- The table that sound declarations have built so far. -/
structure Built (declarations : List String) (t : Table) : Prop where
  valid : t.Valid
  declared : Declares declarations t.dataColumns

theorem built_blank (name : String) : Built [] (.blank name) :=
  ⟨⟨rfl, List.pairwise_singleton _ _⟩, .nil⟩

theorem Built.isSome_column?_iff {declarations : List String} {t : Table} {name : String}
    (h : Built declarations t) (hname : name ≠ keyColumn) :
    (t.column? name).isSome = true ↔ ∃ other ∈ declarations, ∃ tag, States other name tag := by
  have hkey : ¬ Column.key.name = name := fun heq => hname heq.symm
  rw [← h.declared.mem_names_iff hname, Table.column?, h.valid.columns_eq, List.find?_cons_of_neg
    (by simpa using hkey), List.find?_isSome, List.mem_map]
  simp

/-- The next declaration is refused if it is wrong, and otherwise its column is added unless it declares
the primary key. -/
theorem Built.addTo_cases {declarations : List String} {t : Table} (h : Built declarations t)
    (declaration : String) :
    addTo t declaration = .error (.invalidColumn declaration) ∧ Wrong declarations declaration ∨
      ∃ t', addTo t declaration = .ok t' ∧ ¬ Wrong declarations declaration ∧
        Built (declarations ++ [declaration]) t' := by
  obtain ⟨name, tag, hstates⟩ := exists_states declaration
  cases htype : DataType.ofTag? tag with
  | none =>
    refine .inl ⟨?_, .type hstates fun type heq => ?_⟩
    · rw [addTo, parts?_of_states hstates, htype]
      rfl
    · rw [heq, DataType.ofTag?_tag] at htype
      cases htype
  | some type =>
    obtain rfl := DataType.ofTag?_eq_some_iff.mp htype
    have hadd := addTo_of_parts?_eq_some (t := t) (parts?_eq_some_iff.mpr hstates)
    have hwrong := wrong_iff declarations hstates
    by_cases hkey : name = keyColumn
    · rw [if_pos hkey] at hadd
      subst hkey
      refine .inr ⟨t, hadd, fun h => (hwrong.mp h).1 rfl, h.valid, ?_⟩
      have hdeclared := h.declared.append (.key hstates .nil)
      rw [List.append_nil] at hdeclared
      exact hdeclared
    · have hthere := h.isSome_column?_iff hkey
      rw [if_neg hkey] at hadd
      by_cases hrefused : name = "" ∨ (t.column? name).isSome = true
      · rw [if_pos hrefused] at hadd
        exact .inl ⟨hadd, hwrong.mpr ⟨hkey, hrefused.imp_right hthere.mp⟩⟩
      · rw [if_neg hrefused] at hadd
        have hfree : t.column? name = none := by simpa using (not_or.mp hrefused).2
        refine .inr ⟨_, hadd, fun h => ?_, h.valid.concat hfree, ?_⟩
        · exact hrefused ((hwrong.mp h).2.imp_right hthere.mpr)
        · rw [t.dataColumns_concat hkey]
          exact h.declared.append (.column hstates hkey .nil)

/-- The loop goes through if the declarations are sound, and stops at the first one that is wrong. -/
theorem table_cases (name : String) (declarations : List String) :
    (∃ t, table name declarations = .ok t ∧ Sound declarations ∧ Built declarations t) ∨
      ∃ declaration, table name declarations = .error (.invalidColumn declaration) ∧
        FirstWrong declarations declaration := by
  -- What the last declaration does depends on all that the loop has done before.
  induction declarations using List.reverseRecOn with
  | nil =>
    refine .inl ⟨.blank name, rfl, fun before declaration hprefix => ?_, built_blank name⟩
    exact absurd (List.prefix_nil.mp hprefix) (List.concat_ne_nil _ _)
  | append_singleton declarations last ih =>
    have hloop : table name (declarations ++ [last]) =
        table name declarations >>= fun t => addTo t last := by
      rw [table, List.foldlM_append]
      simp [table]
    rcases ih with ⟨t, ht, hsound, hbuilt⟩ | ⟨first, ht, hfirst⟩
    · have hlast : table name (declarations ++ [last]) = addTo t last := by
        rw [hloop, ht]
        rfl
      rw [hlast]
      rcases hbuilt.addTo_cases last with ⟨hadd, hwrong⟩ | ⟨t', hadd, hright, hbuilt'⟩
      · exact .inr ⟨last, hadd, firstWrong_concat_iff.mpr (.inr ⟨hsound, hwrong, rfl⟩)⟩
      · exact .inl ⟨t', hadd, sound_concat_iff.mpr ⟨hsound, hright⟩, hbuilt'⟩
    · rw [hloop, ht]
      exact .inr ⟨first, rfl, firstWrong_concat_iff.mpr (.inl hfirst)⟩

theorem table_of_firstWrong {declarations : List String} {declaration : String}
    (h : FirstWrong declarations declaration) (name : String) :
    table name declarations = .error (.invalidColumn declaration) := by
  rcases table_cases name declarations with ⟨t, -, hsound, -⟩ | ⟨first, ht, hfirst⟩
  · exact absurd h (hsound.not_firstWrong declaration)
  · rw [ht, hfirst.unique h]

theorem exists_table_of_no_firstWrong {declarations : List String}
    (h : ∀ declaration, ¬ FirstWrong declarations declaration) (name : String) :
    ∃ t, table name declarations = .ok t ∧ Built declarations t := by
  rcases table_cases name declarations with ⟨t, ht, -, hbuilt⟩ | ⟨first, -, hfirst⟩
  · exact ⟨t, ht, hbuilt⟩
  · exact absurd hfirst (h first)

theorem sound_of_table {name : String} {declarations : List String} {t : Table}
    (h : table name declarations = .ok t) : Sound declarations ∧ Built declarations t := by
  rcases table_cases name declarations with ⟨t', ht, hsound, hbuilt⟩ | ⟨first, ht, -⟩
  · rw [ht] at h
    cases h
    exact ⟨hsound, hbuilt⟩
  · rw [ht] at h
    cases h

end Declaration

end TableStore
