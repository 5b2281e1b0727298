import Mathlib.Data.List.TakeWhile
import TableStore.Proofs.Files.Writes

/-
Where paths lead.

A tree has no links, so the text of a path says where the path leads if it leads anywhere
(`Path.place`), and two paths meet in one node of some tree only if they have one place.  What a tree
decides is whether a path leads anywhere: every part but the last has to be a directory.
-/
namespace TableStore

namespace Path

/-- The parts of a path. -/
def parts (path : String) : List String := (split path.toList).map String.ofList

/-- The names that parts lead to from the directory `here`. -/
def walk (here : List String) : List String → List String
  | [] => here
  | part :: rest =>
    if part = "" ∨ part = "." then walk here rest
    else if part = ".." then walk here.dropLast rest
    else walk (here ++ [part]) rest

/-- The names that a path leads to. -/
def place (path : String) : List String := walk [] (parts path)

theorem walk_append (here ps qs : List String) : walk here (ps ++ qs) = walk (walk here ps) qs := by
  induction ps generalizing here with
  | nil => rfl
  | cons part rest ih => grind [walk]

theorem walk_replicate (here : List String) (n : Nat) :
    walk here (List.replicate n "") = here := by
  induction n with
  | zero => rfl
  | succ n ih => rw [List.replicate_succ, walk, if_pos (.inl rfl), ih]

/-- Why the operating system does not look for a path at all. -/
def refused? (path : String) : Option OsError :=
  if path.toList.contains '\x00' then some .nulInPath
  else if path = "" then some .notFound
  else if FileTree.pathLimit < path.utf8ByteSize then some .nameTooLong
  else none

end Path

namespace FileTree

variable {t t' : FileTree}

theorem enter_append (here ps qs : List String) :
    t.enter here (ps ++ qs) = t.enter here ps >>= fun last => t.enter last qs := by
  induction ps generalizing here with
  | nil => rfl
  | cons part rest ih =>
    rw [List.cons_append, enter, enter]
    split
    · exact ih here
    · split
      · exact ih _
      · split
        · exact ih _
        · rfl
        · rfl
        · rfl

theorem enter_eq_walk {here parts last : List String} (h : t.enter here parts = .ok last) :
    last = Path.walk here parts := by
  induction parts generalizing here with
  | nil => exact (Except.ok.inj h).symm
  | cons part rest ih =>
    rw [enter] at h
    rw [Path.walk]
    split at h
    · next hstay =>
      rw [if_pos hstay]
      exact ih h
    · next hstay =>
      rw [if_neg hstay]
      split at h
      · next hup =>
        rw [if_pos hup]
        exact ih h
      · next hup =>
        rw [if_neg hup]
        split at h
        · exact ih h
        · cases h
        · cases h
        · cases h

theorem resolve_eq (t : FileTree) (path : String) :
    t.resolve path =
      match Path.refused? path with
      | some cause => .error cause
      | none => t.locate (Path.parts path) := by
  unfold resolve Path.refused?
  split
  · rfl
  · split
    · rfl
    · split <;> rfl

/-- Where a path ends in a name, the name is looked for in the directory that the parts before it lead
to. -/
theorem resolve_of_parts {path last : String} {before : List String}
    (hparts : Path.parts path = before ++ [last]) (hlast : last ≠ "") (hdot : last ≠ ".") :
    t.resolve path =
      match Path.refused? path with
      | some cause => .error cause
      | none => (t.enter [] before).map fun here =>
        if last = ".." then .directory here.dropLast else .entry here last false := by
  rw [resolve_eq]
  cases Path.refused? path with
  | some cause => rfl
  | none =>
    have hreverse : (Path.parts path).reverse.dropWhile (· = "") = last :: before.reverse := by
      simp [hparts, hlast]
    have hslash : (Path.parts path).getLast? ≠ some "" := by
      simp [hparts, hlast]
    simp only [locate, hreverse, List.reverse_reverse, hdot, if_false]
    cases t.enter [] before with
    | error cause => rfl
    | ok here =>
      show (if last = ".." then _ else _) = Except.ok (if last = ".." then _ else _)
      split
      · rfl
      · simp [hslash, pure, Except.pure]

theorem eq_of_dropWhile_reverse {parts before : List String} {last : String}
    (h : parts.reverse.dropWhile (· = "") = last :: before) :
    last ≠ "" ∧ ∃ n, parts = before.reverse ++ last :: List.replicate n "" := by
  constructor
  · have hhead := List.head?_dropWhile_not (fun part : String => decide (part = "")) parts.reverse
    rw [h] at hhead
    simpa using hhead
  · have hsplit := List.takeWhile_append_dropWhile (p := fun part : String => decide (part = ""))
      (l := parts.reverse)
    obtain ⟨n, htrailing⟩ : ∃ n, parts.reverse.takeWhile (· = "") = List.replicate n "" :=
      ⟨_, List.eq_replicate_of_mem fun part hpart => by simpa using List.mem_takeWhile_imp hpart⟩
    rw [h, htrailing] at hsplit
    exact ⟨n, by simpa using (congrArg List.reverse hsplit).symm⟩

/-- A path that leads to a name leads to its place. -/
theorem place_of_resolve {path name : String} {here : List String} {slash : Bool}
    (h : t.resolve path = .ok (.entry here name slash)) : here ++ [name] = Path.place path := by
  rw [resolve_eq] at h
  cases hrefused : Path.refused? path with
  | some cause =>
    rw [hrefused] at h
    cases h
  | none =>
    rw [hrefused] at h
    simp only [locate] at h
    split at h
    · cases h
    · next last before hreverse =>
      obtain ⟨here', henter, h⟩ := bind_eq_ok_iff.mp h
      split at h
      · cases h
      · next hdot =>
        split at h
        · cases h
        · next hup =>
          cases h
          obtain ⟨hname, n, hparts⟩ := eq_of_dropWhile_reverse hreverse
          rw [Path.place, hparts, Path.walk_append, ← enter_eq_walk henter, Path.walk,
            if_neg (not_or.mpr ⟨hname, hdot⟩), if_neg hup, Path.walk_replicate]

/-! ## Files at their places -/

theorem readFile_eq_ok_iff {path : String} {content : ByteArray} :
    t.readFile path = .ok content ↔
      (∃ here name, t.resolve path = .ok (.entry here name false) ∧
        name.utf8ByteSize ≤ nameLimit) ∧
      t.content? (Path.place path) = some content := by
  unfold readFile
  constructor
  · intro h
    obtain ⟨target, hresolve, h⟩ := bind_eq_ok_iff.mp h
    cases target with
    | directory names => cases h
    | entry here name slash =>
      obtain ⟨node?, hlook, h⟩ := bind_eq_ok_iff.mp h
      obtain ⟨hshort, hnode⟩ := look_eq_ok_iff.mp hlook
      rcases node? with _ | _ | _
      · cases h
      · cases h
      · cases slash with
        | true => cases h
        | false =>
          cases h
          refine ⟨⟨here, name, hresolve, hshort⟩, ?_⟩
          rw [← place_of_resolve hresolve]
          exact content?_eq_some.mpr hnode
  · intro h
    obtain ⟨⟨here, name, hresolve, hshort⟩, hcontent⟩ := h
    rw [← place_of_resolve hresolve] at hcontent
    have hlook : t.look here name = .ok (some (.file content)) :=
      look_eq_ok_iff.mpr ⟨hshort, content?_eq_some.mp hcontent⟩
    rw [hresolve]
    show (t.look here name >>= _) = _
    rw [hlook]
    rfl

/-- What was read is read again as long as the directories and the file itself stay. -/
theorem Within.readFile (h : t.Within t') {path : String} {content : ByteArray}
    (hread : t.readFile path = .ok content)
    (hcontent : t'.content? (Path.place path) = t.content? (Path.place path)) :
    t'.readFile path = .ok content := by
  obtain ⟨⟨here, name, hresolve, hshort⟩, hfile⟩ := readFile_eq_ok_iff.mp hread
  exact readFile_eq_ok_iff.mpr ⟨⟨here, name, h.resolve hresolve, hshort⟩, hcontent.trans hfile⟩

theorem content?_put (t : FileTree) (here : List String) (name : String) (content : ByteArray)
    (names : List String) :
    (t.put here name (.file content)).content? names =
      if names = here ++ [name] then some content else t.content? names := by
  rw [content?, put, SortedMap.get?_insert]
  by_cases h : names = here ++ [name]
  · rw [if_pos h, if_pos h]
  · rw [if_neg h, if_neg h, content?]

theorem removeFile_eq_ok {path : String} (h : t.removeFile path = .ok t') :
    ∃ here name, t.resolve path = .ok (.entry here name false) ∧
      (∃ content, t.nodes.get? (here ++ [name]) = some (.file content)) ∧
      t' = ⟨t.nodes.erase (here ++ [name])⟩ := by
  obtain ⟨target, hresolve, h⟩ := bind_eq_ok_iff.mp h
  cases target with
  | directory names => cases h
  | entry here name slash =>
    obtain ⟨node?, hlook, h⟩ := bind_eq_ok_iff.mp h
    obtain ⟨-, hnode⟩ := look_eq_ok_iff.mp hlook
    rcases node? with _ | _ | content
    · cases h
    · cases h
    · cases slash with
      | true => cases h
      | false =>
        cases h
        exact ⟨here, name, hresolve, ⟨content, hnode⟩, rfl⟩

theorem within_erase {names : List String} (h : t.nodes.get? names ≠ some .directory) :
    t.Within ⟨t.nodes.erase names⟩ := by
  intro others hothers
  rw [SortedMap.get?_erase, if_neg]
  · exact hothers
  · rintro rfl
    exact h hothers

/-- Directories stay directories and files stay files. -/
structure Keeps (t t' : FileTree) : Prop where
  within : t.Within t'
  files (names : List String) (h : (t.content? names).isSome) : (t'.content? names).isSome

theorem Grows.keeps (h : t.Grows t') : t.Keeps t' :=
  ⟨h.within, fun names hfile => by rwa [h.content]⟩

theorem Keeps.refl (t : FileTree) : t.Keeps t := (Grows.refl t).keeps

theorem Keeps.trans {t₁ t₂ t₃ : FileTree} (h : t₁.Keeps t₂) (h' : t₂.Keeps t₃) : t₁.Keeps t₃ :=
  ⟨fun names hnames => h'.within names (h.within names hnames),
    fun names hfile => h'.files names (h.files names hfile)⟩

theorem keeps_put {here : List String} {name : String} {content : ByteArray}
    (h : t.nodes.get? (here ++ [name]) ≠ some .directory) :
    t.Keeps (t.put here name (.file content)) := by
  refine ⟨within_put h, fun names hfile => ?_⟩
  rw [content?_put]
  split
  · rfl
  · exact hfile

/-- A way that is blocked, by a file or by a name that is too long, stays blocked. -/
theorem Keeps.enter_error (h : t.Keeps t') {here parts : List String} {cause : OsError}
    (hcause : cause ≠ .notFound) (henter : t.enter here parts = .error cause) :
    t'.enter here parts = .error cause := by
  induction parts generalizing here with
  | nil => cases henter
  | cons part rest ih =>
    rw [FileTree.enter] at henter ⊢
    split at henter
    · next hstay =>
      rw [if_pos hstay]
      exact ih henter
    · next hstay =>
      rw [if_neg hstay]
      split at henter
      · next hup =>
        rw [if_pos hup]
        exact ih henter
      · next hup =>
        rw [if_neg hup]
        cases hlook : t.look here part with
        | error cause' =>
          rw [hlook] at henter
          unfold look at hlook ⊢
          split at hlook
          · next hlong =>
            rw [if_pos hlong]
            cases hlook
            exact henter
          · cases hlook
        | ok node? =>
          rw [hlook] at henter
          obtain ⟨hshort, hnode⟩ := look_eq_ok_iff.mp hlook
          rcases node? with _ | _ | content
          · cases henter
            exact absurd rfl hcause
          · have hlook' : t'.look here part = .ok (some .directory) :=
              look_eq_ok_iff.mpr ⟨hshort, h.within _ hnode⟩
            rw [hlook']
            exact ih henter
          · obtain ⟨content', hcontent'⟩ := Option.isSome_iff_exists.mp
              (h.files (here ++ [part]) (by rw [content?_eq_some.mpr hnode]; rfl))
            have hlook' : t'.look here part = .ok (some (.file content')) :=
              look_eq_ok_iff.mpr ⟨hshort, content?_eq_some.mp hcontent'⟩
            rw [hlook']
            exact henter

end FileTree
end TableStore
