import TableStore.Proofs.Files.PathText

/-
Making the directories of a path.

Asking for a directory settles whether it is there, if the way to it is (`settled_makeDirectory`), and
so does making all the directories around a path: behind it the way to the path is open, or it is
blocked for good (`settled_prepare`).
-/
namespace TableStore

open Stateful

namespace FileTree

/-- In every tree the path leads through `before` to `last`. -/
structure LeadsBy (path : String) (before : List String) (last : String) : Prop where
  resolve (t : FileTree) : t.resolve path = (t.enter [] before).map fun here =>
    if last = ".." then .directory here.dropLast else .entry here last false
  moves : ¬ (last = "" ∨ last = ".")

/-- The way through some parts is open, or it is blocked for good, as `r` says. -/
def Settled {ε : Type} (ps : List String) (t : FileTree) : Except ε Unit → Prop
  | .ok _ => ∃ last, t.enter [] ps = .ok last
  | .error _ => ∃ cause, cause ≠ .notFound ∧ t.enter [] ps = .error cause

theorem enter_put_directory {t : FileTree} {here : List String} {name : String}
    (h : t.enter here [name] = .error .notFound) :
    (t.put here name .directory).enter here [name] = .ok (here ++ [name]) := by
  rw [enter] at h ⊢
  split at h
  · cases h
  · next hmoves =>
    rw [if_neg hmoves]
    split at h
    · cases h
    · next hup =>
      rw [if_neg hup]
      have hlook : (t.put here name .directory).look here name = .ok (some .directory) := by
        unfold look at h ⊢
        by_cases hlong : nameLimit < name.utf8ByteSize
        · rw [if_pos hlong] at h
          cases h
        · rw [if_neg hlong, put, SortedMap.get?_insert, if_pos rfl]
      rw [hlook]
      rfl

namespace LeadsBy

variable {path last : String} {before : List String} (h : LeadsBy path before last) {t : FileTree}
include h

theorem isDirectory_of_enter {here : List String} (henter : t.enter [] (before ++ [last]) = .ok here) :
    t.isDirectory path = true := by
  rw [enter_append] at henter
  obtain ⟨around, hbefore, hlast⟩ := bind_eq_ok_iff.mp henter
  have hresolve := h.resolve t
  rw [hbefore] at hresolve
  unfold isDirectory
  by_cases hup : last = ".."
  · rw [hresolve]
    simp only [Except.map, if_pos hup]
  · rw [hresolve]
    simp only [Except.map, if_neg hup]
    rw [enter, if_neg h.moves, if_neg hup] at hlast
    split at hlast
    · next hlook => rw [hlook]
    · cases hlast
    · cases hlast
    · cases hlast

theorem isDirectory_of_error {cause : OsError}
    (henter : t.enter [] (before ++ [last]) = .error cause) : t.isDirectory path = false := by
  have hresolve := h.resolve t
  unfold isDirectory
  rw [enter_append] at henter
  cases hway : t.enter [] before with
  | error cause' =>
    rw [hresolve, hway]
    rfl
  | ok here =>
    rw [hway] at henter hresolve
    change t.enter here [last] = .error cause at henter
    rw [enter, if_neg h.moves] at henter
    by_cases hup : last = ".."
    · rw [if_pos hup] at henter
      cases henter
    · rw [if_neg hup] at henter
      rw [hresolve]
      simp only [Except.map, if_neg hup]
      split
      · next hlook =>
        rw [hlook] at henter
        cases henter
      · rfl

/-- Asking for a directory is refused where the way to it is blocked, and where it is there. -/
theorem makeDirectory_eq (t : FileTree) :
    t.makeDirectory path =
      match t.enter [] before with
      | .error cause => .error cause
      | .ok here =>
        match t.enter here [last] with
        | .ok _ => .error .alreadyExists
        | .error .notFound => .ok (t.put here last .directory)
        | .error .notDirectory => .error .alreadyExists
        | .error cause => .error cause := by
  have hresolve := h.resolve t
  unfold makeDirectory
  cases hway : t.enter [] before with
  | error cause =>
    rw [hresolve, hway]
    rfl
  | ok here =>
    rw [hway] at hresolve
    rw [hresolve]
    by_cases hup : last = ".."
    · simp only [Except.map, if_pos hup, enter, if_neg h.moves]
      rfl
    · simp only [Except.map, if_neg hup, enter, if_neg h.moves]
      show (t.look here last >>= _) = _
      unfold look
      split
      · rfl
      · rcases t.nodes.get? (here ++ [last]) with _ | _ | _ <;> rfl

/-- Where the way to a directory's name is not missing, asking for the directory settles whether it
is there. -/
theorem settled_makeDirectory (hbefore : t.enter [] before ≠ .error .notFound) :
    t.makeDirectory path ≠ .error .notFound ∧
      match t.makeDirectory path with
      | .ok t' => Settled (before ++ [last]) t' (.ok () : Except OsError Unit)
      | .error cause =>
        Settled (before ++ [last]) t (if t.isDirectory path then .ok () else .error cause) := by
  have hmake := h.makeDirectory_eq t
  cases hway : t.enter [] before with
  | error cause =>
    have hcause : cause ≠ .notFound := fun heq => hbefore (hway.trans (congrArg Except.error heq))
    have hboth : t.enter [] (before ++ [last]) = .error cause := by
      rw [enter_append, hway]
      rfl
    simp only [hway] at hmake
    rw [hmake, h.isDirectory_of_error hboth]
    exact ⟨by simpa using hcause, cause, hcause, hboth⟩
  | ok here =>
    have hboth : t.enter [] (before ++ [last]) = t.enter here [last] := by
      rw [enter_append, hway]
      rfl
    cases hlast : t.enter here [last] with
    | ok there =>
      rw [hlast] at hboth
      simp only [hway, hlast] at hmake
      rw [hmake, h.isDirectory_of_enter hboth]
      exact ⟨nofun, there, hboth⟩
    | error cause =>
      rw [hlast] at hboth
      simp only [hway, hlast] at hmake
      by_cases hcause : cause = .notFound
      · subst hcause
        rw [hmake]
        have hgrows := grows_of_makeDirectory hmake
        refine ⟨nofun, here ++ [last], ?_⟩
        rw [enter_append, hgrows.within.enter hway]
        exact enter_put_directory hlast
      · have hblocked : t.makeDirectory path = .error .alreadyExists ∨
            t.makeDirectory path = .error cause := by
          cases cause <;> first | exact absurd rfl hcause | exact .inl hmake | exact .inr hmake
        have hsettled : Settled (before ++ [last]) t (.error cause) := ⟨cause, hcause, hboth⟩
        rcases hblocked with hmake | hmake
        · rw [hmake, h.isDirectory_of_error hboth]
          exact ⟨nofun, hsettled⟩
        · rw [hmake, h.isDirectory_of_error hboth]
          exact ⟨by simpa using hcause, hsettled⟩

/-- A second attempt and a look settle it too. -/
theorem settled_of_attempt (hbefore : t.enter [] before ≠ .error .notFound) {t' : FileTree}
    {r : Except OsError Unit}
    (hattempt : (match t.makeDirectory path with
      | .ok t' => (.ok (), t')
      | .error cause => (if t.isDirectory path then .ok () else .error cause, t)) = (r, t')) :
    Settled (before ++ [last]) t' r := by
  obtain ⟨-, hsettled⟩ := h.settled_makeDirectory hbefore
  cases hmake : t.makeDirectory path with
  | ok t₁ =>
    rw [hmake] at hattempt hsettled
    cases hattempt
    exact hsettled
  | error cause =>
    rw [hmake] at hattempt hsettled
    cases hattempt
    exact hsettled

end LeadsBy

end FileTree

namespace Storage.Files

open FileTree TableStore.Path

theorem enter_append_stays {part : List Char} (hpart : staysPut part = true) (t : FileTree)
    (here ps : List String) :
    t.enter here (ps ++ [String.ofList part]) = t.enter here ps := by
  have hstay : String.ofList part = "" ∨ String.ofList part = "." := by
    rcases (by simpa [staysPut] using hpart : part = [] ∨ part = ['.']) with rfl | rfl
    · exact .inl rfl
    · exact .inr rfl
  rw [enter_append]
  cases t.enter here ps with
  | error cause => rfl
  | ok last =>
    show t.enter last [String.ofList part] = _
    rw [enter, if_pos hstay]
    rfl

/-- The directory that the climb comes to next leads through its parts. -/
theorem leadsBy_of_climbs {start part : List Char} {reversed : List (List Char)}
    (h : Climbs start (part :: reversed)) (hpart : staysPut part = false) :
    LeadsBy (textOf start (reversed.reverse ++ [part])) (reversed.reverse.map String.ofList)
      (String.ofList part) := by
  have hmoves := ofList_of_moves hpart
  have hne : part ≠ [] := fun heq => hmoves (.inl (by rw [heq]))
  have hstarts := h.starts
  rw [List.reverse_cons] at hstarts
  obtain ⟨front, hparts, henter⟩ := hstarts.exists_before
    (fun p hp => h.noSlash p (by simpa [or_comm] using hp)) hne
  have husable := h.usable _ (climb_cons hpart start reversed ▸ List.mem_cons_self)
  refine ⟨fun t => ?_, hmoves⟩
  rw [resolve_of_parts hparts (not_or.mp hmoves).1 (not_or.mp hmoves).2,
    husable.resolve_left (textOf_ne_empty hpart _ _), henter]

theorem settled_makeDirectories {start : List Char} {reversed : List (List Char)}
    (hclimbs : Climbs start reversed) {t t' : FileTree} {r : Except OsError Unit}
    (h : run (FileSystem.makeDirectories (climb start reversed) : StateM FileTree _) t = (r, t')) :
    Settled (reversed.reverse.map String.ofList) t' r := by
  induction reversed generalizing t t' r with
  | nil =>
    have hok : r = .ok () := by
      cases hclimbs.starts with
      | relative => exact (congrArg Prod.fst h).symm
      | absolute => exact (congrArg Prod.fst h).symm
      | dotted => exact (congrArg Prod.fst h).symm
    rw [hok]
    exact ⟨[], rfl⟩
  | cons part reversed ih =>
    rw [List.reverse_cons, List.map_append, List.map_singleton]
    cases hpart : staysPut part with
    | true =>
      rw [climb_cons_of_stays hpart] at h
      unfold Settled
      rw [enter_append_stays hpart]
      exact ih hclimbs.below h
    | false =>
      have hleads := leadsBy_of_climbs hclimbs hpart
      have hne := textOf_ne_empty hpart start reversed.reverse
      rw [climb_cons hpart] at h
      by_cases hbefore : t.enter [] (reversed.reverse.map String.ofList) = .error .notFound
      · have hmake := hleads.makeDirectory_eq t
        rw [hbefore] at hmake
        rw [FileSystem.makeDirectories, run_bind, run_makeDirectory, hmake] at h
        · simp only [run_bind] at h
          rcases haround : run (FileSystem.makeDirectories (climb start reversed) :
            StateM FileTree _) t with ⟨made, t₁⟩
          have hsettled := ih hclimbs.below haround
          rw [haround] at h
          cases made with
          | error cause =>
            cases h
            obtain ⟨cause', hcause, henter⟩ := hsettled
            refine ⟨cause', hcause, ?_⟩
            rw [enter_append, henter]
            rfl
          | ok _ =>
            obtain ⟨here, henter⟩ := hsettled
            simp only [run_bind, run_makeDirectory] at h
            have hopen : t₁.enter [] (reversed.reverse.map String.ofList) ≠ .error .notFound := by
              rw [henter]
              simp
            refine hleads.settled_of_attempt hopen ?_
            rw [← h]
            cases t₁.makeDirectory (textOf start (reversed.reverse ++ [part])) with
            | ok t₂ => rfl
            | error cause => exact (run_settle t₁ _ cause).symm
        · exact hne
      · rw [run_makeDirectories t hne (hleads.settled_makeDirectory hbefore).1] at h
        exact hleads.settled_of_attempt hbefore h

section

variable {path last : String} {before : List String} (hparts : Path.parts path = before ++ [last])
  (hmoves : ¬ (last = "" ∨ last = ".")) (husable : refused? path = none) {t : FileTree}
include hparts hmoves husable

/-- Before a file is written the way to it is open, or else it is blocked and the write has failed. -/
theorem settled_prepare {t' : FileTree} {r : Except Fault Unit}
    (h : run (prepare path : StateM FileTree _) t = (r, t')) : Settled before t' r := by
  obtain ⟨start, reversed, henclosing, hclimbs, henter⟩ :=
    exists_enclosing hparts hmoves husable
  unfold prepare at h
  cases hdirectories : climb start reversed with
  | nil => exact absurd hdirectories (climb_ne_nil _ _)
  | cons directory around =>
    rw [henclosing, hdirectories] at h
    simp only [run_bind, run_pure] at h
    rcases hmake : run (FileSystem.makeDirectories (directory :: around) : StateM FileTree _) t with
      ⟨made, t₁⟩
    have hsettled := settled_makeDirectories hclimbs (hdirectories ▸ hmake)
    rw [hmake] at h
    cases h
    unfold Settled at hsettled ⊢
    simp only [henter] at hsettled
    cases made with
    | ok _ => exact hsettled
    | error cause => exact hsettled

end

end Storage.Files
end TableStore
