import TableStore.Proofs.Files.Calls

/-
What a write can change, wherever its path leads.

Before a write come the directories of its path, and making directories adds to a tree without
touching a file.  Paths lead where they led before (`Grows.resolve`), so what is written is what is
read afterwards, also behind other writes that only got as far as their directories.
-/
namespace TableStore

open Stateful

/-- A fault about a file, or about the directory that the file is in. -/
def Fault.Concerns (fault : Fault) (path : String) : Prop :=
  ∃ place ∈ path :: (Path.enclosing path).take 1, ∃ cause, fault = .file place cause

namespace FileTree

def content? (t : FileTree) (names : List String) : Option ByteArray :=
  match t.nodes.get? names with
  | some (.file content) => some content
  | _ => none

theorem content?_eq_some {t : FileTree} {names : List String} {content : ByteArray} :
    t.content? names = some content ↔ t.nodes.get? names = some (.file content) := by
  unfold content?
  rcases t.nodes.get? names with _ | _ | _ <;> simp

/-! ## Directories -/

def Within (t t' : FileTree) : Prop :=
  ∀ names, t.nodes.get? names = some .directory → t'.nodes.get? names = some .directory

/-- The other tree has further directories at most. -/
structure Grows (t t' : FileTree) : Prop where
  within : t.Within t'
  content (names : List String) : t'.content? names = t.content? names

namespace Grows

theorem refl (t : FileTree) : t.Grows t := ⟨fun _ h => h, fun _ => rfl⟩

theorem trans {t₁ t₂ t₃ : FileTree} (h : t₁.Grows t₂) (h' : t₂.Grows t₃) : t₁.Grows t₃ :=
  ⟨fun names hnames => h'.within names (h.within names hnames),
    fun names => (h'.content names).trans (h.content names)⟩

end Grows

section

variable {t t' : FileTree} (h : t.Within t')
include h

theorem Within.enter {here parts last : List String} (henter : t.enter here parts = .ok last) :
    t'.enter here parts = .ok last := by
  induction parts generalizing here with
  | nil => exact henter
  | cons part rest ih =>
    rw [FileTree.enter] at henter ⊢
    split at henter
    · next hstay =>
      rw [if_pos hstay]
      exact ih henter
    · next hstay =>
      rw [if_neg hstay]
      split at henter
      · next hup =>
        rw [if_pos hup]
        exact ih henter
      · next hup =>
        rw [if_neg hup]
        unfold look at henter ⊢
        by_cases hlong : nameLimit < part.utf8ByteSize
        · rw [if_pos hlong] at henter
          cases henter
        · rw [if_neg hlong] at henter ⊢
          split at henter
          · next hthere =>
            rw [h _ (Except.ok.inj hthere)]
            exact ih henter
          · cases henter
          · cases henter
          · cases henter

/-- What a path leads to is found through directories alone. -/
theorem Within.resolve {path : String} {target : Target} (hresolve : t.resolve path = .ok target) :
    t'.resolve path = .ok target := by
  unfold FileTree.resolve at hresolve ⊢
  split at hresolve
  · cases hresolve
  · next hnul =>
    rw [if_neg hnul]
    split at hresolve
    · cases hresolve
    · next hempty =>
      rw [if_neg hempty]
      split at hresolve
      · cases hresolve
      · next hlong =>
        rw [if_neg hlong]
        unfold locate at hresolve ⊢
        split at hresolve
        · exact hresolve
        · obtain ⟨here, henter, hlast⟩ := bind_eq_ok_iff.mp hresolve
          exact bind_eq_ok_iff.mpr ⟨here, h.enter henter, hlast⟩

end

theorem look_eq_ok_iff {t : FileTree} {here : List String} {name : String} {node? : Option Node} :
    t.look here name = .ok node? ↔
      name.utf8ByteSize ≤ nameLimit ∧ t.nodes.get? (here ++ [name]) = node? := by
  unfold look
  by_cases hlong : nameLimit < name.utf8ByteSize
  · rw [if_pos hlong]
    simp only [reduceCtorEq, false_iff, not_and]
    omega
  · rw [if_neg hlong, Except.ok.injEq]
    simp only [Nat.not_lt.mp hlong, true_and]

theorem grows_of_makeDirectory {t t' : FileTree} {path : String}
    (h : t.makeDirectory path = .ok t') : t.Grows t' := by
  obtain ⟨target, -, h⟩ := bind_eq_ok_iff.mp h
  cases target with
  | directory names => cases h
  | entry here name slash =>
    obtain ⟨node?, hlook, h⟩ := bind_eq_ok_iff.mp h
    obtain ⟨-, hnone⟩ := look_eq_ok_iff.mp hlook
    cases node? with
    | some node => cases h
    | none =>
      cases h
      constructor
      · intro names hnames
        rw [put, SortedMap.get?_insert]
        split
        · rfl
        · exact hnames
      · intro names
        rw [content?, content?, put, SortedMap.get?_insert]
        by_cases heq : names = here ++ [name]
        · rw [if_pos heq, heq, hnone]
        · rw [if_neg heq]

/-! ## Files -/

theorem writeFile_eq_ok {t t' : FileTree} {path : String} {content : ByteArray}
    (h : t.writeFile path content = .ok t') :
    ∃ here name, t.resolve path = .ok (.entry here name false) ∧
      name.utf8ByteSize ≤ nameLimit ∧ t.nodes.get? (here ++ [name]) ≠ some .directory ∧
      t' = t.put here name (.file content) := by
  obtain ⟨target, hresolve, h⟩ := bind_eq_ok_iff.mp h
  cases target with
  | directory names => cases h
  | entry here name slash =>
    cases slash with
    | true => cases h
    | false =>
      obtain ⟨node?, hlook, h⟩ := bind_eq_ok_iff.mp h
      obtain ⟨hshort, hnode⟩ := look_eq_ok_iff.mp hlook
      refine ⟨here, name, hresolve, hshort, ?_⟩
      rw [hnode]
      rcases node? with _ | _ | _
      · cases h
        exact ⟨nofun, rfl⟩
      · cases h
      · cases h
        exact ⟨nofun, rfl⟩

theorem within_put {t : FileTree} {here : List String} {name : String} {content : ByteArray}
    (h : t.nodes.get? (here ++ [name]) ≠ some .directory) :
    t.Within (t.put here name (.file content)) := by
  intro names hnames
  rw [put, SortedMap.get?_insert, if_neg]
  · exact hnames
  · intro heq
    rw [heq] at hnames
    exact h hnames

/-- What was written is read, and no other file is touched, also in a tree with further
directories. -/
theorem content_of_writeFile {t t' t'' : FileTree} {path : String} {content : ByteArray}
    (h : t.writeFile path content = .ok t') (hgrows : t'.Grows t'') :
    t''.readFile path = .ok content ∧ ∃ here name, t''.resolve path = .ok (.entry here name false) ∧
      ∀ names, names ≠ here ++ [name] → t''.content? names = t.content? names := by
  obtain ⟨here, name, hresolve, hshort, hnode, rfl⟩ := writeFile_eq_ok h
  have hwithin : t.Within (t.put here name (.file content)) := within_put hnode
  have hwritten : t''.content? (here ++ [name]) = some content := by
    rw [hgrows.content, content?, put, SortedMap.get?_insert, if_pos rfl]
  have hresolved := hgrows.within.resolve (hwithin.resolve hresolve)
  refine ⟨?_, here, name, hresolved, fun names hnames => ?_⟩
  · have hlook : t''.look here name = .ok (some (.file content)) :=
      look_eq_ok_iff.mpr ⟨hshort, content?_eq_some.mp hwritten⟩
    unfold readFile
    rw [hresolved]
    show (t''.look here name >>= _) = _
    rw [hlook]
    rfl
  · rw [hgrows.content, content?, content?, put, SortedMap.get?_insert, if_neg hnames]

theorem makeDirectory_of_isDirectory {t : FileTree} {path : String}
    (h : t.isDirectory path = true) : t.makeDirectory path = .error .alreadyExists := by
  unfold isDirectory at h
  unfold makeDirectory
  cases hresolve : t.resolve path with
  | error cause =>
    rw [hresolve] at h
    cases h
  | ok target =>
    rw [hresolve] at h
    cases target with
    | directory names => rfl
    | entry here name slash =>
      show (t.look here name >>= _) = _
      simp only at h
      split at h
      · next hlook =>
        rw [hlook]
        rfl
      · cases h

end FileTree

namespace Storage.Files

def Growing {α : Type} (x : StateM FileTree α) : Prop := ∀ t : FileTree, t.Grows (run x t).2

theorem Growing.pure {α : Type} (a : α) : Growing (pure a : StateM FileTree α) := FileTree.Grows.refl

theorem Growing.bind {α β : Type} {x : StateM FileTree α} {f : α → StateM FileTree β}
    (hx : Growing x) (hf : ∀ a, Growing (f a)) : Growing (x >>= f) := by
  intro t
  rw [run_bind]
  exact (hx t).trans (hf _ _)

theorem growing_makeDirectory (directory : String) :
    Growing (FileSystem.makeDirectory directory : StateM FileTree _) := by
  intro t
  rw [run_makeDirectory]
  cases h : t.makeDirectory directory with
  | ok t' => exact FileTree.grows_of_makeDirectory h
  | error cause => exact .refl t

theorem growing_settle (directory : String) (cause : OsError) :
    Growing (FileSystem.settle directory cause : StateM FileTree _) := by
  intro t
  rw [run_settle]
  exact .refl t

theorem growing_makeDirectories (directories : List String) :
    Growing (FileSystem.makeDirectories directories : StateM FileTree _) := by
  induction directories with
  | nil => exact .pure _
  | cons directory around ih =>
    by_cases hname : directory = ""
    · subst hname
      exact .pure _
    rw [FileSystem.makeDirectories]
    · refine (growing_makeDirectory directory).bind fun made => ?_
      rcases made with cause | _
      · cases cause with
        | notFound =>
          refine ih.bind fun madeAround => ?_
          rcases madeAround with cause | _
          · exact .pure _
          · refine (growing_makeDirectory directory).bind fun madeThen => ?_
            rcases madeThen with cause | _
            · exact growing_settle directory cause
            · exact .pure _
        | _ => exact growing_settle directory _
      · exact .pure _
    · exact hname

theorem growing_prepare (path : String) : Growing (prepare path : StateM FileTree _) := by
  unfold prepare
  cases Path.enclosing path with
  | nil => exact .pure _
  | cons directory around => exact (growing_makeDirectories _).bind fun _ => .pure _

variable {t t' : FileTree} {path : String}

theorem concerns_of_prepare {fault : Fault}
    (h : run (prepare path : StateM FileTree _) t = (.error fault, t')) : fault.Concerns path := by
  unfold prepare at h
  unfold Fault.Concerns
  cases hpath : Path.enclosing path with
  | nil =>
    rw [hpath, run_pure] at h
    cases h
  | cons directory around =>
    rw [hpath, run_bind, run_pure] at h
    rcases hmade : (run (FileSystem.makeDirectories (directory :: around) :
      StateM FileTree _) t).1 with cause | _
    · rw [hmade] at h
      cases h
      exact ⟨directory, by simp, .os cause, rfl⟩
    · rw [hmade] at h
      cases h

/-- Where the directory of a file is there, nothing has to be made for the file. -/
theorem run_prepare_of_isDirectory
    (h : ∀ directory ∈ (Path.enclosing path).take 1,
      directory = "" ∨ t.isDirectory directory = true) :
    run (prepare path : StateM FileTree _) t = (.ok (), t) := by
  cases hpath : Path.enclosing path with
  | nil =>
    unfold prepare
    rw [hpath, run_pure]
  | cons directory around =>
    by_cases hname : directory = ""
    · subst hname
      unfold prepare
      rw [hpath]
      rfl
    · have hthere : t.isDirectory directory = true := by
        rw [hpath] at h
        exact (h directory (by simp)).resolve_left hname
      have hmade := FileTree.makeDirectory_of_isDirectory hthere
      rw [run_prepare t hpath hname (by rw [hmade]; exact nofun), hmade, hthere]
      rfl

/-! ## Loading, saving and removing -/

theorem concerns_of_decoded {α : Type} {absent : α} {decode : String → Except FileFault α}
    {content : Except OsError ByteArray} {fault : Fault}
    (h : decoded path absent decode content = .error fault) : fault.Concerns path := by
  have hplace (cause : FileFault) : (Fault.file path cause).Concerns path :=
    ⟨path, by simp, cause, rfl⟩
  unfold decoded at h
  split at h
  · cases h
  · cases h
    exact hplace _
  · next bytes =>
    cases htext : String.fromUTF8? bytes with
    | none =>
      rw [htext] at h
      cases h
      exact hplace _
    | some text =>
      rw [htext] at h
      change (decode text).mapError (.file path) = .error fault at h
      cases hdecode : decode text with
      | ok a =>
        rw [hdecode] at h
        cases h
      | error cause =>
        rw [hdecode] at h
        cases h
        exact hplace _

/-- A save that fails leaves directories at most, and none if that of the file was there. -/
theorem save_eq_error {text : String} {fault : Fault}
    (h : run (save path text : StateM FileTree _) t = (.error fault, t')) :
    fault.Concerns path ∧ t.Grows t' ∧
      ((∀ directory ∈ (Path.enclosing path).take 1,
        directory = "" ∨ t.isDirectory directory = true) → t' = t) := by
  have hgrows := growing_prepare path t
  rw [run_save] at h
  rcases hprepare : run (prepare path : StateM FileTree _) t with ⟨fault' | _, t₁⟩
  · rw [hprepare] at h hgrows
    cases h
    refine ⟨concerns_of_prepare hprepare, hgrows, fun hthere => ?_⟩
    rw [run_prepare_of_isDirectory hthere] at hprepare
    cases hprepare
  · rw [hprepare] at h hgrows
    simp only at h
    cases hwrite : t₁.writeFile path text.toUTF8 with
    | ok t₂ =>
      rw [hwrite] at h
      cases h
    | error cause =>
      rw [hwrite] at h
      cases h
      refine ⟨⟨path, by simp, .os cause, rfl⟩, hgrows, fun hthere => ?_⟩
      rw [run_prepare_of_isDirectory hthere] at hprepare
      cases hprepare
      rfl

/-- Behind a save that goes through, also in a tree with further directories, the file has the text
and no other file is touched. -/
theorem save_eq_ok {text : String} (h : run (save path text : StateM FileTree _) t = (.ok (), t'))
    {t'' : FileTree} (hgrows : t'.Grows t'') :
    t''.readFile path = .ok text.toUTF8 ∧
      ∃ here name, t''.resolve path = .ok (.entry here name false) ∧
        ∀ names, names ≠ here ++ [name] → t''.content? names = t.content? names := by
  have hprepared := growing_prepare path t
  rw [run_save] at h
  rcases hprepare : run (prepare path : StateM FileTree _) t with ⟨fault' | _, t₁⟩
  · rw [hprepare] at h
    cases h
  · rw [hprepare] at h hprepared
    simp only at h
    cases hwrite : t₁.writeFile path text.toUTF8 with
    | error cause =>
      rw [hwrite] at h
      cases h
    | ok t₂ =>
      rw [hwrite] at h
      cases h
      obtain ⟨hread, here, name, hresolve, hothers⟩ :=
        FileTree.content_of_writeFile hwrite hgrows
      exact ⟨hread, here, name, hresolve, fun names hnames =>
        (hothers names hnames).trans (hprepared.content names)⟩

theorem remove_eq_error {fault : Fault}
    (h : run (remove path : StateM FileTree _) t = (.error fault, t')) :
    fault.Concerns path ∧ t' = t := by
  rw [run_remove] at h
  cases hremove : t.removeFile path with
  | ok t₁ =>
    rw [hremove] at h
    cases h
  | error cause =>
    rw [hremove] at h
    cases cause <;> cases h <;> exact ⟨⟨path, by simp, _, rfl⟩, rfl⟩

end Storage.Files
end TableStore
