import Mathlib.Control.Monad.Basic
import TableStore.Proofs.FaultyRun
import TableStore.Proofs.Files.Writes
import TableStore.Proofs.TableCommands

/-
What a failed command on a table leaves behind.

Making or dropping a table saves the registry first and settles the table's rows afterwards.  If the
storage gives way before the second of the two writes, nothing has changed; if it gives way at that
write, the registry is already the new one and stays so.  The rows of all tables are as they were in
either case.  Which of the two it was shows in memory by the kind of call that failed, and in files by
the path that the fault names.
-/
namespace TableStore

open Stateful

namespace Memory

theorem writes_of_target {statement : Statement} {name : String}
    (htarget : statement.target? = some name) {s after : Snapshot} {outcome : Outcome}
    (h : statement.execute s = .ok (outcome, after)) :
    outcome.writes.head? = some .saveSchema ∧ outcome.writes[1]? = statement.lastWrite? ∧
      statement.Rewrites s.schema after.schema := by
  cases statement with
  | createTable table declarations =>
    obtain ⟨hname, -, t, schema, ht, hcreate, rfl, rfl⟩ := Snapshot.createTable_eq_ok_iff.mp h
    exact ⟨rfl, rfl, .create hname ht hcreate⟩
  | dropTable table =>
    obtain ⟨t, schema, hdrop, rfl, rfl⟩ := Snapshot.dropTable_eq_ok_iff.mp h
    exact ⟨rfl, rfl, .drop hdrop⟩
  | _ => cases htarget

/-- Over memory, the registry is new exactly if the second write is the call that failed. -/
theorem half_done {statement : Statement} {name : String}
    (htarget : statement.target? = some name) {armed armed' : Option CallKind}
    {memory memory' : Memory} {fault : Fault}
    (h : Cycle armed memory statement (.error fault) armed' memory') :
    memory'.rows = memory.rows ∧
      if armed = statement.lastWrite? ∧ armed' = none then
        statement.Rewrites memory.schema memory'.schema
      else memory'.schema = memory.schema := by
  obtain ⟨last, hlast, hload, hrows, hsave⟩ := Statement.lastWrite?_of_target htarget
  -- Whatever failed before the last write was something else.
  have hearlier {kind : CallKind} (hne : last ≠ kind) :
      ¬ (some kind = statement.lastWrite? ∧ none = (none : Option CallKind)) := by
    intro h
    have heq := h.1
    rw [hlast] at heq
    exact hne (Option.some.inj heq).symm
  cases h with
  | unread harmed hkind =>
    refine ⟨rfl, ?_⟩
    rw [harmed, if_neg]
    rcases hkind with rfl | rfl
    · exact hearlier hload
    · exact hearlier hrows
  | refused he =>
    refine ⟨rfl, ?_⟩
    rw [if_neg]
    intro h
    obtain ⟨heq, hnone⟩ := h
    rw [hnone, hlast] at heq
    cases heq
  | unsaved harmed he ho hkind =>
    refine ⟨rfl, ?_⟩
    rw [(writes_of_target htarget he).1] at hkind
    rw [harmed, ← hkind, if_neg (hearlier hsave)]
  | halfSaved harmed he ho hkind =>
    obtain ⟨-, hsecond, hrewrites⟩ := writes_of_target htarget he
    refine ⟨rfl, ?_⟩
    rw [harmed, ← hkind, hsecond, if_pos ⟨rfl, rfl⟩]
    exact hrewrites

end Memory

namespace FileTree

open Storage.Files

/-- A registry that was saved is the one that is loaded, whatever directories are made behind it, and
no other file is touched. -/
theorem loadSchema_of_saveSchema {c : Config} {t t₁ t' : FileTree} {schema : Schema}
    (hschema : schema.Valid)
    (hsave : run (save c.schemaPath (schema.toJson .pretty) : StateM FileTree _) t = (.ok (), t₁))
    (hgrows : t₁.Grows t') :
    run (Storage.loadSchema : Stored (Except Fault Schema)) (c, t') = (.ok schema, c, t') ∧
      ∃ here last, t'.resolve c.schemaPath = .ok (.entry here last false) ∧
        ∀ names, names ≠ here ++ [last] → t'.content? names = t.content? names := by
  obtain ⟨hread, hothers⟩ := save_eq_ok hsave hgrows
  refine ⟨?_, hothers⟩
  rw [run_loadSchema, hread, decoded_toUTF8, Schema.ofJson_toJson hschema]
  rfl

/-- What a failed command on the table `name` leaves of a tree. -/
inductive LeftBy (statement : Statement) (name : String) (fault : Fault) (c : Config)
    (t t' : FileTree) : Prop where
  /-- The registry was not loaded, the command was refused, or the registry was not saved: every
  file is as it was, and everything is if the directory of the registry was there. -/
  | unchanged
    (hfault : fault.Concerns c.schemaPath ∨ ∃ schema,
      run (Storage.loadSchema : Stored (Except Fault Schema)) (c, t) = (.ok schema, c, t) ∧
      statement.execute ⟨schema, .empty⟩ = .error fault)
    (hcontent : ∀ names, t'.content? names = t.content? names)
    (hsame : (∀ directory ∈ (Path.enclosing c.schemaPath).take 1,
      directory = "" ∨ t.isDirectory directory = true) → t' = t) :
    LeftBy statement name fault c t t'
  /-- The rows were not settled: the registry is the new one, and every other file is as it was. -/
  | halfDone {schema schema' : Schema} {here : List String} {last : String}
    (hfault : fault.Concerns (c.tablePath name))
    (hload : run (Storage.loadSchema : Stored (Except Fault Schema)) (c, t) = (.ok schema, c, t))
    (hrewrites : statement.Rewrites schema schema')
    (hreload : run (Storage.loadSchema : Stored (Except Fault Schema)) (c, t') =
      (.ok schema', c, t'))
    (hregistry : t'.resolve c.schemaPath = .ok (.entry here last false))
    (hothers : ∀ names, names ≠ here ++ [last] → t'.content? names = t.content? names) :
    LeftBy statement name fault c t t'

/-- Once the new registry is saved, a command can only be left half done. -/
theorem leftBy_of_saved {statement : Statement} {name : String} {c : Config} {t : FileTree}
    {schema schema' : Schema} {w₁ w₂ : Config × FileTree}
    (hload : run (Storage.loadSchema : Stored (Except Fault Schema)) (c, t) = (.ok schema, w₁))
    (hrewrites : statement.Rewrites schema schema')
    (hsave : run (Storage.saveSchema schema' : Stored (Except Fault Unit)) w₁ = (.ok (), w₂)) :
    ∃ t₁, w₂ = (c, t₁) ∧ ∀ {t' : FileTree} {fault : Fault}, fault.Concerns (c.tablePath name) →
      t₁.Grows t' → LeftBy statement name fault c t t' := by
  have hsame := hload
  rw [run_loadSchema, Prod.mk.injEq] at hsame
  obtain ⟨hdecoded, rfl⟩ := hsame
  have hvalid := hrewrites.valid (valid_of_decoded hdecoded)
  rw [run_saveSchema, Prod.mk.injEq] at hsave
  obtain ⟨hsaved, rfl⟩ := hsave
  refine ⟨_, rfl, fun {t'} {fault} hconcerns hgrows => ?_⟩
  obtain ⟨hreload, here, last, hregistry, hothers⟩ :=
    loadSchema_of_saveSchema hvalid (Prod.ext hsaved rfl) hgrows
  exact .halfDone hconcerns hload hrewrites hreload hregistry hothers

theorem leftBy_of_stopped {statement : Statement} {name : String} {c c' : Config} {t t' : FileTree}
    {fault : Fault} (h : Storage.Stopped Stored statement name (c, t) fault (c', t')) :
    c' = c ∧ LeftBy statement name fault c t t' := by
  cases h with
  | unread hload =>
    rw [run_loadSchema, Prod.mk.injEq, Prod.mk.injEq] at hload
    obtain ⟨hdecoded, rfl, rfl⟩ := hload
    exact ⟨rfl, .unchanged (.inl (concerns_of_decoded hdecoded)) (fun _ => rfl) fun _ => rfl⟩
  | refused hload he =>
    rename_i schema
    have hsame := hload
    rw [run_loadSchema, Prod.mk.injEq, Prod.mk.injEq] at hsame
    obtain ⟨-, rfl, rfl⟩ := hsame
    exact ⟨rfl, .unchanged (.inr ⟨schema, hload, he⟩) (fun _ => rfl) fun _ => rfl⟩
  | unsaved hload hrewrites hsave =>
    rw [run_loadSchema, Prod.mk.injEq, Prod.mk.injEq] at hload
    obtain ⟨-, rfl, rfl⟩ := hload
    rw [run_saveSchema, Prod.mk.injEq, Prod.mk.injEq] at hsave
    obtain ⟨hfault, rfl, ht'⟩ := hsave
    obtain ⟨hconcerns, hgrows, hsame⟩ := save_eq_error (Prod.ext hfault ht')
    exact ⟨rfl, .unchanged (.inl hconcerns) hgrows.content hsame⟩
  | rowsUnsaved hload hrewrites ht hsave hrows =>
    obtain ⟨t₁, rfl, hleft⟩ := leftBy_of_saved hload hrewrites hsave
    rw [run_saveRows, ht, Prod.mk.injEq, Prod.mk.injEq] at hrows
    obtain ⟨hfault, rfl, ht'⟩ := hrows
    obtain ⟨hconcerns, hgrows, -⟩ := save_eq_error (Prod.ext hfault ht')
    exact ⟨rfl, hleft hconcerns hgrows⟩
  | rowsKept hload hrewrites hsave hrows =>
    obtain ⟨t₁, rfl, hleft⟩ := leftBy_of_saved hload hrewrites hsave
    rw [run_deleteRows, Prod.mk.injEq, Prod.mk.injEq] at hrows
    obtain ⟨hfault, rfl, ht'⟩ := hrows
    obtain ⟨hconcerns, rfl⟩ := remove_eq_error (Prod.ext hfault ht')
    exact ⟨rfl, hleft hconcerns (.refl _)⟩

end FileTree

/-- A failed command on a table leaves the session and the rows of all tables as they were.  It
leaves the registry as it was too, unless what failed is the second of its two writes, the one that
settles the rows; then the registry is the one that the command makes of it. -/
theorem failed_table_command {step : Step} {statement : Statement} {name : String}
    (hstep : step.statement? = some statement) (htarget : statement.target? = some name) :
    (∀ (s s' : Session) (w w' : Watch) (memory memory' : Memory) (fault : Fault),
      Session.act Memory.Watched step (s, w, memory) = (.error fault, s', w', memory') →
      s' = s ∧ memory'.rows = memory.rows ∧
        if w.armed = statement.lastWrite? ∧ w'.armed = none then
          statement.Rewrites memory.schema memory'.schema
        else memory'.schema = memory.schema) ∧
    ∀ (s s' : Session) (c c' : Config) (t t' : FileTree) (fault : Fault),
      Session.act FileTree.Stored step (s, c, t) = (.error fault, s', c', t') →
      s' = s ∧ c' = c ∧ FileTree.LeftBy statement name fault c t t' := by
  constructor
  · intro s s' w w' memory memory' fault h
    obtain ⟨hs, hrun⟩ := Session.cycle_of_error hstep htarget h
    have hcycle := Memory.cycle_run statement w memory
    rw [hrun] at hcycle
    exact ⟨hs, Memory.half_done htarget hcycle⟩
  · intro s s' c c' t t' fault h
    obtain ⟨hs, hrun⟩ := Session.cycle_of_error hstep htarget h
    exact ⟨hs, FileTree.leftBy_of_stopped (Storage.stopped_of_cycle htarget hrun)⟩

/-- The second write fails for a table that is dropped in memory, and for one that is made under a
name that no file can have. -/
theorem failed_table_command_at_second_write :
    let memory : Memory := ⟨⟨[.blank "t"]⟩, .singleton "t" (.singleton 1 .empty)⟩
    let create := Statement.createTable "\x00" ["v:int"]
    (∃ s' w' memory',
      Session.act Memory.Watched (.line "drop_table t")
        (.start true, ⟨some .deleteRows, []⟩, memory) =
          (.error (Watch.injected .deleteRows), s', w', memory') ∧
      memory'.rows = memory.rows ∧
      (Statement.dropTable "t").Rewrites memory.schema memory'.schema) ∧
    ∃ s' c' t',
      Session.act FileTree.Stored (.statement create) (.start true, {}, .empty) =
        (.error (.file "./data/\x00.json" (.os .nulInPath)), s', c', t') ∧
      FileTree.LeftBy create "\x00" (.file "./data/\x00.json" (.os .nulInPath)) {} .empty t' := by
  intro memory create
  constructor
  · have hline : Step.statement? (.line "drop_table t") = some (.dropTable "t") := by decide +kernel
    have hfault : (Session.act Memory.Watched (.line "drop_table t")
        (.start true, ⟨some .deleteRows, []⟩, memory)).1 = .error (Watch.injected .deleteRows) ∧
        (Session.act Memory.Watched (.line "drop_table t")
          (.start true, ⟨some .deleteRows, []⟩, memory)).2.2.1.armed = none := by
      decide +kernel
    rcases hact : Session.act Memory.Watched (.line "drop_table t")
      (.start true, ⟨some .deleteRows, []⟩, memory) with ⟨reply, s', w', memory'⟩
    rw [hact] at hfault
    obtain ⟨rfl, hnone⟩ := hfault
    obtain ⟨-, hrows, hschema⟩ := (failed_table_command hline rfl).1 _ _ _ _ _ _ _ hact
    rw [if_pos ⟨rfl, hnone⟩] at hschema
    exact ⟨s', w', memory', hact, hrows, hschema⟩
  · have hfault : (Session.act FileTree.Stored (.statement create) (.start true, {}, .empty)).1 =
        .error (.file "./data/\x00.json" (.os .nulInPath)) := by
      decide +kernel
    rcases hact : Session.act FileTree.Stored (.statement create) (.start true, {}, .empty) with
      ⟨reply, s', c', t'⟩
    rw [hact] at hfault
    cases hfault
    have hstep : Step.statement? (.statement create) = some create := rfl
    obtain ⟨-, -, hleft⟩ := (failed_table_command hstep rfl).2 _ _ _ _ _ _ _ hact
    exact ⟨s', c', t', hact, hleft⟩

/-- So such a command is not undone when it fails: a dropped table is gone, and a new one is there. -/
theorem failed_table_command_not_undone :
    let drop := Session.act Memory.Watched (.statement (.dropTable "t"))
      (.start false, ⟨some .deleteRows, []⟩, ⟨⟨[.blank "t"]⟩, .empty⟩)
    let create := Session.act FileTree.Stored (.statement (.createTable "\x00" ["v:int"]))
      (.start false, {}, .empty)
    drop.1 = .error (Watch.injected .deleteRows) ∧ drop.2.2.2.schema ≠ ⟨[.blank "t"]⟩ ∧
      create.1 = .error (.file "./data/\x00.json" (.os .nulInPath)) ∧
      (run (Storage.loadSchema : FileTree.Stored (Except Fault Schema)) create.2.2).1 ≠
        (run (Storage.loadSchema : FileTree.Stored (Except Fault Schema)) ({}, .empty)).1 := by
  decide +kernel

end TableStore
