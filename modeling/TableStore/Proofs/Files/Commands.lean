import TableStore.Proofs.Files.Writes
import TableStore.Proofs.TableCommands

/-
What a statement does to a tree of files.

Loading leaves a tree as it is, so all that a statement does to the tree is what it saves and removes:
`FileTree.Writes` lists it, the file of the registry first and a table's file after it.
-/
namespace TableStore

open Stateful Storage.Files

namespace FileTree

/-- The registry that a tree keeps. -/
def registry (c : Config) (t : FileTree) : Except Fault Schema :=
  (run (Storage.loadSchema : Stored (Except Fault Schema)) (c, t)).1

/-- The rows that a tree keeps for a table. -/
def rows (c : Config) (t : FileTree) (table : String) : Except Fault Rows :=
  (run (Storage.loadRows table : Stored (Except Fault Rows)) (c, t)).1

theorem registry_eq (c : Config) (t : FileTree) :
    t.registry c = decoded c.schemaPath .empty Schema.ofJson (t.readFile c.schemaPath) := by
  rw [registry, run_loadSchema]

theorem rows_eq (c : Config) (t : FileTree) (table : String) :
    t.rows c table = decoded (c.tablePath table) .empty Rows.ofJson (t.readFile (c.tablePath table)) := by
  rw [rows, run_loadRows]

/-- A call that saves text, or removes a file, from one tree to another. -/
def Saves (path text : String) (t : FileTree) (r : Except Fault Unit) (t' : FileTree) : Prop :=
  run (save path text : StateM FileTree _) t = (r, t')

def Removes (path : String) (t : FileTree) (r : Except Fault Unit) (t' : FileTree) : Prop :=
  run (remove path : StateM FileTree _) t = (r, t')

theorem Saves.cases {path text : String} {t t' : FileTree} {r : Except Fault Unit}
    (h : Saves path text t r t') :
    (∃ fault, r = .error fault ∧
      run (prepare path : StateM FileTree _) t = (.error fault, t')) ∨
    ∃ t₁, run (prepare path : StateM FileTree _) t = (.ok (), t₁) ∧
      ((∃ cause, t₁.writeFile path text.toUTF8 = .error cause ∧
        r = .error (.file path (.os cause)) ∧ t' = t₁) ∨
      (t₁.writeFile path text.toUTF8 = .ok t' ∧ r = .ok ())) := by
  unfold Saves at h
  rw [run_save] at h
  rcases hprepare : run (prepare path : StateM FileTree _) t with ⟨fault | _, t₁⟩
  · rw [hprepare] at h
    cases h
    exact .inl ⟨fault, rfl, rfl⟩
  · rw [hprepare] at h
    simp only at h
    cases hwrite : t₁.writeFile path text.toUTF8 with
    | error cause =>
      rw [hwrite] at h
      cases h
      exact .inr ⟨_, rfl, .inl ⟨cause, hwrite, rfl, rfl⟩⟩
    | ok t₂ =>
      rw [hwrite] at h
      cases h
      exact .inr ⟨_, rfl, .inr ⟨hwrite, rfl⟩⟩

theorem Removes.cases {path : String} {t t' : FileTree} {r : Except Fault Unit}
    (h : Removes path t r t') : t' = t ∨ t.removeFile path = .ok t' := by
  unfold Removes at h
  rw [run_remove] at h
  cases hremove : t.removeFile path with
  | ok t₁ =>
    rw [hremove] at h
    cases h
    exact .inr rfl
  | error cause =>
    rw [hremove] at h
    cases cause <;> cases h <;> exact .inl rfl

theorem valid_of_registry {c : Config} {t : FileTree} {schema : Schema}
    (h : t.registry c = .ok schema) : schema.Valid := by
  rw [registry_eq] at h
  exact valid_of_decoded h

theorem registry_of_saves {c : Config} {t t' : FileTree} {schema : Schema} (hschema : schema.Valid)
    (h : Saves c.schemaPath (schema.toJson .pretty) t (.ok ()) t') : t'.registry c = .ok schema := by
  rw [registry_eq, (save_eq_ok h (.refl t')).1, decoded_toUTF8, Schema.ofJson_toJson hschema]
  rfl

/-- The files that a statement writes, in a store with the registry `schema`. -/
inductive Writes (c : Config) (schema : Schema) (t : FileTree) :
    Statement → Except Fault Unit → FileTree → Prop where
  | unsaved {statement : Statement} {schema' : Schema} {fault : Fault} {t' : FileTree}
    (hrewrites : statement.Rewrites schema schema')
    (hsave : Saves c.schemaPath (schema'.toJson .pretty) t (.error fault) t') :
    Writes c schema t statement (.error fault) t'
  | made {name : String} {declarations : List String} {table : Table} {schema' : Schema}
    {t₁ t' : FileTree} {r : Except Fault Unit} (hname : Snapshot.validName name = true)
    (htable : table.name = name) (hcreate : schema.create table = .ok schema')
    (hsave : Saves c.schemaPath (schema'.toJson .pretty) t (.ok ()) t₁)
    (hrows : Saves (c.tablePath name) (Rows.toJson .pretty table.columns .empty) t₁ r t') :
    Writes c schema t (.createTable name declarations) r t'
  | dropped {name : String} {table : Table} {schema' : Schema} {t₁ t' : FileTree}
    {r : Except Fault Unit} (hdrop : schema.drop? name = some (table, schema'))
    (hsave : Saves c.schemaPath (schema'.toJson .pretty) t (.ok ()) t₁)
    (hremove : Removes (c.tablePath name) t₁ r t') :
    Writes c schema t (.dropTable name) r t'
  | changed {statement : Statement} {name : String} {table : Table} {rows : Rows} {t' : FileTree}
    {r : Except Fault Unit} (hname : statement.dataTable? = some name)
    (htable : schema.table? name = some table)
    (hsave : Saves (c.tablePath name) (Rows.toJson .pretty table.columns rows) t r t') :
    Writes c schema t statement r t'

theorem run_fetch {statement : Statement} {c : Config} {t : FileTree} {r : Except Fault Snapshot}
    {w : Config × FileTree}
    (h : run (Storage.fetch statement : ExceptT Fault Stored Snapshot).run (c, t) = (r, w)) :
    w = (c, t) ∧ ∀ s, r = .ok s → t.registry c = .ok s.schema := by
  unfold Storage.fetch at h
  rw [run_exceptT_bind, ExceptT.run_mk, run_loadSchema, ← registry_eq] at h
  cases hload : t.registry c with
  | error fault =>
    rw [hload] at h
    cases h
    exact ⟨rfl, nofun⟩
  | ok schema =>
    rw [hload] at h
    have hnone {rows : Rows} (h : run (pure ⟨schema, rows⟩ : ExceptT Fault Stored Snapshot).run
        (c, t) = (r, w)) : w = (c, t) ∧ ∀ s, r = .ok s →
          (Except.ok schema : Except Fault Schema) = .ok s.schema := by
      rw [run_exceptT_pure] at h
      cases h
      exact ⟨rfl, fun s hs => by cases hs; rfl⟩
    simp only at h
    cases hdata : statement.dataTable? with
    | none =>
      rw [hdata] at h
      exact hnone h
    | some table =>
      rw [hdata] at h
      simp only at h
      split at h
      · rw [run_exceptT_bind, ExceptT.run_mk, run_loadRows, ← rows_eq] at h
        cases hrows : t.rows c table with
        | error fault =>
          rw [hrows] at h
          cases h
          exact ⟨rfl, nofun⟩
        | ok rows =>
          rw [hrows] at h
          exact hnone h
      · exact hnone h

theorem run_keep {c : Config} {t : FileTree} {s : Snapshot} {name : String} {rows : Rows}
    {table : Table} (htable : s.schema.table? name = some table) {r : Except Fault Unit}
    {w : Config × FileTree}
    (h : run (Storage.keep s name rows : ExceptT Fault Stored Unit).run (c, t) = (r, w)) :
    ∃ t', w = (c, t') ∧ Saves (c.tablePath name) (Rows.toJson .pretty table.columns rows) t r t' := by
  unfold Storage.keep at h
  rw [run_exceptT_bind, run_exceptT_mk_pure, Snapshot.table_eq_ok_iff.mpr htable] at h
  simp only [ExceptT.run_mk, run_saveRows, (Schema.table?_eq_some htable).2] at h
  cases h
  exact ⟨_, rfl, Prod.ext rfl rfl⟩

/-- The registry is saved first, and what comes behind that is done only if it could be. -/
theorem run_saveSchema_bind {c : Config} {t : FileTree} {schema : Schema}
    {rest : ExceptT Fault Stored Unit} {r : Except Fault Unit} {w : Config × FileTree}
    (h : run (ExceptT.mk (Storage.saveSchema schema) >>= fun _ => rest : ExceptT Fault Stored Unit).run
      (c, t) = (r, w)) :
    (∃ fault t₁, Saves c.schemaPath (schema.toJson .pretty) t (.error fault) t₁ ∧
      r = .error fault ∧ w = (c, t₁)) ∨
    ∃ t₁, Saves c.schemaPath (schema.toJson .pretty) t (.ok ()) t₁ ∧
      run rest.run (c, t₁) = (r, w) := by
  rw [run_exceptT_bind, ExceptT.run_mk, run_saveSchema] at h
  rcases hsave : run (save c.schemaPath (schema.toJson .pretty) : StateM FileTree _) t with
    ⟨fault | _, t₁⟩
  · rw [hsave] at h
    cases h
    exact .inl ⟨fault, t₁, hsave, rfl, rfl⟩
  · rw [hsave] at h
    exact .inr ⟨t₁, hsave, h⟩

/-- Where a statement changes something, storing it writes files. -/
theorem writes_of_store {c : Config} {t : FileTree} {statement : Statement} {s after : Snapshot}
    {outcome : Outcome} {r : Except Fault Unit} {w : Config × FileTree}
    (hchange : Snapshot.Change s statement outcome after)
    (h : run (Storage.store outcome after : ExceptT Fault Stored Unit).run (c, t) = (r, w)) :
    ∃ t', w = (c, t') ∧ Writes c s.schema t statement r t' := by
  cases hchange with
  | create hname htable hcreate =>
    rename_i name declarations table schema'
    have hnamed := Declaration.table_name htable
    have hfound : schema'.table? name = some table := by
      rw [Schema.table?_create hcreate, hnamed, if_pos rfl]
    rcases run_saveSchema_bind h with ⟨fault, t₁, hsave, rfl, rfl⟩ | ⟨t₁, hsave, h⟩
    · exact ⟨t₁, rfl, .unsaved (.create hname htable hcreate) hsave⟩
    · obtain ⟨t', hw, hrows⟩ := run_keep hfound h
      exact ⟨t', hw, .made hname hnamed hcreate hsave hrows⟩
  | drop hdrop =>
    rename_i name table schema'
    rcases run_saveSchema_bind h with ⟨fault, t₁, hsave, rfl, rfl⟩ | ⟨t₁, hsave, h⟩
    · exact ⟨t₁, rfl, .unsaved (.drop hdrop) hsave⟩
    · simp only [ExceptT.run_mk, run_deleteRows] at h
      cases h
      exact ⟨_, rfl, .dropped hdrop hsave (Prod.ext rfl rfl)⟩
  | insert htable _ _ _ =>
    obtain ⟨t', hw, hsave⟩ := run_keep (s := ⟨s.schema, _⟩) htable h
    exact ⟨t', hw, .changed rfl htable hsave⟩
  | update htable _ _ _ =>
    obtain ⟨t', hw, hsave⟩ := run_keep (s := ⟨s.schema, _⟩) htable h
    exact ⟨t', hw, .changed rfl htable hsave⟩
  | delete htable _ =>
    obtain ⟨t', hw, hsave⟩ := run_keep (s := ⟨s.schema, _⟩) htable h
    exact ⟨t', hw, .changed rfl htable hsave⟩

/-- A statement that goes through the storage leaves the tree as it is, or it reports a change and has
written files; a fault of the storage is its own fault then. -/
theorem writes_of_cycle {c : Config} {t : FileTree} {statement : Statement}
    {r : Except Fault Outcome} {w : Config × FileTree}
    (h : run (Storage.cycle statement : ExceptT Fault Stored Outcome).run (c, t) = (r, w)) :
    (w = (c, t) ∧ ∀ outcome, r = .ok outcome → outcome.isMutation = false ∧
      ∃ s after, statement.execute s = .ok (outcome, after)) ∨
    ∃ schema t' stored outcome, w = (c, t') ∧ t.registry c = .ok schema ∧
      Writes c schema t statement stored t' ∧ r = stored.map fun _ => outcome := by
  unfold Storage.cycle at h
  rw [run_exceptT_bind] at h
  rcases hfetch : run (Storage.fetch statement : ExceptT Fault Stored Snapshot).run (c, t) with
    ⟨fetched, w₁⟩
  obtain ⟨rfl, hload⟩ := run_fetch hfetch
  rw [hfetch] at h
  cases fetched with
  | error fault =>
    cases h
    exact .inl ⟨rfl, nofun⟩
  | ok s =>
    simp only at h
    rw [run_exceptT_bind, run_exceptT_mk_pure] at h
    cases hexecute : statement.execute s with
    | error fault =>
      rw [hexecute] at h
      cases h
      exact .inl ⟨rfl, nofun⟩
    | ok result =>
      obtain ⟨outcome, after⟩ := result
      rw [hexecute] at h
      simp only at h
      cases hmutation : outcome.isMutation with
      | false =>
        rw [hmutation, if_neg (by decide), run_exceptT_pure] at h
        cases h
        exact .inl ⟨rfl, fun _ heq => by cases heq; exact ⟨hmutation, s, after, hexecute⟩⟩
      | true =>
        rw [hmutation, if_pos rfl, run_exceptT_bind] at h
        rcases hstore : run (Storage.store outcome after : ExceptT Fault Stored Unit).run (c, t) with
          ⟨stored, w'⟩
        obtain ⟨t', rfl, hwrites⟩ :=
          writes_of_store (Statement.change_of_execute hexecute hmutation) hstore
        rw [hstore] at h
        cases stored with
        | error fault =>
          cases h
          exact .inr ⟨s.schema, t', _, outcome, rfl, hload s rfl, hwrites, rfl⟩
        | ok _ =>
          simp only [run_exceptT_pure] at h
          cases h
          exact .inr ⟨s.schema, t', _, outcome, rfl, hload s rfl, hwrites, rfl⟩

/-- A statement leaves the tree as it is, and is refused if it is to make or drop a table, or it has
written files. -/
theorem writes_of_act {step : Step} {statement : Statement}
    (hstep : step.statement? = some statement) (s : Session) (c : Config) (t : FileTree) :
    let done := Session.act Stored step (s, c, t)
    (done.2.2 = (c, t) ∧ (statement.target?.isSome → ∃ fault, done.1 = .error fault)) ∨
    ∃ schema t' stored outcome, done.2.2 = (c, t') ∧ t.registry c = .ok schema ∧
      Writes c schema t statement stored t' ∧ done.1 = stored.map fun _ => some outcome := by
  rw [Session.act_of_statement? hstep, Session.act_statement]
  cases hremembered : s.remembered? statement with
  | some outcome =>
    refine .inl ⟨rfl, fun htarget => ?_⟩
    obtain ⟨name, hname⟩ := Option.isSome_iff_exists.mp htarget
    rw [Session.remembered?_of_target hname] at hremembered
    cases hremembered
  | none =>
    rcases hcycle : run (Storage.cycle statement : ExceptT Fault Stored Outcome).run (c, t) with
      ⟨r, w⟩
    rcases writes_of_cycle hcycle with ⟨rfl, hread⟩ |
      ⟨schema, t', stored, outcome, rfl, hload, hwrites, rfl⟩
    · refine .inl ⟨rfl, fun htarget => ?_⟩
      obtain ⟨name, hname⟩ := Option.isSome_iff_exists.mp htarget
      cases r with
      | error fault => exact ⟨fault, rfl⟩
      | ok outcome =>
        obtain ⟨hmutation, before, after, hexecute⟩ := hread outcome rfl
        rw [Statement.isMutation_of_target hname hexecute] at hmutation
        cases hmutation
    · refine .inr ⟨schema, t', stored, outcome, rfl, hload, hwrites, ?_⟩
      cases stored <;> rfl

/-- What every write keeps of the tree, a run keeps. -/
theorem trace_writes {c : Config} {J : FileTree → Prop} {steps : List Step}
    (hwrites : ∀ step ∈ steps, ∀ statement, step.statement? = some statement →
      ∀ schema t t' r, J t → t.registry c = .ok schema → Writes c schema t statement r t' → J t')
    (s : Session) {t : FileTree} (ht : J t) :
    let w := (trace (Session.act Stored) steps (s, c, t)).2
    w.2.1 = c ∧ J w.2.2 := by
  let I (w : Session × Config × FileTree) : Prop := w.2.1 = c ∧ J w.2.2
  have hact (step : Step) (hmem : step ∈ steps) (w : Session × Config × FileTree) (hw : I w) :
      I (Session.act Stored step w).2 := by
    refine Session.act_invariant (fun statement hstatement w hw => ?_) (fun _ hw => hw) hw
    obtain ⟨s, c', t⟩ := w
    obtain ⟨rfl, ht⟩ : c' = c ∧ J t := hw
    rcases writes_of_act (show (Step.statement statement).statement? = _ from rfl) s c' t with
      ⟨h, -⟩ | ⟨schema, t', stored, outcome, h, hload, hw, -⟩
    · simp only [I, h, true_and]
      exact ht
    · simp only [I, h, true_and]
      exact hwrites step hmem statement hstatement schema t t' stored ht hload hw
  exact trace_invariant hact ⟨rfl, ht⟩

end FileTree
end TableStore
