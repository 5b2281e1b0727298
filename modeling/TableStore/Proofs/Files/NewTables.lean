import TableStore.Proofs.Files.Containment
import TableStore.Proofs.NewTables

/-
New tables over files.

The file of a new table is written as a whole, so an older file of the name is gone, whatever it
held, and nothing but the text of no records is read from then on.  Another table has another file,
as long as no name with a slash leads elsewhere.
-/
namespace TableStore

open Stateful Storage.Files

namespace FileTree

/-- The registry has the table, and its file is the one of a table without records. -/
structure Vacant (tree : FileTree) (t : Table) : Prop where
  table : ∃ schema, tree.registry {} = .ok schema ∧ schema.table? t.name = some t
  name : FileName t.name
  directory : tree.nodes.get? ["data"] = some .directory
  file : tree.nodes.get? ["data", rowFile t.name] =
    some (.file (Rows.toJson .pretty t.columns .empty).toUTF8)

/-- The registry can be loaded, and none of its tables has a slash in its name. -/
def Plain (tree : FileTree) : Prop :=
  ∃ schema, tree.registry {} = .ok schema ∧ ∀ name ∈ schema.names, '/' ∉ name.toList

theorem Plain.writes {tree tree' : FileTree} (h : tree.Plain) {schema : Schema}
    (hload : tree.registry {} = .ok schema) {statement : Statement} {r : Except Fault Unit}
    (hwrites : Writes {} schema tree statement r tree') : tree'.Plain := by
  obtain ⟨schema', hload', hslash⟩ := h
  rw [hload] at hload'
  cases hload'
  have hstart : Contained schema tree tree :=
    ⟨fun _ hne => absurd rfl hne, schema, hload, fun _ hname => .inr hname⟩
  obtain ⟨schema', hregistry, hnames⟩ := (hstart.writes hslash hload hwrites).registry
  exact ⟨schema', hregistry, fun name hname =>
    (hnames name hname).elim Snapshot.slash_not_mem_of_validName (hslash name)⟩

namespace Vacant

variable {tree tree' : FileTree} {t : Table} (h : tree.Vacant t)
include h

/-! ## Statements on the table -/

theorem rows : tree.rows {} t.name = .ok .empty := by
  rw [rows_eq, readFile_tablePath h.name h.directory, h.file]
  simp only [decoded_toUTF8, Rows.ofJson_toJson]
  rfl

theorem kept {s : Snapshot} (htable : s.schema.table? t.name = some t) (rows : Rows) :
    (run (Storage.keep s t.name rows : ExceptT Fault Stored Unit).run ({}, tree)).1 = .ok () := by
  unfold Storage.keep
  rw [run_exceptT_bind, run_exceptT_mk_pure, Snapshot.table_eq_ok_iff.mpr htable]
  simp only [ExceptT.run_mk, run_saveRows, run_save, run_prepare_tablePath _ h.name.noSlash,
    h.directory, writeFile_tablePath h.name h.directory, h.file]

variable {schema : Schema} (hload : tree.registry {} = .ok schema)
include hload

theorem snapshot : Snapshot.Vacant ⟨schema, .empty⟩ t := by
  obtain ⟨schema', hload', htable⟩ := h.table
  rw [hload] at hload'
  cases hload'
  exact ⟨htable, rfl⟩

variable {statement : Statement}

theorem fetched (hname : statement.dataTable? = some t.name) :
    run (Storage.fetch statement : ExceptT Fault Stored Snapshot).run ({}, tree) =
      (.ok ⟨schema, .empty⟩, {}, tree) := by
  unfold Storage.fetch
  rw [run_exceptT_bind, ExceptT.run_mk, run_loadSchema, ← registry_eq, hload]
  simp only [hname, Schema.contains_of_table? (h.snapshot hload).table, if_true]
  rw [run_exceptT_bind, ExceptT.run_mk, run_loadRows, ← rows_eq, h.rows]
  rfl

/-- A statement on a table without records is answered as it comes, and the tree is touched by an
insert alone. -/
theorem cycle (hname : statement.dataTable? = some t.name) :
    let r := run (Storage.cycle statement : ExceptT Fault Stored Outcome).run ({}, tree)
    (∃ fault, statement.execute ⟨schema, .empty⟩ = .error fault ∧ r = (.error fault, {}, tree)) ∨
    ∃ outcome after, statement.execute ⟨schema, .empty⟩ = .ok (outcome, after) ∧
      r.1 = .ok outcome ∧ ((∀ id, outcome ≠ .inserted t.name id) → r.2 = ({}, tree)) := by
  intro r
  have hr : r = _ := Storage.cycle_of_fetch (h.fetched hload hname)
  have hvacant := h.snapshot hload
  cases he : statement.execute ⟨schema, .empty⟩ with
  | error fault =>
    rw [he] at hr
    exact .inl ⟨fault, rfl, hr⟩
  | ok result =>
    obtain ⟨outcome, after⟩ := result
    rw [he] at hr
    refine .inr ⟨outcome, after, rfl, ?_⟩
    cases ho : outcome.isMutation with
    | false =>
      simp only [ho, Bool.false_eq_true, if_false] at hr
      exact ⟨by rw [hr], fun _ => by rw [hr]⟩
    | true =>
      obtain rfl := hvacant.inserted_of_isMutation hname he ho
      have hafter : after.schema = schema := by
        cases Statement.change_of_execute he ho with
        | insert _ _ _ _ => rfl
      have hstored : (run (Storage.store (.inserted t.name 1) after :
          ExceptT Fault Stored Unit).run ({}, tree)).1 = .ok () :=
        h.kept (s := after) (hafter ▸ hvacant.table) after.rows
      simp only [ho, if_true, hstored] at hr
      exact ⟨by rw [hr]; rfl, fun hinsert => absurd rfl (hinsert 1)⟩

end Vacant

/-! ## Writes elsewhere -/

namespace Vacant

variable {tree tree' : FileTree} {t : Table} (h : tree.Vacant t)
include h

/-- Another registry that has the table. -/
theorem saveSchema {schema : Schema} (hschema : schema.Valid)
    (htable : schema.table? t.name = some t)
    (hsave : Saves ({} : Config).schemaPath (schema.toJson .pretty) tree (.ok ()) tree') :
    tree'.Vacant t := by
  have hregistry := registry_of_saves hschema hsave
  rcases hsave.schemaPath with ⟨-, fault, hfault⟩ | ⟨-, rfl⟩
  · cases hfault
  · refine ⟨⟨schema, hregistry, htable⟩, h.name, ?_, ?_⟩
    · rw [SortedMap.get?_insert, if_neg (by simp)]
      exact h.directory
    · rw [SortedMap.get?_insert, if_neg (by simp)]
      exact h.file

/-- A call on the file of another table. -/
theorem other {name : String} (hne : name ≠ t.name)
    (htouched : ∀ names, tree'.nodes.get? names ≠ tree.nodes.get? names →
      (names = ["data"] ∧ tree'.nodes.get? names = some .directory) ∨
        names = ["data", rowFile name]) : tree'.Vacant t := by
  have hkept (names : List String) (hdata : names ≠ ["data"])
      (hfile : names ≠ ["data", rowFile name]) :
      tree'.nodes.get? names = tree.nodes.get? names := by
    by_contra htouch
    rcases htouched names htouch with ⟨heq, -⟩ | heq
    · exact hdata heq
    · exact hfile heq
  refine ⟨?_, h.name, ?_, ?_⟩
  · rw [registry_of_node (hkept _ (by simp) (by simp))]
    exact h.table
  · by_contra hdirectory
    rcases htouched ["data"] (by rwa [h.directory]) with ⟨-, hthere⟩ | heq
    · exact hdirectory hthere
    · simp at heq
  · rw [hkept _ (by simp) fun heq => hne (rowFile_inj (by simpa using heq.symm))]
    exact h.file

/-- What a statement writes leaves a table without records alone, unless it is on this table. -/
theorem writes {schema : Schema} (hload : tree.registry {} = .ok schema)
    (hslash : ∀ name ∈ schema.names, '/' ∉ name.toList) {statement : Statement}
    {r : Except Fault Unit} (hdrop : statement ≠ .dropTable t.name)
    (hdata : statement.dataTable? ≠ some t.name)
    (hwrites : Writes {} schema tree statement r tree') : tree'.Vacant t := by
  have hvalid := valid_of_registry hload
  have htable := (h.snapshot hload).table
  cases hwrites with
  | unsaved hrewrites hsave =>
    rcases hsave.schemaPath with ⟨rfl, -⟩ | ⟨hok, -⟩
    · exact h
    · cases hok
  | @made name declarations made schema' tree₁ _ _ hname hnamed hcreate hsave hrows =>
    have hne : name ≠ t.name := hnamed ▸ (Schema.ne_of_create hcreate htable).symm
    have hkept := Schema.table?_create_of_some hcreate htable
    refine (h.saveSchema (hvalid.create hcreate) hkept hsave).other hne fun names => ?_
    exact hrows.tablePath (Snapshot.slash_not_mem_of_validName hname)
  | @dropped name dropped schema' tree₁ _ _ hdropped hsave hremove =>
    have hne : t.name ≠ name := fun heq => hdrop (congrArg Statement.dropTable heq.symm)
    have hkept : schema'.table? t.name = some t := by
      rw [Schema.table?_drop_of_ne hdropped hne]
      exact htable
    have hmem : name ∈ schema.names := Schema.mem_names_of_drop? hdropped
    refine (h.saveSchema (hvalid.drop hdropped) hkept hsave).other hne.symm fun names htouched => ?_
    exact .inr (hremove.tablePath (hslash name hmem) htouched)
  | @changed _ name changed rows _ _ hname hfound hsave =>
    have hne : name ≠ t.name := fun heq => hdata (heq ▸ hname)
    have hmem := Schema.mem_names_of_table? hfound
    exact h.other hne fun names => hsave.tablePath (hslash name hmem)

end Vacant

/-! ## Making a table -/

theorem directory_of_prepare {tree tree' : FileTree} {table : String} (hslash : '/' ∉ table.toList)
    (h : run (prepare (({} : Config).tablePath table) : StateM FileTree _) tree = (.ok (), tree')) :
    tree'.nodes.get? ["data"] = some .directory := by
  rw [run_prepare_tablePath tree hslash] at h
  rcases hdata : tree.nodes.get? ["data"] with _ | _ | content
  · rw [hdata] at h
    cases h
    rw [SortedMap.get?_insert, if_pos rfl]
  · rw [hdata] at h
    cases h
    exact hdata
  · rw [hdata] at h
    cases h

/-- Where the file of a table is written, the table has a name that a file can carry. -/
theorem fileName_of_writeFile {tree tree' : FileTree} {table : String} {content : ByteArray}
    (hslash : '/' ∉ table.toList)
    (h : tree.writeFile (({} : Config).tablePath table) content = .ok tree') : FileName table := by
  obtain ⟨here, name, hresolve, hshort, -, -⟩ := writeFile_eq_ok h
  rw [Config.resolve_rowFile _ hslash] at hresolve
  cases hrefused : Path.refused? (({} : Config).tablePath table) with
  | some cause =>
    rw [hrefused] at hresolve
    cases hresolve
  | none =>
    obtain rfl : rowFile table = name := by
      rw [hrefused] at hresolve
      cases henter : tree.enter [] ({} : Config).rowParts with
      | error cause =>
        rw [henter] at hresolve
        cases hresolve
      | ok there =>
        rw [henter] at hresolve
        cases hresolve
        rfl
    have hnul : '\x00' ∉ (({} : Config).tablePath table).toList := by
      intro hmem
      rw [Path.refused?, if_pos (List.contains_iff_mem.mpr hmem)] at hrefused
      cases hrefused
    rw [Config.tablePath_toList hslash] at hnul
    exact ⟨hslash, by simpa [rowFile] using hnul, hshort⟩

/-- Where the registry and the rows of a new table are saved, the table is there without records,
whatever was there before. -/
theorem vacant_of_saves {tree tree₁ tree' : FileTree} {schema : Schema} {t : Table}
    (hschema : schema.Valid) (htable : schema.table? t.name = some t) (hslash : '/' ∉ t.name.toList)
    (hsave : Saves ({} : Config).schemaPath (schema.toJson .pretty) tree (.ok ()) tree₁)
    (hrows : Saves (({} : Config).tablePath t.name) (Rows.toJson .pretty t.columns .empty) tree₁
      (.ok ()) tree') : tree'.Vacant t := by
  have hregistry : tree'.registry {} = .ok schema := by
    rw [registry_of_node]
    · exact registry_of_saves hschema hsave
    · by_contra hne
      rcases hrows.tablePath hslash hne with ⟨heq, -⟩ | heq
      · simp at heq
      · simp at heq
  rcases hrows.cases with ⟨fault, hfault, -⟩ |
    ⟨tree₂, hprepare, ⟨cause, -, hfault, -⟩ | ⟨hwrite, -⟩⟩
  · cases hfault
  · cases hfault
  have hname := fileName_of_writeFile hslash hwrite
  have hdirectory := directory_of_prepare hslash hprepare
  obtain ⟨here, name, hresolve, -, -, rfl⟩ := writeFile_eq_ok hwrite
  rw [resolve_tablePath_of_directory hname hdirectory] at hresolve
  cases hresolve
  refine ⟨⟨schema, hregistry, htable⟩, hname, ?_, ?_⟩
  · rw [put, SortedMap.get?_insert, if_neg (by simp)]
    exact hdirectory
  · rw [put, SortedMap.get?_insert]
    exact if_pos rfl

theorem saves_of_store {c : Config} {tree : FileTree} {s : Snapshot} {t : Table}
    (htable : s.schema.table? t.name = some t) {w : Config × FileTree}
    (h : run (Storage.store (.created t.name t.columns) s : ExceptT Fault Stored Unit).run
      (c, tree) = (.ok (), w)) :
    ∃ tree₁ tree', w = (c, tree') ∧
      Saves c.schemaPath (s.schema.toJson .pretty) tree (.ok ()) tree₁ ∧
      Saves (c.tablePath t.name) (Rows.toJson .pretty t.columns .empty) tree₁ (.ok ()) tree' := by
  obtain ⟨_, w₁, hsave, hkeep⟩ := run_exceptT_bind_eq_ok h
  rw [ExceptT.run_mk, run_saveSchema, Prod.mk.injEq] at hsave
  obtain ⟨hsaved, rfl⟩ := hsave
  obtain ⟨tree', rfl, hrows⟩ := run_keep htable hkeep
  exact ⟨_, tree', rfl, Prod.ext hsaved rfl, hrows⟩

/-- A table that is made has no records, whatever its file held before. -/
theorem vacant_of_cycle {tree : FileTree} {name : String} {declarations : List String}
    {outcome : Outcome} {w : Config × FileTree}
    (h : run (Storage.cycle (.createTable name declarations) : ExceptT Fault Stored Outcome).run
      ({}, tree) = (.ok outcome, w)) :
    ∃ t, Declaration.table name declarations = .ok t ∧ outcome = .created name t.columns ∧
      ∃ tree', w = ({}, tree') ∧ tree'.Vacant t ∧ (tree.Plain → tree'.Plain) := by
  obtain ⟨s, w₁, hfetch, hrest⟩ := run_exceptT_bind_eq_ok h
  obtain ⟨rfl, hload⟩ := run_fetch hfetch
  have hregistry := hload s rfl
  rw [Storage.cycle_of_fetch hfetch] at h
  cases he : Statement.execute (.createTable name declarations) s with
  | error fault =>
    rw [he] at h
    cases h
  | ok result =>
    obtain ⟨outcome', after⟩ := result
    rw [he] at h
    obtain ⟨hname, -, t, schema, ht, hcreate, rfl, rfl⟩ := Snapshot.createTable_eq_ok_iff.mp he
    obtain rfl := Declaration.table_name ht
    have hvalid := (valid_of_registry hregistry).create hcreate
    have htable : schema.table? t.name = some t := by
      rw [Schema.table?_create hcreate, if_pos rfl]
    rcases hstore : run (Storage.store (.created t.name t.columns) ⟨schema, s.rows⟩ :
      ExceptT Fault Stored Unit).run ({}, tree) with ⟨fault | _, w'⟩
    · simp only [Outcome.isMutation, if_true, hstore] at h
      cases h
    · simp only [Outcome.isMutation, if_true, hstore] at h
      cases h
      obtain ⟨tree₁, tree', rfl, hsave, hrows⟩ := saves_of_store htable hstore
      have hwrites : Writes {} s.schema tree (.createTable t.name declarations) (.ok ()) tree' :=
        .made hname rfl hcreate hsave hrows
      have hslash := Snapshot.slash_not_mem_of_validName hname
      exact ⟨t, ht, rfl, tree', rfl, vacant_of_saves hvalid htable hslash hsave hrows,
        fun hplain => hplain.writes hregistry hwrites⟩

/-! ## Sessions -/

theorem Vacant.answersVacant {tree : FileTree} {t : Table} (h : tree.Vacant t) {s : Session}
    (hs : s.RemembersVacant t) : Session.AnswersVacant Stored t (s, {}, tree) := by
  obtain ⟨schema, hload, -⟩ := h.table
  refine Session.answersVacant_of_cycle hs (h.snapshot hload) ?_
  intro statement hname outcome after he
  rcases h.cycle hload hname with ⟨fault, hfault, -⟩ | ⟨outcome', after', he', hanswer, -⟩
  · rw [he] at hfault
    cases hfault
  · rw [he] at he'
    cases he'
    exact hanswer

/-- What is kept of a table without records between the steps of a session. -/
structure KeepsVacant (t : Table) (w : Session × Config × FileTree) : Prop where
  config : w.2.1 = {}
  tree : w.2.2.Vacant t
  plain : w.2.2.Plain
  session : w.1.RemembersVacant t

namespace KeepsVacant

variable {t : Table} {w : Session × Config × FileTree} (h : KeepsVacant t w)
include h

theorem answersVacant : Session.AnswersVacant Stored t w := by
  obtain ⟨s, c, tree⟩ := w
  obtain rfl : c = {} := h.config
  exact h.tree.answersVacant h.session

/-- A cycle of a statement on the table itself. -/
theorem own {statement : Statement} (hname : statement.dataTable? = some t.name) :
    let r := Stateful.run (Storage.cycle statement : ExceptT Fault Stored Outcome).run w.2
    (∀ id, r.1 ≠ .ok (.inserted t.name id)) → KeepsVacant t (w.1.after statement r.1, r.2) := by
  obtain ⟨s, c, tree⟩ := w
  obtain rfl : c = {} := h.config
  intro r hinsert
  obtain ⟨schema, hload, -⟩ := h.plain
  rcases h.tree.cycle hload hname with ⟨fault, -, hr⟩ | ⟨outcome, after, he, hanswer, hkept⟩
  · have hr' : r = (.error fault, {}, tree) := hr
    rw [hr']
    exact ⟨rfl, h.tree, h.plain, h.session⟩
  · have hanswer' : r.1 = .ok outcome := hanswer
    have hkept' : r.2 = ({}, tree) := hkept fun id heq => hinsert id (hanswer'.trans (by rw [heq]))
    rw [hanswer', hkept']
    refine ⟨rfl, h.tree, h.plain, h.session.after ?_⟩
    intro condition found hselect hfound
    cases hfound
    subst hselect
    exact (h.tree.snapshot hload).scanned_of_select he

/-- A cycle of any other statement that does not drop the table. -/
theorem other {statement : Statement} (hdrop : statement ≠ .dropTable t.name)
    (hname : statement.dataTable? ≠ some t.name) :
    let r := Stateful.run (Storage.cycle statement : ExceptT Fault Stored Outcome).run w.2
    KeepsVacant t (w.1.after statement r.1, r.2) := by
  obtain ⟨s, c, tree⟩ := w
  obtain rfl : c = {} := h.config
  intro r
  have hsession : (s.after statement r.1).RemembersVacant t :=
    h.session.after fun condition outcome hselect => absurd (by rw [hselect]; rfl) hname
  obtain ⟨schema, hload, hslash⟩ := h.plain
  rcases writes_of_cycle (r := r.1) (w := r.2) rfl with ⟨hr, -⟩ |
    ⟨schema', tree', stored, outcome, hr, hload', hwrites, -⟩
  · rw [hr]
    exact ⟨rfl, h.tree, h.plain, hsession⟩
  · rw [hr]
    rw [hload] at hload'
    cases hload'
    exact ⟨rfl, h.tree.writes hload hslash hdrop hname hwrites, h.plain.writes hload hwrites,
      hsession⟩

theorem act_statement {statement : Statement} (hdrop : statement ≠ .dropTable t.name)
    (hinsert : ∀ id, (Session.act Stored (.statement statement) w).1 ≠
      .ok (some (.inserted t.name id))) :
    KeepsVacant t (Session.act Stored (.statement statement) w).2 := by
  obtain ⟨s, w⟩ := w
  rw [Session.act_statement] at hinsert ⊢
  cases hr : s.remembered? statement with
  | some outcome => exact h
  | none =>
    rw [hr] at hinsert
    by_cases hname : statement.dataTable? = some t.name
    · exact h.own hname fun id heq => hinsert id (congrArg (Except.map some) heq)
    · exact h.other hdrop hname

/-- A table without records stays so while it is neither dropped nor inserted into. -/
theorem act {step : Step} (hdrop : step.statement? ≠ some (.dropTable t.name))
    (hinsert : ∀ id, (Session.act Stored step w).1 ≠ .ok (some (.inserted t.name id))) :
    KeepsVacant t (Session.act Stored step w).2 := by
  cases hstep : step.statement? with
  | none =>
    rcases Session.act_of_no_statement (m := Stored) hstep w with hsame | hsame
    · rw [hsame]
      exact h
    · rw [hsame]
      exact ⟨h.config, h.tree, h.plain, .reopened w.1 t⟩
  | some statement =>
    rw [hstep] at hdrop
    rw [Session.act_of_statement? hstep] at hinsert ⊢
    exact h.act_statement (fun heq => hdrop (congrArg some heq)) hinsert

theorem run {steps : List Step} (hdrop : ∀ step ∈ steps, step.statement? ≠ some (.dropTable t.name))
    (hinsert : ∀ id, .ok (some (.inserted t.name id)) ∉ (trace (Session.act Stored) steps w).1) :
    KeepsVacant t (trace (Session.act Stored) steps w).2 := by
  refine trace_invariant_of_answers (I := KeepsVacant t)
    (fun reply => ∀ id, reply ≠ .ok (some (.inserted t.name id)))
    (fun step hstep w hw hreply => ?_) h fun reply hreply id heq => hinsert id (heq ▸ hreply)
  exact hw.act (hdrop step hstep) hreply

end KeepsVacant

/-- A table that is made has no records, whatever the tree holds for its name and whatever the
session remembers of it. -/
theorem vacant_of_createTable {s : Session} {tree : FileTree} {step : Step} {name : String}
    {declarations : List String} {outcome : Outcome}
    (hstep : step.statement? = some (.createTable name declarations))
    (hdone : (Session.act Stored step (s, {}, tree)).1 = .ok (some outcome)) :
    ∃ t, Declaration.table name declarations = .ok t ∧ outcome = .created name t.columns ∧
      ∃ s' tree', (Session.act Stored step (s, {}, tree)).2 = (s', {}, tree') ∧
        tree'.Vacant t ∧ s'.RemembersVacant t ∧ (tree.Plain → tree'.Plain) := by
  have hr : s.remembered? (.createTable name declarations) = none :=
    Session.remembered?_of_key_none rfl s
  rw [Session.act_of_statement? hstep, Session.act_statement, hr] at hdone ⊢
  rcases hcycle : Stateful.run (Storage.cycle (.createTable name declarations) :
    ExceptT Fault Stored Outcome).run ({}, tree) with ⟨fault | done, w⟩
  · rw [hcycle] at hdone
    cases hdone
  · rw [hcycle] at hdone
    cases hdone
    obtain ⟨t, ht, rfl, tree', rfl, hvacant, hplain⟩ := vacant_of_cycle hcycle
    obtain rfl := Declaration.table_name ht
    exact ⟨t, ht, rfl, s.forget t.name, tree', by rw [hcycle]; rfl, hvacant, .forgotten s t, hplain⟩

end FileTree

/-- A table that was just made has no records: over memory whatever is stored or remembered under
its name, with any faults armed before, and over the default configuration of files whatever the
tree holds.  It stays so until it is dropped or gets a record; over files, if no table in the
registry has a slash in its name, because the file of such a one may be the new table's. -/
theorem new_table_empty :
    (∀ (w : World) (step : Step) (name : String) (declarations : List String) (outcome : Outcome),
      step.statement? = some (.createTable name declarations) →
      let done := World.act (.step step) w
      done.1 = .ok (some outcome) →
      ∃ t, Declaration.table name declarations = .ok t ∧ outcome = .created name t.columns ∧
        ∀ between : List Event,
          (∀ step, .step step ∈ between → step.statement? ≠ some (.dropTable name)) →
          let later := trace World.act between done.2
          (∀ id, .ok (some (.inserted name id)) ∉ later.1) → later.2.2.1.armed = none →
          Session.AnswersVacant Memory.Watched t later.2) ∧
    ∀ (s : Session) (tree : FileTree) (step : Step) (name : String) (declarations : List String)
      (outcome : Outcome), step.statement? = some (.createTable name declarations) →
      let done := Session.act FileTree.Stored step (s, {}, tree)
      done.1 = .ok (some outcome) →
      ∃ t, Declaration.table name declarations = .ok t ∧ outcome = .created name t.columns ∧
        Session.AnswersVacant FileTree.Stored t done.2 ∧
        (tree.Plain → ∀ between : List Step,
          (∀ step ∈ between, step.statement? ≠ some (.dropTable name)) →
          let later := trace (Session.act FileTree.Stored) between done.2
          (∀ id, .ok (some (.inserted name id)) ∉ later.1) →
          Session.AnswersVacant FileTree.Stored t later.2) := by
  constructor
  · intro w step name declarations outcome hstep done hdone
    obtain ⟨t, ht, houtcome, hvacant⟩ := World.vacant_of_createTable hstep hdone
    obtain rfl := Declaration.table_name ht
    refine ⟨t, ht, houtcome, ?_⟩
    intro between hdrop later hinsert harmed
    exact (hvacant.run hdrop hinsert).answersVacant harmed
  · intro s tree step name declarations outcome hstep done hdone
    obtain ⟨t, ht, houtcome, s', tree', heq, hvacant, hs, hplain⟩ :=
      FileTree.vacant_of_createTable hstep hdone
    obtain rfl := Declaration.table_name ht
    have hdone' : done.2 = (s', {}, tree') := heq
    rw [hdone']
    refine ⟨t, ht, houtcome, hvacant.answersVacant hs, ?_⟩
    intro htree between hdrop later hinsert
    have hkept : FileTree.KeepsVacant t (s', {}, tree') := ⟨rfl, hvacant, hplain htree, hs⟩
    exact (hkept.run hdrop hinsert).answersVacant

/-- A table is made again of which a record and a remembered select are left over, and one for which
there is a file that is no text. -/
theorem new_table_empty_over_remains :
    let earlier : List Event := [.step (.statement (.createTable "t" ["v:int"])),
      .step (.statement (.insert "t" [.int 7])), .step (.statement (.select "t" none)),
      .fail .deleteRows, .step (.statement (.dropTable "t"))]
    let before := (trace World.act earlier (.start true .empty)).2
    let made : Step := .statement (.createTable "t" ["v:str"])
    let t : Table := ⟨"t", [Column.key, ⟨"v", .str⟩]⟩
    let done := World.act (.step made) before
    let between : List Event := [.fail .loadRows, .step (.statement (.info "t"))]
    let later := trace World.act between done.2
    let tree := (FileTree.empty.put [] "data" .directory).put ["data"] "t.json" (.file ⟨#[255]⟩)
    let done' := Session.act FileTree.Stored made (before.1, {}, tree)
    let between' : List Step :=
      [.statement (.createTable "u" []), .statement (.insert "u" []), .reopen]
    let later' := trace (Session.act FileTree.Stored) between' done'.2
    (before.2.2.rowsOf "t").size = 1 ∧
      (World.act (.step (.statement (.select "t" none))) before).1 =
        .ok (some (.scanned "t" ["ID", "v"] [[.int 1, .int 7]])) ∧
      later.1 = [.ok none, .error (.storage "injected load_rows")] ∧
      Session.AnswersVacant Memory.Watched t later.2 ∧
      tree.rows {} "t" = .error (.file "./data/t.json" .notUtf8) ∧
      later'.1 = [.ok (some (.created "u" [Column.key])), .ok (some (.inserted "u" 1)), .ok none] ∧
      Session.AnswersVacant FileTree.Stored t later'.2 := by
  intro earlier before made t done between later tree done' between' later'
  have hmade : made.statement? = some (.createTable "t" ["v:str"]) := rfl
  have htable : Declaration.table "t" ["v:str"] = .ok t := by decide +kernel
  have hdone : done.1 = .ok (some (.created "t" t.columns)) := by decide +kernel
  have hdone' : done'.1 = .ok (some (.created "t" t.columns)) := by decide +kernel
  have hlater : later.1 = [.ok none, .error (.storage "injected load_rows")] := by decide +kernel
  have hlater' : later'.1 =
      [.ok (some (.created "u" [Column.key])), .ok (some (.inserted "u" 1)), .ok none] := by
    decide +kernel
  have harmed : later.2.2.1.armed = none := by decide +kernel
  have hinsert (id : Int64) : .ok (some (.inserted "t" id)) ∉ later.1 := by
    rw [hlater]
    simp
  have hinsert' (id : Int64) : .ok (some (.inserted "t" id)) ∉ later'.1 := by
    rw [hlater']
    simp
  have hloads : tree.registry {} = .ok .empty := by decide +kernel
  have hplain : tree.Plain := ⟨.empty, hloads, nofun⟩
  obtain ⟨t₁, ht₁, -, hmemory⟩ := new_table_empty.1 before made "t" ["v:str"] _ hmade hdone
  obtain ⟨t₂, ht₂, -, -, hfiles⟩ :=
    new_table_empty.2 before.1 tree made "t" ["v:str"] _ hmade hdone'
  rw [htable] at ht₁ ht₂
  cases ht₁
  cases ht₂
  refine ⟨by decide +kernel, by decide +kernel, hlater, ?_, by decide +kernel, hlater', ?_⟩
  · exact hmemory between (by simp [between, Step.statement?]) hinsert harmed
  · exact hfiles hplain between' (by simp [between', Step.statement?]) hinsert'

end TableStore
