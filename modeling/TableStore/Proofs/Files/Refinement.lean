import Mathlib.Control.Monad.Basic
import TableStore.Proofs.Files.Mirror
import TableStore.Proofs.PairedMemory

/-
Files answer as memory does.

From an empty directory and an empty memory on, the two storages answer every list of calls alike,
and so every session over the one gives the outcomes of the same session over the other.  At the end
of a session the directory of the rows has one file for each table of the registry and no others,
because a table and its rows are saved and removed by the same commands.
-/
namespace TableStore

open Stateful

/-! ## Lists of calls -/

inductive Request where
  | loadSchema
  | saveSchema (schema : Schema)
  | loadRows (table : String)
  | saveRows (table : Table) (rows : Rows)
  | deleteRows (table : String)

inductive Content where
  | schema (schema : Schema)
  | rows (rows : Rows)
  | nothing

namespace Request

def answer (m : Type → Type) [Monad m] [Storage m] : Request → m (Except Fault Content)
  | loadSchema => return (← Storage.loadSchema).map .schema
  | saveSchema schema => return (← Storage.saveSchema schema).map fun _ => .nothing
  | loadRows table => return (← Storage.loadRows table).map .rows
  | saveRows table rows => return (← Storage.saveRows table rows).map fun _ => .nothing
  | deleteRows table => return (← Storage.deleteRows table).map fun _ => .nothing

def act (m : Type → Type) [Monad m] [Storage m] {σ : Type} [Stateful m σ] (request : Request)
    (w : σ) : Except Fault Content × σ :=
  run (request.answer m) w

/-- A saved registry is one that creating and dropping tables leads to, and the tables named by the
call have names that a file can carry. -/
def Fits : Request → Prop
  | loadSchema => True
  | saveSchema schema => schema.Obtainable
  | loadRows table => FileName table
  | saveRows table _ => FileName table.name
  | deleteRows table => FileName table

end Request

namespace FileTree

def Kept (w : Config × FileTree) (memory : Memory) : Prop := w.1 = {} ∧ Mirrors w.2 memory

theorem Kept.act {w : Config × FileTree} {memory : Memory} (h : Kept w memory) {request : Request}
    (hrequest : request.Fits) :
    (request.act Stored w).1 = (request.act (StateM Memory) memory).1 ∧
      Kept (request.act Stored w).2 (request.act (StateM Memory) memory).2 := by
  obtain ⟨c, t⟩ := w
  obtain ⟨rfl, h⟩ : c = {} ∧ Mirrors t memory := h
  unfold Request.act
  cases request with
  | loadSchema =>
    simp only [Request.answer, run_bind, h.run_loadSchema, run_pure]
    exact ⟨rfl, rfl, h⟩
  | saveSchema schema =>
    obtain ⟨t', hrun, h'⟩ := h.run_saveSchema (Schema.Obtainable.valid hrequest)
    simp only [Request.answer, run_bind, hrun, run_pure]
    exact ⟨rfl, rfl, h'⟩
  | loadRows table =>
    simp only [Request.answer, run_bind, h.run_loadRows hrequest, run_pure]
    exact ⟨rfl, rfl, h⟩
  | saveRows table rows =>
    obtain ⟨t', hrun, h'⟩ := h.run_saveRows hrequest table.columns rows
    simp only [Request.answer, run_bind, hrun, run_pure]
    exact ⟨rfl, rfl, h'⟩
  | deleteRows table =>
    obtain ⟨t', hrun, h'⟩ := h.run_deleteRows hrequest
    simp only [Request.answer, run_bind, hrun, run_pure]
    exact ⟨rfl, rfl, h'⟩

/-! ## Sessions -/

/-- A registry whose tables can all be kept in files. -/
def Storable (schema : Schema) : Prop :=
  schema.Valid ∧ ∀ name, schema.contains name = true → FileName name

theorem Storable.create {s s' : Schema} {t : Table} (hs : Storable s) (hname : FileName t.name)
    (h : s.create t = .ok s') : Storable s' := by
  refine ⟨hs.1.create h, fun name hcontains => ?_⟩
  rw [Schema.contains, Schema.table?_create h] at hcontains
  split at hcontains
  · next heq =>
    rw [heq]
    exact hname
  · exact hs.2 name hcontains

theorem Storable.drop {s s' : Schema} {t : Table} {name : String} (hs : Storable s)
    (h : s.drop? name = some (t, s')) : Storable s' := by
  refine ⟨hs.1.drop h, fun other hother => hs.2 other ?_⟩
  rw [Schema.contains_iff, Schema.names_drop h] at hother
  exact Schema.contains_iff.mpr (List.mem_of_mem_erase hother)

/-- Trees that mirror memories are related; so are calls that lead from such a pair to another. -/
theorem alike_of_mirrors {α : Type} {Q : α → Prop} {x : Stored (Except Fault α)}
    {y : StateM Memory (Except Fault α)}
    (h : ∀ t memory, Mirrors t memory → Storable memory.schema →
      ∃ t', run x ({}, t) = ((run y memory).1, {}, t') ∧ Mirrors t' (run y memory).2 ∧
        Storable (run y memory).2.schema ∧ ∀ a, (run y memory).1 = .ok a → Q a) :
    Alike (fun w memory => Kept w memory ∧ Storable memory.schema) Q
      (ExceptT.mk x : ExceptT Fault Stored α) (ExceptT.mk y : ExceptT Fault (StateM Memory) α) := by
  intro world memory hworld
  obtain ⟨c, t⟩ := world
  obtain ⟨⟨rfl, hmirrors⟩, hstorable⟩ : (c = {} ∧ Mirrors t memory) ∧ Storable memory.schema := hworld
  obtain ⟨t', hrun, hmirrors', hstorable', hQ⟩ := h t memory hmirrors hstorable
  rw [ExceptT.run_mk, ExceptT.run_mk, hrun]
  exact ⟨rfl, ⟨⟨rfl, hmirrors'⟩, hstorable'⟩, hQ⟩

theorem simulation :
    Simulation Stored (StateM Memory)
      (fun w memory => Kept w memory ∧ Storable memory.schema) Storable FileName where
  loadSchema := alike_of_mirrors fun t memory h hs =>
    ⟨t, h.run_loadSchema, h, hs, fun schema heq => by
      cases heq
      exact hs⟩
  saveSchema schema hschema := alike_of_mirrors fun t memory h _ => by
    obtain ⟨t', hrun, h'⟩ := h.run_saveSchema hschema.1
    exact ⟨t', hrun, h', hschema, fun _ _ => trivial⟩
  loadRows table hname := alike_of_mirrors fun t memory h hs =>
    ⟨t, h.run_loadRows hname, h, hs, fun _ _ => trivial⟩
  saveRows table rows hname := alike_of_mirrors fun t memory h hs => by
    obtain ⟨t', hrun, h'⟩ := h.run_saveRows hname table.columns rows
    exact ⟨t', hrun, h', hs, fun _ _ => trivial⟩
  deleteRows table hname := alike_of_mirrors fun t memory h hs => by
    obtain ⟨t', hrun, h'⟩ := h.run_deleteRows hname
    exact ⟨t', hrun, h', hs, fun _ _ => trivial⟩
  create hs hname h := hs.create hname h
  drop hs h := hs.drop h
  allowed hs h := hs.2 _ h

/-! ## Runs -/

/-- Where the tree mirrors a memory that stores rows for its tables only, its files are the one of
the registry and one for each table. -/
theorem Mirrors.files {t : FileTree} {memory : Memory} (h : Mirrors t memory)
    (hpaired : memory.Paired) :
    (∀ table, memory.schema.contains table = true ↔
      ∃ content, t.nodes.get? ["data", rowFile table] = some (.file content)) ∧
    ∀ names node, t.nodes.get? names = some node → names = ["db_meta.json"] ∨
      (names = ["data"] ∧ node = .directory) ∨
      ∃ table, memory.schema.contains table = true ∧ names = ["data", rowFile table] := by
  refine ⟨fun table => ⟨fun hcontains => ?_, ?_⟩, fun names node hnode => ?_⟩
  · rw [← hpaired.contains, SortedMap.contains, Option.isSome_iff_exists] at hcontains
    obtain ⟨rows, hrows⟩ := hcontains
    obtain ⟨columns, hfile⟩ := h.rows table rows hrows
    exact ⟨_, hfile⟩
  · intro hstored
    obtain ⟨content, hfile⟩ := hstored
    rw [← hpaired.contains]
    cases hrows : memory.rows.get? table with
    | none =>
      rw [h.get?_rowFile_of_none hrows] at hfile
      cases hfile
    | some rows => simp [SortedMap.contains, hrows]
  · rcases h.others names node hnode with heq | heq | ⟨table, hcontains, heq⟩
    · exact .inl heq
    · refine .inr (.inl ⟨heq, ?_⟩)
      rcases h.data with hdata | ⟨hdata, -⟩
      · rw [heq, hdata] at hnode
        exact (Option.some.inj hnode).symm
      · rw [heq, hdata] at hnode
        cases hnode
    · exact .inr (.inr ⟨table, hpaired.contains table ▸ hcontains, heq⟩)

/-- Over the default configuration and from nothing stored on, files and memory answer every list of
calls alike, and sessions over them give the same outcomes.  A session leaves one file for each table
of its registry in the directory of the rows, and nothing but that directory and the registry's file
elsewhere. -/
theorem files_refine_memory :
    (∀ requests : List Request, (∀ request ∈ requests, request.Fits) →
      (trace (Request.act Stored) requests ({}, empty)).1 =
        (trace (Request.act (StateM Memory)) requests .empty).1) ∧
    ∀ (cached : Bool) (steps : List Step),
      (∀ step ∈ steps, ∀ table declarations,
        step.statement? = some (.createTable table declarations) → FileName table) →
      let files := trace (Session.act Stored) steps (.start cached, {}, empty)
      let memory := trace (Session.act (StateM Memory)) steps (.start cached, .empty)
      files.1 = memory.1 ∧
      ∃ schema, (run (Storage.loadSchema : Stored (Except Fault Schema)) files.2.2).1 = .ok schema ∧
        schema = memory.2.2.schema ∧
        (∀ table, schema.contains table = true ↔
          ∃ content, files.2.2.2.nodes.get? ["data", rowFile table] = some (.file content)) ∧
        ∀ names node, files.2.2.2.nodes.get? names = some node → names = ["db_meta.json"] ∨
          (names = ["data"] ∧ node = .directory) ∨
          ∃ table, schema.contains table = true ∧ names = ["data", rowFile table] := by
  refine ⟨fun requests hrequests => ?_, fun cached steps hsteps => ?_⟩
  · have hstart : Kept ({}, empty) .empty := ⟨rfl, mirrors_empty⟩
    have hstep : ∀ request ∈ requests, ∀ w memory, Kept w memory →
        (request.act Stored w).1 = (request.act (StateM Memory) memory).1 ∧
          Kept (request.act Stored w).2 (request.act (StateM Memory) memory).2 :=
      fun request hrequest _ _ h => h.act (hrequests request hrequest)
    exact (trace_simulation hstep hstart).1
  · intro files memory
    have hstart : Kept ({}, empty) .empty ∧ Storable Memory.empty.schema :=
      ⟨⟨rfl, mirrors_empty⟩, Schema.valid_empty, fun _ h => by cases h⟩
    have hcreates (step : Step) (hstep : step ∈ steps) (statement : Statement)
        (hst : step.statement? = some statement) : statement.Creates FileName := by
      intro table declarations heq
      subst heq
      exact hsteps step hstep table declarations hst
    obtain ⟨hanswers, ⟨hconfig, hmirrors⟩, -⟩ :=
      simulation.trace_act hcreates (.start cached) hstart
    have hpaired : memory.2.2.Paired :=
      trace_invariant (I := fun w : Session × Memory => w.2.Paired)
        (fun step _ _ hw => Memory.Paired.act hw step) Memory.paired_empty
    refine ⟨hanswers, memory.2.2.schema, ?_, rfl, hmirrors.files hpaired⟩
    have hworld : files.2.2 = ({}, files.2.2.2) := Prod.ext hconfig rfl
    rw [hworld, hmirrors.run_loadSchema]

/-- Rows under a name with a quote, and a session that makes, fills and drops tables. -/
theorem files_refine_memory_for_quoted_name :
    let rows : Rows := .singleton 1 (.singleton "v" (.str "\"\n\\"))
    let requests : List Request := [.saveRows ⟨"a\"b", [⟨"v", .str⟩]⟩ rows, .loadRows "a\"b",
      .saveSchema ⟨[.blank "a\"b"]⟩, .loadSchema, .deleteRows "a\"b"]
    let steps : List Step := [.line "create_table t v:str",
      .statement (.insert "t" [.str "\"\n\\"]), .statement (.createTable "a\"b" []), .reopen,
      .statement (.select "t" none), .statement (.dropTable "a\"b")]
    let files := trace (Session.act Stored) steps (.start true, {}, empty)
    let memory := trace (Session.act (StateM Memory)) steps (.start true, .empty)
    (∀ request ∈ requests, request.Fits) ∧
      (trace (Request.act Stored) requests ({}, empty)).1 =
        (trace (Request.act (StateM Memory)) requests .empty).1 ∧
      (∀ step ∈ steps, ∀ table declarations,
        step.statement? = some (.createTable table declarations) → FileName table) ∧
      files.1 = memory.1 ∧
      memory.1[4]? = some (.ok (some (.scanned "t" ["ID", "v"] [[.int 1, .str "\"\n\\"]]))) ∧
      (∃ content, files.2.2.2.nodes.get? ["data", rowFile "t"] = some (.file content)) ∧
      ¬ ∃ content, files.2.2.2.nodes.get? ["data", rowFile "a\"b"] = some (.file content) := by
  intro rows requests steps files memory
  have hquoted : FileName "a\"b" := ⟨by decide, by decide, by decide⟩
  have hrequests : ∀ request ∈ requests, request.Fits := by
    have hblank : Schema.Obtainable ⟨[.blank "a\"b"]⟩ := .create .empty (t := .blank "a\"b") rfl
    simpa [requests, Request.Fits, hquoted] using hblank
  have hline : Step.statement? (.line "create_table t v:str") =
      some (.createTable "t" ["v:str"]) := by decide +kernel
  have hsteps : ∀ step ∈ steps, ∀ table declarations,
      step.statement? = some (.createTable table declarations) → FileName table := by
    have ht : FileName "t" := ⟨by decide, by decide, by decide⟩
    intro step hstep table declarations hst
    simp only [steps, List.mem_cons, List.not_mem_nil, or_false] at hstep
    rcases hstep with rfl | rfl | rfl | rfl | rfl | rfl
    · rw [hline] at hst
      cases hst
      exact ht
    · cases hst
    · cases hst
      exact hquoted
    · cases hst
    · cases hst
    · cases hst
  obtain ⟨hanswers, schema, -, hschema, hfiles, -⟩ := files_refine_memory.2 true steps hsteps
  have hnames : schema.names = ["t"] := by
    rw [hschema]
    decide +kernel
  have hkept : schema.contains "t" = true := by
    rw [Schema.contains_iff, hnames]
    decide
  have hgone : ¬ schema.contains "a\"b" = true := by
    rw [Schema.contains_iff, hnames]
    decide
  have hscanned : memory.1[4]? =
      some (.ok (some (.scanned "t" ["ID", "v"] [[.int 1, .str "\"\n\\"]]))) := by
    decide +kernel
  exact ⟨hrequests, files_refine_memory.1 requests hrequests, hsteps, hanswers, hscanned,
    (hfiles "t").mp hkept, fun hfile => hgone ((hfiles "a\"b").mpr hfile)⟩

end FileTree
end TableStore
