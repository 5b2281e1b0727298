import TableStore.Proofs.TableCommands
import TableStore.Proofs.WatchedMemory

/-
The calls that a cycle makes.

A cycle loads, runs its statement and saves, and it stops at the first call that fails.  So whatever is
armed, a call that saves comes behind a successful execution, a cycle that fails has saved nothing
except at the second of two writes, and one that reports no change makes no call that saves
(`cycle_ends`).  The calls of an action in sequence are those of its parts, and `Ends` carries a
statement about result, calls and memory from the parts to the whole.
-/
namespace TableStore

open Stateful

/-- Calls of these kinds change what is stored. -/
def CallKind.writes : CallKind → Bool
  | saveSchema | saveRows | deleteRows => true
  | loadSchema | loadRows => false

namespace Memory

/-- From `memory` on the action makes calls and comes to a result and a memory of which `Q` holds,
whatever is armed. -/
def Ends {α : Type} (x : ExceptT Fault Watched α) (memory : Memory)
    (Q : Except Fault α → List Call → Memory → Prop) : Prop :=
  ∀ w : Watch, ∃ made, (run x.run (w, memory)).2.1.calls = w.calls ++ made ∧
    Q (run x.run (w, memory)).1 made (run x.run (w, memory)).2.2

namespace Ends

variable {α β : Type} {memory : Memory}

theorem result_bind {Q : Except Fault β → List Call → Memory → Prop} {r : Except Fault α}
    {f : α → ExceptT Fault Watched β} (hok : ∀ a, r = .ok a → Ends (f a) memory Q)
    (herror : ∀ fault, r = .error fault → Q (.error fault) [] memory) :
    Ends (ExceptT.mk (Pure.pure r) >>= f) memory Q := by
  intro w
  rw [run_exceptT_bind, run_exceptT_mk_pure]
  cases r with
  | error fault => exact ⟨[], (List.append_nil _).symm, herror fault rfl⟩
  | ok a => exact hok a rfl w

theorem pure {Q : Except Fault α → List Call → Memory → Prop} {a : α} (h : Q (.ok a) [] memory) :
    Ends (Pure.pure a) memory Q := by
  intro w
  refine ⟨[], ?_⟩
  rw [run_exceptT_pure, List.append_nil]
  exact ⟨rfl, h⟩

/-- A call fails without effect, or does what it does when nothing is armed. -/
theorem call {Q : Except Fault α → List Call → Memory → Prop} {x : ExceptT Fault Watched α}
    {kind : CallKind} {table : Option String} {r : Except Fault α} {memory' : Memory}
    (hx : ∀ w : Watch, run x.run (w, memory) =
      if w.armed = some kind then (.error (Watch.injected kind), w.note kind table, memory)
      else (r, w.note kind table, memory'))
    (hfailed : Q (.error (Watch.injected kind)) [⟨kind, table, true⟩] memory)
    (hdone : Q r [⟨kind, table, false⟩] memory') : Ends x memory Q := by
  intro w
  refine ⟨[⟨kind, table, w.armed = some kind⟩], ?_⟩
  rw [hx]
  by_cases h : w.armed = some kind
  · rw [if_pos h, decide_eq_true h]
    exact ⟨by simp [Watch.note, h], hfailed⟩
  · rw [if_neg h, decide_eq_false h]
    exact ⟨by simp [Watch.note, h], hdone⟩

/-- What the first of two actions ends in is where the second starts, and its calls come first. -/
theorem bind {P : Except Fault α → List Call → Memory → Prop}
    {Q : Except Fault β → List Call → Memory → Prop} {x : ExceptT Fault Watched α}
    {f : α → ExceptT Fault Watched β} (hx : Ends x memory P)
    (hok : ∀ a made memory', P (.ok a) made memory' →
      Ends (f a) memory' fun r more memory'' => Q r (made ++ more) memory'')
    (herror : ∀ fault made memory', P (.error fault) made memory' → Q (.error fault) made memory') :
    Ends (x >>= f) memory Q := by
  intro w
  obtain ⟨made, hcalls, hP⟩ := hx w
  rw [run_exceptT_bind]
  rcases hr : run x.run (w, memory) with ⟨fault | a, w', memory'⟩
  · rw [hr] at hcalls hP
    exact ⟨made, hcalls, herror fault made memory' hP⟩
  · rw [hr] at hcalls hP
    obtain ⟨more, hmore, hQ⟩ := hok a made memory' hP w'
    refine ⟨made ++ more, ?_, hQ⟩
    rw [hmore, ← List.append_assoc]
    exact congrArg (· ++ more) hcalls

end Ends

/-! ## Loading -/

/-- The calls only load, memory is left alone, and what is handed over is `a`. -/
structure Loaded {α : Type} (memory : Memory) (a : α) (r : Except Fault α) (made : List Call)
    (memory' : Memory) : Prop where
  calls : ∀ call ∈ made, call.kind.writes = false
  memory : memory' = memory
  value : ∀ b, r = .ok b → b = a

theorem Ends.load {α : Type} {memory : Memory} {x : ExceptT Fault Watched α} {kind : CallKind}
    {table : Option String} {a : α} (hkind : kind.writes = false)
    (hx : ∀ w : Watch, run x.run (w, memory) =
      if w.armed = some kind then (.error (Watch.injected kind), w.note kind table, memory)
      else (.ok a, w.note kind table, memory)) : Ends x memory (Loaded memory a) := by
  have hcalls (failed : Bool) :
      ∀ call ∈ [(⟨kind, table, failed⟩ : Call)], call.kind.writes = false := by
    intro call hcall
    rw [List.mem_singleton.mp hcall]
    exact hkind
  exact .call hx ⟨hcalls true, rfl, fun _ h => by cases h⟩
    ⟨hcalls false, rfl, fun _ h => (Except.ok.inj h).symm⟩

theorem Ends.loaded {α : Type} (memory : Memory) (a : α) :
    Ends (Pure.pure a) memory (Loaded memory a) :=
  .pure ⟨fun _ h => absurd h List.not_mem_nil, rfl, fun _ h => (Except.ok.inj h).symm⟩

/-- Two actions that load one after the other load. -/
theorem Ends.load_bind {α β : Type} {memory : Memory} {x : ExceptT Fault Watched α}
    {f : α → ExceptT Fault Watched β} {a : α} {b : β} (hx : Ends x memory (Loaded memory a))
    (hf : Ends (f a) memory (Loaded memory b)) : Ends (x >>= f) memory (Loaded memory b) := by
  refine hx.bind (fun a' made memory' hfirst w => ?_) fun _ _ _ hfirst =>
    ⟨hfirst.calls, hfirst.memory, fun _ h => by cases h⟩
  obtain rfl := hfirst.memory
  obtain rfl := hfirst.value a' rfl
  obtain ⟨more, hmore, hsecond⟩ := hf w
  refine ⟨more, hmore, fun call hcall => ?_, hsecond.memory, hsecond.value⟩
  rcases List.mem_append.mp hcall with h | h
  · exact hfirst.calls call h
  · exact hsecond.calls call h

/-- Loading hands over what the statement works on, by calls that only load. -/
theorem fetch_ends (statement : Statement) (memory : Memory) :
    Ends (Storage.fetch statement) memory (Loaded memory (memory.snapshot statement)) := by
  refine .load_bind (.load rfl (run_loadSchema · memory)) ?_
  cases htable : statement.dataTable? with
  | none =>
    rw [snapshot, htable]
    exact .loaded memory _
  | some table =>
    by_cases hc : memory.schema.contains table = true
    · have hsnapshot : memory.snapshot statement = ⟨memory.schema, memory.rowsOf table⟩ := by
        simp [snapshot, htable, hc]
      simp only [hc, if_true, hsnapshot]
      exact .load_bind (.load rfl (run_loadRows · memory table)) (.loaded memory _)
    · have hsnapshot : memory.snapshot statement = ⟨memory.schema, .empty⟩ := by
        simp [snapshot, htable, hc]
      simp only [hc, hsnapshot]
      exact .loaded memory _

/-! ## Saving -/

/-- What a command that failed did to memory by the calls that it made. -/
inductive Failed (statement : Statement) (memory : Memory) (made : List Call) : Memory → Prop where
  | unsaved (hmade : ∀ call ∈ made, call.kind.writes = true → call.failed = true) :
    Failed statement memory made memory
  | halfSaved {loads : List Call} {name : String} {kind : CallKind} {schema : Schema}
    (htarget : statement.target? = some name) (hkind : statement.lastWrite? = some kind)
    (hloads : ∀ call ∈ loads, call.kind.writes = false)
    (hmade : made = loads ++ [⟨.saveSchema, none, false⟩, ⟨kind, some name, true⟩]) :
    Failed statement memory made { memory with schema }

section Saving

variable {statement : Statement} {memory : Memory} {loads : List Call}
  (hloads : ∀ call ∈ loads, call.kind.writes = false)
include hloads

theorem failed_of_first_write (kind : CallKind) (table : Option String) :
    Failed statement memory (loads ++ [⟨kind, table, true⟩]) memory := by
  refine .unsaved fun call hcall hkind => ?_
  rcases List.mem_append.mp hcall with hload | hlast
  · rw [hloads call hload] at hkind
    cases hkind
  · rw [List.mem_singleton.mp hlast]

/-- Saving a new registry and settling the rows of one table can fail half way. -/
theorem registry_ends {name : String} {kind : CallKind} {schema : Schema}
    {rest : ExceptT Fault Watched Unit} {memory' : Memory}
    (htarget : statement.target? = some name) (hkind : statement.lastWrite? = some kind)
    (hrest : ∀ w : Watch, run rest.run (w, { memory with schema }) =
      if w.armed = some kind then
        (.error (Watch.injected kind), w.note kind (some name), { memory with schema })
      else (.ok (), w.note kind (some name), memory')) :
    Ends (do
      ExceptT.mk (Storage.saveSchema schema)
      rest) memory fun r made memory' =>
        ∀ fault, r = .error fault → Failed statement memory (loads ++ made) memory' := by
  refine Ends.bind (P := fun r made memory' =>
      (∃ fault, r = .error fault ∧ memory' = memory ∧ made = [⟨.saveSchema, none, true⟩]) ∨
      r = .ok () ∧ memory' = { memory with schema } ∧ made = [⟨.saveSchema, none, false⟩])
    (.call (run_saveSchema · memory schema) (.inl ⟨_, rfl, rfl, rfl⟩) (.inr ⟨rfl, rfl, rfl⟩))
    (fun _ made memory' hsaved => ?_) fun fault made memory' hsaved fault' _ => ?_
  · rcases hsaved with ⟨_, hr, -⟩ | ⟨-, rfl, rfl⟩
    · cases hr
    · exact .call hrest (fun _ _ => .halfSaved htarget hkind hloads rfl) nofun
  · rcases hsaved with ⟨_, -, rfl, rfl⟩ | ⟨hr, -⟩
    · exact failed_of_first_write hloads _ _
    · cases hr

/-- Saving a change fails at the first write or half way. -/
theorem store_ends {outcome : Outcome} {after : Snapshot}
    (h : Snapshot.Change (memory.snapshot statement) statement outcome after) :
    Ends (Storage.store outcome after) memory fun r made memory' =>
      ∀ fault, r = .error fault → Failed statement memory (loads ++ made) memory' := by
  have hrows {name : String} {t : Table} (ht : memory.schema.table? name = some t) (rows : Rows) :
      Ends (Storage.keep ⟨memory.schema, rows⟩ name rows) memory fun r made memory' =>
        ∀ fault, r = .error fault → Failed statement memory (loads ++ made) memory' :=
    .call (fun w => keep_run (s := ⟨memory.schema, rows⟩) ht rows w memory)
      (fun _ _ => failed_of_first_write hloads _ _) nofun
  cases h with
  | @create name declarations t schema hname ht hcreate =>
    have hfound : schema.table? name = some t := by
      rw [Schema.table?_create hcreate, Declaration.table_name ht, if_pos rfl]
    exact registry_ends hloads rfl rfl fun w => keep_run hfound .empty w _
  | drop _ => exact registry_ends hloads rfl rfl fun w => run_deleteRows w _ _
  | insert ht _ _ _ => exact hrows ht _
  | update ht _ _ _ => exact hrows ht _
  | delete ht _ => exact hrows ht _

end Saving

/-- A cycle that fails has saved nothing, or is left at the second of two writes; one that reports no
change makes no call that saves. -/
theorem cycle_ends (statement : Statement) (memory : Memory) :
    Ends (Storage.cycle statement) memory fun r made memory' =>
      (∀ fault, r = .error fault → Failed statement memory made memory') ∧
        ∀ outcome, r = .ok outcome → outcome.isMutation = false →
          ∀ call ∈ made, call.kind.writes = false := by
  have hloaded {made : List Call} (hmade : ∀ call ∈ made, call.kind.writes = false) :
      Failed statement memory made memory :=
    .unsaved fun call hcall hwrites => absurd ((hmade call hcall).symm.trans hwrites) Bool.false_ne_true
  refine Ends.bind (fetch_ends statement memory) (fun before loads memory' hfetch => ?_)
    fun fault loads memory' hfetch => ?_
  · obtain ⟨hloads, rfl, hbefore⟩ := hfetch
    obtain rfl := hbefore before rfl
    refine Ends.result_bind (fun result he => ?_) fun fault _ => ?_
    · obtain ⟨outcome, after⟩ := result
      cases ho : outcome.isMutation with
      | false =>
        simp only [ho, Bool.false_eq_true, if_false]
        refine .pure ⟨nofun, fun _ _ _ => ?_⟩
        rw [List.append_nil]
        exact hloads
      | true =>
        simp only [ho, if_true]
        refine Ends.bind (store_ends hloads (Statement.change_of_execute he ho))
          (fun _ made memory'' _ => ?_) fun fault made memory'' hstore => ?_
        · refine .pure ⟨nofun, fun o heq hreported => ?_⟩
          rw [← Except.ok.inj heq, ho] at hreported
          cases hreported
        · exact ⟨fun _ heq => hstore fault rfl, nofun⟩
    · rw [List.append_nil]
      exact ⟨fun _ _ => hloaded hloads, nofun⟩
  · obtain ⟨hloads, rfl, -⟩ := hfetch
    exact ⟨fun _ _ => hloaded hloads, nofun⟩

end Memory
end TableStore
