import TableStore.Proofs.InPlace
import TableStore.Proofs.Run

/-
A registry under any sequence of calls.

Whatever is asked of it, and however often it refuses, a registry holds the tables that it was given and
not told to drop since, in the order in which it took them (`standing`).  It keeps a list and takes out the
first table of a name, so this rests on the names being distinct: only then does no table of the name
stay behind (`eraseP_eq_filter`).
-/
namespace TableStore
namespace Registry

open Stateful

/-! ## Calls -/

/-- What is asked of a registry. -/
inductive Call where
  | create (t : Table)
  | drop (name : String)
deriving DecidableEq

namespace Call

/-- A call as it is carried out on the registry where it stands. -/
def inPlace : Call → InPlace Unit
  | create t => InPlace.addTable t
  | drop name => do
    let _ ← InPlace.dropTable name
    return ()

def answer (call : Call) (s : Snapshot) : Except Fault Unit := (run call.inPlace.run s).1

def after (call : Call) (s : Snapshot) : Snapshot := (run call.inPlace.run s).2

end Call

/-- A call is kept with its answer. -/
def act (call : Call) (s : Snapshot) : (Call × Except Fault Unit) × Snapshot :=
  ((call, call.answer s), call.after s)

/-- The calls that succeeded. -/
def accepted (log : List (Call × Except Fault Unit)) : List Call :=
  (log.filter fun e => e.2.isOk).map (·.1)

/-- The tables that some successful calls leave: those created and not dropped since. -/
def standing : List Call → List Table
  | [] => []
  | .create t :: later => if .drop t.name ∈ later then standing later else t :: standing later
  | .drop _ :: later => standing later

variable {s : Snapshot} {t : Table} {name : String}

/-! ## What one call does -/

/-- A table that a registry has room for. -/
structure Fit (schema : Schema) (t : Table) : Prop where
  free : t.name ∉ schema.names
  valid : t.Valid

theorem fit_iff {schema : Schema} :
    Fit schema t ↔ schema.create t = .ok ⟨schema.tables ++ [t]⟩ := by
  rw [Schema.create_eq_ok_iff, Schema.contains_eq_false_iff]
  exact ⟨fun h => ⟨h.free, h.valid, rfl⟩, fun h => ⟨h.1, h.2.1⟩⟩

theorem create_cases (t : Table) (s : Snapshot) :
    (Fit s.schema t ∧ (Call.create t).answer s = .ok () ∧
        (Call.create t).after s = ⟨⟨s.schema.tables ++ [t]⟩, s.rows⟩) ∨
      (¬ Fit s.schema t ∧ (∃ fault, (Call.create t).answer s = .error fault) ∧
        (Call.create t).after s = s) := by
  have hrun : run (Call.create t).inPlace.run s = _ := InPlace.settles_addTable t s
  unfold Call.answer Call.after
  rw [hrun]
  cases h : s.schema.create t with
  | ok schema =>
    obtain ⟨-, -, rfl⟩ := Schema.create_eq_ok_iff.mp h
    exact .inl ⟨fit_iff.mpr h, rfl, rfl⟩
  | error refusal =>
    refine .inr ⟨fun hfit => ?_, ⟨_, rfl⟩, rfl⟩
    rw [fit_iff.mp hfit] at h
    cases h

theorem drop_cases (name : String) (s : Snapshot) :
    (name ∈ s.schema.names ∧ (Call.drop name).answer s = .ok () ∧
        (Call.drop name).after s = ⟨⟨s.schema.tables.eraseP (·.name = name)⟩, s.rows⟩) ∨
      (name ∉ s.schema.names ∧ (Call.drop name).answer s = .error (.tableNotFound name) ∧
        (Call.drop name).after s = s) := by
  have hrun : run (InPlace.dropTable name).run s = _ := InPlace.settles_dropTable name s
  unfold Call.answer Call.after Call.inPlace
  rw [run_exceptT_bind, hrun, ← Schema.contains_iff, Schema.contains, Snapshot.dropTable, Schema.drop?]
  cases s.schema.table? name with
  | none => exact .inr ⟨Bool.false_ne_true, rfl, rfl⟩
  | some t => exact .inl ⟨rfl, rfl, rfl⟩

theorem create_eq_ok_iff : (Call.create t).answer s = .ok () ↔ Fit s.schema t := by
  rcases create_cases t s with ⟨hfit, hanswer, -⟩ | ⟨hunfit, ⟨fault, hanswer⟩, -⟩
  · exact iff_of_true hanswer hfit
  · exact iff_of_false (by rw [hanswer]; exact nofun) hunfit

theorem drop_eq_ok_iff : (Call.drop name).answer s = .ok () ↔ name ∈ s.schema.names := by
  rcases drop_cases name s with ⟨hname, hanswer, -⟩ | ⟨hname, hanswer, -⟩
  · exact iff_of_true hanswer hname
  · exact iff_of_false (by rw [hanswer]; exact nofun) hname

theorem after_of_error {call : Call} {fault : Fault} (h : call.answer s = .error fault) :
    call.after s = s := by
  cases call with
  | create t =>
    rcases create_cases t s with ⟨-, hanswer, -⟩ | ⟨-, -, hafter⟩
    · rw [hanswer] at h
      cases h
    · exact hafter
  | drop name =>
    rcases drop_cases name s with ⟨-, hanswer, -⟩ | ⟨-, -, hafter⟩
    · rw [hanswer] at h
      cases h
    · exact hafter

/-! ## Distinct names -/

theorem eraseP_eq_filter {tables : List Table} (h : (tables.map (·.name)).Nodup) (name : String) :
    tables.eraseP (·.name = name) = tables.filter (·.name ≠ name) := by
  induction tables with
  | nil => rfl
  | cons t rest ih =>
    obtain ⟨ht, hrest⟩ := List.nodup_cons.mp h
    by_cases hname : t.name = name
    · -- The names behind it are others, and so nothing else goes.
      have hothers : ∀ other ∈ rest, decide (other.name ≠ name) = true := fun other hother =>
        decide_eq_true fun heq => ht (List.mem_map.mpr ⟨other, hother, heq.trans hname.symm⟩)
      rw [List.eraseP_cons_of_pos (by simpa using hname), List.filter_cons_of_neg (by simpa using hname),
        List.filter_eq_self.mpr hothers]
    · rw [List.eraseP_cons_of_neg (by simpa using hname),
        List.filter_cons_of_pos (by simpa using hname), ih hrest]

theorem eraseP_concat {tables : List Table} (h : t.name ∉ tables.map (·.name)) :
    (tables ++ [t]).eraseP (·.name = t.name) = tables := by
  have hothers : ∀ other ∈ tables, ¬ decide (other.name = t.name) = true := fun other hother heq =>
    h (List.mem_map.mpr ⟨other, hother, of_decide_eq_true heq⟩)
  rw [List.eraseP_append_right _ hothers]
  simp

/-- A table that was just created is dropped without a trace. -/
theorem trace_create_drop (h : (Call.create t).answer s = .ok ()) :
    trace act [.create t, .drop t.name] s =
      ([(.create t, .ok ()), (.drop t.name, .ok ())], s) := by
  rcases create_cases t s with ⟨hfit, -, hafter⟩ | ⟨-, ⟨fault, hanswer⟩, -⟩
  · rw [trace_cons, trace_cons, act, act, h, hafter]
    rcases drop_cases t.name ⟨⟨s.schema.tables ++ [t]⟩, s.rows⟩ with
      ⟨-, hdropped, hgone⟩ | ⟨hname, -, -⟩
    · rw [hdropped, hgone, eraseP_concat hfit.free]
      rfl
    · exact absurd (by simp [Schema.names]) hname
  · rw [hanswer] at h
    cases h

/-! ## Tables that stand -/

theorem accepted_concat_ok (log : List (Call × Except Fault Unit)) (call : Call) :
    accepted (log ++ [(call, .ok ())]) = accepted log ++ [call] := by
  simp [accepted, Except.isOk, Except.toBool]

theorem accepted_concat_error (log : List (Call × Except Fault Unit)) (call : Call) (fault : Fault) :
    accepted (log ++ [(call, .error fault)]) = accepted log := by
  simp [accepted, Except.isOk, Except.toBool]

theorem standing_concat_create (done : List Call) (t : Table) :
    standing (done ++ [.create t]) = standing done ++ [t] := by
  induction done with
  | nil => rfl
  | cons call later ih =>
    cases call with
    | drop name => exact ih
    | create other =>
      simp only [List.cons_append, standing, ih, List.mem_append, List.mem_singleton, reduceCtorEq,
        or_false]
      split
      · rfl
      · rfl

theorem standing_concat_drop (done : List Call) (name : String) :
    standing (done ++ [.drop name]) = (standing done).filter (·.name ≠ name) := by
  induction done with
  | nil => rfl
  | cons call later ih =>
    cases call with
    | drop other => exact ih
    | create t =>
      simp only [List.cons_append, standing, ih, List.mem_append, List.mem_singleton, Call.drop.injEq]
      by_cases hlater : Call.drop t.name ∈ later
      · rw [if_pos (.inl hlater), if_pos hlater]
      · rw [if_neg hlater]
        by_cases hname : t.name = name
        · rw [if_pos (.inr hname), List.filter_cons_of_neg (by simpa using hname)]
        · rw [if_neg (by simp [hlater, hname]), List.filter_cons_of_pos (by simpa using hname)]

/-- A table stands if it was created and no drop of its name came later. -/
theorem mem_standing {done : List Call} :
    t ∈ standing done ↔ ∃ later, .create t :: later <:+ done ∧ .drop t.name ∉ later := by
  induction done with
  | nil => simp [standing]
  | cons call later ih =>
    cases call with
    | drop name => simp [standing, ih, List.suffix_cons_iff]
    | create other =>
      simp only [standing, List.suffix_cons_iff, List.cons.injEq, Call.create.injEq]
      by_cases hdrop : Call.drop other.name ∈ later
      · rw [if_pos hdrop, ih]
        constructor
        · rintro ⟨since, hsince, hkept⟩
          exact ⟨since, .inr hsince, hkept⟩
        · rintro ⟨since, ⟨rfl, rfl⟩ | hsince, hkept⟩
          · exact absurd hdrop hkept
          · exact ⟨since, hsince, hkept⟩
      · rw [if_neg hdrop, List.mem_cons, ih]
        constructor
        · rintro (rfl | ⟨since, hsince, hkept⟩)
          · exact ⟨later, .inl ⟨rfl, rfl⟩, hdrop⟩
          · exact ⟨since, .inr hsince, hkept⟩
        · rintro ⟨since, ⟨rfl, rfl⟩ | hsince, hkept⟩
          · exact .inl rfl
          · exact .inr ⟨since, hsince, hkept⟩

/-! ## Any sequence of calls -/

/-- What is known of a registry from the calls so far. -/
structure Reached (log : List (Call × Except Fault Unit)) (s : Snapshot) : Prop where
  valid : s.schema.Valid
  tables : s.schema.tables = standing (accepted log)

theorem reached_empty (rows : Rows) : Reached [] ⟨.empty, rows⟩ := ⟨Schema.valid_empty, rfl⟩

theorem Reached.act {log : List (Call × Except Fault Unit)} (h : Reached log s) (call : Call) :
    Reached (log ++ [(act call s).1]) (act call s).2 := by
  unfold Registry.act
  cases call with
  | create t =>
    rcases create_cases t s with ⟨hfit, hanswer, hafter⟩ | ⟨-, ⟨fault, hanswer⟩, hafter⟩
    · rw [hanswer, hafter]
      refine ⟨h.valid.create (fit_iff.mp hfit), ?_⟩
      rw [accepted_concat_ok, standing_concat_create, ← h.tables]
    · rw [hanswer, hafter]
      exact ⟨h.valid, (accepted_concat_error log _ fault).symm ▸ h.tables⟩
  | drop name =>
    rcases drop_cases name s with ⟨hname, hanswer, hafter⟩ | ⟨-, hanswer, hafter⟩
    · rw [hanswer, hafter]
      rw [← Schema.contains_iff, Schema.contains, Option.isSome_iff_exists] at hname
      obtain ⟨t, ht⟩ := hname
      refine ⟨h.valid.drop (Schema.drop?_eq_some_iff.mpr ⟨ht, rfl⟩), ?_⟩
      rw [accepted_concat_ok, standing_concat_drop, ← h.tables]
      exact eraseP_eq_filter h.valid.nodup name
    · rw [hanswer, hafter]
      exact ⟨h.valid, (accepted_concat_error log _ _).symm ▸ h.tables⟩

theorem reached_trace (calls : List Call) (rows : Rows) :
    Reached (trace act calls ⟨.empty, rows⟩).1 (trace act calls ⟨.empty, rows⟩).2 :=
  trace_history (fun call _ _ _ h => h.act call) (reached_empty rows)

theorem table?_eq_some_iff (hs : s.schema.Valid) :
    s.schema.table? name = some t ↔ t ∈ s.schema.tables ∧ t.name = name := by
  constructor
  · exact Schema.table?_eq_some
  · rintro ⟨ht, rfl⟩
    exact hs.table?_of_mem ht

/-- After any sequence of calls to an empty registry, it creates exactly the valid tables of free names,
drops exactly the names it knows, and is left as it is by a call that fails.  Its tables are those that were
created and not dropped since, in the order of their creation and as they were created.  Their names are
distinct, and each of them consists of its primary key and its data columns.  To drop a table that was just
created restores the registry. -/
theorem registry_keeps_tables (calls : List Call) (rows : Rows) :
    let log := (trace act calls ⟨.empty, rows⟩).1
    let s := (trace act calls ⟨.empty, rows⟩).2
    (∀ t, (Call.create t).answer s = .ok () ↔
        t.name ∉ s.schema.names ∧ t.columns.head? = some Column.key ∧ t.columnNames.Nodup) ∧
      (∀ name, (Call.drop name).answer s = .ok () ↔ name ∈ s.schema.names) ∧
      (∀ call fault, Call.answer call s = .error fault → call.after s = s) ∧
      s.schema.tables = standing (accepted log) ∧ s.schema.names.Nodup ∧
      (∀ name t, s.schema.table? name = some t ↔
        t.name = name ∧ ∃ later, .create t :: later <:+ accepted log ∧ .drop name ∉ later) ∧
      (∀ t ∈ s.schema.tables, t.dataColumns = t.columns.tail) ∧
      ∀ t, (Call.create t).answer s = .ok () →
        trace act [.create t, .drop t.name] s =
          ([(.create t, .ok ()), (.drop t.name, .ok ())], s) := by
  intro log s
  obtain ⟨hvalid, htables⟩ : Reached log s := reached_trace calls rows
  refine ⟨fun t => ?_, fun name => drop_eq_ok_iff, fun call fault => after_of_error, htables,
    hvalid.nodup, fun name t => ?_, fun t ht => ?_, fun t => trace_create_drop⟩
  · rw [create_eq_ok_iff]
    exact ⟨fun h => ⟨h.free, h.valid.head, h.valid.nodup⟩, fun h => ⟨h.1, h.2.1, h.2.2⟩⟩
  · rw [table?_eq_some_iff hvalid, htables, mem_standing, and_comm]
    exact and_congr_right fun hname => by rw [hname]
  · have hcolumns : t.columns = Column.key :: t.dataColumns := (hvalid.tables t ht).columns_eq
    exact (congrArg List.tail hcolumns).symm

end Registry
end TableStore
