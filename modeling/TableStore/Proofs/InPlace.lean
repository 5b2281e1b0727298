import TableStore.Execution.InPlace
import TableStore.Proofs.Execution
import TableStore.Proofs.Keys
import TableStore.Proofs.Stateful

/-
Carrying out a statement in place comes to the same as changing a copy (`run_inPlace`).

Every action here is a row of checks with one change behind them, and a check leaves the snapshot as it
is, so a fault does too (`Settles.read`, `Settles.check`).  The two loops over the records look at each
record before they change it and at no record twice, so they see the records that were there at first
(`run_visit`).
-/
namespace TableStore
namespace InPlace

open Stateful

section

variable {α β : Type}

@[simp] theorem run_result (r : Except Fault α) (s : Snapshot) : run (result r).run s = (r, s) := rfl

@[simp] theorem run_look (f : Snapshot → Except Fault α) (s : Snapshot) :
    run (look f).run s = (f s, s) := rfl

/-- What a change of a copy comes to in place: a fault leaves the snapshot. -/
def settled (s : Snapshot) : Except Fault (α × Snapshot) → Except Fault α × Snapshot
  | .ok (a, after) => (.ok a, after)
  | .error fault => (.error fault, s)

/-- On this snapshot an action comes to what changing a copy does. -/
def Settles (x : InPlace α) (s : Snapshot) (r : Except Fault (α × Snapshot)) : Prop :=
  run x.run s = settled s r

namespace Settles

variable {s : Snapshot}

/-- What only reads the snapshot can come first. -/
theorem read {x : InPlace β} {f : β → InPlace α} {r : Except Fault β}
    {g : β → Except Fault (α × Snapshot)} (hx : run x.run s = (r, s))
    (hf : ∀ b, Settles (f b) s (g b)) : Settles (x >>= f) s (r >>= g) := by
  unfold Settles
  rw [run_exceptT_bind, hx]
  cases r with
  | error fault => rfl
  | ok b => exact hf b

theorem get {f : Snapshot → InPlace α} {r : Except Fault (α × Snapshot)}
    (hf : Settles (f s) s r) : Settles (MonadState.get >>= f) s r := by
  unfold Settles
  rw [run_exceptT_bind]
  exact hf

theorem check {c : Prop} [Decidable c] {fault : Fault} {f : β → InPlace α} {x : InPlace α}
    {g : β → Except Fault (α × Snapshot)} {r : Except Fault (α × Snapshot)} (hx : Settles x s r) :
    Settles (if c then throw fault >>= f else x) s (if c then throw fault >>= g else r) := by
  split
  · rfl
  · exact hx

theorem pure (a : α) : Settles (Pure.pure a) s (Pure.pure (a, s)) := rfl

/-- The change comes last. -/
theorem change (f : Snapshot → Snapshot) (a : α) :
    Settles (modify f >>= fun _ => Pure.pure a) s (Pure.pure (a, f s)) := rfl

end Settles

end

/-! ## The loops -/

section

variable (condition : Fields) (change : Fields → Option Fields)

theorem get?_replace (rows : Rows) (id : Int64) (record : Option Fields) (k : Int64) :
    (replace rows id record).get? k = if k = id then record else rows.get? k := by
  cases record with
  | none => exact SortedMap.get?_erase rows id k
  | some record => exact SortedMap.get?_insert rows id k record

theorem hit?_replace_of_ne {rows : Rows} {id k : Int64} (hk : k ≠ id) (record : Option Fields) :
    hit? condition (replace rows id record) k = hit? condition rows k := by
  rw [hit?, get?_replace, if_neg hk, hit?]

theorem run_visit_of_none {s : Snapshot} {id : Int64} (h : hit? condition s.rows id = none)
    (rest : List Int64) :
    run (visit condition change (id :: rest)) s = run (visit condition change rest) s := by
  have hread : hit? condition (run (get : StateM Snapshot Snapshot) s).1.rows id = none := h
  rw [visit, run_bind, hread]
  rfl

theorem run_visit_of_some {s : Snapshot} {id : Int64} {record : Fields}
    (h : hit? condition s.rows id = some record) (rest : List Int64) :
    run (visit condition change (id :: rest)) s =
      (id :: (run (visit condition change rest) ⟨s.schema, replace s.rows id (change record)⟩).1,
        (run (visit condition change rest) ⟨s.schema, replace s.rows id (change record)⟩).2) := by
  have hread : hit? condition (run (get : StateM Snapshot Snapshot) s).1.rows id = some record := h
  rw [visit, run_bind, hread]
  rfl

/-- A visit notes the keys of the records that satisfied the condition at first, and changes these
records and nothing else. -/
theorem run_visit {keys : List Int64} (hkeys : keys.Nodup) (s : Snapshot) :
    (run (visit condition change keys) s).1 =
        keys.filter (fun id => (hit? condition s.rows id).isSome) ∧
      (run (visit condition change keys) s).2.schema = s.schema ∧
      ∀ id, (run (visit condition change keys) s).2.rows.get? id =
        if id ∈ keys then (hit? condition s.rows id).elim (s.rows.get? id) change
        else s.rows.get? id := by
  induction keys generalizing s with
  | nil => exact ⟨rfl, rfl, fun id => by simp [visit]⟩
  | cons id rest ih =>
    obtain ⟨hid, hrest⟩ := List.nodup_cons.mp hkeys
    cases h : hit? condition s.rows id with
    | none =>
      obtain ⟨hids, hschema, hrows⟩ := ih hrest s
      rw [run_visit_of_none condition change h]
      refine ⟨?_, hschema, fun k => ?_⟩
      · rw [hids, List.filter_cons_of_neg (by simp [h])]
      · rw [hrows]
        by_cases hk : k = id
        · subst hk
          simp [h]
        · simp [hk]
    | some record =>
      obtain ⟨hids, hschema, hrows⟩ := ih hrest ⟨s.schema, replace s.rows id (change record)⟩
      rw [run_visit_of_some condition change h]
      refine ⟨?_, hschema, fun k => ?_⟩
      · rw [List.filter_cons_of_pos (by simp [h])]
        -- No later key is this one, so the records behind it are those of the start.
        have hlater : ∀ k ∈ rest, k ≠ id := fun k hk heq => hid (heq ▸ hk)
        exact hids ▸ congrArg (id :: ·) (List.filter_congr fun k hk => by
          rw [hit?_replace_of_ne condition (hlater k hk)])
      · by_cases hk : k = id
        · subst hk
          simp [hrows, hid, get?_replace, h]
        · simp [hrows, hk, get?_replace, hit?_replace_of_ne condition hk]

end
theorem nodup_keys (rows : Rows) : rows.keys.Nodup := by
  have hne : rows.entries.Pairwise fun a b => a.1 ≠ b.1 := by
    refine rows.ascending.imp fun {a b} hlt heq => ?_
    rw [heq] at hlt
    exact KeyOrder.irrefl _ hlt
  exact List.pairwise_map.mpr hne

theorem hit?_of_mem {rows : Rows} {e : Int64 × Fields} (he : e ∈ rows.entries) (condition : Fields) :
    (hit? condition rows e.1).isSome = e.2.satisfies e.1 condition := by
  rw [hit?, SortedMap.get?_eq_some_iff.mpr he]
  cases h : e.2.satisfies e.1 condition <;> simp [h]

/-- The keys that a visit of all records notes. -/
theorem run_visit_keys (condition : Fields) (change : Fields → Option Fields) (s : Snapshot) :
    (run (visit condition change s.rows.keys) s).1 = (Snapshot.matching condition s.rows).keys := by
  rw [(run_visit condition change (nodup_keys s.rows) s).1, SortedMap.keys, List.filter_map]
  exact congrArg (List.map _) (List.filter_congr fun e he => hit?_of_mem he condition)

/-- The snapshot that a visit of all records leaves. -/
theorem run_visit_rows {condition : Fields} {change : Fields → Option Fields} {s : Snapshot}
    {rows : Rows} (hrows : ∀ id, rows.get? id =
      (s.rows.get? id).bind fun record =>
        if record.satisfies id condition then change record else some record) :
    (run (visit condition change s.rows.keys) s).2 = ⟨s.schema, rows⟩ := by
  obtain ⟨-, hschema, hleft⟩ := run_visit condition change (nodup_keys s.rows) s
  rcases hrun : run (visit condition change s.rows.keys) s with ⟨ids, schema, left⟩
  rw [hrun] at hschema hleft
  have hsame : left = rows := by
    refine SortedMap.ext_get? fun id => ?_
    rw [hleft, hrows]
    cases h : s.rows.get? id with
    | none => simp [hit?, h]
    | some record =>
      have hmem : id ∈ s.rows.keys :=
        Rows.contains_iff_mem_keys.mp (by simp [SortedMap.contains, h])
      by_cases hsat : record.satisfies id condition = true <;>
        simp [hit?, h, hmem, hsat, Option.filter]
  rw [hsame]
  exact congrArg (Snapshot.mk · rows) hschema

theorem run_visit_update (condition assignments : Fields) (s : Snapshot) :
    (run (visit condition (fun record => some (record.overlay assignments)) s.rows.keys) s).2 =
      ⟨s.schema, s.rows.map fun id record =>
        if record.satisfies id condition then record.overlay assignments else record⟩ := by
  refine run_visit_rows fun id => ?_
  rw [SortedMap.get?_map]
  cases s.rows.get? id with
  | none => rfl
  | some record => by_cases hsat : record.satisfies id condition = true <;> simp [hsat]

theorem run_visit_delete (condition : Fields) (s : Snapshot) :
    (run (visit condition (fun _ => none) s.rows.keys) s).2 =
      ⟨s.schema, s.rows.filter fun id record => !record.satisfies id condition⟩ := by
  refine run_visit_rows fun id => ?_
  rw [SortedMap.get?_filter]
  cases s.rows.get? id with
  | none => rfl
  | some record => by_cases hsat : record.satisfies id condition = true <;> simp [hsat]

/-! ## Statements -/

theorem settles_visit {condition : Fields} {change : Fields → Option Fields} {s after : Snapshot}
    (h : (run (visit condition change s.rows.keys) s).2 = after) (answer : List Int64 → Outcome) :
    Settles (ExceptT.lift (visit condition change s.rows.keys) >>= fun ids => pure (answer ids)) s
      (pure (answer (Snapshot.matching condition s.rows).keys, after)) := by
  unfold Settles
  rw [run_exceptT_bind]
  have hlift : run (ExceptT.lift (ε := Fault) (visit condition change s.rows.keys)).run s =
      (.ok (run (visit condition change s.rows.keys) s).1,
        (run (visit condition change s.rows.keys) s).2) := rfl
  rw [hlift, h, run_visit_keys]
  rfl

/-- The second check of a new table comes before it is added, too. -/
theorem settles_addTable (t : Table) (s : Snapshot) :
    Settles (addTable t) s
      ((s.schema.create t).mapError .refused >>= fun schema => pure ((), ⟨schema, s.rows⟩)) := by
  unfold addTable Schema.create
  refine .get ?_
  cases s.schema.contains t.name with
  | true => rfl
  | false =>
    cases t.validate with
    | error cause => rfl
    | ok _ => rfl

theorem settles_createTable (name : String) (declarations : List String) (s : Snapshot) :
    Settles (createTable name declarations) s (s.createTable name declarations) := by
  unfold createTable Snapshot.createTable
  refine .check (.get (.check (.read (run_result _ s) fun t => ?_)))
  unfold Settles
  rw [run_exceptT_bind, settles_addTable]
  cases (s.schema.create t).mapError Fault.refused with
  | error fault => rfl
  | ok schema => rfl

theorem settles_dropTable (name : String) (s : Snapshot) :
    Settles (dropTable name) s (s.dropTable name) := by
  unfold dropTable Snapshot.dropTable Schema.drop? Schema.table?
  refine .get ?_
  have hfound : (s.schema.tables.find? (·.name = name)).isSome =
      (s.schema.tables.findIdx? (·.name = name)).isSome := by
    rw [List.findIdx?_isSome, List.isSome_find?]
  rw [List.eraseP_eq_eraseIdx]
  cases hplace : s.schema.tables.findIdx? (·.name = name) with
  | none =>
    rw [hplace, Option.isSome_none, Option.isSome_eq_false_iff, Option.isNone_iff_eq_none] at hfound
    rw [hfound]
    rfl
  | some place =>
    rw [hplace, Option.isSome_some, Option.isSome_iff_exists] at hfound
    obtain ⟨t, ht⟩ := hfound
    rw [ht]
    rfl

theorem settles_info (name : String) (s : Snapshot) : Settles (info name) s (s.info name) := by
  unfold info Snapshot.info
  exact .read (run_look _ s) fun t => .get (.pure _)

theorem settles_insert (name : String) (values : List Value) (s : Snapshot) :
    Settles (insert name values) s (s.insert name values) := by
  unfold insert Snapshot.insert
  exact .read (run_look _ s) fun t => .check (.read (run_result _ s) fun record =>
    .read (run_look _ s) fun id => .change _ _)

theorem settles_select (name : String) (condition : Option Fields) (s : Snapshot) :
    Settles (select name condition) s (s.select name condition) := by
  unfold select Snapshot.select
  exact .read (run_look _ s) fun t => .read (run_result _ s) fun _ =>
    .read (run_look _ s) fun rows => .pure _

theorem settles_update (name : String) (assignments condition : Fields) (s : Snapshot) :
    Settles (update name assignments condition) s (s.update name assignments condition) := by
  unfold update Snapshot.update
  exact .read (run_look _ s) fun t => .check (.read (run_result _ s) fun _ =>
    .read (run_result _ s) fun _ =>
      .get (settles_visit (run_visit_update condition assignments s) _))

theorem settles_delete (name : String) (condition : Fields) (s : Snapshot) :
    Settles (delete name condition) s (s.delete name condition) := by
  unfold delete Snapshot.delete
  exact .read (run_look _ s) fun t => .read (run_result _ s) fun _ =>
      .get (settles_visit (run_visit_delete condition s) _)

end InPlace

/-- Carrying a statement out in place comes to the same as changing a copy, and where that fails nothing
has been changed. -/
theorem Statement.settles_inPlace (statement : Statement) (s : Snapshot) :
    InPlace.Settles statement.inPlace s (statement.execute s) := by
  cases statement with
  | createTable name declarations => exact InPlace.settles_createTable name declarations s
  | dropTable name => exact InPlace.settles_dropTable name s
  | insert name values => exact InPlace.settles_insert name values s
  | select name condition => exact InPlace.settles_select name condition s
  | update name assignments condition =>
    exact InPlace.settles_update name assignments condition s
  | delete name condition => exact InPlace.settles_delete name condition s
  | info name => exact InPlace.settles_info name s
  | listTables => rfl
  | help => rfl
  | exit => rfl
  | unknown word => rfl

theorem Statement.run_inPlace_eq_ok_iff {statement : Statement} {s after : Snapshot}
    {outcome : Outcome} :
    Stateful.run statement.inPlace.run s = (.ok outcome, after) ↔
      statement.execute s = .ok (outcome, after) := by
  rw [statement.settles_inPlace s]
  cases statement.execute s <;> simp [InPlace.settled, Prod.ext_iff]

end TableStore
