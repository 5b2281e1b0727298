/-
Computations that may be refused.

When a computation in `Except` succeeds, everything that it is put together from has succeeded, and
these lemmas take it apart: a sequence, a check, a loop over a list.  When it is refused, one part was
refused and every part before it went through (`FirstRefusal` for the loops).
-/
namespace TableStore

theorem bind_eq_ok_iff {ε α β : Type} {x : Except ε α} {f : α → Except ε β} {b : β} :
    x >>= f = .ok b ↔ ∃ a, x = .ok a ∧ f a = .ok b := by
  cases x with
  | error e => simp [bind, Except.bind]
  | ok a => simp [bind, Except.bind]

theorem pure_eq_ok_iff {ε α : Type} {a b : α} : (pure a : Except ε α) = .ok b ↔ a = b := by
  simp [pure, Except.pure]

theorem check_eq_ok_iff {ε α β : Type} {c : Prop} [Decidable c] {e : ε} {f : α → Except ε β}
    {x : Except ε β} {b : β} :
    (if c then throw e >>= f else x) = .ok b ↔ ¬ c ∧ x = .ok b := by
  by_cases h : c <;> simp [h, throw, throwThe, MonadExceptOf.throw, bind, Except.bind]

theorem mapError_eq_ok_iff {ε ε' α : Type} {x : Except ε α} {f : ε → ε'} {a : α} :
    x.mapError f = .ok a ↔ x = .ok a := by
  cases x with
  | error e => exact ⟨nofun, nofun⟩
  | ok b =>
    show (Except.ok b : Except ε' α) = .ok a ↔ _
    rw [Except.ok.injEq, Except.ok.injEq]

theorem forM_eq_ok_iff {ε α : Type} {l : List α} {f : α → Except ε Unit} :
    l.forM f = .ok () ↔ ∀ a ∈ l, f a = .ok () := by
  induction l with
  | nil => simp [pure, Except.pure]
  | cons a rest ih =>
    rw [List.forM_eq_forM, List.forM_cons, bind_eq_ok_iff]
    rw [List.forM_eq_forM] at ih
    constructor
    · intro h b hb
      obtain ⟨_, ha, hrest⟩ := h
      rcases List.mem_cons.mp hb with rfl | hb
      · exact ha
      · exact ih.mp hrest b hb
    · intro h
      exact ⟨(), h a (by simp), ih.mpr fun b hb => h b (List.mem_cons_of_mem a hb)⟩

theorem exists_mapM_eq_ok {ε α β : Type} {P : β → Prop} {l : List α} {f : α → Except ε β}
    (h : ∀ a ∈ l, ∃ b, f a = .ok b ∧ P b) :
    ∃ bs, l.mapM f = .ok bs ∧ bs.length = l.length ∧ ∀ b ∈ bs, P b := by
  induction l with
  | nil => exact ⟨[], rfl, rfl, by simp⟩
  | cons a rest ih =>
    obtain ⟨b, hb, hP⟩ := h a (by simp)
    obtain ⟨bs, hbs, hlength, hall⟩ := ih fun a ha => h a (List.mem_cons_of_mem _ ha)
    refine ⟨b :: bs, ?_, by simp [hlength], by simpa [hP] using hall⟩
    rw [List.mapM_cons, bind_eq_ok_iff]
    exact ⟨b, hb, bind_eq_ok_iff.mpr ⟨bs, hbs, rfl⟩⟩

/-- A loop goes through if it does at every item. -/
theorem exists_mapM_iff {ε α β : Type} {l : List α} {f : α → Except ε β} :
    (∃ bs, l.mapM f = .ok bs) ↔ ∀ a ∈ l, ∃ b, f a = .ok b := by
  constructor
  · intro h
    induction l with
    | nil => exact nofun
    | cons a rest ih =>
      obtain ⟨bs, hbs⟩ := h
      rw [List.mapM_cons, bind_eq_ok_iff] at hbs
      obtain ⟨b, hb, hbs⟩ := hbs
      obtain ⟨bs', hrest, -⟩ := bind_eq_ok_iff.mp hbs
      exact List.forall_mem_cons.mpr ⟨⟨b, hb⟩, ih ⟨bs', hrest⟩⟩
  · intro h
    obtain ⟨bs, hbs, -⟩ := exists_mapM_eq_ok (P := fun _ => True) fun a ha =>
      (h a ha).imp fun _ hb => ⟨hb, trivial⟩
    exact ⟨bs, hbs⟩

/-! ## Refusals -/

theorem bind_eq_error_iff {ε α β : Type} {x : Except ε α} {f : α → Except ε β} {e : ε} :
    x >>= f = .error e ↔ x = .error e ∨ ∃ a, x = .ok a ∧ f a = .error e := by
  cases x with
  | error e' => simp [bind, Except.bind]
  | ok a => simp [bind, Except.bind]

theorem exists_ok_iff {ε α : Type} {x : Except ε α} : (∃ a, x = .ok a) ↔ ∀ e, x ≠ .error e := by
  cases x <;> simp

/-- What is refused for the same ends alike. -/
theorem map_eq_map_of_error_iff {ε α : Type} {x y : Except ε α}
    (h : ∀ e, x = .error e ↔ y = .error e) : (x.map fun _ => ()) = y.map fun _ => () := by
  cases x with
  | error e => rw [(h e).mp rfl]
  | ok a =>
    cases y with
    | error e => cases (h e).mpr rfl
    | ok b => rfl

theorem check_eq_error_iff {ε α β : Type} {c : Prop} [Decidable c] {e e' : ε} {f : α → Except ε β}
    {x : Except ε β} :
    (if c then throw e >>= f else x) = .error e' ↔ c ∧ e' = e ∨ ¬ c ∧ x = .error e' := by
  by_cases h : c
  · simp [h, throw, throwThe, MonadExceptOf.throw, bind, Except.bind, eq_comm]
  · simp [h]

/-- Of the computations for some items, those up to one item go through and that one is refused. -/
inductive FirstRefusal {ε α β : Type} (f : α → Except ε β) (e : ε) : List α → Prop where
  | here {a : α} {rest : List α} (h : f a = .error e) : FirstRefusal f e (a :: rest)
  | later {a : α} {b : β} {rest : List α} (h : f a = .ok b) (hrest : FirstRefusal f e rest) :
    FirstRefusal f e (a :: rest)

theorem firstRefusal_cons_iff {ε α β : Type} {f : α → Except ε β} {e : ε} {a : α} {rest : List α} :
    FirstRefusal f e (a :: rest) ↔
      f a = .error e ∨ ∃ b, f a = .ok b ∧ FirstRefusal f e rest := by
  constructor
  · intro h
    cases h with
    | here h => exact .inl h
    | later h hrest => exact .inr ⟨_, h, hrest⟩
  · intro h
    rcases h with h | ⟨b, h, hrest⟩
    · exact .here h
    · exact .later h hrest

theorem firstRefusal_iff {ε α β : Type} {f : α → Except ε β} {e : ε} {l : List α} :
    FirstRefusal f e l ↔
      ∃ before a after, l = before ++ a :: after ∧ (∀ b ∈ before, ∃ c, f b = .ok c) ∧
        f a = .error e := by
  constructor
  · intro h
    induction h with
    | @here a rest h => exact ⟨[], a, rest, rfl, nofun, h⟩
    | @later a b rest h _ ih =>
      obtain ⟨before, a', after, rfl, hbefore, ha'⟩ := ih
      exact ⟨a :: before, a', after, rfl, List.forall_mem_cons.mpr ⟨⟨b, h⟩, hbefore⟩, ha'⟩
  · intro h
    obtain ⟨before, a, after, rfl, hbefore, ha⟩ := h
    induction before with
    | nil => exact .here ha
    | cons b before ih =>
      obtain ⟨⟨c, hc⟩, hbefore⟩ := List.forall_mem_cons.mp hbefore
      exact .later hc (ih hbefore)

/-- A loop is refused at the first item that is. -/
theorem forM_eq_error_iff {ε α : Type} {l : List α} {f : α → Except ε Unit} {e : ε} :
    l.forM f = .error e ↔ FirstRefusal f e l := by
  induction l with
  | nil => exact ⟨nofun, nofun⟩
  | cons a rest ih =>
    rw [List.forM_eq_forM, List.forM_cons, bind_eq_error_iff, firstRefusal_cons_iff, ← ih,
      List.forM_eq_forM]

theorem mapM_eq_error_iff {ε α β : Type} {l : List α} {f : α → Except ε β} {e : ε} :
    l.mapM f = .error e ↔ FirstRefusal f e l := by
  induction l with
  | nil => exact ⟨nofun, nofun⟩
  | cons a rest ih =>
    rw [List.mapM_cons, bind_eq_error_iff, firstRefusal_cons_iff, ← ih]
    simp [bind_eq_error_iff, pure, Except.pure]

end TableStore
