/-
Finite maps kept as ascending lists of bindings.

The order is part of the value: a map has one representation for each content, so listing it always
gives the keys in ascending order, and two maps that answer every look-up alike are equal
(`SortedMap.ext_get?`).
-/
namespace TableStore

/-- A strict order in which any two keys compare. -/
class KeyOrder (κ : Type) [LT κ] : Prop where
  irrefl (a : κ) : ¬ a < a
  trans {a b c : κ} : a < b → b < c → a < c
  eq_of_not_lt {a b : κ} : ¬ a < b → ¬ b < a → a = b

theorem KeyOrder.ofLinear {κ : Type} [LT κ] [LE κ] [Std.IsLinearOrder κ] [Std.LawfulOrderLT κ] :
    KeyOrder κ where
  irrefl _ := Std.lt_irrefl
  trans := Std.lt_trans
  eq_of_not_lt hab hba := Std.le_antisymm (Std.not_lt.mp hba) (Std.not_lt.mp hab)

instance : KeyOrder String := .ofLinear

instance : KeyOrder Int64 := .ofLinear

instance : KeyOrder (List String) := .ofLinear

/-- A finite map from `κ` to `α`: its bindings, in strictly ascending order of their keys. -/
@[ext]
structure SortedMap (κ α : Type) [LT κ] where
  entries : List (κ × α)
  ascending : entries.Pairwise fun a b => a.1 < b.1
deriving DecidableEq

namespace SortedMap

variable {κ α β : Type} [LT κ]

def empty : SortedMap κ α := ⟨[], .nil⟩

instance : EmptyCollection (SortedMap κ α) := ⟨empty⟩

instance : Inhabited (SortedMap κ α) := ⟨empty⟩

def size (m : SortedMap κ α) : Nat := m.entries.length

def keys (m : SortedMap κ α) : List κ := m.entries.map (·.1)

/-- The binding with the greatest key. -/
def last? (m : SortedMap κ α) : Option (κ × α) := m.entries.getLast?

/-- Applies `f` to every value; the keys stay. -/
def map (f : κ → α → β) (m : SortedMap κ α) : SortedMap κ β :=
  ⟨m.entries.map fun e => (e.1, f e.1 e.2), List.pairwise_map.mpr m.ascending⟩

/-- Keeps the bindings that `p` accepts. -/
def filter (p : κ → α → Bool) (m : SortedMap κ α) : SortedMap κ α :=
  ⟨m.entries.filter fun e => p e.1 e.2, m.ascending.filter _⟩

section Lookup

variable [DecidableEq κ]

def get? (m : SortedMap κ α) (k : κ) : Option α := m.entries.lookup k

def contains (m : SortedMap κ α) (k : κ) : Bool := (m.get? k).isSome

def erase (m : SortedMap κ α) (k : κ) : SortedMap κ α := m.filter fun k' _ => k' ≠ k

end Lookup

/-- Binds `k` to `v` in an ascending list, in place of any binding that `k` had. -/
def insertEntry [DecidableLT κ] (k : κ) (v : α) : List (κ × α) → List (κ × α)
  | [] => [(k, v)]
  | e :: rest =>
    if k < e.1 then (k, v) :: e :: rest
    else if e.1 < k then e :: insertEntry k v rest
    else (k, v) :: rest

theorem mem_insertEntry [DecidableLT κ] {k : κ} {v : α} {e : κ × α} {l : List (κ × α)}
    (h : e ∈ insertEntry k v l) : e = (k, v) ∨ e ∈ l := by
  induction l with
  | nil => simpa [insertEntry] using h
  | cons d rest ih =>
    unfold insertEntry at h
    split at h
    · simpa using h
    · split at h
      · rcases List.mem_cons.mp h with h | h
        · exact .inr (by simp [h])
        · exact (ih h).imp id (List.mem_cons_of_mem _)
      · rcases List.mem_cons.mp h with h | h
        · exact .inl h
        · exact .inr (List.mem_cons_of_mem _ h)

section Insert

variable [KeyOrder κ] [DecidableLT κ]

theorem pairwise_insertEntry (k : κ) (v : α) {l : List (κ × α)}
    (h : l.Pairwise fun a b => a.1 < b.1) :
    (insertEntry k v l).Pairwise fun a b => a.1 < b.1 := by
  induction l with
  | nil => simp [insertEntry]
  | cons d rest ih =>
    obtain ⟨hd, hrest⟩ := List.pairwise_cons.mp h
    unfold insertEntry
    split
    · next hk =>
      refine List.pairwise_cons.mpr ⟨fun e he => ?_, h⟩
      rcases List.mem_cons.mp he with rfl | he
      · exact hk
      · exact KeyOrder.trans hk (hd e he)
    · next hk =>
      split
      · next hd' =>
        refine List.pairwise_cons.mpr ⟨fun e he => ?_, ih hrest⟩
        rcases mem_insertEntry he with rfl | he
        · exact hd'
        · exact hd e he
      · next hd' =>
        have : k = d.1 := KeyOrder.eq_of_not_lt hk hd'
        subst this
        exact List.pairwise_cons.mpr ⟨hd, hrest⟩

/-- Binds `k` to `v`; a binding that `k` had before is gone. -/
def insert (m : SortedMap κ α) (k : κ) (v : α) : SortedMap κ α :=
  ⟨insertEntry k v m.entries, pairwise_insertEntry k v m.ascending⟩

/-- Every binding of `new` on top of `m`. -/
def overlay (m new : SortedMap κ α) : SortedMap κ α :=
  new.entries.foldl (fun m e => m.insert e.1 e.2) m

/-- The map of a list of bindings in any order; of two bindings of one key the later one counts. -/
def ofList (l : List (κ × α)) : SortedMap κ α := l.foldl (fun m e => m.insert e.1 e.2) empty

def singleton (k : κ) (v : α) : SortedMap κ α := ⟨[(k, v)], by simp⟩

end Insert

/-! ## What the operations do to look-ups -/

@[simp] theorem get?_empty [DecidableEq κ] (k : κ) : (empty : SortedMap κ α).get? k = none := rfl

omit [LT κ] in
theorem lookup_cons [DecidableEq κ] (k : κ) (e : κ × α) (l : List (κ × α)) :
    (e :: l).lookup k = if k = e.1 then some e.2 else l.lookup k := by
  obtain ⟨a, v⟩ := e
  by_cases h : k = a
  · simp [h]
  · simp [List.lookup_cons, h, beq_false_of_ne h]

section Laws

variable [KeyOrder κ] [DecidableEq κ]

theorem lookup_insertEntry [DecidableLT κ] (k k' : κ) (v : α) (l : List (κ × α)) :
    (insertEntry k v l).lookup k' = if k' = k then some v else l.lookup k' := by
  induction l with
  | nil => simp [insertEntry, lookup_cons]
  | cons e rest ih =>
    unfold insertEntry
    split
    · simp [lookup_cons]
    · next hk =>
      split
      · next he =>
        have hne : e.1 ≠ k := fun h => KeyOrder.irrefl _ (h ▸ he)
        by_cases h : k' = e.1
        · simp [lookup_cons, h, hne]
        · simp [lookup_cons, h, ih]
      · next he =>
        have : k = e.1 := KeyOrder.eq_of_not_lt hk he
        subst this
        by_cases h : k' = e.1 <;> simp [lookup_cons, h]

theorem get?_insert [DecidableLT κ] (m : SortedMap κ α) (k k' : κ) (v : α) :
    (m.insert k v).get? k' = if k' = k then some v else m.get? k' :=
  lookup_insertEntry k k' v m.entries

theorem get?_eq_some_iff {m : SortedMap κ α} {k : κ} {v : α} :
    m.get? k = some v ↔ (k, v) ∈ m.entries := by
  obtain ⟨l, hl⟩ := m
  simp only [get?]
  induction l with
  | nil => simp
  | cons e rest ih =>
    obtain ⟨he, hrest⟩ := List.pairwise_cons.mp hl
    by_cases h : k = e.1
    · subst h
      have hmem : (e.1, v) ∉ rest := fun hm => KeyOrder.irrefl _ (he (e.1, v) hm)
      simp [lookup_cons, hmem, Prod.ext_iff, eq_comm]
    · simp [lookup_cons, h, ih hrest, Prod.ext_iff]

omit [KeyOrder κ] in
theorem get?_map (f : κ → α → β) (m : SortedMap κ α) (k : κ) :
    (m.map f).get? k = (m.get? k).map (f k) := by
  obtain ⟨l, _⟩ := m
  simp only [get?, map]
  induction l with
  | nil => rfl
  | cons e rest ih =>
    rw [List.map_cons, lookup_cons, lookup_cons, ih (by simp_all)]
    by_cases h : k = e.1 <;> simp [h]

theorem get?_filter (p : κ → α → Bool) (m : SortedMap κ α) (k : κ) :
    (m.filter p).get? k = (m.get? k).filter (p k) := by
  ext v
  rw [get?_eq_some_iff, Option.filter_eq_some_iff, get?_eq_some_iff]
  simp [filter]

theorem get?_erase (m : SortedMap κ α) (k k' : κ) :
    (m.erase k).get? k' = if k' = k then none else m.get? k' := by
  rw [erase, get?_filter]
  by_cases h : k' = k <;> cases m.get? k' <;> simp [h]

/-- A binding on top hides the one below it. -/
theorem get?_overlay [DecidableLT κ] (m new : SortedMap κ α) (k : κ) :
    (m.overlay new).get? k = (new.get? k).or (m.get? k) := by
  obtain ⟨l, hl⟩ := new
  simp only [overlay, get?]
  induction l generalizing m with
  | nil => simp
  | cons e rest ih =>
    obtain ⟨he, hrest⟩ := List.pairwise_cons.mp hl
    have hinsert := get?_insert m e.1 k e.2
    simp only [get?] at hinsert
    rw [List.foldl_cons, ih _ hrest, hinsert, lookup_cons]
    by_cases h : k = e.1
    · subst h
      have hnone : rest.lookup e.1 = none := by
        cases hr : rest.lookup e.1 with
        | none => rfl
        | some v =>
          have hmem := (get?_eq_some_iff (m := ⟨rest, hrest⟩)).mp hr
          exact absurd (he _ hmem) (KeyOrder.irrefl _)
      simp [hnone]
    · simp [h]

/-- Two maps that answer every look-up alike are equal: the order leaves no other choice. -/
theorem ext_get? {m m' : SortedMap κ α} (h : ∀ k, m.get? k = m'.get? k) : m = m' := by
  have hmem (e : κ × α) : e ∈ m.entries ↔ e ∈ m'.entries := by
    obtain ⟨k, v⟩ := e
    rw [← get?_eq_some_iff, ← get?_eq_some_iff, h]
  obtain ⟨l, hl⟩ := m
  obtain ⟨l', hl'⟩ := m'
  clear h
  congr
  simp only at hmem
  induction l generalizing l' with
  | nil =>
    cases l' with
    | nil => rfl
    | cons e _ => simpa using (hmem e).mpr (by simp)
  | cons d rest ih =>
    cases l' with
    | nil => simpa using (hmem d).mp (by simp)
    | cons d' rest' =>
      obtain ⟨hd, hrest⟩ := List.pairwise_cons.mp hl
      obtain ⟨hd', hrest'⟩ := List.pairwise_cons.mp hl'
      have heq : d = d' := by
        rcases List.mem_cons.mp ((hmem d).mp (by simp)) with h | h
        · exact h
        · rcases List.mem_cons.mp ((hmem d').mpr (by simp)) with h' | h'
          · exact h'.symm
          · exact absurd (KeyOrder.trans (hd _ h') (hd' _ h)) (KeyOrder.irrefl _)
      subst heq
      congr 1
      refine ih hrest rest' hrest' fun e => ?_
      have hne : e ∈ rest ∨ e ∈ rest' → e ≠ d := by
        rintro (he | he) rfl
        · exact KeyOrder.irrefl _ (hd _ he)
        · exact KeyOrder.irrefl _ (hd' _ he)
      have := hmem e
      simp only [List.mem_cons] at this
      constructor
      · intro he
        exact (this.mp (.inr he)).resolve_left (hne (.inl he))
      · intro he
        exact (this.mpr (.inr he)).resolve_left (hne (.inr he))

end Laws

end SortedMap
end TableStore
