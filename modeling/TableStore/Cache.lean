import TableStore.Outcome

/-
Results of selects that a session remembers, by table and condition.

No condition and an empty one are two keys.  The session forgets all results of a table whenever the
table changes.
-/
namespace TableStore

abbrev CacheKey := String × Option Fields

/-- The remembered results; a key stands in the list at most once. -/
structure Cache where
  entries : List (CacheKey × Outcome)
deriving DecidableEq

namespace Cache

def empty : Cache := ⟨[]⟩

def get? (c : Cache) (key : CacheKey) : Option Outcome := c.entries.lookup key

/-- Remembers a result in place of any that the key had. -/
def put (c : Cache) (key : CacheKey) (result : Outcome) : Cache :=
  ⟨(key, result) :: c.entries.filter (·.1 ≠ key)⟩

/-- Forgets every result of a table. -/
def forget (c : Cache) (table : String) : Cache := ⟨c.entries.filter (·.1.1 ≠ table)⟩

/-! ## What a cache answers -/

theorem lookup_filter_key (keep : CacheKey → Bool) (l : List (CacheKey × Outcome)) (key : CacheKey) :
    (l.filter fun e => keep e.1).lookup key = if keep key then l.lookup key else none := by
  induction l with
  | nil => simp
  | cons e rest ih =>
    obtain ⟨k, result⟩ := e
    by_cases h : key = k
    · subst h
      cases hk : keep key with
      | false =>
        rw [hk] at ih
        simpa only [List.filter_cons, hk, Bool.false_eq_true, if_false] using ih
      | true => simp only [List.filter_cons, hk, if_true, List.lookup_cons_self]
    · have hne : (key == k) = false := beq_false_of_ne h
      cases hk : keep k <;>
        simp only [List.filter_cons, hk, if_true, if_false, Bool.false_eq_true, List.lookup_cons,
          hne, ih]

/-- A key that was just put is found, and every other key answers as before. -/
theorem get?_put (c : Cache) (key key' : CacheKey) (result : Outcome) :
    (c.put key result).get? key' = if key' = key then some result else c.get? key' := by
  by_cases h : key' = key
  · simp [get?, put, h]
  · simpa [get?, put, List.lookup_cons, beq_false_of_ne h, h] using
      lookup_filter_key (fun k => k ≠ key) c.entries key'

/-- Nothing of a forgotten table is found, and every other table's results are still there. -/
theorem get?_forget (c : Cache) (table : String) (key : CacheKey) :
    (c.forget table).get? key = if key.1 = table then none else c.get? key := by
  have h := lookup_filter_key (fun k => k.1 ≠ table) c.entries key
  by_cases ht : key.1 = table
  · rw [if_pos ht]
    exact h.trans (if_neg (by simp [ht]))
  · rw [if_neg ht]
    exact h.trans (if_pos (by simp [ht]))

end Cache
end TableStore
