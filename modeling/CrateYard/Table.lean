/-! Tables: maps that keep the order in which keys were first set. -/

namespace CrateYard

structure Table (κ : Type u) (α : Type v) where
  entries : List (κ × α)
deriving Repr

namespace Table

variable {κ : Type u} {α : Type v} [DecidableEq κ]

def empty : Table κ α := ⟨[]⟩

instance : Inhabited (Table κ α) := ⟨empty⟩

def get? (t : Table κ α) (k : κ) : Option α :=
  (t.entries.find? fun e => e.1 = k).map (·.2)

/-- The table with a value under a key, at the key's old place if it has one. -/
def set (t : Table κ α) (k : κ) (a : α) : Table κ α :=
  if t.entries.any fun e => e.1 = k then
    ⟨t.entries.map fun e => if e.1 = k then (k, a) else e⟩
  else ⟨t.entries ++ [(k, a)]⟩

def erase (t : Table κ α) (k : κ) : Table κ α :=
  ⟨t.entries.filter fun e => e.1 ≠ k⟩

/-- The table with the value under a key changed, if there is one. -/
def modify (t : Table κ α) (k : κ) (f : α → α) : Table κ α :=
  ⟨t.entries.map fun e => if e.1 = k then (e.1, f e.2) else e⟩

def keys (t : Table κ α) : List κ :=
  t.entries.map (·.1)

def values (t : Table κ α) : List α :=
  t.entries.map (·.2)

def size (t : Table κ α) : Nat :=
  t.entries.length

/-- The table with these entries, a later one in place of an earlier one with its key. -/
def ofList (entries : List (κ × α)) : Table κ α :=
  entries.foldl (fun t e => t.set e.1 e.2) empty

theorem find?_map_set (l : List (κ × α)) (k j : κ) (a : α) :
    ((l.map fun e => if e.1 = k then (k, a) else e).find? fun e => e.1 = j).map (·.2) =
      if j = k then (if l.any fun e => e.1 = k then some a else none)
      else (l.find? fun e => e.1 = j).map (·.2) := by
  induction l with
  | nil => simp
  | cons e rest ih =>
    by_cases hk : e.1 = k <;> by_cases hj : j = k
    · simp [hk, hj]
    · simp [hk, Ne.symm hj] at ih ⊢
      rw [ih]; simp [hj]
    · have : e.1 ≠ j := fun h => hk (h.trans hj)
      subst hj
      simp only [if_true, List.any_cons, hk, decide_false, Bool.false_or] at ih ⊢
      rw [← ih]
      simp [hk]
    · by_cases hej : e.1 = j
      · simp [hej, hj]
      · simp [hk, hej] at ih ⊢
        rw [ih]; simp [hj]

@[simp]
theorem get?_set (t : Table κ α) (k j : κ) (a : α) :
    (t.set k a).get? j = if j = k then some a else t.get? j := by
  unfold set
  split
  · next h =>
    rw [get?, find?_map_set]
    simp [h, get?]
  · next h =>
    have hk : t.entries.find? (fun e => e.1 = k) = none :=
      List.find?_eq_none.2 fun e he hc => h (List.any_eq_true.2 ⟨e, he, hc⟩)
    rw [get?, List.find?_append]
    by_cases hj : j = k
    · subst hj; simp [hk]
    · simp [hj, Ne.symm hj, get?]

end Table
end CrateYard
