import Mathlib.Algebra.Order.BigOperators.Group.Finset

/-!
# Tables with numbered slots

A table is a function from slot numbers, and a change of one slot is
`update`.  There are two groups of results: what an entry of a changed
table can be, and how a weight that is summed over the first `n` slots changes.

Nothing here mentions a program.
-/

namespace Gem5Gpu.Lib

open Function

variable {α : Type}

/-- An entry of a changed table is the new one or an old one. -/
theorem update_eq_some {f : ℕ → Option α} {i j : ℕ} {v : Option α} {x : α}
    (h : update f i v j = some x) :
    j = i ∧ v = some x ∨ j ≠ i ∧ f j = some x := by
  by_cases hj : j = i
  · subst hj
    rw [update_self] at h
    exact .inl ⟨rfl, h⟩
  · rw [update_of_ne hj] at h
    exact .inr ⟨hj, h⟩

/-- The weight of the first `n` slots. -/
def tableSum (n : ℕ) (w : α → ℕ) (f : ℕ → α) : ℕ :=
  ∑ i ∈ Finset.range n, w (f i)

variable {n i : ℕ} {w : α → ℕ} {f g : ℕ → α}

theorem tableSum_congr (h : ∀ i < n, w (g i) = w (f i)) : tableSum n w g = tableSum n w f :=
  Finset.sum_congr rfl fun i hi => h i (Finset.mem_range.1 hi)

/-- Two tables that differ in one slot. -/
theorem tableSum_of_ne (hi : i < n) (h : ∀ j, j ≠ i → w (g j) = w (f j)) :
    tableSum n w g + w (f i) = tableSum n w f + w (g i) := by
  have hmem := Finset.mem_range.2 hi
  have hg := Finset.add_sum_erase (Finset.range n) (fun j => w (g j)) hmem
  have hf := Finset.add_sum_erase (Finset.range n) (fun j => w (f j)) hmem
  have hrest : ∑ j ∈ (Finset.range n).erase i, w (g j) = ∑ j ∈ (Finset.range n).erase i, w (f j) :=
    Finset.sum_congr rfl fun j hj => h j (Finset.ne_of_mem_erase hj)
  simp only [tableSum]
  omega

theorem tableSum_update (hi : i < n) (v : α) : tableSum n w (update f i v) + w (f i) =
      tableSum n w f + w v := by
  have h := tableSum_of_ne (w := w) (f := f)
    (g := update f i v) hi fun j hj => by rw [update_of_ne hj]
  rwa [update_self] at h

/-- A slot weighs no more than the table. -/
theorem le_tableSum (hi : i < n) : w (f i) ≤ tableSum n w f :=
  Finset.single_le_sum (f := fun i => w (f i)) (fun _ _ => Nat.zero_le _) (Finset.mem_range.2 hi)

end Gem5Gpu.Lib
