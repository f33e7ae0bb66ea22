import Mathlib.Data.Finset.Card

/-!
# Jobs in pieces

A job is cut into `k` pieces that travel through a queue one by one, and a
counter per job says how many of its pieces are done.  `Balanced` is the
invariant of such a queue: for each job in it, the pieces done and the pieces
queued add up to `k`.  So the queue holds the last piece of a job exactly when
the counter says so, and the number of different jobs in the queue, `distinct`,
goes down with it.

Nothing here mentions a program.
-/

namespace Gem5Gpu.Lib

open Function

variable {ι : Type} [DecidableEq ι] {k m : ℕ} {done : ι → ℕ} {l l' : List ι} {i : ι}

/-- The number of different jobs in a queue. -/
def distinct (l : List ι) : ℕ := l.toFinset.card

theorem distinct_le_length (l : List ι) : distinct l ≤ l.length :=
  List.toFinset_card_le l

theorem distinct_eq_of_perm (h : l.Perm l') : distinct l = distinct l' := by
  rw [distinct, distinct, List.toFinset_eq_of_perm l l' h]

theorem distinct_cons_of_notMem (hi : i ∉ l) : distinct (i :: l) = distinct l + 1 := by
  rw [distinct, distinct, List.toFinset_cons, Finset.card_insert_of_notMem (by simpa using hi)]

theorem distinct_le_cons (i : ι) (l : List ι) : distinct l ≤ distinct (i :: l) := by
  rw [distinct, distinct, List.toFinset_cons]
  exact Finset.card_le_card (Finset.subset_insert _ _)

theorem distinct_append_replicate_le (l : List ι) (m : ℕ) (i : ι) :
    distinct (l ++ List.replicate m i) ≤ distinct l + 1 := by
  have hsub : (l ++ List.replicate m i).toFinset ⊆ insert i l.toFinset := by
    intro j hj
    simp only [List.mem_toFinset, List.mem_append, List.mem_replicate] at hj
    simp only [Finset.mem_insert, List.mem_toFinset]
    rcases hj with hj | ⟨-, rfl⟩
    · exact .inr hj
    · exact .inl rfl
  exact (Finset.card_le_card hsub).trans (Finset.card_insert_le _ _)

/-- The pieces done and the pieces queued of each queued job add up. -/
def Balanced (k : ℕ) (done : ι → ℕ) (l : List ι) : Prop :=
  ∀ i ∈ l, done i + l.count i = k

namespace Balanced

theorem perm (h : Balanced k done l) (hp : l.Perm l') : Balanced k done l' := by
  intro j hj
  rw [← hp.count_eq]
  exact h j (hp.mem_iff.2 hj)

/-- The counter of another job does not matter. -/
theorem update_of_notMem (h : Balanced k done l) (hi : i ∉ l) (n : ℕ) :
    Balanced k (update done i n) l := by
  intro j hj
  rw [update_of_ne (ne_of_mem_of_not_mem hj hi)]
  exact h j hj

/-- A new job enters with `m` of its pieces. -/
theorem push (h : Balanced k done l) (hi : i ∉ l) (hm : m ≤ k) :
    Balanced k (update done i (k - m)) (l ++ List.replicate m i) := by
  intro j hj
  rw [List.count_append, List.count_replicate]
  by_cases hji : j = i
  · subst hji
    rw [update_self, List.count_eq_zero.2 hi]
    simp
    omega
  · have hmem : j ∈ l := by
      rcases List.mem_append.1 hj with hj | hj
      · exact hj
      · exact absurd (List.eq_of_mem_replicate hj) hji
    rw [update_of_ne hji]
    simpa [Ne.symm hji] using h j hmem

/-- A piece is done. -/
theorem pop (h : Balanced k done (i :: l)) : Balanced k (update done i (done i + 1)) l := by
  intro j hj
  have hbal := h j (List.mem_cons_of_mem i hj)
  by_cases hji : j = i
  · subst hji
    rw [List.count_cons_self] at hbal
    rw [update_self]
    omega
  · rw [List.count_cons_of_ne (Ne.symm hji)] at hbal
    rwa [update_of_ne hji]

/-- The last piece of a job leaves none behind. -/
theorem notMem_of_last (h : Balanced k done (i :: l)) (hlast : done i + 1 = k) : i ∉ l := by
  have hbal := h i List.mem_cons_self
  rw [List.count_cons_self] at hbal
  exact List.count_eq_zero.1 (by omega)

/-- A piece that is not the last leaves another one behind. -/
theorem mem_of_more (h : Balanced k done (i :: l)) (hmore : done i + 1 ≠ k) : i ∈ l := by
  have hbal := h i List.mem_cons_self
  rw [List.count_cons_self] at hbal
  exact List.count_pos_iff.1 (by omega)

end Balanced

end Gem5Gpu.Lib
