import Gem5Gpu.Lib.Table

/-!
# Counting Bloom filters

A counting Bloom filter over saturating cells.  A key has a list of cells, one
for each hash function.  `add` increments them up to `max`, `remove` decrements
them down to zero, and `lookup` is the smallest of them.  The hash functions are
arbitrary, and two of them may hit one cell.

The abstract side is a table of `n` slots that hold at most one key each.
`Tracks` says that every cell counts the keys of the table that hash to it.
There are two groups of results.

* `Tracks.add` and `Tracks.remove`: filling and emptying a slot keep the count
  right.  Filling needs room in the cells of the key, because a cell that
  saturates loses count.
* `Tracks.lookup_pos`: a key that is in the table is found.

Nothing here mentions a program.
-/

namespace Gem5Gpu.Lib.CountingBloom

open Function

variable {κ : Type}

/-- Increment a cell that saturates at `max`. -/
def increment (max : ℕ) (cells : ℕ → ℕ) (i : ℕ) : ℕ → ℕ :=
  update cells i (min (cells i + 1) max)

/-- Decrement a cell that stops at zero. -/
def decrement (cells : ℕ → ℕ) (i : ℕ) : ℕ → ℕ :=
  update cells i (cells i - 1)

def add (max : ℕ) (indices : List ℕ) (cells : ℕ → ℕ) : ℕ → ℕ :=
  indices.foldl (increment max) cells

def remove (indices : List ℕ) (cells : ℕ → ℕ) : ℕ → ℕ :=
  indices.foldl decrement cells

/-- The smallest cell of the key. -/
def lookup (indices : List ℕ) (cells : ℕ → ℕ) : ℕ :=
  ((indices.map cells).min?).getD 0

theorem add_apply {max : ℕ} (indices : List ℕ) (cells : ℕ → ℕ)
    (hroom : ∀ i ∈ indices, cells i + indices.count i ≤ max) (i : ℕ) :
    add max indices cells i = cells i + indices.count i := by
  induction indices generalizing cells with
  | nil => simp [add]
  | cons k ks ih =>
    have hk := hroom k List.mem_cons_self
    simp only [List.count_cons_self] at hk
    -- the cell of `k` has room for this increment, so it is exact
    have hinc : ∀ j, increment max cells k j = cells j + if k = j then 1 else 0 := by
      intro j
      by_cases hj : k = j
      · subst hj
        simp only [increment, update_self, if_true]
        omega
      · simp [increment, update_of_ne (Ne.symm hj), hj]
    have hroom' : ∀ j ∈ ks, increment max cells k j + ks.count j ≤ max := by
      intro j hmem
      have hj := hroom j (List.mem_cons_of_mem k hmem)
      rw [List.count_cons] at hj
      rw [hinc]
      simp only [beq_iff_eq] at hj
      omega
    have hrest := ih (increment max cells k) hroom'
    show add max ks (increment max cells k) i = _
    rw [hrest, hinc, List.count_cons]
    simp only [beq_iff_eq]
    omega

theorem remove_apply (indices : List ℕ) (cells : ℕ → ℕ) (i : ℕ) :
    remove indices cells i = cells i - indices.count i := by
  induction indices generalizing cells with
  | nil => simp [remove]
  | cons k ks ih =>
    show remove ks (decrement cells k) i = _
    rw [ih, List.count_cons]
    by_cases hi : k = i
    · subst hi
      simp only [decrement, update_self, beq_self_eq_true, if_true]
      omega
    · simp [decrement, update_of_ne (Ne.symm hi), hi]

theorem lookup_pos {indices : List ℕ} {cells : ℕ → ℕ} (hne : indices ≠ [])
    (hpos : ∀ i ∈ indices, 0 < cells i) : 0 < lookup indices cells := by
  unfold lookup
  cases hmin : (indices.map cells).min? with
  | none => simp [List.min?_eq_none_iff, hne] at hmin
  | some m =>
    have hm := List.min?_mem hmin
    obtain ⟨i, hi, rfl⟩ := List.mem_map.1 hm
    exact hpos i hi

/-! ## The keys of a table -/

/-- How often the key of a slot hashes to a cell. -/
def weight (hash : κ → List ℕ) (slot : Option κ) (c : ℕ) : ℕ :=
  match slot with
  | none => 0
  | some k => (hash k).count c

/-- Every cell counts the keys of the table that hash to it. -/
def Tracks (hash : κ → List ℕ) (n : ℕ) (slots : ℕ → Option κ) (cells : ℕ → ℕ) : Prop :=
  ∀ c, cells c = tableSum n (fun slot => weight hash slot c) slots

variable {hash : κ → List ℕ} {n : ℕ} {slots slots' : ℕ → Option κ} {cells : ℕ → ℕ}

variable (h : Tracks hash n slots cells)
include h

theorem Tracks.congr (heq : ∀ i < n, slots' i = slots i) : Tracks hash n slots' cells := by
  intro c
  rw [h c]
  exact (tableSum_congr fun i hi => by rw [heq i hi]).symm

/-- Filling an empty slot, with room in the cells of its key. -/
theorem Tracks.add {i max : ℕ} {k : κ} (hi : i < n) (hold : slots i = none)
    (hnew : slots' i = some k) (heq : ∀ j, j ≠ i → slots' j = slots j)
    (hroom : ∀ c ∈ hash k, cells c + (hash k).count c ≤ max) :
    Tracks hash n slots' (add max (hash k) cells) := by
  intro c
  have hsum := tableSum_of_ne (w := fun slot => weight hash slot c) (f := slots)
    (g := slots') hi fun j hj => by rw [heq j hj]
  rw [hold, hnew] at hsum
  rw [add_apply _ _ hroom, h c]
  exact hsum.symm

/-- Emptying a slot. -/
theorem Tracks.remove {i : ℕ} {k : κ} (hi : i < n) (hold : slots i = some k)
    (hnew : slots' i = none) (heq : ∀ j, j ≠ i → slots' j = slots j) :
    Tracks hash n slots' (remove (hash k) cells) := by
  intro c
  have hsum := tableSum_of_ne (w := fun slot => weight hash slot c) (f := slots)
    (g := slots') hi fun j hj => by rw [heq j hj]
  rw [hold, hnew] at hsum
  rw [remove_apply, h c]
  exact (Nat.eq_sub_of_add_eq hsum).symm

/-- A key of the table is found. -/
theorem Tracks.lookup_pos {i : ℕ} {k : κ}
    (hi : i < n) (hslot : slots i = some k) (hne : hash k ≠ []) :
    0 < lookup (hash k) cells := by
  refine CountingBloom.lookup_pos hne fun c hc => ?_
  have hle := le_tableSum (w := fun slot => weight hash slot c) (f := slots) hi
  rw [hslot] at hle
  rw [h c]
  exact (List.count_pos_iff.2 hc).trans_le hle

end Gem5Gpu.Lib.CountingBloom
