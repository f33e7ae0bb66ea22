import Mathlib.Data.Multiset.Bind
import Mathlib.Data.Multiset.Range

/-!
# Pieces that tile an interval

A piece `a` covers the `size a` cells from `off a` on.  `Tiles off size t n` says
that the pieces of the bag `t` cover each cell below `n` exactly once and no
other cell.  It is one equation between bags, so it does not depend on the order
in which the pieces were cut or came back.

`Abut a e l` is for a loop that cuts an interval from left to right: the intervals
`(start, length)` of the list follow each other from `a` to `e`.

Nothing here mentions a program.
-/

namespace Gem5Gpu.Lib

variable {α β : Type} {off size : α → ℕ} {a b : α} {t u : Multiset α} {n i : ℕ}

/-- The cells that a piece covers. -/
def cells (off size : α → ℕ) (a : α) : Multiset ℕ :=
  (Multiset.range (size a)).map (off a + ·)

/-- The pieces of `t` cover the cells below `n`, each exactly once. -/
def Tiles (off size : α → ℕ) (t : Multiset α) (n : ℕ) : Prop :=
  t.bind (cells off size) = Multiset.range n

theorem mem_cells : i ∈ cells off size a ↔ off a ≤ i ∧ i < off a + size a := by
  simp only [cells, Multiset.mem_map, Multiset.mem_range]
  constructor
  · rintro ⟨j, hj, rfl⟩
    omega
  · rintro ⟨hle, hlt⟩
    exact ⟨i - off a, by omega, by omega⟩

theorem Tiles.zero : Tiles off size 0 0 := rfl

/-- The next piece starts where the tiling ends. -/
theorem Tiles.cons (h : Tiles off size t n) (ha : off a = n) :
    Tiles off size (a ::ₘ t) (n + size a) := by
  unfold Tiles at h ⊢
  rw [Multiset.cons_bind, h, cells, ha, Multiset.range_add, add_comm]

/-- A piece is exchanged for one at the same place. -/
theorem Tiles.replace (h : Tiles off size (a ::ₘ t) n) (hoff : off b = off a)
    (hsize : size b = size a) : Tiles off size (b ::ₘ t) n := by
  unfold Tiles at h ⊢
  rw [← h, Multiset.cons_bind, Multiset.cons_bind, cells, cells, hoff, hsize]

/-- A piece ends inside the interval. -/
theorem Tiles.le (h : Tiles off size t n) (ha : a ∈ t) (hpos : 0 < size a) :
    off a + size a ≤ n := by
  have hlast : off a + size a - 1 ∈ cells off size a := mem_cells.2 ⟨by omega, by omega⟩
  have hmem : off a + size a - 1 ∈ t.bind (cells off size) :=
    Multiset.mem_bind.2 ⟨a, ha, hlast⟩
  rw [show t.bind (cells off size) = Multiset.range n from h, Multiset.mem_range] at hmem
  omega

/-- Two pieces share no cell. -/
theorem Tiles.disjoint (h : Tiles off size (a ::ₘ t) n) (hb : b ∈ t)
    (hia : off a ≤ i ∧ i < off a + size a) : ¬(off b ≤ i ∧ i < off b + size b) := by
  intro hib
  have hnd : (Multiset.bind (a ::ₘ t) (cells off size)).Nodup := by
    rw [show (a ::ₘ t).bind (cells off size) = Multiset.range n from h]
    exact Multiset.nodup_range n
  rw [Multiset.cons_bind, Multiset.nodup_add] at hnd
  exact Multiset.disjoint_left.1 hnd.2.2 (mem_cells.2 hia)
    (Multiset.mem_bind.2 ⟨b, hb, mem_cells.2 hib⟩)

/-- A value per cell, collected piece by piece. -/
theorem Tiles.bind_map (h : Tiles off size t n) (f : ℕ → β) :
    (t.bind fun a => (Multiset.range (size a)).map fun j => f (off a + j))
      = (Multiset.range n).map f := by
  rw [← show t.bind (cells off size) = Multiset.range n from h, Multiset.map_bind]
  exact Multiset.bind_congr fun a _ => by simp [cells, Multiset.map_map]

/-! ## Intervals in order -/

/-- The intervals `(start, length)` are not empty and follow each other from `a` to `e`. -/
def Abut : ℕ → ℕ → List (ℕ × ℕ) → Prop
  | a, e, [] => a = e
  | a, e, p :: l => p.1 = a ∧ 0 < p.2 ∧ Abut (a + p.2) e l

section Abut

variable {x y : ℕ} {l : List (ℕ × ℕ)} {p : ℕ × ℕ}

theorem Abut.le (h : Abut x y l) : x ≤ y := by
  induction l generalizing x with
  | nil => exact Nat.le_of_eq h
  | cons p l ih =>
    have := ih h.2.2
    omega

theorem Abut.bounds (h : Abut x y l) (hp : p ∈ l) : x ≤ p.1 ∧ 0 < p.2 ∧ p.1 + p.2 ≤ y := by
  induction l generalizing x with
  | nil => cases hp
  | cons q l ih =>
    obtain ⟨hq, hpos, hrest⟩ := h
    rcases List.mem_cons.1 hp with rfl | hp
    · have := hrest.le
      omega
    · have := ih hrest hp
      omega

/-- Each interval ends before the later ones begin. -/
theorem Abut.pairwise (h : Abut x y l) : l.Pairwise fun p q => p.1 + p.2 ≤ q.1 := by
  induction l generalizing x with
  | nil => exact .nil
  | cons p l ih =>
    obtain ⟨hp, _, hrest⟩ := h
    exact .cons (fun q hq => hp ▸ (hrest.bounds hq).1) (ih hrest)

/-- The cells that are covered. -/
theorem Abut.mem_iff (h : Abut x y l) : (∃ p ∈ l, p.1 ≤ i ∧ i < p.1 + p.2) ↔ x ≤ i ∧ i < y := by
  constructor
  · rintro ⟨p, hp, hi⟩
    have := h.bounds hp
    omega
  · intro hi
    induction l generalizing x with
    | nil =>
      have hxy : x = y := h
      omega
    | cons p l ih =>
      obtain ⟨hp, hpos, hrest⟩ := h
      by_cases hlt : i < x + p.2
      · exact ⟨p, List.mem_cons_self, by omega⟩
      · obtain ⟨q, hq, hiq⟩ := ih hrest ⟨by omega, hi.2⟩
        exact ⟨q, List.mem_cons_of_mem _ hq, hiq⟩

end Abut

end Gem5Gpu.Lib
