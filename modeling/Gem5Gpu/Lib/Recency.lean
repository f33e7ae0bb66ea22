import Mathlib.Data.List.Nodup

/-!
# Lists in order of last use

A list of keys, most recently used first, against the history of the uses, newest
first.  `RecentFirst` says that a key stands before another one exactly when its
last use is more recent.  So the key at the end is the least recently used one.

Nothing here mentions a program.
-/

namespace Gem5Gpu.Lib

variable {α : Type} [DecidableEq α] {uses l l' : List α} {a : α}

/-- The keys of a list were all used, and stand in order of their last use. -/
structure RecentFirst (uses l : List α) : Prop where
  used : ∀ x ∈ l, x ∈ uses
  order : l.Pairwise fun x y => uses.idxOf x < uses.idxOf y

namespace RecentFirst

theorem nil : RecentFirst uses [] := ⟨nofun, .nil⟩

variable (h : RecentFirst uses l)
include h

theorem sublist (hl : l'.Sublist l) : RecentFirst uses l' :=
  ⟨fun x hx => h.used x (hl.subset hx), h.order.sublist hl⟩

theorem nodup : l.Nodup :=
  h.order.imp fun hlt heq => by simp [heq] at hlt

/-- A key that is not in the list is used and comes to the front. -/
theorem cons (ha : a ∉ l) : RecentFirst (a :: uses) (a :: l) where
  used x hx := by
    rcases List.mem_cons.1 hx with rfl | hx
    · exact List.mem_cons_self
    · exact List.mem_cons_of_mem _ (h.used x hx)
  order := by
    have hne : ∀ x ∈ l, (a :: uses).idxOf x = uses.idxOf x + 1 := fun x hx =>
      List.idxOf_cons_ne _ fun heq => ha (heq ▸ hx)
    refine List.pairwise_cons.2 ⟨fun x hx => ?_, ?_⟩
    · rw [hne x hx, List.idxOf_cons_self]
      exact Nat.succ_pos _
    · refine h.order.imp_of_mem fun hx hy hlt => ?_
      rw [hne _ hx, hne _ hy]
      exact Nat.succ_lt_succ hlt

/-- A key of the list is used and moves to the front. -/
theorem touch : RecentFirst (a :: uses) (a :: l.erase a) :=
  (h.sublist List.erase_sublist).cons h.nodup.not_mem_erase

/-- The last key is the least recently used one. -/
theorem lt_getLast {x y : α} (hx : x ∈ l.dropLast)
    (hy : y ∈ l.getLast?) : uses.idxOf x < uses.idxOf y := by
  have hne : l ≠ [] := by
    rintro rfl
    simp at hy
  have hlast : l.getLast hne = y := by
    rw [List.getLast?_eq_getLast_of_ne_nil hne] at hy
    simpa using hy
  have horder := h.order
  rw [← List.dropLast_append_getLast hne, List.pairwise_append] at horder
  exact horder.2.2 x hx y (by simp [hlast])

end RecentFirst

end Gem5Gpu.Lib
