import Mathlib.Data.List.Perm.Basic

/-!
# A queue and the set of its keys

A program keeps a queue together with a set of the keys of its entries, so that it can ask
whether a key is queued without a search.  `Indexes key queue index` says that the set, as a
list without repetitions, holds exactly the keys of the entries and that no two entries share a
key.  The rules are for an entry that comes, and for one that leaves from any position.

`Indexes.insert_two` is for a program that inserts first and compares the sizes afterwards: if
the sizes agree, the keys were new.
-/

namespace Gem5Gpu.Lib

variable {α κ : Type} {key : α → κ} {queue : List α} {index : List κ} {x y : α}

/-- The set `index` holds the keys of the queue, and no two entries have the same key. -/
structure Indexes (key : α → κ) (queue : List α) (index : List κ) : Prop where
  nodup : index.Nodup
  perm : index.Perm (queue.map key)

theorem Indexes.nil : Indexes key [] [] := ⟨List.nodup_nil, List.Perm.refl _⟩

theorem Indexes.mem_iff (h : Indexes key queue index) {k : κ} :
    k ∈ index ↔ ∃ x ∈ queue, key x = k := by
  rw [h.perm.mem_iff, List.mem_map]

theorem Indexes.length_eq (h : Indexes key queue index) : queue.length = index.length := by
  rw [h.perm.length_eq, List.length_map]

/-- An entry with a new key. -/
theorem Indexes.push (h : Indexes key queue index) (hnew : key x ∉ index) :
    Indexes key (queue ++ [x]) (key x :: index) := by
  refine ⟨List.nodup_cons.2 ⟨hnew, h.nodup⟩, ?_⟩
  rw [List.map_append]
  exact (h.perm.cons _).trans (List.perm_append_singleton _ _).symm

variable [BEq κ] [LawfulBEq κ]

/-- An entry leaves from any position. -/
theorem Indexes.erase (h : Indexes key queue index) {i : ℕ} (hx : queue[i]? = some x) :
    Indexes key (queue.eraseIdx i) (index.erase (key x)) := by
  refine ⟨h.nodup.erase _, ?_⟩
  obtain ⟨hi, rfl⟩ := List.getElem?_eq_some_iff.1 hx
  have hfront : (queue.map key).Perm (key queue[i] :: (queue.eraseIdx i).map key) :=
    (List.getElem_cons_eraseIdx_perm hi).symm.map key
  have herase := (h.perm.trans hfront).erase (key queue[i])
  rwa [List.erase_cons_head] at herase

theorem length_insert_le (k : κ) (index : List κ) : (index.insert k).length ≤ index.length + 1 := by
  by_cases hk : k ∈ index
  · rw [List.insert_of_mem hk]
    omega
  · rw [List.insert_of_not_mem hk]
    exact Nat.le_refl _

/-- Two entries were inserted, and the sizes agree. -/
theorem Indexes.insert_two (h : Indexes key queue index)
    (hlen : queue.length + 2 = ((index.insert (key x)).insert (key y)).length) :
    Indexes key (queue ++ [x, y]) ((index.insert (key x)).insert (key y)) := by
  have hle := length_insert_le (key x) index
  have hq := h.length_eq
  have hx : key x ∉ index := by
    intro hmem
    have := length_insert_le (key y) (index.insert (key x))
    rw [List.insert_of_mem hmem] at this hlen
    omega
  have hy : key y ∉ index.insert (key x) := by
    intro hmem
    rw [List.insert_of_mem hmem] at hlen
    omega
  rw [List.insert_of_not_mem hy, List.insert_of_not_mem hx] at *
  rw [show queue ++ [x, y] = queue ++ [x] ++ [y] by simp]
  exact (h.push hx).push hy

end Gem5Gpu.Lib
