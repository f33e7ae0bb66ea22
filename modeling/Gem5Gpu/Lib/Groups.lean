import Mathlib.Data.List.Sort

/-!
# Lists in groups

A list is cut into groups, and the groups are put one after the other.  The elements
with one key keep their order as long as they end up in one group.  That is all that
matters to operations that act on one place each: `foldl_eq_of_filter` says that two
orders have one effect if they agree place by place.

Nothing here mentions a program.
-/

namespace Gem5Gpu.Lib

variable {α β κ : Type} {l l' : List α} {p : α → Bool}

/-- All elements that are looked for are in one group. -/
theorem filter_flatMap_single {ks : List κ} {f : κ → List α} {k : κ} (hn : ks.Nodup) (hk : k ∈ ks)
    (h : ∀ j ∈ ks, j ≠ k → ∀ x ∈ f j, p x = false) :
    (ks.flatMap f).filter p = (f k).filter p := by
  have hnil {js : List κ} (hjs : ∀ j ∈ js, j ∈ ks ∧ j ≠ k) : (js.flatMap f).filter p = [] := by
    refine List.filter_eq_nil_iff.2 fun x hx => ?_
    obtain ⟨j, hj, hx⟩ := List.mem_flatMap.1 hx
    simp [h j (hjs j hj).1 (hjs j hj).2 x hx]
  obtain ⟨as, bs, rfl⟩ := List.append_of_mem hk
  have hne : ∀ j ∈ as ++ bs, j ≠ k := fun j hj heq =>
    (List.nodup_cons.1 (List.nodup_middle.1 hn)).1 (heq ▸ hj)
  rw [List.flatMap_append, List.flatMap_cons, List.filter_append, List.filter_append,
    hnil fun j hj => ⟨by simp [hj], hne j (by simp [hj])⟩,
    hnil fun j hj => ⟨by simp [hj], hne j (by simp [hj])⟩, List.nil_append, List.append_nil]

/-- Two lists that agree key by key have the same elements. -/
theorem perm_of_filter_key [DecidableEq α] [DecidableEq κ] {key : α → κ}
    (h : ∀ k, l.filter (key · == k) = l'.filter (key · == k)) : l.Perm l' := by
  refine List.perm_iff_count.2 fun x => ?_
  have hcount (l : List α) : l.count x = (l.filter (key · == key x)).count x :=
    (List.count_filter (by simp)).symm
  rw [hcount l, h, ← hcount l']

/-- Sorting does not change the order of elements that are not told apart. -/
theorem filter_insertionSort {r : α → α → Prop} [DecidableRel r]
    (h : ∀ x ∈ l, ∀ y ∈ l, p x = true → p y = true → r x y) :
    (l.insertionSort r).filter p = l.filter p := by
  have hsub : (l.filter p).Sublist ((l.insertionSort r).filter p) := by
    have hsorted : (l.filter p).Pairwise r := List.pairwise_of_forall_mem_list fun x hx y hy =>
      h x (List.mem_of_mem_filter hx) y (List.mem_of_mem_filter hy) (List.mem_filter.1 hx).2
        (List.mem_filter.1 hy).2
    have hfilter := (List.sublist_insertionSort hsorted List.filter_sublist).filter p
    simpa only [List.filter_filter, Bool.and_self] using hfilter
  exact (hsub.eq_of_length ((List.perm_insertionSort r l).filter p).length_eq.symm).symm

/-- A list dealt out in portions. -/
theorem flatMap_take_drop {k n : ℕ} (h : l.length ≤ k * n) :
    (List.range n).flatMap (fun i => (l.drop (k * i)).take k) = l := by
  have htake (n : ℕ) : (List.range n).flatMap (fun i => (l.drop (k * i)).take k) =
      l.take (k * n) := by
    induction n with
    | zero => simp
    | succ n ih => rw [List.range_succ, List.flatMap_append, ih, Nat.mul_succ, List.take_add]; simp
  rw [htake, List.take_of_length_le h]

/-- Operations on places, each of which looks at and changes its own places alone. -/
structure Local (t : α → κ → Bool) (g : α → κ → β → β) (f : (κ → β) → α → κ → β) : Prop where
  apply : ∀ s x k, f s x k = if t x k then g x k (s k) else s k

theorem Local.foldl {t : α → κ → Bool} {g : α → κ → β → β} {f : (κ → β) → α → κ → β}
    (hf : Local t g f) (s : κ → β) (k : κ) :
    l.foldl f s k = (l.filter (t · k)).foldl (fun v x => g x k v) (s k) := by
  induction l generalizing s with
  | nil => rfl
  | cons x l ih =>
    rw [List.foldl_cons, ih, hf.apply, List.filter_cons]
    split
    · rfl
    · rfl

/-- Two orders that agree place by place have one effect. -/
theorem Local.foldl_eq {t : α → κ → Bool} {g : α → κ → β → β} {f : (κ → β) → α → κ → β}
    (hf : Local t g f) (h : ∀ k, l.filter (t · k) = l'.filter (t · k)) (s : κ → β) :
    l.foldl f s = l'.foldl f s := by
  funext k
  rw [hf.foldl, hf.foldl, h]

end Gem5Gpu.Lib
