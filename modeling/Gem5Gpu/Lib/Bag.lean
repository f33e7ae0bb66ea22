import Mathlib.Data.Fintype.Card

/-!
# Bags with at most one element, and counting over a finite family

`bag o` is the multiset of the value of `o`, if it has one: a queue that never
holds more than one message.  `tally f t` is the number of members of a finite
family `t` that satisfy `f`, and `tally_update` says how it changes with one
member.

Nothing here mentions a program.
-/

namespace Gem5Gpu.Lib

section Bag

variable {α β : Type}

/-- The value of `o`, if it has one. -/
def bag : Option α → Multiset α
  | none => 0
  | some a => {a}

@[simp] theorem bag_none : bag (none : Option α) = 0 := rfl

@[simp] theorem bag_some (a : α) : bag (some a) = {a} := rfl

@[simp] theorem mem_bag {a : α} {o : Option α} : a ∈ bag o ↔ o = some a := by
  cases o with
  | none => simp
  | some b => simp [eq_comm]

variable [DecidableEq α]

@[simp] theorem erase_singleton_add (a : α) (t : Multiset α) : ({a} + t).erase a = t := by
  rw [Multiset.singleton_add, Multiset.erase_cons_head]

@[simp] theorem erase_add_singleton (a : α) (t : Multiset α) : (t + {a}).erase a = t := by
  rw [Multiset.add_comm, erase_singleton_add]

@[simp] theorem erase_singleton (a : α) : ({a} : Multiset α).erase a = 0 := by
  rw [← Multiset.cons_zero, Multiset.erase_cons_head]

end Bag

section Tally

variable {ι α : Type} [Fintype ι] {f : α → Bool} {t : ι → α} {i : ι} {a : α}

/-- The number of members that satisfy `f`. -/
def tally (f : α → Bool) (t : ι → α) : ℕ := (Finset.univ.filter fun j => f (t j) = true).card

theorem tally_eq_zero_iff : tally f t = 0 ↔ ∀ j, f (t j) = false := by
  simp [tally, Finset.card_eq_zero, Finset.filter_eq_empty_iff]

theorem tally_congr {t' : ι → α} (h : ∀ j, f (t' j) = f (t j)) : tally f t' = tally f t := by
  simp only [tally, h]

variable [DecidableEq ι]

/-- One member changes. -/
theorem tally_of_ne {u : ι → α} (h : ∀ j, j ≠ i → f (u j) = f (t j)) :
    tally f u + (f (t i)).toNat = tally f t + (f (u i)).toNat := by
  have hsplit (w : ι → α) : tally f w =
      ((Finset.univ.erase i).filter fun j => f (w j) = true).card + (f (w i)).toNat := by
    rw [tally, ← Finset.insert_erase (Finset.mem_univ i), Finset.filter_insert]
    cases hf : f (w i) with
    | true => simp
    | false => simp
  have hrest : ((Finset.univ.erase i).filter fun j => f (u j) = true) =
      (Finset.univ.erase i).filter fun j => f (t j) = true := by
    refine Finset.filter_congr fun j hj => ?_
    rw [h j (Finset.ne_of_mem_erase hj)]
  rw [hsplit t, hsplit u, hrest]
  omega

end Tally

end Gem5Gpu.Lib
