import Mathlib.Data.List.Nodup

/-!
# Items that are in exactly one place

A system keeps its items in several containers.  `place` says where each item is,
and `Holds place P l` says that the container `l` holds the items whose place
satisfies `P`, each once.  When every container of a system is described this way,
an item is in exactly one of them, whatever the containers are.

The rules follow what a step does to one item: it comes to a container
(`Holds.enter`, `Holds.enterFront`), it leaves it (`Holds.leave`), or the
container does not see the move (`Holds.keep`).  `Holds.enterAll` is for items
that come together.  `HoldsOne place p o` is the same for a container `o` of at most
one item.

Nothing here mentions a program.
-/

namespace Gem5Gpu.Lib

open Function

variable {α π : Type} {place place' : α → π} {P : α → π → Prop} {l l' : List α} {a : α} {p : π}

/-- The container `l` holds the items whose place satisfies `P`, each once. -/
def Holds (place : α → π) (P : α → π → Prop) (l : List α) : Prop :=
  l.Nodup ∧ ∀ a, a ∈ l ↔ P a (place a)

theorem Holds.mem_iff (h : Holds place P l) : a ∈ l ↔ P a (place a) := h.2 a

theorem Holds.congr (h : Holds place P l) (hp : ∀ a, P a (place' a) ↔ P a (place a)) :
    Holds place' P l :=
  ⟨h.1, fun a => (h.2 a).trans (hp a).symm⟩

/-- Items that come together. -/
theorem Holds.enterAll (h : Holds place P l) (hnd : l'.Nodup)
    (hnew : ∀ a ∈ l', ¬P a (place a) ∧ P a (place' a))
    (hrest : ∀ a, a ∉ l' → (P a (place' a) ↔ P a (place a))) : Holds place' P (l ++ l') := by
  refine ⟨h.1.append hnd fun a ha ha' => (hnew a ha').1 (h.mem_iff.1 ha), fun a => ?_⟩
  rw [List.mem_append, h.mem_iff]
  by_cases ha : a ∈ l'
  · simp [ha, (hnew a ha).2]
  · simp [ha, hrest a ha]

/-- The container `o` holds the item whose place is `p`, if there is one. -/
def HoldsOne (place : α → π) (p : π) (o : Option α) : Prop :=
  ∀ a, o = some a ↔ place a = p

variable [DecidableEq α] {q : π} {o : Option α}

theorem HoldsOne.enter (h : HoldsOne place p none) : HoldsOne (update place a p) p (some a) := by
  intro b
  by_cases hb : b = a
  · subst hb
    simp
  · rw [update_of_ne hb, ← h b]
    simp [Ne.symm hb]

theorem HoldsOne.leave (h : HoldsOne place p (some a)) (hq : q ≠ p) :
    HoldsOne (update place a q) p none := by
  intro b
  by_cases hb : b = a
  · subst hb
    simp [hq]
  · rw [update_of_ne hb, ← h b]
    simp [Ne.symm hb]

theorem HoldsOne.keep (h : HoldsOne place p o) (ha : place a ≠ p) (hq : q ≠ p) :
    HoldsOne (update place a q) p o := by
  intro b
  by_cases hb : b = a
  · subst hb
    rw [update_self, h b]
    simp [ha, hq]
  · rw [update_of_ne hb]
    exact h b

theorem Holds.count_eq (h : Holds place P l) (a : α) [Decidable (P a (place a))] :
    l.count a = if P a (place a) then 1 else 0 := by
  rw [h.1.count]
  exact if_congr h.mem_iff rfl rfl

theorem Holds.enter (h : Holds place P l) (hout : ¬P a (place a)) (hin : P a p) :
    Holds (update place a p) P (l ++ [a]) := by
  refine h.enterAll (List.nodup_singleton a) (fun b hb => ?_) fun b hb => ?_
  · rw [List.mem_singleton.1 hb, update_self]
    exact ⟨hout, hin⟩
  · rw [update_of_ne fun heq => hb (List.mem_singleton.2 heq)]

theorem Holds.enterFront (h : Holds place P l) (hout : ¬P a (place a)) (hin : P a p) :
    Holds (update place a p) P (a :: l) := by
  have hback := h.enter hout hin
  exact ⟨(List.perm_append_singleton a l).nodup_iff.1 hback.1,
    fun b => ((List.perm_append_singleton a l).mem_iff).symm.trans (hback.2 b)⟩

theorem Holds.leave (h : Holds place P l) (hout : ¬P a p) :
    Holds (update place a p) P (l.erase a) := by
  refine ⟨h.1.erase a, fun b => ?_⟩
  rw [h.1.mem_erase_iff, h.mem_iff]
  by_cases hb : b = a
  · subst hb
    simp [hout]
  · simp [hb]

/-- The item at the front leaves. -/
theorem Holds.leaveFront (h : Holds place P (a :: l)) (hout : ¬P a p) :
    Holds (update place a p) P l := by
  have herase := h.leave hout
  rwa [List.erase_cons_head] at herase

theorem Holds.keep (h : Holds place P l) (hp : P a p ↔ P a (place a)) :
    Holds (update place a p) P l := by
  refine h.congr fun b => ?_
  by_cases hb : b = a
  · subst hb
    rw [update_self, hp]
  · rw [update_of_ne hb]

/-- Containers with a key, of which a move changes the one of the item. -/
theorem Holds.keyed {κ : Type} [DecidableEq κ] {key : α → κ} {box : κ → List α}
    (h : ∀ k, Holds place (fun b q => P b q ∧ key b = k) (box k))
    (ha : Holds (update place a p) (fun b q => P b q ∧ key b = key a) l) (k : κ) :
    Holds (update place a p) (fun b q => P b q ∧ key b = k) (update box (key a) l k) := by
  by_cases hk : k = key a
  · subst hk
    rw [update_self]
    exact ha
  · rw [update_of_ne hk]
    refine (h k).keep ?_
    have hne : key a ≠ k := fun heq => hk heq.symm
    simp [hne]

end Gem5Gpu.Lib
