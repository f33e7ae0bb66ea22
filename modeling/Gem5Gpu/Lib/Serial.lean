import Mathlib.Data.List.Basic

/-!
# One request at a time per key

Requests wait in one queue and go out in its order, except that at most one
request per key is out.  A request that comes to the front while its key is busy
is parked with its key, and when the key is released the first parked one goes back
to the front of the queue.

`pending` is the order in which the requests of one key will go out, and
`Serial` says that the requests of a key go out in the order in which they
entered.  A key that is free may have parked requests only behind one that is
already back in the queue, which is what makes the order come out right.

Nothing here mentions a program.
-/

namespace Gem5Gpu.Lib

open Function

variable {α κ : Type} [DecidableEq κ]

/-- The requests of one key. -/
def ofKey (key : α → κ) (k : κ) (l : List α) : List α := l.filter fun a => decide (key a = k)

section OfKey

variable {key : α → κ} {k : κ} {a : α} {l l' : List α}

theorem ofKey_cons (h : key a = k) : ofKey key k (a :: l) = a :: ofKey key k l :=
  List.filter_cons_of_pos (by simp [h])

theorem ofKey_cons_of_ne (h : key a ≠ k) : ofKey key k (a :: l) = ofKey key k l :=
  List.filter_cons_of_neg (by simp [h])

theorem ofKey_append : ofKey key k (l ++ l') = ofKey key k l ++ ofKey key k l' :=
  List.filter_append ..

theorem ofKey_snoc (h : key a = k) : ofKey key k (l ++ [a]) = ofKey key k l ++ [a] := by
  rw [ofKey_append, ofKey_cons h]
  rfl

theorem ofKey_snoc_of_ne (h : key a ≠ k) : ofKey key k (l ++ [a]) = ofKey key k l := by
  rw [ofKey_append, ofKey_cons_of_ne h]
  exact List.append_nil _

end OfKey

/-- The order in which the requests of a key will go out: behind the parked ones
when the key is busy, and otherwise with the first queued one before them. -/
def pending (parked queued : List α) (busy : Bool) : List α :=
  if busy then parked ++ queued
  else match queued with
    | [] => parked
    | a :: rest => a :: (parked ++ rest)

theorem pending_perm (parked queued : List α) (busy : Bool) :
    (pending parked queued busy).Perm (parked ++ queued) := by
  unfold pending
  cases busy with
  | true => rfl
  | false =>
    cases queued with
    | nil => simp
    | cons a rest => exact List.perm_middle.symm

/-- The requests of each key go out in the order in which they entered. -/
structure Serial (key : α → κ) (entered out queue : List α) (parked : κ → List α)
    (busy : κ → Bool) : Prop where
  order : ∀ k, ofKey key k entered =
    ofKey key k out ++ pending (parked k) (ofKey key k queue) (busy k)
  free : ∀ k, busy k = false → ofKey key k queue = [] → parked k = []

namespace Serial

variable {key : α → κ} {entered out queue : List α} {parked : κ → List α} {busy : κ → Bool}
  {a : α} {rest : List α} {k : κ}

theorem nil : Serial key [] [] [] (fun _ => []) (fun _ => false) :=
  ⟨fun _ => rfl, fun _ _ _ => rfl⟩

section

variable (h : Serial key entered out queue parked busy)
include h

/-- What went out so far is a beginning of what entered. -/
theorem isPrefix (k : κ) :
    ofKey key k out <+: ofKey key k entered :=
  ⟨_, (h.order k).symm⟩

theorem enter (a : α) :
    Serial key (entered ++ [a]) out (queue ++ [a]) parked busy := by
  refine ⟨fun k => ?_, fun k hk hnil => ?_⟩
  · by_cases ha : key a = k
    · rw [ofKey_snoc ha, ofKey_snoc ha, h.order k, List.append_assoc]
      congr 1
      unfold pending
      cases hb : busy k with
      | true => simp
      | false =>
        cases hq : ofKey key k queue with
        | nil => simp [h.free k hb hq]
        | cons x more => simp
    · rw [ofKey_snoc_of_ne ha, ofKey_snoc_of_ne ha, h.order k]
  · by_cases ha : key a = k
    · rw [ofKey_snoc ha] at hnil
      simp at hnil
    · rw [ofKey_snoc_of_ne ha] at hnil
      exact h.free k hk hnil

theorem enterAll (l : List α) :
    Serial key (entered ++ l) out (queue ++ l) parked busy := by
  induction l generalizing entered queue with
  | nil => simpa using h
  | cons a l ih => simpa using ih (h.enter a)

end

/-- The request at the front is parked, because its key is busy. -/
theorem park (h : Serial key entered out (a :: rest) parked busy) (hbusy : busy (key a)) :
    Serial key entered out rest (update parked (key a) (parked (key a) ++ [a])) busy := by
  refine ⟨fun k => ?_, fun k hk hnil => ?_⟩
  · have horder := h.order k
    by_cases ha : key a = k
    · subst ha
      rw [ofKey_cons rfl] at horder
      rw [horder, update_self]
      simp [pending, hbusy]
    · rw [ofKey_cons_of_ne ha] at horder
      rw [horder, update_of_ne (Ne.symm ha)]
  · by_cases ha : key a = k
    · subst ha
      rw [hbusy] at hk
      cases hk
    · rw [update_of_ne (Ne.symm ha)]
      exact h.free k hk (by rw [ofKey_cons_of_ne ha]; exact hnil)

/-- The request at the front goes out, because its key is free. -/
theorem send (h : Serial key entered out (a :: rest) parked busy) (hfree : busy (key a) = false) :
    Serial key entered (out ++ [a]) rest parked (update busy (key a) true) := by
  refine ⟨fun k => ?_, fun k hk hnil => ?_⟩
  · have horder := h.order k
    by_cases ha : key a = k
    · subst ha
      rw [ofKey_cons rfl] at horder
      rw [horder, ofKey_snoc rfl, update_self]
      simp [pending, hfree]
    · rw [ofKey_cons_of_ne ha] at horder
      rw [horder, ofKey_snoc_of_ne ha, update_of_ne (Ne.symm ha)]
  · by_cases ha : key a = k
    · subst ha
      rw [update_self] at hk
      cases hk
    · rw [update_of_ne (Ne.symm ha)] at hk
      exact h.free k hk (by rw [ofKey_cons_of_ne ha]; exact hnil)

/-- A key without parked requests is released. -/
theorem release (h : Serial key entered out queue parked busy) (hbusy : busy k)
    (hnil : parked k = []) :
    Serial key entered out queue parked (update busy k false) := by
  refine ⟨fun j => ?_, fun j hj hq => ?_⟩
  · by_cases hjk : j = k
    · subst hjk
      rw [h.order j, update_self]
      unfold pending
      rw [hbusy, hnil]
      cases ofKey key j queue <;> rfl
    · rw [h.order j, update_of_ne hjk]
  · by_cases hjk : j = k
    · subst hjk
      exact hnil
    · rw [update_of_ne hjk] at hj
      exact h.free j hj hq

/-- A key is released, and its first parked request goes to the front. -/
theorem unpark (h : Serial key entered out queue parked busy) (hbusy : busy k)
    (hcons : parked k = a :: rest) (hkey : key a = k) :
    Serial key entered out (a :: queue) (update parked k rest) (update busy k false) := by
  refine ⟨fun j => ?_, fun j hj hq => ?_⟩
  · by_cases hjk : j = k
    · subst hjk
      rw [h.order j, update_self, update_self, ofKey_cons hkey]
      simp [pending, hbusy, hcons]
    · have hne : key a ≠ j := fun heq => hjk (heq.symm.trans hkey)
      rw [h.order j, update_of_ne hjk, update_of_ne hjk, ofKey_cons_of_ne hne]
  · by_cases hjk : j = k
    · subst hjk
      rw [ofKey_cons hkey] at hq
      cases hq
    · have hne : key a ≠ j := fun heq => hjk (heq.symm.trans hkey)
      rw [update_of_ne hjk] at hj
      rw [ofKey_cons_of_ne hne] at hq
      rw [update_of_ne hjk]
      exact h.free j hj hq

end Serial

/-- At most one request per key is out, and `busy` says for which keys. -/
def Exclusive (key : α → κ) (outside : List α) (busy : κ → Bool) : Prop :=
  ∀ k, (ofKey key k outside).length = (busy k).toNat

namespace Exclusive

variable {key : α → κ} {outside : List α} {busy : κ → Bool} {a : α}

theorem send (h : Exclusive key outside busy) (hfree : busy (key a) = false) :
    Exclusive key (outside ++ [a]) (update busy (key a) true) := by
  intro k
  have hk := h k
  by_cases ha : key a = k
  · subst ha
    rw [hfree] at hk
    rw [ofKey_snoc rfl, List.length_append, hk, update_self]
    rfl
  · rw [ofKey_snoc_of_ne ha, hk, update_of_ne (Ne.symm ha)]

theorem busy_of_mem (h : Exclusive key outside busy) (ha : a ∈ outside) : busy (key a) = true := by
  have hmem : a ∈ ofKey key (key a) outside := List.mem_filter.2 ⟨ha, by simp⟩
  have hpos := List.length_pos_of_mem hmem
  rw [h (key a)] at hpos
  cases hb : busy (key a) with
  | true => rfl
  | false =>
    rw [hb] at hpos
    exact absurd hpos (Nat.lt_irrefl 0)

theorem release [DecidableEq α] (h : Exclusive key outside busy) (ha : a ∈ outside) :
    Exclusive key (outside.erase a) (update busy (key a) false) := by
  intro k
  have hk := h k
  by_cases hkey : key a = k
  · subst hkey
    rw [h.busy_of_mem ha] at hk
    have hmem : a ∈ ofKey key (key a) outside := List.mem_filter.2 ⟨ha, by simp⟩
    rw [update_self, ofKey, ← List.erase_filter (f := fun b => decide (key b = key a))]
    rw [ofKey] at hmem hk
    rw [List.length_erase_of_mem hmem, hk]
    rfl
  · rw [update_of_ne (Ne.symm hkey), ← hk, ofKey, ofKey,
      ← List.erase_filter (f := fun b => decide (key b = k)), List.erase_of_not_mem]
    simp [hkey]

end Exclusive

end Gem5Gpu.Lib
