import Mathlib.Order.Monotone.Basic

/-!
# The first entry of the best class

A scheduler looks through a queue and takes, among the entries of the best class, the one
that comes first.  `cls` gives the class of an entry, the smaller the better, and `none` to
an entry that cannot be taken.  `firstBest cls l` is the position it finds, in one pass
that keeps the best entry so far (`improve`), and `firstBest_spec` is what the position
means.  `firstBest_relabel` says that only the order of the classes matters.

`moveToFront` is what the scheduler then does to the queue.
-/

namespace Gem5Gpu.Lib

variable {α : Type} {cls cls' : α → Option ℕ} {l rest : List α} {best : Option (ℕ × ℕ)} {i k : ℕ}

/-- The best entry so far, as its class and its position, after an entry of class `c` at
position `i`. -/
def improve (best : Option (ℕ × ℕ)) (c : Option ℕ) (i : ℕ) : Option (ℕ × ℕ) :=
  match c, best with
  | none, best => best
  | some k, none => some (k, i)
  | some k, some (k₀, i₀) => if k < k₀ then some (k, i) else some (k₀, i₀)

/-- The rest of the pass, from position `i`. -/
def bestFrom (cls : α → Option ℕ) : ℕ → Option (ℕ × ℕ) → List α → Option (ℕ × ℕ)
  | _, best, [] => best
  | i, best, p :: rest => bestFrom cls (i + 1) (improve best (cls p) i) rest

/-- The position of the first entry of the best class. -/
def firstBest (cls : α → Option ℕ) (l : List α) : Option ℕ :=
  (bestFrom cls 0 none l).map Prod.snd

/-- Position `i` holds the first entry of the best class. -/
def IsFirstBest (cls : α → Option ℕ) (l : List α) (i : ℕ) : Prop :=
  ∃ p k, l[i]? = some p ∧ cls p = some k ∧
    ∀ j q k', l[j]? = some q → cls q = some k' → k < k' ∨ k = k' ∧ i ≤ j

/-- What `best` says about the entries `l` that have been looked at. -/
def BestOf (cls : α → Option ℕ) (l : List α) : Option (ℕ × ℕ) → Prop
  | none => ∀ p ∈ l, cls p = none
  | some (k, i) => ∃ p, l[i]? = some p ∧ cls p = some k ∧
      ∀ j q k', l[j]? = some q → cls q = some k' → k < k' ∨ k = k' ∧ i ≤ j

theorem getElem?_snoc {p q : α} {j : ℕ} (h : (l ++ [p])[j]? = some q) :
    l[j]? = some q ∨ j = l.length ∧ q = p := by
  rcases Nat.lt_trichotomy j l.length with hj | hj | hj
  · left
    rwa [List.getElem?_append_left hj] at h
  · right
    subst hj
    simp at h
    exact ⟨rfl, h.symm⟩
  · rw [List.getElem?_eq_none (by simp; omega)] at h
    cases h

/-- One more entry. -/
theorem BestOf.snoc (h : BestOf cls l best) (p : α) :
    BestOf cls (l ++ [p]) (improve best (cls p) l.length) := by
  have hlast : (l ++ [p])[l.length]? = some p := by simp
  have hkeep : ∀ {j q}, l[j]? = some q → (l ++ [p])[j]? = some q := fun hq => by
    rw [List.getElem?_append_left (List.getElem?_eq_some_iff.1 hq).1, hq]
  unfold improve
  cases hc : cls p with
  | none =>
    match best, h with
    | none, h =>
      intro q hq
      rcases List.mem_append.1 hq with hq | hq
      · exact h q hq
      · rwa [List.mem_singleton.1 hq]
    | some (k₀, i₀), ⟨p₀, hp₀, hk₀, hmin⟩ =>
      refine ⟨p₀, hkeep hp₀, hk₀, fun j q k' hq hk' => ?_⟩
      rcases getElem?_snoc hq with hq | ⟨_, rfl⟩
      · exact hmin j q k' hq hk'
      · rw [hc] at hk'
        cases hk'
  | some k =>
    match best, h with
    | none, h =>
      refine ⟨p, hlast, hc, fun j q k' hq hk' => ?_⟩
      rcases getElem?_snoc hq with hq | ⟨rfl, rfl⟩
      · rw [h q (List.mem_of_getElem? hq)] at hk'
        cases hk'
      · rw [hc] at hk'
        cases hk'
        exact .inr ⟨rfl, le_rfl⟩
    | some (k₀, i₀), ⟨p₀, hp₀, hk₀, hmin⟩ =>
      have hi₀ : i₀ < l.length := (List.getElem?_eq_some_iff.1 hp₀).1
      dsimp only
      split
      · refine ⟨p, hlast, hc, fun j q k' hq hk' => ?_⟩
        rcases getElem?_snoc hq with hq | ⟨rfl, rfl⟩
        · have := hmin j q k' hq hk'
          omega
        · rw [hc] at hk'
          cases hk'
          omega
      · refine ⟨p₀, hkeep hp₀, hk₀, fun j q k' hq hk' => ?_⟩
        rcases getElem?_snoc hq with hq | ⟨rfl, rfl⟩
        · exact hmin j q k' hq hk'
        · rw [hc] at hk'
          cases hk'
          omega

/-- The pass: `l` are the entries looked at, `rest` those to come. -/
theorem BestOf.bestFrom (h : BestOf cls l best) :
    BestOf cls (l ++ rest) (bestFrom cls l.length best rest) := by
  induction rest generalizing l best with
  | nil => simpa [Lib.bestFrom] using h
  | cons p rest ih =>
    have := ih (h.snoc p)
    simpa [Lib.bestFrom] using this

/-- What the position means. -/
theorem firstBest_spec (cls : α → Option ℕ) (l : List α) :
    match firstBest cls l with
    | some i => IsFirstBest cls l i
    | none => ∀ p ∈ l, cls p = none := by
  have h : BestOf cls l (bestFrom cls 0 none l) :=
    BestOf.bestFrom (l := []) (fun p hp => absurd hp (List.not_mem_nil))
  unfold firstBest
  cases hb : bestFrom cls 0 none l with
  | none => rwa [hb] at h
  | some b =>
    rw [hb] at h
    obtain ⟨p, hp, hk, hmin⟩ := h
    exact ⟨p, b.1, hp, hk, hmin⟩

theorem isFirstBest_of_eq_some (h : firstBest cls l = some i) : IsFirstBest cls l i := by
  have := firstBest_spec cls l
  rwa [h] at this

theorem forall_eq_none_of_eq_none (h : firstBest cls l = none) : ∀ p ∈ l, cls p = none := by
  have := firstBest_spec cls l
  rwa [h] at this

/-- Nothing beats class `0`, so that the pass may stop at it. -/
theorem bestFrom_zero (j : ℕ) : bestFrom cls j (some (0, i)) l = some (0, i) := by
  induction l generalizing j with
  | nil => rfl
  | cons p l ih =>
    have : improve (some (0, i)) (cls p) j = some (0, i) := by
      unfold improve
      cases cls p <;> simp
    rw [bestFrom, this, ih]

/-- Only the order of the classes matters. -/
theorem bestFrom_relabel {f : ℕ → ℕ} (hf : StrictMono f) (h : ∀ p ∈ l, cls' p = (cls p).map f)
    (i : ℕ) (best : Option (ℕ × ℕ)) :
    bestFrom cls' i (best.map (Prod.map f id)) l = (bestFrom cls i best l).map (Prod.map f id) := by
  induction l generalizing i best with
  | nil => rfl
  | cons p l ih =>
    have himp : improve (best.map (Prod.map f id)) (cls' p) i
        = (improve best (cls p) i).map (Prod.map f id) := by
      rw [h p List.mem_cons_self]
      unfold improve
      rcases cls p with _ | k <;> rcases best with _ | ⟨k₀, i₀⟩ <;> simp [hf.lt_iff_lt]
      split <;> rfl
    rw [bestFrom, bestFrom, himp, ih fun q hq => h q (List.mem_cons_of_mem _ hq)]

theorem firstBest_relabel {f : ℕ → ℕ} (hf : StrictMono f)
    (h : ∀ p ∈ l, cls' p = (cls p).map f) : firstBest cls' l = firstBest cls l := by
  have hnone : bestFrom cls' 0 none l = (bestFrom cls 0 none l).map (Prod.map f id) :=
    bestFrom_relabel hf h 0 none
  rw [firstBest, firstBest, hnone, Option.map_map]
  rfl

/-- Erase the entry at the position found and push it to the front; the flag says whether one
was found. -/
def moveToFront (l : List α) (found : Option ℕ) : Bool × List α :=
  match found.bind (l[·]?), found with
  | some p, some i => (true, p :: l.eraseIdx i)
  | _, _ => (false, l)

theorem moveToFront_none : moveToFront l none = (false, l) := rfl

theorem moveToFront_some {p : α} (h : l[i]? = some p) :
    moveToFront l (some i) = (true, p :: l.eraseIdx i) := by
  simp [moveToFront, h]

end Gem5Gpu.Lib
