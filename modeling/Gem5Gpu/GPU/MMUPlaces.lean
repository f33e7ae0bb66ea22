import Gem5Gpu.GPU.ShaderMMU
import Gem5Gpu.Lib.Places

/-!
# Where the requests of the MMU are

A request has a kind: it has not begun, it waits for its start, it is behind another
request for its page, it is at the front of the list of its page, or it is answered.
`Lists` says that the containers of the requests agree with the kinds.  A request at
the front has a spot, which is where its walk or its fault is, and `Spots` says that
the containers of walks and faults agree with the spots.  A handler holds at most one
request that it has taken from its queue, and at most one front request in its hand.

Since a page has one front request and a front request has one spot, there is at most
one walk for a page.
-/

namespace Gem5Gpu.GPU.MMU

open Lib Function

variable {t : ℕ}

inductive Kind
  /-- Not begun. -/
  | none
  | start
  | taken
  | behind
  | front
  | done
deriving DecidableEq, Repr

/-- The request is in the list of its page. -/
def Kind.waits : Kind → Bool
  | .behind | .front => true
  | _ => false

inductive Spot
  /-- Not at the front. -/
  | none
  | hand
  | queued
  | scheduled (i : ℕ)
  | walking (i : ℕ)
  | kernel
  | faultQueue
deriving DecidableEq, Repr

/-- The request has a walk, or is about to get one. -/
def Spot.walks : Spot → Bool
  | .hand | .queued | .scheduled _ | .walking _ => true
  | _ => false

/-- The containers agree with the kinds. -/
structure Lists (kind : Request → Kind) (taken : Option Request) (start : List Request)
    (outstanding : ℕ → List Request) (answered misses : List Request) : Prop where
  start : Holds kind (fun _ k => k = .start) start
  taken : HoldsOne kind .taken taken
  pages : ∀ p, Holds kind (fun r k => k.waits = true ∧ r.vpBase = p) (outstanding p)
  front : ∀ r, kind r = .front ↔ (outstanding r.vpBase).head? = some r
  answered : Holds kind (fun _ k => k = .done) answered
  misses : Holds kind (fun _ k => k ≠ .none) misses

namespace Lists

variable {kind : Request → Kind} {taken : Option Request} {start : List Request}
  {outstanding : ℕ → List Request} {answered misses walks : List Request} {r : Request}

theorem initial : Lists (fun _ => .none) none [] (fun _ => []) [] [] where
  start := ⟨List.nodup_nil, by simp⟩
  taken := by simp [HoldsOne]
  pages := fun p => ⟨List.nodup_nil, by simp [Kind.waits]⟩
  front := by simp
  answered := ⟨List.nodup_nil, by simp⟩
  misses := ⟨List.nodup_nil, by simp⟩

/-- The front requests stay when a request moves that neither was nor becomes one. -/
theorem front_keep {k : Kind} {outstanding' : ℕ → List Request}
    (h : ∀ r, kind r = .front ↔ (outstanding r.vpBase).head? = some r) (hr : kind r ≠ .front)
    (hk : k ≠ .front)
    (hhead : ∀ t, (outstanding' t.vpBase).head? = some t ↔ (outstanding t.vpBase).head? = some t)
    (t : Request) :
    update kind r k t = .front ↔ (outstanding' t.vpBase).head? = some t := by
  rw [hhead t]
  by_cases ht : t = r
  · subst ht
    rw [update_self, ← h t]
    simp [hr, hk]
  · rw [update_of_ne ht]
    exact h t

/-- A new miss. -/
theorem begin (h : Lists kind taken start outstanding answered misses) (hr : kind r = .none) :
    Lists (update kind r .start) taken (start ++ [r]) outstanding answered (misses ++ [r]) where
  start := h.start.enter (by simp [hr]) rfl
  taken := h.taken.keep (by simp [hr]) (by simp)
  pages := fun p => (h.pages p).keep (by simp [hr, Kind.waits])
  front := front_keep h.front (by simp [hr]) (by simp) fun _ => Iff.rfl
  answered := h.answered.keep (by simp [hr])
  misses := h.misses.enter (by simp [hr]) (by simp)

theorem kind_start (h : Lists kind taken (r :: start) outstanding answered misses) :
    kind r = .start :=
  h.start.mem_iff.1 List.mem_cons_self

/-- The handler takes the first miss. -/
theorem pop (h : Lists kind none (r :: start) outstanding answered misses) :
    Lists (update kind r .taken) (some r) start outstanding answered misses where
  start := h.start.leaveFront (by simp)
  taken := h.taken.enter
  pages := fun p => (h.pages p).keep (by simp [h.kind_start, Kind.waits])
  front := front_keep h.front (by simp [h.kind_start]) (by simp) fun _ => Iff.rfl
  answered := h.answered.keep (by simp [h.kind_start])
  misses := h.misses.keep (by simp [h.kind_start])

theorem kind_taken (h : Lists kind (some r) start outstanding answered misses) : kind r = .taken :=
  (h.taken r).1 rfl

/-- The miss is answered at once. -/
theorem hit (h : Lists kind (some r) start outstanding answered misses) :
    Lists (update kind r .done) none start outstanding (answered ++ [r]) misses where
  start := h.start.keep (by simp [h.kind_taken])
  taken := h.taken.leave (by simp)
  pages := fun p => (h.pages p).keep (by simp [h.kind_taken, Kind.waits])
  front := front_keep h.front (by simp [h.kind_taken]) (by simp) fun _ => Iff.rfl
  answered := h.answered.enter (by simp [h.kind_taken]) rfl
  misses := h.misses.keep (by simp [h.kind_taken])

/-- The heads of the lists after a request went to the end of the list of its page. -/
theorem head_push (t : Request) :
    (update outstanding r.vpBase (outstanding r.vpBase ++ [r]) t.vpBase).head? = some t ↔
      (outstanding t.vpBase).head? = some t ∨ t = r ∧ outstanding r.vpBase = [] := by
  by_cases hp : t.vpBase = r.vpBase
  · rw [hp, update_self]
    cases hl : outstanding r.vpBase with
    | nil => simp [eq_comm]
    | cons x xs => simp
  · rw [update_of_ne hp]
    have hne : t ≠ r := fun heq => hp (by rw [heq])
    simp [hne]

/-- The page of the miss has a request already. -/
theorem follow (h : Lists kind (some r) start outstanding answered misses)
    (hbusy : outstanding r.vpBase ≠ []) :
    Lists (update kind r .behind) none start
      (update outstanding r.vpBase (outstanding r.vpBase ++ [r])) answered misses where
  start := h.start.keep (by simp [h.kind_taken])
  taken := h.taken.leave (by simp)
  pages := Holds.keyed h.pages
    ((h.pages r.vpBase).enter (by simp [h.kind_taken, Kind.waits]) (by simp [Kind.waits]))
  front := front_keep h.front (by simp [h.kind_taken]) (by simp) fun t => by
    rw [head_push t]
    simp [hbusy]
  answered := h.answered.keep (by simp [h.kind_taken])
  misses := h.misses.keep (by simp [h.kind_taken])

/-- The miss is the first one of its page. -/
theorem lead (h : Lists kind (some r) start outstanding answered misses)
    (hidle : outstanding r.vpBase = []) :
    Lists (update kind r .front) none start
      (update outstanding r.vpBase (outstanding r.vpBase ++ [r])) answered misses where
  start := h.start.keep (by simp [h.kind_taken])
  taken := h.taken.leave (by simp)
  pages := Holds.keyed h.pages
    ((h.pages r.vpBase).enter (by simp [h.kind_taken, Kind.waits]) (by simp [Kind.waits]))
  front := fun t => by
    rw [head_push t, ← h.front t]
    by_cases ht : t = r
    · subst ht
      simp [hidle]
    · simp [ht]
  answered := h.answered.keep (by simp [h.kind_taken])
  misses := h.misses.keep (by simp [h.kind_taken])

/-- The kinds after the requests of a page are answered. -/
def finished (kind : Request → Kind) (walks : List Request) (r : Request) : Kind :=
  if r ∈ walks then .done else kind r

/-- All requests of a page are answered. -/
theorem finish (h : Lists kind taken start outstanding answered misses) (p : ℕ) :
    Lists (finished kind (outstanding p)) taken start (update outstanding p [])
      (answered ++ outstanding p) misses := by
  have hwaits (t : Request) (ht : t ∈ outstanding p) : (kind t).waits = true ∧ t.vpBase = p :=
    (h.pages p).mem_iff.1 ht
  have hdone (t : Request) (ht : t ∈ outstanding p) :
      finished kind (outstanding p) t = .done := if_pos ht
  have hkeep (t : Request) (ht : t ∉ outstanding p) :
      finished kind (outstanding p) t = kind t := if_neg ht
  have hcases (t : Request) {P : Kind → Prop} (hP : ∀ k : Kind, k.waits = true → (P .done ↔ P k)) :
      P (finished kind (outstanding p) t) ↔ P (kind t) := by
    by_cases ht : t ∈ outstanding p
    · rw [hdone t ht]
      exact hP _ (hwaits t ht).1
    · rw [hkeep t ht]
  refine ⟨?_, ?_, fun q => ?_, fun t => ?_, ?_, ?_⟩
  · exact h.start.congr fun t => hcases t (P := (· = .start)) fun k hk => by
      cases k <;> simp [Kind.waits] at hk ⊢
  · intro t
    rw [h.taken t]
    exact (hcases t (P := (· = .taken)) fun k hk => by cases k <;> simp [Kind.waits] at hk ⊢).symm
  · by_cases hq : q = p
    · subst hq
      rw [update_self]
      refine ⟨List.nodup_nil, fun t => ⟨fun ht => absurd ht List.not_mem_nil, fun ht => ?_⟩⟩
      by_cases hmem : t ∈ outstanding q
      · rw [hdone t hmem] at ht
        cases ht.1
      · rw [hkeep t hmem] at ht
        exact absurd ((h.pages q).mem_iff.2 ht) hmem
    · rw [update_of_ne hq]
      refine (h.pages q).congr fun t => ?_
      by_cases hmem : t ∈ outstanding p
      · have hne : t.vpBase ≠ q := by
          rw [(hwaits t hmem).2]
          exact Ne.symm hq
        simp [hne]
      · rw [hkeep t hmem]
  · by_cases hmem : t ∈ outstanding p
    · rw [hdone t hmem, (hwaits t hmem).2, update_self]
      simp
    · rw [hkeep t hmem, h.front t]
      by_cases hp : t.vpBase = p
      · subst hp
        rw [update_self]
        constructor
        · intro hhead
          exact absurd (List.mem_of_mem_head? hhead) hmem
        · intro hnil
          cases hnil
      · rw [update_of_ne hp]
  · refine h.answered.enterAll (h.pages p).1 (fun t ht => ?_) fun t ht => ?_
    · refine ⟨fun hk => ?_, hdone t ht⟩
      have := (hwaits t ht).1
      rw [hk] at this
      cases this
    · rw [hkeep t ht]
  · exact h.misses.congr fun t => hcases t (P := (· ≠ .none)) fun k hk => by
      cases k <;> simp [Kind.waits] at hk ⊢

end Lists

/-- The containers of walks and faults agree with the spots. -/
structure Spots (spot : Request → Spot) (hand : Option Request) (pending : List Request)
    (walkers : ℕ → Walker) (faults : List Request) (kernel : Option Request) : Prop where
  hand : HoldsOne spot .hand hand
  pending : Holds spot (fun _ p => p = .queued) pending
  scheduled : ∀ i, HoldsOne spot (.scheduled i) ((walkers i).event.map Prod.fst)
  walking : ∀ i, HoldsOne spot (.walking i) (walkers i).walking
  faults : Holds spot (fun _ p => p = .faultQueue) faults
  kernel : HoldsOne spot .kernel kernel

namespace Spots

variable {spot : Request → Spot} {hand kernel : Option Request} {pending faults : List Request}
  {walkers : ℕ → Walker} {r : Request} {i : ℕ} {w : Walker}

theorem initial : Spots (fun _ => .none) none [] (fun _ => ⟨false, none, none, none⟩) [] none where
  hand := by simp [HoldsOne]
  pending := ⟨List.nodup_nil, by simp⟩
  scheduled := by simp [HoldsOne]
  walking := by simp [HoldsOne]
  faults := ⟨List.nodup_nil, by simp⟩
  kernel := by simp [HoldsOne]

section

variable (h : ∀ i, HoldsOne spot (.scheduled i) ((walkers i).event.map Prod.fst))
  (hr : ∀ j, spot r ≠ .scheduled j)
include h hr

/-- The spots of the walkers after a request came to the event of one of them. -/
theorem scheduled_enter (hfree : (walkers i).event = none)
    (hevent : w.event = some (r, t)) (j : ℕ) :
    HoldsOne (update spot r (.scheduled i)) (.scheduled j)
      ((update walkers i w j).event.map Prod.fst) := by
  by_cases hj : j = i
  · subst hj
    have hempty := h j
    rw [hfree] at hempty
    rw [update_self, hevent]
    exact hempty.enter
  · rw [update_of_ne hj]
    exact (h j).keep (hr j) (by simp [Ne.symm hj])

theorem scheduled_keep {p : Spot} (hp : ∀ j, p ≠ .scheduled j)
    (hevent : w.event = (walkers i).event) (j : ℕ) :
    HoldsOne (update spot r p) (.scheduled j) ((update walkers i w j).event.map Prod.fst) := by
  by_cases hj : j = i
  · subst hj
    rw [update_self, hevent]
    exact (h j).keep (hr j) (hp j)
  · rw [update_of_ne hj]
    exact (h j).keep (hr j) (hp j)

end

theorem walking_keep {p : Spot} (h : ∀ i, HoldsOne spot (.walking i) (walkers i).walking)
    (hr : ∀ j, spot r ≠ .walking j) (hp : ∀ j, p ≠ .walking j)
    (hwalking : w.walking = (walkers i).walking) (j : ℕ) :
    HoldsOne (update spot r p) (.walking j) (update walkers i w j).walking := by
  by_cases hj : j = i
  · subst hj
    rw [update_self, hwalking]
    exact (h j).keep (hr j) (hp j)
  · rw [update_of_ne hj]
    exact (h j).keep (hr j) (hp j)

/-- A request becomes the front of its page. -/
theorem enter (h : Spots spot none pending walkers faults kernel) (hr : spot r = .none) :
    Spots (update spot r .hand) (some r) pending walkers faults kernel where
  hand := h.hand.enter
  pending := h.pending.keep (by simp [hr])
  scheduled := fun i => (h.scheduled i).keep (by simp [hr]) (by simp)
  walking := fun i => (h.walking i).keep (by simp [hr]) (by simp)
  faults := h.faults.keep (by simp [hr])
  kernel := h.kernel.keep (by simp [hr]) (by simp)

section

variable (h : Spots spot (some r) pending walkers faults kernel)
include h

theorem spot_hand : spot r = .hand :=
  (h.hand r).1 rfl

/-- The request in the hand gets a walker. -/
theorem schedule (hfree : (walkers i).event = none) (hevent : w.event = some (r, t))
    (hwalking : w.walking = (walkers i).walking) :
    Spots (update spot r (.scheduled i)) none pending (update walkers i w) faults kernel where
  hand := h.hand.leave (by simp)
  pending := h.pending.keep (by simp [h.spot_hand])
  scheduled := scheduled_enter h.scheduled (by simp [h.spot_hand]) hfree hevent
  walking := walking_keep h.walking (by simp [h.spot_hand]) (by simp) hwalking
  faults := h.faults.keep (by simp [h.spot_hand])
  kernel := h.kernel.keep (by simp [h.spot_hand]) (by simp)

/-- The request in the hand waits for a walker. -/
theorem queue : Spots (update spot r .queued) none (pending ++ [r]) walkers faults kernel where
  hand := h.hand.leave (by simp)
  pending := h.pending.enter (by simp [h.spot_hand]) rfl
  scheduled := fun i => (h.scheduled i).keep (by simp [h.spot_hand]) (by simp)
  walking := fun i => (h.walking i).keep (by simp [h.spot_hand]) (by simp)
  faults := h.faults.keep (by simp [h.spot_hand])
  kernel := h.kernel.keep (by simp [h.spot_hand]) (by simp)

end

theorem spot_queued (h : Spots spot hand (r :: pending) walkers faults kernel) : spot r = .queued :=
  h.pending.mem_iff.1 List.mem_cons_self

/-- The first pending walk gets a walker. -/
theorem unqueue (h : Spots spot hand (r :: pending) walkers faults kernel)
    (hfree : (walkers i).event = none) (hevent : w.event = some (r, t))
    (hwalking : w.walking = (walkers i).walking) :
    Spots (update spot r (.scheduled i)) hand pending (update walkers i w) faults kernel where
  hand := h.hand.keep (by simp [h.spot_queued]) (by simp)
  pending := h.pending.leaveFront (by simp)
  scheduled := scheduled_enter h.scheduled (by simp [h.spot_queued]) hfree hevent
  walking := walking_keep h.walking (by simp [h.spot_queued]) (by simp) hwalking
  faults := h.faults.keep (by simp [h.spot_queued])
  kernel := h.kernel.keep (by simp [h.spot_queued]) (by simp)

section

variable (h : Spots spot hand pending walkers faults kernel)
include h

theorem spot_scheduled (hevent : (walkers i).event = some (r, t)) : spot r = .scheduled i :=
  (h.scheduled i r).1 (by rw [hevent]; rfl)

/-- A scheduled walk begins. -/
theorem startWalk (hevent : (walkers i).event = some (r, t)) (hidle : (walkers i).walking = none)
    (hnone : w.event = none) (hwalking : w.walking = some r) :
    Spots (update spot r (.walking i)) hand pending (update walkers i w) faults
      kernel := by
  have hr := h.spot_scheduled hevent
  refine ⟨h.hand.keep (by simp [hr]) (by simp), h.pending.keep (by simp [hr]), fun j => ?_,
    fun j => ?_, h.faults.keep (by simp [hr]), h.kernel.keep (by simp [hr]) (by simp)⟩
  · by_cases hj : j = i
    · subst hj
      have hfull := h.scheduled j
      rw [hevent] at hfull
      rw [update_self, hnone]
      exact HoldsOne.leave hfull (by simp)
    · rw [update_of_ne hj]
      exact (h.scheduled j).keep (by simp [hr, Ne.symm hj]) (by simp)
  · by_cases hj : j = i
    · subst hj
      have hempty := h.walking j
      rw [hidle] at hempty
      rw [update_self, hwalking]
      exact hempty.enter
    · rw [update_of_ne hj]
      exact (h.walking j).keep (by simp [hr]) (by simp [Ne.symm hj])

theorem spot_walking (hwalking : (walkers i).walking = some r) : spot r = .walking i :=
  (h.walking i r).1 hwalking

end

/-- A walk ends. -/
theorem endWalk (h : Spots spot none pending walkers faults kernel)
    (hwalking : (walkers i).walking = some r) (hevent : w.event = (walkers i).event)
    (hnone : w.walking = none) :
    Spots (update spot r .hand) (some r) pending (update walkers i w) faults
      kernel := by
  have hr := h.spot_walking hwalking
  refine ⟨h.hand.enter, h.pending.keep (by simp [hr]),
    scheduled_keep h.scheduled (by simp [hr]) (by simp) hevent, fun j => ?_,
    h.faults.keep (by simp [hr]), h.kernel.keep (by simp [hr]) (by simp)⟩
  by_cases hj : j = i
  · subst hj
    have hfull := h.walking j
    rw [hwalking] at hfull
    rw [update_self, hnone]
    exact hfull.leave (by simp)
  · rw [update_of_ne hj]
    exact (h.walking j).keep (by simp [hr, Ne.symm hj]) (by simp)

/-- The fault of the request in the hand goes to the kernel. -/
theorem raise (h : Spots spot (some r) pending walkers faults none) :
    Spots (update spot r .kernel) none pending walkers faults (some r) where
  hand := h.hand.leave (by simp)
  pending := h.pending.keep (by simp [h.spot_hand])
  scheduled := fun i => (h.scheduled i).keep (by simp [h.spot_hand]) (by simp)
  walking := fun i => (h.walking i).keep (by simp [h.spot_hand]) (by simp)
  faults := h.faults.keep (by simp [h.spot_hand])
  kernel := h.kernel.enter

/-- The fault of the request in the hand waits for the kernel. -/
theorem defer (h : Spots spot (some r) pending walkers faults kernel) :
    Spots (update spot r .faultQueue) none pending walkers (faults ++ [r]) kernel where
  hand := h.hand.leave (by simp)
  pending := h.pending.keep (by simp [h.spot_hand])
  scheduled := fun i => (h.scheduled i).keep (by simp [h.spot_hand]) (by simp)
  walking := fun i => (h.walking i).keep (by simp [h.spot_hand]) (by simp)
  faults := h.faults.enter (by simp [h.spot_hand]) rfl
  kernel := h.kernel.keep (by simp [h.spot_hand]) (by simp)

theorem spot_faultQueue (h : Spots spot hand pending walkers (r :: faults) kernel) :
    spot r = .faultQueue :=
  h.faults.mem_iff.1 List.mem_cons_self

/-- The first pending fault goes to the kernel. -/
theorem raiseNext (h : Spots spot hand pending walkers (r :: faults) none) :
    Spots (update spot r .kernel) hand pending walkers faults (some r) where
  hand := h.hand.keep (by simp [h.spot_faultQueue]) (by simp)
  pending := h.pending.keep (by simp [h.spot_faultQueue])
  scheduled := fun i => (h.scheduled i).keep (by simp [h.spot_faultQueue]) (by simp)
  walking := fun i => (h.walking i).keep (by simp [h.spot_faultQueue]) (by simp)
  faults := h.faults.leaveFront (by simp)
  kernel := h.kernel.enter

theorem spot_kernel (h : Spots spot hand pending walkers faults (some r)) : spot r = .kernel :=
  (h.kernel r).1 rfl

/-- The kernel has finished. -/
theorem retry (h : Spots spot none pending walkers faults (some r)) :
    Spots (update spot r .hand) (some r) pending walkers faults none where
  hand := h.hand.enter
  pending := h.pending.keep (by simp [h.spot_kernel])
  scheduled := fun i => (h.scheduled i).keep (by simp [h.spot_kernel]) (by simp)
  walking := fun i => (h.walking i).keep (by simp [h.spot_kernel]) (by simp)
  faults := h.faults.keep (by simp [h.spot_kernel])
  kernel := h.kernel.leave (by simp)

/-- The request in the hand is answered. -/
theorem drop (h : Spots spot (some r) pending walkers faults kernel) :
    Spots (update spot r .none) none pending walkers faults kernel where
  hand := h.hand.leave (by simp)
  pending := h.pending.keep (by simp [h.spot_hand])
  scheduled := fun i => (h.scheduled i).keep (by simp [h.spot_hand]) (by simp)
  walking := fun i => (h.walking i).keep (by simp [h.spot_hand]) (by simp)
  faults := h.faults.keep (by simp [h.spot_hand])
  kernel := h.kernel.keep (by simp [h.spot_hand]) (by simp)

end Spots

end Gem5Gpu.GPU.MMU
