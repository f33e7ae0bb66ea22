import Gem5Gpu.GPU.ShaderLSQ
import Gem5Gpu.Lib.Places
import Gem5Gpu.Lib.Serial

/-!
# Where the accesses of the load-store queue are

Every access has one place at a time, from its translation to its ejection, and
`Boxes` are the containers that hold the accesses.  `Accs place B` says that each
container holds exactly the accesses of its places.  The moves of an access are
`translate`, `promote` (its instruction comes to the head of the queue), `park`,
`send`, `respond`, `unpark` and `eject`; each one changes the place of one access
and the containers on its way.

The line order and the exclusion of two accesses to one line are those of
`Lib.Serial`, with the line as the key.
-/

namespace Gem5Gpu.GPU.LSQ

open Lib Function

inductive Place
  /-- Not dispatched. -/
  | none
  | translating
  /-- Translated, behind the head of the queue of its warp. -/
  | behind
  | inject
  | blocked
  | cache
  | eject
  | done
deriving DecidableEq, Repr

namespace Place

/-- The cache has not taken the access. -/
def unsent : Place → Bool
  | .translating | .behind | .inject | .blocked => true
  | _ => false

def isTranslated : Place → Bool
  | .behind | .inject | .blocked | .cache | .eject => true
  | _ => false

def isSent : Place → Bool
  | .cache | .eject | .done => true
  | _ => false

end Place

/-- The containers of accesses. -/
structure Boxes where
  translating : List Access
  inject : List Access
  blocked : ℕ → List Access
  cache : List Access
  eject : List Access
  ejected : List Access
  accepted : List Access
  coalesced : ℕ → List Access
  translated : ℕ → List Access

def State.boxes (s : State) : Boxes where
  translating := s.translating
  inject := s.injectBuffer
  blocked := s.blockedAccesses
  cache := s.cache
  eject := s.ejectBuffer
  ejected := s.ejected
  accepted := s.accepted
  coalesced := fun b => (s.bufs b).coalescedAccesses
  translated := fun b => (s.bufs b).translatedAccesses

def Config.line (c : Config) (a : Access) : ℕ := c.addrToLine a.paddr

/-- Each container holds the accesses of its places. -/
structure Accs (c : Config) (place : Access → Place) (B : Boxes) : Prop where
  translating : Holds place (fun _ p => p = .translating) B.translating
  inject : Holds place (fun _ p => p = .inject) B.inject
  blocked : ∀ l, Holds place (fun a p => p = .blocked ∧ c.line a = l) (B.blocked l)
  cache : Holds place (fun _ p => p = .cache) B.cache
  eject : Holds place (fun _ p => p = .eject) B.eject
  ejected : Holds place (fun _ p => p = .done) B.ejected
  accepted : Holds place (fun _ p => p.isSent = true) B.accepted
  coalesced : ∀ b, Holds place (fun a p => p.unsent = true ∧ a.buf = b) (B.coalesced b)
  translated : ∀ b, Holds place (fun a p => p.isTranslated = true ∧ a.buf = b) (B.translated b)

namespace Accs

variable {c : Config} {place : Access → Place} {B : Boxes} {a : Access} {rest : List Access}

theorem initial : Accs c (fun _ => .none) (State.boxes (.initial c)) := by
  have hnil {P : Access → Place → Prop} (hP : ∀ a, ¬P a .none) : Holds (fun _ => .none) P [] :=
    ⟨List.nodup_nil, fun a => by simp [hP a]⟩
  constructor
  · exact hnil (by simp)
  · exact hnil (by simp)
  · exact fun l => hnil (by simp)
  · exact hnil (by simp)
  · exact hnil (by simp)
  · exact hnil (by simp)
  · exact hnil (by simp [Place.isSent])
  · exact fun b => hnil (by simp [Place.unsent])
  · exact fun b => hnil (by simp [Place.isTranslated])

/-- A translation ends behind the head of the queue. -/
theorem translate (h : Accs c place B) (ha : place a = .translating) :
    Accs c (update place a .behind) { B with
      translating := B.translating.erase a
      translated := update B.translated a.buf (B.translated a.buf ++ [a]) } where
  translating := h.translating.leave (by simp)
  inject := h.inject.keep (by simp [ha])
  blocked := fun l => (h.blocked l).keep (by simp [ha])
  cache := h.cache.keep (by simp [ha])
  eject := h.eject.keep (by simp [ha])
  ejected := h.ejected.keep (by simp [ha])
  accepted := h.accepted.keep (by simp [ha, Place.isSent])
  coalesced := fun b => (h.coalesced b).keep (by simp [ha, Place.unsent])
  translated := Holds.keyed h.translated
    ((h.translated a.buf).enter (by simp [ha, Place.isTranslated]) (by simp [Place.isTranslated]))

/-- The places after the accesses `accs` went to `p` together. -/
def moved (place : Access → Place) (accs : List Access) (p : Place) (a : Access) : Place :=
  if a ∈ accs then p else place a

variable (h : Accs c place B)
include h

/-- Accesses behind the head go to the inject buffer. -/
theorem promote {accs : List Access} (hnd : accs.Nodup) (haccs : ∀ a ∈ accs, place a = .behind) :
    Accs c (moved place accs .inject) { B with inject := B.inject ++ accs } := by
  have hkeep {P : Access → Place → Prop} {l : List Access} (hl : Holds place P l)
      (hP : ∀ a, P a .inject ↔ P a .behind) : Holds (moved place accs .inject) P l := by
    refine hl.congr fun a => ?_
    unfold moved
    split
    · rename_i ha
      rw [haccs a ha, hP]
    · rfl
  exact {
    translating := hkeep h.translating (by simp)
    inject := by
      refine h.inject.enterAll hnd (fun a ha => ?_) fun a ha => ?_
      · rw [moved, if_pos ha, haccs a ha]
        exact ⟨by simp, rfl⟩
      · rw [moved, if_neg ha]
    blocked := fun l => hkeep (h.blocked l) (by simp)
    cache := hkeep h.cache (by simp)
    eject := hkeep h.eject (by simp)
    ejected := hkeep h.ejected (by simp)
    accepted := hkeep h.accepted (by simp [Place.isSent])
    coalesced := fun b => hkeep (h.coalesced b) (by simp [Place.unsent])
    translated := fun b => hkeep (h.translated b) (by simp [Place.isTranslated]) }

theorem place_inject (hq : B.inject = a :: rest) : place a = .inject :=
  h.inject.mem_iff.1 (by rw [hq]; exact List.mem_cons_self)

/-- The access at the front waits for its line. -/
theorem park (hq : B.inject = a :: rest) : Accs c (update place a .blocked) { B with
      inject := rest
      blocked := update B.blocked (c.line a) (B.blocked (c.line a) ++ [a]) } := by
  have ha := h.place_inject hq
  have hinject := h.inject
  rw [hq] at hinject
  exact {
    translating := h.translating.keep (by simp [ha])
    inject := hinject.leaveFront (by simp)
    blocked := Holds.keyed h.blocked ((h.blocked (c.line a)).enter (by simp [ha]) (by simp))
    cache := h.cache.keep (by simp [ha])
    eject := h.eject.keep (by simp [ha])
    ejected := h.ejected.keep (by simp [ha])
    accepted := h.accepted.keep (by simp [ha, Place.isSent])
    coalesced := fun b => (h.coalesced b).keep (by simp [ha, Place.unsent])
    translated := fun b => (h.translated b).keep (by simp [ha, Place.isTranslated]) }

/-- The cache takes the access at the front. -/
theorem send (hq : B.inject = a :: rest) : Accs c (update place a .cache) { B with
      inject := rest
      cache := B.cache ++ [a]
      accepted := B.accepted ++ [a]
      coalesced := update B.coalesced a.buf ((B.coalesced a.buf).erase a) } := by
  have ha := h.place_inject hq
  have hinject := h.inject
  rw [hq] at hinject
  exact {
    translating := h.translating.keep (by simp [ha])
    inject := hinject.leaveFront (by simp)
    blocked := fun l => (h.blocked l).keep (by simp [ha])
    cache := h.cache.enter (by simp [ha]) rfl
    eject := h.eject.keep (by simp [ha])
    ejected := h.ejected.keep (by simp [ha])
    accepted := h.accepted.enter (by simp [ha, Place.isSent]) rfl
    coalesced := Holds.keyed h.coalesced ((h.coalesced a.buf).leave (by simp [Place.unsent]))
    translated := fun b => (h.translated b).keep (by simp [ha, Place.isTranslated]) }

theorem respond (ha : place a = .cache) : Accs c (update place a .eject) { B with
      cache := B.cache.erase a
      eject := B.eject ++ [a] } where
  translating := h.translating.keep (by simp [ha])
  inject := h.inject.keep (by simp [ha])
  blocked := fun l => (h.blocked l).keep (by simp [ha])
  cache := h.cache.leave (by simp)
  eject := h.eject.enter (by simp [ha]) rfl
  ejected := h.ejected.keep (by simp [ha])
  accepted := h.accepted.keep (by simp [ha, Place.isSent])
  coalesced := fun b => (h.coalesced b).keep (by simp [ha, Place.unsent])
  translated := fun b => (h.translated b).keep (by simp [ha, Place.isTranslated])

theorem place_blocked {l : ℕ} (hq : B.blocked l = a :: rest) : place a = .blocked ∧ c.line a = l :=
  (h.blocked l).mem_iff.1 (by rw [hq]; exact List.mem_cons_self)

/-- The first access that waits for a line goes to the front. -/
theorem unpark (hq : B.blocked (c.line a) = a :: rest) : Accs c (update place a .inject) { B with
      inject := a :: B.inject
      blocked := update B.blocked (c.line a) rest } := by
  have ha := (h.place_blocked hq).1
  have hblocked := h.blocked (c.line a)
  rw [hq] at hblocked
  exact {
    translating := h.translating.keep (by simp [ha])
    inject := h.inject.enterFront (by simp [ha]) rfl
    blocked := Holds.keyed h.blocked (hblocked.leaveFront (by simp))
    cache := h.cache.keep (by simp [ha])
    eject := h.eject.keep (by simp [ha])
    ejected := h.ejected.keep (by simp [ha])
    accepted := h.accepted.keep (by simp [ha, Place.isSent])
    coalesced := fun b => (h.coalesced b).keep (by simp [ha, Place.unsent])
    translated := fun b => (h.translated b).keep (by simp [ha, Place.isTranslated]) }

theorem place_eject (hq : B.eject = a :: rest) : place a = .eject :=
  h.eject.mem_iff.1 (by rw [hq]; exact List.mem_cons_self)

/-- The response at the front is ejected. -/
theorem finish (hq : B.eject = a :: rest) : Accs c (update place a .done) { B with
      eject := rest
      ejected := B.ejected ++ [a]
      translated := update B.translated a.buf ((B.translated a.buf).erase a) } := by
  have ha := h.place_eject hq
  have heject := h.eject
  rw [hq] at heject
  exact {
    translating := h.translating.keep (by simp [ha])
    inject := h.inject.keep (by simp [ha])
    blocked := fun l => (h.blocked l).keep (by simp [ha])
    cache := h.cache.keep (by simp [ha])
    eject := heject.leaveFront (by simp)
    ejected := h.ejected.enter (by simp [ha]) rfl
    accepted := h.accepted.keep (by simp [ha, Place.isSent])
    coalesced := fun b => (h.coalesced b).keep (by simp [ha, Place.unsent])
    translated := Holds.keyed h.translated
      ((h.translated a.buf).leave (by simp [Place.isTranslated])) }

/-- A new instruction in an empty buffer. -/
theorem dispatch {accs : List Access} {b : ℕ} (hnd : accs.Nodup)
    (hnew : ∀ a ∈ accs, place a = .none ∧ a.buf = b) (hempty : B.coalesced b = []) :
    Accs c (moved place accs .translating) { B with
      translating := B.translating ++ accs
      coalesced := update B.coalesced b accs } := by
  have hkeep {P : Access → Place → Prop} {l : List Access} (hl : Holds place P l)
      (hP : ∀ a ∈ accs, ¬P a .none ∧ ¬P a .translating) :
      Holds (moved place accs .translating) P l := by
    refine hl.congr fun a => ?_
    unfold moved
    split
    · rename_i ha
      rw [(hnew a ha).1]
      simp [hP a ha]
    · rfl
  have henter {P : Access → Place → Prop} {l : List Access} (hl : Holds place P l)
      (hP : ∀ a ∈ accs, ¬P a .none ∧ P a .translating) :
      Holds (moved place accs .translating) P (l ++ accs) := by
    refine hl.enterAll hnd (fun a ha => ?_) fun a ha => ?_
    · rw [moved, if_pos ha, (hnew a ha).1]
      exact hP a ha
    · rw [moved, if_neg ha]
  exact {
    translating := henter h.translating (by simp)
    inject := hkeep h.inject (by simp)
    blocked := fun l => hkeep (h.blocked l) (by simp)
    cache := hkeep h.cache (by simp)
    eject := hkeep h.eject (by simp)
    ejected := hkeep h.ejected (by simp)
    accepted := hkeep h.accepted (by simp [Place.isSent])
    coalesced := by
      intro k
      by_cases hk : k = b
      · subst hk
        have hcoalesced := henter (h.coalesced k) fun a ha => by simp [Place.unsent, (hnew a ha).2]
        rw [hempty, List.nil_append] at hcoalesced
        simp only [update_self]
        exact hcoalesced
      · simp only [update_of_ne hk]
        exact hkeep (h.coalesced k) fun a ha => by
          simp [Place.unsent, (hnew a ha).2, Ne.symm hk]
    translated := fun k => hkeep (h.translated k) (by simp [Place.isTranslated]) }

end Accs

end Gem5Gpu.GPU.LSQ
