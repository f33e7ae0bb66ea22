import Gem5Gpu.DRAMCache.SmallStep

/-!
# A refused request is not forgotten

The controller refuses a request in three places, and each one sets a flag of
its own: `cacheMustSendRetry` when the controller is blocked, `retryRdReq` and
`retryWrReq` when a queue is full.  The flags are reset in three other places,
around a call of `sendRetryReq`.  `clearBlocked` resets its flag after the call,
when the upstream port may already have been refused again.

The result is `refused_is_remembered`: after every handler, an upstream port
whose last call was refused, and that was not asked to retry since, has one of
the flags set.  What makes it true is that a call nested in `clearBlocked` meets
an open controller.  When such a call is refused, a queue is full, and the flag
of the queue stays.
-/

namespace Gem5Gpu.DRAMCache

open Mem Lib

variable {c : Config} {e : Event} {up : Upstream} {s s' s₀ : State} {r : TimingReq} {φ φ' : Phase}

/-- The last call of the upstream port was refused, and no retry was sent
since. -/
def State.refused (s : State) : Prop :=
  s.portLog.head? = some (.returned false)

/-- One of the flags that lead to a retry is set. -/
def State.willRetry (s : State) : Prop :=
  s.cacheMustSendRetry = true ∨ s.retryRdReq = true ∨ s.retryWrReq = true

/-- A refused upstream port will be asked to retry. -/
def NoLostRetry (s : State) : Prop := s.refused → s.willRetry

/-- Every way in which a call of `recvTimingReq` can end.  An open controller
sets the flag of a queue, and not `cacheMustSendRetry`. -/
theorem Recv.noLostRetry (h : Recv c s r s') : NoLostRetry s' ∧ (s.blocked = ∅ → s'.refused →
      s'.retryRdReq = true ∨ s'.retryWrReq = true) := by
  cases h with
  | blocked hb => exact ⟨fun _ => .inl rfl, fun hopen => absurd hopen hb⟩
  | readRefused => exact ⟨fun _ => .inr (.inl rfl), fun _ _ => .inl rfl⟩
  | writeRefused => exact ⟨fun _ => .inr (.inr rfl), fun _ _ => .inr rfl⟩
  | _ =>
    -- the call was accepted
    constructor
    · intro href
      cases href
    · intro _ href
      cases href

theorem Retried.noLostRetry (h : Retried c up s s') : NoLostRetry s' ∧ (s.blocked = ∅ → s'.refused →
      s'.retryRdReq = true ∨ s'.retryWrReq = true) := by
  cases h with
  | silent =>
    constructor
    · intro href
      cases href
    · intro _ href
      cases href
  | reacted r _ h => exact (recvTimingReq_ok h).noLostRetry

theorem Fills.noLostRetry {addr ctx : ℕ} (h : Fills c s addr ctx s')
    (hs : NoLostRetry s) : NoLostRetry s' := by
  cases h <;> exact hs

theorem FillsOnResp.noLostRetry {p : MemPacket} (h : FillsOnResp c s p s')
    (hs : NoLostRetry s) : NoLostRetry s' :=
  h.keeps (P := NoLostRetry) hs fun h => h.noLostRetry hs

theorem Freed.noLostRetry {index : MSHRQueueIndex} {m : ℕ} {w : Bool}
    (h : Freed s index m w s') (hs : NoLostRetry s) : NoLostRetry s' := by
  cases h <;> cases index <;> exact hs

theorem Wakes.noLostRetry (h : Wakes s e s') (hs : NoLostRetry s) :
    NoLostRetry s' := by
  cases h <;> exact hs

theorem Micro.noLostRetry (h : Micro c e s₀ φ s φ' s') (hs : NoLostRetry s) : NoLostRetry s' := by
  cases h with
  | request r _ h | retryWrite _ h | retryRead _ h => exact h.noLostRetry.1
  | retryCache _ _ hopen h =>
    -- `cacheMustSendRetry` is reset, but another flag is set
    intro href
    exact .inr (h.noLostRetry.2 hopen href)
  | pamDoneHit _ _ _ _ _ _ _ _ hfree | pamHit _ _ _ _ _ _ _ _ hfree | sendNothing hfree
  | sendRefused _ _ hfree | sentMiss _ _ _ _ hfree | sentWrite _ _ _ _ hfree
  | writeAnswered _ _ _ _ _ hfree | pamAnswered _ _ _ _ _ _ hfree | filled _ hfree =>
    exact hfree.noLostRetry hs
  | pamDoneMiss _ _ _ _ _ _ _ _ hfill hfree | readAnswered _ _ _ _ _ _ hfill hfree =>
    exact hfree.noLostRetry (hfill.noLostRetry hs)
  | _ => exact hs

/-- No lost retry: in every run, whatever the upstream port does, after every
handler a refused port that was not asked to retry since has a flag set. -/
theorem refused_is_remembered (h : Reaches c (fun _ _ => True) s)
    (hlast : s.portLog.head? = some (.returned false)) :
    s.cacheMustSendRetry = true ∨ s.retryRdReq = true ∨ s.retryWrReq = true := by
  have hinv : NoLostRetry s := by
    refine Reaches.invariant (I := fun _ s => NoLostRetry s) h ?_ ?_ ?_
    · intro store href
      cases href
    · exact fun s hs => hs
    · exact fun e s₀ _ φ s φ' s' hs hm => hm.noLostRetry hs
  exact hinv hlast

/-- A read that meets a full read queue is refused, and `retryRdReq` is set. -/
theorem refused_read_is_remembered :
    let s := State.ofRun { Scenario.config with readBufferSize := 2 } Scenario.blank
      [.recvTimingReq (Scenario.gpuRead 0), .recvTimingReq (Scenario.gpuRead 1)]
    s.portLog.head? = some (.returned false) ∧ (s.cacheMustSendRetry = true ∨ s.retryRdReq = true ∨
        s.retryWrReq = true) :=
  ⟨by decide +kernel, refused_is_remembered (reaches_ofRun (meets_true _) (by decide +kernel))
      (by decide +kernel)⟩

end Gem5Gpu.DRAMCache
