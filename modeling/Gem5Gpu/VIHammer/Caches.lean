import Gem5Gpu.VIHammer.CPUView
import Gem5Gpu.VIHammer.GPUView

/-!
# Either kind of cache

`Ctl.Sees` is the view of a CPU cache or of a GPU L2 cache.  The three theorems
are all that the rest of the development uses of the two controllers: what a
message that the view expects does, what a request from the processor side does,
and that a new request of a CPU changes nothing for the others.
-/

namespace Gem5Gpu.VIHammer

open Lib

variable {ι : Type} [DecidableEq ι] {L : ℕ}

namespace Ctl

/-- The view of a cache. -/
def Sees (c : Ctl ι L) (v : View ι L) (k : Move) : Prop :=
  match c with
  | .cpu l => CPUCache.Sees l v k
  | .gpu l => GPUL2Cache.Sees l v ∧ k = .settled

variable {env : Env ι} {c : Ctl ι L} {v : View ι L} {k : Move}

omit [DecidableEq ι] in
/-- A block that moves between the caches of a CPU has no TBE. -/
theorem Sees.resting (h : c.Sees v k) (hk : k ≠ .settled) : v.mode.resting = true := by
  cases c with
  | cpu l => exact CPUCache.Sees.resting h hk
  | gpu l => exact absurd h.2 hk

omit [DecidableEq ι] in
theorem Sees.accept {q : SequencerRequest L} (h : c.Sees v k) (hf : q.type ≠ .FLUSH) :
    (c.accept q).Sees v k := by
  cases c with
  | cpu l =>
    obtain ⟨l', hl', hs⟩ := CPUCache.Sees.accept h hf
    rw [hl']
    exact hs
  | gpu l => exact h

variable (env)

/-- A cache has a transition for every message that its view expects. -/
theorem receive_spec {m : Message ι L} (h : c.Sees v k) (hn : 1 < env.machineCount)
    (hv : v.Expects env m) :
    (∃ c' v' sent, c.receive env m = .ok ⟨c', sent, true⟩ ∧ c'.Sees v' .settled ∧
      k = .settled ∧ Reacts env v m v' sent) ∨
    c.receive env m = .ok ⟨c, [], false⟩ := by
  cases c with
  | cpu l =>
    rcases CPUCache.receive_spec h hn hv with ⟨hk, l', v', sent, hrun, hs, hr⟩ | hrun
    · exact .inl ⟨.cpu l', v', sent, hrun, hs, hk, hr⟩
    · exact .inr hrun
  | gpu l =>
    obtain ⟨l', v', sent, hrun, hs, hr⟩ := GPUL2Cache.receive_spec h.1 hn hv
    exact .inl ⟨.gpu l', v', sent, hrun, ⟨hs, rfl⟩, h.2, hr⟩

/-- A block has arrived in an L1 cache. -/
theorem receive_transfer (h : c.Sees v .transfer) :
    ∃ c', c.receive env (.trigger .L2_to_L1) = .ok ⟨c', [], true⟩ ∧ c'.Sees v .ready := by
  cases c with
  | cpu l =>
    obtain ⟨l', hrun, hs⟩ := CPUCache.receive_transfer h
    exact ⟨.cpu l', hrun, hs⟩
  | gpu l => cases h.2

/-- A cache has a transition for every request from its processor side: the block
starts to move, or its view changes. -/
theorem serve_spec (d : Demand L) (h : c.Sees v k) :
    ∃ c' v' k' sent b, c.serve env d = .ok ⟨c', sent, b⟩ ∧ c'.Sees v' k' ∧
      ((k = .settled ∧ k' = .transfer ∧ v' = v ∧ sent = [.trigger .L2_to_L1]) ∨
        ((k' = .transfer ↔ k = .transfer) ∧ Serves env v v' sent)) := by
  cases c with
  | cpu l =>
    obtain ⟨l', v', k', sent, hrun, hs, hr⟩ := CPUCache.serve_spec d h
    exact ⟨.cpu l', v', k', sent, false, hrun, hs, hr⟩
  | gpu l =>
    obtain ⟨hs, rfl⟩ := h
    obtain ⟨l', v', sent, b, hrun, hs', hr⟩ := GPUL2Cache.serve_spec d hs
    exact ⟨.gpu l', v', .settled, sent, b, hrun, ⟨hs', rfl⟩, .inr ⟨Iff.rfl, hr⟩⟩

end Ctl

end Gem5Gpu.VIHammer
