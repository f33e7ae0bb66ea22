import Gem5Gpu.VIHammer.CPUCache
import Gem5Gpu.VIHammer.GPUL2Cache
import Gem5Gpu.VIHammer.Directory

/-!
# No stalled request is forgotten

The tables of the three controllers keep to the discipline of
`Ruby.AbstractController`, so none of them strands a stalled message.

Only the ports of lowest rank stall: the mandatory queue of a CPU cache, the L1
requests of a GPU L2 cache, and the requests and the DMA requests of the
directory.  `wakeUpBuffers` is always called from a port above these, so it
wakes all that it forgets.
-/

namespace Gem5Gpu.VIHammer

open Ruby

theorem cpuCache_disciplined : CPUCache.machine.Disciplined 0 := by decide +kernel

theorem gpuL2Cache_disciplined : GPUL2Cache.machine.Disciplined 0 := by decide +kernel

theorem directory_disciplined : Directory.machine.Disciplined 1 := by decide +kernel

/-- In every run of a CPU cache, a GPU L2 cache and a directory controller, a
message is held in a stall list only under an address whose block is in a
transient state, `m_waiting_buffers` names its port, and the transition that
settles the block puts the message back on the heap. -/
theorem stalled_requests_are_reexamined (Addr Msg : Type) [DecidableEq Addr] :
    CPUCache.machine.NeverStrands Addr Msg ∧ GPUL2Cache.machine.NeverStrands Addr Msg ∧
      Directory.machine.NeverStrands Addr Msg :=
  ⟨cpuCache_disciplined.neverStrands, gpuL2Cache_disciplined.neverStrands,
    directory_disciplined.neverStrands⟩

end Gem5Gpu.VIHammer
