import Gem5Gpu.DRAM.Selection
import Gem5Gpu.DRAM.Answers
import Gem5Gpu.DRAMCache.Retry
import Gem5Gpu.DRAMCache.Blocking
import Gem5Gpu.DRAMCache.Wakeup
import Gem5Gpu.DRAMCache.Targets
import Gem5Gpu.DRAMCache.DirtyFilter
import Gem5Gpu.DRAMCache.WriteBack
import Gem5Gpu.DRAMCache.Ledger
import Gem5Gpu.DRAMCache.Reserve
import Gem5Gpu.VIHammer.Stalls
import Gem5Gpu.VIHammer.Safety
import Gem5Gpu.GPU.CopyExact
import Gem5Gpu.DRAMCache.DownstreamData
import Gem5Gpu.DRAMCache.Placement
import Gem5Gpu.DRAMCache.BurstQueues
import Gem5Gpu.DRAMCache.Draining
import Gem5Gpu.DRAMCache.MissOrder
import Gem5Gpu.GPU.MMURuns
import Gem5Gpu.GPU.CudaCore
import Gem5Gpu.GPU.CoalescedStores
import Gem5Gpu.GPU.CoalescedAtomics
import Gem5Gpu.DRAMCache.Occupancy
