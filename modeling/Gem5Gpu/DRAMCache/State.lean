import Gem5Gpu.DRAMCache.Tags
import Gem5Gpu.Mem.MSHRQueue

/-!
# The state of the DRAM cache controller

`DRAMCacheCtrl` sits between an upstream port and the main memory.  `State` is
everything its handlers read or write, in four groups: the tag store, the two
queues of outstanding memory requests with the memory-side port, the queues in
front of the DRAM, and the upstream port.

Three parts of the system outside the controller are in the state as well: the
backing store, the requests that the memory has performed and not yet answered
(`mem`), and whether a kernel runs on the GPU.  The memory performs a request
when the port accepts it, and answers it at any later time.

The last group is history that no handler reads: the accepted requests, the
responses, the calls of the upstream port, and the tag stores at which the Bloom
filter let a read bypass the cache.

The functions below the state are the small operations that the handlers share.
-/

namespace Gem5Gpu.DRAMCache

open Mem Lib

/-- `DRAM_PKT_COUNT`: the bursts of one packet. -/
def dramPktCount : ℕ := 2

/-- `PREDICTION_LATENCY` -/
def predictionLatency : ℕ := 5

/-- Why the controller refuses requests. -/
inductive BlockedCause
  | noMSHRs
  | noWBuffers
  | noTargets
  deriving DecidableEq, Repr

/-- `(BlockedCause) mq->index` -/
def BlockedCause.ofIndex : MSHRQueueIndex → BlockedCause
  | .mshrs => .noMSHRs
  | .writeBuffer => .noWBuffers

inductive BusState
  | read
  | readToWrite
  | write
  | writeToRead
  deriving DecidableEq, Repr

inductive DrainState
  | running
  | draining
  | drained
  deriving DecidableEq, Repr

/-- One burst of a packet on its way through the DRAM. -/
structure DRAMPacket where
  pkt : Packet
  addr : ℕ
  deriving DecidableEq, Repr

/-- One burst of a fill. -/
structure FillPacket where
  requestAddr : ℕ
  addr : ℕ
  deriving DecidableEq, Repr

/-- A read that was sent to the memory before its lookup.  `isHit` is the
outcome of the lookup, `none` before it, and `pkt` is the address of the packet
that caused the request.  The number of that packet is history. -/
structure PamReq where
  isHit : Option Bool := none
  isPamComplete : Bool := false
  mshr : ℕ
  pkt : ℕ
  id : ℕ
  deriving DecidableEq, Repr

/-- What happens at the upstream port: a call of `recvTimingReq` returns, or
the controller calls `sendRetryReq`. -/
inductive PortEvent
  | returned (accepted : Bool)
  | sendRetryReq
  deriving DecidableEq, Repr

structure State where
  tags : Tags := {}
  mshrQueue : MSHRQueue
  writeBuffer : MSHRQueue
  order : ℕ := 0
  noTargetMSHR : Option ℕ := none
  pamQueue : ℕ → Option PamReq := fun _ => none
  sendEvent : Option ℕ := none
  waitingOnRetry : Bool := false
  readQueue : List DRAMPacket := []
  respQueue : List DRAMPacket := []
  writeQueue : List DRAMPacket := []
  dramPktWriteRespQueue : List DRAMPacket := []
  fillQueue : List FillPacket := []
  isInWriteQueue : List (ℕ × ℕ) := []
  isInFillQueue : List (ℕ × ℕ) := []
  /-- The burst helper of a packet, by the packet's number. -/
  burstsServiced : ℕ → ℕ := fun _ => 0
  busState : BusState := .read
  writesThisTime : ℕ := 0
  drainState : DrainState := .running
  blocked : Finset BlockedCause := ∅
  portBlocked : Bool := false
  cacheMustSendRetry : Bool := false
  retryRdReq : Bool := false
  retryWrReq : Bool := false
  curTick : ℕ := 0
  gpuRunning : Bool := false
  store : ℕ → Data
  mem : List MemPacket := []
  accepted : List TimingReq := []
  responses : List Packet := []
  portLog : List PortEvent := []
  bloomBypasses : List (ℕ × Tags) := []

/-- The state after construction and `init`. -/
def State.init (c : Config) (store : ℕ → Data) : State where
  mshrQueue := MSHRQueue.init .mshrs c.mshrs c.readBufferSize
  writeBuffer :=
    MSHRQueue.init .writeBuffer c.writeBuffers (c.writeBufferSize + 500)
  store := store

namespace State

/-! ## Upstream port -/

variable (s : State)

/-- `respond`: send a response upstream. -/
def respond (pkt : Packet) : State :=
  { s with responses := s.responses ++ [pkt] }

/-- `access` of a read: the packet takes its bytes from the store. -/
def accessRead (pkt : Packet) : Packet :=
  { pkt with data := s.store pkt.addr, stamp := s.accepted.length }

/-- `access` of a write. -/
def accessWrite (addr : ℕ) (data : Data) : State :=
  { s with store := Function.update s.store addr data }

/-- `access` and `respond` of a read. -/
def accessAndRespond (pkt : Packet) : State :=
  s.respond (s.accessRead pkt)

/-- `access` and `respond` of each packet of a list in turn. -/
def accessAndRespondAll (pkts : List Packet) : State :=
  pkts.foldl accessAndRespond s

/-- Copy the bytes of one packet into each packet of a list and respond. -/
def copyAndRespondAll (src : Data) (stamp : ℕ) (pkts : List Packet) :
    State :=
  pkts.foldl (fun s pkt => s.respond { pkt with data := src, stamp := stamp }) s

/-- The packet of the next request that `recvTimingReq` takes over. -/
def newPacket (r : TimingReq) : Packet :=
  { id := s.accepted.length, cmd := r.cmd, addr := r.addr,
    contextId := r.contextId, data := r.data,
    ptr := r.reused.getD s.accepted.length }

/-- `recvTimingReq` takes a request over. -/
def accept (r : TimingReq) : State :=
  { s with accepted := s.accepted ++ [r] }

/-- `recvTimingReq` returns. -/
def returned (accepted : Bool) : State :=
  { s with portLog := .returned accepted :: s.portLog }

/-- The port is blocked with the first cause. -/
def blockPort : Except Fault State := do
  if s.blocked = ∅ then
    check (s.portBlocked = false) Fault.portAlreadyBlocked
    pure { s with portBlocked := true }
  else pure s

def setBlocked (cause : BlockedCause) : Except Fault State := do
  let s ← s.blockPort
  pure { s with blocked := insert cause s.blocked }

/-! ## Memory-side port -/

/-- `schedSendEvent`.  A time of `none` is `MaxTick`. -/
def schedSendEvent (time : Option ℕ) : Except Fault State := do
  if s.waitingOnRetry then
    check (s.sendEvent = none) Fault.sendEventScheduled
    pure s
  else
    match time with
    | none => pure s
    | some t =>
      let t := max t (s.curTick + 1)
      match s.sendEvent with
      | none => pure { s with sendEvent := some t }
      | some u => pure { s with sendEvent := some (min t u) }

/-- `min` of the two queues, where `none` is `MaxTick`. -/
def nextMSHRReadyTime : Option ℕ :=
  match s.mshrQueue.nextMSHRReadyTime, s.writeBuffer.nextMSHRReadyTime with
  | none, t => t
  | t, none => t
  | some t, some u => some (min t u)

def queue : MSHRQueueIndex → MSHRQueue
  | .mshrs => s.mshrQueue
  | .writeBuffer => s.writeBuffer

def setQueue (index : MSHRQueueIndex) (q : MSHRQueue) : State :=
  match index with
  | .mshrs => { s with mshrQueue := q }
  | .writeBuffer => { s with writeBuffer := q }

/-- Refuse requests when a queue has become full. -/
def blockIf (full : Bool) (cause : BlockedCause) :
    Except Fault State :=
  if full then s.setBlocked cause else pure s

/-- `allocateBufferInternal`.  Its assertion that the address is aligned holds,
because both callers align it. -/
def allocateBufferInternal (index : MSHRQueueIndex) (addr : ℕ)
    (pkt : Packet) (time : ℕ) : Except Fault (ℕ × State) := do
  let (r, q) ← (s.queue index).allocate addr pkt time s.order
  let s := { s.setQueue index q with order := s.order + 1 }
  let s ← s.blockIf q.isFull (.ofIndex index)
  let s ← s.schedSendEvent (some time)
  pure (r, s)

def allocateMissBuffer (c : Config) (s : State) (pkt : Packet) (time : ℕ) :
    Except Fault (ℕ × State) :=
  s.allocateBufferInternal .mshrs (c.blockAlign pkt.addr) pkt time

def allocateWriteBuffer (c : Config) (s : State) (pkt : Packet) (time : ℕ) :
    Except Fault State := do
  let (_, s) ← s.allocateBufferInternal .writeBuffer (c.blockAlign pkt.addr) pkt time
  pure s

/-- Add a packet to the targets of a miss. -/
def allocateTarget (r : ℕ) (pkt : Packet) : State :=
  { s with
    mshrQueue := s.mshrQueue.allocateTarget r pkt
    order := s.order + 1 }

/-- Add a packet to the targets of a miss and refuse more requests when that
makes `numTarget` of them. -/
def coalesce (c : Config) (s : State) (r : ℕ) (pkt : Packet) :
    Except Fault State :=
  let s := s.allocateTarget r pkt
  if (s.mshrQueue.registers r).getNumTargets = c.numTarget then
    { s with noTargetMSHR := some r }.setBlocked .noTargets
  else pure s

def setPamQueue (addr : ℕ) (pr : Option PamReq) : State :=
  { s with pamQueue := Function.update s.pamQueue addr pr }

/-- The targets of a miss were answered. -/
def clearTargets (r : ℕ) : State :=
  { s with mshrQueue := s.mshrQueue.setTargets r [] }

end State

end Gem5Gpu.DRAMCache
