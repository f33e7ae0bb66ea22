import Gem5Gpu.DRAMCache.State

/-!
# The handlers of the DRAM cache controller

The handlers of `dramcache_ctrl.cc`, in timing mode.  A handler maps the state
before to the state after, or to the assertion that fails.

* Requests.  `recvTimingReq` accepts or refuses a request.  It is not
  re-entrant: nothing it calls goes back upstream.
* Retries.  `sendRetryReq` goes upstream, and the upstream port may react with
  one call of `recvTimingReq` before it returns, as `QueuedMasterPort` does.  The
  reaction is the argument `up` of every handler that can send a retry.  It may
  depend on the whole state.
* The DRAM side.  `processNextReqEvent` serves one burst.  The timing of the
  DRAM is left out: the rank availability and the choice of `chooseNext` are
  arguments.  `processRespondEvent` and `processWriteRespondEvent` take the burst
  at the front of their queue.
* The memory side.  `sendDeferredPacket` sends the next outstanding request, and
  `recvTimingResp` takes an answer.

The assertions that a queue has room for one more burst in `addToReadQueue`,
`addToWriteQueue` and `addToFillQueue` are left out: the callers have just tested
that it has room for two.  Statistics, latencies and trace output are left out.
-/

namespace Gem5Gpu.DRAMCache

open Mem Lib

/-- The reaction of the upstream port to `sendRetryReq`. -/
abbrev Upstream := State → Option TimingReq

/-! ## Evictions and fills -/

/-- The packet that takes the bytes of an evicted block to the memory. -/
def State.writeBackPacket (s : State) (evictAddr contextId : ℕ) : Packet :=
  s.accessRead { internal := true, cmd := .writeReq, addr := evictAddr,
                 contextId := contextId }

variable (c : Config)

/-- The set of a block that was written back is empty. -/
def Tags.clearSet (t : Tags) (addr : ℕ) : Tags :=
  let i := c.setOf addr
  t.setSet i { t.sets i with valid := false, dirty := false }

/-- `doWriteBack`: the bytes of the block go from the store to a new entry of
the write buffer, and the set becomes empty. -/
def doWriteBack (s : State) (evictAddr contextId : ℕ) :
    Except Fault State := do
  let s ← s.allocateWriteBuffer c (s.writeBackPacket evictAddr contextId) (s.curTick + 1)
  pure { s with tags := s.tags.clearSet c evictAddr }

/-- The address in the DRAM of the first burst of a block: 15 sets of two bursts
to a row, and two more for the rest of the row. -/
def Config.dramAddr (addr : ℕ) : ℕ :=
  let set := addr / c.blockSize % c.numSets
  set * dramPktCount + set / 15 * 2

def fillQueueFull (s : State) (neededEntries : ℕ) : Bool :=
  decide (c.fillBufferSize < s.fillQueue.length + neededEntries)

/-- Queue one burst of a fill, unless it is queued already. -/
def addFillBurst (s : State) (addr burst : ℕ) : Except Fault State := do
  if (addr, burst) ∈ s.isInFillQueue then pure s
  else
    let s := { s with
      fillQueue := s.fillQueue ++ [⟨addr, burst⟩]
      isInFillQueue := s.isInFillQueue.insert (addr, burst) }
    check (s.fillQueue.length = s.isInFillQueue.length) Fault.fillQueueIndexSize
    pure s

/-- Queue the bursts of a fill.  A full queue drops them. -/
def queueFill (s : State) (addr : ℕ) : Except Fault State := do
  if fillQueueFull c s dramPktCount then pure s
  else
    let s ← addFillBurst s addr (c.dramAddr addr)
    addFillBurst s addr (c.dramAddr addr + 1)

/-- The tag directory after a block was installed, whose set held the block
`evictAddr`. -/
def Tags.install (t : Tags) (addr contextId evictAddr : ℕ) : Tags :=
  let i := c.setOf addr
  let wasGPU := t.isGPUOwned i
  let t := t.setSet i { tag := c.tagOf addr, valid := true, dirty := false }
  let t := t.setOwner i (contextId == gpuContextId)
  if c.bypassTagEnable && !wasGPU then
    (t.removeFromBypassTag c addr).insertIntoBypassTag c evictAddr
  else t

/-- A CPU fill is skipped while a kernel runs and a bypass is enabled. -/
def skipsFill (s : State) (contextId : ℕ) : Bool :=
  s.gpuRunning && contextId != gpuContextId && (c.dirtyCleanBypassEnable || c.bloomFilterEnable)

/-- The address of the block in the set of `addr`. -/
def Tags.victim (t : Tags) (addr : ℕ) : ℕ :=
  c.regenerateBlkAddr (c.setOf addr) (t.sets (c.setOf addr)).tag

/-- The context in whose name the block in the set of `addr` is written back. -/
def Tags.victimContext (t : Tags) (addr : ℕ) : ℕ :=
  if t.isGPUOwned (c.setOf addr) then gpuContextId else 0

/-- The Bloom filter forgets a block that is written back. -/
def Tags.forget (t : Tags) (addr : ℕ) : Tags :=
  if c.bloomFilterEnable then t.cbfRemove c addr else t

/-- The block in the set of `addr` is written back when it is dirty. -/
def evict (s : State) (addr : ℕ) : Except Fault State :=
  let victim := s.tags.victim c addr
  let set := s.tags.sets (c.setOf addr)
  if set.dirty && set.valid then
    doWriteBack c { s with tags := s.tags.forget c victim } victim (s.tags.victimContext c addr)
  else pure s

/-- `addToFillQueue`: evict, install the block and queue its bursts. -/
def addToFillQueue (s : State) (addr contextId : ℕ) :
    Except Fault State := do
  let victim := s.tags.victim c addr
  if skipsFill c s contextId then pure s
  else
    let s ← evict c s addr
    queueFill c { s with tags := s.tags.install c addr contextId victim } addr

/-! ## Requests -/

def readQueueFull (s : State) (neededEntries : ℕ) : Bool :=
  decide (c.readBufferSize < s.readQueue.length + s.respQueue.length + neededEntries)

def writeQueueFull (s : State) (neededEntries : ℕ) : Bool :=
  decide (c.writeBufferSize < s.writeQueue.length + neededEntries)

/-- A burst of a read is already at the controller: in the write queue or in
the fill queue. -/
def burstIsQueued (s : State) (addr burst : ℕ) : Bool :=
  (decide ((addr, burst) ∈ s.isInWriteQueue) && s.writeQueue.any fun p => p.addr == burst) ||
    (decide ((addr, burst) ∈ s.isInFillQueue) && s.fillQueue.any fun p => p.addr == burst)

/-- The bursts of a read that have to go to the DRAM. -/
def missingBursts (s : State) (addr : ℕ) : List ℕ :=
  [c.dramAddr addr, c.dramAddr addr + 1].filter fun burst =>
    !burstIsQueued s addr burst

/-- The read is sent to the memory as well: no part of it is at the controller,
it comes from a CPU, its block has no such request, and a miss is predicted. -/
def startsPam (s : State) (pkt : Packet) (missing : ℕ) (predictHit : Bool) :
    Bool :=
  missing == dramPktCount && pkt.contextId != gpuContextId &&
    (s.pamQueue pkt.addr).isNone && !predictHit

/-- Send a copy of a read to the memory before its lookup. -/
def sendPam (s : State) (pkt : Packet) : Except Fault State := do
  let (r, s) ← s.allocateMissBuffer c { pkt with internal := true } (s.curTick + predictionLatency)
  pure (s.setPamQueue (c.blockAlign pkt.addr) (some { mshr := r, pkt := pkt.ptr, id := pkt.id }))

def addToReadQueue (s : State) (pkt : Packet) (predictHit : Bool) :
    Except Fault State := do
  let missing := missingBursts c s pkt.addr
  if missing = [] then pure (s.accessAndRespond pkt)
  else
    let s := { s with
      readQueue := s.readQueue ++ missing.map fun burst => ⟨pkt, burst⟩
      burstsServiced := Function.update s.burstsServiced pkt.id (dramPktCount - missing.length) }
    if startsPam s pkt missing.length predictHit then sendPam c s pkt else pure s

/-- Queue one burst of a write. -/
def addWriteBurst (s : State) (pkt : Packet) (burst : ℕ) : Except Fault State := do
  let s := { s with
    writeQueue := s.writeQueue ++ [⟨pkt, burst⟩]
    isInWriteQueue := s.isInWriteQueue.insert (pkt.addr, burst) }
  check (s.writeQueue.length = s.isInWriteQueue.length) Fault.writeQueueIndexSize
  pure s

/-- `addToWriteQueue`.  The store is written at once, with the bytes of a copy
of the packet. -/
def addToWriteQueue (s : State) (pkt : Packet) (copied : Data) :
    Except Fault State := do
  let s := { s with burstsServiced := Function.update s.burstsServiced pkt.id 0 }
  let s ← addWriteBurst s pkt (c.dramAddr pkt.addr)
  let s ← addWriteBurst s pkt (c.dramAddr pkt.addr + 1)
  pure (s.accessWrite pkt.addr copied)

/-- A request whose tag was evicted not long ago goes to the memory. -/
def recvBypassTagHit (s : State) (r : TimingReq) :
    Except Fault State := do
  let pkt := s.newPacket r
  let s := s.accept r
  if r.cmd.isRead then
    let (_, s) ← s.allocateMissBuffer c pkt (s.curTick + predictionLatency)
    pure s
  else
    let s := s.accessWrite r.addr r.data
    -- the copy is allocated, but nothing is written to it
    let clonePkt : Packet := { internal := true, cmd := .writeReq, addr := r.addr,
                               contextId := r.contextId, data := r.heap }
    let s ← s.allocateWriteBuffer c clonePkt (s.curTick + predictionLatency)
    pure (s.respond pkt)

/-- A CPU read bypasses the cache while a kernel runs: its set is clean. -/
def bypassesClean (s : State) (r : TimingReq) : Bool :=
  r.contextId != gpuContextId && s.gpuRunning && c.dirtyCleanBypassEnable &&
    !(s.tags.sets (c.setOf r.addr)).dirty

/-- A CPU read bypasses the cache while a kernel runs: the Bloom filter does not
know its block. -/
def bypassesBloom (s : State) (r : TimingReq) : Bool :=
  r.contextId != gpuContextId && s.gpuRunning && c.bloomFilterEnable &&
    s.tags.cbfLookup c (c.blockAlign r.addr) == 0

/-- A read goes to the memory without a lookup.  The ready time is not relative
to the current tick. -/
def recvBypass (s : State) (r : TimingReq) : Except Fault State := do
  let pkt := s.newPacket r
  let s := s.accept r
  let (_, s) ← s.allocateMissBuffer c pkt predictionLatency
  pure (s.returned true)

def recvRead (s : State) (r : TimingReq) : Except Fault State := do
  if bypassesClean c s r then recvBypass c s r
  else if bypassesBloom c s r then
    recvBypass c { s with bloomBypasses := (r.addr, s.tags) :: s.bloomBypasses } r
  else if readQueueFull c s dramPktCount then
    pure ({ s with retryRdReq := true }.returned false)
  else
    let pkt := s.newPacket r
    let s := s.accept r
    let s ← addToReadQueue c s pkt r.predictHit
    pure (s.returned true)

def recvWrite (s : State) (r : TimingReq) : Except Fault State := do
  if writeQueueFull c s dramPktCount then
    pure ({ s with retryWrReq := true }.returned false)
  else
    let pkt := s.newPacket r
    let s := s.accept r
    let s ← addToWriteQueue c s pkt r.copiedData
    pure (s.returned true)

/-- A request for a block that has a miss outstanding. -/
def recvCoalesced (s : State) (r : TimingReq) (mshr : ℕ) :
    Except Fault State := do
  check (r.cmd ≠ .writeReq) Fault.writeToMissedBlock
  let pkt := s.newPacket r
  let s := s.accept r
  let s ← s.coalesce c mshr pkt
  pure (s.returned true)

/-- A request that neither the outstanding misses nor the write buffer
answer. -/
def recvLookup (s : State) (r : TimingReq) : Except Fault State := do
  let tagHit := c.bypassTagEnable && s.tags.isHit c r.addr
  if tagHit then
    let s ← recvBypassTagHit c { s with tags := s.tags.touchBypassTag c r.addr } r
    pure (s.returned true)
  else if r.cmd.isRead then recvRead c s r
  else if r.cmd.isWrite then recvWrite c s r
  else .error .neitherReadNorWrite

def recvTimingReq (s : State) (r : TimingReq) :
    Except Fault State := do
  if r.memInhibit || r.cmd = .cleanEvict then pure (s.returned true)
  else if s.blocked ≠ ∅ then
    pure ({ s with cacheMustSendRetry := true }.returned false)
  else
    match s.mshrQueue.findMatch (c.blockAlign r.addr) false with
    | some mshr => recvCoalesced c s r mshr
    | none =>
      if (s.writeBuffer.findMatch (c.blockAlign r.addr) false).isSome && r.cmd.isRead then
        let pkt := s.newPacket r
        let s := s.accept r
        pure ((s.accessAndRespond pkt).returned true)
      else recvLookup c s r

/-! ## Retries -/

variable (up : Upstream)

/-- `sendRetryReq`, with the reaction of the upstream port. -/
def sendRetryReq (s : State) :
    Except Fault State :=
  let s := { s with portLog := .sendRetryReq :: s.portLog }
  match up s with
  | none => pure s
  | some r => recvTimingReq c s r

/-- `clearBlocked`.  The flag is reset after the retry was sent. -/
def clearBlocked (s : State) (cause : BlockedCause) :
    Except Fault State := do
  let blocked := s.blocked.erase cause
  if blocked = ∅ then
    check (s.portBlocked = true) Fault.portNotBlocked
    let s := { s with blocked, portBlocked := false }
    if s.cacheMustSendRetry then
      let s ← sendRetryReq c up s
      pure { s with cacheMustSendRetry := false }
    else pure s
  else pure { s with blocked }

/-- Free a register and unblock when the queue was full before and is not any
more. -/
def deallocate (s : State) (index : MSHRQueueIndex)
    (r : ℕ) (wasFull : Bool) : Except Fault State := do
  let q ← (s.queue index).deallocate r
  let s := s.setQueue index q
  if wasFull && !q.isFull then clearBlocked c up s (.ofIndex index) else pure s

/-- The answer for the miss that ran out of targets has come. -/
def releaseTargets (s : State) (r : ℕ) :
    Except Fault State := do
  if s.noTargetMSHR = some r then
    let s ← clearBlocked c up s .noTargets
    pure { s with noTargetMSHR := none }
  else pure s

/-! ## The DRAM side -/

/-- The drain is complete as far as a handler can see. -/
def signalDrainDone (s : State) (done : Bool) : State :=
  if s.drainState = .draining && done then { s with drainState := .drained }
  else s

/-- Finish turning the bus around. -/
def turnBus (s : State) : State :=
  match s.busState with
  | .readToWrite => { s with busState := .write }
  | .writeToRead => { s with busState := .read, writesThisTime := 0 }
  | _ => s

/-- Take the packet that `chooseNext` moved to the front.  No packet is found
when no rank is available. -/
def takeNext {α : Type} (queue : List α) (choice : Option ℕ) : Option (α × List α) := do
  let i ← choice
  let p ← queue[i]?
  pure (p, queue.eraseIdx i)

/-- The read branch of `processNextReqEvent`.  The flag is false when the
handler returns early. -/
def serveRead (s : State) (choice : Option ℕ) : Bool × State :=
  let waiting := s.writeQueue.length + s.fillQueue.length
  if s.readQueue = [] then
    if waiting ≠ 0 && (s.drainState = .draining || c.writeLowThreshold < waiting)
    then (true, { s with busState := .readToWrite })
    else (false, signalDrainDone s (s.respQueue.isEmpty && s.dramPktWriteRespQueue.isEmpty))
  else
    match takeNext s.readQueue choice with
    | none => (false, s)
    | some (p, rest) =>
      let s := { s with readQueue := rest, respQueue := s.respQueue ++ [p] }
      if c.writeHighThreshold < waiting then
        (true, { s with busState := .readToWrite })
      else (true, s)

/-- Serve one burst of the write queue. -/
def serveWriteBurst (s : State) (choice : Option ℕ) : Option State := do
  let (p, rest) ← takeNext s.writeQueue choice
  pure { s with
    writeQueue := rest
    isInWriteQueue := s.isInWriteQueue.erase (p.pkt.addr, p.addr)
    dramPktWriteRespQueue := s.dramPktWriteRespQueue ++ [p]
    writesThisTime := s.writesThisTime + 1 }

/-- Serve one burst of the fill queue. -/
def serveFillBurst (s : State) (choice : Option ℕ) : Except Fault (Option State) := do
  check (s.fillQueue ≠ []) Fault.chooseNextEmpty
  match takeNext s.fillQueue choice with
  | none => pure none
  | some (p, rest) =>
    let s := { s with
      fillQueue := rest
      isInFillQueue := s.isInFillQueue.erase (p.requestAddr, p.addr)
      writesThisTime := s.writesThisTime + 1 }
    check (s.fillQueue.length = s.isInFillQueue.length) Fault.fillQueueIndexSize
    pure (some s)

/-- The bus goes back to reads: the queues are empty, or short enough, or reads
wait and enough writes were done. -/
def endsWrites (s : State) : Bool :=
  (s.writeQueue.isEmpty && s.fillQueue.isEmpty) ||
    (decide (s.writeQueue.length + s.fillQueue.length + c.minWritesPerSwitch <
      c.writeLowThreshold) && s.drainState != .draining) ||
    (!s.readQueue.isEmpty && decide (c.minWritesPerSwitch ≤ s.writesThisTime))

/-- Choose between the write queue and the fill queue, and serve one burst. -/
def serveWriteOrFill (s : State) (choice : Option ℕ) : Except Fault (Option State) :=
  if s.writeQueue ≠ [] && (s.fillQueue.length < c.fillHighThreshold ||
      min c.writeHighThreshold c.fillHighThreshold < s.writeQueue.length) then
    pure (serveWriteBurst s choice)
  else if s.writeQueue = [] || c.fillHighThreshold ≤ s.fillQueue.length then
    serveFillBurst s choice
  else .error .noQueueToServe

/-- The write branch of `processNextReqEvent`. -/
def serveWrite (s : State) (choice : Option ℕ) : Except Fault (Bool × State) := do
  let served ← serveWriteOrFill c s choice
  match served with
  | none => pure (false, s)
  | some s =>
    if endsWrites c s then pure (true, { s with busState := .writeToRead })
    else pure (true, s)

/-- Serve one burst in the direction of the bus. -/
def serve (s : State) (choice : Option ℕ) : Except Fault (Bool × State) :=
  if s.busState = .read then pure (serveRead c s choice)
  else serveWrite c s choice

/-- `processNextReqEvent`.  `busy` says that all ranks are refreshing. -/
def processNextReqEvent (s : State) (busy : Bool)
    (choice : Option ℕ) : Except Fault State := do
  if busy then pure s
  else
    let (goesOn, s) ← serve c (turnBus s) choice
    if goesOn && s.retryWrReq && s.writeQueue.length < c.writeBufferSize then
      sendRetryReq c up { s with retryWrReq := false }
    else pure s

/-- A lookup hit while the memory was asked as well.  The packet and the other
packets that wait for the block take their bytes from the store, and the copy
that was sent to the memory is dropped. -/
def respondPamHit (s : State) (pkt : Packet) (r : ℕ) : Except Fault State := do
  let s := s.accessAndRespond pkt
  check ((s.mshrQueue.registers r).targets ≠ []) Fault.pamNoTargets
  let s := s.accessAndRespondAll (s.mshrQueue.registers r).targets.tail
  pure (s.clearTargets r)

/-- A lookup missed after the memory had answered.  The bytes are in the copy
that was sent to the memory. -/
def respondPamMiss (s : State) (pkt : Packet) (r : ℕ) :
    Except Fault State :=
  match (s.mshrQueue.registers r).targets with
  | [] => .error .pamNoTargets
  | first :: rest =>
    let s := s.copyAndRespondAll first.data first.stamp (pkt :: rest)
    addToFillQueue c (s.clearTargets r) first.addr pkt.contextId

/-- Respond after a lookup, when the memory has answered. -/
def respondPam (s : State) (pkt : Packet) (r : ℕ) (isHit : Bool) :
    Except Fault State :=
  if isHit then respondPamHit s pkt r else respondPamMiss c s pkt r

/-- A lookup of the packet that was sent to the memory as well. -/
def finishPamRead (s : State) (pkt : Packet)
    (pr : PamReq) (isHit : Bool) : Except Fault State := do
  let s := s.setPamQueue pkt.addr (some { pr with isHit := some isHit })
  if pr.isPamComplete then
    let s ← respondPam c s pkt pr.mshr isHit
    deallocate c up (s.setPamQueue pkt.addr none) .mshrs pr.mshr s.mshrQueue.isFull
  else if isHit then
    let s ← respondPamHit s pkt pr.mshr
    let inService := (s.mshrQueue.registers pr.mshr).inService
    let s ← deallocate c up s .mshrs pr.mshr s.mshrQueue.isFull
    -- the entry stays when the memory has still to answer
    if inService then pure s else pure (s.setPamQueue pkt.addr none)
  else pure (s.allocateTarget pr.mshr pkt)

/-- A lookup of a packet that was not sent to the memory. -/
def finishSerialRead (s : State) (pkt : Packet) (isHit : Bool) :
    Except Fault State := do
  if isHit then pure (s.accessAndRespond pkt)
  else
    match s.mshrQueue.findMatch (c.blockAlign pkt.addr) false with
    | some mshr => s.coalesce c mshr pkt
    | none =>
      let (_, s) ← s.allocateMissBuffer c pkt (s.curTick + 1)
      pure s

/-- All bursts of a read are there: look it up. -/
def finishRead (s : State) (pkt : Packet) :
    Except Fault State :=
  let (isHit, tags) := s.tags.doCacheLookup c pkt.cmd pkt.addr pkt.contextId
  let s := { s with tags := tags }
  match s.pamQueue pkt.addr with
  | some pr =>
    if pr.pkt = pkt.ptr then finishPamRead c up s pkt pr isHit
    else finishSerialRead c s pkt isHit
  | none => finishSerialRead c s pkt isHit

/-- `processRespondHelper`: the burst leaves the queue. -/
def processRespondHelper (s : State) :
    Except Fault State :=
  let s := { s with respQueue := s.respQueue.tail }
  let s := signalDrainDone s (s.respQueue.isEmpty && s.writeQueue.isEmpty &&
    s.readQueue.isEmpty && s.dramPktWriteRespQueue.isEmpty)
  if s.retryRdReq then sendRetryReq c up { s with retryRdReq := false }
  else pure s

/-- One more burst of a packet is there. -/
def State.serviceBurst (s : State) (pkt : Packet) : State :=
  { s with burstsServiced :=
      Function.update s.burstsServiced pkt.id (s.burstsServiced pkt.id + 1) }

/-- Look a read up when its last burst is there. -/
def serviceRead (s : State) (pkt : Packet) :
    Except Fault State :=
  if s.burstsServiced pkt.id = dramPktCount then finishRead c up s pkt else pure s

/-- `processRespondEvent`.  The event is not scheduled while the queue is
empty. -/
def processRespondEvent (s : State) :
    Except Fault State :=
  match s.respQueue with
  | [] => pure s
  | p :: _ => do
    let s ← serviceRead c up (s.serviceBurst p.pkt) p.pkt
    processRespondHelper c up s

/-- Write the block in the set of `addr` back when it is dirty, valid or not. -/
def writeBackDirty (s : State) (addr : ℕ) : Except Fault State :=
  if (s.tags.sets (c.setOf addr)).dirty then
    doWriteBack c s (s.tags.victim c addr) (s.tags.victimContext c addr)
  else pure s

/-- The tag directory after a write allocated its block.  The line is dirty from
now on, but it is not made valid. -/
def Tags.installDirty (t : Tags) (addr contextId : ℕ) : Tags :=
  let i := c.setOf addr
  let t := t.setSet i { t.sets i with tag := c.tagOf addr, dirty := true }
  t.setOwner i (contextId == gpuContextId)

/-- A write missed, and the cache allocates on writes. -/
def allocateOnWrite (s : State) (pkt : Packet) :
    Except Fault State := do
  let s ← writeBackDirty c s pkt.addr
  pure { s with tags := s.tags.installDirty c pkt.addr pkt.contextId }

/-- Where a write goes after its lookup: nowhere after a hit, and else into the
cache or into the write buffer. -/
def placeWrite (s : State) (pkt : Packet) (isHit : Bool) :
    Except Fault State :=
  if isHit then pure s
  else if c.writeAllocate then allocateOnWrite c s pkt
  else s.allocateWriteBuffer c { pkt with internal := true } (s.curTick + 1)

/-- All bursts of a write are done: look it up, and respond either way. -/
def finishWrite (s : State) (pkt : Packet) : Except Fault State := do
  let (isHit, tags) := s.tags.doCacheLookup c pkt.cmd pkt.addr pkt.contextId
  let s ← placeWrite c { s with tags := tags } pkt isHit
  pure (s.respond pkt)

/-- Look a write up when its last burst is done. -/
def serviceWrite (s : State) (pkt : Packet) : Except Fault State :=
  if s.burstsServiced pkt.id = dramPktCount then finishWrite c s pkt else pure s

/-- `processWriteRespondEvent` -/
def processWriteRespondEvent (s : State) : Except Fault State :=
  match s.dramPktWriteRespQueue with
  | [] => pure s
  | p :: _ => do
    let s ← serviceWrite c (s.serviceBurst p.pkt) p.pkt
    let s := { s with dramPktWriteRespQueue := s.dramPktWriteRespQueue.tail }
    pure (signalDrainDone s (s.dramPktWriteRespQueue.isEmpty &&
      s.writeQueue.isEmpty && s.readQueue.isEmpty && s.respQueue.isEmpty))

/-! ## The memory side -/

/-- `getNextMSHR`: which outstanding request to send.  The search for a
conflicting miss asks for a secure one. -/
def getNextMSHR (s : State) : Option (MSHRQueueIndex × ℕ) :=
  let miss := s.mshrQueue.getNextMSHR s.curTick
  match s.writeBuffer.getNextMSHR s.curTick, miss with
  | none, none => none
  | some w, miss =>
    if (s.writeBuffer.isFull && s.writeBuffer.inServiceEntries == 0) || miss.isNone then
      let write := s.writeBuffer.registers w
      match s.mshrQueue.findPending write.blkAddr true with
      | some m =>
        if (s.mshrQueue.registers m).order < write.order then some (.mshrs, m)
        else some (.writeBuffer, w)
      | none => some (.writeBuffer, w)
    else nextMiss s miss
  | none, some m => nextMiss s (some m)
where
  /-- A miss, unless an older write-back of its block waits. -/
  nextMiss (s : State) : Option ℕ → Option (MSHRQueueIndex × ℕ)
    | none => none
    | some m =>
      let reg := s.mshrQueue.registers m
      match s.writeBuffer.findPending reg.blkAddr reg.isSecure with
      | some w => some (.writeBuffer, w)
      | none => some (.mshrs, m)

/-- The memory accepts a request and performs it on the store.  `getTimingPacket` makes
the packet of a read a copy of the target, and that of a write a new packet for the
whole block. -/
def deliver (s : State) (index : MSHRQueueIndex) (r : ℕ) (target : Packet) :
    State :=
  match index with
  | .mshrs =>
    { s with mem := s.mem ++
        [{ queue := index, mshr := r, cmd := .readReq, addr := target.addr,
           contextId := target.contextId, data := s.store target.addr,
           stamp := s.accepted.length }] }
  | .writeBuffer =>
    { s.accessWrite (c.blockAlign target.addr) target.data with mem := s.mem ++
        [{ queue := index, mshr := r, cmd := .writeReq, addr := c.blockAlign target.addr,
           contextId := target.contextId }] }

/-- `markInService` of the controller. -/
def markInService (s : State)
    (index : MSHRQueueIndex) (r : ℕ) : Except Fault State := do
  let wasFull := (s.queue index).isFull
  let q ← (s.queue index).markInService r
  let s := s.setQueue index q
  if wasFull && !q.isFull then clearBlocked c up s (.ofIndex index) else pure s

/-- `sendDeferredPacket`.  `accepted` is the answer of the memory-side port.
Nothing is scheduled when no request is ready. -/
def sendDeferredPacket (s : State)
    (accepted : Bool) : Except Fault State :=
  match getNextMSHR s with
  | none => pure s
  | some (index, r) =>
    match ((s.queue index).registers r).targets with
    | [] => .error .sendNoTargets
    | target :: _ =>
      if accepted then do
        let s ← markInService c up (deliver c s index r target) index r
        s.schedSendEvent s.nextMSHRReadyTime
      else pure { s with waitingOnRetry := true }

/-- `processSendEvent`, at the tick for which it is scheduled. -/
def processSendEvent (s : State) (accepted : Bool) :
    Except Fault State := do
  match s.sendEvent with
  | none => pure s
  | some t =>
    if t ≤ s.curTick then
      check (s.waitingOnRetry = false) Fault.sendWhileWaiting
      sendDeferredPacket c up { s with sendEvent := none } accepted
    else pure s

/-- `recvReqRetry`.  The memory sends it only after it refused a request. -/
def recvReqRetry (s : State) (accepted : Bool) :
    Except Fault State :=
  if s.waitingOnRetry then
    sendDeferredPacket c up { s with waitingOnRetry := false } accepted
  else pure s

/-- An answer for a block whose lookup missed before: respond to the packets
that wait for it, and fill. -/
def finishPamMiss (s : State) (p : MemPacket)
    (pr : PamReq) : Except Fault State := do
  check (p.mshr = pr.mshr) Fault.respPamMshr
  let wasFull := s.mshrQueue.isFull
  let s ← releaseTargets c up s p.mshr
  let targets := (s.mshrQueue.registers p.mshr).targets
  check (targets ≠ []) Fault.respNoTargets
  let s := s.copyAndRespondAll p.data p.stamp targets.tail
  let s ← deallocate c up (s.clearTargets p.mshr) .mshrs p.mshr wasFull
  addToFillQueue c s p.addr p.contextId

/-- An answer for a block that has an entry in `pamQueue`. -/
def recvPamResp (s : State) (p : MemPacket)
    (pr : PamReq) : Except Fault State := do
  let s := s.setPamQueue p.addr (some { pr with isPamComplete := true })
  match pr.isHit with
  | none =>
    match (s.mshrQueue.registers pr.mshr).targets with
    | [] => .error .respNoTargets
    | first :: rest =>
      let first := { first with data := p.data, stamp := p.stamp }
      pure { s with mshrQueue := s.mshrQueue.setTargets pr.mshr (first :: rest) }
  | some true => pure (s.setPamQueue p.addr none)
  | some false =>
    let s ← finishPamMiss c up s p pr
    pure (s.setPamQueue p.addr none)

/-- The block of an answer is installed, unless it is there already. -/
def fillOnResp (s : State) (p : MemPacket) : Except Fault State :=
  let i := c.setOf p.addr
  if !(s.tags.sets i).valid || (s.tags.sets i).tag != c.tagOf p.addr then
    addToFillQueue c s p.addr p.contextId
  else pure s

/-- Use up the targets of the register that an answer is for. -/
def consumeTargets (s : State) (p : MemPacket) :
    Except Fault State := do
  let targets := ((s.queue p.queue).registers p.mshr).targets
  match p.queue, p.cmd with
  | .mshrs, .readReq =>
    check (targets ≠ []) Fault.respNoTargets
    let s ← fillOnResp c s p
    check (∀ t ∈ targets, p.addr = t.addr) Fault.respTargetAddr
    pure ((s.accessAndRespondAll targets).clearTargets p.mshr)
  | .writeBuffer, .writeReq =>
    check (targets.length = 1) Fault.respWriteTargets
    pure { s with writeBuffer := s.writeBuffer.setTargets p.mshr [] }
  | _, _ => .error .respUnknown

/-- `releaseTargets` for an answer of either queue. -/
def releaseMiss (s : State) (p : MemPacket) :
    Except Fault State :=
  if p.queue = .mshrs then releaseTargets c up s p.mshr else pure s

/-- An answer for a block without an entry in `pamQueue`. -/
def recvSerialResp (s : State) (p : MemPacket) :
    Except Fault State := do
  let wasFull := (s.queue p.queue).isFull
  let s ← releaseMiss c up s p
  let s ← consumeTargets c s p
  deallocate c up s p.queue p.mshr wasFull

/-- `recvTimingResp` -/
def recvTimingResp (s : State) (p : MemPacket) :
    Except Fault State :=
  match p.queue, s.pamQueue p.addr with
  | .mshrs, some pr => recvPamResp c up s p pr
  | _, _ => recvSerialResp c up s p

end Gem5Gpu.DRAMCache
