import Gem5Gpu.Lib.Machine
import Gem5Gpu.GPU.WarpInstBuffer

/-!
# The load-store queue of a shader core

`ShaderLSQ` takes the lane packets of one warp instruction after another
(`addLaneRequest`), coalesces an instruction when it is dispatched, and translates
its accesses.  The accesses of the instruction at the head of its warp's queue go
to `injectBuffer`, and `injectCacheAccesses` sends them to the cache, one
outstanding access per line: an access to a blocked line waits in
`blockedAccesses`.  A response unblocks its line and goes to `ejectBuffer`; the
last one of an instruction moves the instruction to `commitInstBuffer`, from
where its lanes are answered.  A fence waits at the head of its warp's queue until
the warp has no outstanding access.

`State` has the fields of the object and, below them, what is outside of it and a
log of the run.  An event is one entry into the object: a call through a port, or
one of its four events firing.  `now` is the current cycle, or the tick for a lane
request.  What the environment decides are arguments: the physical addresses, how
many packets a port takes before it refuses one, and what the cache returns.  A
port that has refused a packet owes a retry, and sends it once.

A translation that ends inside `beginTranslateTiming` is the event `translated`
right after `dispatch`, since nothing happens in between.  Statistics and the
ticks at which events are scheduled are left out; `injectTime` is kept, because
the inject loop compares it.
-/

namespace Gem5Gpu.GPU.LSQ

open Lib Function

structure Config where
  warpSize : ℕ
  warpInstBufPoolSize : ℕ
  injectWidth : ℕ
  ejectWidth : ℕ
  l1TagAccessCycles : ℕ
  sublineBytes : ℕ
  cacheLineAddrMaskBits : ℕ
  forwardFlush : Bool

variable (c : Config)

def Config.addrToLine (addr : ℕ) : ℕ :=
  addr / 2 ^ c.cacheLineAddrMaskBits * 2 ^ c.cacheLineAddrMaskBits

inductive Fault
  /-- The environment cannot do this now. -/
  | disabled
  /-- A lane request while the queue is flushing. -/
  | panicFlushing
  /-- The cache refuses the flush. -/
  | panicFlush
  | assertDispatch
  | assertLane
  | assertInject
  | assertRetry
  | assertResponse
  | assertEject
  | assertFence
  | assertCommit
deriving DecidableEq, Repr

/-- A dispatched instruction, with the packets of its lanes. -/
structure Inst where
  warp : ℕ
  type : InstType
  lanes : List (ℕ × LanePkt)
  accesses : List Access

/-- A lane response that the core took. -/
structure Response where
  inst : ℕ
  lane : ℕ
  pkt : LanePkt

structure State where
  dispatchWarpInstBuf : Option ℕ
  /-- The buffers of the pool. -/
  bufs : ℕ → WarpInstBuffer
  availableWarpInstBufs : List ℕ
  numActiveWarpInstBuffers : ℕ
  perWarpInstructionQueues : ℕ → List ℕ
  perWarpOutstandingAccesses : ℕ → ℕ
  injectBuffer : List Access
  /-- `injectTime` of the accesses. -/
  injectTime : Access → ℕ
  nextAllowedInject : ℕ
  blockedLineAddrs : ℕ → Bool
  blockedAccesses : ℕ → List Access
  mshrsFull : Bool
  ejectBuffer : List Access
  commitInstBuffer : List ℕ
  writebackBlocked : Bool
  flushing : Bool
  injectScheduled : Bool
  ejectScheduled : Bool
  commitScheduled : Bool
  -- outside of the object
  translating : List Access
  /-- Accesses that the cache took and did not answer. -/
  cache : List Access
  /-- The data of the answered accesses. -/
  data : Access → List Byte
  /-- A flush request that the cache took and did not answer. -/
  flushSent : Bool
  /-- The cache refused an access and has not sent a retry since. -/
  cacheOwes : Bool
  /-- The core refused a lane response and has not sent a retry since. -/
  coreOwes : Bool
  -- the log
  /-- The lane packets that were accepted. -/
  requests : List (ℕ × LanePkt)
  insts : List Inst
  entered : List Access
  accepted : List Access
  ejected : List Access
  pushed : List ℕ
  committed : List ℕ
  responses : List Response

def State.initial : State where
  dispatchWarpInstBuf := none
  bufs := fun _ => .empty
  availableWarpInstBufs := List.range c.warpInstBufPoolSize
  numActiveWarpInstBuffers := 0
  perWarpInstructionQueues := fun _ => []
  perWarpOutstandingAccesses := fun _ => 0
  injectBuffer := []
  injectTime := fun _ => 0
  nextAllowedInject := 0
  blockedLineAddrs := fun _ => false
  blockedAccesses := fun _ => []
  mshrsFull := false
  ejectBuffer := []
  commitInstBuffer := []
  writebackBlocked := false
  flushing := false
  injectScheduled := false
  ejectScheduled := false
  commitScheduled := false
  translating := []
  cache := []
  data := fun _ => []
  flushSent := false
  cacheOwes := false
  coreOwes := false
  requests := []
  insts := []
  entered := []
  accepted := []
  ejected := []
  pushed := []
  committed := []
  responses := []

def State.modifyBuf (s : State) (b : ℕ) (f : WarpInstBuffer → WarpInstBuffer) : State :=
  { s with bufs := update s.bufs b (f (s.bufs b)) }

/-! ## Lane requests -/

/-- The result says whether the packet is accepted. -/
def addLaneRequest (now lane : ℕ) (pkt : LanePkt) (s : State) : Except Fault (State × Bool) := do
  check (s.flushing = false) .panicFlushing
  match s.dispatchWarpInstBuf with
  | none =>
    match s.availableWarpInstBufs with
    | [] => return (s, false)
    | b :: rest =>
      let s := { s.modifyBuf b (·.initializeInstBuffer now pkt) with
        dispatchWarpInstBuf := some b
        availableWarpInstBufs := rest
        numActiveWarpInstBuffers := s.numActiveWarpInstBuffers + 1 }
      check ((s.bufs b).laneRequestPkts lane = none) .assertLane
      return ({ s.modifyBuf b (·.setLane lane (some pkt)) with
        requests := s.requests ++ [(lane, pkt)] }, true)
  | some b =>
    if now = (s.bufs b).startTick then
      check ((s.bufs b).laneRequestPkts lane = none) .assertLane
      return ({ s.modifyBuf b (·.setLane lane (some pkt)) with
        requests := s.requests ++ [(lane, pkt)] }, true)
    else return (s, false)

/-! ## Commit -/

def pushToCommitBuffer (b : ℕ) (s : State) : Except Fault State := do
  let s := { s with
    commitInstBuffer := s.commitInstBuffer ++ [b]
    pushed := s.pushed ++ [(s.bufs b).inst] }
  if !s.commitScheduled && !s.writebackBlocked then
    check (s.commitInstBuffer.length = 1) .assertCommit
    return { s with commitScheduled := true }
  else return s

def clearFenceAtQueueHead (w : ℕ) (s : State) : Except Fault State := do
  check (s.perWarpOutstandingAccesses w = 0) .assertFence
  match s.perWarpInstructionQueues w with
  | [] => .error .assertFence
  | b :: rest =>
    check ((s.bufs b).isFence = true) .assertFence
    check (rest = []) .assertFence
    pushToCommitBuffer b { s with
      perWarpInstructionQueues := update s.perWarpInstructionQueues w rest }

def finalizeFlush (s : State) : Except Fault State := do
  check (s.flushing = true) .assertCommit
  return { s with flushing := false }

/-- `accepted` is the answer of the cache to a forwarded flush. -/
def processFlush (accepted : Bool) (s : State) : Except Fault State := do
  check (s.flushing = true ∧ s.numActiveWarpInstBuffers = 0) .assertCommit
  if c.forwardFlush then
    check (accepted = true) .panicFlush
    return { s with flushSent := true }
  else finalizeFlush s

def addFlushRequest (accepted : Bool) (s : State) : Except Fault State := do
  let s := { s with flushing := true }
  if s.numActiveWarpInstBuffers = 0 then processFlush c accepted s else return s

/-- The lanes from `lanes` on are answered, until the core refuses a response
after `n` of them.  The result says whether all were taken. -/
def respondLanes (b : ℕ) : List ℕ → ℕ → State → State × Bool
  | [], _, s => (s, true)
  | lane :: lanes, n, s =>
    match (s.bufs b).laneRequestPkts lane with
    | none => respondLanes b lanes n s
    | some pkt =>
      match n with
      | 0 => (s, false)
      | n + 1 => respondLanes b lanes n { s.modifyBuf b (·.setLane lane none) with
          responses := s.responses ++ [⟨(s.bufs b).inst, lane, pkt⟩] }

/-- The end of `commitWarpInst`, once the lanes were answered or the core refused
(`done = false`).  `flush` is the answer of the cache to a flush. -/
def commitResult (flush : Bool) (b : ℕ) (rest : List ℕ) (s : State) (done : Bool) :
    Except Fault State := do
  if !done then
    check ((s.bufs b).isFence = false) .assertCommit
    return { s with writebackBlocked := true, coreOwes := true }
  else
    check ((s.bufs b).coalescedAccesses = [] ∧ (s.bufs b).translatedAccesses = []) .assertCommit
    let s := { s with
      commitInstBuffer := rest
      commitScheduled := !rest.isEmpty
      committed := s.committed ++ [(s.bufs b).inst]
      numActiveWarpInstBuffers := s.numActiveWarpInstBuffers - 1
      availableWarpInstBufs := s.availableWarpInstBufs ++ [b] }
    if s.flushing ∧ s.numActiveWarpInstBuffers = 0 then processFlush c flush s else return s

/-- `n` is the number of responses that the core takes; it takes all those of a
fence. -/
def commitWarpInst (n : ℕ) (flush : Bool) (s : State) : Except Fault State := do
  check (s.writebackBlocked = false) .assertCommit
  match s.commitInstBuffer with
  | [] => .error .assertCommit
  | b :: rest =>
    match (s.bufs b).type with
    | .store => commitResult c flush b rest s true
    | _ =>
      let (s, done) := respondLanes b (List.range c.warpSize) n s
      commitResult c flush b rest s done

def retryCommitWarpInst (s : State) : Except Fault State := do
  check (s.commitScheduled = false) .assertCommit
  return { s with writebackBlocked := false, commitScheduled := !s.commitInstBuffer.isEmpty }

/-! ## Dispatch and translation -/

/-- `paddr` are the physical addresses of the accesses. -/
def dispatchWarpInst (paddr : ℕ → ℕ) (s : State) : Except Fault State := do
  match s.dispatchWarpInstBuf with
  | none => .error .disabled
  | some b =>
    let w := (s.bufs b).warpId
    let n := s.insts.length
    let s := { s with
      perWarpInstructionQueues :=
        update s.perWarpInstructionQueues w (s.perWarpInstructionQueues w ++ [b])
      dispatchWarpInstBuf := none }
    if (s.bufs b).isFence then
      let s := { s.modifyBuf b ({ · with inst := n }) with
        insts := s.insts ++ [⟨w, .fence, (s.bufs b).lanePkts c.warpSize, []⟩] }
      if s.perWarpOutstandingAccesses w = 0 ∧ (s.perWarpInstructionQueues w).head? = some b then
        clearFenceAtQueueHead w s
      else return s
    else
      let accs := (s.bufs b).accesses c.warpSize n b paddr
      return { s.modifyBuf b ({ · with inst := n, coalescedAccesses := accs }) with
        insts := s.insts ++ [⟨w, (s.bufs b).type, (s.bufs b).lanePkts c.warpSize, accs⟩]
        translating := s.translating ++ accs }

def pushToInjectBuffer (now : ℕ) (s : State) (a : Access) : State :=
  { s with
    injectTime := update s.injectTime a (now + c.l1TagAccessCycles)
    injectBuffer := s.injectBuffer ++ [a]
    entered := s.entered ++ [a] }

def finishTranslation (now : ℕ) (a : Access) (s : State) : State :=
  let s := { s.modifyBuf a.buf (fun b => { b with
      translatedAccesses := b.translatedAccesses ++ [a] }) with
    translating := s.translating.erase a }
  if (s.perWarpInstructionQueues a.warp).head? = some a.buf then
    let s := pushToInjectBuffer c now s a
    if !s.injectScheduled && !s.mshrsFull then { s with injectScheduled := true } else s
  else s

/-! ## Injection -/

/-- Accesses at the front that are due and whose line is blocked wait for the
line.  They do not count against the width. -/
def parkBlocked (c : Config) (now : ℕ) : List Access → State → State
  | [], s => s
  | a :: rest, s =>
    if s.nextAllowedInject ≤ now ∧ s.injectTime a ≤ now ∧
        s.blockedLineAddrs (c.addrToLine a.paddr) = true then
      parkBlocked c now rest { s with
        injectBuffer := rest
        blockedAccesses := update s.blockedAccesses (c.addrToLine a.paddr)
          (s.blockedAccesses (c.addrToLine a.paddr) ++ [a]) }
    else s

/-- All accesses of the instruction at the head of the queue of `w` are in the
cache hierarchy: the next instruction of the warp may inject. -/
def popQueue (now w : ℕ) (s : State) : State :=
  let rest := (s.perWarpInstructionQueues w).tail
  let s := { s with
    perWarpInstructionQueues := update s.perWarpInstructionQueues w rest }
  match rest with
  | [] => s
  | b :: _ =>
    if (s.bufs b).isFence then s
    else (s.bufs b).translatedAccesses.foldl (pushToInjectBuffer c now) s

/-- The cache takes the access `a` at the front of the inject buffer. -/
def sendAccess (now : ℕ) (a : Access) (rest : List Access) (s : State) : State :=
  let s := { s.modifyBuf a.buf (fun b => { b with
      coalescedAccesses := b.coalescedAccesses.erase a }) with
    blockedLineAddrs := update s.blockedLineAddrs (c.addrToLine a.paddr) true
    nextAllowedInject := if a.isWrite then now + a.size / c.sublineBytes
      else s.nextAllowedInject
    injectBuffer := rest
    perWarpOutstandingAccesses := update s.perWarpOutstandingAccesses a.warp
      (s.perWarpOutstandingAccesses a.warp + 1)
    cache := s.cache ++ [a]
    accepted := s.accepted ++ [a] }
  if (s.bufs a.buf).coalescedAccesses.isEmpty then popQueue c now a.warp s else s

/-- The loop of `injectCacheAccesses`.  `width` more accesses may be injected, and
the cache refuses the one after the next `n`. -/
def injectLoop (c : Config) (now : ℕ) : ℕ → ℕ → State → State
  | 0, _, s => { s with injectScheduled := !s.injectBuffer.isEmpty }
  | width + 1, n, s =>
    let s := parkBlocked c now s.injectBuffer s
    match s.injectBuffer with
    | [] => s
    | a :: rest =>
      if s.nextAllowedInject ≤ now ∧ s.injectTime a ≤ now then
        match n with
        | 0 => { s with mshrsFull := true, cacheOwes := true }
        | n + 1 => injectLoop c now width n (sendAccess c now a rest s)
      else { s with injectScheduled := true }

def injectCacheAccesses (now n : ℕ) (s : State) : Except Fault State := do
  check (s.mshrsFull = false ∧ s.injectBuffer ≠ []) .assertInject
  return injectLoop c now c.injectWidth n s

def scheduleRetryInject (s : State) : Except Fault State := do
  check (s.mshrsFull = true ∧ s.injectBuffer ≠ [] ∧ s.injectScheduled = false) .assertRetry
  return { s with mshrsFull := false, injectScheduled := true }

/-! ## Responses -/

def recvResponsePkt (now : ℕ) (a : Access) (s : State) : Except Fault State := do
  let line := c.addrToLine a.paddr
  check (s.blockedLineAddrs line = true) .assertResponse
  let s := { s with
    ejectBuffer := s.ejectBuffer ++ [a]
    blockedLineAddrs := update s.blockedLineAddrs line false
    ejectScheduled := true }
  match s.blockedAccesses line with
  | [] => return s
  | next :: rest =>
    check (s.injectTime next < now) .assertResponse
    return { s with
      blockedAccesses := update s.blockedAccesses line rest
      injectBuffer := next :: s.injectBuffer
      injectScheduled := if s.mshrsFull then s.injectScheduled else true }

/-- The body of the loop of `ejectAccessResponses`. -/
def ejectAccess (a : Access) (rest : List Access) (s : State) : Except Fault State := do
  let (b, complete) := (s.bufs a.buf).finishAccess a (s.data a)
  let s := { s with
    bufs := update s.bufs a.buf b
    perWarpOutstandingAccesses := update s.perWarpOutstandingAccesses a.warp
      (s.perWarpOutstandingAccesses a.warp - 1)
    ejectBuffer := rest
    ejected := s.ejected ++ [a] }
  if complete then
    let s ← pushToCommitBuffer a.buf s
    match s.perWarpInstructionQueues a.warp with
    | [] => return s
    | f :: _ =>
      if s.perWarpOutstandingAccesses a.warp = 0 ∧ (s.bufs f).isFence = true then
        clearFenceAtQueueHead a.warp s
      else return s
  else return s

def ejectLoop : ℕ → State → Except Fault State
  | 0, s => return { s with ejectScheduled := !s.ejectBuffer.isEmpty }
  | width + 1, s =>
    match s.ejectBuffer with
    | [] => return s
    | a :: rest => do
      let s ← ejectAccess a rest s
      ejectLoop width s

def ejectAccessResponses (s : State) : Except Fault State := do
  check (s.ejectBuffer ≠ []) .assertEject
  ejectLoop c.ejectWidth s

/-! ## Events -/

inductive Event
  | laneRequest (now lane : ℕ) (pkt : LanePkt)
  | dispatch (paddr : ℕ → ℕ)
  | translated (now : ℕ) (a : Access)
  /-- `injectAccessesEvent`; the cache takes `n` accesses before it refuses one. -/
  | inject (now n : ℕ)
  | retryInject
  | response (now : ℕ) (a : Access) (data : List Byte)
  | eject
  /-- `commitInstEvent`; the core takes `n` responses before it refuses one. -/
  | commit (n : ℕ) (flush : Bool)
  | retryCommit
  | flush (accepted : Bool)
  | flushed

def step (s : State) : Event → Except Fault State
  | .laneRequest now lane pkt => do
    check (lane < c.warpSize) .disabled
    let (s, _) ← addLaneRequest now lane pkt s
    return s
  | .dispatch paddr => dispatchWarpInst c paddr s
  | .translated now a => do
    check (a ∈ s.translating) .disabled
    return finishTranslation c now a s
  | .inject now n => do
    check (s.injectScheduled = true) .disabled
    injectCacheAccesses c now n { s with injectScheduled := false }
  | .retryInject => do
    check (s.cacheOwes = true) .disabled
    scheduleRetryInject { s with cacheOwes := false }
  | .response now a data => do
    check (a ∈ s.cache) .disabled
    recvResponsePkt c now a { s with
      cache := s.cache.erase a
      data := update s.data a data }
  | .eject => do
    check (s.ejectScheduled = true) .disabled
    ejectAccessResponses c { s with ejectScheduled := false }
  | .commit n flush => do
    check (s.commitScheduled = true) .disabled
    commitWarpInst c n flush { s with commitScheduled := false }
  | .retryCommit => do
    check (s.coreOwes = true) .disabled
    retryCommitWarpInst { s with coreOwes := false }
  | .flush accepted => addFlushRequest c accepted s
  | .flushed => do
    check (s.flushSent = true) .disabled
    finalizeFlush { s with flushSent := false }

end Gem5Gpu.GPU.LSQ
