import Gem5Gpu.Lib.Machine
import Gem5Gpu.Lib.Select
import Gem5Gpu.Mem.Packet
import Mathlib.Algebra.Group.Nat.Defs

/-!
# The queues of the DRAM controller

`DRAMCtrl` cuts a request at the burst boundaries.  The bursts of a read wait in `readQueue`, are
served by the DRAM in the order of the scheduler, and leave through `respQueue`; a burst that a
queued write covers is not read at all.  A read of several bursts has a `BurstHelper` that counts
those that are done, and the read is answered with the last one.  A write is answered at once.  Its
bursts wait in `writeQueue`, one entry a burst address, and `isInWriteQueue` is the set of these
addresses.

Addresses are 64-bit words and sizes 32-bit words that wrap, as in the source.  The number of
bursts (`dramPktCount`) and the cutting (`fragments`) are computed separately.

The timing of the banks is not part of the state: the packet that `chooseNext` finds, and whether
all the ranks are refreshing, are given with the event.  A requestor that is told to retry may send
a request from within the handler (`up`).
-/

namespace Gem5Gpu.DRAM.Ctrl

open Gem5Gpu.Lib Gem5Gpu.Mem

structure Config where
  burstSize : UInt32
  readBufferSize : ℕ
  writeBufferSize : ℕ
  writeHighThreshold : ℕ
  writeLowThreshold : ℕ
  minWritesPerSwitch : ℕ
  burstSize_pow : ∃ k, burstSize.toNat = 2 ^ k

/-- A packet that arrives at the port. -/
structure Request where
  cmd : MemCmd
  addr : UInt64
  size : UInt32
  memInhibit : Bool := false
  deriving DecidableEq, Repr

/-! ## Cutting a request -/

/-- A piece of a request: its address and its size. -/
abbrev Fragment := UInt64 × UInt32

/-- `divCeil`. -/
def divCeil (a b : UInt32) : UInt32 := (a + b - 1) / b

namespace Config

variable (c : Config)

/-- `burstSize - 1`, as an address. -/
def burstMask : UInt64 := (c.burstSize - 1).toUInt64

def burstAlign (addr : UInt64) : UInt64 := addr &&& ~~~c.burstMask

/-- The starting address of the next burst. -/
def nextBurst (addr : UInt64) : UInt64 := (addr ||| c.burstMask) + 1

/-- `dram_pkt_count`. -/
def dramPktCount (r : Request) : UInt32 :=
  let offset := (r.addr &&& c.burstMask).toUInt32
  divCeil (offset + r.size) c.burstSize

/-- The size of the piece of `r` that begins at `addr`. -/
def fragSize (r : Request) (addr : UInt64) : UInt32 :=
  (min (c.nextBurst addr) (r.addr + r.size.toUInt64) - addr).toUInt32

/-- The pieces that the loops of `addToReadQueue` and `addToWriteQueue` form in `n` rounds. -/
def fragmentsFrom (r : Request) : ℕ → UInt64 → List Fragment
  | 0, _ => []
  | n + 1, addr => (addr, c.fragSize r addr) :: fragmentsFrom r n (c.nextBurst addr)

def fragments (r : Request) : List Fragment :=
  c.fragmentsFrom r (c.dramPktCount r).toNat r.addr

end Config

/-! ## The state -/

/-- `DRAMPacket`: one burst of the request with number `pkt`.  `split` is that it has a
`burstHelper`, the one of its request. -/
structure Burst where
  pkt : ℕ
  addr : UInt64
  size : UInt32
  split : Bool := false
  deriving DecidableEq, Repr

structure BurstHelper where
  burstCount : ℕ
  burstsServiced : ℕ
  deriving DecidableEq, Repr

inductive BusState
  | read
  | readToWrite
  | write
  | writeToRead
  deriving DecidableEq, Repr

/-- The state of the controller.  `accepted` and `responses` are histories: the requests in the
order in which they were accepted, which numbers them, and the numbers of those that were passed to
`accessAndRespond`. -/
structure State where
  readQueue : List Burst := []
  respQueue : List Burst := []
  writeQueue : List Burst := []
  isInWriteQueue : List UInt64 := []
  helpers : ℕ → BurstHelper := fun _ => ⟨0, 0⟩
  busState : BusState := .read
  writesThisTime : ℕ := 0
  draining : Bool := false
  retryRdReq : Bool := false
  retryWrReq : Bool := false
  accepted : List Request := []
  responses : List ℕ := []

/-- The assertions of the source that can fail. -/
inductive Fault
  | sizeZero
  | pktCountZero
  | readQueueFull
  | writeQueueFull
  | writeQueueIndexSize
  | chooseNextEmpty
  | burstTooLarge
  deriving DecidableEq, Repr

variable (c : Config)

variable (s : State)

def readQueueFull (neededEntries : ℕ) : Bool :=
  c.readBufferSize < s.readQueue.length + s.respQueue.length + neededEntries

def writeQueueFull (neededEntries : ℕ) : Bool :=
  c.writeBufferSize < s.writeQueue.length + neededEntries

def accessAndRespond (i : ℕ) : State :=
  { s with responses := s.responses ++ [i] }

/-! ## Accepting a request -/

/-- `foundInWrQ`: the read is subsumed in a packet of the write queue. -/
def foundInWrQ (f : Fragment) : Bool :=
  s.isInWriteQueue.contains (c.burstAlign f.1) && s.writeQueue.any fun p =>
      p.addr ≤ f.1 && f.1 + f.2.toUInt64 ≤ p.addr + p.size.toUInt64

/-- The loop of `addToReadQueue`; the number counts `pktsServicedByWrQ`. -/
def addReadBursts (i : ℕ) (split : Bool) : List Fragment → State → ℕ → Except Fault (State × ℕ)
  | [], s, serviced => .ok (s, serviced)
  | f :: fs, s, serviced =>
    if foundInWrQ c s f then addReadBursts i split fs s (serviced + 1)
    else do
      check (readQueueFull c s 1 = false) .readQueueFull
      let p : Burst := { pkt := i, addr := f.1, size := f.2, split := split }
      addReadBursts i split fs { s with readQueue := s.readQueue ++ [p] } serviced

def addToReadQueue (r : Request) (pktCount : UInt32) : Except Fault State := do
  check (pktCount ≠ 0) .pktCountZero
  let i := s.accepted.length
  let s := { s with accepted := s.accepted ++ [r] }
  let split := decide (1 < pktCount.toNat)
  let (s, serviced) ← addReadBursts c i split (c.fragmentsFrom r pktCount.toNat r.addr) s 0
  if serviced = pktCount.toNat then
    return accessAndRespond s i
  else if split then
    return { s with helpers := Function.update s.helpers i ⟨pktCount.toNat, serviced⟩ }
  else
    return s

/-- The loop of `addToWriteQueue`. -/
def addWriteBursts (i : ℕ) : List Fragment → State → Except Fault State
  | [], s => .ok s
  | f :: fs, s =>
    if s.isInWriteQueue.contains (c.burstAlign f.1) then
      -- merged with the entry of the burst
      addWriteBursts i fs s
    else do
      check (s.writeQueue.length < c.writeBufferSize) .writeQueueFull
      let p : Burst := { pkt := i, addr := f.1, size := f.2 }
      let s := { s with
        writeQueue := s.writeQueue ++ [p]
        isInWriteQueue := s.isInWriteQueue.insert (c.burstAlign f.1) }
      check (s.writeQueue.length = s.isInWriteQueue.length) .writeQueueIndexSize
      addWriteBursts i fs s

def addToWriteQueue (r : Request) (pktCount : UInt32) : Except Fault State := do
  let i := s.accepted.length
  let s := { s with accepted := s.accepted ++ [r] }
  let s ← addWriteBursts c i (c.fragmentsFrom r pktCount.toNat r.addr) s
  return accessAndRespond s i

def recvTimingReq (r : Request) : Except Fault State :=
  if r.memInhibit || r.cmd = .cleanEvict then
    .ok s
  else
    let pktCount := c.dramPktCount r
    if r.cmd.isRead then do
      check (r.size ≠ 0) .sizeZero
      if readQueueFull c s pktCount.toNat then
        return { s with retryRdReq := true }
      else
        addToReadQueue c s r pktCount
    else if r.cmd.isWrite then do
      check (r.size ≠ 0) .sizeZero
      if writeQueueFull c s pktCount.toNat then
        return { s with retryWrReq := true }
      else
        addToWriteQueue c s r pktCount
    else
      .ok (accessAndRespond { s with accepted := s.accepted ++ [r] } s.accepted.length)

/-- `port.sendRetryReq`: the requestor may send a request at once. -/
def sendRetryReq (up : Option Request) : Except Fault State :=
  match up with
  | none => .ok s
  | some r => recvTimingReq c s r

/-! ## Serving the queues -/

/-- The accounting of a burst that is done: a read is answered with its last one. -/
def burstDone (p : Burst) : State :=
  if p.split then
    let helper := s.helpers p.pkt
    let served := helper.burstsServiced + 1
    let s := { s with
      helpers := Function.update s.helpers p.pkt ⟨helper.burstCount, served⟩ }
    if served = helper.burstCount then accessAndRespond s p.pkt else s
  else
    accessAndRespond s p.pkt

def signalDrainDone : State :=
  { s with draining := false }

/-- The front of the response queue is done; nothing left in any queue ends a drain. -/
def popResponse (p : Burst) (rest : List Burst) : State :=
  let s := { burstDone s p with respQueue := rest }
  if rest.isEmpty && s.draining && s.writeQueue.isEmpty && s.readQueue.isEmpty then
    signalDrainDone s
  else s

/-- The event is scheduled while there is a response. -/
def processRespondEvent (up : Option Request) : Except Fault State :=
  match s.respQueue with
  | [] => .ok s
  | p :: rest =>
    let s := popResponse s p rest
    if s.retryRdReq then sendRetryReq c { s with retryRdReq := false } up else .ok s

def turnBus : State :=
  match s.busState with
  | .readToWrite => { s with busState := .write }
  | .writeToRead => { s with busState := .read, writesThisTime := 0 }
  | _ => s

/-- The packet that `chooseNext` moved to the front, and the queue after `pop_front`. -/
def takeNext (queue : List Burst) (choice : Option ℕ) : Option (Burst × List Burst) :=
  match moveToFront queue choice with
  | (true, p :: rest) => some (p, rest)
  | _ => none

/-- The bus is in state `READ`.  The flag says whether the handler goes on to its end. -/
def serveRead (choice : Option ℕ) : Except Fault (State × Bool) :=
  if s.readQueue.isEmpty then
    if !s.writeQueue.isEmpty && (s.draining || c.writeLowThreshold < s.writeQueue.length) then
      .ok ({ s with busState := .readToWrite }, true)
    else if s.draining && s.respQueue.isEmpty then
      .ok (signalDrainDone s, false)
    else
      .ok (s, false)
  else
    match takeNext s.readQueue choice with
    | none => .ok (s, false)
    | some (p, rest) => do
      check (p.size ≤ c.burstSize) .burstTooLarge
      let s := { s with readQueue := rest, respQueue := s.respQueue ++ [p] }
      if c.writeHighThreshold < s.writeQueue.length then
        return ({ s with busState := .readToWrite }, true)
      else
        return (s, true)

/-- The bus is in state `WRITE`. -/
def serveWrite (choice : Option ℕ) : Except Fault (State × Bool) := do
  check (s.writeQueue ≠ []) .chooseNextEmpty
  match takeNext s.writeQueue choice with
  | none => return (s, false)
  | some (p, rest) => do
    check (p.size ≤ c.burstSize) .burstTooLarge
    let s := { s with
      writesThisTime := s.writesThisTime + 1
      writeQueue := rest
      isInWriteQueue := s.isInWriteQueue.erase (c.burstAlign p.addr) }
    if s.writeQueue.isEmpty ||
        (s.writeQueue.length + c.minWritesPerSwitch < c.writeLowThreshold && !s.draining) ||
        (!s.readQueue.isEmpty && c.minWritesPerSwitch ≤ s.writesThisTime) then
      return ({ s with busState := .writeToRead }, true)
    else
      return (s, true)

def serve (choice : Option ℕ) : Except Fault (State × Bool) :=
  if s.busState = .read then serveRead c s choice else serveWrite c s choice

/-- A write that was forced to wait is retried when there is room. -/
def retryWrite (up : Option Request) : Except Fault State :=
  if s.retryWrReq && s.writeQueue.length < c.writeBufferSize then
    sendRetryReq c { s with retryWrReq := false } up
  else .ok s

/-- `busy` is that every rank is refreshing, and `choice` the position that `chooseNext` finds in
the queue it is called on. -/
def processNextReqEvent (busy : Bool) (choice : Option ℕ) (up : Option Request) :
    Except Fault State := do
  if busy then
    return s
  else
    let (s, goesOn) ← serve c (turnBus s) choice
    if goesOn then retryWrite c s up else return s

def drain : State :=
  { s with draining := !(s.writeQueue.isEmpty && s.readQueue.isEmpty && s.respQueue.isEmpty) }

def drainResume : State :=
  { s with draining := false }

/-! ## Runs -/

inductive Event
  | recvTimingReq (r : Request)
  | processNextReqEvent (busy : Bool) (choice : Option ℕ) (up : Option Request)
  | processRespondEvent (up : Option Request)
  | drain
  | drainResume
  deriving DecidableEq, Repr

def step : Event → Except Fault State
  | .recvTimingReq r => recvTimingReq c s r
  | .processNextReqEvent busy choice up => processNextReqEvent c s busy choice up
  | .processRespondEvent up => processRespondEvent c s up
  | .drain => .ok (drain s)
  | .drainResume => .ok (drainResume s)

/-- The states of the runs that begin with empty queues and that no assertion has ended. -/
def Reaches : Prop := Reach (step c) (fun _ _ => True) {} s

end Gem5Gpu.DRAM.Ctrl
