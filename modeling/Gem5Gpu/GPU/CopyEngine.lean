import Gem5Gpu.Lib.Machine
import Mathlib.Data.Multiset.AddSub
import Mathlib.Algebra.Group.Nat.Defs

/-!
# The copy engine

`GPUCopyEngine` copies a range of virtual memory line by line.  `tryRead` and
`tryWrite` cut the range at cache lines, every request is translated and sent
through a port, and `recvPacket` collects the answers.  Reads come back in any
order: `readsDone` marks the bytes that arrived and `readDone` is the length of
the prefix that is complete, which is what `tryWrite` may send.

`State` has the fields of the object and, below them, what is under way outside
of it: the translations, the requests that the memory accepted, the retries that
the peers of the ports owe, and a log of the operation.  An event is one entry
into the object.  The environment decides when a translation ends, whether
`sendTimingReq` accepts a packet, and what a read returns; these choices are
arguments of the events.

The DTB pointers are set and cleared together with the port pointers and are
left out, as are the statistics.
-/

namespace Gem5Gpu.GPU.CopyEngine

open Lib

abbrev Byte := BitVec 8

/-- The parameters.  `cacheLineSize` is a power of two that fits into an
`unsigned`, and `buffering` counts lines. -/
structure Config where
  lineBits : ℕ
  lineBits_le : lineBits ≤ 31
  buffering : ℕ

namespace Config

def cacheLineSize (c : Config) : ℕ := 2 ^ c.lineBits

def bufferDepth (c : Config) : ℕ := c.buffering * c.cacheLineSize % 2 ^ 32

end Config

inductive Mode
  | Read
  | Write
deriving DecidableEq, Repr

inductive PortId
  | host
  | device
deriving DecidableEq, Repr

/-- `stream_operation_type`, the cases that `memcpy` accepts. -/
inductive CopyType
  | host_to_device
  | device_to_host
  | device_to_device
deriving DecidableEq, Repr

/-- A request.  The data of a write is the `ExtraData` of the request. -/
structure Request where
  mode : Mode
  vaddr : ℕ
  size : ℕ
  data : List Byte
deriving DecidableEq

/-- One call of `memcpy` or `memset`. -/
inductive Op
  | memcpy (src dst length : ℕ) (type : CopyType)
  | memset (dst : ℕ) (value : BitVec 32) (length : ℕ)
deriving DecidableEq

/-- What the memory saw of an operation when it ended: the answered reads with
their data, the writes it accepted, and the requests it had not answered. -/
structure Record where
  op : Op
  returned : Multiset Request
  written : Multiset Request
  unanswered : Multiset Request

inductive Fault
  /-- The environment cannot do this now. -/
  | disabled
  | assertLength
  | assertRunning
  | assertRetry
  | assertRead
  | nullPort
deriving DecidableEq, Repr

structure State where
  /-- `outstandingPkts` of the two ports. -/
  outstandingPkts : PortId → List Request
  readPort : Option PortId
  writePort : Option PortId
  /-- `tickEvent.scheduled()` -/
  tickScheduled : Bool
  needToRead : Bool
  needToWrite : Bool
  running : Bool
  currentReadAddr : ℕ
  currentWriteAddr : ℕ
  beginAddr : ℕ
  readLeft : ℕ
  writeLeft : ℕ
  readDone : ℕ
  writeDone : ℕ
  totalLength : ℕ
  curData : ℕ → Byte
  readsDone : ℕ → Bool
  -- outside of the object
  translating : Multiset Request
  memory : Multiset Request
  /-- The peer of a port refused a packet and has not asked for a retry since. -/
  owesRetry : PortId → Bool
  op : Op
  returned : Multiset Request
  written : Multiset Request
  finished : List Record

def State.initial : State where
  outstandingPkts := fun _ => []
  readPort := none
  writePort := none
  tickScheduled := false
  needToRead := false
  needToWrite := false
  running := false
  currentReadAddr := 0
  currentWriteAddr := 0
  beginAddr := 0
  readLeft := 0
  writeLeft := 0
  readDone := 0
  writeDone := 0
  totalLength := 0
  curData := fun _ => 0
  readsDone := fun _ => false
  translating := 0
  memory := 0
  owesRetry := fun _ => false
  op := .memset 0 0 0
  returned := 0
  written := 0
  finished := []

/-! ## Ports -/

def State.isStalled (s : State) (p : PortId) : Bool := !(s.outstandingPkts p).isEmpty

def setStalled (p : PortId) (r : Request) (s : State) : State :=
  { s with outstandingPkts :=
      Function.update s.outstandingPkts p (s.outstandingPkts p ++ [r]) }

/-- The peer takes a packet. -/
def accept (r : Request) (s : State) : State :=
  { s with
    memory := r ::ₘ s.memory
    written := if r.mode = .Write then r ::ₘ s.written else s.written }

def scheduleTick (s : State) : State := { s with tickScheduled := true }

/-- The peer of a port refuses a packet, and will ask for a retry. -/
def refuse (p : PortId) (s : State) : State :=
  { s with owesRetry := Function.update s.owesRetry p true }

/-- `accepted` is the answer of `sendTimingReq`, which a stalled port does not ask. -/
def sendPacket (p : PortId) (r : Request) (accepted : Bool) (s : State) : State :=
  if s.isStalled p then setStalled p r s
  else if accepted then accept r s
  else setStalled p r (refuse p s)

/-- The loop of `recvReqRetry`, in which the peer takes `n` more packets and refuses
the next. -/
def resend (p : PortId) : ℕ → State → State
  | 0, s => if s.isStalled p then refuse p s else s
  | n + 1, s =>
    match s.outstandingPkts p with
    | [] => s
    | r :: rest =>
      resend p n (scheduleTick (accept r
        { s with outstandingPkts := Function.update s.outstandingPkts p rest }))

def recvReqRetry (p : PortId) (n : ℕ) (s : State) : Except Fault State := do
  check (s.outstandingPkts p ≠ []) .assertRetry
  return resend p n s

/-- Follow a port pointer. -/
def deref (p : Option PortId) : Except Fault PortId :=
  match p with
  | some p => .ok p
  | none => .error .nullPort

/-- A fault of the translation panics; the environment has none. -/
def finishTranslation (r : Request) (accepted : Bool) (s : State) : Except Fault State := do
  let p ← deref (match r.mode with
    | .Read => s.readPort
    | .Write => s.writePort)
  return sendPacket p r accepted s

/-- The TLB ends the translation at once, with the answer of `sendTimingReq`, or
later. -/
def beginTranslateTiming (r : Request) (now : Option Bool) (s : State) :
    Except Fault State :=
  match now with
  | some accepted => finishTranslation r accepted s
  | none => return { s with translating := r ::ₘ s.translating }

/-! ## The engine -/

/-- The size of the next request: up to the next line, or what is left.  For a
line of `2 ^ 31` bytes the `int size` is negative and `size - 1` wraps to
`2 ^ 31 - 1`, the value it has here. -/
def chunk (c : Config) (addr left : ℕ) : ℕ :=
  let size := if addr % c.cacheLineSize ≠ 0 then
      c.cacheLineSize - addr % c.cacheLineSize
    else c.cacheLineSize
  if size - 1 < left then size else left

def tryRead (c : Config) (now : Option Bool) (s : State) : Except Fault State := do
  if s.readLeft = 0 then
    return s
  let size := chunk c s.currentReadAddr s.readLeft
  let s ← beginTranslateTiming ⟨.Read, s.currentReadAddr, size, []⟩ now s
  let s := { s with
    currentReadAddr := (s.currentReadAddr + size) % 2 ^ 64
    readLeft := s.readLeft - size }
  if s.readLeft = 0 then
    return scheduleTick { s with needToRead := false }
  let p ← deref s.readPort
  return if s.isStalled p then s else scheduleTick s

def tryWrite (c : Config) (now : Option Bool) (s : State) : Except Fault State := do
  if s.writeLeft = 0 then
    return s
  let size := chunk c s.currentWriteAddr s.writeLeft
  if s.readDone < size + (s.totalLength - s.writeLeft) then
    return s
  check (s.totalLength - s.writeLeft + size ≤ s.readDone) .assertRead
  let start := s.totalLength - s.writeLeft
  let data := (List.range size).map fun j => s.curData (start + j)
  let s ← beginTranslateTiming ⟨.Write, s.currentWriteAddr, size, data⟩ now s
  let s := { s with
    currentWriteAddr := (s.currentWriteAddr + size) % 2 ^ 64
    writeLeft := s.writeLeft - size }
  return if s.writeLeft = 0 then scheduleTick s else s

def buffersFull (c : Config) (s : State) : Bool :=
  let amount_buffered := (s.readDone - (s.totalLength - s.writeLeft)) % 2 ^ 32
  decide (0 < c.bufferDepth) && decide (c.bufferDepth < amount_buffered)

def tick (c : Config) (read write : Option Bool) (s : State) : Except Fault State := do
  if !s.running then
    return s
  let rp ← deref s.readPort
  let wp ← deref s.writePort
  if s.isStalled rp && s.isStalled wp then
    return s
  let s ← (if s.needToRead && !s.isStalled rp && !buffersFull c s then tryRead c read s
    else pure s)
  if s.needToWrite && !s.isStalled wp && decide (s.totalLength - s.writeLeft < s.readDone) then
    tryWrite c write s
  else return s

def finishMemcpy (s : State) : State :=
  { s with
    running := false
    readPort := none
    writePort := none
    finished := s.finished ++ [⟨s.op, s.returned, s.written, s.memory⟩] }

/-- The loop that moves `readDone` over the bytes that arrived; `n` is the number
of bytes left. -/
def contiguous (done : ℕ → Bool) : ℕ → ℕ → ℕ
  | 0, r => r
  | n + 1, r => if done r then contiguous done n (r + 1) else r

/-- The distance of an address from the start of the range, in 64 bits. -/
def distance (base addr : ℕ) : ℕ := (addr + 2 ^ 64 - base % 2 ^ 64) % 2 ^ 64

/-- An answer.  The data of a read comes with the packet. -/
def recvPacket (r : Request) (s : State) : State :=
  match r.mode with
  | .Read =>
    let off := distance s.beginAddr r.vaddr
    let s := { s with
      curData := fun i => if off ≤ i ∧ i < off + r.size then r.data.getD (i - off) 0
        else s.curData i
      readsDone := fun i => decide (off ≤ i ∧ i < off + r.size) || s.readsDone i }
    let s := if s.readDone < s.totalLength then scheduleTick { s with needToWrite := true }
      else s
    let s := { s with
      readDone := contiguous s.readsDone (s.totalLength - s.readDone) s.readDone }
    if s.totalLength ≤ s.readDone then { s with needToRead := false } else s
  | .Write =>
    let s := { s with writeDone := s.writeDone + r.size }
    if s.totalLength ≤ s.writeDone then
      finishMemcpy { s with needToWrite := false }
    else scheduleTick s

def CopyType.readPort : CopyType → PortId
  | .host_to_device => .host
  | .device_to_host => .device
  | .device_to_device => .device

def CopyType.writePort : CopyType → PortId
  | .host_to_device => .device
  | .device_to_host => .host
  | .device_to_device => .device

def memcpy (src dst length : ℕ) (type : CopyType) (s : State) : Except Fault State := do
  check (0 < length) .assertLength
  check (s.running = false) .assertRunning
  return scheduleTick { s with
    readPort := some type.readPort
    writePort := some type.writePort
    running := true
    needToRead := true
    needToWrite := false
    currentReadAddr := src
    currentWriteAddr := dst
    beginAddr := src
    readLeft := length
    writeLeft := length
    totalLength := length
    readDone := 0
    writeDone := 0
    curData := fun _ => 0
    readsDone := fun _ => false
    op := .memcpy src dst length type
    returned := 0
    written := 0 }

def memset (dst : ℕ) (value : BitVec 32) (length : ℕ) (s : State) : Except Fault State := do
  check (s.running = false ∧ s.readPort = none) .assertRunning
  check (0 < length) .assertLength
  return scheduleTick { s with
    readPort := some .host
    writePort := some .device
    running := true
    needToRead := false
    needToWrite := true
    currentWriteAddr := dst
    readLeft := 0
    writeLeft := length
    totalLength := length
    readDone := length
    writeDone := 0
    curData := fun _ => value.setWidth 8
    readsDone := fun _ => true
    op := .memset dst value length
    returned := 0
    written := 0 }

/-! ## Events -/

inductive Event
  | memcpy (src dst length : ℕ) (type : CopyType)
  | memset (dst : ℕ) (value : BitVec 32) (length : ℕ)
  /-- `tickEvent` fires.  The arguments say what becomes of the translations that
  the two tries begin. -/
  | tick (read write : Option Bool)
  /-- A translation ends, and the port accepts the packet or not. -/
  | translated (r : Request) (accepted : Bool)
  /-- The peer of a port asks for the retry it owes and takes up to `n` packets. -/
  | retry (p : PortId) (n : ℕ)
  /-- The memory answers a request.  `data` is what a read returns. -/
  | response (r : Request) (data : List Byte)

/-- The packet that answers `r`. -/
def Request.answer (r : Request) (data : List Byte) : Request :=
  match r.mode with
  | .Read => { r with data := data }
  | .Write => r

def step (c : Config) (s : State) : Event → Except Fault State
  | .memcpy src dst length type => memcpy src dst length type s
  | .memset dst value length => memset dst value length s
  | .tick read write => do
    check (s.tickScheduled = true) .disabled
    tick c read write { s with tickScheduled := false }
  | .translated r accepted => do
    check (r ∈ s.translating) .disabled
    finishTranslation r accepted { s with translating := s.translating.erase r }
  | .retry p n => do
    check (s.owesRetry p = true) .disabled
    recvReqRetry p n { s with owesRetry := Function.update s.owesRetry p false }
  | .response r data => do
    check (r ∈ s.memory ∧ (r.mode = .Read → data.length = r.size)) .disabled
    let s := { s with
      memory := s.memory.erase r
      returned := if r.mode = .Read then r.answer data ::ₘ s.returned else s.returned }
    return recvPacket (r.answer data) s

/-- A call with a length that fits into an `int`, on addresses of 64 bits. -/
def Event.InRange : Event → Prop
  | .memcpy src dst length _ => src < 2 ^ 64 ∧ dst < 2 ^ 64 ∧ length < 2 ^ 31
  | .memset dst _ length => dst < 2 ^ 64 ∧ length < 2 ^ 31
  | _ => True

instance (e : Event) : Decidable e.InRange := by
  cases e <;> unfold Event.InRange <;> infer_instance

/-- The states of all runs of the engine. -/
abbrev Reaches (c : Config) (s : State) : Prop :=
  Reach (step c) (fun _ e => e.InRange) .initial s

end Gem5Gpu.GPU.CopyEngine
