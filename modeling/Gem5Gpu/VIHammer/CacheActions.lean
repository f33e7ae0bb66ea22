import Gem5Gpu.Lib.Fallible
import Gem5Gpu.VIHammer.Msg

/-!
# Actions that the two cache controllers share

The CPU cache and the GPU L2 cache run the same hammer protocol, and most of
their actions have the same text.  `Line` is what a controller keeps for one
block, over the type `S` of its states, and `Ctx` is a line in the middle of a
transition: what has been sent, and whether the message has been dequeued.

Each definition below is one such action, or the common part of a few actions
that differ in the type of the message they send or in where the data comes
from.
-/

namespace Gem5Gpu.VIHammer

open Lib

variable {S ι : Type} {L : ℕ}

/-- The cache memory of a CPU cache that holds an entry. -/
inductive Level
  | L1D | L1I | L2
  deriving DecidableEq

/-- A cache entry.  The fields after `dataBlk` are those of CPU caches. -/
structure Entry (S : Type) (L : ℕ) where
  cacheState : S
  dirty : Bool := false
  dataBlk : DataBlock L := DataBlock.clear L
  level : Level := .L2
  fromL2 : Bool := false
  atomicAccessed : Bool := false
  /-- `m_locked`: the sequencer of this cache has locked the line. -/
  locked : Bool := false
  deriving DecidableEq

/-- A TBE.  `write` is the `DirtyDataBlk`, `Offset` and `Size` of a GPU L2 cache. -/
structure TBE (S ι : Type) (L : ℕ) where
  tbeState : S
  dataBlk : DataBlock L := DataBlock.clear L
  dirty : Bool := false
  numPendingMsgs : ℤ := 0
  sharers : Bool := false
  appliedSilentAcks : Bool := false
  lastResponder : MachineID ι := .unset
  curOwner : MachineID ι := .unset
  initialRequestTime : ℕ := 0
  forwardRequestTime : ℕ := 0
  write : Write L := ⟨DataBlock.clear L, 0, 0⟩
  deriving DecidableEq

/-- `RubyRequestType`, as the request table of a sequencer keeps it. -/
inductive RubyRequestType
  | LD | IFETCH | ST | RMW_Read | Locked_RMW_Read
  /-- With `isSwap` of its packet. -/
  | Locked_RMW_Write (swap : Bool)
  | Load_Linked | Store_Conditional | FLUSH
  deriving DecidableEq

namespace RubyRequestType

/-- The requests that wait for `writeCallback`. -/
def isWrite : RubyRequestType → Bool
  | .LD | .IFETCH => false
  | .ST | .RMW_Read | .Locked_RMW_Read | .Locked_RMW_Write _ | .Load_Linked
  | .Store_Conditional | .FLUSH => true

/-- The requests that the cache sees as `ATOMIC`. -/
def isAtomic : RubyRequestType → Bool
  | .Load_Linked | .Store_Conditional => true
  | .Locked_RMW_Write swap => swap
  | .LD | .IFETCH | .ST | .RMW_Read | .Locked_RMW_Read | .FLUSH => false

end RubyRequestType

/-- `SequencerRequest` -/
structure SequencerRequest (L : ℕ) where
  type : RubyRequestType
  write : Write L
  deriving DecidableEq

/-- A block at a cache controller.  `outstanding` is the entry of the line in the
request tables of the sequencer, which accepts one request for a line at a time,
and `mandatory` says that the request is in the mandatory queue. -/
structure Line (S ι : Type) (L : ℕ) where
  entry : Option (Entry S L) := none
  tbe : Option (TBE S ι L) := none
  outstanding : Option (SequencerRequest L) := none
  mandatory : Bool := false
  deriving DecidableEq

/-- A line during a transition. -/
structure Ctx (S ι : Type) (L : ℕ) extends Line S ι L where
  sent : List (Send ι L) := []
  dequeued : Bool := false

/-- What an action reads of its surroundings. -/
structure Env (ι : Type) where
  machineID : ι
  /-- The number of CPU caches and GPU L2 caches. -/
  machineCount : ℕ
  noMigAtomic : Bool := true
  curCycle : ℕ

/-- Run the actions of a transition in order. -/
def runActions {A C : Type} (act : A → C → Except Fault C) : List A → C → Except Fault C
  | [], c => pure c
  | a :: as, c => do
    let c ← act a c
    runActions act as c

namespace Line

/-- `getState`: the state of the TBE, else of the entry, else `I`. -/
def getState (i : S) (l : Line S ι L) : S :=
  match l.tbe with
  | some t => t.tbeState
  | none =>
    match l.entry with
    | some e => e.cacheState
    | none => i

/-- `setState` and `setAccessPermission`, with `invalid` for the states of
`AccessPermission:Invalid`, in which `changePermission` drops the lock. -/
def setState (invalid : S → Bool) (s : S) (l : Line S ι L) : Line S ι L :=
  { l with
    tbe := l.tbe.map fun t => { t with tbeState := s }
    entry := l.entry.map fun e =>
      { e with cacheState := s, locked := e.locked && !invalid s } }

end Line

namespace Ctx

variable (c : Ctx S ι L)

/-- `assert(is_valid(cache_entry))` -/
def getEntry : Except Fault (Entry S L) :=
  match c.entry with
  | some e => pure e
  | none => throw .assertion

/-- `assert(is_valid(tbe))` -/
def getTBE : Except Fault (TBE S ι L) :=
  match c.tbe with
  | some t => pure t
  | none => throw .assertion

def send (m : Send ι L) : Ctx S ι L := { c with sent := c.sent ++ [m] }

/-- Show a load or a store to the outside. -/
def report (cb : Option (Callback ι L)) : Ctx S ι L :=
  { c with sent := c.sent ++ (cb.map Send.callback).toList }

def dequeue : Ctx S ι L := { c with dequeued := true }

def setEntry (e : Entry S L) : Ctx S ι L := { c with entry := some e }

def setTBE (t : TBE S ι L) : Ctx S ι L := { c with tbe := some t }

/-! ## Requests to the directory -/

variable (env : Env ι)

/-- `a_issueGETS`, `b_issueGETX` and `bf_issueGETF`: one answer from each other
cache and one from the memory. -/
def issueGet (type : CoherenceRequestType) : Except Fault (Ctx S ι L) := do
  let t ← c.getTBE
  pure ((c.setTBE { t with numPendingMsgs := env.machineCount }).send (.request
    { type := type
      requestor := .cache env.machineID
      initialRequestTime := env.curCycle }))

/-- `d_issuePUT` and `df_issuePUTF` -/
def issuePut (type : CoherenceRequestType) : Ctx S ι L :=
  c.send (.request { type := type, requestor := .cache env.machineID })

/-! ## Answers to forwarded requests -/

/-- An answer with the times and the silent acks of the request `m`. -/
def answer (m : RequestMsg ι) (type : CoherenceResponseType) (acks : ℤ)
    (dataBlk : DataBlock L) (dirty : Bool) : ResponseMsg ι L where
  type := type
  sender := .cache env.machineID
  dataBlk := dataBlk
  dirty := dirty
  acks := acks
  silentAcks := m.silentAcks
  initialRequestTime := m.initialRequestTime
  forwardRequestTime := m.forwardRequestTime

/-- The acks of a data response: it stands for all caches when the probe was
directed at this one, and else also for the memory. -/
def dataAcks (m : RequestMsg ι) : ℤ :=
  if m.directedProbe then env.machineCount else 2

/-- `c_sendExclusiveData`, `e_sendData` and `ee_sendDataShared` -/
def sendData (m : RequestMsg ι) (type : CoherenceResponseType) :
    Except Fault (Ctx S ι L) := do
  let e ← c.getEntry
  pure (c.send (.response m.requestor (answer env m type (dataAcks env m) e.dataBlk e.dirty)))

/-- `ct_sendExclusiveDataFromTBE` and `et_sendDataSharedFromTBE` -/
def sendDataFromTBE (m : RequestMsg ι) (type : CoherenceResponseType) :
    Except Fault (Ctx S ι L) := do
  let t ← c.getTBE
  pure (c.send (.response m.requestor (answer env m type (dataAcks env m) t.dataBlk t.dirty)))

/-- `q_sendDataFromTBEToCache` and `sq_sendSharedDataFromTBEToCache` -/
def sendDataFromTBEToCache [DecidableEq ι] (env : Env ι) (m : RequestMsg ι)
    (type : CoherenceResponseType) : Except Fault (Ctx S ι L) := do
  check (m.requestor ≠ .cache env.machineID) .assertion
  c.sendDataFromTBE env m type

/-- `em_sendDataSharedMultiple` -/
def sendDataSharedMultiple (m : RequestMsg ι) : Except Fault (Ctx S ι L) := do
  let e ← c.getEntry
  pure (c.send (.multicast m.mergedRequestors
    (answer env m .DATA_SHARED env.machineCount e.dataBlk e.dirty)))

/-- `emt_sendDataSharedMultipleFromTBE` and `qm_sendDataFromTBEToCache` -/
def sendDataSharedMultipleFromTBE (m : RequestMsg ι) : Except Fault (Ctx S ι L) := do
  let t ← c.getTBE
  pure (c.send (.multicast m.mergedRequestors
    (answer env m .DATA_SHARED env.machineCount t.dataBlk t.dirty)))

/-- `f_sendAck` and `ff_sendAckShared` -/
def sendAck (m : RequestMsg ι) (type : CoherenceResponseType) :
    Except Fault (Ctx S ι L) := do
  check (m.directedProbe = false) .assertion
  pure (c.send (.response m.requestor (answer env m type 1 (DataBlock.clear L) false)))

/-! ## Messages on the unblock network -/

/-- `g_sendUnblock` and `gm_sendUnblockM` -/
def sendUnblock (type : CoherenceResponseType) : Ctx S ι L :=
  c.send (.unblock { type := type, sender := .cache env.machineID })

/-- `gs_sendUnblockS` -/
def sendUnblockS : Except Fault (Ctx S ι L) := do
  let t ← c.getTBE
  pure (c.send (.unblock
    { type := .UNBLOCKS, sender := .cache env.machineID, curOwner := t.curOwner }))

/-- `qq_sendDataFromTBEToMemory` and `t_sendExclusiveDataFromTBEToMemory` -/
def sendDataFromTBEToMemory (clean dirty : CoherenceResponseType) :
    Except Fault (Ctx S ι L) := do
  let t ← c.getTBE
  pure (c.send (.unblock
    { type := if t.dirty then dirty else clean
      sender := .cache env.machineID
      dataBlk := t.dataBlk
      dirty := t.dirty }))

/-! ## The TBE -/

/-- `i_allocateTBE`, with the assertion of `TBETable::allocate` -/
def allocateTBE (s : S) : Except Fault (Ctx S ι L) := do
  let e ← c.getEntry
  check (c.tbe.isNone) .assertion
  pure (c.setTBE { tbeState := s, dataBlk := e.dataBlk, dirty := e.dirty })

/-- `s_deallocateTBE`, with the assertion of `TBETable::deallocate` -/
def deallocateTBE : Except Fault (Ctx S ι L) := do
  let _ ← c.getTBE
  pure { c with tbe := none }

/-- `m_decrementNumberOfMessages` -/
def decrementNumberOfMessages (m : ResponseMsg ι L) : Except Fault (Ctx S ι L) := do
  check (0 ≤ m.acks) .assertion
  let t ← c.getTBE
  check (t.initialRequestTime = 0 ∨ m.initialRequestTime = 0 ∨
    t.initialRequestTime = m.initialRequestTime) .assertion
  check (t.forwardRequestTime = 0 ∨ m.forwardRequestTime = 0 ∨
    t.forwardRequestTime = m.forwardRequestTime) .assertion
  pure (c.setTBE { t with
    numPendingMsgs :=
      (if t.appliedSilentAcks then t.numPendingMsgs
       else t.numPendingMsgs - m.silentAcks) - m.acks
    appliedSilentAcks := true
    lastResponder := m.sender
    initialRequestTime :=
      if m.initialRequestTime = 0 then t.initialRequestTime else m.initialRequestTime
    forwardRequestTime :=
      if m.forwardRequestTime = 0 then t.forwardRequestTime else m.forwardRequestTime })

/-- `p_decrementNumberOfMessagesByOne` and `pp_incrementNumberOfMessagesByOne` -/
def addPendingMsgs (k : ℤ) : Except Fault (Ctx S ι L) := do
  let t ← c.getTBE
  pure (c.setTBE { t with numPendingMsgs := t.numPendingMsgs + k })

/-- `r_setSharerBit` -/
def setSharerBit : Except Fault (Ctx S ι L) := do
  let t ← c.getTBE
  pure (c.setTBE { t with sharers := true })

/-- `uo_updateCurrentOwner` -/
def updateCurrentOwner (m : ResponseMsg ι L) : Except Fault (Ctx S ι L) := do
  let t ← c.getTBE
  pure (c.setTBE { t with curOwner := m.sender })

/-- `o_checkForCompletion` -/
def checkForCompletion : Except Fault (Ctx S ι L) := do
  let t ← c.getTBE
  if t.numPendingMsgs = 0 then
    pure (c.send (.trigger (if t.sharers then .ALL_ACKS else .ALL_ACKS_NO_SHARERS)))
  else
    pure c

/-! ## The data of the entry -/

/-- `u_writeDataToCache` -/
def writeDataToCache (m : ResponseMsg ι L) : Except Fault (Ctx S ι L) := do
  let e ← c.getEntry
  pure (c.setEntry { e with dataBlk := m.dataBlk, dirty := m.dirty })

/-- `v_writeDataToCacheVerify` -/
def writeDataToCacheVerify (m : ResponseMsg ι L) : Except Fault (Ctx S ι L) := do
  let e ← c.getEntry
  check (e.dataBlk = m.dataBlk) .assertion
  pure (c.setEntry { e with dataBlk := m.dataBlk, dirty := m.dirty || e.dirty })

end Ctx

end Gem5Gpu.VIHammer
