import Gem5Gpu.VIHammer.CacheActions
import Gem5Gpu.VIHammer.Directory
import Mathlib.Data.Fintype.Card

/-!
# What the actions of the directory do

`Action.run` is the body of each action of `VI_hammer-dir.sm`, for all settings
of `probe_filter_enabled` and `full_bit_dir_enabled`.
-/

namespace Gem5Gpu.VIHammer.Directory

open Lib Ruby

variable {ι : Type} [DecidableEq ι] [Fintype ι] {L : ℕ}

/-- The two parameters of the directory that select how it tracks copies. -/
structure Config where
  probe_filter_enabled : Bool
  full_bit_dir_enabled : Bool
  deriving DecidableEq

variable (cfg : Config)

/-- There is a probe filter. -/
def Config.filter : Bool :=
  cfg.probe_filter_enabled || cfg.full_bit_dir_enabled

/-- `PfEntry` -/
structure PfEntry (ι : Type) where
  pfState : State
  owner : MachineID ι := .unset
  sharers : Finset ι := ∅
  deriving DecidableEq

/-- The TBE of the directory.  `heap` is that of the request it is allocated for. -/
structure DirTBE (ι : Type) (L : ℕ) where
  tbeState : State := .E
  responseType : CoherenceResponseType := .NULL
  acks : ℤ := 0
  silentAcks : ℤ := 0
  dmaDataBlk : DataBlock L := DataBlock.clear L
  dataBlk : DataBlock L := DataBlock.clear L
  len : ℕ := 0
  heap : DataBlock L := DataBlock.clear L
  dmaRequestor : MachineID ι := .unset
  getSRequestors : Finset ι := ∅
  numPendingMsgs : ℤ := 0
  cacheDirty : Bool := false
  sharers : Bool := false
  owned : Bool := false
  deriving DecidableEq

/-- A block at the directory. -/
structure DirLine (ι : Type) (L : ℕ) where
  directoryState : State := .E
  pf : Option (PfEntry ι) := none
  tbe : Option (DirTBE ι L) := none
  deriving DecidableEq

/-- What the directory sends in a transition. -/
inductive DirSend (ι : Type) (L : ℕ)
  | forward (dest : Finset ι) (m : RequestMsg ι)
  | response (dest : MachineID ι) (m : ResponseMsg ι L)
  | dmaResponse (m : DMAResponseMsg L)
  | memory (r : MemoryRequest ι L)
  | trigger (t : TriggerType)

/-- A block at the directory during a transition. -/
structure DirCtx (ι : Type) (L : ℕ) extends DirLine ι L where
  sent : List (DirSend ι L) := []
  dequeued : Bool := false

/-- The message at the head of the port that triggers a transition. -/
inductive Input (ι : Type) (L : ℕ)
  | trigger (t : TriggerType)
  | unblock (m : ResponseMsg ι L)
  | response (m : ResponseMsg ι L)
  | memory (m : MemoryMsg ι L)
  | request (m : RequestMsg ι)
  | dma (m : DMARequestMsg L)

namespace Input

/-- `peek(requestQueue_in, RequestMsg)` -/
def peekRequest : Input ι L → Except Fault (RequestMsg ι)
  | .request m => pure m
  | _ => throw .unexpected

/-- `peek(unblockNetwork_in, ResponseMsg)` -/
def peekUnblock : Input ι L → Except Fault (ResponseMsg ι L)
  | .unblock m => pure m
  | _ => throw .unexpected

/-- `peek(responseToDir_in, ResponseMsg)` -/
def peekResponse : Input ι L → Except Fault (ResponseMsg ι L)
  | .response m => pure m
  | _ => throw .unexpected

/-- `peek(memQueue_in, MemoryMsg)`, for the actions that read its data. -/
def peekMemoryData : Input ι L → Except Fault (MachineID ι × DataBlock L)
  | .memory (.MEMORY_READ r d) => pure (r, d)
  | _ => throw .unexpected

/-- `peek(dmaRequestQueue_in, DMARequestMsg)` -/
def peekDma : Input ι L → Except Fault (DMARequestMsg L)
  | .dma m => pure m
  | _ => throw .unexpected

end Input

namespace DirLine

/-- `getState`, with its assertion -/
def getState (l : DirLine ι L) : Except Fault State :=
  match l.tbe with
  | some t => pure t.tbeState
  | none => do
    match l.pf with
    | some p => check (cfg.filter = true → p.pfState = l.directoryState) .assertion
    | none => pure ()
    pure l.directoryState

/-- `setState`, with its assertions -/
def setState (s : State) (l : DirLine ι L) : Except Fault (DirLine ι L) := do
  check (cfg.filter = true → s = .NX ∨ s = .NO ∨ s = .S ∨ s = .O → l.pf.isSome) .assertion
  check (cfg.filter = true → s = .E → l.pf.isNone) .assertion
  check (s = .E ∨ s = .NX ∨ s = .NO ∨ s = .S ∨ s = .O → l.tbe.isNone) .assertion
  pure
    { directoryState := s
      pf := if cfg.filter then l.pf.map fun p => { p with pfState := s } else l.pf
      tbe := l.tbe.map fun t => { t with tbeState := s } }

end DirLine

namespace DirCtx

variable (c : DirCtx ι L)

/-- `assert(is_valid(tbe))` -/
def getTBE : Except Fault (DirTBE ι L) :=
  match c.tbe with
  | some t => pure t
  | none => throw .assertion

/-- `assert(is_valid(cache_entry))` -/
def getPf : Except Fault (PfEntry ι) :=
  match c.pf with
  | some p => pure p
  | none => throw .assertion

def send (m : DirSend ι L) : DirCtx ι L := { c with sent := c.sent ++ [m] }

def dequeue : DirCtx ι L := { c with dequeued := true }

def setTBE (t : DirTBE ι L) : DirCtx ι L := { c with tbe := some t }

def setPf (p : PfEntry ι) : DirCtx ι L := { c with pf := some p }

/-- `TBETable::allocate` -/
def allocate (t : DirTBE ι L) : Except Fault (DirCtx ι L) := do
  check (c.tbe.isNone) .assertion
  pure (c.setTBE t)

end DirCtx

/-- What an action reads of its surroundings. -/
structure DirEnv where
  cfg : Config
  curCycle : ℕ

/-- The number of CPU caches and GPU L2 caches. -/
def machineCount (ι : Type) [Fintype ι] : ℤ := Fintype.card ι

variable (env : DirEnv)

/-- The forwarded form of a request. -/
def forwarded (m : RequestMsg ι) : RequestMsg ι where
  type := m.type
  requestor := m.requestor
  initialRequestTime := m.initialRequestTime
  forwardRequestTime := env.curCycle

/-- The sharers of the full-bit directory, or all caches. -/
def forwardSet (c : DirCtx ι L) : Except Fault (Finset ι) :=
  if cfg.full_bit_dir_enabled then do
    let p ← c.getPf
    pure p.sharers
  else pure Finset.univ

/-- `fc_forwardRequestConditionalOwner` and the second half of
`nofc_forwardRequestConditionalOwner` -/
def forwardToOwner (m : RequestMsg ι) (c : DirCtx ι L) : Except Fault (DirCtx ι L) :=
  if env.cfg.filter then do
    let p ← c.getPf
    pure (c.send (.forward p.owner.caches { forwarded env m with directedProbe := true }))
  else
    pure (c.send (.forward (Finset.univ \ m.requestor.caches) (forwarded env m)))

/-- `a_sendWriteBackAck`, `b_sendWriteBackNack` and the message of `oc_sendBlockAck` -/
def sendToRequestor (type : CoherenceRequestType) (m : RequestMsg ι) (c : DirCtx ι L) :
    DirCtx ι L :=
  c.send (.forward m.requestor.caches { type := type, requestor := m.requestor })

/-- `f_forwardReadFromDma` and `f_forwardWriteFromDma` -/
def forwardFromDma (type : CoherenceRequestType) (c : DirCtx ι L) : Except Fault (DirCtx ι L) := do
  let t ← c.getTBE
  if 0 < t.numPendingMsgs then
    pure (c.send (.forward Finset.univ { type := type, requestor := .directory }))
  else pure c

/-- `fb_forwardRequestBcast` -/
def forwardRequestBcast (m : RequestMsg ι) (c : DirCtx ι L) :
    Except Fault (DirCtx ι L) := do
  let sharers ← forwardSet env.cfg c
  if 1 < machineCount ι ∧ (env.cfg.full_bit_dir_enabled = false ∨ 1 < sharers.card ∨
      ¬ (m.requestor.caches.Nonempty ∧ m.requestor.caches ⊆ sharers)) then
    let fwdSet := sharers \ m.requestor.caches
    let silentAcks : ℤ :=
      if env.cfg.full_bit_dir_enabled then machineCount ι - fwdSet.card - 1 else 0
    pure (c.send (.forward fwdSet { forwarded env m with silentAcks := silentAcks }))
  else
    pure (c.send (.response m.requestor
      { type := .ACK
        sender := .directory
        acks := 0
        silentAcks := machineCount ι - 1
        initialRequestTime := m.initialRequestTime
        forwardRequestTime := m.forwardRequestTime }))

/-- `fn_forwardRequestIfNecessary` -/
def forwardRequestIfNecessary (m : RequestMsg ι) (c : DirCtx ι L) :
    Except Fault (DirCtx ι L) := do
  let t ← c.getTBE
  if 1 < machineCount ι ∧ t.acks ≤ 1 then
    let sharers ← forwardSet env.cfg c
    let fwdSet := sharers \ m.requestor.caches
    if env.cfg.full_bit_dir_enabled then
      if 0 < fwdSet.card then
        check (0 < t.silentAcks) .assertion
        pure (c.send (.forward fwdSet { forwarded env m with silentAcks := t.silentAcks }))
      else pure c
    else
      pure (c.send (.forward fwdSet (forwarded env m)))
  else pure c

/-- `ia_invalidateAllRequest` -/
def invalidateAllRequest (c : DirCtx ι L) : Except Fault (DirCtx ι L) := do
  let p ← c.getPf
  if 0 < p.sharers.card ∧ 1 < machineCount ι then
    let dest := if cfg.full_bit_dir_enabled then p.sharers else Finset.univ
    pure (c.send (.forward dest { type := .INV, requestor := .directory }))
  else pure c

/-- `sa_setAcksToOne` -/
def setAcksToOne (m : RequestMsg ι) (c : DirCtx ι L) :
    Except Fault (DirCtx ι L) := do
  let t ← c.getTBE
  if cfg.full_bit_dir_enabled then
    let p ← c.getPf
    let fwdSet := p.sharers \ m.requestor.caches
    if 0 < fwdSet.card then
      pure (c.setTBE { t with acks := 1, silentAcks := machineCount ι - fwdSet.card - 1 })
    else
      pure (c.setTBE { t with acks := machineCount ι, silentAcks := 0 })
  else
    pure (c.setTBE { t with acks := 1 })

/-- The response type of `r_recordDataInTBE` -/
def recordedType (m : RequestMsg ι) (c : DirCtx ι L) :
    Except Fault CoherenceResponseType :=
  if cfg.full_bit_dir_enabled then do
    let p ← c.getPf
    if 0 < (p.sharers \ m.requestor.caches).card then pure .DATA else pure .DATA_EXCLUSIVE
  else pure .DATA

/-- `CoherenceResponseType`s with data -/
def isData : CoherenceResponseType → Bool
  | .DATA | .DATA_SHARED | .DATA_EXCLUSIVE => true
  | _ => false

def Action.run (inp : Input ι L) : Action → DirCtx ι L → Except Fault (DirCtx ι L)
  | .r_setMRU, c =>
    if env.cfg.filter then do
      let _ ← c.getPf
      pure c
    else pure c
  | .auno_assertUnblockerNotOwner, c =>
    if env.cfg.filter then do
      let p ← c.getPf
      let m ← inp.peekUnblock
      check (p.owner ≠ m.sender) .assertion
      check (env.cfg.full_bit_dir_enabled = true → Disjoint m.sender.caches p.sharers) .assertion
      pure c
    else pure c
  | .uo_updateOwnerIfPf, c =>
    if env.cfg.filter then do
      let p ← c.getPf
      let m ← inp.peekUnblock
      pure (c.setPf { p with
        owner := m.sender
        sharers := if env.cfg.full_bit_dir_enabled then m.sender.caches else p.sharers })
    else pure c
  | .us_updateSharerIfFBD, c =>
    if env.cfg.full_bit_dir_enabled then do
      let p ← c.getPf
      let m ← inp.peekUnblock
      pure (c.setPf { p with sharers := p.sharers ∪ m.sender.caches })
    else pure c
  | .a_sendWriteBackAck, c => do
    let m ← inp.peekRequest
    pure (sendToRequestor .WB_ACK m c)
  | .oc_sendBlockAck, c => do
    let m ← inp.peekRequest
    if env.cfg.filter then
      let p ← c.getPf
      if m.requestor = p.owner then pure (sendToRequestor .BLOCK_ACK m c) else pure c
    else pure c
  | .b_sendWriteBackNack, c => do
    let m ← inp.peekRequest
    pure (sendToRequestor .WB_NACK m c)
  | .pfa_probeFilterAllocate, c =>
    if env.cfg.filter then do
      let m ← inp.peekRequest
      check (c.pf.isNone) .assertion
      pure (c.setPf { pfState := .E, owner := m.requestor })
    else pure c
  | .pfd_probeFilterDeallocate, c =>
    if env.cfg.filter then do
      let _ ← c.getPf
      pure { c with pf := none }
    else pure c
  | .ppfd_possibleProbeFilterDeallocate, c =>
    if env.cfg.filter then pure { c with pf := none } else pure c
  | .v_allocateTBE, c => do
    let m ← inp.peekRequest
    c.allocate { dmaRequestor := m.requestor }
  | .vp_allocatePFReplaceInTBE, c => do
    let p ← c.getPf
    let _ ← inp.peekRequest
    c.allocate { dmaRequestor := p.owner }
  | .vd_allocateDmaRequestInTBE, c => do
    let m ← inp.peekDma
    let t : DirTBE ι L :=
      { dmaRequestor := .dma
        responseType := .DATA_EXCLUSIVE
        numPendingMsgs := machineCount ι }
    match m with
    | .READ => c.allocate t
    | .WRITE _ dataBlk len heap =>
      c.allocate { t with dmaDataBlk := dataBlk, len := len, heap := heap }
  | .pa_setPendingMsgsToAll, c => do
    let t ← c.getTBE
    if env.cfg.full_bit_dir_enabled then
      let p ← c.getPf
      pure (c.setTBE { t with numPendingMsgs := p.sharers.card })
    else
      pure (c.setTBE { t with numPendingMsgs := machineCount ι })
  | .po_setPendingMsgsToOne, c => do
    let t ← c.getTBE
    pure (c.setTBE { t with numPendingMsgs := 1 })
  | .w_deallocateTBE, c => do
    let _ ← c.getTBE
    pure { c with tbe := none }
  | .sa_setAcksToOne, c => do
    let m ← inp.peekRequest
    setAcksToOne env.cfg m c
  | .saa_setAcksToAllIfPF, c => do
    let t ← c.getTBE
    if env.cfg.filter then
      pure (c.setTBE { t with acks := machineCount ι, silentAcks := 0 })
    else
      pure (c.setTBE { t with acks := 1 })
  | .m_decrementNumberOfMessages, c => do
    let m ← inp.peekResponse
    let t ← c.getTBE
    check (0 < m.acks) .assertion
    -- a data response has an ack count of 2, but stands for one cache here
    pure (c.setTBE { t with
      numPendingMsgs := t.numPendingMsgs - if isData m.type then 1 else m.acks })
  | .mu_decrementNumberOfUnblocks, c => do
    let m ← inp.peekUnblock
    let t ← c.getTBE
    check (m.type = .UNBLOCKS) .assertion
    pure (c.setTBE { t with numPendingMsgs := t.numPendingMsgs - 1 })
  | .n_popResponseQueue, c => pure c.dequeue
  | .o_checkForCompletion, c => do
    let t ← c.getTBE
    if t.numPendingMsgs = 0 then
      pure (c.send (.trigger
        (if t.sharers then if t.owned then .ALL_ACKS_OWNER_EXISTS else .ALL_ACKS
         else .ALL_ACKS_NO_SHARERS)))
    else pure c
  | .os_checkForMergedGetSCompletion, c => do
    let t ← c.getTBE
    if t.numPendingMsgs = 0 then pure (c.send (.trigger .ALL_UNBLOCKS)) else pure c
  | .sp_setPendingMsgsToMergedSharers, c => do
    let t ← c.getTBE
    pure (c.setTBE { t with numPendingMsgs := t.getSRequestors.card })
  | .spa_setPendingAcksToZeroIfPF, c =>
    if env.cfg.filter then do
      let t ← c.getTBE
      pure (c.setTBE { t with numPendingMsgs := 0 })
    else pure c
  | .sc_signalCompletionIfPF, c => do
    let t ← c.getTBE
    if t.numPendingMsgs = 0 then
      check (env.cfg.filter = true) .assertion
      pure (c.send (.trigger .ALL_ACKS_NO_SHARERS))
    else pure c
  | .d_sendData, c => do
    let (requestor, dataBlk) ← inp.peekMemoryData
    let t ← c.getTBE
    check (0 < t.acks) .assertion
    pure (c.send (.response requestor
      { type := t.responseType
        sender := .directory
        dataBlk := dataBlk
        acks := t.acks
        silentAcks := t.silentAcks }))
  | .dr_sendDmaData, c => do
    let (_, dataBlk) ← inp.peekMemoryData
    let _ ← c.getTBE
    pure (c.send (.dmaResponse (.DATA dataBlk)))
  | .dt_sendDmaDataFromTbe, c => do
    let t ← c.getTBE
    pure (c.send (.dmaResponse (.DATA t.dataBlk)))
  | .da_sendDmaAck, c => do
    let _ ← c.getTBE
    pure (c.send (.dmaResponse .ACK))
  | .rx_recordExclusiveInTBE, c => do
    let t ← c.getTBE
    pure (c.setTBE { t with responseType := .DATA_EXCLUSIVE })
  | .r_recordDataInTBE, c => do
    let m ← inp.peekRequest
    let t ← c.getTBE
    let type ← recordedType env.cfg m c
    pure (c.setTBE { t with responseType := type })
  | .rs_recordGetSRequestor, c => do
    let m ← inp.peekRequest
    let t ← c.getTBE
    pure (c.setTBE { t with getSRequestors := t.getSRequestors ∪ m.requestor.caches })
  | .r_setSharerBit, c => do
    let t ← c.getTBE
    pure (c.setTBE { t with sharers := true })
  | .so_setOwnerBit, c => do
    let t ← c.getTBE
    pure (c.setTBE { t with sharers := true, owned := true })
  | .qf_queueMemoryFetchRequest, c => do
    let m ← inp.peekRequest
    pure (c.send (.memory (.read m.requestor)))
  | .qd_queueMemoryRequestFromDmaRead, c => pure (c.send (.memory (.read .dma)))
  | .fn_forwardRequestIfNecessary, c => do
    let m ← inp.peekRequest
    forwardRequestIfNecessary env m c
  | .ia_invalidateAllRequest, c => invalidateAllRequest env.cfg c
  | .io_invalidateOwnerRequest, c =>
    if 1 < machineCount ι then do
      let p ← c.getPf
      pure (c.send (.forward p.owner.caches
        { type := .INV, requestor := .directory, directedProbe := true }))
    else pure c
  | .fb_forwardRequestBcast, c => do
    let m ← inp.peekRequest
    forwardRequestBcast env m c
  | .fr_forwardMergeReadRequestsToOwner, c => do
    check (1 < machineCount ι) .assertion
    let m ← inp.peekUnblock
    let t ← c.getTBE
    let dest := if m.type = .UNBLOCKS then m.curOwner else m.sender
    pure (c.send (.forward dest.caches
      { type := .MERGED_GETS
        requestor := .unset
        mergedRequestors := t.getSRequestors
        forwardRequestTime := env.curCycle }))
  | .fc_forwardRequestConditionalOwner, c => do
    check (1 < machineCount ι) .assertion
    let m ← inp.peekRequest
    forwardToOwner env m c
  | .nofc_forwardRequestConditionalOwner, c => do
    if 1 < machineCount ι then
      let m ← inp.peekRequest
      if env.cfg.filter then
        let p ← c.getPf
        if m.requestor ≠ p.owner then forwardToOwner env m c else pure c
      else forwardToOwner env m c
    else pure c
  | .f_forwardWriteFromDma, c => forwardFromDma .GETX c
  | .f_forwardReadFromDma, c => forwardFromDma .GETS c
  | .i_popIncomingRequestQueue, c | .j_popIncomingUnblockQueue, c | .l_popMemQueue, c
  | .g_popTriggerQueue, c | .p_popDmaRequestQueue, c => pure c.dequeue
  | .r_recordMemoryData, c => do
    let (_, dataBlk) ← inp.peekMemoryData
    let t ← c.getTBE
    pure (c.setTBE { t with dataBlk := if t.cacheDirty then t.dataBlk else dataBlk })
  | .r_recordCacheData, c => do
    let m ← inp.peekResponse
    let t ← c.getTBE
    pure (c.setTBE { t with cacheDirty := true, dataBlk := m.dataBlk })
  | .a_assertCacheData, c => do
    let t ← c.getTBE
    check (t.cacheDirty = true) .assertion
    pure c
  | .ano_assertNotOwner, c =>
    if env.cfg.filter then do
      let m ← inp.peekRequest
      let p ← c.getPf
      check (p.owner ≠ m.requestor) .assertion
      pure c
    else pure c
  | .ans_assertNotSharer, c =>
    if env.cfg.full_bit_dir_enabled then do
      let m ← inp.peekRequest
      let p ← c.getPf
      check (Disjoint m.requestor.caches p.sharers) .assertion
      pure c
    else pure c
  | .rs_removeSharer, c =>
    if env.cfg.full_bit_dir_enabled then do
      let m ← inp.peekUnblock
      let p ← c.getPf
      check (m.sender.caches.Nonempty ∧ m.sender.caches ⊆ p.sharers) .assertion
      pure (c.setPf { p with sharers := p.sharers \ m.sender.caches })
    else pure c
  | .cs_clearSharers, c =>
    if env.cfg.full_bit_dir_enabled then do
      let m ← inp.peekRequest
      let p ← c.getPf
      pure (c.setPf { p with sharers := m.requestor.caches })
    else pure c
  | .l_queueMemoryWBRequest, c => do
    let m ← inp.peekUnblock
    pure (c.send (.memory (.write m.dataBlk)))
  | .ld_queueMemoryDmaWrite, c => do
    let t ← c.getTBE
    pure (c.send (.memory (.write
      (t.heap.copyPartial { dataBlk := t.dmaDataBlk, offset := 0, size := t.len }))))
  | .ly_queueMemoryWriteFromTBE, c => do
    let t ← c.getTBE
    pure (c.send (.memory (.write t.dataBlk)))
  | .ll_checkIncomingWriteback, c => do
    let m ← inp.peekUnblock
    check (m.dirty = false) .assertion
    pure c
  -- a stalled request stays in its queue
  | .z_stallAndWaitRequest, c | .zd_stallAndWaitDMARequest, c | .k_wakeUpDependents, c =>
    pure c

/-- `doTransition` -/
def doTransition (inp : Input ι L) (e : Event) (l : DirLine ι L) :
    Except Fault (DirCtx ι L) := do
  let s ← l.getState env.cfg
  match Transition.lookup transitions s e with
  | none => throw .invalidTransition
  | some t => do
    let c ← runActions (Action.run env inp) t.actions { toDirLine := l }
    let l ← c.toDirLine.setState env.cfg (t.target s)
    pure { c with toDirLine := l }

/-! ## The input ports -/

/-- `triggerQueue_in` -/
def triggerEvent : TriggerType → Option Event
  | .ALL_ACKS => some .All_acks_and_owner_data
  | .ALL_ACKS_OWNER_EXISTS => some .All_acks_and_shared_data
  | .ALL_ACKS_NO_SHARERS => some .All_acks_and_data_no_sharers
  | .ALL_UNBLOCKS => some .All_Unblocks
  | .L2_to_L1 => none

/-- `unblockNetwork_in` -/
def unblockEvent : CoherenceResponseType → Option Event
  | .UNBLOCK => some .Unblock
  | .UNBLOCKS => some .UnblockS
  | .UNBLOCKM => some .UnblockM
  | .WB_CLEAN => some .Writeback_Clean
  | .WB_DIRTY => some .Writeback_Dirty
  | .WB_EXCLUSIVE_CLEAN => some .Writeback_Exclusive_Clean
  | .WB_EXCLUSIVE_DIRTY => some .Writeback_Exclusive_Dirty
  | .ACK | .ACK_SHARED | .DATA | .DATA_SHARED | .DATA_EXCLUSIVE | .NULL => none

/-- `responseToDir_in` -/
def responseEvent : CoherenceResponseType → Option Event
  | .ACK => some .Ack
  | .ACK_SHARED => some .Shared_Ack
  | .DATA_SHARED => some .Shared_Data
  | .DATA => some .Data
  | .DATA_EXCLUSIVE => some .Exclusive_Data
  | .WB_CLEAN | .WB_DIRTY | .WB_EXCLUSIVE_CLEAN | .WB_EXCLUSIVE_DIRTY | .UNBLOCK
  | .UNBLOCKS | .UNBLOCKM | .NULL => none

/-- `memQueue_in` -/
def memoryEvent : MemoryMsg ι L → Event
  | .MEMORY_READ _ _ => .Memory_Data
  | .MEMORY_WB => .Memory_Ack

/-- `requestQueue_in`, with room in the probe filter. -/
def requestEvent : CoherenceRequestType → Option Event
  | .PUT => some .PUT
  | .PUTF => some .PUTF
  | .GETS => some .GETS
  | .GETX => some .GETX
  | .GETF => some .GETF
  | .MERGED_GETS | .WB_ACK | .WB_NACK | .BLOCK_ACK | .INV => none

/-- `dmaRequestQueue_in` -/
def dmaEvent : DMARequestMsg L → Event
  | .READ => .DMA_READ
  | .WRITE _ _ _ _ => .DMA_WRITE

end Gem5Gpu.VIHammer.Directory
