import Gem5Gpu.VIHammer.CacheActions
import Gem5Gpu.VIHammer.CPUCache

/-!
# What the actions of a CPU cache do

`Action.run` is the body of each action of `VI_hammer-CPUCache.sm`, with the
sequencer behind the callbacks.  `request` and the functions after it are the
input ports: which event a message gives in which state of the three tag arrays.
-/

namespace Gem5Gpu.VIHammer.CPUCache

open Lib Ruby

variable {ι : Type} [DecidableEq ι] {L : ℕ}

/-- The message at the head of the port that triggers a transition. -/
inductive Input (ι : Type) (L : ℕ)
  | trigger (t : TriggerType)
  | response (m : ResponseMsg ι L)
  | forward (m : RequestMsg ι)
  /-- A request in the mandatory queue: the type that its packet gave it. -/
  | mandatory (type : RubyRequestType)
  /-- A request in the mandatory queue to another block, which needs the room of
  this one. -/
  | elsewhere

namespace Input

/-- `peek(responseToCache_in, ResponseMsg)` -/
def peekResponse : Input ι L → Except Fault (ResponseMsg ι L)
  | .response m => pure m
  | _ => throw .unexpected

/-- `peek(forwardToCache_in, RequestMsg)` -/
def peekForward : Input ι L → Except Fault (RequestMsg ι)
  | .forward m => pure m
  | _ => throw .unexpected

/-- `peek(mandatoryQueue_in, RubyRequest)` -/
def peekMandatory : Input ι L → Except Fault RubyRequestType
  | .mandatory type => pure type
  | _ => throw .unexpected

end Input

/-- The states of `AccessPermission:Invalid`. -/
def State.invalid : State → Bool
  | .I | .IR => true
  | _ => false

/-! ## The sequencer -/

/-- `Sequencer::readCallback` -/
def readCallback (env : Env ι) (c : Ctx State ι L) (e : Entry State L) :
    Except Fault (Ctx State ι L) :=
  match c.outstanding with
  | none => throw .assertion
  | some r => do
    check (r.type.isWrite = false) .assertion
    pure (({ c with outstanding := none }).report (some (.load env.machineID e.dataBlk)))

/-- `handleLlsc`: whether the request is reported as a success, which only a
`Store_Conditional` with the lock is. -/
def reportsSuccess (e : Entry State L) : Bool := decide (e.level = .L1D) && e.locked

/-- `handleLlsc`: the lock after a request. -/
def lockAfter (type : RubyRequestType) (e : Entry State L) : Bool :=
  if e.level = .L1D then decide (type = .Load_Linked) else e.locked

/-- `hitCallback`: the block after a request.  A `Store_Conditional` writes its
data also when it fails. -/
def blockAfter (r : SequencerRequest L) (d : DataBlock L) : DataBlock L :=
  match r.type with
  | .ST | .Locked_RMW_Write _ | .Store_Conditional => d.copyPartial r.write
  | .LD | .IFETCH | .RMW_Read | .Locked_RMW_Read | .Load_Linked | .FLUSH => d

/-- What the request shows of itself. -/
def callbackOf (i : ι) (r : SequencerRequest L) (e : Entry State L) : Option (Callback ι L) :=
  match r.type with
  | .ST | .Locked_RMW_Write _ => some (.store i r.write)
  | .Store_Conditional => some (.storeConditional i r.write (reportsSuccess e))
  | .Load_Linked => some (.loadLinked i e.dataBlk)
  | .LD | .IFETCH | .RMW_Read | .Locked_RMW_Read => some (.load i e.dataBlk)
  | .FLUSH => none

/-- `Sequencer::writeCallback`, and `cache_entry.Dirty := true` after it -/
def writeCallback (env : Env ι) (c : Ctx State ι L) (e : Entry State L) (atomic : Bool) :
    Except Fault (Ctx State ι L) :=
  match c.outstanding with
  | none => throw .assertion
  | some r => do
    check (r.type.isWrite = true) .assertion
    pure ((({ c with outstanding := none }).setEntry { e with
        dataBlk := blockAfter r e.dataBlk
        dirty := true
        locked := lockAfter r.type e
        atomicAccessed := e.atomicAccessed || atomic }).report
      (callbackOf env.machineID r e))

/-- `Sequencer::writeCallback` of a flush, which writes no data -/
def flushCallback (c : Ctx State ι L) : Except Fault (Ctx State ι L) :=
  match c.outstanding with
  | none => throw .assertion
  | some r => do
    check (r.type.isWrite = true) .assertion
    pure { c with
      outstanding := none
      entry := c.entry.map fun e => { e with locked := lockAfter r.type e } }

/-! ## The actions -/

/-- The level of the L1 cache that holds the entry. -/
def isL1 (e : Entry State L) : Bool := decide (e.level ≠ .L2)

/-- `ii_allocateL1DCacheBlock` and `jj_allocateL1ICacheBlock` -/
def allocateL1 (level : Level) (c : Ctx State ι L) : Ctx State ι L :=
  match c.entry with
  | none => c.setEntry { cacheState := .I, level := level }
  | some _ => c

/-- `hp_copyFromTBEToL2` and `nb_copyFromTBEToL1` -/
def copyFromTBE (fromL2 : Bool) (c : Ctx State ι L) : Except Fault (Ctx State ι L) := do
  let e ← c.getEntry
  let t ← c.getTBE
  pure (c.setEntry { e with dirty := t.dirty, dataBlk := t.dataBlk, fromL2 := e.fromL2 || fromL2 })

/-- `uf_writeDataToCacheTBE` -/
def writeDataToTBE (m : ResponseMsg ι L) (c : Ctx State ι L) : Except Fault (Ctx State ι L) := do
  let t ← c.getTBE
  pure (c.setTBE { t with dataBlk := m.dataBlk, dirty := m.dirty })

/-- `vt_writeDataToTBEVerify` -/
def writeDataToTBEVerify (m : ResponseMsg ι L) (c : Ctx State ι L) :
    Except Fault (Ctx State ι L) := do
  let t ← c.getTBE
  check (t.dataBlk = m.dataBlk) .assertion
  pure (c.setTBE { t with dataBlk := m.dataBlk, dirty := m.dirty || t.dirty })

def Action.run (env : Env ι) (inp : Input ι L) :
    Action → Ctx State ι L → Except Fault (Ctx State ι L)
  | .a_issueGETS, c => c.issueGet env .GETS
  | .b_issueGETX, c => c.issueGet env .GETX
  | .bf_issueGETF, c => c.issueGet env .GETF
  | .d_issuePUT, c => pure (c.issuePut env .PUT)
  | .df_issuePUTF, c => pure (c.issuePut env .PUTF)
  | .c_sendExclusiveData, c => do c.sendData env (← inp.peekForward) .DATA_EXCLUSIVE
  | .e_sendData, c => do c.sendData env (← inp.peekForward) .DATA
  | .ee_sendDataShared, c => do c.sendData env (← inp.peekForward) .DATA_SHARED
  | .ct_sendExclusiveDataFromTBE, c => do
    c.sendDataFromTBE env (← inp.peekForward) .DATA_EXCLUSIVE
  | .et_sendDataSharedFromTBE, c => do
    c.sendDataFromTBE env (← inp.peekForward) .DATA_SHARED
  | .q_sendDataFromTBEToCache, c => do
    c.sendDataFromTBEToCache env (← inp.peekForward) .DATA
  | .sq_sendSharedDataFromTBEToCache, c => do
    c.sendDataFromTBEToCache env (← inp.peekForward) .DATA_SHARED
  | .em_sendDataSharedMultiple, c => do
    c.sendDataSharedMultiple env (← inp.peekForward)
  | .emt_sendDataSharedMultipleFromTBE, c => do
    c.sendDataSharedMultipleFromTBE env (← inp.peekForward)
  | .qm_sendDataFromTBEToCache, c => do
    c.sendDataSharedMultipleFromTBE env (← inp.peekForward)
  | .f_sendAck, c => do c.sendAck env (← inp.peekForward) .ACK
  | .ff_sendAckShared, c => do c.sendAck env (← inp.peekForward) .ACK_SHARED
  | .g_sendUnblock, c => pure (c.sendUnblock env .UNBLOCK)
  | .gm_sendUnblockM, c => pure (c.sendUnblock env .UNBLOCKM)
  | .gs_sendUnblockS, c => c.sendUnblockS env
  | .h_load_hit, c => do
    let e ← c.getEntry
    let c ← readCallback env c e
    -- `testAndClearLocalHit`
    pure (c.setEntry { e with fromL2 := false })
  | .hx_external_load_hit, c => do
    let e ← c.getEntry
    let _ ← c.getTBE
    let _ ← inp.peekResponse
    readCallback env c e
  | .hh_store_hit, c => do
    let e ← c.getEntry
    let type ← inp.peekMandatory
    writeCallback env c { e with fromL2 := false } type.isAtomic
  | .hh_flush_hit, c => do
    let _ ← c.getTBE
    flushCallback c
  | .sx_external_store_hit, c => do
    let e ← c.getEntry
    let _ ← c.getTBE
    let _ ← inp.peekResponse
    writeCallback env c e false
  | .sxt_trig_ext_store_hit, c => do
    let e ← c.getEntry
    let _ ← c.getTBE
    writeCallback env c e false
  | .i_allocateTBE, c => c.allocateTBE .I
  | .it_allocateTBE, c => do
    check (c.tbe.isNone) .assertion
    pure (c.setTBE { tbeState := .I })
  | .j_popTriggerQueue, c => pure c.dequeue
  | .k_popMandatoryQueue, c => pure { c with mandatory := false }
  | .l_popForwardQueue, c => pure c.dequeue
  | .n_popResponseQueue, c => pure c.dequeue
  | .hp_copyFromTBEToL2, c => copyFromTBE false c
  | .nb_copyFromTBEToL1, c => copyFromTBE true c
  | .m_decrementNumberOfMessages, c => do
    c.decrementNumberOfMessages (← inp.peekResponse)
  | .uo_updateCurrentOwner, c => do c.updateCurrentOwner (← inp.peekResponse)
  | .ll_L2toL1Transfer, c => pure (c.send (.trigger .L2_to_L1))
  | .o_checkForCompletion, c => c.checkForCompletion
  | .p_decrementNumberOfMessagesByOne, c => c.addPendingMsgs (-1)
  | .pp_incrementNumberOfMessagesByOne, c => c.addPendingMsgs 1
  | .qq_sendDataFromTBEToMemory, c => c.sendDataFromTBEToMemory env .WB_CLEAN .WB_DIRTY
  | .t_sendExclusiveDataFromTBEToMemory, c =>
    c.sendDataFromTBEToMemory env .WB_EXCLUSIVE_CLEAN .WB_EXCLUSIVE_DIRTY
  | .r_setSharerBit, c => c.setSharerBit
  | .s_deallocateTBE, c => c.deallocateTBE
  | .u_writeDataToCache, c => do c.writeDataToCache (← inp.peekResponse)
  | .uf_writeDataToCacheTBE, c => do writeDataToTBE (← inp.peekResponse) c
  | .v_writeDataToCacheVerify, c => do c.writeDataToCacheVerify (← inp.peekResponse)
  | .vt_writeDataToTBEVerify, c => do writeDataToTBEVerify (← inp.peekResponse) c
  | .gg_deallocateL1CacheBlock, c => do
    let e ← c.getEntry
    check (isL1 e = true) .assertion
    pure { c with entry := none }
  | .ii_allocateL1DCacheBlock, c => pure (allocateL1 .L1D c)
  | .jj_allocateL1ICacheBlock, c => pure (allocateL1 .L1I c)
  | .vv_allocateL2CacheBlock, c => do
    check (c.entry.isNone) .assertion
    pure (c.setEntry { cacheState := .I, level := .L2 })
  | .rr_deallocateL2CacheBlock, c => do
    let e ← c.getEntry
    check (isL1 e = false) .assertion
    pure { c with entry := none }
  -- the stalled request stays in the mandatory queue of the block
  | .zz_stallAndWaitMandatoryQueue, c | .z_stall, c | .kd_wakeUpDependents, c
  | .ka_wakeUpAllDependents, c => pure c
  | .d_incReplacement_writes, c | .forward_eviction_to_cpu, c | .uu_profileL1DataMiss, c
  | .uu_profileL1DataHit, c | .uu_profileL1InstMiss, c | .uu_profileL1InstHit, c
  | .uu_profileL2ReadMiss, c | .uu_profileL2WriteMiss, c | .uu_profileL2Hit, c => pure c

/-- `doTransition`.  A transition with `z_stall` does nothing. -/
def doTransition (env : Env ι) (inp : Input ι L) (e : Event) (l : Line State ι L) :
    Except Fault (Ctx State ι L) :=
  let s := l.getState .I
  match Transition.lookup transitions s e with
  | none => throw .invalidTransition
  | some t =>
    if .z_stall ∈ t.actions then pure { toLine := l }
    else do
      let c ← runActions (Action.run env inp) t.actions { toLine := l }
      pure { c with toLine := c.toLine.setState State.invalid (t.target s) }

/-! ## The input ports -/

/-- `triggerQueue_in` -/
def triggerEvent : TriggerType → Option Event
  | .L2_to_L1 => some .Complete_L2_to_L1
  | .ALL_ACKS => some .All_acks
  | .ALL_ACKS_NO_SHARERS => some .All_acks_no_sharers
  | .ALL_ACKS_OWNER_EXISTS | .ALL_UNBLOCKS => none

/-- `responseToCache_in` -/
def responseEvent : CoherenceResponseType → Option Event
  | .ACK => some .Ack
  | .ACK_SHARED => some .Shared_Ack
  | .DATA => some .Data
  | .DATA_SHARED => some .Shared_Data
  | .DATA_EXCLUSIVE => some .Exclusive_Data
  | .WB_CLEAN | .WB_DIRTY | .WB_EXCLUSIVE_CLEAN | .WB_EXCLUSIVE_DIRTY | .UNBLOCK
  | .UNBLOCKS | .UNBLOCKM | .NULL => none

/-- `forwardToCache_in` -/
def forwardEvent (env : Env ι) (l : Line State ι L) : CoherenceRequestType → Option Event
  | .GETX | .GETF => some .Other_GETX
  | .MERGED_GETS => some .Merged_GETS
  | .GETS =>
    if 1 < env.machineCount then
      if (l.entry.elim false (·.atomicAccessed)) && env.noMigAtomic then
        some .Other_GETS_No_Mig
      else some .Other_GETS
    else some .NC_DMA_GETS
  | .INV => some .Invalidate
  | .WB_ACK => some .Writeback_Ack
  | .WB_NACK => some .Writeback_Nack
  | .BLOCK_ACK => some .Block_Ack
  | .PUT | .PUTF => none

/-- `mandatory_request_type_to_event` -/
def requestEvent (type : RubyRequestType) : Event :=
  match type with
  | .LD => .Load
  | .IFETCH => .Ifetch
  | .ST | .RMW_Read | .Locked_RMW_Read | .Locked_RMW_Write _ | .Load_Linked
  | .Store_Conditional => .Store
  | .FLUSH => .Flush_line

/-- The L1 cache that a request needs its block in. -/
def homeLevel (type : RubyRequestType) : Level :=
  match type with
  | .IFETCH => .L1I
  | .LD | .ST | .RMW_Read | .Locked_RMW_Read | .Locked_RMW_Write _ | .Load_Linked
  | .Store_Conditional | .FLUSH => .L1D

/-- `mandatoryQueue_in`, for a request to this block: the event at this block when
the cache memories have the room that it takes.  Without room the port triggers a
replacement at another block. -/
def mandatoryEvent (type : RubyRequestType) (l : Line State ι L) : Event :=
  match l.entry with
  | none => requestEvent type
  | some e =>
    match e.level with
    | .L2 => if type = .IFETCH then .Trigger_L2_to_L1I else .Trigger_L2_to_L1D
    | .L1D | .L1I => if e.level = homeLevel type then requestEvent type else .L1_to_L2

end Gem5Gpu.VIHammer.CPUCache
