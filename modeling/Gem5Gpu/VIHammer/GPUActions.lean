import Gem5Gpu.VIHammer.CacheActions
import Gem5Gpu.VIHammer.GPUL2Cache

/-!
# What the actions of a GPU L2 cache do

`Action.run` is the body of each action of `VI_hammer-GPUL2cache.sm`.  An answer
with data to a GPU L1 cache is seen as the load that it ends, and the store that
a GPU L1 cache sends is performed when its bytes are copied to the entry.
-/

namespace Gem5Gpu.VIHammer.GPUL2Cache

open Lib Ruby

variable {ι : Type} [DecidableEq ι] {L : ℕ}

/-- `RequestMsgVI`: a request of a GPU L1 cache. -/
inductive RequestMsgVI (L : ℕ)
  | GET
  | PUT (w : Write L)
  deriving DecidableEq

/-- `DataBlk`, `Offset` and `Size`; a `GET` has none. -/
def RequestMsgVI.write : RequestMsgVI L → Write L
  | .GET => ⟨DataBlock.clear L, 0, 0⟩
  | .PUT w => w

/-- The message at the head of the port that triggers a transition. -/
inductive Input (ι : Type) (L : ℕ)
  | trigger (t : TriggerType)
  | response (m : ResponseMsg ι L)
  | forward (m : RequestMsg ι)
  | request (m : RequestMsgVI L)
  /-- A request to another block, which needs the room of this one. -/
  | elsewhere

namespace Input

/-- `peek(responseToCache_in, ResponseMsg)` -/
def peekResponse : Input ι L → Except Fault (ResponseMsg ι L)
  | .response m => pure m
  | _ => throw .unexpected

/-- `peek(forwardToCache_in, RequestMsg)` -/
def peekForward : Input ι L → Except Fault (RequestMsg ι)
  | .forward m => pure m
  | _ => throw .unexpected

/-- `peek(requestQueue_in, RequestMsgVI)` -/
def peekRequest : Input ι L → Except Fault (RequestMsgVI L)
  | .request m => pure m
  | _ => throw .unexpected

end Input

/-- A GPU L2 cache locks no lines, so a permission has no effect on an entry. -/
def State.invalid : State → Bool
  | .I => true
  | _ => false

/-- A store to the entry. -/
def storeTo (env : Env ι) (c : Ctx State ι L) (e : Entry State L) (w : Write L) :
    Ctx State ι L :=
  (c.setEntry { e with dataBlk := e.dataBlk.copyPartial w, dirty := true }).report
    (some (.store env.machineID w))

def Action.run (env : Env ι) (inp : Input ι L) :
    Action → Ctx State ι L → Except Fault (Ctx State ι L)
  | .a_issueGETS, c => c.issueGet env .GETS
  | .b_issueGETX, c => c.issueGet env .GETX
  | .d_issuePUT, c => pure (c.issuePut env .PUT)
  | .ii_allocateL2CacheBlock, c =>
    match c.entry with
    | some _ => pure c
    | none => pure (c.setEntry { cacheState := .I })
  | .rr_deallocateL2CacheBlock, c => pure { c with entry := none }
  | .rq_popL1IncomingQueue, c => pure c.dequeue
  | .n_popResponseQueue, c => pure c.dequeue
  | .j_popTriggerQueue, c => pure c.dequeue
  | .l_popForwardQueue, c => pure c.dequeue
  | .h_load_hit, c => do
    let e ← c.getEntry
    let _ ← inp.peekRequest
    pure (c.report (some (.load env.machineID e.dataBlk)))
  | .hx_external_load_hit, c => do
    let _ ← c.getEntry
    let _ ← c.getTBE
    let m ← inp.peekResponse
    pure (c.report (some (.load env.machineID m.dataBlk)))
  | .hh_store_hit, c => do
    let e ← c.getEntry
    let m ← inp.peekRequest
    pure (storeTo env c e m.write)
  | .sx_external_store_hit, c => do
    let e ← c.getEntry
    let t ← c.getTBE
    pure (storeTo env c e t.write)
  | .sxt_trig_ext_store_hit, c => do
    let e ← c.getEntry
    let t ← c.getTBE
    -- only responses from a directory or a cache are expected
    check (t.lastResponder ≠ .unset ∧ t.lastResponder ≠ .dma) .unexpected
    pure (storeTo env c e t.write)
  | .as_ackStore, c => do
    let _ ← inp.peekRequest
    pure c
  | .aes_ackExternalStore, c => do
    let _ ← c.getTBE
    pure c
  | .es_recordRequestor, c => do
    let t ← c.getTBE
    let m ← inp.peekRequest
    pure (c.setTBE { t with write := m.write })
  | .u_writeDataToCache, c => do c.writeDataToCache (← inp.peekResponse)
  | .i_allocateTBE, c => c.allocateTBE .I
  | .s_deallocateTBE, c => c.deallocateTBE
  | .m_decrementNumberOfMessages, c => do
    c.decrementNumberOfMessages (← inp.peekResponse)
  | .o_checkForCompletion, c => c.checkForCompletion
  | .uo_updateCurrentOwner, c => do c.updateCurrentOwner (← inp.peekResponse)
  | .p_decrementNumberOfMessagesByOne, c => c.addPendingMsgs (-1)
  | .pp_incrementNumberOfMessagesByOne, c => c.addPendingMsgs 1
  | .r_setSharerBit, c => c.setSharerBit
  | .gm_sendUnblockM, c => pure (c.sendUnblock env .UNBLOCKM)
  | .gs_sendUnblockS, c => c.sendUnblockS env
  | .v_writeDataToCacheVerify, c => do c.writeDataToCacheVerify (← inp.peekResponse)
  | .q_sendDataFromTBEToCache, c => do
    c.sendDataFromTBEToCache env (← inp.peekForward) .DATA
  | .sq_sendSharedDataFromTBEToCache, c => do
    c.sendDataFromTBEToCache env (← inp.peekForward) .DATA_SHARED
  | .qm_sendDataFromTBEToCache, c => do
    c.sendDataSharedMultipleFromTBE env (← inp.peekForward)
  | .qq_sendDataFromTBEToMemory, c => c.sendDataFromTBEToMemory env .WB_CLEAN .WB_DIRTY
  | .t_sendExclusiveDataFromTBEToMemory, c =>
    c.sendDataFromTBEToMemory env .WB_EXCLUSIVE_CLEAN .WB_EXCLUSIVE_DIRTY
  | .f_sendAck, c => do c.sendAck env (← inp.peekForward) .ACK
  | .ff_sendAckShared, c => do c.sendAck env (← inp.peekForward) .ACK_SHARED
  | .g_sendUnblock, c => pure (c.sendUnblock env .UNBLOCK)
  | .e_sendData, c => do c.sendData env (← inp.peekForward) .DATA
  | .ee_sendDataShared, c => do c.sendData env (← inp.peekForward) .DATA_SHARED
  | .c_sendExclusiveData, c => do c.sendData env (← inp.peekForward) .DATA_EXCLUSIVE
  | .em_sendDataSharedMultiple, c => do
    c.sendDataSharedMultiple env (← inp.peekForward)
  -- the stalled request stays in the queue of the L1 requests
  | .zz_stallAndWaitRequestQueue, c | .kd_wakeUpDependents, c
  | .ka_wakeUpAllDependents, c => pure c
  | .d_incReplacement_writes, c | .uu_profileWriteMiss, c | .vv_profileReadMiss, c => pure c

/-- `doTransition` -/
def doTransition (env : Env ι) (inp : Input ι L) (e : Event) (l : Line State ι L) :
    Except Fault (Ctx State ι L) :=
  let s := l.getState .I
  match Transition.lookup transitions s e with
  | none => throw .invalidTransition
  | some t => do
    let c ← runActions (Action.run env inp) t.actions { toLine := l }
    pure { c with toLine := c.toLine.setState State.invalid (t.target s) }

/-! ## The input ports -/

/-- `triggerQueue_in` -/
def triggerEvent : TriggerType → Option Event
  | .ALL_ACKS => some .All_acks
  | .ALL_ACKS_NO_SHARERS => some .All_acks_no_sharers
  | .L2_to_L1 | .ALL_ACKS_OWNER_EXISTS | .ALL_UNBLOCKS => none

/-- `responseToCache_in` -/
def responseEvent : CoherenceResponseType → Option Event
  | .ACK => some .Ack
  | .ACK_SHARED => some .Shared_Ack
  | .DATA => some .Data
  | .DATA_SHARED => some .Shared_Data
  | .DATA_EXCLUSIVE => some .Exclusive_Data
  | .WB_CLEAN | .WB_DIRTY | .WB_EXCLUSIVE_CLEAN | .WB_EXCLUSIVE_DIRTY | .UNBLOCK
  | .UNBLOCKS | .UNBLOCKM | .NULL => none

/-- `forwardToCache_in` -/
def forwardEvent (env : Env ι) : CoherenceRequestType → Option Event
  | .GETX | .GETF => some .Other_GETX
  | .MERGED_GETS => some .Merged_GETS
  | .GETS => if 1 < env.machineCount then some .Other_GETS else some .NC_DMA_GETS
  | .INV => some .Invalidate
  | .WB_ACK => some .Writeback_Ack
  | .WB_NACK => some .Writeback_Nack
  | .BLOCK_ACK => some .Block_Ack
  | .PUT | .PUTF => none

/-- `L1Cache_request_type_to_event` -/
def requestEvent : RequestMsgVI L → Event
  | .GET => .Get
  | .PUT _ => .Store

end Gem5Gpu.VIHammer.GPUL2Cache
