import Gem5Gpu.Ruby.AbstractController
import Gem5Gpu.VIHammer.Msg

/-!
# The GPU L2 cache controller

The machine `GPUL2Cache` of `VI_hammer-GPUL2cache.sm`.  `transitions` is the
table of the source, declaration by declaration, and `Action.run` is what each
action does to the cache entry and the TBE of one block and to the ports.  The
GPU L1 caches are the environment: they send any `GET` and `PUT`.
-/

namespace Gem5Gpu.VIHammer.GPUL2Cache

open Lib Ruby

inductive State
  | I | S | O | M | MM | IM | ISM | SM | OM | IS | SS | OI | MI | II | M_W | MM_W
  deriving DecidableEq

inductive Event
  | Get | Store | Replacement | Other_GETX | Other_GETS | Merged_GETS | NC_DMA_GETS
  | Invalidate | Block_Ack | Ack | Shared_Ack | Data | Shared_Data | Exclusive_Data
  | Writeback_Ack | Writeback_Nack | All_acks | All_acks_no_sharers
  deriving DecidableEq

inductive Action
  | a_issueGETS | b_issueGETX | d_issuePUT | d_incReplacement_writes
  | ii_allocateL2CacheBlock | rr_deallocateL2CacheBlock | rq_popL1IncomingQueue
  | n_popResponseQueue | j_popTriggerQueue | l_popForwardQueue | h_load_hit
  | hx_external_load_hit | hh_store_hit | sx_external_store_hit
  | sxt_trig_ext_store_hit | as_ackStore | aes_ackExternalStore | es_recordRequestor
  | u_writeDataToCache | i_allocateTBE | s_deallocateTBE
  | zz_stallAndWaitRequestQueue | m_decrementNumberOfMessages | o_checkForCompletion
  | uo_updateCurrentOwner | p_decrementNumberOfMessagesByOne
  | pp_incrementNumberOfMessagesByOne | kd_wakeUpDependents | ka_wakeUpAllDependents
  | r_setSharerBit | gm_sendUnblockM | gs_sendUnblockS | v_writeDataToCacheVerify
  | q_sendDataFromTBEToCache | sq_sendSharedDataFromTBEToCache
  | qm_sendDataFromTBEToCache | qq_sendDataFromTBEToMemory
  | t_sendExclusiveDataFromTBEToMemory | f_sendAck | ff_sendAckShared
  | g_sendUnblock | e_sendData | ee_sendDataShared | c_sendExclusiveData
  | em_sendDataSharedMultiple | uu_profileWriteMiss | vv_profileReadMiss
  deriving DecidableEq

def transitions : List (Transition State Event Action) := [
  ⟨[.IM, .IS, .OI, .MI, .II], [.Get, .Store, .Replacement], none, [.zz_stallAndWaitRequestQueue]⟩,
  ⟨[.ISM, .SM, .OM, .SS], [.Replacement, .Store], none, [.zz_stallAndWaitRequestQueue]⟩,
  ⟨[.M_W, .MM_W], [.Replacement], none, [.zz_stallAndWaitRequestQueue]⟩,
  ⟨[.I], [.Store], some .IM,
    [.ii_allocateL2CacheBlock, .i_allocateTBE, .es_recordRequestor, .b_issueGETX,
     .uu_profileWriteMiss, .rq_popL1IncomingQueue]⟩,
  ⟨[.S, .MM, .O, .M], [.Get], none, [.h_load_hit, .rq_popL1IncomingQueue]⟩,
  ⟨[.SS, .M_W, .MM_W, .SM, .OM, .ISM], [.Get], none, [.h_load_hit, .rq_popL1IncomingQueue]⟩,
  ⟨[.MM], [.Store], none, [.hh_store_hit, .as_ackStore, .rq_popL1IncomingQueue]⟩,
  ⟨[.MM_W], [.Store], none, [.hh_store_hit, .as_ackStore, .rq_popL1IncomingQueue]⟩,
  ⟨[.M], [.Store], some .MM, [.hh_store_hit, .as_ackStore, .rq_popL1IncomingQueue]⟩,
  ⟨[.O], [.Store], some .OM, [.i_allocateTBE, .es_recordRequestor, .b_issueGETX,
     .p_decrementNumberOfMessagesByOne, .uu_profileWriteMiss, .rq_popL1IncomingQueue]⟩,
  ⟨[.S], [.Store], some .SM,
    [.i_allocateTBE, .es_recordRequestor, .b_issueGETX, .uu_profileWriteMiss,
     .rq_popL1IncomingQueue]⟩,
  ⟨[.I], [.Get], some .IS,
    [.ii_allocateL2CacheBlock, .i_allocateTBE, .es_recordRequestor, .a_issueGETS,
     .vv_profileReadMiss, .rq_popL1IncomingQueue]⟩,
  ⟨[.I], [.Replacement], none, [.rr_deallocateL2CacheBlock, .ka_wakeUpAllDependents]⟩,
  ⟨[.S], [.Replacement], some .I, [.rr_deallocateL2CacheBlock, .ka_wakeUpAllDependents]⟩,
  ⟨[.O], [.Replacement], some .OI, [.i_allocateTBE, .d_incReplacement_writes, .d_issuePUT,
     .rr_deallocateL2CacheBlock, .ka_wakeUpAllDependents]⟩,
  ⟨[.O], [.Merged_GETS], none, [.em_sendDataSharedMultiple, .l_popForwardQueue]⟩,
  ⟨[.M, .MM], [.Replacement], some .MI, [.i_allocateTBE, .d_incReplacement_writes, .d_issuePUT,
     .rr_deallocateL2CacheBlock, .ka_wakeUpAllDependents]⟩,
  ⟨[.MI], [.Writeback_Ack], some .I,
    [.t_sendExclusiveDataFromTBEToMemory, .s_deallocateTBE, .l_popForwardQueue,
     .kd_wakeUpDependents]⟩,
  ⟨[.OI], [.Writeback_Ack], some .I,
    [.qq_sendDataFromTBEToMemory, .s_deallocateTBE, .l_popForwardQueue, .kd_wakeUpDependents]⟩,
  ⟨[.OI, .MI], [.Other_GETX, .Invalidate], some .II,
    [.q_sendDataFromTBEToCache, .l_popForwardQueue]⟩,
  ⟨[.OI, .MI], [.NC_DMA_GETS, .Other_GETS], some .OI,
    [.sq_sendSharedDataFromTBEToCache, .l_popForwardQueue]⟩,
  ⟨[.OI, .MI], [.Merged_GETS], some .OI, [.qm_sendDataFromTBEToCache, .l_popForwardQueue]⟩,
  ⟨[.IS], [.Other_GETX, .NC_DMA_GETS, .Other_GETS, .Invalidate], none,
    [.f_sendAck, .l_popForwardQueue]⟩,
  ⟨[.IS], [.Data], some .SS,
    [.u_writeDataToCache, .m_decrementNumberOfMessages, .o_checkForCompletion,
     .hx_external_load_hit, .uo_updateCurrentOwner, .n_popResponseQueue,
     .kd_wakeUpDependents]⟩,
  ⟨[.IS], [.Exclusive_Data], some .M_W,
    [.u_writeDataToCache, .m_decrementNumberOfMessages, .o_checkForCompletion,
     .hx_external_load_hit, .n_popResponseQueue, .kd_wakeUpDependents]⟩,
  ⟨[.IS], [.Shared_Data], some .SS,
    [.u_writeDataToCache, .r_setSharerBit, .m_decrementNumberOfMessages,
     .o_checkForCompletion, .hx_external_load_hit, .uo_updateCurrentOwner,
     .n_popResponseQueue, .kd_wakeUpDependents]⟩,
  ⟨[.IS], [.Ack], none, [.m_decrementNumberOfMessages, .o_checkForCompletion, .n_popResponseQueue]⟩,
  ⟨[.IS], [.Shared_Ack], none,
    [.m_decrementNumberOfMessages, .r_setSharerBit, .o_checkForCompletion, .n_popResponseQueue]⟩,
  ⟨[.M_W], [.Store], some .MM_W, [.hh_store_hit, .as_ackStore, .rq_popL1IncomingQueue]⟩,
  ⟨[.M_W], [.Ack], none,
    [.m_decrementNumberOfMessages, .o_checkForCompletion, .n_popResponseQueue]⟩,
  ⟨[.M_W], [.All_acks_no_sharers], some .M,
    [.gm_sendUnblockM, .s_deallocateTBE, .j_popTriggerQueue, .kd_wakeUpDependents]⟩,
  ⟨[.MM_W], [.Ack], none,
    [.m_decrementNumberOfMessages, .o_checkForCompletion, .n_popResponseQueue]⟩,
  ⟨[.MM_W], [.All_acks_no_sharers], some .MM,
    [.gm_sendUnblockM, .s_deallocateTBE, .j_popTriggerQueue, .kd_wakeUpDependents]⟩,
  ⟨[.SM], [.NC_DMA_GETS, .Other_GETS], none, [.ff_sendAckShared, .l_popForwardQueue]⟩,
  ⟨[.SM], [.Other_GETX, .Invalidate], some .IM, [.f_sendAck, .l_popForwardQueue]⟩,
  ⟨[.IM], [.Other_GETX, .NC_DMA_GETS, .Other_GETS, .Invalidate], none,
    [.f_sendAck, .l_popForwardQueue]⟩,
  ⟨[.IM], [.Ack], none, [.m_decrementNumberOfMessages, .o_checkForCompletion, .n_popResponseQueue]⟩,
  ⟨[.IM], [.Data], some .ISM,
    [.u_writeDataToCache, .m_decrementNumberOfMessages, .o_checkForCompletion,
     .kd_wakeUpDependents, .n_popResponseQueue]⟩,
  ⟨[.IM], [.Exclusive_Data], some .MM_W,
    [.u_writeDataToCache, .m_decrementNumberOfMessages, .o_checkForCompletion,
     .sx_external_store_hit, .aes_ackExternalStore, .n_popResponseQueue,
     .kd_wakeUpDependents]⟩,
  ⟨[.ISM], [.Ack], none,
    [.m_decrementNumberOfMessages, .o_checkForCompletion, .n_popResponseQueue]⟩,
  ⟨[.ISM], [.All_acks_no_sharers], some .MM,
    [.sxt_trig_ext_store_hit, .aes_ackExternalStore, .gm_sendUnblockM,
     .s_deallocateTBE, .j_popTriggerQueue, .kd_wakeUpDependents]⟩,
  ⟨[.SS], [.Ack], none, [.m_decrementNumberOfMessages, .o_checkForCompletion, .n_popResponseQueue]⟩,
  ⟨[.SS], [.Shared_Ack], none,
    [.m_decrementNumberOfMessages, .r_setSharerBit, .o_checkForCompletion, .n_popResponseQueue]⟩,
  ⟨[.SS], [.All_acks], some .S,
    [.gs_sendUnblockS, .s_deallocateTBE, .j_popTriggerQueue, .kd_wakeUpDependents]⟩,
  ⟨[.SS], [.All_acks_no_sharers], some .S,
    [.gs_sendUnblockS, .s_deallocateTBE, .j_popTriggerQueue, .kd_wakeUpDependents]⟩,
  ⟨[.OM], [.Other_GETX, .Invalidate], some .IM,
    [.e_sendData, .pp_incrementNumberOfMessagesByOne, .l_popForwardQueue]⟩,
  ⟨[.OM], [.NC_DMA_GETS, .Other_GETS], none, [.ee_sendDataShared, .l_popForwardQueue]⟩,
  ⟨[.OM], [.Merged_GETS], none, [.em_sendDataSharedMultiple, .l_popForwardQueue]⟩,
  ⟨[.OM], [.Ack], none, [.m_decrementNumberOfMessages, .o_checkForCompletion, .n_popResponseQueue]⟩,
  ⟨[.OM], [.All_acks, .All_acks_no_sharers], some .MM,
    [.sxt_trig_ext_store_hit, .aes_ackExternalStore, .gm_sendUnblockM,
     .s_deallocateTBE, .j_popTriggerQueue, .kd_wakeUpDependents]⟩,
  ⟨[.SM], [.Ack], none, [.m_decrementNumberOfMessages, .o_checkForCompletion, .n_popResponseQueue]⟩,
  ⟨[.SM], [.Data, .Exclusive_Data], some .ISM,
    [.v_writeDataToCacheVerify, .m_decrementNumberOfMessages, .o_checkForCompletion,
     .n_popResponseQueue]⟩,
  ⟨[.I], [.Other_GETX, .NC_DMA_GETS, .Other_GETS, .Invalidate], none,
    [.f_sendAck, .l_popForwardQueue]⟩,
  ⟨[.S], [.NC_DMA_GETS, .Other_GETS], none, [.ff_sendAckShared, .l_popForwardQueue]⟩,
  ⟨[.S], [.Other_GETX, .Invalidate], some .I, [.f_sendAck, .l_popForwardQueue]⟩,
  ⟨[.O], [.Other_GETX, .Invalidate], some .I, [.e_sendData, .l_popForwardQueue]⟩,
  ⟨[.O], [.NC_DMA_GETS, .Other_GETS], none, [.ee_sendDataShared, .l_popForwardQueue]⟩,
  ⟨[.MM], [.Other_GETX, .Invalidate], some .I, [.c_sendExclusiveData, .l_popForwardQueue]⟩,
  ⟨[.MM], [.Other_GETS], some .I, [.c_sendExclusiveData, .l_popForwardQueue]⟩,
  ⟨[.MM], [.NC_DMA_GETS], some .O, [.ee_sendDataShared, .l_popForwardQueue]⟩,
  ⟨[.MM], [.Merged_GETS], some .O, [.em_sendDataSharedMultiple, .l_popForwardQueue]⟩,
  ⟨[.M], [.Other_GETX, .Invalidate], some .I, [.c_sendExclusiveData, .l_popForwardQueue]⟩,
  ⟨[.M], [.Other_GETS], some .O, [.ee_sendDataShared, .l_popForwardQueue]⟩,
  ⟨[.M], [.NC_DMA_GETS], some .O, [.ee_sendDataShared, .l_popForwardQueue]⟩,
  ⟨[.M], [.Merged_GETS], some .O, [.em_sendDataSharedMultiple, .l_popForwardQueue]⟩,
  ⟨[.II], [.NC_DMA_GETS, .Other_GETS, .Other_GETX, .Invalidate], some .II,
    [.f_sendAck, .l_popForwardQueue]⟩,
  ⟨[.II], [.Writeback_Ack], some .I,
    [.g_sendUnblock, .s_deallocateTBE, .l_popForwardQueue, .kd_wakeUpDependents]⟩,
  ⟨[.II], [.Writeback_Nack], some .I,
    [.s_deallocateTBE, .l_popForwardQueue, .kd_wakeUpDependents]⟩ ]

/-- The rank of the `in_port` that triggers an event.  The port of the L1
requests declares none, which is rank 0. -/
def Event.rank : Event → ℕ
  | .All_acks | .All_acks_no_sharers => 3
  | .Ack | .Shared_Ack | .Data | .Shared_Data | .Exclusive_Data => 2
  | .Other_GETX | .Other_GETS | .Merged_GETS | .NC_DMA_GETS | .Invalidate
  | .Writeback_Ack | .Writeback_Nack | .Block_Ack => 1
  | .Get | .Store | .Replacement => 0

/-- What an action does to the input ports. -/
def Action.portOp : Action → PortOp
  | .rq_popL1IncomingQueue | .n_popResponseQueue | .j_popTriggerQueue
  | .l_popForwardQueue => .dequeue
  | .zz_stallAndWaitRequestQueue => .stall
  | .kd_wakeUpDependents => .wakeUp
  | .ka_wakeUpAllDependents => .wakeUpAll
  | _ => .keep

def State.stable : State → Bool
  | .I | .S | .O | .M | .MM => true
  | _ => false

def machine : Machine State Event Action where
  transitions := transitions
  rank := Event.rank
  op := Action.portOp
  stable := State.stable
  start := .I

end Gem5Gpu.VIHammer.GPUL2Cache
