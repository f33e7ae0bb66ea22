import Gem5Gpu.Ruby.AbstractController
import Gem5Gpu.VIHammer.Msg

/-!
# The CPU cache controller

The machine `L1Cache` of `VI_hammer-CPUCache.sm`: two L1 caches, an exclusive
L2 cache and one controller for the three of them.  `transitions` is the table
of the source, declaration by declaration, and `Action.run` is what each action
does to the cache entry and the TBE of one block and to the ports.

Counters of the profiler and messages to the CPU about evictions are left out,
so their actions do nothing.  The entry of a block is in at most one of the three
cache memories, and `Level` says in which.
-/

namespace Gem5Gpu.VIHammer.CPUCache

open Lib Ruby

inductive State
  | I | S | O | M | MM | IR | SR | OR | MR | MMR | IM | SM | OM | ISM | M_W | MM_W
  | IS | SS | OI | MI | II | IT | ST | OT | MT | MMT | MI_F | MM_F | IM_F | ISM_F
  | SM_F | OM_F | MM_WF
  deriving DecidableEq

inductive Event
  | Load | Ifetch | Store | L2_Replacement | L1_to_L2 | Trigger_L2_to_L1D
  | Trigger_L2_to_L1I | Complete_L2_to_L1 | Other_GETX | Other_GETS | Merged_GETS
  | Other_GETS_No_Mig | NC_DMA_GETS | Invalidate | Ack | Shared_Ack | Data
  | Shared_Data | Exclusive_Data | Writeback_Ack | Writeback_Nack | All_acks
  | All_acks_no_sharers | Flush_line | Block_Ack
  deriving DecidableEq

inductive Action
  | d_incReplacement_writes | a_issueGETS | b_issueGETX | bf_issueGETF
  | c_sendExclusiveData | ct_sendExclusiveDataFromTBE | d_issuePUT | df_issuePUTF
  | e_sendData | ee_sendDataShared | et_sendDataSharedFromTBE
  | em_sendDataSharedMultiple | emt_sendDataSharedMultipleFromTBE | f_sendAck
  | ff_sendAckShared | g_sendUnblock | gm_sendUnblockM | gs_sendUnblockS
  | h_load_hit | hx_external_load_hit | hh_store_hit | hh_flush_hit
  | sx_external_store_hit | sxt_trig_ext_store_hit | i_allocateTBE | it_allocateTBE
  | j_popTriggerQueue | k_popMandatoryQueue | l_popForwardQueue | hp_copyFromTBEToL2
  | nb_copyFromTBEToL1 | m_decrementNumberOfMessages | uo_updateCurrentOwner
  | n_popResponseQueue | ll_L2toL1Transfer | o_checkForCompletion
  | p_decrementNumberOfMessagesByOne | pp_incrementNumberOfMessagesByOne
  | q_sendDataFromTBEToCache | sq_sendSharedDataFromTBEToCache
  | qm_sendDataFromTBEToCache | qq_sendDataFromTBEToMemory | r_setSharerBit
  | s_deallocateTBE | t_sendExclusiveDataFromTBEToMemory | u_writeDataToCache
  | uf_writeDataToCacheTBE | v_writeDataToCacheVerify | vt_writeDataToTBEVerify
  | gg_deallocateL1CacheBlock | ii_allocateL1DCacheBlock | jj_allocateL1ICacheBlock
  | vv_allocateL2CacheBlock | rr_deallocateL2CacheBlock | forward_eviction_to_cpu
  | uu_profileL1DataMiss | uu_profileL1DataHit | uu_profileL1InstMiss
  | uu_profileL1InstHit | uu_profileL2ReadMiss | uu_profileL2WriteMiss
  | uu_profileL2Hit | zz_stallAndWaitMandatoryQueue | z_stall | kd_wakeUpDependents
  | ka_wakeUpAllDependents
  deriving DecidableEq

def transitions : List (Transition State Event Action) := [
  ⟨[.IM, .IM_F, .MM_WF, .SM, .SM_F, .ISM, .ISM_F, .OM, .OM_F, .IS, .SS, .OI, .MI,
    .II, .IT, .ST, .OT, .MT, .MMT], [.Store, .L2_Replacement], none,
    [.zz_stallAndWaitMandatoryQueue]⟩,
  ⟨[.IM, .IM_F, .MM_WF, .SM, .SM_F, .ISM, .ISM_F, .OM, .OM_F, .IS, .SS, .OI, .MI, .II],
    [.Flush_line], none,
    [.zz_stallAndWaitMandatoryQueue]⟩,
  ⟨[.M_W, .MM_W], [.L2_Replacement, .Flush_line], none, [.zz_stallAndWaitMandatoryQueue]⟩,
  ⟨[.IM, .IS, .OI, .MI, .II, .IT, .ST, .OT, .MT, .MMT, .MI_F, .MM_F, .OM_F, .IM_F,
    .ISM_F, .SM_F, .MM_WF], [.Load, .Ifetch], none,
    [.zz_stallAndWaitMandatoryQueue]⟩,
  ⟨[.IM, .SM, .ISM, .OM, .IS, .SS, .MM_W, .M_W, .OI, .MI, .II, .IT, .ST, .OT, .MT,
    .MMT, .IM_F, .SM_F, .ISM_F, .OM_F, .MM_WF, .MI_F, .MM_F, .IR, .SR, .OR, .MR, .MMR],
    [.L1_to_L2], none,
    [.zz_stallAndWaitMandatoryQueue]⟩,
  ⟨[.MI_F, .MM_F], [.Store], none, [.zz_stallAndWaitMandatoryQueue]⟩,
  ⟨[.MM_F, .MI_F], [.Flush_line], none, [.zz_stallAndWaitMandatoryQueue]⟩,
  ⟨[.IT, .ST, .OT, .MT, .MMT],
    [.Other_GETX, .NC_DMA_GETS, .Other_GETS, .Merged_GETS, .Other_GETS_No_Mig,
    .Invalidate, .Flush_line], none,
    [.z_stall]⟩,
  ⟨[.IR, .SR, .OR, .MR, .MMR],
    [.Other_GETX, .NC_DMA_GETS, .Other_GETS, .Merged_GETS, .Other_GETS_No_Mig,
    .Invalidate], none,
    [.z_stall]⟩,
  ⟨[.I, .S, .O, .M, .MM], [.L1_to_L2], none,
    [.i_allocateTBE, .gg_deallocateL1CacheBlock, .vv_allocateL2CacheBlock,
     .hp_copyFromTBEToL2, .s_deallocateTBE]⟩,
  ⟨[.I], [.Trigger_L2_to_L1D], some .IT,
    [.i_allocateTBE, .rr_deallocateL2CacheBlock, .ii_allocateL1DCacheBlock,
     .nb_copyFromTBEToL1, .s_deallocateTBE, .zz_stallAndWaitMandatoryQueue,
     .ll_L2toL1Transfer]⟩,
  ⟨[.S], [.Trigger_L2_to_L1D], some .ST,
    [.i_allocateTBE, .rr_deallocateL2CacheBlock, .ii_allocateL1DCacheBlock,
     .nb_copyFromTBEToL1, .s_deallocateTBE, .zz_stallAndWaitMandatoryQueue,
     .ll_L2toL1Transfer]⟩,
  ⟨[.O], [.Trigger_L2_to_L1D], some .OT,
    [.i_allocateTBE, .rr_deallocateL2CacheBlock, .ii_allocateL1DCacheBlock,
     .nb_copyFromTBEToL1, .s_deallocateTBE, .zz_stallAndWaitMandatoryQueue,
     .ll_L2toL1Transfer]⟩,
  ⟨[.M], [.Trigger_L2_to_L1D], some .MT,
    [.i_allocateTBE, .rr_deallocateL2CacheBlock, .ii_allocateL1DCacheBlock,
     .nb_copyFromTBEToL1, .s_deallocateTBE, .zz_stallAndWaitMandatoryQueue,
     .ll_L2toL1Transfer]⟩,
  ⟨[.MM], [.Trigger_L2_to_L1D], some .MMT,
    [.i_allocateTBE, .rr_deallocateL2CacheBlock, .ii_allocateL1DCacheBlock,
     .nb_copyFromTBEToL1, .s_deallocateTBE, .zz_stallAndWaitMandatoryQueue,
     .ll_L2toL1Transfer]⟩,
  ⟨[.I], [.Trigger_L2_to_L1I], some .IT,
    [.i_allocateTBE, .rr_deallocateL2CacheBlock, .jj_allocateL1ICacheBlock,
     .nb_copyFromTBEToL1, .s_deallocateTBE, .zz_stallAndWaitMandatoryQueue,
     .ll_L2toL1Transfer]⟩,
  ⟨[.S], [.Trigger_L2_to_L1I], some .ST,
    [.i_allocateTBE, .rr_deallocateL2CacheBlock, .jj_allocateL1ICacheBlock,
     .nb_copyFromTBEToL1, .s_deallocateTBE, .zz_stallAndWaitMandatoryQueue,
     .ll_L2toL1Transfer]⟩,
  ⟨[.O], [.Trigger_L2_to_L1I], some .OT,
    [.i_allocateTBE, .rr_deallocateL2CacheBlock, .jj_allocateL1ICacheBlock,
     .nb_copyFromTBEToL1, .s_deallocateTBE, .zz_stallAndWaitMandatoryQueue,
     .ll_L2toL1Transfer]⟩,
  ⟨[.M], [.Trigger_L2_to_L1I], some .MT,
    [.i_allocateTBE, .rr_deallocateL2CacheBlock, .jj_allocateL1ICacheBlock,
     .nb_copyFromTBEToL1, .s_deallocateTBE, .zz_stallAndWaitMandatoryQueue,
     .ll_L2toL1Transfer]⟩,
  ⟨[.MM], [.Trigger_L2_to_L1I], some .MMT,
    [.i_allocateTBE, .rr_deallocateL2CacheBlock, .jj_allocateL1ICacheBlock,
     .nb_copyFromTBEToL1, .s_deallocateTBE, .zz_stallAndWaitMandatoryQueue,
     .ll_L2toL1Transfer]⟩,
  ⟨[.IT], [.Complete_L2_to_L1], some .IR, [.j_popTriggerQueue, .kd_wakeUpDependents]⟩,
  ⟨[.ST], [.Complete_L2_to_L1], some .SR, [.j_popTriggerQueue, .kd_wakeUpDependents]⟩,
  ⟨[.OT], [.Complete_L2_to_L1], some .OR, [.j_popTriggerQueue, .kd_wakeUpDependents]⟩,
  ⟨[.MT], [.Complete_L2_to_L1], some .MR, [.j_popTriggerQueue, .kd_wakeUpDependents]⟩,
  ⟨[.MMT], [.Complete_L2_to_L1], some .MMR, [.j_popTriggerQueue, .kd_wakeUpDependents]⟩,
  ⟨[.I, .IR], [.Load], some .IS,
    [.ii_allocateL1DCacheBlock, .i_allocateTBE, .a_issueGETS, .uu_profileL1DataMiss,
     .uu_profileL2ReadMiss, .k_popMandatoryQueue]⟩,
  ⟨[.I, .IR], [.Ifetch], some .IS,
    [.jj_allocateL1ICacheBlock, .i_allocateTBE, .a_issueGETS, .uu_profileL1InstMiss,
     .uu_profileL2ReadMiss, .k_popMandatoryQueue]⟩,
  ⟨[.I, .IR], [.Store], some .IM,
    [.ii_allocateL1DCacheBlock, .i_allocateTBE, .b_issueGETX, .uu_profileL1DataMiss,
     .uu_profileL2WriteMiss, .k_popMandatoryQueue]⟩,
  ⟨[.I, .IR], [.Flush_line], some .IM_F, [.it_allocateTBE, .bf_issueGETF, .k_popMandatoryQueue]⟩,
  ⟨[.I], [.L2_Replacement], none, [.rr_deallocateL2CacheBlock, .ka_wakeUpAllDependents]⟩,
  ⟨[.I], [.Other_GETX, .NC_DMA_GETS, .Other_GETS, .Other_GETS_No_Mig, .Invalidate], none,
    [.f_sendAck, .l_popForwardQueue]⟩,
  ⟨[.S, .SM, .ISM], [.Load], none, [.h_load_hit, .uu_profileL1DataHit, .k_popMandatoryQueue]⟩,
  ⟨[.S, .SM, .ISM], [.Ifetch], none, [.h_load_hit, .uu_profileL1InstHit, .k_popMandatoryQueue]⟩,
  ⟨[.SR], [.Load], some .S,
    [.h_load_hit, .uu_profileL1DataMiss, .uu_profileL2Hit, .k_popMandatoryQueue,
     .ka_wakeUpAllDependents]⟩,
  ⟨[.SR], [.Ifetch], some .S,
    [.h_load_hit, .uu_profileL1InstMiss, .uu_profileL2Hit, .k_popMandatoryQueue,
     .ka_wakeUpAllDependents]⟩,
  ⟨[.S, .SR], [.Store], some .SM,
    [.i_allocateTBE, .b_issueGETX, .uu_profileL1DataMiss, .uu_profileL2WriteMiss,
     .k_popMandatoryQueue]⟩,
  ⟨[.S, .SR], [.Flush_line], some .SM_F, [.i_allocateTBE, .bf_issueGETF, .forward_eviction_to_cpu,
     .gg_deallocateL1CacheBlock, .k_popMandatoryQueue]⟩,
  ⟨[.S], [.L2_Replacement], some .I,
    [.forward_eviction_to_cpu, .rr_deallocateL2CacheBlock, .ka_wakeUpAllDependents]⟩,
  ⟨[.S], [.Other_GETX, .Invalidate], some .I,
    [.f_sendAck, .forward_eviction_to_cpu, .l_popForwardQueue]⟩,
  ⟨[.S], [.NC_DMA_GETS, .Other_GETS, .Other_GETS_No_Mig], none,
    [.ff_sendAckShared, .l_popForwardQueue]⟩,
  ⟨[.O, .OM, .SS, .MM_W, .M_W], [.Load], none,
    [.h_load_hit, .uu_profileL1DataHit, .k_popMandatoryQueue]⟩,
  ⟨[.O, .OM, .SS, .MM_W, .M_W], [.Ifetch], none,
    [.h_load_hit, .uu_profileL1InstHit, .k_popMandatoryQueue]⟩,
  ⟨[.OR], [.Load], some .O,
    [.h_load_hit, .uu_profileL1DataMiss, .uu_profileL2Hit, .k_popMandatoryQueue,
     .ka_wakeUpAllDependents]⟩,
  ⟨[.OR], [.Ifetch], some .O,
    [.h_load_hit, .uu_profileL1InstMiss, .uu_profileL2Hit, .k_popMandatoryQueue,
     .ka_wakeUpAllDependents]⟩,
  ⟨[.O, .OR], [.Store], some .OM, [.i_allocateTBE, .b_issueGETX, .p_decrementNumberOfMessagesByOne,
     .uu_profileL1DataMiss, .uu_profileL2WriteMiss, .k_popMandatoryQueue]⟩,
  ⟨[.O, .OR], [.Flush_line], some .OM_F,
    [.i_allocateTBE, .bf_issueGETF, .p_decrementNumberOfMessagesByOne,
     .forward_eviction_to_cpu, .gg_deallocateL1CacheBlock, .k_popMandatoryQueue]⟩,
  ⟨[.O], [.L2_Replacement], some .OI,
    [.i_allocateTBE, .d_incReplacement_writes, .d_issuePUT, .forward_eviction_to_cpu,
     .rr_deallocateL2CacheBlock, .ka_wakeUpAllDependents]⟩,
  ⟨[.O], [.Other_GETX, .Invalidate], some .I,
    [.e_sendData, .forward_eviction_to_cpu, .l_popForwardQueue]⟩,
  ⟨[.O], [.NC_DMA_GETS, .Other_GETS, .Other_GETS_No_Mig], none,
    [.ee_sendDataShared, .l_popForwardQueue]⟩,
  ⟨[.O], [.Merged_GETS], none, [.em_sendDataSharedMultiple, .l_popForwardQueue]⟩,
  ⟨[.MM, .M], [.Ifetch], none, [.h_load_hit, .uu_profileL1InstHit, .k_popMandatoryQueue]⟩,
  ⟨[.MM, .M], [.Load], none, [.h_load_hit, .uu_profileL1DataHit, .k_popMandatoryQueue]⟩,
  ⟨[.MM], [.Store], none, [.hh_store_hit, .uu_profileL1DataHit, .k_popMandatoryQueue]⟩,
  ⟨[.MMR], [.Load], some .MM,
    [.h_load_hit, .uu_profileL1DataMiss, .uu_profileL2Hit, .k_popMandatoryQueue,
     .ka_wakeUpAllDependents]⟩,
  ⟨[.MMR], [.Ifetch], some .MM,
    [.h_load_hit, .uu_profileL1InstMiss, .uu_profileL2Hit, .k_popMandatoryQueue,
     .ka_wakeUpAllDependents]⟩,
  ⟨[.MMR], [.Store], some .MM,
    [.hh_store_hit, .uu_profileL1DataMiss, .uu_profileL2Hit, .k_popMandatoryQueue,
     .ka_wakeUpAllDependents]⟩,
  ⟨[.MM, .M, .MMR, .MR], [.Flush_line], some .MM_F,
    [.i_allocateTBE, .bf_issueGETF, .p_decrementNumberOfMessagesByOne,
     .forward_eviction_to_cpu, .gg_deallocateL1CacheBlock, .k_popMandatoryQueue]⟩,
  ⟨[.MM_F], [.Block_Ack], some .MI_F, [.df_issuePUTF, .l_popForwardQueue, .kd_wakeUpDependents]⟩,
  ⟨[.MM], [.L2_Replacement], some .MI,
    [.i_allocateTBE, .d_incReplacement_writes, .d_issuePUT, .forward_eviction_to_cpu,
     .rr_deallocateL2CacheBlock, .ka_wakeUpAllDependents]⟩,
  ⟨[.MM], [.Other_GETX, .Invalidate], some .I,
    [.c_sendExclusiveData, .forward_eviction_to_cpu, .l_popForwardQueue]⟩,
  ⟨[.MM], [.Other_GETS], some .I,
    [.c_sendExclusiveData, .forward_eviction_to_cpu, .l_popForwardQueue]⟩,
  ⟨[.MM], [.NC_DMA_GETS], some .O, [.ee_sendDataShared, .l_popForwardQueue]⟩,
  ⟨[.MM], [.Other_GETS_No_Mig], some .O, [.ee_sendDataShared, .l_popForwardQueue]⟩,
  ⟨[.MM], [.Merged_GETS], some .O, [.em_sendDataSharedMultiple, .l_popForwardQueue]⟩,
  ⟨[.M], [.Store], some .MM, [.hh_store_hit, .uu_profileL1DataHit, .k_popMandatoryQueue]⟩,
  ⟨[.MR], [.Load], some .M,
    [.h_load_hit, .uu_profileL1DataMiss, .uu_profileL2Hit, .k_popMandatoryQueue,
     .ka_wakeUpAllDependents]⟩,
  ⟨[.MR], [.Ifetch], some .M,
    [.h_load_hit, .uu_profileL1InstMiss, .uu_profileL2Hit, .k_popMandatoryQueue,
     .ka_wakeUpAllDependents]⟩,
  ⟨[.MR], [.Store], some .MM,
    [.hh_store_hit, .uu_profileL1DataMiss, .uu_profileL2Hit, .k_popMandatoryQueue,
     .ka_wakeUpAllDependents]⟩,
  ⟨[.M], [.L2_Replacement], some .MI,
    [.i_allocateTBE, .d_incReplacement_writes, .d_issuePUT, .forward_eviction_to_cpu,
     .rr_deallocateL2CacheBlock, .ka_wakeUpAllDependents]⟩,
  ⟨[.M], [.Other_GETX, .Invalidate], some .I,
    [.c_sendExclusiveData, .forward_eviction_to_cpu, .l_popForwardQueue]⟩,
  ⟨[.M], [.Other_GETS, .Other_GETS_No_Mig], some .O, [.ee_sendDataShared, .l_popForwardQueue]⟩,
  ⟨[.M], [.NC_DMA_GETS], some .O, [.ee_sendDataShared, .l_popForwardQueue]⟩,
  ⟨[.M], [.Merged_GETS], some .O, [.em_sendDataSharedMultiple, .l_popForwardQueue]⟩,
  ⟨[.IM, .IM_F], [.Other_GETX, .NC_DMA_GETS, .Other_GETS, .Other_GETS_No_Mig, .Invalidate], none,
    [.f_sendAck, .l_popForwardQueue]⟩,
  ⟨[.IM, .IM_F, .MM_F], [.Ack], none,
    [.m_decrementNumberOfMessages, .o_checkForCompletion, .n_popResponseQueue]⟩,
  ⟨[.IM], [.Data], some .ISM,
    [.u_writeDataToCache, .m_decrementNumberOfMessages, .o_checkForCompletion,
     .n_popResponseQueue]⟩,
  ⟨[.IM_F], [.Data], some .ISM_F,
    [.uf_writeDataToCacheTBE, .m_decrementNumberOfMessages, .o_checkForCompletion,
     .n_popResponseQueue]⟩,
  ⟨[.IM], [.Exclusive_Data], some .MM_W,
    [.u_writeDataToCache, .m_decrementNumberOfMessages, .o_checkForCompletion,
     .sx_external_store_hit, .n_popResponseQueue, .kd_wakeUpDependents]⟩,
  ⟨[.IM_F], [.Exclusive_Data], some .MM_WF,
    [.uf_writeDataToCacheTBE, .m_decrementNumberOfMessages, .o_checkForCompletion,
     .n_popResponseQueue]⟩,
  ⟨[.SM, .SM_F], [.NC_DMA_GETS, .Other_GETS, .Other_GETS_No_Mig], none,
    [.ff_sendAckShared, .l_popForwardQueue]⟩,
  ⟨[.SM], [.Other_GETX, .Invalidate], some .IM,
    [.f_sendAck, .forward_eviction_to_cpu, .l_popForwardQueue]⟩,
  ⟨[.SM_F], [.Other_GETX, .Invalidate], some .IM_F,
    [.f_sendAck, .forward_eviction_to_cpu, .l_popForwardQueue]⟩,
  ⟨[.SM, .SM_F], [.Ack], none,
    [.m_decrementNumberOfMessages, .o_checkForCompletion, .n_popResponseQueue]⟩,
  ⟨[.SM], [.Data, .Exclusive_Data], some .ISM,
    [.v_writeDataToCacheVerify, .m_decrementNumberOfMessages, .o_checkForCompletion,
     .n_popResponseQueue]⟩,
  ⟨[.SM_F], [.Data, .Exclusive_Data], some .ISM_F,
    [.vt_writeDataToTBEVerify, .m_decrementNumberOfMessages, .o_checkForCompletion,
     .n_popResponseQueue]⟩,
  ⟨[.ISM, .ISM_F], [.Ack], none,
    [.m_decrementNumberOfMessages, .o_checkForCompletion, .n_popResponseQueue]⟩,
  ⟨[.ISM], [.All_acks_no_sharers], some .MM,
    [.sxt_trig_ext_store_hit, .gm_sendUnblockM, .s_deallocateTBE, .j_popTriggerQueue,
     .kd_wakeUpDependents]⟩,
  ⟨[.ISM_F], [.All_acks_no_sharers], some .MI_F,
    [.df_issuePUTF, .j_popTriggerQueue, .kd_wakeUpDependents]⟩,
  ⟨[.OM], [.Other_GETX, .Invalidate], some .IM,
    [.e_sendData, .pp_incrementNumberOfMessagesByOne, .forward_eviction_to_cpu,
     .l_popForwardQueue]⟩,
  ⟨[.OM_F], [.Other_GETX, .Invalidate], some .IM_F,
    [.q_sendDataFromTBEToCache, .pp_incrementNumberOfMessagesByOne,
     .forward_eviction_to_cpu, .l_popForwardQueue]⟩,
  ⟨[.OM], [.NC_DMA_GETS, .Other_GETS, .Other_GETS_No_Mig], none,
    [.ee_sendDataShared, .l_popForwardQueue]⟩,
  ⟨[.OM], [.Merged_GETS], none, [.em_sendDataSharedMultiple, .l_popForwardQueue]⟩,
  ⟨[.OM_F], [.NC_DMA_GETS, .Other_GETS, .Other_GETS_No_Mig], none,
    [.et_sendDataSharedFromTBE, .l_popForwardQueue]⟩,
  ⟨[.OM_F], [.Merged_GETS], none, [.emt_sendDataSharedMultipleFromTBE, .l_popForwardQueue]⟩,
  ⟨[.OM, .OM_F], [.Ack], none,
    [.m_decrementNumberOfMessages, .o_checkForCompletion, .n_popResponseQueue]⟩,
  ⟨[.OM], [.All_acks, .All_acks_no_sharers], some .MM,
    [.sxt_trig_ext_store_hit, .gm_sendUnblockM, .s_deallocateTBE, .j_popTriggerQueue,
     .kd_wakeUpDependents]⟩,
  ⟨[.MM_F, .OM_F], [.All_acks, .All_acks_no_sharers], some .MI_F,
    [.df_issuePUTF, .j_popTriggerQueue, .kd_wakeUpDependents]⟩,
  ⟨[.IS], [.Other_GETX, .NC_DMA_GETS, .Other_GETS, .Other_GETS_No_Mig, .Invalidate], none,
    [.f_sendAck, .l_popForwardQueue]⟩,
  ⟨[.IS], [.Ack], none, [.m_decrementNumberOfMessages, .o_checkForCompletion, .n_popResponseQueue]⟩,
  ⟨[.IS], [.Shared_Ack], none,
    [.m_decrementNumberOfMessages, .r_setSharerBit, .o_checkForCompletion, .n_popResponseQueue]⟩,
  ⟨[.IS], [.Data], some .SS,
    [.u_writeDataToCache, .m_decrementNumberOfMessages, .o_checkForCompletion,
     .hx_external_load_hit, .uo_updateCurrentOwner, .n_popResponseQueue,
     .kd_wakeUpDependents]⟩,
  ⟨[.IS], [.Exclusive_Data], some .M_W,
    [.u_writeDataToCache, .m_decrementNumberOfMessages, .o_checkForCompletion,
     .hx_external_load_hit, .n_popResponseQueue, .kd_wakeUpDependents]⟩,
  ⟨[.IS], [.Shared_Data], some .SS,
    [.u_writeDataToCache, .r_setSharerBit, .m_decrementNumberOfMessages,
     .o_checkForCompletion, .hx_external_load_hit, .uo_updateCurrentOwner,
     .n_popResponseQueue, .kd_wakeUpDependents]⟩,
  ⟨[.SS], [.Ack], none, [.m_decrementNumberOfMessages, .o_checkForCompletion, .n_popResponseQueue]⟩,
  ⟨[.SS], [.Shared_Ack], none,
    [.m_decrementNumberOfMessages, .r_setSharerBit, .o_checkForCompletion, .n_popResponseQueue]⟩,
  ⟨[.SS], [.All_acks], some .S,
    [.gs_sendUnblockS, .s_deallocateTBE, .j_popTriggerQueue, .kd_wakeUpDependents]⟩,
  ⟨[.SS], [.All_acks_no_sharers], some .S,
    [.gs_sendUnblockS, .s_deallocateTBE, .j_popTriggerQueue, .kd_wakeUpDependents]⟩,
  ⟨[.MM_W], [.Store], none, [.hh_store_hit, .uu_profileL1DataHit, .k_popMandatoryQueue]⟩,
  ⟨[.MM_W, .MM_WF], [.Ack], none,
    [.m_decrementNumberOfMessages, .o_checkForCompletion, .n_popResponseQueue]⟩,
  ⟨[.MM_W], [.All_acks_no_sharers], some .MM,
    [.gm_sendUnblockM, .s_deallocateTBE, .j_popTriggerQueue, .kd_wakeUpDependents]⟩,
  ⟨[.MM_WF], [.All_acks_no_sharers], some .MI_F,
    [.df_issuePUTF, .j_popTriggerQueue, .kd_wakeUpDependents]⟩,
  ⟨[.M_W], [.Store], some .MM_W, [.hh_store_hit, .uu_profileL1DataHit, .k_popMandatoryQueue]⟩,
  ⟨[.M_W], [.Ack], none,
    [.m_decrementNumberOfMessages, .o_checkForCompletion, .n_popResponseQueue]⟩,
  ⟨[.M_W], [.All_acks_no_sharers], some .M,
    [.gm_sendUnblockM, .s_deallocateTBE, .j_popTriggerQueue, .kd_wakeUpDependents]⟩,
  ⟨[.OI, .MI], [.Other_GETX, .Invalidate], some .II,
    [.q_sendDataFromTBEToCache, .l_popForwardQueue]⟩,
  ⟨[.OI, .MI], [.NC_DMA_GETS, .Other_GETS, .Other_GETS_No_Mig], some .OI,
    [.sq_sendSharedDataFromTBEToCache, .l_popForwardQueue]⟩,
  ⟨[.OI, .MI], [.Merged_GETS], some .OI, [.qm_sendDataFromTBEToCache, .l_popForwardQueue]⟩,
  ⟨[.MI], [.Writeback_Ack], some .I,
    [.t_sendExclusiveDataFromTBEToMemory, .s_deallocateTBE, .l_popForwardQueue,
     .kd_wakeUpDependents]⟩,
  ⟨[.MI_F], [.Writeback_Ack], some .I,
    [.hh_flush_hit, .t_sendExclusiveDataFromTBEToMemory, .s_deallocateTBE,
     .l_popForwardQueue, .kd_wakeUpDependents]⟩,
  ⟨[.OI], [.Writeback_Ack], some .I,
    [.qq_sendDataFromTBEToMemory, .s_deallocateTBE, .l_popForwardQueue, .kd_wakeUpDependents]⟩,
  ⟨[.II], [.NC_DMA_GETS, .Other_GETS, .Other_GETS_No_Mig, .Other_GETX, .Invalidate], some .II,
    [.f_sendAck, .l_popForwardQueue]⟩,
  ⟨[.II], [.Writeback_Ack], some .I,
    [.g_sendUnblock, .s_deallocateTBE, .l_popForwardQueue, .kd_wakeUpDependents]⟩,
  ⟨[.II], [.Writeback_Nack], some .I, [.s_deallocateTBE, .l_popForwardQueue, .kd_wakeUpDependents]⟩,
  ⟨[.MM_F], [.Other_GETX, .Invalidate], some .IM_F,
    [.ct_sendExclusiveDataFromTBE, .pp_incrementNumberOfMessagesByOne, .l_popForwardQueue]⟩,
  ⟨[.MM_F], [.Other_GETS], some .IM_F,
    [.ct_sendExclusiveDataFromTBE, .pp_incrementNumberOfMessagesByOne, .l_popForwardQueue]⟩,
  ⟨[.MM_F], [.NC_DMA_GETS], some .OM_F, [.sq_sendSharedDataFromTBEToCache, .l_popForwardQueue]⟩,
  ⟨[.MM_F], [.Other_GETS_No_Mig], some .OM_F, [.et_sendDataSharedFromTBE, .l_popForwardQueue]⟩,
  ⟨[.MM_F], [.Merged_GETS], some .OM_F, [.emt_sendDataSharedMultipleFromTBE, .l_popForwardQueue]⟩ ]

/-- The rank of the `in_port` that triggers an event. -/
def Event.rank : Event → ℕ
  | .Complete_L2_to_L1 | .All_acks | .All_acks_no_sharers => 3
  | .Ack | .Shared_Ack | .Data | .Shared_Data | .Exclusive_Data => 2
  | .Other_GETX | .Other_GETS | .Merged_GETS | .Other_GETS_No_Mig | .NC_DMA_GETS
  | .Invalidate | .Writeback_Ack | .Writeback_Nack | .Block_Ack => 1
  | .Load | .Ifetch | .Store | .L2_Replacement | .L1_to_L2 | .Trigger_L2_to_L1D
  | .Trigger_L2_to_L1I | .Flush_line => 0

/-- What an action does to the input ports. -/
def Action.portOp : Action → PortOp
  | .j_popTriggerQueue | .k_popMandatoryQueue | .l_popForwardQueue
  | .n_popResponseQueue => .dequeue
  | .zz_stallAndWaitMandatoryQueue => .stall
  | .kd_wakeUpDependents => .wakeUp
  | .ka_wakeUpAllDependents => .wakeUpAll
  | _ => .keep

def State.stable : State → Bool
  | .I | .S | .O | .M | .MM => true
  | _ => false

def machine : Machine State Event Action where
  transitions := transitions
  rank := Event.rank
  op := Action.portOp
  stable := State.stable
  start := .I

end Gem5Gpu.VIHammer.CPUCache
