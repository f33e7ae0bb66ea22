import Gem5Gpu.Ruby.AbstractController
import Gem5Gpu.VIHammer.Msg

/-!
# The directory controller

The machine `Directory` of `VI_hammer-dir.sm`, with the probe filter and the
full-bit directory as options.  `transitions` is the table of the source,
declaration by declaration, and `Action.run` is what each action does to the
directory entry, the probe filter entry and the TBE of one block, and to the
ports.
-/

namespace Gem5Gpu.VIHammer.Directory

open Lib Ruby

inductive State
  | NX | NO | S | O | E | O_R | S_R | NO_R | NO_B | NO_B_X | NO_B_S | NO_B_S_W | O_B
  | NO_B_W | O_B_W | NO_W | O_W | NO_DW_B_W | NO_DR_B_W | NO_DR_B_D | NO_DR_B
  | NO_DW_W | O_DR_B_W | O_DR_B | WB | WB_O_W | WB_E_W | NO_F | NO_F_W
  deriving DecidableEq

inductive Event
  | GETX | GETS | PUT | Unblock | UnblockS | UnblockM | Writeback_Clean
  | Writeback_Dirty | Writeback_Exclusive_Clean | Writeback_Exclusive_Dirty
  | Pf_Replacement | DMA_READ | DMA_WRITE | Memory_Data | Memory_Ack | Ack
  | Shared_Ack | Shared_Data | Data | Exclusive_Data | All_acks_and_shared_data
  | All_acks_and_owner_data | All_acks_and_data_no_sharers | All_Unblocks | GETF
  | PUTF
  deriving DecidableEq

inductive Action
  | r_setMRU | auno_assertUnblockerNotOwner | uo_updateOwnerIfPf
  | us_updateSharerIfFBD | a_sendWriteBackAck | oc_sendBlockAck
  | b_sendWriteBackNack | pfa_probeFilterAllocate | pfd_probeFilterDeallocate
  | ppfd_possibleProbeFilterDeallocate | v_allocateTBE | vp_allocatePFReplaceInTBE
  | vd_allocateDmaRequestInTBE | pa_setPendingMsgsToAll | po_setPendingMsgsToOne
  | w_deallocateTBE | sa_setAcksToOne | saa_setAcksToAllIfPF
  | m_decrementNumberOfMessages | mu_decrementNumberOfUnblocks | n_popResponseQueue
  | o_checkForCompletion | os_checkForMergedGetSCompletion
  | sp_setPendingMsgsToMergedSharers | spa_setPendingAcksToZeroIfPF
  | sc_signalCompletionIfPF | d_sendData | dr_sendDmaData | dt_sendDmaDataFromTbe
  | da_sendDmaAck | rx_recordExclusiveInTBE | r_recordDataInTBE
  | rs_recordGetSRequestor | r_setSharerBit | so_setOwnerBit
  | qf_queueMemoryFetchRequest | qd_queueMemoryRequestFromDmaRead
  | fn_forwardRequestIfNecessary | ia_invalidateAllRequest
  | io_invalidateOwnerRequest | fb_forwardRequestBcast
  | fr_forwardMergeReadRequestsToOwner | fc_forwardRequestConditionalOwner
  | nofc_forwardRequestConditionalOwner | f_forwardWriteFromDma
  | f_forwardReadFromDma | i_popIncomingRequestQueue | j_popIncomingUnblockQueue
  | k_wakeUpDependents | l_popMemQueue | g_popTriggerQueue | p_popDmaRequestQueue
  | zd_stallAndWaitDMARequest | r_recordMemoryData | r_recordCacheData
  | a_assertCacheData | ano_assertNotOwner | ans_assertNotSharer | rs_removeSharer
  | cs_clearSharers | l_queueMemoryWBRequest | ld_queueMemoryDmaWrite
  | ly_queueMemoryWriteFromTBE | ll_checkIncomingWriteback | z_stallAndWaitRequest
  deriving DecidableEq

def transitions : List (Transition State Event Action) := [ ⟨[.E], [.GETX], some .NO_B_W,
    [.pfa_probeFilterAllocate, .v_allocateTBE, .rx_recordExclusiveInTBE,
     .saa_setAcksToAllIfPF, .qf_queueMemoryFetchRequest,
     .fn_forwardRequestIfNecessary, .i_popIncomingRequestQueue]⟩,
  ⟨[.E], [.GETF], some .NO_F_W, [.pfa_probeFilterAllocate, .v_allocateTBE, .rx_recordExclusiveInTBE,
     .saa_setAcksToAllIfPF, .qf_queueMemoryFetchRequest,
     .fn_forwardRequestIfNecessary, .i_popIncomingRequestQueue]⟩,
  ⟨[.E], [.GETS], some .NO_B_W, [.pfa_probeFilterAllocate, .v_allocateTBE, .rx_recordExclusiveInTBE,
     .saa_setAcksToAllIfPF, .qf_queueMemoryFetchRequest,
     .fn_forwardRequestIfNecessary, .i_popIncomingRequestQueue]⟩,
  ⟨[.E], [.DMA_READ], some .NO_DR_B_W,
    [.vd_allocateDmaRequestInTBE, .qd_queueMemoryRequestFromDmaRead,
     .spa_setPendingAcksToZeroIfPF, .f_forwardReadFromDma, .p_popDmaRequestQueue]⟩,
  ⟨[.E], [.DMA_WRITE], some .NO_DW_B_W, [.vd_allocateDmaRequestInTBE, .spa_setPendingAcksToZeroIfPF,
     .sc_signalCompletionIfPF, .f_forwardWriteFromDma, .p_popDmaRequestQueue]⟩,
  ⟨[.O], [.GETX], some .NO_B_W, [.r_setMRU, .v_allocateTBE, .r_recordDataInTBE, .sa_setAcksToOne,
     .qf_queueMemoryFetchRequest, .fb_forwardRequestBcast, .cs_clearSharers,
     .i_popIncomingRequestQueue]⟩,
  ⟨[.O], [.GETF], some .NO_F_W, [.r_setMRU, .v_allocateTBE, .r_recordDataInTBE, .sa_setAcksToOne,
     .qf_queueMemoryFetchRequest, .fb_forwardRequestBcast, .cs_clearSharers,
     .i_popIncomingRequestQueue]⟩,
  ⟨[.O], [.GETS], some .O_B_W,
    [.r_setMRU, .v_allocateTBE, .r_recordDataInTBE, .saa_setAcksToAllIfPF,
     .qf_queueMemoryFetchRequest, .fn_forwardRequestIfNecessary,
     .i_popIncomingRequestQueue]⟩,
  ⟨[.O], [.DMA_READ], some .O_DR_B_W, [.vd_allocateDmaRequestInTBE, .spa_setPendingAcksToZeroIfPF,
     .qd_queueMemoryRequestFromDmaRead, .f_forwardReadFromDma, .p_popDmaRequestQueue]⟩,
  ⟨[.O], [.Pf_Replacement], some .O_R,
    [.v_allocateTBE, .pa_setPendingMsgsToAll, .ia_invalidateAllRequest,
     .o_checkForCompletion, .pfd_probeFilterDeallocate]⟩,
  ⟨[.S], [.Pf_Replacement], some .S_R,
    [.v_allocateTBE, .pa_setPendingMsgsToAll, .ia_invalidateAllRequest,
     .o_checkForCompletion, .pfd_probeFilterDeallocate]⟩,
  ⟨[.NO], [.Pf_Replacement], some .NO_R,
    [.vp_allocatePFReplaceInTBE, .po_setPendingMsgsToOne, .io_invalidateOwnerRequest,
     .pfd_probeFilterDeallocate]⟩,
  ⟨[.NX], [.Pf_Replacement], some .NO_R,
    [.vp_allocatePFReplaceInTBE, .pa_setPendingMsgsToAll, .ia_invalidateAllRequest,
     .o_checkForCompletion, .pfd_probeFilterDeallocate]⟩,
  ⟨[.O, .S, .NO, .NX], [.DMA_WRITE], some .NO_DW_B_W,
    [.vd_allocateDmaRequestInTBE, .f_forwardWriteFromDma, .p_popDmaRequestQueue]⟩,
  ⟨[.NX], [.GETX], some .NO_B,
    [.r_setMRU, .fb_forwardRequestBcast, .cs_clearSharers, .i_popIncomingRequestQueue]⟩,
  ⟨[.NX], [.GETF], some .NO_F,
    [.r_setMRU, .fb_forwardRequestBcast, .cs_clearSharers, .i_popIncomingRequestQueue]⟩,
  ⟨[.NO], [.GETX], some .NO_B, [.r_setMRU, .ano_assertNotOwner, .fc_forwardRequestConditionalOwner,
     .cs_clearSharers, .i_popIncomingRequestQueue]⟩,
  ⟨[.NO], [.GETF], some .NO_F, [.r_setMRU, .nofc_forwardRequestConditionalOwner, .cs_clearSharers,
     .oc_sendBlockAck, .i_popIncomingRequestQueue]⟩,
  ⟨[.S], [.GETX], some .NO_B,
    [.r_setMRU, .fb_forwardRequestBcast, .cs_clearSharers, .i_popIncomingRequestQueue]⟩,
  ⟨[.S], [.GETF], some .NO_F,
    [.r_setMRU, .fb_forwardRequestBcast, .cs_clearSharers, .i_popIncomingRequestQueue]⟩,
  ⟨[.S], [.GETS], some .NO_B, [.r_setMRU, .ano_assertNotOwner, .fb_forwardRequestBcast,
     .i_popIncomingRequestQueue]⟩,
  ⟨[.NO], [.GETS], some .NO_B, [.r_setMRU, .ano_assertNotOwner, .ans_assertNotSharer,
     .fc_forwardRequestConditionalOwner, .i_popIncomingRequestQueue]⟩,
  ⟨[.NX], [.GETS], some .NO_B, [.r_setMRU, .ano_assertNotOwner, .fc_forwardRequestConditionalOwner,
     .i_popIncomingRequestQueue]⟩,
  ⟨[.NO, .NX, .S], [.PUT], some .WB, [.a_sendWriteBackAck, .i_popIncomingRequestQueue]⟩,
  ⟨[.NO, .NX, .S], [.DMA_READ], some .NO_DR_B_D,
    [.vd_allocateDmaRequestInTBE, .f_forwardReadFromDma, .p_popDmaRequestQueue]⟩,
  ⟨[.O, .E], [.PUT], none, [.b_sendWriteBackNack, .i_popIncomingRequestQueue]⟩,
  ⟨[.NO_B_X, .O_B, .NO_DR_B_W, .NO_DW_B_W, .NO_B_W, .NO_DR_B_D, .NO_DR_B, .O_DR_B,
    .O_B_W, .O_DR_B_W, .NO_DW_W, .NO_B_S_W, .NO_W, .O_W, .WB, .WB_E_W, .WB_O_W, .O_R,
    .S_R, .NO_R, .NO_F_W], [.GETS, .GETX, .GETF, .PUT, .Pf_Replacement], none,
    [.z_stallAndWaitRequest]⟩,
  ⟨[.NO_F], [.GETS, .GETX, .GETF, .PUT, .Pf_Replacement], none, [.z_stallAndWaitRequest]⟩,
  ⟨[.NO_B], [.GETX, .GETF], some .NO_B_X, [.z_stallAndWaitRequest]⟩,
  ⟨[.NO_B], [.PUT, .Pf_Replacement], none, [.z_stallAndWaitRequest]⟩,
  ⟨[.NO_B_S], [.GETX, .GETF, .PUT, .Pf_Replacement], none, [.z_stallAndWaitRequest]⟩,
  ⟨[.NO_B_X, .NO_B, .NO_B_S, .O_B, .NO_DR_B_W, .NO_DW_B_W, .NO_B_W, .NO_DR_B_D,
    .NO_DR_B, .O_DR_B, .O_B_W, .O_DR_B_W, .NO_DW_W, .NO_B_S_W, .NO_W, .O_W, .WB,
    .WB_E_W, .WB_O_W, .O_R, .S_R, .NO_R, .NO_F_W], [.DMA_READ, .DMA_WRITE], none,
    [.zd_stallAndWaitDMARequest]⟩,
  ⟨[.NO_B], [.GETS], some .NO_B_S,
    [.v_allocateTBE, .rs_recordGetSRequestor, .i_popIncomingRequestQueue]⟩,
  ⟨[.NO_B_S], [.GETS], none, [.rs_recordGetSRequestor, .i_popIncomingRequestQueue]⟩,
  ⟨[.NO_B, .NO_B_X], [.UnblockS], some .NX,
    [.us_updateSharerIfFBD, .k_wakeUpDependents, .j_popIncomingUnblockQueue]⟩,
  ⟨[.NO_B, .NO_B_X], [.UnblockM], some .NO,
    [.uo_updateOwnerIfPf, .us_updateSharerIfFBD, .k_wakeUpDependents, .j_popIncomingUnblockQueue]⟩,
  ⟨[.NO_B_S], [.UnblockS], some .NO_B_S_W,
    [.us_updateSharerIfFBD, .fr_forwardMergeReadRequestsToOwner,
     .sp_setPendingMsgsToMergedSharers, .j_popIncomingUnblockQueue]⟩,
  ⟨[.NO_B_S], [.UnblockM], some .NO_B_S_W,
    [.uo_updateOwnerIfPf, .fr_forwardMergeReadRequestsToOwner,
     .sp_setPendingMsgsToMergedSharers, .j_popIncomingUnblockQueue]⟩,
  ⟨[.NO_B_S_W], [.UnblockS], none, [.us_updateSharerIfFBD, .mu_decrementNumberOfUnblocks,
     .os_checkForMergedGetSCompletion, .j_popIncomingUnblockQueue]⟩,
  ⟨[.NO_B_S_W], [.All_Unblocks], some .NX,
    [.w_deallocateTBE, .k_wakeUpDependents, .g_popTriggerQueue]⟩,
  ⟨[.O_B], [.UnblockS], some .O,
    [.us_updateSharerIfFBD, .k_wakeUpDependents, .j_popIncomingUnblockQueue]⟩,
  ⟨[.O_B], [.UnblockM], some .NO, [.us_updateSharerIfFBD, .uo_updateOwnerIfPf, .k_wakeUpDependents,
     .j_popIncomingUnblockQueue]⟩,
  ⟨[.NO_B_W], [.Memory_Data], some .NO_B, [.d_sendData, .w_deallocateTBE, .l_popMemQueue]⟩,
  ⟨[.NO_F_W], [.Memory_Data], some .NO_F, [.d_sendData, .w_deallocateTBE, .l_popMemQueue]⟩,
  ⟨[.NO_DR_B_W], [.Memory_Data], some .NO_DR_B,
    [.r_recordMemoryData, .o_checkForCompletion, .l_popMemQueue]⟩,
  ⟨[.O_DR_B_W], [.Memory_Data], some .O_DR_B,
    [.r_recordMemoryData, .dr_sendDmaData, .o_checkForCompletion, .l_popMemQueue]⟩,
  ⟨[.NO_DR_B, .O_DR_B, .NO_DR_B_D, .NO_DW_B_W], [.Ack], none,
    [.m_decrementNumberOfMessages, .o_checkForCompletion, .n_popResponseQueue]⟩,
  ⟨[.O_R, .S_R, .NO_R], [.Ack], none,
    [.m_decrementNumberOfMessages, .o_checkForCompletion, .n_popResponseQueue]⟩,
  ⟨[.S_R], [.Data], none,
    [.m_decrementNumberOfMessages, .o_checkForCompletion, .n_popResponseQueue]⟩,
  ⟨[.NO_R], [.Data, .Exclusive_Data], none,
    [.r_recordCacheData, .m_decrementNumberOfMessages, .o_checkForCompletion, .n_popResponseQueue]⟩,
  ⟨[.O_R, .S_R], [.All_acks_and_data_no_sharers], some .E,
    [.w_deallocateTBE, .k_wakeUpDependents, .g_popTriggerQueue]⟩,
  ⟨[.NO_R], [.All_acks_and_data_no_sharers], some .WB_E_W,
    [.ly_queueMemoryWriteFromTBE, .w_deallocateTBE, .k_wakeUpDependents, .g_popTriggerQueue]⟩,
  ⟨[.NO_DR_B_W, .O_DR_B_W], [.Ack], none, [.m_decrementNumberOfMessages, .n_popResponseQueue]⟩,
  ⟨[.NO_DR_B_W], [.Shared_Ack], none,
    [.m_decrementNumberOfMessages, .r_setSharerBit, .n_popResponseQueue]⟩,
  ⟨[.O_DR_B], [.Shared_Ack], none,
    [.m_decrementNumberOfMessages, .r_setSharerBit, .o_checkForCompletion, .n_popResponseQueue]⟩,
  ⟨[.O_DR_B_W], [.Shared_Ack], none,
    [.m_decrementNumberOfMessages, .r_setSharerBit, .n_popResponseQueue]⟩,
  ⟨[.NO_DR_B, .NO_DR_B_D], [.Shared_Ack], none,
    [.m_decrementNumberOfMessages, .r_setSharerBit, .o_checkForCompletion, .n_popResponseQueue]⟩,
  ⟨[.NO_DR_B_W], [.Shared_Data], none,
    [.r_recordCacheData, .m_decrementNumberOfMessages, .so_setOwnerBit,
     .o_checkForCompletion, .n_popResponseQueue]⟩,
  ⟨[.NO_DR_B, .NO_DR_B_D], [.Shared_Data], none,
    [.r_recordCacheData, .m_decrementNumberOfMessages, .so_setOwnerBit,
     .o_checkForCompletion, .n_popResponseQueue]⟩,
  ⟨[.NO_DR_B_W], [.Exclusive_Data, .Data], none,
    [.r_recordCacheData, .m_decrementNumberOfMessages, .n_popResponseQueue]⟩,
  ⟨[.NO_DR_B, .NO_DR_B_D, .NO_DW_B_W], [.Exclusive_Data, .Data], none,
    [.r_recordCacheData, .m_decrementNumberOfMessages, .o_checkForCompletion, .n_popResponseQueue]⟩,
  ⟨[.NO_DR_B], [.All_acks_and_owner_data], some .WB_O_W,
    [.dt_sendDmaDataFromTbe, .ly_queueMemoryWriteFromTBE, .w_deallocateTBE,
     .k_wakeUpDependents, .g_popTriggerQueue]⟩,
  ⟨[.NO_DR_B], [.All_acks_and_shared_data], some .S,
    [.dt_sendDmaDataFromTbe, .w_deallocateTBE, .k_wakeUpDependents, .g_popTriggerQueue]⟩,
  ⟨[.NO_DR_B_D], [.All_acks_and_owner_data], some .WB_O_W,
    [.dt_sendDmaDataFromTbe, .ly_queueMemoryWriteFromTBE, .w_deallocateTBE,
     .k_wakeUpDependents, .g_popTriggerQueue]⟩,
  ⟨[.NO_DR_B_D], [.All_acks_and_shared_data], some .S,
    [.dt_sendDmaDataFromTbe, .w_deallocateTBE, .k_wakeUpDependents, .g_popTriggerQueue]⟩,
  ⟨[.O_DR_B], [.All_acks_and_owner_data], some .WB_O_W,
    [.ly_queueMemoryWriteFromTBE, .w_deallocateTBE, .k_wakeUpDependents, .g_popTriggerQueue]⟩,
  ⟨[.O_DR_B], [.All_acks_and_data_no_sharers], some .WB_E_W,
    [.ly_queueMemoryWriteFromTBE, .w_deallocateTBE, .pfd_probeFilterDeallocate,
     .k_wakeUpDependents, .g_popTriggerQueue]⟩,
  ⟨[.NO_DR_B], [.All_acks_and_data_no_sharers], some .WB_E_W,
    [.dt_sendDmaDataFromTbe, .ly_queueMemoryWriteFromTBE, .w_deallocateTBE,
     .ppfd_possibleProbeFilterDeallocate, .k_wakeUpDependents, .g_popTriggerQueue]⟩,
  ⟨[.NO_DR_B_D], [.All_acks_and_data_no_sharers], some .WB_E_W,
    [.a_assertCacheData, .dt_sendDmaDataFromTbe, .ly_queueMemoryWriteFromTBE,
     .w_deallocateTBE, .ppfd_possibleProbeFilterDeallocate, .k_wakeUpDependents,
     .g_popTriggerQueue]⟩,
  ⟨[.NO_DW_B_W], [.All_acks_and_data_no_sharers], some .NO_DW_W,
    [.ld_queueMemoryDmaWrite, .g_popTriggerQueue]⟩,
  ⟨[.NO_DW_W], [.Memory_Ack], some .E,
    [.da_sendDmaAck, .w_deallocateTBE, .ppfd_possibleProbeFilterDeallocate,
     .k_wakeUpDependents, .l_popMemQueue]⟩,
  ⟨[.O_B_W], [.Memory_Data], some .O_B, [.d_sendData, .w_deallocateTBE, .l_popMemQueue]⟩,
  ⟨[.NO_B_W], [.UnblockM], some .NO_W, [.uo_updateOwnerIfPf, .j_popIncomingUnblockQueue]⟩,
  ⟨[.NO_B_W], [.UnblockS], some .NO_W, [.us_updateSharerIfFBD, .j_popIncomingUnblockQueue]⟩,
  ⟨[.O_B_W], [.UnblockS], some .O_W, [.us_updateSharerIfFBD, .j_popIncomingUnblockQueue]⟩,
  ⟨[.NO_W], [.Memory_Data], some .NO, [.w_deallocateTBE, .k_wakeUpDependents, .l_popMemQueue]⟩,
  ⟨[.O_W], [.Memory_Data], some .O, [.w_deallocateTBE, .k_wakeUpDependents, .l_popMemQueue]⟩,
  ⟨[.WB], [.Writeback_Dirty], some .WB_O_W,
    [.rs_removeSharer, .l_queueMemoryWBRequest, .j_popIncomingUnblockQueue]⟩,
  ⟨[.WB], [.Writeback_Exclusive_Dirty], some .WB_E_W,
    [.rs_removeSharer, .l_queueMemoryWBRequest, .pfd_probeFilterDeallocate,
     .j_popIncomingUnblockQueue]⟩,
  ⟨[.WB_E_W], [.Memory_Ack], some .E, [.k_wakeUpDependents, .l_popMemQueue]⟩,
  ⟨[.WB_O_W], [.Memory_Ack], some .O, [.k_wakeUpDependents, .l_popMemQueue]⟩,
  ⟨[.WB], [.Writeback_Clean], some .O,
    [.ll_checkIncomingWriteback, .rs_removeSharer, .k_wakeUpDependents,
     .j_popIncomingUnblockQueue]⟩,
  ⟨[.WB], [.Writeback_Exclusive_Clean], some .E,
    [.ll_checkIncomingWriteback, .rs_removeSharer, .pfd_probeFilterDeallocate,
     .k_wakeUpDependents, .j_popIncomingUnblockQueue]⟩,
  ⟨[.WB], [.Unblock], some .NX,
    [.auno_assertUnblockerNotOwner, .k_wakeUpDependents, .j_popIncomingUnblockQueue]⟩,
  ⟨[.NO_F], [.PUTF], some .WB, [.a_sendWriteBackAck, .i_popIncomingRequestQueue]⟩,
  ⟨[.NO_F], [.UnblockM], none,
    [.us_updateSharerIfFBD, .uo_updateOwnerIfPf, .j_popIncomingUnblockQueue]⟩ ]

/-- The rank of the `in_port` that triggers an event. -/
def Event.rank : Event → ℕ
  | .All_acks_and_shared_data | .All_acks_and_owner_data
  | .All_acks_and_data_no_sharers | .All_Unblocks => 5
  | .Unblock | .UnblockS | .UnblockM | .Writeback_Clean | .Writeback_Dirty
  | .Writeback_Exclusive_Clean | .Writeback_Exclusive_Dirty => 4
  | .Ack | .Shared_Ack | .Shared_Data | .Data | .Exclusive_Data => 3
  | .Memory_Data | .Memory_Ack => 2
  | .GETX | .GETS | .GETF | .PUT | .PUTF | .Pf_Replacement => 1
  | .DMA_READ | .DMA_WRITE => 0

/-- What an action does to the input ports. -/
def Action.portOp : Action → PortOp
  | .i_popIncomingRequestQueue | .j_popIncomingUnblockQueue | .l_popMemQueue
  | .g_popTriggerQueue | .p_popDmaRequestQueue | .n_popResponseQueue => .dequeue
  | .z_stallAndWaitRequest | .zd_stallAndWaitDMARequest => .stall
  | .k_wakeUpDependents => .wakeUp
  | _ => .keep

def State.stable : State → Bool
  | .E | .O | .S | .NO | .NX => true
  | _ => false

def machine : Machine State Event Action where
  transitions := transitions
  rank := Event.rank
  op := Action.portOp
  stable := State.stable
  start := .E

end Gem5Gpu.VIHammer.Directory
