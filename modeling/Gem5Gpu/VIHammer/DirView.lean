import Gem5Gpu.VIHammer.View

/-!
# The directory without a probe filter

What each transition of the directory does when it broadcasts.  A busy directory
stalls the requests of the caches and of the DMA controller; one lemma for each
of the other transitions says what is left of its TBE and what is sent.
-/

namespace Gem5Gpu.VIHammer.Directory

open Lib Ruby

variable {ι : Type} [DecidableEq ι] [Fintype ι] {L : ℕ} {o : Option (DirTBE ι L)} {c : DirCtx ι L}
  {st' : State}

/-- The directory has no probe filter. -/
def broadcast (now : ℕ) : DirEnv := ⟨⟨false, false⟩, now⟩

variable {now : ℕ} {st : State} {e : Event} {inp : Input ι L} {t : DirTBE ι L}
  {m : RequestMsg ι} {r : ResponseMsg ι L} {d : DataBlock L}

theorem broadcast_filter : (broadcast now).cfg.filter = false := rfl

theorem broadcast_full : (broadcast now).cfg.full_bit_dir_enabled = false := rfl

/-- A transition whose declaration is known. -/
theorem doTransition_row {l : DirLine ι L} {row : Transition State Event Action}
    (hst : l.getState ⟨false, false⟩ = .ok st)
    (hrow : Transition.lookup transitions st e = some row) :
    doTransition (broadcast now) inp e l = (do
      let c ← runActions (Action.run (broadcast now) inp) row.actions { toDirLine := l }
      let l ← c.toDirLine.setState ⟨false, false⟩ (row.target st)
      pure { c with toDirLine := l }) := by
  unfold doTransition
  rw [show (broadcast now).cfg = ⟨false, false⟩ from rfl, hst, ok_bind]
  simp only [hrow]

omit [DecidableEq ι] [Fintype ι] in
theorem getState_tbe (ht : t.tbeState = st) :
    (⟨st, none, some t⟩ : DirLine ι L).getState ⟨false, false⟩ = .ok st :=
  congrArg Except.ok ht

/-! ## Stalled requests -/

/-- A declaration that stalls. -/
structure Stalls (row : Transition State Event Action) : Prop where
  next : row.next = none
  actions : row.actions = [.z_stallAndWaitRequest] ∨ row.actions = [.zd_stallAndWaitDMARequest]

theorem doTransition_stall {row : Transition State Event Action}
    (hrow : Transition.lookup transitions st e = some row) (hstalls : Stalls row)
    (ho : ∀ t, o = some t → t.tbeState = st) (hst : st.stable = false) :
    doTransition (broadcast now) inp e ⟨st, none, o⟩ = .ok ⟨⟨st, none, o⟩, [], false⟩ := by
  have hstate : (⟨st, none, o⟩ : DirLine ι L).getState ⟨false, false⟩ = .ok st := by
    cases o with
    | none => rfl
    | some t => exact getState_tbe (ho t rfl)
  have htbe : (o.map fun t => { t with tbeState := st }) = o := by
    cases o with
    | none => rfl
    | some t =>
      obtain rfl := ho t rfl
      rfl
  have hset : (⟨st, none, o⟩ : DirLine ι L).setState ⟨false, false⟩ st = .ok ⟨st, none, o⟩ := by
    have hfree : ¬ (st = .E ∨ st = .NX ∨ st = .NO ∨ st = .S ∨ st = .O) := by
      rintro (rfl | rfl | rfl | rfl | rfl) <;> cases hst
    simp only [DirLine.setState, Config.filter, check, hfree, Bool.or_self, if_false,
      Bool.false_eq_true, false_implies, if_true, htbe]
    rfl
  rw [doTransition_row hstate hrow]
  have hrun : runActions (Action.run (broadcast now) inp) row.actions
      { toDirLine := (⟨st, none, o⟩ : DirLine ι L) } = .ok ⟨⟨st, none, o⟩, [], false⟩ := by
    rcases hstalls.actions with ha | ha <;> rw [ha] <;> rfl
  rw [hrun, ok_bind, Transition.target, hstalls.next]
  show (do let l ← (⟨st, none, o⟩ : DirLine ι L).setState ⟨false, false⟩ st; _) = _
  rw [hset]
  rfl

/-- The states in which every request of a cache waits. -/
def State.busy : State → Bool
  | .NO_B_X | .O_B | .NO_DR_B_W | .NO_DW_B_W | .NO_B_W | .NO_DR_B_D | .NO_DR_B | .O_DR_B
  | .O_B_W | .O_DR_B_W | .NO_DW_W | .NO_B_S_W | .WB | .WB_E_W | .WB_O_W => true
  | _ => false

/-- The requests of a cache. -/
def Event.ofCache : Event → Bool
  | .GETX | .GETS | .PUT => true
  | _ => false

/-- The requests of the DMA controller. -/
def Event.ofDma : Event → Bool
  | .DMA_READ | .DMA_WRITE => true
  | _ => false

theorem stall_busy (hst : st.busy)
    (he : e.ofCache = true ∨ e.ofDma = true) (ho : ∀ t, o = some t → t.tbeState = st) :
    doTransition (broadcast now) inp e ⟨st, none, o⟩ = .ok ⟨⟨st, none, o⟩, [], false⟩ := by
  have hrow : ∃ row, Transition.lookup transitions st e = some row ∧ Stalls row := by
    rcases he with he | he
    · cases st <;> cases hst <;> cases e <;> cases he <;> exact ⟨_, rfl, rfl, .inl rfl⟩
    · cases st <;> cases hst <;> cases e <;> cases he <;> exact ⟨_, rfl, rfl, .inr rfl⟩
  obtain ⟨row, hlookup, hstalls⟩ := hrow
  refine doTransition_stall hlookup hstalls ho ?_
  cases st <;> cases hst <;> rfl

/-- A directory that waits for an unblock message stalls write-backs and DMA
requests. -/
theorem stall_blocked (hst : st = .NO_B ∨ st = .NO_B_S)
    (he : e = .PUT ∨ e.ofDma = true ∨ st = .NO_B_S ∧ e = .GETX)
    (ho : ∀ t, o = some t → t.tbeState = st) :
    doTransition (broadcast now) inp e ⟨st, none, o⟩ = .ok ⟨⟨st, none, o⟩, [], false⟩ := by
  have hrow : ∃ row, Transition.lookup transitions st e = some row ∧ Stalls row := by
    rcases he with rfl | he | ⟨rfl, rfl⟩
    · rcases hst with rfl | rfl <;> exact ⟨_, rfl, rfl, .inl rfl⟩
    · rcases hst with rfl | rfl <;> cases e <;> cases he <;> exact ⟨_, rfl, rfl, .inr rfl⟩
    · exact ⟨_, rfl, rfl, .inl rfl⟩
  obtain ⟨row, hlookup, hstalls⟩ := hrow
  refine doTransition_stall hlookup hstalls ho ?_
  rcases hst with rfl | rfl <;> rfl

/-- A GETX stalls a directory that waits for an unblock message, and keeps GETS
requests from being put aside. -/
theorem getx_blocked : doTransition (broadcast now) inp .GETX (⟨.NO_B, none, none⟩ : DirLine ι L) =
      .ok ⟨⟨.NO_B_X, none, none⟩, [], false⟩ := rfl

/-! ## Requests of the caches -/

/-- The message that forwards a request to the other caches. -/
def probeOthers (now : ℕ) (m : RequestMsg ι) : DirSend ι L :=
  .forward (Finset.univ \ m.requestor.caches) (forwarded (broadcast now) m)

theorem forwardRequestBcast_eq (hn : 1 < machineCount ι) (c : DirCtx ι L) :
    forwardRequestBcast (broadcast now) m c = .ok (c.send (probeOthers now m)) := by
  simp only [forwardRequestBcast, forwardSet, broadcast, Bool.false_eq_true, if_false,
    pure_bind, hn, true_and, true_or, if_true]
  rfl

theorem forwardRequestIfNecessary_eq (hn : 1 < machineCount ι)
    (hc : c.tbe = some t) (ht : t.acks ≤ 1) :
    forwardRequestIfNecessary (broadcast now) m c = .ok (c.send (probeOthers now m)) := by
  simp only [forwardRequestIfNecessary, DirCtx.getTBE, hc, forwardSet, broadcast,
    Bool.false_eq_true, if_false, pure_bind, hn, ht, true_and, if_true]
  rfl

theorem forwardToOwner_eq (c : DirCtx ι L) :
    forwardToOwner (broadcast now) m c = .ok (c.send (probeOthers now m)) := rfl

variable (now)

/-- A request to a block with an owner. -/
theorem get_owned (hn : 1 < machineCount ι) (hst : st = .NO ∨ st = .NX ∨ st = .S)
    (he : e = .GETX ∨ e = .GETS) :
    doTransition (broadcast now) (.request m) e (⟨st, none, none⟩ : DirLine ι L) =
      .ok ⟨⟨.NO_B, none, none⟩, [probeOthers now m], true⟩ := by
  rcases hst with rfl | rfl | rfl <;> rcases he with rfl | rfl <;>
    rw [doTransition_row rfl rfl] <;>
    simp only [runActions, Action.run, broadcast_filter, broadcast_full, Bool.false_eq_true,
      if_false, Input.peekRequest, check, if_pos hn, forwardToOwner_eq,
      forwardRequestBcast_eq hn, pure_bind, ok_bind] <;>
    rfl

/-- A request to a block that only the memory has. -/
theorem get_exclusive (hn : 1 < machineCount ι) (he : e = .GETX ∨ e = .GETS) : ∃ t : DirTBE ι L,
      doTransition (broadcast now) (.request m) e (⟨.E, none, none⟩ : DirLine ι L) =
        .ok ⟨⟨.NO_B_W, none, some t⟩, [.memory (.read m.requestor), probeOthers now m], true⟩ ∧
      t.tbeState = .NO_B_W ∧ t.acks = 1 ∧ t.silentAcks = 0 ∧
      t.responseType = .DATA_EXCLUSIVE := by
  refine ⟨{ tbeState := .NO_B_W, dmaRequestor := m.requestor, responseType := .DATA_EXCLUSIVE
            acks := 1 }, ?_, rfl, rfl, rfl, rfl⟩
  rcases he with rfl | rfl <;>
    rw [doTransition_row rfl rfl] <;>
    simp only [runActions, Action.run, broadcast_filter, Bool.false_eq_true,
      if_false, Input.peekRequest, DirCtx.allocate, DirCtx.setTBE, DirCtx.getTBE, check,
      Option.isNone_none, if_true, pure_bind, ok_bind] <;>
    rw [forwardRequestIfNecessary_eq hn rfl le_rfl] <;>
    rfl

/-- A request to a block that the memory has and caches may share. -/
theorem get_shared (hn : 1 < machineCount ι) (he : e = .GETX ∨ e = .GETS) :
    ∃ (t : DirTBE ι L) (st : State),
      doTransition (broadcast now) (.request m) e (⟨.O, none, none⟩ : DirLine ι L) =
        .ok ⟨⟨st, none, some t⟩, [.memory (.read m.requestor), probeOthers now m], true⟩ ∧
      t.tbeState = st ∧ t.acks = 1 ∧ t.silentAcks = 0 ∧ t.responseType = .DATA ∧
      st = if e = .GETX then .NO_B_W else .O_B_W := by
  rcases he with rfl | rfl
  · refine ⟨{ tbeState := .NO_B_W, dmaRequestor := m.requestor, responseType := .DATA
              acks := 1 }, .NO_B_W, ?_, rfl, rfl, rfl, rfl, rfl⟩
    rw [doTransition_row rfl rfl]
    simp only [runActions, Action.run, broadcast_filter, broadcast_full, Bool.false_eq_true,
      if_false, Input.peekRequest, DirCtx.allocate, DirCtx.setTBE, DirCtx.getTBE, check,
      Option.isNone_none, if_true, recordedType, setAcksToOne, forwardRequestBcast_eq hn,
      pure_bind, ok_bind]
    rfl
  · refine ⟨{ tbeState := .O_B_W, dmaRequestor := m.requestor, responseType := .DATA
              acks := 1 }, .O_B_W, ?_, rfl, rfl, rfl, rfl, rfl⟩
    rw [doTransition_row rfl rfl]
    simp only [runActions, Action.run, broadcast_filter, broadcast_full, Bool.false_eq_true,
      if_false, Input.peekRequest, DirCtx.allocate, DirCtx.setTBE, DirCtx.getTBE, check,
      Option.isNone_none, if_true, recordedType, pure_bind, ok_bind]
    rw [forwardRequestIfNecessary_eq hn rfl le_rfl]
    rfl

/-- A write-back of a block with an owner. -/
theorem put_owned (hst : st = .NO ∨ st = .NX ∨ st = .S) :
    doTransition (broadcast now) (.request m) .PUT (⟨st, none, none⟩ : DirLine ι L) =
      .ok ⟨⟨.WB, none, none⟩,
        [.forward m.requestor.caches { type := .WB_ACK, requestor := m.requestor }], true⟩ := by
  rcases hst with rfl | rfl | rfl <;> rfl

/-- A write-back of a block without an owner comes too late. -/
theorem put_late (hst : st = .O ∨ st = .E) :
    doTransition (broadcast now) (.request m) .PUT (⟨st, none, none⟩ : DirLine ι L) =
      .ok ⟨⟨st, none, none⟩,
        [.forward m.requestor.caches { type := .WB_NACK, requestor := m.requestor }], true⟩ := by
  rcases hst with rfl | rfl <;> rfl

/-- A GETS is put aside. -/
theorem gets_blocked :
    doTransition (broadcast now) (.request m) .GETS (⟨.NO_B, none, none⟩ : DirLine ι L) =
      .ok ⟨⟨.NO_B_S, none, some
        { tbeState := .NO_B_S, dmaRequestor := m.requestor
          getSRequestors := ∅ ∪ m.requestor.caches }⟩, [], true⟩ := rfl

theorem gets_merging (ht : t.tbeState = .NO_B_S) :
    doTransition (broadcast now) (.request m) .GETS (⟨.NO_B_S, none, some t⟩ : DirLine ι L) =
      .ok ⟨⟨.NO_B_S, none, some { t with
        tbeState := .NO_B_S, getSRequestors := t.getSRequestors ∪ m.requestor.caches }⟩,
        [], true⟩ := by
  rw [doTransition_row (getState_tbe ht) rfl]
  rfl

/-! ## Unblock messages -/

theorem unblockS_owned (hst : st = .NO_B ∨ st = .NO_B_X) :
    doTransition (broadcast now) (.unblock r) .UnblockS (⟨st, none, none⟩ : DirLine ι L) =
      .ok ⟨⟨.NX, none, none⟩, [], true⟩ := by
  rcases hst with rfl | rfl <;> rfl

theorem unblockM_owned (hst : st = .NO_B ∨ st = .NO_B_X) :
    doTransition (broadcast now) (.unblock r) .UnblockM (⟨st, none, none⟩ : DirLine ι L) =
      .ok ⟨⟨.NO, none, none⟩, [], true⟩ := by
  rcases hst with rfl | rfl <;> rfl

theorem unblockS_clean :
    doTransition (broadcast now) (.unblock r) .UnblockS (⟨.O_B, none, none⟩ : DirLine ι L) =
      .ok ⟨⟨.O, none, none⟩, [], true⟩ := rfl

/-- The GETS requests that were put aside go to the owner. -/
theorem unblock_merging (hn : 1 < machineCount ι) (ht : t.tbeState = .NO_B_S)
    (he : e = .UnblockS ∨ e = .UnblockM) :
    doTransition (broadcast now) (.unblock r) e (⟨.NO_B_S, none, some t⟩ : DirLine ι L) =
      .ok ⟨⟨.NO_B_S_W, none, some { t with
          tbeState := .NO_B_S_W, numPendingMsgs := t.getSRequestors.card }⟩,
        [.forward (if r.type = .UNBLOCKS then r.curOwner else r.sender).caches
          { type := .MERGED_GETS, requestor := .unset
            mergedRequestors := t.getSRequestors, forwardRequestTime := now }], true⟩ := by
  rcases he with rfl | rfl <;>
    rw [doTransition_row (getState_tbe ht) rfl] <;>
    simp only [runActions, Action.run, broadcast_filter, broadcast_full, Bool.false_eq_true,
      if_false, check, if_pos hn, pure_bind, ok_bind] <;>
    rfl

theorem unblock_feeding (ht : t.tbeState = .NO_B_S_W) (hr : r.type = .UNBLOCKS) :
    doTransition (broadcast now) (.unblock r) .UnblockS (⟨.NO_B_S_W, none, some t⟩ : DirLine ι L) =
      .ok ⟨⟨.NO_B_S_W, none, some { t with
          tbeState := .NO_B_S_W, numPendingMsgs := t.numPendingMsgs - 1 }⟩,
        if t.numPendingMsgs - 1 = 0 then [.trigger .ALL_UNBLOCKS] else [], true⟩ := by
  rw [doTransition_row (getState_tbe ht) rfl]
  simp only [runActions, Action.run, broadcast_full, Bool.false_eq_true,
    if_false, Input.peekUnblock, DirCtx.getTBE, check, if_pos hr, DirCtx.setTBE, pure_bind, ok_bind]
  split <;> rfl

theorem allUnblocks (ht : t.tbeState = .NO_B_S_W) : doTransition (broadcast now) inp .All_Unblocks
        (⟨.NO_B_S_W, none, some t⟩ : DirLine ι L) =
      .ok ⟨⟨.NX, none, none⟩, [], true⟩ := by
  rw [doTransition_row (getState_tbe ht) rfl]
  rfl

/-! ## Write-backs -/

theorem writeback_clean (hr : r.dirty = false) :
    doTransition (broadcast now) (.unblock r) .Writeback_Clean (⟨.WB, none, none⟩ : DirLine ι L) =
      .ok ⟨⟨.O, none, none⟩, [], true⟩ := by
  rw [doTransition_row rfl rfl]
  simp only [runActions, Action.run, Input.peekUnblock, check, if_pos hr, pure_bind, ok_bind]
  rfl

theorem writeback_exclusive_clean (hr : r.dirty = false) :
    doTransition (broadcast now) (.unblock r) .Writeback_Exclusive_Clean
        (⟨.WB, none, none⟩ : DirLine ι L) =
      .ok ⟨⟨.E, none, none⟩, [], true⟩ := by
  rw [doTransition_row rfl rfl]
  simp only [runActions, Action.run, Input.peekUnblock, check, if_pos hr, pure_bind, ok_bind]
  rfl

theorem writeback_dirty : doTransition (broadcast now) (.unblock r) .Writeback_Dirty
        (⟨.WB, none, none⟩ : DirLine ι L) =
      .ok ⟨⟨.WB_O_W, none, none⟩, [.memory (.write r.dataBlk)], true⟩ := rfl

theorem writeback_exclusive_dirty :
    doTransition (broadcast now) (.unblock r) .Writeback_Exclusive_Dirty
        (⟨.WB, none, none⟩ : DirLine ι L) =
      .ok ⟨⟨.WB_E_W, none, none⟩, [.memory (.write r.dataBlk)], true⟩ := rfl

/-- A write-back that was overtaken by a request. -/
theorem writeback_none : doTransition (broadcast now) (.unblock r) .Unblock
        (⟨.WB, none, none⟩ : DirLine ι L) =
      .ok ⟨⟨.NX, none, none⟩, [], true⟩ := rfl

/-! ## The memory -/

/-- The memory has the block for a request. -/
theorem memory_data {q : MachineID ι} (ht : t.tbeState = st)
    (hst : st = .NO_B_W ∧ st' = .NO_B ∨ st = .O_B_W ∧ st' = .O_B) (hacks : 0 < t.acks) :
    doTransition (broadcast now) (.memory (.MEMORY_READ q d)) .Memory_Data
        (⟨st, none, some t⟩ : DirLine ι L) =
      .ok ⟨⟨st', none, none⟩, [.response q
        { type := t.responseType, sender := .directory, dataBlk := d, acks := t.acks
          silentAcks := t.silentAcks }], true⟩ := by
  rcases hst with ⟨rfl, rfl⟩ | ⟨rfl, rfl⟩ <;>
    rw [doTransition_row (getState_tbe ht) rfl] <;>
    simp only [runActions, Action.run, Input.peekMemoryData, DirCtx.getTBE, check,
      if_pos hacks, pure_bind, ok_bind] <;>
    rfl

/-- The memory has written the block. -/
theorem memory_ack (hst : st = .WB_E_W ∧ st' = .E ∨ st = .WB_O_W ∧ st' = .O) :
    doTransition (broadcast now) inp .Memory_Ack (⟨st, none, none⟩ : DirLine ι L) =
      .ok ⟨⟨st', none, none⟩, [], true⟩ := by
  rcases hst with ⟨rfl, rfl⟩ | ⟨rfl, rfl⟩ <;> rfl

theorem memory_ack_dma (ht : t.tbeState = .NO_DW_W) :
    doTransition (broadcast now) inp .Memory_Ack (⟨.NO_DW_W, none, some t⟩ : DirLine ι L) =
      .ok ⟨⟨.E, none, none⟩, [.dmaResponse .ACK], true⟩ := by
  rw [doTransition_row (getState_tbe ht) rfl]
  rfl

/-! ## DMA requests -/

omit [DecidableEq ι] in
/-- A DMA request is forwarded to all caches. -/
theorem forwardFromDma_eq {type : CoherenceRequestType}
    (hc : c.tbe = some t) (ht : 0 < t.numPendingMsgs) :
    forwardFromDma type c =
      .ok (c.send (.forward Finset.univ { type := type, requestor := .directory })) := by
  simp only [forwardFromDma, DirCtx.getTBE, hc, pure_bind, if_pos ht]
  rfl

/-- The TBE of a DMA request. -/
structure DirTBE.Starts (t : DirTBE ι L) : Prop where
  pending : t.numPendingMsgs = Fintype.card ι
  dirty : t.cacheDirty = false
  sharers : t.sharers = false
  owned : t.owned = false

theorem dma_read (hn : 1 < machineCount ι) (hst : st.stable) :
    ∃ (t : DirTBE ι L) (st' : State) (l : List (DirSend ι L)),
      doTransition (broadcast now) (.dma .READ) .DMA_READ (⟨st, none, none⟩ : DirLine ι L) =
        .ok ⟨⟨st', none, some t⟩,
          l ++ [.forward Finset.univ { type := .GETS, requestor := .directory }], true⟩ ∧
      t.tbeState = st' ∧ t.Starts ∧
      (st = .E ∧ st' = .NO_DR_B_W ∧ l = [.memory (.read .dma)] ∨
        st = .O ∧ st' = .O_DR_B_W ∧ l = [.memory (.read .dma)] ∨
        (st = .NO ∨ st = .NX ∨ st = .S) ∧ st' = .NO_DR_B_D ∧ l = []) := by
  have hpos : (0 : ℤ) < machineCount ι := by omega
  have hstarts (st' : State) : DirTBE.Starts (ι := ι) (L := L) {
      tbeState := st', dmaRequestor := .dma, responseType := .DATA_EXCLUSIVE
      numPendingMsgs := machineCount ι } := ⟨rfl, rfl, rfl, rfl⟩
  cases st <;> cases hst
  case E =>
    refine ⟨_, .NO_DR_B_W, _, ?_, rfl, hstarts .NO_DR_B_W, .inl ⟨rfl, rfl, rfl⟩⟩
    rw [doTransition_row rfl rfl]
    simp only [runActions, Action.run, broadcast_filter, Bool.false_eq_true, if_false,
      Input.peekDma, DirCtx.allocate, DirCtx.setTBE, check, Option.isNone_none, if_true,
      pure_bind, ok_bind]
    rw [forwardFromDma_eq rfl hpos]
    rfl
  case O =>
    refine ⟨_, .O_DR_B_W, _, ?_, rfl, hstarts .O_DR_B_W, .inr (.inl ⟨rfl, rfl, rfl⟩)⟩
    rw [doTransition_row rfl rfl]
    simp only [runActions, Action.run, broadcast_filter, Bool.false_eq_true, if_false,
      Input.peekDma, DirCtx.allocate, DirCtx.setTBE, check, Option.isNone_none, if_true,
      pure_bind, ok_bind]
    rw [forwardFromDma_eq rfl hpos]
    rfl
  all_goals
    refine ⟨_, .NO_DR_B_D, _, ?_, rfl, hstarts .NO_DR_B_D, .inr (.inr ⟨by simp, rfl, rfl⟩)⟩
    rw [doTransition_row rfl rfl]
    simp only [runActions, Action.run, Input.peekDma, DirCtx.allocate, DirCtx.setTBE, check,
      Option.isNone_none, if_true, pure_bind, ok_bind]
    rw [forwardFromDma_eq rfl hpos]
    rfl

theorem dma_write (hn : 1 < machineCount ι) (hst : st.stable) (k : ℕ)
    (d : DataBlock L) (len : ℕ) (heap : DataBlock L) :
    ∃ t : DirTBE ι L, doTransition (broadcast now) (.dma (.WRITE k d len heap)) .DMA_WRITE
          (⟨st, none, none⟩ : DirLine ι L) =
        .ok ⟨⟨.NO_DW_B_W, none, some t⟩,
          [.forward Finset.univ { type := .GETX, requestor := .directory }], true⟩ ∧
      t.tbeState = .NO_DW_B_W ∧ t.Starts := by
  have hpos : (0 : ℤ) < machineCount ι := by omega
  refine ⟨{ tbeState := .NO_DW_B_W, dmaRequestor := .dma, responseType := .DATA_EXCLUSIVE
            numPendingMsgs := machineCount ι, dmaDataBlk := d, len := len, heap := heap }, ?_,
    rfl, ⟨rfl, rfl, rfl, rfl⟩⟩
  cases st <;> cases hst
  case E =>
    rw [doTransition_row rfl rfl]
    simp only [runActions, Action.run, broadcast_filter, Bool.false_eq_true, if_false,
      Input.peekDma, DirCtx.allocate, DirCtx.setTBE, DirCtx.getTBE, check,
      Option.isNone_none, if_true, if_neg hpos.ne', pure_bind, ok_bind]
    rw [forwardFromDma_eq rfl hpos]
    rfl
  all_goals
    rw [doTransition_row rfl rfl]
    simp only [runActions, Action.run, Input.peekDma, DirCtx.allocate, DirCtx.setTBE, check,
      Option.isNone_none, if_true, pure_bind, ok_bind]
    rw [forwardFromDma_eq rfl hpos]
    rfl

/-! ## Answers to a DMA request -/

/-- What `o_checkForCompletion` sends. -/
def DirTBE.completion (t : DirTBE ι L) : List (DirSend ι L) :=
  if t.numPendingMsgs = 0 then
    [.trigger (if t.sharers then if t.owned then .ALL_ACKS_OWNER_EXISTS else .ALL_ACKS
      else .ALL_ACKS_NO_SHARERS)]
  else []

/-- A TBE after `m_decrementNumberOfMessages`. -/
def DirTBE.count (t : DirTBE ι L) (r : ResponseMsg ι L) : DirTBE ι L :=
  { t with numPendingMsgs := t.numPendingMsgs - if isData r.type then 1 else r.acks }

theorem checkForCompletion_eq (hc : c.tbe = some t) :
    Action.run (broadcast now) inp .o_checkForCompletion c =
      .ok { c with sent := c.sent ++ t.completion } := by
  simp only [Action.run, DirCtx.getTBE, hc, pure_bind, DirTBE.completion]
  split
  · rfl
  · rw [List.append_nil]
    rfl

theorem decrementNumberOfMessages_eq (hc : c.tbe = some t) (hr : 0 < r.acks) :
    Action.run (broadcast now) (.response r) .m_decrementNumberOfMessages c =
      .ok (c.setTBE (t.count r)) := by
  simp only [Action.run, Input.peekResponse, DirCtx.getTBE, hc, check, if_pos hr, pure_bind,
    ok_bind]
  rfl

section

variable (ht : t.tbeState = st) (hr : 0 < r.acks)
include ht hr

theorem answer_ack
    (hst : st = .NO_DR_B ∨ st = .O_DR_B ∨ st = .NO_DR_B_D ∨ st = .NO_DW_B_W) :
    doTransition (broadcast now) (.response r) .Ack (⟨st, none, some t⟩ : DirLine ι L) =
      .ok ⟨⟨st, none, some { t.count r with tbeState := st }⟩, (t.count r).completion, true⟩ := by
  rcases hst with rfl | rfl | rfl | rfl <;>
    rw [doTransition_row (getState_tbe ht) rfl] <;>
    simp only [runActions] <;>
    rw [decrementNumberOfMessages_eq _ rfl hr, ok_bind, checkForCompletion_eq _ rfl] <;>
    rfl

theorem answer_ack_fetch
    (hst : st = .NO_DR_B_W ∨ st = .O_DR_B_W) :
    doTransition (broadcast now) (.response r) .Ack (⟨st, none, some t⟩ : DirLine ι L) =
      .ok ⟨⟨st, none, some { t.count r with tbeState := st }⟩, [], true⟩ := by
  rcases hst with rfl | rfl <;>
    rw [doTransition_row (getState_tbe ht) rfl] <;>
    simp only [runActions] <;>
    rw [decrementNumberOfMessages_eq _ rfl hr, ok_bind] <;>
    rfl

theorem answer_shared
    (hst : st = .NO_DR_B ∨ st = .O_DR_B ∨ st = .NO_DR_B_D) :
    doTransition (broadcast now) (.response r) .Shared_Ack (⟨st, none, some t⟩ : DirLine ι L) =
      .ok ⟨⟨st, none, some { t.count r with tbeState := st, sharers := true }⟩,
        { t.count r with sharers := true }.completion, true⟩ := by
  rcases hst with rfl | rfl | rfl <;>
    rw [doTransition_row (getState_tbe ht) rfl] <;>
    simp only [runActions] <;>
    rw [decrementNumberOfMessages_eq _ rfl hr, ok_bind,
      show Action.run (broadcast now) (.response r) .r_setSharerBit _ = .ok _ from rfl, ok_bind,
      checkForCompletion_eq _ rfl] <;>
    rfl

theorem answer_shared_fetch
    (hst : st = .NO_DR_B_W ∨ st = .O_DR_B_W) :
    doTransition (broadcast now) (.response r) .Shared_Ack (⟨st, none, some t⟩ : DirLine ι L) =
      .ok ⟨⟨st, none, some { t.count r with tbeState := st, sharers := true }⟩, [], true⟩ := by
  rcases hst with rfl | rfl <;>
    rw [doTransition_row (getState_tbe ht) rfl] <;>
    simp only [runActions] <;>
    rw [decrementNumberOfMessages_eq _ rfl hr, ok_bind] <;>
    rfl

end

/-- The owner sends the block, and keeps a copy. -/
theorem answer_owner (ht : t.tbeState = .NO_DR_B_D) (hr : 0 < r.acks) :
    doTransition (broadcast now) (.response r) .Shared_Data
        (⟨.NO_DR_B_D, none, some t⟩ : DirLine ι L) =
      .ok ⟨⟨.NO_DR_B_D, none, some { t.count r with
          tbeState := .NO_DR_B_D, cacheDirty := true, dataBlk := r.dataBlk
          sharers := true, owned := true }⟩,
        { t.count r with
          cacheDirty := true, dataBlk := r.dataBlk
          sharers := true, owned := true }.completion, true⟩ := by
  rw [doTransition_row (getState_tbe ht) rfl]
  simp only [runActions]
  rw [show Action.run (broadcast now) (.response r) .r_recordCacheData _ = .ok _ from rfl,
    ok_bind, decrementNumberOfMessages_eq _ rfl hr, ok_bind,
    show Action.run (broadcast now) (.response r) .so_setOwnerBit _ = .ok _ from rfl,
    ok_bind, checkForCompletion_eq _ rfl]
  rfl

/-- A cache gives its copy away. -/
theorem answer_data (ht : t.tbeState = st) (hr : 0 < r.acks)
    (hst : st = .NO_DR_B_D ∨ st = .NO_DW_B_W) (he : e = .Data ∨ e = .Exclusive_Data) :
    doTransition (broadcast now) (.response r) e (⟨st, none, some t⟩ : DirLine ι L) =
      .ok ⟨⟨st, none, some { t.count r with
          tbeState := st, cacheDirty := true, dataBlk := r.dataBlk }⟩,
        { t.count r with cacheDirty := true, dataBlk := r.dataBlk }.completion, true⟩ := by
  rcases hst with rfl | rfl <;> rcases he with rfl | rfl <;>
    rw [doTransition_row (getState_tbe ht) rfl] <;>
    simp only [runActions] <;>
    rw [show Action.run (broadcast now) (.response r) .r_recordCacheData _ = .ok _ from rfl,
      ok_bind, decrementNumberOfMessages_eq _ rfl hr, ok_bind, checkForCompletion_eq _ rfl] <;>
    rfl

/-- The memory has the block for a DMA read. -/
theorem memory_data_dma {q : MachineID ι} (ht : t.tbeState = st)
    (hst : st = .NO_DR_B_W ∧ st' = .NO_DR_B ∨ st = .O_DR_B_W ∧ st' = .O_DR_B)
    (hdirty : t.cacheDirty = false) :
    ∃ l : List (DMAResponseMsg L),
      doTransition (broadcast now) (.memory (.MEMORY_READ q d)) .Memory_Data
          (⟨st, none, some t⟩ : DirLine ι L) =
        .ok ⟨⟨st', none, some { t with tbeState := st', dataBlk := d }⟩,
          l.map .dmaResponse ++ t.completion, true⟩ := by
  rcases hst with ⟨rfl, rfl⟩ | ⟨rfl, rfl⟩
  · refine ⟨[], ?_⟩
    rw [doTransition_row (getState_tbe ht) rfl]
    simp only [runActions]
    rw [show Action.run (broadcast now) (.memory (.MEMORY_READ q d)) .r_recordMemoryData _ =
      .ok _ from rfl, ok_bind, checkForCompletion_eq _ rfl, hdirty]
    rfl
  · refine ⟨[.DATA d], ?_⟩
    rw [doTransition_row (getState_tbe ht) rfl]
    simp only [runActions]
    rw [show Action.run (broadcast now) (.memory (.MEMORY_READ q d)) .r_recordMemoryData _ =
      .ok _ from rfl, ok_bind,
      show Action.run (broadcast now) (.memory (.MEMORY_READ q d)) .dr_sendDmaData _ =
      .ok _ from rfl, ok_bind, checkForCompletion_eq _ rfl, hdirty]
    rfl

/-! ## The end of a DMA request -/

variable (inp)

/-- No cache has a copy. -/
theorem read_done_exclusive (ht : t.tbeState = st)
    (hst : st = .NO_DR_B ∨ st = .O_DR_B ∨ st = .NO_DR_B_D ∧ t.cacheDirty = true) :
    ∃ l : List (DMAResponseMsg L), doTransition (broadcast now) inp .All_acks_and_data_no_sharers
          (⟨st, none, some t⟩ : DirLine ι L) =
        .ok ⟨⟨.WB_E_W, none, none⟩, l.map .dmaResponse ++ [.memory (.write t.dataBlk)], true⟩ := by
  rcases hst with rfl | rfl | ⟨rfl, hdirty⟩
  · refine ⟨[.DATA t.dataBlk], ?_⟩
    rw [doTransition_row (getState_tbe ht) rfl]
    rfl
  · refine ⟨[], ?_⟩
    rw [doTransition_row (getState_tbe ht) rfl]
    rfl
  · refine ⟨[.DATA t.dataBlk], ?_⟩
    rw [doTransition_row (getState_tbe ht) rfl]
    simp only [runActions, Action.run, DirCtx.getTBE, check, if_pos hdirty, pure_bind, ok_bind]
    rfl

/-- Caches have copies, but the memory has the block as well. -/
theorem read_done_shared (ht : t.tbeState = .O_DR_B) :
    doTransition (broadcast now) inp .All_acks_and_owner_data
        (⟨.O_DR_B, none, some t⟩ : DirLine ι L) =
      .ok ⟨⟨.WB_O_W, none, none⟩, [.memory (.write t.dataBlk)], true⟩ := by
  rw [doTransition_row (getState_tbe ht) rfl]
  rfl

/-- A cache owns the block. -/
theorem read_done_owner (ht : t.tbeState = .NO_DR_B_D) :
    doTransition (broadcast now) inp .All_acks_and_shared_data
        (⟨.NO_DR_B_D, none, some t⟩ : DirLine ι L) =
      .ok ⟨⟨.S, none, none⟩, [.dmaResponse (.DATA t.dataBlk)], true⟩ := by
  rw [doTransition_row (getState_tbe ht) rfl]
  rfl

theorem write_done (ht : t.tbeState = .NO_DW_B_W) :
    ∃ d : DataBlock L, doTransition (broadcast now) inp .All_acks_and_data_no_sharers
        (⟨.NO_DW_B_W, none, some t⟩ : DirLine ι L) =
      .ok ⟨⟨.NO_DW_W, none, some { t with tbeState := .NO_DW_W }⟩, [.memory (.write d)], true⟩ := by
  refine ⟨t.heap.copyPartial { dataBlk := t.dmaDataBlk, offset := 0, size := t.len }, ?_⟩
  rw [doTransition_row (getState_tbe ht) rfl]
  rfl

end Gem5Gpu.VIHammer.Directory
