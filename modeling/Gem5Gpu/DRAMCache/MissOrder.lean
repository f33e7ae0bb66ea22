import Gem5Gpu.DRAMCache.BypassTags

/-!
# The order of misses and write-backs

A block can have a miss and a write-back outstanding at the same time, in different queues.
Each register remembers when it was allocated (`order`), and `getNextMSHR` is meant to send the
two in that order.

A miss is only sent when no write-back of its block waits, so it never overtakes one.  The other
direction is not covered: the search for a conflicting miss asks for a secure one and finds none,
and a write-back that is found in conflict with a miss is sent whatever its order.  So a write-back
is sent in order only if it is the older one of the two.  `KeepsOrder` is what that takes: when a
step writes a block back, no miss of this block waits and none is asked for during the step.

The proof follows the pieces of a handler.  `InOrder` says that every miss that waits is younger
than the write-backs of its block, and `Ordered` adds that no miss waits for the block that the
handler is going to write back.
-/

open Function

namespace Gem5Gpu.Mem.MSHRQueue

variable {q q' : MSHRQueue} {b blk t o o' r : ℕ} {pkt : Packet}

/-- A register of block `b` and order `o` that has not been sent. -/
def Unsent (q : MSHRQueue) (b o : ℕ) : Prop :=
  ∃ r reg, q.entries r = some reg ∧ reg.inService = false ∧ reg.blkAddr = b ∧ reg.order = o

theorem unsent_of_mem (hr : r ∈ q.readyList) :
    q.Unsent (q.registers r).blkAddr (q.registers r).order := by
  obtain ⟨hmem, hserv⟩ := q.wf.mem_readyList.1 hr
  exact ⟨r, q.registers r, entries_of_mem hmem, hserv, rfl, rfl⟩

theorem exists_mem_of_unsent (h : q.Unsent b o) :
    ∃ r ∈ q.readyList, (q.registers r).blkAddr = b ∧ (q.registers r).order = o := by
  obtain ⟨r, reg, hreg, hserv, hb, ho⟩ := h
  obtain ⟨hmem, rfl⟩ := entries_eq_some.1 hreg
  exact ⟨r, q.wf.mem_readyList.2 ⟨hmem, hserv⟩, hb, ho⟩

/-- One register changed, to something that is not waiting or waited before as well. -/
theorem Unsent.of_update {reg : Option MSHR} (heq : q'.entries = update q.entries r reg)
    (hreg : ∀ m, reg = some m → m.inService = false → q.Unsent m.blkAddr m.order)
    (h : q'.Unsent b o) : q.Unsent b o := by
  obtain ⟨i, m, hm, hserv, rfl, rfl⟩ := h
  rw [heq] at hm
  by_cases hi : i = r
  · subst hi
    rw [update_self] at hm
    exact hreg m hm hserv
  · rw [update_of_ne hi] at hm
    exact ⟨i, m, hm, hserv, rfl, rfl⟩

theorem Unsent.of_takes (ht : q.Takes blk pkt t o r q') (h : q'.Unsent b o') :
    q.Unsent b o' ∨ b = blk ∧ o' = o := by
  obtain ⟨i, m, hm, hserv, rfl, rfl⟩ := h
  rw [ht.entries_eq] at hm
  by_cases hi : i = r
  · subst hi
    rw [update_self] at hm
    cases hm
    exact .inr ⟨rfl, rfl⟩
  · rw [update_of_ne hi] at hm
    exact .inl ⟨i, m, hm, hserv, rfl, rfl⟩

theorem Unsent.of_frees (hf : q.Frees r q') (h : q'.Unsent b o) : q.Unsent b o :=
  h.of_update hf.entries_eq fun _ hm => by cases hm

theorem Unsent.of_sends (hs : q.Sends r q') (h : q'.Unsent b o) : q.Unsent b o :=
  h.of_update hs.entries_eq fun m hm hserv => by
    cases hm
    cases hserv

theorem Unsent.of_setTargets {targets : List Packet} (h : (q.setTargets r targets).Unsent b o) :
    q.Unsent b o := by
  refine h.of_update (setTargets_entries q r targets) fun m hm hserv => ?_
  obtain ⟨reg, hreg, rfl⟩ := Option.map_eq_some_iff.1 hm
  exact ⟨r, reg, hreg, hserv, rfl, rfl⟩

end Gem5Gpu.Mem.MSHRQueue

namespace Gem5Gpu.DRAMCache

open Mem Lib

variable {c : Config} {e : Event} {up : Upstream} {s s' s₀ : State} {r : TimingReq}
  {φ φ' : Phase} {m b order : ℕ} {w : Bool} {index : MSHRQueueIndex}
  {misses misses' writes writes' : MSHRQueue}

/-! ## The invariant -/

/-- The misses that wait are younger than the write-backs of their block. -/
structure InOrder (misses writes : MSHRQueue) (order : ℕ) : Prop where
  miss_lt : ∀ {b o}, misses.Unsent b o → o < order
  write_lt : ∀ {b o}, writes.Unsent b o → o < order
  younger : ∀ {b o o'}, writes.Unsent b o → misses.Unsent b o' → o < o'

def State.InOrder (s : State) : Prop :=
  DRAMCache.InOrder s.mshrQueue s.writeBuffer s.order

section

variable (h : InOrder misses writes order)
include h

/-- Registers are sent or freed, and `order` grows. -/
theorem InOrder.shrink {n : ℕ} (hm : ∀ {b o}, misses'.Unsent b o → misses.Unsent b o)
    (hw : ∀ {b o}, writes'.Unsent b o → writes.Unsent b o) (hle : order ≤ n) :
    InOrder misses' writes' n where
  miss_lt ho := (h.miss_lt (hm ho)).trans_le hle
  write_lt ho := (h.write_lt (hw ho)).trans_le hle
  younger ho ho' := h.younger (hw ho) (hm ho')

theorem InOrder.miss {blk t r : ℕ}
    (ht : misses.Takes blk pkt t order r misses') : InOrder misses' writes (order + 1) where
  miss_lt ho := by
    rcases ho.of_takes ht with ho | ⟨-, rfl⟩
    · exact (h.miss_lt ho).trans (Nat.lt_succ_self _)
    · exact Nat.lt_succ_self _
  write_lt ho := (h.write_lt ho).trans (Nat.lt_succ_self _)
  younger ho ho' := by
    rcases ho'.of_takes ht with ho' | ⟨-, rfl⟩
    · exact h.younger ho ho'
    · exact h.write_lt ho

theorem InOrder.write {blk t r : ℕ} (ht : writes.Takes blk pkt t order r writes')
    (hno : ∀ o, ¬misses.Unsent blk o) : InOrder misses writes' (order + 1) where
  miss_lt ho := (h.miss_lt ho).trans (Nat.lt_succ_self _)
  write_lt ho := by
    rcases ho.of_takes ht with ho | ⟨-, rfl⟩
    · exact (h.write_lt ho).trans (Nat.lt_succ_self _)
    · exact Nat.lt_succ_self _
  younger ho ho' := by
    rcases ho.of_takes ht with ho | ⟨rfl, -⟩
    · exact h.younger ho ho'
    · exact absurd ho' (hno _)

theorem InOrder.coalesce : InOrder (misses.allocateTarget m pkt) writes (order + 1) :=
  h.shrink (fun ho => ho.of_setTargets) id (Nat.le_succ _)

theorem InOrder.clearTargets {l : List Packet} : InOrder (misses.setTargets m l) writes order :=
  h.shrink (fun ho => ho.of_setTargets) id le_rfl

end

/-! ## The condition -/

/-- The block that the handler of an event writes back: that of a write which misses and does not
allocate, or the dirty one that makes room. -/
def State.writesBack (c : Config) (s : State) : Event → Option ℕ
  | .processWriteRespondEvent => do
    let burst ← s.dramPktWriteRespQueue.head?
    if s.burstsServiced burst.pkt.id + 1 = 2 ∧ (s.lookup c burst.pkt).1 = false then
      if c.writeAllocate = false then some (c.blockAlign burst.pkt.addr)
      else if (s.tags.sets (c.setOf burst.pkt.addr)).dirty then
        some (c.blockAlign (s.tags.victim c burst.pkt.addr))
      else none
    else none
  | e => do
    let a ← s.installs c e
    if (s.tags.sets (c.setOf a)).dirty && (s.tags.sets (c.setOf a)).valid then
      some (c.blockAlign (s.tags.victim c a))
    else none

/-- No miss of the block waits. -/
def State.NoMiss (s : State) (b : ℕ) : Prop :=
  ∀ m ∈ s.mshrQueue.readyList, (s.mshrQueue.registers m).blkAddr ≠ b

instance (s : State) (b : ℕ) : Decidable (s.NoMiss b) :=
  inferInstanceAs (Decidable (∀ m ∈ s.mshrQueue.readyList, _))

/-- No miss of the block that the step writes back waits before it, and the upstream port does not
react to a retry with a request of that block. -/
def KeepsOrder (c : Config) (s : State) (e : Event) : Prop :=
  ∀ b ∈ s.writesBack c e, s.NoMiss b ∧ ∀ s' r, e.upstream s' = some r → c.blockAlign r.addr ≠ b

theorem State.NoMiss.not_unsent (h : s.NoMiss b) (o : ℕ) : ¬s.mshrQueue.Unsent b o := by
  intro ho
  obtain ⟨m, hm, hb, -⟩ := MSHRQueue.exists_mem_of_unsent ho
  exact h m hm hb

theorem LastWriteBurst.writesBack_eq {pkt : Packet} {rest : List DRAMPacket}
    (h : LastWriteBurst e s pkt rest) (hmiss : (s.lookup c pkt).1 = false) :
    s.writesBack c e = if c.writeAllocate = false then some (c.blockAlign pkt.addr)
      else if (s.tags.sets (c.setOf pkt.addr)).dirty then
        some (c.blockAlign (s.tags.victim c pkt.addr)) else none := by
  obtain ⟨burst, hfront⟩ := h.front
  have hserviced : s.burstsServiced pkt.id = 1 := Nat.succ.inj h.last
  simp [h.event, State.writesBack, hfront, hserviced, hmiss]

theorem Installs.mem_writesBack {a : ℕ} (h : Installs c s e a)
    (hdirty : (s.tags.sets (c.setOf a)).dirty = true)
    (hvalid : (s.tags.sets (c.setOf a)).valid = true) :
    c.blockAlign (s.tags.victim c a) ∈ s.writesBack c e := by
  have hinst := h.installs_eq
  cases e with
  | processWriteRespondEvent => cases hinst
  | _ => simp [State.writesBack, hinst, hdirty, hvalid]

/-! ## What the pieces do to the two queues -/

/-- No register of a block is allocated, so no miss of it waits. -/
theorem Misses.not_unsent (h : Misses c s r) (o : ℕ) :
    ¬s.mshrQueue.Unsent (c.blockAlign r.addr) o := by
  rintro ⟨i, reg, hreg, -, hblk, -⟩
  exact MSHRQueue.findMatch_eq_none_entries h.noMiss hreg hblk

theorem Recv.inOrder (h : Recv c s r s') (hs : s.InOrder) : s'.InOrder := by
  cases h with
  | coalesced | coalescedLast => exact InOrder.coalesce hs
  | bypassTagRead m q _ _ _ hq | bypassed m q _ _ _ _ hq | readPam m q _ _ _ _ _ hq =>
    exact InOrder.miss hs hq
  | bypassTagWrite m q hmiss _ _ hq => exact InOrder.write hs hq hmiss.not_unsent
  | _ => exact hs

/-- The only new miss is that of the request. -/
theorem Recv.unsent {o : ℕ} (h : Recv c s r s') (ho : s'.mshrQueue.Unsent b o) :
    s.mshrQueue.Unsent b o ∨ b = c.blockAlign r.addr := by
  cases h with
  | coalesced | coalescedLast => exact .inl ho.of_setTargets
  | bypassTagRead m q _ _ _ hq | bypassed m q _ _ _ _ hq | readPam m q _ _ _ _ _ hq =>
    exact (ho.of_takes hq).imp_right And.left
  | _ => exact .inl ho

theorem Fills.inOrder {addr ctx : ℕ} (h : Fills c s addr ctx s') (hs : s.InOrder)
    (hno : skipsFill c s ctx = false → (s.tags.sets (c.setOf addr)).dirty = true →
      (s.tags.sets (c.setOf addr)).valid = true →
      ∀ o, ¬s.mshrQueue.Unsent (c.blockAlign (s.tags.victim c addr)) o) : s'.InOrder := by
  cases h with
  | dirty m q fq ifq hskip hdirty hvalid hq => exact InOrder.write hs hq (hno hskip hdirty hvalid)
  | _ => exact hs

theorem Freed.inOrder (h : Freed s index m w s') (hs : s.InOrder) : s'.InOrder := by
  cases index with
  | mshrs =>
    obtain ⟨q, b, pb, hq, rfl⟩ := h.frame
    exact InOrder.shrink hs (fun ho => ho.of_frees hq) id le_rfl
  | writeBuffer =>
    obtain ⟨q, b, pb, hq, rfl⟩ := h.frame_writeBuffer
    exact InOrder.shrink hs id (fun ho => ho.of_frees hq) le_rfl

theorem Wakes.inOrder (h : Wakes s e s') (hs : s.InOrder) : s'.InOrder := by
  cases h <;> exact hs

/-- The points of a handler at which a block may still be written back. -/
def Phase.MayFill : Phase → Prop
  | .start | .answering .. | .released .. | .consuming .. | .filling _ => True
  | _ => False

/-- What a handler that began in `s₀` keeps up. -/
structure Ordered (c : Config) (e : Event) (s₀ : State) (φ : Phase) (s : State) : Prop where
  inOrder : s.InOrder
  since : φ.Since e s₀ s
  noMiss : φ.MayFill → ∀ b ∈ s₀.writesBack c e, ∀ o, ¬s.mshrQueue.Unsent b o

/-- A fill that the handler is to make keeps the order. -/
theorem Fills.ordered {addr ctx : ℕ} {s₁ : State} (h : Fills c s₁ addr ctx s')
    (hs : s₁.InOrder) (hlines : SameLines s₀.tags s₁.tags)
    (hinst : skipsFill c s₁ ctx = false → Installs c s₀ e addr)
    (hno : ∀ b ∈ s₀.writesBack c e, ∀ o, ¬s₁.mshrQueue.Unsent b o) : s'.InOrder := by
  refine h.inOrder hs fun hskip hdirty hvalid => ?_
  rw [hlines.sets] at hdirty hvalid
  have hmem := (hinst hskip).mem_writesBack hdirty hvalid
  rw [Tags.victim, hlines.sets]
  exact hno _ hmem

theorem Retried.inOrder (h : Retried c up s s') (hs : s.InOrder) : s'.InOrder :=
  h.keeps (P := State.InOrder) hs fun _ _ _ h => h.inOrder hs

theorem Micro.inOrder (h : Micro c e s₀ φ s φ' s') (hs : Ordered c e s₀ φ s) : s'.InOrder := by
  have hs₁ := hs.inOrder
  cases h with
  | request r _ h | retryWrite _ h | retryRead _ h | retryCache _ _ _ h | sendNothing h
  | sendRefused _ _ h => exact h.inOrder hs₁
  | serialCoalesced | serialCoalescedLast | pamMiss => exact InOrder.coalesce hs₁
  | serialMiss pkt m q _ _ _ _ hq => exact InOrder.miss hs₁ hq
  | pamDoneHit _ _ _ _ _ _ _ _ hfree | pamHit _ _ _ _ _ _ _ _ hfree
  | pamAnswered _ _ _ _ _ _ hfree => exact hfree.inOrder (InOrder.clearTargets hs₁)
  | pamDoneMiss pkt pr first rest hlast hdone hmiss htargets hfill hfree =>
    refine hfree.inOrder (hfill.ordered (InOrder.clearTargets hs₁) (sameLines_of_miss hmiss)
      (.lookup pkt pr first rest hlast hdone hmiss htargets) fun b hb o ho => ?_)
    exact hs.noMiss trivial b hb o ho.of_setTargets
  | writeMiss pkt rest d m q hlast hmiss halloc hq =>
    refine InOrder.write hs₁ hq (hs.noMiss trivial _ ?_)
    simp [hlast.writesBack_eq hmiss, halloc]
  | writeAllocDirty pkt rest d m q hlast hmiss halloc hdirty hq =>
    have hsets := (sameLines_of_miss hmiss).sets
    rw [hsets] at hdirty
    refine InOrder.write hs₁ hq (hs.noMiss trivial _ ?_)
    simp [hlast.writesBack_eq hmiss, halloc, hdirty, Tags.victim, hsets]
  | sentMiss _ _ _ _ hw _ _ hq =>
    exact InOrder.shrink (hw.inOrder hs₁) (fun ho => ho.of_sends hq) id le_rfl
  | sentWrite _ _ _ _ hw _ _ hq =>
    exact InOrder.shrink (hw.inOrder hs₁) id (fun ho => ho.of_sends hq) le_rfl
  | pamEarly => exact InOrder.clearTargets hs₁
  | readAnswered p w hqueue _ _ _ hfill hfree =>
    refine hfree.inOrder (InOrder.clearTargets ?_)
    cases hfill with
    | present => exact hs₁
    | fills habsent hfill =>
      exact hfill.ordered hs₁ hs.since.2.1 (.of_consuming hs.since hqueue habsent)
        (hs.noMiss trivial)
  | writeAnswered _ _ _ _ _ hfree =>
    refine hfree.inOrder ?_
    exact InOrder.shrink hs₁ id (fun ho => ho.of_setTargets) le_rfl
  | filled p hfill =>
    exact hfill.ordered hs₁ hs.since.2.1 (.of_filling hs.since) (hs.noMiss trivial)
  | _ => exact hs₁

/-- The misses that come in before the fill are those of reactions to retries. -/
theorem Micro.noMiss (h : Micro c e s₀ φ s φ' s') (hok : KeepsOrder c s₀ e)
    (hs : Ordered c e s₀ φ s) (hfills : φ'.MayFill) :
    ∀ b ∈ s₀.writesBack c e, ∀ o, ¬s'.mshrQueue.Unsent b o := by
  intro b hb o
  cases h with
  | retryCache _ _ _ h =>
    have hno := hs.noMiss hfills b hb o
    refine h.keeps (P := fun s => ¬s.mshrQueue.Unsent b o) hno fun r s' hup h ho => ?_
    rcases h.unsent ho with ho | rfl
    · exact hno ho
    · exact (hok _ hb).2 _ r hup rfl
  | pamHit =>
    split at hfills <;> exact hfills.elim
  | pamAnswer | serialAnswer | release | released | keep => exact hs.noMiss trivial b hb o
  | pamAnswered _ _ _ _ _ _ hfree =>
    intro ho
    obtain ⟨q, bl, pb, hq, rfl⟩ := hfree.frame
    exact hs.noMiss trivial b hb o (ho.of_frees hq).of_setTargets
  | _ => exact hfills.elim

/-! ## Runs -/

theorem State.init_inOrder (c : Config) (store : ℕ → Data) : (State.init c store).InOrder := by
  have hnone : ∀ {i n k b o}, ¬(MSHRQueue.init i n k).Unsent b o := by
    rintro i n k b o h
    obtain ⟨r, hr, -⟩ := MSHRQueue.exists_mem_of_unsent h
    cases hr
  exact ⟨fun h => absurd h hnone, fun h => absurd h hnone, fun h => absurd h hnone⟩

/-- In a run that keeps the order every miss that waits is younger than the write-backs of its
block. -/
theorem Reaches.inOrder (h : Reaches c (KeepsOrder c) s) : s.InOrder := by
  obtain ⟨store, h⟩ := h
  refine Reach.invariant (I := State.InOrder) h (State.init_inOrder c store) fun s e hs hok => ?_
  refine post_of_forall fun s' hstep => ?_
  have hstart : Ordered c e s .start s :=
    ⟨hs, trivial, fun _ b hb => State.NoMiss.not_unsent (hok b hb).1⟩
  have hend := (step_micros hstep).invariant (I := Ordered c e s) hstart
    fun _ _ _ _ hs hmicro => ⟨hmicro.inOrder hs, hmicro.since hs.since, hmicro.noMiss hok hs⟩
  exact hend.inOrder

/-! ## What is sent -/

/-- A secure miss is never found. -/
theorem findPending_secure (q : MSHRQueue) (blk : ℕ) : q.findPending blk true = none := by
  refine List.find?_eq_none.2 fun r _ => ?_
  simp [MSHR.isSecure]

theorem findPending_none {q : MSHRQueue} {blk r : ℕ} (h : q.findPending blk false = none)
    (hr : r ∈ q.readyList) : (q.registers r).blkAddr ≠ blk := by
  have := List.find?_eq_none.1 h r hr
  simpa [MSHR.isSecure] using this

theorem nextMiss_mshrs {miss : Option ℕ} (h : getNextMSHR.nextMiss s miss = some (.mshrs, m)) :
    ∀ w ∈ s.writeBuffer.readyList,
      (s.writeBuffer.registers w).blkAddr ≠ (s.mshrQueue.registers m).blkAddr := by
  unfold getNextMSHR.nextMiss at h
  split at h
  · cases h
  · dsimp only at h
    split at h
    · cases h
    · rename_i hnone
      cases h
      exact fun w hw => findPending_none hnone hw

/-- A miss is sent only when no write-back of its block waits. -/
theorem getNextMSHR_mshrs (h : getNextMSHR s = some (.mshrs, m)) : ∀ w ∈ s.writeBuffer.readyList,
      (s.writeBuffer.registers w).blkAddr ≠ (s.mshrQueue.registers m).blkAddr := by
  unfold getNextMSHR at h
  dsimp only at h
  split at h
  · cases h
  · split at h
    · rw [findPending_secure] at h
      cases h
    · exact nextMiss_mshrs h
  · exact nextMiss_mshrs h

/-- What is sent is waiting. -/
theorem getNextMSHR_writeBuffer {i : ℕ} (h : getNextMSHR s = some (.writeBuffer, i)) :
    i ∈ s.writeBuffer.readyList := by
  have hmiss : ∀ {miss}, getNextMSHR.nextMiss s miss = some (.writeBuffer, i) →
      i ∈ s.writeBuffer.readyList := by
    intro miss h
    unfold getNextMSHR.nextMiss at h
    split at h
    · cases h
    · dsimp only at h
      split at h
      · rename_i hpending
        cases h
        exact (MSHRFile.findPending_eq_some hpending).1
      · cases h
  unfold getNextMSHR at h
  dsimp only at h
  split at h
  · cases h
  · rename_i hnext
    split at h
    · rw [findPending_secure] at h
      cases h
      exact (MSHRFile.getNextMSHR_eq_some hnext).1
    · exact hmiss h
  · exact hmiss h

/-- In a run whose steps keep the order, what `getNextMSHR` returns at any tick is older than
everything of its block that waits in the other queue. -/
theorem sent_in_order (h : Reaches c (KeepsOrder c) s) (t : ℕ) :
    (∀ i, getNextMSHR { s with curTick := t } = some (.mshrs, i) → ∀ j ∈ s.writeBuffer.readyList,
          (s.writeBuffer.registers j).blkAddr = (s.mshrQueue.registers i).blkAddr →
          (s.mshrQueue.registers i).order ≤ (s.writeBuffer.registers j).order) ∧
      ∀ i, getNextMSHR { s with curTick := t } = some (.writeBuffer, i) →
        ∀ j ∈ s.mshrQueue.readyList,
          (s.mshrQueue.registers j).blkAddr = (s.writeBuffer.registers i).blkAddr →
          (s.writeBuffer.registers i).order ≤ (s.mshrQueue.registers j).order := by
  have hs : DRAMCache.InOrder _ _ _ := h.inOrder
  constructor
  · intro i hi j hj hblk
    exact absurd hblk (getNextMSHR_mshrs hi j hj)
  · intro i hi j hj hblk
    have hw := MSHRQueue.unsent_of_mem (getNextMSHR_writeBuffer hi)
    have hm := MSHRQueue.unsent_of_mem hj
    rw [hblk] at hm
    exact (hs.younger hw hm).le

namespace Scenario

/-- The GPU writes block 0, and reads it while the write is on its way from the DRAM.  Both miss,
the write first. -/
def writeThenRead : List Event :=
  [.recvTimingReq (gpuWrite 0), serveNext, serveNext, serveNext, .recvTimingReq (gpuRead 0),
    .processWriteRespondEvent, .processWriteRespondEvent] ++ lookup ++ [.advance 1]

/-- The GPU reads block 0, and writes it while the read is on its way to the DRAM.  Both miss,
the read first. -/
def readThenWrite : List Event :=
  [.recvTimingReq (gpuRead 0), .recvTimingReq (gpuWrite 0)] ++ lookup ++
    [serveNext, serveNext, serveNext, .processWriteRespondEvent, .processWriteRespondEvent,
      .advance 1]

end Scenario

open Scenario in
/-- The write-back is sent, and the miss is younger. -/
theorem writeThenRead_in_order :
    let s := State.ofRun config blank writeThenRead
    getNextMSHR s = some (.writeBuffer, 0) ∧ s.mshrQueue.readyList = [0] ∧
      ∀ j ∈ s.mshrQueue.readyList,
        (s.mshrQueue.registers j).blkAddr = (s.writeBuffer.registers 0).blkAddr →
          (s.writeBuffer.registers 0).order ≤ (s.mshrQueue.registers j).order := by
  have hnext : getNextMSHR (State.ofRun config blank writeThenRead) = some (.writeBuffer, 0) := by
    decide +kernel
  have hreach : Reaches config (KeepsOrder config) (State.ofRun config blank writeThenRead) := by
    refine reaches_ofRun ?_ (by decide +kernel)
    have hok : Meets (step config) (fun s e => ∀ b ∈ s.writesBack config e, s.NoMiss b)
        (State.init config blank) writeThenRead := by decide +kernel
    have hquiet : ∀ e ∈ writeThenRead, ∀ s, e.upstream s = none := by
      simp [writeThenRead, lookup, serveNext, Event.upstream, quiet]
    refine hok.imp fun e he s hno b hb => ⟨hno b hb, fun s' r hr => ?_⟩
    rw [hquiet e he s'] at hr
    cases hr
  have hsent : ∀ s, Reaches config (KeepsOrder config) s → getNextMSHR s = some (.writeBuffer, 0) →
      ∀ j ∈ s.mshrQueue.readyList,
        (s.mshrQueue.registers j).blkAddr = (s.writeBuffer.registers 0).blkAddr →
          (s.writeBuffer.registers 0).order ≤ (s.mshrQueue.registers j).order :=
    fun s hs hn => (sent_in_order hs s.curTick).2 0 hn
  exact ⟨hnext, by decide +kernel, hsent _ hreach hnext⟩

open Scenario in
/-- The write-back is sent although an older miss of the block has not been sent. -/
theorem write_back_overtakes_miss :
    ∃ s, Reaches config (fun _ _ => True) s ∧ getNextMSHR s = some (.writeBuffer, 0) ∧
      0 ∈ s.mshrQueue.readyList ∧
      (s.mshrQueue.registers 0).blkAddr = (s.writeBuffer.registers 0).blkAddr ∧
      (s.mshrQueue.registers 0).order < (s.writeBuffer.registers 0).order := by
  refine ⟨State.ofRun config blank readThenWrite,
    reaches_ofRun (meets_true _) (by decide +kernel), ?_⟩
  decide +kernel

end Gem5Gpu.DRAMCache
