import Gem5Gpu.DRAMCache.Ctrl

/-!
# What the handlers can do

Every proof about the controller needs to know how a handler can end.  This
module says it once, so that no later proof unfolds a handler.

* The shared operations: `setBlocked`, `schedSendEvent` and the allocations of a
  register.  Each lemma names the state afterwards as an update of the state
  before, so that what is not listed is unchanged.
* `Recv` lists the ways in which `recvTimingReq` can end.
* `Fills` lists the ways in which `addToFillQueue` can end.

The names of the lemmas follow one pattern: `f_ok` is about a run of `f` that
ends well, and `f_error` about one that fails an assertion.
-/

namespace Gem5Gpu.DRAMCache

open Mem Lib Function

variable {c : Config} {s s' : State} {r : TimingReq} {pkt : Packet} {f : Fault} {m t addr ctx : ℕ}
  {index : MSHRQueueIndex} {cause : BlockedCause} {burst : ℕ}

namespace State

/-! ## Blocking and scheduling -/

/-- The causes after an allocation that may have filled a queue. -/
def blockedAfter (s : State) (cause : BlockedCause) (full : Bool) :
    Finset BlockedCause :=
  if full then insert cause s.blocked else s.blocked

/-- The flag of the port after an allocation that may have filled a queue. -/
def portBlockedAfter (s : State) (full : Bool) : Bool :=
  if full ∧ s.blocked = ∅ then true else s.portBlocked

/-- The send event after a request for a send at a time. -/
def nextSend (s : State) (time : Option ℕ) : Option ℕ :=
  match time with
  | none => s.sendEvent
  | some t =>
    if s.waitingOnRetry then s.sendEvent
    else
      match s.sendEvent with
      | none => some (max t (s.curTick + 1))
      | some u => some (min (max t (s.curTick + 1)) u)

/-- What `f` says about each of the two queues. -/
def each {α : Type} (s : State) (f : MSHRQueue → α) : MSHRQueueIndex → α
  | .mshrs => f s.mshrQueue
  | .writeBuffer => f s.writeBuffer

/-- One of the queues changes. -/
theorem forall_setQueue {α : Type} {f : MSHRQueue → α} {P : MSHRQueueIndex → α → Prop}
    {q : MSHRQueue} (hself : P index (f q)) (hother : ∀ i, i ≠ index → P i (s.each f i))
    (i : MSHRQueueIndex) : P i ((s.setQueue index q).each f i) := by
  by_cases hi : i = index
  · subst hi
    cases i <;> exact hself
  · cases i <;> cases index <;> first | exact absurd rfl hi | exact hother _ hi

theorem ofIndex_ne {i : MSHRQueueIndex} (hi : i ≠ index) :
    BlockedCause.ofIndex i ≠ .ofIndex index := by
  cases i <;> cases index <;> first | exact absurd rfl hi | decide

@[simp]
theorem ofIndex_ne_noTargets : BlockedCause.ofIndex index ≠ .noTargets := by
  cases index <;> decide

/-- An allocation sets no bit but its own. -/
theorem mem_blockedAfter_of_ne (s : State) {cause cause' : BlockedCause}
    (hne : cause ≠ cause') (full : Bool) :
    cause ∈ s.blockedAfter cause' full ↔ cause ∈ s.blocked := by
  cases full <;> simp [State.blockedAfter, hne]

theorem blockPort_ok (h : s.blockPort = .ok s') : (s.blocked = ∅ → s.portBlocked = false) ∧
      s' = { s with portBlocked := s.portBlockedAfter true } := by
  unfold blockPort at h
  by_cases hb : s.blocked = ∅
  · rw [if_pos hb] at h
    obtain ⟨_, hc, h⟩ := bind_eq_ok h
    cases h
    have hport : s.portBlockedAfter true := by
      simp [portBlockedAfter, hb]
    exact ⟨fun _ => check_eq_ok hc, by rw [hport]⟩
  · rw [if_neg hb] at h
    cases h
    have hport : s.portBlockedAfter true = s.portBlocked := by
      simp [portBlockedAfter, hb]
    exact ⟨fun h => absurd h hb, by rw [hport]⟩

theorem setBlocked_ok (h : s.setBlocked cause = .ok s') : (s.blocked = ∅ → s.portBlocked = false) ∧
      s' = { s with
        blocked := insert cause s.blocked
        portBlocked := s.portBlockedAfter true } := by
  obtain ⟨s₁, h₁, h₂⟩ := bind_eq_ok h
  obtain ⟨hport, rfl⟩ := blockPort_ok h₁
  cases h₂
  exact ⟨hport, rfl⟩

theorem setBlocked_error (h : s.setBlocked cause = .error f) : f = .portAlreadyBlocked := by
  rcases bind_eq_error h with h | ⟨s₁, -, h⟩
  · unfold blockPort at h
    split at h
    · replace h := bind_ok_eq_error h
      exact (check_eq_error h).1
    · cases h
  · cases h

theorem blockIf_ok {full : Bool} (h : s.blockIf full cause = .ok s') :
    (full → s.blocked = ∅ → s.portBlocked = false) ∧ s' = { s with
        blocked := s.blockedAfter cause full
        portBlocked := s.portBlockedAfter full } := by
  cases full with
  | false =>
    cases h
    exact ⟨nofun, rfl⟩
  | true =>
    obtain ⟨hport, rfl⟩ := setBlocked_ok h
    exact ⟨fun _ => hport, rfl⟩

theorem blockIf_error {full : Bool}
    (h : s.blockIf full cause = .error f) : f = .portAlreadyBlocked := by
  cases full with
  | false => cases h
  | true => exact setBlocked_error h

theorem schedSendEvent_ok {time : Option ℕ} (h : s.schedSendEvent time = .ok s') :
    (s.waitingOnRetry → s.sendEvent = none) ∧
      s' = { s with sendEvent := s.nextSend time } := by
  unfold schedSendEvent at h
  by_cases hw : s.waitingOnRetry = true
  · rw [if_pos hw] at h
    obtain ⟨_, hc, h⟩ := bind_eq_ok h
    cases h
    have hsend : s.nextSend time = s.sendEvent := by
      cases time <;> simp [nextSend, hw]
    exact ⟨fun _ => check_eq_ok hc, by rw [hsend]⟩
  · rw [if_neg hw] at h
    refine ⟨fun h => absurd h hw, ?_⟩
    cases time with
    | none =>
      cases h
      rfl
    | some t =>
      simp only [nextSend, if_neg hw]
      cases hev : s.sendEvent with
      | none | some u =>
        rw [hev] at h
        cases h
        rfl

theorem schedSendEvent_error {time : Option ℕ}
    (h : s.schedSendEvent time = .error f) : f = .sendEventScheduled := by
  unfold schedSendEvent at h
  split at h
  · replace h := bind_ok_eq_error h
    exact (check_eq_error h).1
  · split at h
    · cases h
    · split at h <;> cases h

/-! ## Allocations -/

theorem allocateBufferInternal_ok (h : s.allocateBufferInternal index addr pkt t = .ok (m, s')) :
    ∃ q, (s.queue index).Takes addr pkt t s.order m q ∧
      (q.isFull = true → s.blocked = ∅ → s.portBlocked = false) ∧
      s' = { s.setQueue index q with
        order := s.order + 1
        blocked := s.blockedAfter (.ofIndex index) q.isFull
        portBlocked := s.portBlockedAfter q.isFull
        sendEvent := s.nextSend (some t) } := by
  obtain ⟨⟨m', q⟩, halloc, h⟩ := bind_eq_ok h
  obtain ⟨s₂, hblock, h⟩ := bind_eq_ok h
  obtain ⟨s₃, hsend, h⟩ := bind_eq_ok h
  cases h
  obtain ⟨-, rfl⟩ := schedSendEvent_ok hsend
  obtain ⟨hport, rfl⟩ := blockIf_ok hblock
  refine ⟨q, MSHRQueue.allocate_ok halloc, ?_⟩
  cases index <;> exact ⟨hport, rfl⟩

/-- An allocation reports an empty free list only when the list is empty. -/
theorem allocateBufferInternal_error (h : s.allocateBufferInternal index addr pkt t = .error f) :
    f = .freeListEmpty (s.queue index).index ∧ (s.queue index).freeList = [] ∨
      f = .mshrNotReset ∨ f = .portAlreadyBlocked ∨ f = .sendEventScheduled := by
  rcases bind_eq_error h with h | ⟨⟨m', q⟩, -, h⟩
  · exact (MSHRQueue.allocate_error h).imp_right Or.inl
  · rcases bind_eq_error h with h | ⟨s₂, -, h⟩
    · exact .inr (.inr (.inl (blockIf_error h)))
    · rcases bind_eq_error h with h | ⟨s₃, -, h⟩
      · exact .inr (.inr (.inr (schedSendEvent_error h)))
      · cases h

/-- A register is taken for a miss. -/
theorem allocateMissBuffer_ok (h : s.allocateMissBuffer c pkt t = .ok (m, s')) :
    ∃ q, s.mshrQueue.Takes (c.blockAlign pkt.addr) pkt t s.order m q ∧
      (q.isFull → s.blocked = ∅ → s.portBlocked = false) ∧
      s' = { s with
        mshrQueue := q
        order := s.order + 1
        blocked := s.blockedAfter .noMSHRs q.isFull
        portBlocked := s.portBlockedAfter q.isFull
        sendEvent := s.nextSend (some t) } :=
  allocateBufferInternal_ok h

/-- A register is taken for a write to the memory. -/
theorem allocateWriteBuffer_ok (h : s.allocateWriteBuffer c pkt t = .ok s') :
    ∃ m q, s.writeBuffer.Takes (c.blockAlign pkt.addr) pkt t s.order m q ∧
      (q.isFull → s.blocked = ∅ → s.portBlocked = false) ∧
      s' = { s with
        writeBuffer := q
        order := s.order + 1
        blocked := s.blockedAfter .noWBuffers q.isFull
        portBlocked := s.portBlockedAfter q.isFull
        sendEvent := s.nextSend (some t) } := by
  obtain ⟨⟨m, s₁⟩, h, h'⟩ := bind_eq_ok h
  cases h'
  exact ⟨m, allocateBufferInternal_ok h⟩

theorem allocateWriteBuffer_error (h : s.allocateWriteBuffer c pkt t = .error f) :
    f = .freeListEmpty s.writeBuffer.index ∧ s.writeBuffer.freeList = [] ∨
      f = .mshrNotReset ∨ f = .portAlreadyBlocked ∨ f = .sendEventScheduled := by
  rcases bind_eq_error h with h | ⟨p, -, h⟩
  · exact allocateBufferInternal_error h
  · cases h

/-- A packet joins a miss. -/
theorem coalesce_ok (h : s.coalesce c m pkt = .ok s') :
    (s.mshrQueue.registers m).targets.length + 1 ≠ c.numTarget ∧ s' = { s with
          mshrQueue := s.mshrQueue.allocateTarget m pkt
          order := s.order + 1 } ∨
      (s.mshrQueue.registers m).targets.length + 1 = c.numTarget ∧
        (s.blocked = ∅ → s.portBlocked = false) ∧
        s' = { s with
          mshrQueue := s.mshrQueue.allocateTarget m pkt
          order := s.order + 1
          noTargetMSHR := some m
          blocked := insert .noTargets s.blocked
          portBlocked := s.portBlockedAfter true } := by
  have hlen : ((s.allocateTarget m pkt).mshrQueue.registers m).getNumTargets =
      (s.mshrQueue.registers m).targets.length + 1 := by
    simp [allocateTarget, MSHRQueue.allocateTarget, MSHRQueue.setTargets,
      MSHRFile.setRegister, MSHR.getNumTargets]
  simp only [coalesce, hlen] at h
  split at h
  · rename_i hfull
    obtain ⟨hport, rfl⟩ := setBlocked_ok h
    exact .inr ⟨hfull, hport, rfl⟩
  · rename_i hfull
    cases h
    exact .inl ⟨hfull, rfl⟩

end State

/-! ## Requests -/

/-- A request that no outstanding miss and no write-back answers, of a
controller that accepts requests. -/
structure Misses (c : Config) (s : State) (r : TimingReq) : Prop where
  notDropped : r.memInhibit = false
  isOpen : s.blocked = ∅
  noMiss : s.mshrQueue.findMatch (c.blockAlign r.addr) false = none
  noWrite : r.cmd = .readReq → s.writeBuffer.findMatch (c.blockAlign r.addr) false = none

/-- A miss that also misses in the list of recently evicted tags. -/
structure MissesTag (c : Config) (s : State) (r : TimingReq) : Prop
    extends Misses c s r where
  noTag : c.bypassTagEnable = false ∨ s.tags.isHit c r.addr = false

/-- A read that has to go through the queues in front of the DRAM. -/
structure Queues (c : Config) (s : State) (r : TimingReq) : Prop
    extends MissesTag c s r where
  isRead : r.cmd = .readReq
  notClean : bypassesClean c s r = false
  notBloom : bypassesBloom c s r = false
  hasRoom : s.readQueue.length + s.respQueue.length + 2 ≤ c.readBufferSize

/-- The ways in which `recvTimingReq` can end. -/
inductive Recv (c : Config) (s : State) (r : TimingReq) : State → Prop
  | dropped (h : r.memInhibit = true ∨ r.cmd = .cleanEvict) :
      Recv c s r { s with portLog := .returned true :: s.portLog }
  | blocked (h : s.blocked ≠ ∅) :
      Recv c s r { s with
        cacheMustSendRetry := true
        portLog := .returned false :: s.portLog }
  | coalesced (m : ℕ) (hopen : s.blocked = ∅)
      (hm : s.mshrQueue.findMatch (c.blockAlign r.addr) false = some m)
      (hcmd : r.cmd ≠ .writeReq)
      (hlen : (s.mshrQueue.registers m).targets.length + 1 ≠ c.numTarget) :
      Recv c s r { s with
        accepted := s.accepted ++ [r]
        mshrQueue := s.mshrQueue.allocateTarget m (s.newPacket r)
        order := s.order + 1
        portLog := .returned true :: s.portLog }
  | coalescedLast (m : ℕ) (hopen : s.blocked = ∅)
      (hm : s.mshrQueue.findMatch (c.blockAlign r.addr) false = some m)
      (hcmd : r.cmd ≠ .writeReq)
      (hlen : (s.mshrQueue.registers m).targets.length + 1 = c.numTarget)
      (hport : s.portBlocked = false) :
      Recv c s r { s with
        accepted := s.accepted ++ [r]
        mshrQueue := s.mshrQueue.allocateTarget m (s.newPacket r)
        order := s.order + 1
        noTargetMSHR := some m
        blocked := insert .noTargets s.blocked
        portBlocked := s.portBlockedAfter true
        portLog := .returned true :: s.portLog }
  | fromWriteBuffer (w : ℕ) (hopen : s.blocked = ∅)
      (hnone : s.mshrQueue.findMatch (c.blockAlign r.addr) false = none)
      (hw : s.writeBuffer.findMatch (c.blockAlign r.addr) false = some w)
      (hread : r.cmd = .readReq) :
      Recv c s r { s with
        accepted := s.accepted ++ [r]
        responses := s.responses ++ [(s.accept r).accessRead (s.newPacket r)]
        portLog := .returned true :: s.portLog }
  | bypassTagRead (m : ℕ) (q : MSHRQueue) (hmiss : Misses c s r)
      (htag : c.bypassTagEnable = true ∧ s.tags.isHit c r.addr = true)
      (hread : r.cmd = .readReq)
      (hq : s.mshrQueue.Takes (c.blockAlign r.addr) (s.newPacket r)
        (s.curTick + predictionLatency) s.order m q)
      (hport : q.isFull = true → s.portBlocked = false) :
      Recv c s r { s with
        tags := s.tags.touchBypassTag c r.addr
        accepted := s.accepted ++ [r]
        mshrQueue := q
        order := s.order + 1
        blocked := s.blockedAfter .noMSHRs q.isFull
        portBlocked := s.portBlockedAfter q.isFull
        sendEvent := s.nextSend (some (s.curTick + predictionLatency))
        portLog := .returned true :: s.portLog }
  | bypassTagWrite (m : ℕ) (q : MSHRQueue) (hmiss : Misses c s r)
      (htag : c.bypassTagEnable = true ∧ s.tags.isHit c r.addr = true)
      (hread : r.cmd ≠ .readReq)
      (hq : s.writeBuffer.Takes (c.blockAlign r.addr)
        { internal := true, cmd := .writeReq, addr := r.addr,
          contextId := r.contextId, data := r.heap }
        (s.curTick + predictionLatency) s.order m q)
      (hport : q.isFull = true → s.portBlocked = false) :
      Recv c s r { s with
        tags := s.tags.touchBypassTag c r.addr
        accepted := s.accepted ++ [r]
        store := update s.store r.addr r.data
        writeBuffer := q
        order := s.order + 1
        blocked := s.blockedAfter .noWBuffers q.isFull
        portBlocked := s.portBlockedAfter q.isFull
        sendEvent := s.nextSend (some (s.curTick + predictionLatency))
        responses := s.responses ++ [s.newPacket r]
        portLog := .returned true :: s.portLog }
  | bypassed (m : ℕ) (q : MSHRQueue) (log : List (ℕ × Tags))
      (hmiss : MissesTag c s r) (hread : r.cmd = .readReq)
      (hby : bypassesClean c s r = true ∧ log = s.bloomBypasses ∨
        bypassesClean c s r = false ∧ bypassesBloom c s r = true ∧
          log = (r.addr, s.tags) :: s.bloomBypasses)
      (hq : s.mshrQueue.Takes (c.blockAlign r.addr) (s.newPacket r) predictionLatency s.order m q)
      (hport : q.isFull = true → s.portBlocked = false) :
      Recv c s r { s with
        accepted := s.accepted ++ [r]
        mshrQueue := q
        order := s.order + 1
        blocked := s.blockedAfter .noMSHRs q.isFull
        portBlocked := s.portBlockedAfter q.isFull
        sendEvent := s.nextSend (some predictionLatency)
        bloomBypasses := log
        portLog := .returned true :: s.portLog }
  | readRefused (hmiss : MissesTag c s r) (hread : r.cmd = .readReq)
      (hfull : c.readBufferSize < s.readQueue.length + s.respQueue.length + 2) :
      Recv c s r { s with
        retryRdReq := true
        portLog := .returned false :: s.portLog }
  | readServed (hq : Queues c s r) (hnone : missingBursts c s r.addr = []) :
      Recv c s r { s with
        accepted := s.accepted ++ [r]
        responses := s.responses ++ [(s.accept r).accessRead (s.newPacket r)]
        portLog := .returned true :: s.portLog }
  | readQueued (hq : Queues c s r) (hsome : missingBursts c s r.addr ≠ []) :
      Recv c s r { s with
        accepted := s.accepted ++ [r]
        readQueue := s.readQueue ++ (missingBursts c s r.addr).map fun b => ⟨s.newPacket r, b⟩
        burstsServiced := update s.burstsServiced s.accepted.length
          (2 - (missingBursts c s r.addr).length)
        portLog := .returned true :: s.portLog }
  | readPam (m : ℕ) (q : MSHRQueue) (hq : Queues c s r)
      (hall : missingBursts c s r.addr = [c.dramAddr r.addr, c.dramAddr r.addr + 1])
      (hcpu : r.contextId ≠ gpuContextId) (hpam : s.pamQueue r.addr = none)
      (hpred : r.predictHit = false)
      (hm : s.mshrQueue.Takes (c.blockAlign r.addr) { s.newPacket r with internal := true }
        (s.curTick + predictionLatency) s.order m q)
      (hport : q.isFull = true → s.portBlocked = false) :
      Recv c s r { s with
        accepted := s.accepted ++ [r]
        readQueue := s.readQueue ++ (missingBursts c s r.addr).map fun b => ⟨s.newPacket r, b⟩
        burstsServiced := update s.burstsServiced s.accepted.length
          (2 - (missingBursts c s r.addr).length)
        mshrQueue := q
        order := s.order + 1
        blocked := s.blockedAfter .noMSHRs q.isFull
        portBlocked := s.portBlockedAfter q.isFull
        sendEvent := s.nextSend (some (s.curTick + predictionLatency))
        pamQueue := update s.pamQueue (c.blockAlign r.addr)
          (some { mshr := m, pkt := (s.newPacket r).ptr, id := s.accepted.length })
        portLog := .returned true :: s.portLog }
  | writeRefused (hmiss : MissesTag c s r) (hwrite : r.cmd = .writeReq)
      (hfull : c.writeBufferSize < s.writeQueue.length + 2) :
      Recv c s r { s with
        retryWrReq := true
        portLog := .returned false :: s.portLog }
  | writeQueued (hmiss : MissesTag c s r) (hwrite : r.cmd = .writeReq)
      (hroom : s.writeQueue.length + 2 ≤ c.writeBufferSize)
      (hindex : s.writeQueue.length + 2 = ((s.isInWriteQueue.insert
        (r.addr, c.dramAddr r.addr)).insert (r.addr, c.dramAddr r.addr + 1)).length) :
      Recv c s r { s with
        accepted := s.accepted ++ [r]
        burstsServiced := update s.burstsServiced s.accepted.length 0
        writeQueue := s.writeQueue ++ [⟨s.newPacket r, c.dramAddr r.addr⟩,
          ⟨s.newPacket r, c.dramAddr r.addr + 1⟩]
        isInWriteQueue := (s.isInWriteQueue.insert
          (r.addr, c.dramAddr r.addr)).insert (r.addr, c.dramAddr r.addr + 1)
        store := update s.store r.addr r.copiedData
        portLog := .returned true :: s.portLog }

theorem recvCoalesced_ok (hopen : s.blocked = ∅)
    (hm : s.mshrQueue.findMatch (c.blockAlign r.addr) false = some m)
    (h : recvCoalesced c s r m = .ok s') : Recv c s r s' := by
  obtain ⟨_, hcmd, h⟩ := bind_eq_ok h
  obtain ⟨s₁, hco, h⟩ := bind_eq_ok h
  cases h
  rcases State.coalesce_ok hco with ⟨hlen, rfl⟩ | ⟨hlen, hport, rfl⟩
  · exact .coalesced m hopen hm (check_eq_ok hcmd) hlen
  · exact .coalescedLast m hopen hm (check_eq_ok hcmd) hlen (hport hopen)

theorem recvBypassTagHit_ok (hmiss : Misses c s r)
    (htag : c.bypassTagEnable = true ∧ s.tags.isHit c r.addr = true) {s₁ : State}
    (h : recvBypassTagHit c { s with tags := s.tags.touchBypassTag c r.addr } r = .ok s₁) :
    Recv c s r (s₁.returned true) := by
  unfold recvBypassTagHit at h
  by_cases hread : r.cmd.isRead = true
  · simp only [hread, if_true] at h
    obtain ⟨⟨m, s₂⟩, halloc, h⟩ := bind_eq_ok h
    cases h
    obtain ⟨q, hq, hport, rfl⟩ := State.allocateMissBuffer_ok halloc
    exact .bypassTagRead m q hmiss htag (MemCmd.isRead_iff.1 hread) hq
      fun hfull => hport hfull hmiss.isOpen
  · simp only [hread] at h
    obtain ⟨s₂, halloc, h⟩ := bind_eq_ok h
    cases h
    obtain ⟨m, q, hq, hport, rfl⟩ := State.allocateWriteBuffer_ok halloc
    exact .bypassTagWrite m q hmiss htag (fun h => hread (MemCmd.isRead_iff.2 h))
      hq fun hfull => hport hfull hmiss.isOpen

/-- A read that bypasses the cache, with any log of the bypasses. -/
theorem recvBypass_ok (hmiss : MissesTag c s r) (hread : r.cmd = .readReq) {log : List (ℕ × Tags)}
    (hby : bypassesClean c s r ∧ log = s.bloomBypasses ∨
      bypassesClean c s r = false ∧ bypassesBloom c s r ∧
        log = (r.addr, s.tags) :: s.bloomBypasses)
    (h : recvBypass c { s with bloomBypasses := log } r = .ok s') :
    Recv c s r s' := by
  obtain ⟨⟨m, s₁⟩, halloc, h⟩ := bind_eq_ok h
  cases h
  obtain ⟨q, hq, hport, rfl⟩ := State.allocateMissBuffer_ok halloc
  exact .bypassed m q log hmiss hread hby hq fun hfull => hport hfull hmiss.isOpen

/-- The bursts of a read are one after the other. -/
theorem missingBursts_all (h : (missingBursts c s addr).length = 2) :
    missingBursts c s addr = [c.dramAddr addr, c.dramAddr addr + 1] :=
  List.filter_sublist.eq_of_length h

theorem addToReadQueue_ok (hq : Queues c s r) {s₁ : State}
    (h : addToReadQueue c (s.accept r) (s.newPacket r) r.predictHit = .ok s₁) :
    Recv c s r (s₁.returned true) := by
  unfold addToReadQueue at h
  simp only at h
  split at h
  · rename_i hnone
    cases h
    exact .readServed hq hnone
  · rename_i hsome
    split at h
    · rename_i hpam
      simp only [startsPam, Bool.and_eq_true, beq_iff_eq, bne_iff_ne,
        Option.isNone_iff_eq_none, Bool.not_eq_true'] at hpam
      obtain ⟨⟨⟨hlen, hcpu⟩, hpam⟩, hpred⟩ := hpam
      obtain ⟨⟨m, s₂⟩, halloc, h⟩ := bind_eq_ok h
      cases h
      obtain ⟨q, hm, hport, rfl⟩ := State.allocateMissBuffer_ok halloc
      exact .readPam m q hq (missingBursts_all hlen) hcpu hpam hpred hm
        fun hfull => hport hfull hq.isOpen
    · cases h
      exact .readQueued hq hsome

theorem recvRead_ok (hmiss : MissesTag c s r) (hread : r.cmd = .readReq)
    (h : recvRead c s r = .ok s') : Recv c s r s' := by
  unfold recvRead at h
  split at h
  · rename_i hclean
    exact recvBypass_ok hmiss hread (.inl ⟨hclean, rfl⟩) h
  · rename_i hclean
    rw [Bool.not_eq_true] at hclean
    split at h
    · rename_i hbloom
      exact recvBypass_ok hmiss hread (.inr ⟨hclean, hbloom, rfl⟩) h
    · rename_i hbloom
      rw [Bool.not_eq_true] at hbloom
      split at h
      · rename_i hfull
        cases h
        exact .readRefused hmiss hread (of_decide_eq_true hfull)
      · rename_i hroom
        obtain ⟨s₁, hadd, h⟩ := bind_eq_ok h
        cases h
        refine addToReadQueue_ok ⟨hmiss, hread, hclean, hbloom, ?_⟩ hadd
        exact Nat.not_lt.1 fun hlt => hroom (decide_eq_true hlt)

theorem recvWrite_ok (hmiss : MissesTag c s r) (hwrite : r.cmd = .writeReq)
    (h : recvWrite c s r = .ok s') : Recv c s r s' := by
  unfold recvWrite at h
  split at h
  · rename_i hfull
    cases h
    exact .writeRefused hmiss hwrite (of_decide_eq_true hfull)
  · rename_i hroom
    obtain ⟨s₁, hadd, h⟩ := bind_eq_ok h
    cases h
    obtain ⟨s₂, hfirst, hadd⟩ := bind_eq_ok hadd
    obtain ⟨s₃, hsecond, hadd⟩ := bind_eq_ok hadd
    cases hadd
    obtain ⟨_, -, hfirst⟩ := bind_eq_ok hfirst
    cases hfirst
    obtain ⟨_, hindex, hsecond⟩ := bind_eq_ok hsecond
    cases hsecond
    have hindex := check_eq_ok hindex
    simp only [List.length_append, List.length_cons, List.length_nil, zero_add, add_assoc] at hindex
    have hrec := Recv.writeQueued (c := c) hmiss hwrite
      (Nat.not_lt.1 fun hlt => hroom (decide_eq_true hlt)) hindex
    simpa [State.accept, State.newPacket, State.accessWrite, State.returned] using hrec

theorem recvTimingReq_ok (h : recvTimingReq c s r = .ok s') : Recv c s r s' := by
  unfold recvTimingReq at h
  split at h
  · rename_i hdrop
    cases h
    exact .dropped (by simpa using hdrop)
  · rename_i hkeep
    split at h
    · rename_i hblocked
      cases h
      exact .blocked hblocked
    · rename_i hopen
      rw [not_not] at hopen
      split at h
      · rename_i m hm
        exact recvCoalesced_ok hopen hm h
      · rename_i hnone
        split at h
        · rename_i hw
          simp only [Bool.and_eq_true, MemCmd.isRead_iff] at hw
          obtain ⟨w, hsome⟩ := Option.isSome_iff_exists.1 hw.1
          cases h
          exact .fromWriteBuffer w hopen hnone hsome hw.2
        · rename_i hw
          have hmiss : Misses c s r := by
            refine ⟨by simp_all, hopen, hnone, fun hread => ?_⟩
            simpa [hread, MemCmd.isRead] using hw
          unfold recvLookup at h
          simp only at h
          split at h
          · rename_i htag
            obtain ⟨s₁, hhit, h⟩ := bind_eq_ok h
            cases h
            exact recvBypassTagHit_ok hmiss (by simpa using htag) hhit
          · rename_i htag
            have hmiss' : MissesTag c s r := ⟨hmiss, by
              simpa [imp_iff_not_or] using htag⟩
            split at h
            · rename_i hread
              exact recvRead_ok hmiss' (MemCmd.isRead_iff.1 hread) h
            · split at h
              · rename_i hwrite
                exact recvWrite_ok hmiss' (MemCmd.isWrite_iff.1 hwrite) h
              · cases h

/-! ## Evictions and fills -/

/-- One burst of a fill was queued, unless it was queued already. -/
inductive AddsFill (addr burst : ℕ) (fq : List FillPacket) (ifq : List (ℕ × ℕ)) :
    List FillPacket → List (ℕ × ℕ) → Prop
  | merged (h : (addr, burst) ∈ ifq) : AddsFill addr burst fq ifq fq ifq
  | queued (h : (addr, burst) ∉ ifq) :
      AddsFill addr burst fq ifq (fq ++ [⟨addr, burst⟩]) ((addr, burst) :: ifq)

/-- The bursts of a fill were queued, unless the queue had no room for them. -/
inductive QueuesFill (c : Config) (addr : ℕ) (fq : List FillPacket) (ifq : List (ℕ × ℕ)) :
    List FillPacket → List (ℕ × ℕ) → Prop
  | dropped (hfull : c.fillBufferSize < fq.length + 2) : QueuesFill c addr fq ifq fq ifq
  | queued {fq₁ fq₂ : List FillPacket} {ifq₁ ifq₂ : List (ℕ × ℕ)}
      (hroom : fq.length + 2 ≤ c.fillBufferSize)
      (h₁ : AddsFill addr (c.dramAddr addr) fq ifq fq₁ ifq₁)
      (h₂ : AddsFill addr (c.dramAddr addr + 1) fq₁ ifq₁ fq₂ ifq₂) :
      QueuesFill c addr fq ifq fq₂ ifq₂

theorem addFillBurst_ok (h : addFillBurst s addr burst = .ok s') :
    ∃ fq ifq, AddsFill addr burst s.fillQueue s.isInFillQueue fq ifq ∧
      s' = { s with fillQueue := fq, isInFillQueue := ifq } := by
  unfold addFillBurst at h
  split at h
  · rename_i hmem
    cases h
    exact ⟨_, _, .merged hmem, rfl⟩
  · rename_i hnew
    obtain ⟨_, -, h⟩ := bind_eq_ok h
    cases h
    refine ⟨_, _, .queued hnew, ?_⟩
    rw [List.insert_of_not_mem hnew]

/-- The set and the queue were not of the same size before. -/
theorem addFillBurst_error (h : addFillBurst s addr burst = .error f) :
    f = .fillQueueIndexSize ∧ s.fillQueue.length ≠ s.isInFillQueue.length := by
  unfold addFillBurst at h
  split at h
  · cases h
  · rename_i hnew
    replace h := bind_ok_eq_error h
    obtain ⟨rfl, hne⟩ := check_eq_error h
    refine ⟨rfl, fun heq => hne ?_⟩
    simp [List.insert_of_not_mem hnew, heq]

theorem AddsFill.length_eq {fq fq' : List FillPacket} {ifq ifq' : List (ℕ × ℕ)}
    (h : AddsFill addr burst fq ifq fq' ifq') (heq : fq.length = ifq.length) :
    fq'.length = ifq'.length := by
  cases h with
  | merged => exact heq
  | queued => simp [heq]

theorem queueFill_ok (h : queueFill c s addr = .ok s') :
    ∃ fq ifq, QueuesFill c addr s.fillQueue s.isInFillQueue fq ifq ∧
      s' = { s with fillQueue := fq, isInFillQueue := ifq } := by
  unfold queueFill at h
  split at h
  · rename_i hfull
    cases h
    exact ⟨_, _, .dropped (of_decide_eq_true hfull), rfl⟩
  · rename_i hroom
    obtain ⟨s₁, h₁, h₂⟩ := bind_eq_ok h
    obtain ⟨fq, ifq, hadd, rfl⟩ := addFillBurst_ok h₁
    obtain ⟨fq', ifq', hadd', rfl⟩ := addFillBurst_ok h₂
    exact ⟨fq', ifq', .queued (Nat.not_lt.1 fun hlt => hroom (decide_eq_true hlt)) hadd hadd', rfl⟩

theorem queueFill_error (h : queueFill c s addr = .error f) :
    f = .fillQueueIndexSize ∧ s.fillQueue.length ≠ s.isInFillQueue.length := by
  unfold queueFill at h
  split at h
  · cases h
  · rcases bind_eq_error h with h | ⟨_, hfirst, h⟩
    · exact addFillBurst_error h
    · obtain ⟨fq, ifq, hadd, rfl⟩ := addFillBurst_ok hfirst
      obtain ⟨hf, hne⟩ := addFillBurst_error h
      exact ⟨hf, fun heq => hne (hadd.length_eq heq)⟩

theorem doWriteBack_ok (h : doWriteBack c s addr ctx = .ok s') :
    ∃ m q, s.writeBuffer.Takes (c.blockAlign addr) (s.writeBackPacket addr ctx)
        (s.curTick + 1) s.order m q ∧
      (q.isFull → s.blocked = ∅ → s.portBlocked = false) ∧
      s' = { s with
        tags := s.tags.clearSet c addr
        writeBuffer := q
        order := s.order + 1
        blocked := s.blockedAfter .noWBuffers q.isFull
        portBlocked := s.portBlockedAfter q.isFull
        sendEvent := s.nextSend (some (s.curTick + 1)) } := by
  obtain ⟨s₁, halloc, h⟩ := bind_eq_ok h
  cases h
  obtain ⟨m, q, hq, hport, rfl⟩ := State.allocateWriteBuffer_ok halloc
  exact ⟨m, q, hq, hport, rfl⟩

/-- The ways in which `addToFillQueue` can end. -/
inductive Fills (c : Config) (s : State) (addr ctx : ℕ) : State → Prop
  | skipped (hskip : skipsFill c s ctx = true) : Fills c s addr ctx s
  | clean (fq : List FillPacket) (ifq : List (ℕ × ℕ))
      (hskip : skipsFill c s ctx = false)
      (hclean : ((s.tags.sets (c.setOf addr)).dirty && (s.tags.sets (c.setOf addr)).valid) = false)
      (hfill : QueuesFill c addr s.fillQueue s.isInFillQueue fq ifq) :
      Fills c s addr ctx { s with
        tags := s.tags.install c addr ctx (s.tags.victim c addr)
        fillQueue := fq
        isInFillQueue := ifq }
  | dirty (m : ℕ) (q : MSHRQueue) (fq : List FillPacket) (ifq : List (ℕ × ℕ))
      (hskip : skipsFill c s ctx = false)
      (hdirty : (s.tags.sets (c.setOf addr)).dirty = true)
      (hvalid : (s.tags.sets (c.setOf addr)).valid = true)
      (hq : s.writeBuffer.Takes (c.blockAlign (s.tags.victim c addr))
        (s.writeBackPacket (s.tags.victim c addr) (s.tags.victimContext c addr))
        (s.curTick + 1) s.order m q)
      (hport : q.isFull = true → s.blocked = ∅ → s.portBlocked = false)
      (hfill : QueuesFill c addr s.fillQueue s.isInFillQueue fq ifq) :
      Fills c s addr ctx { s with
        tags := ((s.tags.forget c (s.tags.victim c addr)).clearSet c
          (s.tags.victim c addr)).install c addr ctx (s.tags.victim c addr)
        writeBuffer := q
        order := s.order + 1
        blocked := s.blockedAfter .noWBuffers q.isFull
        portBlocked := s.portBlockedAfter q.isFull
        sendEvent := s.nextSend (some (s.curTick + 1))
        fillQueue := fq
        isInFillQueue := ifq }

theorem addToFillQueue_ok (h : addToFillQueue c s addr ctx = .ok s') :
    Fills c s addr ctx s' := by
  simp only [addToFillQueue] at h
  split at h
  · rename_i hskip
    cases h
    exact .skipped hskip
  · rename_i hskip
    rw [Bool.not_eq_true] at hskip
    obtain ⟨s₁, hev, h⟩ := bind_eq_ok h
    obtain ⟨fq, ifq, hfill, rfl⟩ := queueFill_ok h
    simp only [evict] at hev
    split at hev
    · rename_i hset
      simp only [Bool.and_eq_true] at hset
      obtain ⟨m, q, hq, hport, rfl⟩ := doWriteBack_ok hev
      exact .dirty m q fq ifq hskip hset.1 hset.2 hq hport hfill
    · rename_i hset
      cases hev
      exact .clean fq ifq hskip (Bool.not_eq_true _ ▸ hset) hfill

/-- An eviction leaves the fills alone. -/
theorem evict_fillQueue (h : evict c s addr = .ok s') :
    s'.fillQueue = s.fillQueue ∧ s'.isInFillQueue = s.isInFillQueue := by
  simp only [evict] at h
  split at h
  · obtain ⟨m, q, -, -, rfl⟩ := doWriteBack_ok h
    exact ⟨rfl, rfl⟩
  · cases h
    exact ⟨rfl, rfl⟩

/-- A fill reports an empty free list only for the write buffer, and only when
it has to write a dirty block back. -/
theorem addToFillQueue_error (h : addToFillQueue c s addr ctx = .error f) :
    f = .freeListEmpty s.writeBuffer.index ∧ s.writeBuffer.freeList = [] ∨
      f = .mshrNotReset ∨ f = .portAlreadyBlocked ∨ f = .sendEventScheduled ∨
      f = .fillQueueIndexSize ∧ s.fillQueue.length ≠ s.isInFillQueue.length := by
  simp only [addToFillQueue] at h
  split at h
  · cases h
  · rcases bind_eq_error h with h | ⟨s₁, hev, h⟩
    · simp only [evict] at h
      split at h
      · replace h := bind_ok_eq_error h
        have hcases := State.allocateWriteBuffer_error h
        tauto
      · cases h
    · obtain ⟨hfq, hifq⟩ := evict_fillQueue hev
      have hfill := queueFill_error h
      rw [← hfq, ← hifq]
      exact .inr (.inr (.inr (.inr hfill)))

/-! ## Registers of writes -/

/-- A register of a write is taken by a request. -/
theorem Recv.writeEntries (h : Recv c s r s') : s'.writeBuffer.entries = s.writeBuffer.entries ∨
      ∃ m reg, s.writeBuffer.entries m = none ∧ reg.inService = false ∧ reg.targets.length = 1 ∧
        s'.writeBuffer.entries = update s.writeBuffer.entries m (some reg) := by
  cases h with
  | bypassTagWrite m q _ _ _ hq =>
    exact .inr ⟨m, _, hq.entries_self, rfl, rfl, hq.entries_eq⟩
  | _ => exact .inl rfl

/-- A fill may take a register of a write. -/
theorem Fills.writeEntries {addr ctx : ℕ} (h : Fills c s addr ctx s') :
    s'.writeBuffer.entries = s.writeBuffer.entries ∨
      ∃ m reg, s.writeBuffer.entries m = none ∧ reg.inService = false ∧ reg.targets.length = 1 ∧
        s'.writeBuffer.entries = update s.writeBuffer.entries m (some reg) := by
  cases h with
  | dirty m q fq ifq _ _ _ hq =>
    exact .inr ⟨m, _, hq.entries_self, rfl, rfl, hq.entries_eq⟩
  | _ => exact .inl rfl

end Gem5Gpu.DRAMCache
