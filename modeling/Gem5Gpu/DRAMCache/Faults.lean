import Gem5Gpu.DRAMCache.SmallStep

/-!
# Where an assertion can fail

`step_micros` describes the handlers that end well.  This module is its
counterpart for the others: `step_fails` says that an assertion fails in a state
that the pieces of the handler reach, and `Fails` says what is wrong there.  A
safety proof then only has to show that its invariant excludes such a state.

Three groups of assertions are told apart: the one on the free list of a queue in
`MSHRQueue::allocate`, those of `recvTimingResp` on the targets of the miss
that an answer is for, and those on the queues of bursts: that a set of queued
bursts is as large as its queue, and that there is a burst to serve.  For the
others `Fails` says nothing more.
-/

namespace Gem5Gpu.DRAMCache

open Mem Lib

variable {c : Config} {e : Event} {up : Upstream} {s s' s₀ s₁ : State} {r : TimingReq} {φ : Phase}
  {f : Fault} {m : ℕ} {w : Bool} {p : MemPacket} {pkt : Packet} {index : MSHRQueueIndex}
  {cause : BlockedCause} {choice : Option ℕ}

/-- The assertions that are not told apart here. -/
def isOther : Fault → Bool
  | .freeListEmpty _ | .respNoTargets | .respTargetAddr | .respPamMshr
  | .respWriteTargets | .respUnknown | .writeQueueIndexSize | .fillQueueIndexSize
  | .chooseNextEmpty | .noQueueToServe => false
  | _ => true

/-- A write that an open controller with room for it accepts. -/
def AcceptsWrite (c : Config) (s : State) (r : TimingReq) : Prop :=
  r.cmd = .writeReq ∧ r.memInhibit = false ∧ s.blocked = ∅ ∧
    s.mshrQueue.findMatch (c.blockAlign r.addr) false = none ∧
    s.writeQueue.length + 2 ≤ c.writeBufferSize

/-- A request that the upstream port makes while the handler of `e` runs: the
call at top level, or a reaction to a retry, in a state that takes it as `s` does
and has the same set of queued writes. -/
def Asked (c : Config) (e : Event) (s₀ s : State) (r : TimingReq) : Prop :=
  ∃ s', (e = .recvTimingReq r ∧ s' = s₀ ∨ e.upstream s' = some r) ∧
    (AcceptsWrite c s r → AcceptsWrite c s' r) ∧ s'.isInWriteQueue = s.isInWriteQueue

/-- Queueing a write breaks the equality of sizes, although it held: a burst of
the write is queued already. -/
def WriteClash (c : Config) (s : State) (r : TimingReq) : Prop :=
  AcceptsWrite c s r ∧ (s.writeQueue.length = s.isInWriteQueue.length →
    (r.addr, c.dramAddr r.addr) ∈ s.isInWriteQueue ∨
      (r.addr, c.dramAddr r.addr + 1) ∈ s.isInWriteQueue)

/-- What is wrong in the state in which an assertion fails. -/
inductive Fails (c : Config) (e : Event) (s₀ : State) : Phase → State → Fault → Prop
  -- the free lists
  | request {φ : Phase} {s : State} (hopen : s.blocked = ∅)
      (hfree : s.mshrQueue.freeList = []) :
      Fails c e s₀ φ s (.freeListEmpty s.mshrQueue.index)
  | miss (pkt : Packet) (hlast : LastBurst e s₀ pkt)
      (hfree : s₀.mshrQueue.freeList = []) :
      Fails c e s₀ .start s₀ (.freeListEmpty s₀.mshrQueue.index)
  | write {φ : Phase} {s : State} (hfree : s.writeBuffer.freeList = []) :
      Fails c e s₀ φ s (.freeListEmpty s.writeBuffer.index)
  -- the targets of an answer
  | pamEarly (p : MemPacket) (pr : PamReq) (hans : e.Answers s₀ p)
      (hqueue : p.queue = .mshrs) (hpr : s₀.pamQueue p.addr = some pr)
      (hhit : pr.isHit = none)
      (htargets : (s₀.mshrQueue.registers pr.mshr).targets = []) :
      Fails c e s₀ .start s₀ .respNoTargets
  | pamMshr (p : MemPacket) (pr : PamReq) (hans : e.Answers s₀ p)
      (hqueue : p.queue = .mshrs) (hpr : s₀.pamQueue p.addr = some pr)
      (hne : p.mshr ≠ pr.mshr) : Fails c e s₀ .start s₀ .respPamMshr
  | noTargets (p : MemPacket) (w pam : Bool) {s : State}
      (hqueue : p.queue = .mshrs)
      (htargets : (s.mshrQueue.registers p.mshr).targets = []) :
      Fails c e s₀ (.consuming p w pam) s .respNoTargets
  | targetAddr (p : MemPacket) (w : Bool) (t : Packet) {s : State}
      (hqueue : p.queue = .mshrs)
      (ht : t ∈ (s.mshrQueue.registers p.mshr).targets)
      (hne : p.addr ≠ t.addr) :
      Fails c e s₀ (.consuming p w false) s .respTargetAddr
  | writeTargets (p : MemPacket) (w : Bool) {s : State}
      (hqueue : p.queue = .writeBuffer)
      (hlen : (s.writeBuffer.registers p.mshr).targets.length ≠ 1) :
      Fails c e s₀ (.consuming p w false) s .respWriteTargets
  | unknown (p : MemPacket) (w : Bool) {s : State}
      (hread : p.queue = .mshrs → p.cmd ≠ .readReq)
      (hwrite : p.queue = .writeBuffer → p.cmd ≠ .writeReq) :
      Fails c e s₀ (.consuming p w false) s .respUnknown
  -- the queues of bursts
  | writeIndex {φ : Phase} {s : State} (r : TimingReq) (hask : Asked c e s₀ s r)
      (hclash : WriteClash c s r) : Fails c e s₀ φ s .writeQueueIndexSize
  | fillIndex {φ : Phase} {s : State}
      (hne : s.fillQueue.length ≠ s.isInFillQueue.length) :
      Fails c e s₀ φ s .fillQueueIndexSize
  | fillServed (i : ℕ) (p : FillPacket) (hp : s₀.fillQueue[i]? = some p)
      (hne : s₀.fillQueue.length = s₀.isInFillQueue.length →
        (p.requestAddr, p.addr) ∉ s₀.isInFillQueue) :
      Fails c e s₀ .start s₀ .fillQueueIndexSize
  | nothingToServe (hbus : s₀.busState.Writes) (hwrites : s₀.writeQueue = [])
      (hfills : s₀.fillQueue = []) : Fails c e s₀ .start s₀ .chooseNextEmpty
  | other {φ : Phase} {s : State} {f : Fault} (hf : isOther f = true) :
      Fails c e s₀ φ s f

/-- The handler of `e` that began in `s` gets to a state in which `f` fails. -/
def FailsIn (c : Config) (e : Event) (s : State) (f : Fault) : Prop :=
  ∃ φ s₁, Micros c e s (.start, s) (φ, s₁) ∧ Fails c e s φ s₁ f

theorem FailsIn.other (hf : isOther f) : FailsIn c e s f :=
  ⟨.start, s, Relation.ReflTransGen.refl, .other hf⟩

theorem Fails.failsIn (h : Fails c e s .start s f) : FailsIn c e s f :=
  ⟨.start, s, Relation.ReflTransGen.refl, h⟩

/-- The failures of a request, in a state with the same queues. -/
def RecvFails (c : Config) (s : State) (r : TimingReq) (f : Fault) : Prop :=
  s.blocked = ∅ ∧ s.mshrQueue.freeList = [] ∧ f = .freeListEmpty s.mshrQueue.index ∨
    s.writeBuffer.freeList = [] ∧ f = .freeListEmpty s.writeBuffer.index ∨
    WriteClash c s r ∧ f = .writeQueueIndexSize ∨
    isOther f = true

/-- The failures of a write-back or a fill, in a state with the same queues. -/
def NoRoom (s : State) (f : Fault) : Prop :=
  s.writeBuffer.freeList = [] ∧ f = .freeListEmpty s.writeBuffer.index ∨
    s.fillQueue.length ≠ s.isInFillQueue.length ∧ f = .fillQueueIndexSize ∨
    isOther f = true

theorem NoRoom.fails (h : NoRoom s f) : Fails c e s₀ φ s f := by
  rcases h with ⟨hfree, rfl⟩ | ⟨hne, rfl⟩ | hf
  · exact .write hfree
  · exact .fillIndex hne
  · exact .other hf

/-- The failures of a request of the upstream port. -/
def AskFails (c : Config) (e : Event) (s₀ s : State) (f : Fault) : Prop :=
  ∃ r, Asked c e s₀ s r ∧ RecvFails c s r f

theorem AskFails.fails (h : AskFails c e s₀ s f) : Fails c e s₀ φ s f := by
  obtain ⟨r, hask, ⟨hopen, hfree, rfl⟩ | ⟨hfree, rfl⟩ | ⟨hclash, rfl⟩ | hf⟩ := h
  · exact .request hopen hfree
  · exact .write hfree
  · exact .writeIndex r hask hclash
  · exact .other hf

/-! ## Requests and retries -/

theorem RecvFails.of_allocateMissBuffer (r : TimingReq) {t : ℕ}
    (h : s.allocateMissBuffer c pkt t = .error f) (hopen : s.blocked = ∅) :
    RecvFails c s r f := by
  rcases State.allocateBufferInternal_error h with ⟨rfl, hfree⟩ | rfl | rfl | rfl
  · exact .inl ⟨hopen, hfree, rfl⟩
  all_goals exact .inr (.inr (.inr rfl))

theorem RecvFails.of_allocateWriteBuffer (r : TimingReq) {t : ℕ}
    (h : s.allocateWriteBuffer c pkt t = .error f) : RecvFails c s r f := by
  rcases State.allocateWriteBuffer_error h with ⟨rfl, hfree⟩ | rfl | rfl | rfl
  · exact .inr (.inl ⟨hfree, rfl⟩)
  all_goals exact .inr (.inr (.inr rfl))

theorem NoRoom.of_allocateWriteBuffer {t : ℕ}
    (h : s.allocateWriteBuffer c pkt t = .error f) : NoRoom s f := by
  rcases State.allocateWriteBuffer_error h with ⟨rfl, hfree⟩ | rfl | rfl | rfl
  · exact .inl ⟨hfree, rfl⟩
  all_goals exact .inr (.inr rfl)

theorem coalesce_error (h : s.coalesce c m pkt = .error f) : f = .portAlreadyBlocked := by
  simp only [State.coalesce] at h
  split at h
  · exact State.setBlocked_error h
  · cases h

theorem recvBypass_error (hopen : s.blocked = ∅) {log : List (ℕ × Tags)}
    (h : recvBypass c { s with bloomBypasses := log } r = .error f) :
    RecvFails c s r f := by
  replace h := bind_ok_eq_error h
  have hex := RecvFails.of_allocateMissBuffer r h hopen
  exact hex

theorem recvRead_error (hopen : s.blocked = ∅) (h : recvRead c s r = .error f) :
    RecvFails c s r f := by
  unfold recvRead at h
  split at h
  · exact recvBypass_error hopen h
  · split at h
    · exact recvBypass_error hopen h
    · split at h
      · cases h
      · replace h := bind_ok_eq_error h
        unfold addToReadQueue at h
        simp only at h
        split at h
        · cases h
        · split at h
          · replace h := bind_ok_eq_error h
            have hex := RecvFails.of_allocateMissBuffer r h hopen
            exact hex
          · cases h

theorem addWriteBurst_error {burst : ℕ} (h : addWriteBurst s pkt burst = .error f) :
    f = .writeQueueIndexSize ∧ (s.writeQueue.length = s.isInWriteQueue.length →
      (pkt.addr, burst) ∈ s.isInWriteQueue) := by
  replace h := bind_ok_eq_error h
  obtain ⟨rfl, hne⟩ := check_eq_error h
  refine ⟨rfl, fun heq => ?_⟩
  by_contra hnew
  exact hne (by simp [List.insert_of_not_mem hnew, heq])

/-- The set grows with the queue. -/
theorem addWriteBurst_ok {burst : ℕ} (h : addWriteBurst s pkt burst = .ok s') :
    s'.writeQueue.length = s'.isInWriteQueue.length ∧
      s'.isInWriteQueue = s.isInWriteQueue.insert (pkt.addr, burst) := by
  obtain ⟨_, hlen, h⟩ := bind_eq_ok h
  cases h
  exact ⟨check_eq_ok hlen, rfl⟩

theorem recvWrite_error (hwrite : s.writeQueue.length + 2 ≤ c.writeBufferSize → AcceptsWrite c s r)
    (h : recvWrite c s r = .error f) : RecvFails c s r f := by
  unfold recvWrite at h
  split at h
  · cases h
  · rename_i hroom
    have hwrite := hwrite (Nat.not_lt.1 fun hlt => hroom (decide_eq_true hlt))
    replace h := bind_ok_eq_error h
    rcases bind_eq_error h with h | ⟨s₁, hfirst, h⟩
    · obtain ⟨rfl, hmem⟩ := addWriteBurst_error h
      exact .inr (.inr (.inl ⟨⟨hwrite, fun heq => .inl (hmem heq)⟩, rfl⟩))
    · replace h := bind_ok_eq_error h
      obtain ⟨hlen, hset⟩ := addWriteBurst_ok hfirst
      obtain ⟨rfl, hmem⟩ := addWriteBurst_error h
      refine .inr (.inr (.inl ⟨⟨hwrite, fun _ => .inr ?_⟩, rfl⟩))
      have hmem := hmem hlen
      rw [hset, List.mem_insert_iff] at hmem
      rcases hmem with hsame | hmem
      · exact absurd (congrArg Prod.snd hsame) (Nat.succ_ne_self _)
      · exact hmem

theorem recvBypassTagHit_error (hopen : s.blocked = ∅) {tags : Tags}
    (h : recvBypassTagHit c { s with tags := tags } r = .error f) :
    RecvFails c s r f := by
  unfold recvBypassTagHit at h
  simp only at h
  split at h
  · replace h := bind_ok_eq_error h
    have hex := RecvFails.of_allocateMissBuffer r h hopen
    exact hex
  · replace h := bind_ok_eq_error h
    have hex := RecvFails.of_allocateWriteBuffer r h
    exact hex

theorem recvTimingReq_error (h : recvTimingReq c s r = .error f) :
    RecvFails c s r f := by
  unfold recvTimingReq at h
  split at h
  · cases h
  · rename_i hkeep
    split at h
    · cases h
    · rename_i hopen
      rw [not_not] at hopen
      split at h
      · rcases bind_eq_error h with h | ⟨_, -, h⟩
        · rw [(check_eq_error h).1]
          exact .inr (.inr (.inr rfl))
        · replace h := bind_ok_eq_error h
          rw [coalesce_error h]
          exact .inr (.inr (.inr rfl))
      · rename_i hnone
        split at h
        · cases h
        · unfold recvLookup at h
          simp only at h
          split at h
          · replace h := bind_ok_eq_error h
            exact recvBypassTagHit_error hopen h
          · split at h
            · exact recvRead_error hopen h
            · split at h
              · rename_i hwrite
                exact recvWrite_error (fun hroom => ⟨MemCmd.isWrite_iff.1 hwrite, by simp_all,
                  hopen, hnone, hroom⟩) h
              · cases h
                exact .inr (.inr (.inr rfl))

theorem sendRetryReq_error (s₀ : State) (h : sendRetryReq c e.upstream s = .error f) :
    AskFails c e s₀ s f := by
  simp only [sendRetryReq] at h
  split at h
  · cases h
  · rename_i r hup
    have hrecv := recvTimingReq_error h
    exact ⟨r, ⟨_, .inr hup, id, rfl⟩, hrecv⟩

/-- A failure in `clearBlocked`, after the cause was cleared. -/
theorem clearBlocked_error (s₀ : State) (h : clearBlocked c e.upstream s cause = .error f) :
    isOther f ∨ (s.blocked.erase cause = ∅ → s.portBlocked) ∧
      AskFails c e s₀ (s.unblock cause) f := by
  simp only [clearBlocked] at h
  split at h
  · rcases bind_eq_error h with h | ⟨_, hport, h⟩
    · rw [(check_eq_error h).1]
      exact .inl rfl
    · split at h
      · replace h := bind_ok_eq_error h
        have hex := sendRetryReq_error s₀ h
        exact .inr ⟨fun _ => check_eq_ok hport, hex⟩
      · cases h
  · cases h

theorem deallocate_fails (s₀ : State) (h : deallocate c e.upstream s index m w = .error f) :
    isOther f ∨ ∃ s₁, Freed s index m w s₁ ∧ AskFails c e s₀ s₁ f := by
  rcases bind_eq_error h with h | ⟨q, hq, h⟩
  · rcases MSHRQueue.deallocate_error h with ⟨rfl, -⟩ | ⟨rfl, -⟩ <;> exact .inl rfl
  · have hq := MSHRQueue.deallocate_ok hq
    simp only [Bool.and_eq_true, Bool.not_eq_true'] at h
    split at h
    · rename_i hopen
      rcases clearBlocked_error s₀ h with hf | ⟨hport, hex⟩
      · exact .inl hf
      · refine .inr ⟨_, .opens q hq hopen.1 hopen.2 ?_, hex⟩
        cases index <;> exact hport
    · cases h

/-! ## The DRAM side -/

/-- A handler that frees a register gets to the state after that. -/
theorem FailsIn.of_deallocate (h : deallocate c e.upstream s index m w = .error f)
    (hpath : ∀ s₁, Freed s index m w s₁ → Micros c e s₀ (.start, s₀) (φ, s₁)) :
    FailsIn c e s₀ f := by
  rcases deallocate_fails s₀ h with hf | ⟨s₁, hfree, hex⟩
  · exact .other hf
  · exact ⟨φ, s₁, hpath s₁ hfree, hex.fails⟩

theorem NoRoom.of_addToFillQueue {addr ctx : ℕ}
    (h : addToFillQueue c s addr ctx = .error f) : NoRoom s f := by
  rcases addToFillQueue_error h with ⟨rfl, hfree⟩ | rfl | rfl | rfl | ⟨rfl, hne⟩
  · exact .inl ⟨hfree, rfl⟩
  · exact .inr (.inr rfl)
  · exact .inr (.inr rfl)
  · exact .inr (.inr rfl)
  · exact .inr (.inl ⟨hne, rfl⟩)

/-- There is a burst to serve, and the set of queued fills is as large as the
queue.  The choice between the two queues always succeeds. -/
theorem serveWriteOrFill_error (h : serveWriteOrFill c s choice = .error f) :
    f = .chooseNextEmpty ∧ s.writeQueue = [] ∧ s.fillQueue = [] ∨
      f = .fillQueueIndexSize ∧ ∃ (i : ℕ) (p : FillPacket), s.fillQueue[i]? = some p ∧
        (s.fillQueue.length = s.isInFillQueue.length →
          (p.requestAddr, p.addr) ∉ s.isInFillQueue) := by
  unfold serveWriteOrFill at h
  split at h
  · cases h
  · rename_i hwrite
    simp only [ne_eq, decide_not, Bool.and_eq_true, Bool.not_eq_true', decide_eq_false_iff_not,
      Bool.or_eq_true, decide_eq_true_eq, not_and, not_or, Nat.not_lt] at hwrite
    split at h
    · rcases bind_eq_error h with h | ⟨_, -, h⟩
      · obtain ⟨rfl, hfills⟩ := check_eq_error h
        rw [not_not] at hfills
        refine .inl ⟨rfl, ?_, hfills⟩
        by_contra hne
        obtain ⟨hhigh, hmin⟩ := hwrite hne
        rw [hfills] at hhigh
        have := List.length_pos_iff.2 hne
        rw [Nat.le_zero.1 hhigh, Nat.min_zero] at hmin
        omega
      · split at h
        · cases h
        · rename_i p rest hnext
          obtain ⟨i, hp, rfl⟩ := takeNext_some hnext
          replace h := bind_ok_eq_error h
          obtain ⟨rfl, hne⟩ := check_eq_error h
          refine .inr ⟨rfl, i, p, hp, fun heq hmem => hne ?_⟩
          have hi : i < s.fillQueue.length := (List.getElem?_eq_some_iff.1 hp).1
          show (s.fillQueue.eraseIdx i).length = (s.isInFillQueue.erase _).length
          rw [List.length_eraseIdx_of_lt hi, List.length_erase_of_mem hmem, heq]
    · rename_i hfill
      simp only [Bool.or_eq_true, decide_eq_true_eq, not_or, Nat.not_le] at hfill
      exact absurd (hwrite hfill.1).1 (Nat.not_le.2 hfill.2)

theorem serve_fails (h : serve c (turnBus s) choice = .error f) : Fails c e s .start s f := by
  obtain ⟨b, w, hb, hdir, hturn⟩ := turnBus_eq s
  rw [hturn] at h
  unfold serve at h
  split at h
  · cases h
  · rename_i hread
    rcases bind_eq_error h with h | ⟨served, -, h⟩
    · rcases serveWriteOrFill_error h with ⟨rfl, hwrites, hfills⟩ | ⟨rfl, i, p, hp, hne⟩
      · exact .nothingToServe (hb (.inr (hdir.resolve_left hread))) hwrites hfills
      · exact .fillServed i p hp hne
    · cases served with
      | none => cases h
      | some s₂ =>
        simp only at h
        split at h <;> cases h

theorem processNextReqEvent_fails {busy : Bool}
    (h : processNextReqEvent c e.upstream s busy choice = .error f) :
    FailsIn c e s f := by
  unfold processNextReqEvent at h
  split at h
  · cases h
  · rcases bind_eq_error h with h | ⟨⟨goesOn, s₁⟩, hserve, h⟩
    · exact (serve_fails h).failsIn
    · have hpath := (serve_spec (e := e) hserve).1
      simp only at h
      split at h
      · have hex := sendRetryReq_error s h
        exact ⟨.done, s₁, hpath, AskFails.fails hex⟩
      · cases h

theorem respondPamHit_error (h : respondPamHit s pkt m = .error f) : isOther f := by
  replace h := bind_ok_eq_error h
  rw [(check_eq_error h).1]
  rfl

theorem respondPamMiss_error (h : respondPamMiss c s pkt m = .error f) : NoRoom s f := by
  unfold respondPamMiss at h
  split at h
  · cases h
    exact .inr (.inr rfl)
  · rw [copyAndRespondAll_eq] at h
    have hno := NoRoom.of_addToFillQueue h
    exact hno

theorem finishPamRead_fails {pr : PamReq} {hit : Bool}
    (hlast : LastPamBurst e s pkt pr) (hhit : (s.lookup c pkt).1 = hit)
    (h : finishPamRead c e.upstream { s with
      burstsServiced := s.countBurst pkt
      tags := (s.lookup c pkt).2 } pkt pr hit = .error f) :
    FailsIn c e s f := by
  unfold finishPamRead at h
  simp only at h
  split at h
  · rename_i hdone
    rcases bind_eq_error h with h | ⟨s₁, hresp, h⟩
    · cases hit with
      | true => exact .other (respondPamHit_error h)
      | false =>
        have hno := respondPamMiss_error h
        exact Fails.failsIn (NoRoom.fails hno)
    · refine .of_deallocate (φ := .finished pkt) h fun s₂ hfree => ?_
      cases hit with
      | true =>
        obtain ⟨first, rest, htargets, rfl⟩ := respondPamHit_ok hresp
        simp only [State.setPamQueue, Function.update_idem] at hfree
        exact (Micro.pamDoneHit pkt pr first rest hlast hdone hhit htargets hfree).path
      | false =>
        obtain ⟨first, rest, htargets, hfill⟩ := respondPamMiss_ok hresp
        rw [hfill.mshrQueue_eq] at hfree
        exact (Micro.pamDoneMiss pkt pr first rest hlast hdone hhit htargets hfill hfree).path
  · rename_i hdone
    rw [Bool.not_eq_true] at hdone
    split at h
    · rename_i htrue
      subst htrue
      rcases bind_eq_error h with h | ⟨s₁, hresp, h⟩
      · exact .other (respondPamHit_error h)
      · rcases bind_eq_error h with h | ⟨s₂, -, h⟩
        · refine .of_deallocate (φ := if (s.mshrQueue.registers pr.mshr).inService
            then .finished pkt else .forgetting pkt) h fun s₂ hfree => ?_
          obtain ⟨first, rest, htargets, rfl⟩ := respondPamHit_ok hresp
          exact (Micro.pamHit pkt pr first rest hlast hdone hhit htargets hfree).path
        · split at h <;> cases h
    · cases h

theorem finishSerialRead_fails {hit : Bool} (hlast : LastBurst e s pkt)
    (h : finishSerialRead c { s with
      burstsServiced := s.countBurst pkt
      tags := (s.lookup c pkt).2 } pkt hit = .error f) : FailsIn c e s f := by
  unfold finishSerialRead at h
  cases hit with
  | true => cases h
  | false =>
    simp only [Bool.false_eq_true, if_false] at h
    split at h
    · rw [coalesce_error h]
      exact .other rfl
    · replace h := bind_ok_eq_error h
      rcases State.allocateBufferInternal_error h with
        ⟨rfl, hfree⟩ | rfl | rfl | rfl
      · exact Fails.failsIn (.miss pkt hlast hfree)
      all_goals exact .other rfl

theorem finishRead_fails (hlast : LastBurst e s pkt)
    (h : finishRead c e.upstream (s.serviceBurst pkt) pkt = .error f) :
    FailsIn c e s f := by
  simp only [finishRead] at h
  split at h
  · rename_i pr hentry
    split at h
    · rename_i hid
      exact finishPamRead_fails ⟨hlast, hentry, hid⟩ rfl h
    · exact finishSerialRead_fails hlast h
  · exact finishSerialRead_fails hlast h

theorem processRespondHelper_error (s₀ : State)
    (h : processRespondHelper c e.upstream s = .error f) : AskFails c e s₀ s f := by
  simp only [processRespondHelper] at h
  obtain ⟨d, hd⟩ := signalDrainDone_eq { s with respQueue := s.respQueue.tail }
    (s.respQueue.tail.isEmpty && s.writeQueue.isEmpty && s.readQueue.isEmpty &&
      s.dramPktWriteRespQueue.isEmpty)
  rw [hd] at h
  split at h
  · have hex := sendRetryReq_error s₀ h
    exact hex
  · cases h

theorem processRespondEvent_fails (he : ∃ up, e = .processRespondEvent up)
    (h : processRespondEvent c e.upstream s = .error f) : FailsIn c e s f := by
  unfold processRespondEvent at h
  split at h
  · cases h
  · rename_i p rest hq
    have hcount : (s.serviceBurst p.pkt).burstsServiced p.pkt.id =
        s.burstsServiced p.pkt.id + 1 := by
      simp [State.serviceBurst]
    unfold serviceRead at h
    rw [hcount] at h
    rcases bind_eq_error h with h | ⟨s₁, hserve, h⟩
    · split at h
      · rename_i hlast
        exact finishRead_fails ⟨he, ⟨p.addr, rest, hq⟩, hlast⟩ h
      · cases h
    · have hex := processRespondHelper_error s h
      split at hserve
      · rename_i hlast
        exact ⟨.finished p.pkt, s₁,
          finishRead_micros ⟨he, ⟨p.addr, rest, hq⟩, hlast⟩ hserve, hex.fails⟩
      · cases hserve
        exact Fails.failsIn (AskFails.fails hex)

theorem processWriteRespondEvent_fails (h : processWriteRespondEvent c s = .error f) :
    NoRoom s f := by
  unfold processWriteRespondEvent at h
  split at h
  · cases h
  · replace h := bind_ok_eq_error h
    unfold serviceWrite at h
    split at h
    · replace h := bind_ok_eq_error h
      unfold placeWrite at h
      split at h
      · cases h
      · split at h
        · replace h := bind_ok_eq_error h
          unfold writeBackDirty at h
          split at h
          · replace h := bind_ok_eq_error h
            have hno := NoRoom.of_allocateWriteBuffer h
            exact hno
          · cases h
        · have hno := NoRoom.of_allocateWriteBuffer h
          exact hno
    · cases h

/-! ## The memory side -/

theorem sendDeferredPacket_error {accepted : Bool}
    (h : sendDeferredPacket c up s accepted = .error f) : isOther f := by
  unfold sendDeferredPacket at h
  split at h
  · cases h
  · split at h
    · cases h
      rfl
    · split at h
      · rcases bind_eq_error h with h | ⟨_, -, h⟩
        · rcases bind_eq_error h with h | ⟨q, hq, h⟩
          · rw [MSHRQueue.markInService_error h]
            rfl
          · have hfull := markInService_eq hq
            rw [if_neg (by simp [hfull])] at h
            cases h
        · rw [State.schedSendEvent_error h]
          rfl
      · cases h

theorem FailsIn.of_releaseTargets {pam : Bool} (hqueue : p.queue = .mshrs)
    (hpath : Micros c e s₀ (.start, s₀) (.answering p w pam, s))
    (h : releaseTargets c e.upstream s p.mshr = .error f) : FailsIn c e s₀ f := by
  unfold releaseTargets at h
  split at h
  · rename_i hm
    replace h := bind_ok_eq_error h
    rcases clearBlocked_error s₀ h with hf | ⟨hport, hex⟩
    · exact .other hf
    · exact ⟨.released p w pam, _, hpath.tail (.release p w pam hqueue hm hport), hex.fails⟩
  · cases h

theorem fillOnResp_error (h : fillOnResp c s p = .error f) : NoRoom s f := by
  simp only [fillOnResp] at h
  split at h
  · exact NoRoom.of_addToFillQueue h
  · cases h

theorem consumeTargets_fails (h : consumeTargets c s p = .error f) :
    Fails c e s₀ (.consuming p w false) s f := by
  simp only [consumeTargets] at h
  split at h
  · rename_i hqueue hcmd
    rw [hqueue] at h
    rcases bind_eq_error h with h | ⟨_, -, h⟩
    · obtain ⟨rfl, hnil⟩ := check_eq_error h
      exact .noTargets p w false hqueue (not_not.1 hnil)
    · rcases bind_eq_error h with h | ⟨_, -, h⟩
      · exact (fillOnResp_error h).fails
      · replace h := bind_ok_eq_error h
        obtain ⟨rfl, haddr⟩ := check_eq_error h
        push Not at haddr
        obtain ⟨t, ht, hne⟩ := haddr
        exact .targetAddr p w t hqueue ht hne
  · rename_i hqueue hcmd
    rw [hqueue] at h
    replace h := bind_ok_eq_error h
    obtain ⟨rfl, hlen⟩ := check_eq_error h
    exact .writeTargets p w hqueue hlen
  · rename_i hread hwrite
    cases h
    exact .unknown p w (fun hq hc => hread hq hc) fun hq hc => hwrite hq hc

theorem recvSerialResp_fails
    (hpath : Micros c e s₀ (.start, s₀) (.answering p (s.queue p.queue).isFull false, s))
    (h : recvSerialResp c e.upstream s p = .error f) : FailsIn c e s₀ f := by
  rcases bind_eq_error h with h | ⟨s₁, hrel, h⟩
  · unfold releaseMiss at h
    split at h
    · rename_i hqueue
      exact .of_releaseTargets hqueue hpath h
    · cases h
  · have hpath := hpath.trans (releaseMiss_micros hrel)
    rcases bind_eq_error h with h | ⟨s₂, hcons, h⟩
    · exact ⟨_, s₁, hpath, consumeTargets_fails h⟩
    · exact .of_deallocate h fun s₃ hfree =>
        hpath.tail (consumeTargets_micro hcons hfree)

theorem finishPamMiss_fails {pr : PamReq} (hqueue : p.queue = .mshrs)
    (hans : e.Answers s₀ p) (hpr : s₀.pamQueue p.addr = some pr)
    (hpath : p.mshr = pr.mshr → Micros c e s₀ (.start, s₀)
      (.answering p s.mshrQueue.isFull true, s))
    (h : finishPamMiss c e.upstream s p pr = .error f) : FailsIn c e s₀ f := by
  rcases bind_eq_error h with h | ⟨_, hmshr, h⟩
  · obtain ⟨rfl, hne⟩ := check_eq_error h
    exact Fails.failsIn (.pamMshr p pr hans hqueue hpr hne)
  · have hpath := hpath (check_eq_ok hmshr)
    rcases bind_eq_error h with h | ⟨s₁, hrel, h⟩
    · exact .of_releaseTargets hqueue hpath h
    · have hpath := hpath.trans (releaseTargets_micros hqueue hrel)
      rcases bind_eq_error h with h | ⟨_, hne, h⟩
      · obtain ⟨rfl, hnil⟩ := check_eq_error h
        exact ⟨_, s₁, hpath, .noTargets p _ true hqueue (not_not.1 hnil)⟩
      · obtain ⟨first, rest, htargets⟩ :=
          List.exists_cons_of_ne_nil (check_eq_ok hne)
        rw [copyAndRespondAll_eq, htargets, List.tail_cons] at h
        rcases bind_eq_error h with h | ⟨s₂, hdealloc, h⟩
        · exact .of_deallocate (φ := .filling p) h fun s₃ hfree =>
            hpath.tail (.pamAnswered p _ first rest hqueue htargets hfree)
        · obtain ⟨s₃, hfree, hend⟩ := deallocate_micros s₀ (φ := .filling p) trivial hdealloc
          have hpath : Micros c e s₀ (.start, s₀) (.filling p, s₃) := hpath.tail
            (.pamAnswered p _ first rest hqueue htargets hfree)
          exact ⟨.filling p, s₂, hpath.trans hend, (NoRoom.of_addToFillQueue h).fails⟩

theorem recvTimingResp_fails {i : ℕ} (he : e = .recvTimingResp i up) (hp : s.mem[i]? = some p)
    (h : recvTimingResp c e.upstream { s with mem := s.mem.eraseIdx i } p = .error f) :
    FailsIn c e s f := by
  have hans : e.Answers s p := ⟨i, up, he, hp⟩
  unfold recvTimingResp at h
  split at h
  · rename_i pr hqueue hpr
    unfold recvPamResp at h
    simp only at h
    split at h
    · rename_i hhit
      split at h
      · rename_i htargets
        cases h
        exact Fails.failsIn (.pamEarly p pr hans hqueue hpr hhit htargets)
      · cases h
    · cases h
    · rename_i hhit
      replace h := bind_ok_eq_error h
      exact finishPamMiss_fails hqueue hans hpr (fun hmshr =>
        (Micro.pamAnswer i up p pr he hp hqueue hpr hhit hmshr).path) h
  · rename_i hother
    refine recvSerialResp_fails (Micro.serialAnswer i up p he hp fun hqueue => ?_).path h
    cases hpr : s.pamQueue p.addr with
    | none => rfl
    | some pr => exact absurd hpr (hother pr hqueue)

/-- A step that fails gets to a state in which its assertion fails. -/
theorem step_fails (h : step c s e = .error f) : FailsIn c e s f := by
  cases e with
  | recvTimingReq r =>
    have hex : AskFails c (.recvTimingReq r) s s f :=
      ⟨r, ⟨s, .inl ⟨rfl, rfl⟩, id, rfl⟩, recvTimingReq_error h⟩
    exact hex.fails.failsIn
  | processNextReqEvent busy choice up => exact processNextReqEvent_fails h
  | processRespondEvent up => exact processRespondEvent_fails ⟨up, rfl⟩ h
  | processWriteRespondEvent =>
    exact Fails.failsIn (processWriteRespondEvent_fails h).fails
  | processSendEvent accepted up =>
    simp only [step, processSendEvent] at h
    split at h
    · cases h
    · split at h
      · rcases bind_eq_error h with h | ⟨_, -, h⟩
        · rw [(check_eq_error h).1]
          exact .other rfl
        · exact .other (sendDeferredPacket_error h)
      · cases h
  | recvReqRetry accepted up =>
    simp only [step, recvReqRetry] at h
    split at h
    · exact .other (sendDeferredPacket_error h)
    · cases h
  | recvTimingResp i up =>
    simp only [step] at h
    split at h
    · cases h
    · rename_i p hp
      exact recvTimingResp_fails rfl hp h
  | advance t =>
    simp only [step] at h
    split at h <;> cases h
  | setGpuRunning running => cases h
  | drain => cases h
  | drainResume => cases h

/-- The rule for assertions that never fail: an invariant of the phases excludes
every state in which the assertion could. -/
theorem step_ne_error {I : Phase → State → Prop} (hs : I .start s)
    (hmicro : ∀ φ s₁ φ' s₂, I φ s₁ → Micro c e s φ s₁ φ' s₂ → I φ' s₂)
    (hfails : ∀ φ s₁, I φ s₁ → ¬ Fails c e s φ s₁ f) : step c s e ≠ .error f := by
  intro h
  obtain ⟨φ, s₁, hpath, hfail⟩ := step_fails h
  exact hfails φ s₁ (hpath.invariant hs hmicro) hfail

end Gem5Gpu.DRAMCache
