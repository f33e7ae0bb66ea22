import Gem5Gpu.DRAMCache.SmallStep

/-!
# The blocking flags and the queues

The controller refuses requests while `blocked` is not zero.  Two of its bits
stand for a full queue: they are set by the allocation that fills the queue, and
cleared by the deallocation that makes room again.  The deallocation compares
with a snapshot, `wasFull`, that the handler took when it began.

* `blocked_mirrors_queues` says when the two agree: a bit is set exactly while
  its queue is full, and the port is blocked exactly while a bit is set.
* The snapshot is the weak point.  `recvTimingResp` takes it before it releases
  the miss that ran out of targets.  The retry that follows can fill the queue
  before the deallocation, and the bit that was set then is never cleared.
  `bit_outlives_full_queue` is such a run.  `ReleaseKeepsRoom` excludes it: the
  reaction to that retry takes no register, or one of at least two that are left.
-/

namespace Gem5Gpu.DRAMCache

open Mem Lib

variable {c : Config} {e : Event} {up : Upstream} {s s' s₀ : State}
  {r : TimingReq} {φ φ' : Phase} {m : ℕ} {w : Bool} {p : MemPacket}

/-- The bits of `blocked` and the flag of the port, against the queues. -/
structure Mirrors (full : MSHRQueueIndex → Bool) (blocked : Finset BlockedCause)
    (portBlocked : Bool) : Prop where
  bit : ∀ index, .ofIndex index ∈ blocked ↔ full index = true
  port : portBlocked = true ↔ blocked ≠ ∅

/-- The blocking flags of a state mirror its queues. -/
def State.Mirrored (s : State) : Prop :=
  Mirrors (s.each (·.isFull)) s.blocked s.portBlocked

/-! ## Setting and clearing the bits -/

section Bits

variable {full : MSHRQueueIndex → Bool} {pb : Bool} {b : Finset BlockedCause}

theorem portBlockedAfter_iff (hport : s.portBlocked ↔ s.blocked ≠ ∅)
    (cause : BlockedCause) (full : Bool) :
    s.portBlockedAfter full ↔ s.blockedAfter cause full ≠ ∅ := by
  cases full with
  | false => simpa [State.portBlockedAfter, State.blockedAfter] using hport
  | true =>
    by_cases hb : s.blocked = ∅
    · simp [State.portBlockedAfter, State.blockedAfter, hb]
    · simpa [State.portBlockedAfter, State.blockedAfter, hb] using hport.2 hb

/-- The bit of a queue after an allocation. -/
theorem mem_blockedAfter {cause : BlockedCause} {full full' : Bool}
    (h : cause ∈ s.blocked ↔ full) (hmono : full → full') :
    cause ∈ s.blockedAfter cause full' ↔ full' := by
  cases full' with
  | true => simp [State.blockedAfter]
  | false =>
    simp only [State.blockedAfter, Bool.false_eq_true, if_false, iff_false]
    intro hmem
    exact absurd (hmono (h.1 hmem)) Bool.false_ne_true

/-- The port opens with the last cause. -/
theorem Mirrors.port_erase (h : Mirrors full b pb) (cause : BlockedCause) :
    (if b.erase cause = ∅ then false else pb) ↔ b.erase cause ≠ ∅ := by
  by_cases hb : b.erase cause = ∅
  · simp [hb]
  · have hne : b ≠ ∅ := by
      rintro rfl
      exact hb (Finset.erase_empty _)
    simpa [hb] using h.port.2 hne

theorem Mirrors.clearTargets (h : Mirrors full b pb) : Mirrors full (b.erase .noTargets)
      (if b.erase .noTargets = ∅ then false else pb) where
  bit := by simpa using h.bit
  port := h.port_erase _

namespace State.Mirrored

variable (h : s.Mirrored) (index : MSHRQueueIndex) {q : MSHRQueue}
include h

/-- A queue that is as full as before. -/
theorem set (heq : q.isFull = s.each (·.isFull) index) :
    Mirrors ((s.setQueue index q).each (·.isFull)) s.blocked s.portBlocked where
  bit := State.forall_setQueue (P := fun i full => .ofIndex i ∈ s.blocked ↔ full = true)
    (heq ▸ h.bit index) fun i _ => h.bit i
  port := h.port

/-- A register of a queue is taken. -/
theorem takes (hmono : s.each (·.isFull) index = true → q.isFull = true) :
    Mirrors ((s.setQueue index q).each (·.isFull))
      (s.blockedAfter (.ofIndex index) q.isFull) (s.portBlockedAfter q.isFull) where
  bit := State.forall_setQueue
    (P := fun i full => .ofIndex i ∈ s.blockedAfter (.ofIndex index) q.isFull ↔ full = true)
    (mem_blockedAfter (h.bit index) hmono)
    fun i hi => (s.mem_blockedAfter_of_ne (State.ofIndex_ne hi) _).trans (h.bit i)
  port := portBlockedAfter_iff h.port _ _

/-- A queue has room again. -/
theorem opens (hfull : q.isFull = false) :
    Mirrors ((s.setQueue index q).each (·.isFull)) (s.blocked.erase (.ofIndex index))
      (if s.blocked.erase (.ofIndex index) = ∅ then false else s.portBlocked) where
  bit := State.forall_setQueue
    (P := fun i full => .ofIndex i ∈ s.blocked.erase (.ofIndex index) ↔ full = true)
    (by simp [hfull]) fun i hi => by simpa [State.ofIndex_ne hi] using h.bit i
  port := h.port_erase _

omit index in
/-- A register has got its last target. -/
theorem blockTargets : Mirrors (s.each (·.isFull))
      (insert .noTargets s.blocked) (s.portBlockedAfter true) where
  bit := by simpa using h.bit
  port := portBlockedAfter_iff h.port .noTargets true

end State.Mirrored

end Bits

/-! ## The pieces of the handlers -/

theorem Recv.mirrored (h : Recv c s r s') (hs : s.Mirrored) : s'.Mirrored := by
  cases h with
  | coalescedLast => exact hs.blockTargets
  | bypassTagRead m q _ _ _ hq | bypassed m q _ _ _ _ hq | readPam m q _ _ _ _ _ hq =>
    exact hs.takes .mshrs hq.isFull_of
  | bypassTagWrite m q _ _ _ hq => exact hs.takes .writeBuffer hq.isFull_of
  | _ => exact hs

theorem Fills.mirrored {addr ctx : ℕ} (h : Fills c s addr ctx s')
    (hs : s.Mirrored) : s'.Mirrored := by
  cases h with
  | dirty m q _ _ _ _ _ hq => exact hs.takes .writeBuffer hq.isFull_of
  | _ => exact hs

theorem FillsOnResp.isFull_eq (h : FillsOnResp c s p s') :
    s'.mshrQueue.isFull = s.mshrQueue.isFull :=
  h.keeps (P := fun s' => s'.mshrQueue.isFull = s.mshrQueue.isFull) rfl fun h => by
    rw [h.mshrQueue_eq]

/-- A register is freed by a handler whose snapshot is still right. -/
theorem Freed.mirrored {index : MSHRQueueIndex} (h : Freed s index m w s')
    (hw : w = (s.queue index).isFull) (hs : s.Mirrored) : s'.Mirrored := by
  cases h with
  | keeps q hq hfull =>
    have heq : q.isFull = (s.queue index).isFull := by
      cases w with
      | false => rw [← hw, hq.not_isFull_of hw.symm]
      | true => rw [← hw, hfull rfl]
    cases index <;> exact hs.set _ heq
  | opens q hq hwas hfull => cases index <;> exact hs.opens _ hfull

/-- The request takes a register of the misses: a read that hits in the bypass tag
store, bypasses the cache, or is sent to the memory before its lookup. -/
def TakesMiss (c : Config) (s : State) (r : TimingReq) : Prop :=
  Misses c s r ∧ r.cmd = .readReq ∧
    (c.bypassTagEnable = true ∧ s.tags.isHit c r.addr = true ∨ bypassesClean c s r = true ∨
      bypassesBloom c s r = true ∨
      startsPam s (s.newPacket r) (missingBursts c s r.addr).length r.predictHit = true)

/-- When an answer releases the miss that ran out of targets, the upstream port does not
react with a request that takes a register, or two registers are left. -/
def ReleaseKeepsRoom (c : Config) (s₀ : State) (e : Event) : Prop :=
  ∀ p, e.Answers s₀ p → p.queue = .mshrs → s₀.noTargetMSHR = some p.mshr →
    ∀ s r, e.upstream s = some r → TakesMiss c s r →
      s.mshrQueue.allocated + s.mshrQueue.numReserve < s.mshrQueue.numEntries

/-- The snapshot that a handler has taken is still right. -/
def Phase.Snapshot : Phase → State → Prop
  | .answering p w _, s => w = (s.queue p.queue).isFull
  | .released p w _, s => w = (s.queue p.queue).isFull
  | .consuming p w _, s => w = (s.queue p.queue).isFull
  | _, _ => True

theorem Micro.mirrored (h : Micro c e s₀ φ s φ' s')
    (hw : φ.Snapshot s) (hs : s.Mirrored) : s'.Mirrored := by
  cases h with
  | request r _ h | filled _ h => exact h.mirrored hs
  | retryWrite _ h | retryRead _ h | retryCache _ _ _ h =>
    exact h.keeps hs fun _ _ _ h => h.mirrored hs
  | sendNothing h | sendRefused _ _ h => cases h <;> exact hs
  | serialCoalescedLast => exact hs.blockTargets
  | serialMiss _ _ _ _ _ _ _ hq => exact hs.takes .mshrs hq.isFull_of
  | pamDoneHit _ _ _ _ _ _ _ _ hfree | pamHit _ _ _ _ _ _ _ _ hfree => exact hfree.mirrored rfl hs
  | pamDoneMiss _ _ _ _ _ _ _ _ hfill hfree =>
    refine hfree.mirrored ?_ (hfill.mirrored hs)
    exact congrArg (·.isFull) hfill.mshrQueue_eq.symm
  | writeMiss _ _ _ _ _ _ _ _ hq | writeAllocDirty _ _ _ _ _ _ _ _ _ hq =>
    exact hs.takes .writeBuffer hq.isFull_of
  | sentMiss _ _ _ _ hwake _ _ hq =>
    obtain ⟨_, _, rfl⟩ := hwake.frame
    exact hs.set .mshrs hq.isFull_eq
  | sentWrite _ _ _ _ hwake _ _ hq =>
    obtain ⟨_, _, rfl⟩ := hwake.frame
    exact hs.set .writeBuffer hq.isFull_eq
  | release => exact Mirrors.clearTargets hs
  | readAnswered p _ hqueue _ _ _ hfill hfree =>
    refine hfree.mirrored ?_ (hfill.keeps hs fun h => h.mirrored hs)
    simp only [Phase.Snapshot, hqueue] at hw
    exact hw.trans hfill.isFull_eq.symm
  | writeAnswered _ _ hqueue _ _ hfree | pamAnswered _ _ _ _ hqueue _ hfree =>
    simp only [Phase.Snapshot, hqueue] at hw
    exact hfree.mirrored hw hs
  | _ => exact hs

/-- A request leaves room for a miss, if it takes no register or one of two. -/
theorem Recv.keepsRoom (h : Recv c s r s') (hfull : s.mshrQueue.isFull = false)
    (hroom : TakesMiss c s r →
      s.mshrQueue.allocated + s.mshrQueue.numReserve < s.mshrQueue.numEntries) :
    s'.mshrQueue.isFull = false := by
  have htakes : ∀ {q : MSHRQueue} {blk t o m : ℕ} {pkt : Packet},
      s.mshrQueue.Takes blk pkt t o m q → TakesMiss c s r → q.isFull = false := by
    intro q blk t o m pkt hq ht
    have hshape := hq.shape_eq
    have halloc := hq.allocated_eq
    have hlt := hroom ht
    simp only [MSHRQueue.shape, Prod.mk.injEq] at hshape
    rw [← Bool.not_eq_true, MSHRFile.isFull_iff]
    omega
  cases h with
  | bypassTagRead m q hmiss htag hread hq => exact htakes hq ⟨hmiss, hread, .inl htag⟩
  | bypassed m q log hmiss hread hby hq =>
    refine htakes hq ⟨hmiss.toMisses, hread, .inr ?_⟩
    rcases hby with ⟨hclean, -⟩ | ⟨-, hbloom, -⟩
    · exact .inl hclean
    · exact .inr (.inl hbloom)
  | readPam m q hqueues hall hcpu hpam hpred hq =>
    refine htakes hq ⟨hqueues.toMisses, hqueues.isRead, .inr (.inr (.inr ?_))⟩
    simp [startsPam, State.newPacket, hall, hcpu, hpam, hpred, dramPktCount]
  | _ => exact hfull

theorem Micro.snapshot (h : Micro c e s₀ φ s φ' s') (hok : ReleaseKeepsRoom c s₀ e)
    (hs : s.Mirrored) (horigin : φ.Origin e s₀ s) (hw : φ.Snapshot s) : φ'.Snapshot s' := by
  cases h with
  | retryCache hph _ hopen h =>
    cases φ with
    | released p w pam =>
      -- the retry of `clearBlocked (Blocked_NoTargets)`: the snapshot is `false`,
      -- and stays right because the reaction keeps room
      obtain ⟨hans, hqueue, hm⟩ := horigin
      have hroom : s.mshrQueue.isFull = false := by
        have hbit := (hs.bit .mshrs).not.1
        rw [hopen] at hbit
        exact Bool.eq_false_of_not_eq_true (hbit (Finset.notMem_empty _))
      have hroom' : _ = false := h.keeps (P := fun s => s.mshrQueue.isFull = false) hroom
        fun r s₁ hup h => h.keepsRoom hroom (hok p hans hqueue hm _ r hup)
      simp only [Phase.Snapshot, hqueue] at hw ⊢
      exact (hw.trans hroom).trans hroom'.symm
    | answering | consuming => exact hph.elim
    | _ => trivial
  | pamHit => split <;> trivial
  | pamAnswer i up p pr he hp hqueue =>
    simp only [Phase.Snapshot, hqueue]
    rfl
  | serialAnswer i up p he hp =>
    simp only [Phase.Snapshot]
    cases p.queue <;> rfl
  | release p w pam hqueue hm =>
    simp only [Phase.Snapshot, hqueue] at hw ⊢
    exact hw
  | released p w pam =>
    simp only [Phase.Snapshot] at hw ⊢
    revert hw
    cases p.queue <;> exact id
  | keep p w pam => exact hw
  | _ => trivial

theorem State.init_mirrored (hm : 1 ≤ c.mshrs) (hw : 1 ≤ c.writeBuffers)
    (store : ℕ → Data) : (State.init c store).Mirrored where
  bit index := by
    cases index <;>
      simp [State.init, State.each, MSHRQueue.init, MSHRFile.isFull_iff] <;> omega
  port := by simp [State.init]

/-- At the end of every handler, in every run in which the reaction to the
release of a miss keeps room, the blocking flags mirror the queues. -/
theorem blocked_mirrors_queues (hm : 1 ≤ c.mshrs) (hw : 1 ≤ c.writeBuffers)
    (h : Reaches c (ReleaseKeepsRoom c) s) :
    (.noMSHRs ∈ s.blocked ↔ s.mshrQueue.isFull) ∧
      (.noWBuffers ∈ s.blocked ↔ s.writeBuffer.isFull) ∧
      (s.portBlocked ↔ s.blocked ≠ ∅) := by
  have hs : s.Mirrored := by
    refine h.invariant_of_handlers
      (J := fun e s₀ φ s => s.Mirrored ∧ φ.Origin e s₀ s ∧ φ.Snapshot s)
      ?_ ?_ ?_ ?_
    · exact State.init_mirrored hm hw
    · exact fun e s₀ _ hs => ⟨hs, trivial, trivial⟩
    · rintro e s₀ hok φ s φ' s' ⟨hs, horigin, hw⟩ hmicro
      exact ⟨hmicro.mirrored hw hs, hmicro.origin horigin, hmicro.snapshot hok hs horigin hw⟩
    · exact fun e s₀ s hs => hs.1
  exact ⟨hs.bit .mshrs, hs.bit .writeBuffer, hs.port⟩

namespace Scenario

/-- Two misses at a time, with two targets each. -/
def tight : Config := { config with mshrs := 2, numTarget := 2 }

/-- A miss runs out of targets, a request is refused, and the answer of the
memory releases the miss.  The upstream port reacts to that with `up`. -/
def release (up : Upstream) : List Event :=
  .recvTimingReq (gpuRead 1) :: lookup ++
    [.recvTimingReq (gpuRead 1), .recvTimingReq (cpuRead 2 false)] ++ send 1 ++
    [.recvTimingResp 0 up]

end Scenario

open Scenario in
/-- The upstream port does not react to the release. -/
theorem release_mirrors :
    let s := State.ofRun tight blank (release quiet)
    1 ≤ tight.mshrs ∧ 1 ≤ tight.writeBuffers ∧ (.noMSHRs ∈ s.blocked ↔ s.mshrQueue.isFull) ∧
      (.noWBuffers ∈ s.blocked ↔ s.writeBuffer.isFull) ∧
      (s.portBlocked ↔ s.blocked ≠ ∅) := by
  refine ⟨by decide, by decide, blocked_mirrors_queues (c := tight) (by decide)
    (by decide) (reaches_ofRun (Meets.of_forall ?_) (by decide +kernel))⟩
  intro e he s p _ _ _ s₁ r hup
  have hquiet : ∀ e ∈ release quiet, ∀ s, e.upstream s = none := by
    simp [release, lookup, send, Event.upstream, serveNext, quiet]
  rw [hquiet e he] at hup
  cases hup

open Scenario in
/-- The refused read is sent again in reaction to the release, and asks the
memory early.  It takes the second register while the first one is still
allocated, which sets the bit.  The first register is then freed with the old
snapshot, and the bit stays although the queue has room. -/
theorem bit_outlives_full_queue :
    let s := State.ofRun tight blank (release fun _ => some (cpuRead 2 false))
    Reaches tight (fun _ _ => True) s ∧ .noMSHRs ∈ s.blocked ∧ s.mshrQueue.isFull = false :=
  ⟨reaches_ofRun (meets_true _) (by decide +kernel), by decide +kernel, by decide +kernel⟩

end Gem5Gpu.DRAMCache
