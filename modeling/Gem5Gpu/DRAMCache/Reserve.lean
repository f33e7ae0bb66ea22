import Gem5Gpu.DRAMCache.Bursts
import Gem5Gpu.DRAMCache.Faults

/-!
# The reserve of the misses

A read that was accepted may need a register later, when its lookup misses.  The
queue of the misses keeps a reserve for that: it counts as full, and the
controller refuses requests, when there are still free registers.

`mshr_reserve_suffices` says that the reserve is large enough.  What counts is
the number of different reads in the queues, which is less than `readBufferSize`
even when only one burst of each is left.  Three facts carry the proof:

* `Counted`, of the bursts: with its last burst, a read leaves the queues.
* `Sized`: the queues have the sizes that they were built with, and a full queue
  has its bit set, so a request that is accepted meets queues with room.
* `Phase.Room`: the allocated registers and the queued reads together are not
  more than there are registers.
-/

namespace Gem5Gpu.DRAMCache

open Mem Lib

variable {c : Config} {e : Event} {up : Upstream} {s s' s₀ s₁ : State} {r : TimingReq}
  {φ φ' : Phase} {m : ℕ} {w : Bool} {p : MemPacket} {pkt : Packet}

/-! ## Full queues are blocked -/

/-- The entries that a queue is asked for, and those that it keeps in reserve. -/
def Config.sizes (c : Config) : MSHRQueueIndex → ℕ × ℕ
  | .mshrs => (c.mshrs, c.readBufferSize)
  | .writeBuffer => (c.writeBuffers, c.writeBufferSize + 500)

/-- A queue has the size that it was built with, and its bit is set when it is full. -/
def Sized (c : Config) (index : MSHRQueueIndex) (blocked : Finset BlockedCause)
    (q : (MSHRQueueIndex × ℕ × ℕ) × Bool) : Prop :=
  q.1 = (index, (c.sizes index).1 + (c.sizes index).2 - 1, (c.sizes index).2) ∧
    (1 ≤ (c.sizes index).1 → q.2 = true → .ofIndex index ∈ blocked)

def State.Sized (c : Config) (s : State) : Prop :=
  ∀ index, DRAMCache.Sized c index s.blocked (s.each (fun q => (q.shape, q.isFull)) index)

namespace State.Sized

variable {q : MSHRQueue} {blk t o : ℕ} {pkt : Packet} {blocked : Finset BlockedCause}

/-- One of the queues changes. -/
theorem set (h : s.Sized c) {index : MSHRQueueIndex} (hshape : q.shape = (s.queue index).shape)
    (hsub : ∀ i, i ≠ index → .ofIndex i ∈ s.blocked → .ofIndex i ∈ blocked)
    (hbit : (1 ≤ (c.sizes index).1 → (s.queue index).isFull → .ofIndex index ∈ s.blocked) →
      1 ≤ (c.sizes index).1 → q.isFull → .ofIndex index ∈ blocked) (i : MSHRQueueIndex) :
    DRAMCache.Sized c i blocked
      ((s.setQueue index q).each (fun q => (q.shape, q.isFull)) i) := by
  refine State.forall_setQueue (P := fun i => DRAMCache.Sized c i blocked) ?_ ?_ i
  · have h := h index
    exact ⟨hshape.trans (by cases index <;> exact h.1), hbit (by cases index <;> exact h.2)⟩
  · exact fun i hi => ⟨(h i).1, fun hm hf => hsub i hi ((h i).2 hm hf)⟩

/-- More bits do not matter. -/
theorem mono (h : s.Sized c) (hsub : s.blocked ⊆ blocked) (i : MSHRQueueIndex) :
    DRAMCache.Sized c i blocked (s.each (fun q => (q.shape, q.isFull)) i) :=
  ⟨(h i).1, fun hm hf => hsub ((h i).2 hm hf)⟩

/-- A register of a queue is taken. -/
theorem takes (h : s.Sized c) (index : MSHRQueueIndex)
    (hq : (s.queue index).Takes blk pkt t o m q) (i : MSHRQueueIndex) :
    DRAMCache.Sized c i (s.blockedAfter (.ofIndex index) q.isFull)
      ((s.setQueue index q).each (fun q => (q.shape, q.isFull)) i) :=
  h.set hq.shape_eq (fun _ hi => (s.mem_blockedAfter_of_ne (State.ofIndex_ne hi) _).2)
    (fun _ _ hf => by simp [State.blockedAfter, hf]) i

/-- A register of a queue is sent. -/
theorem sends (h : s.Sized c) (index : MSHRQueueIndex) (hq : (s.queue index).Sends m q)
    (i : MSHRQueueIndex) : DRAMCache.Sized c i s.blocked
      ((s.setQueue index q).each (fun q => (q.shape, q.isFull)) i) :=
  h.set hq.shape_eq (fun _ _ => id) (fun hbit hm hf => hbit hm (hq.isFull_eq ▸ hf)) i

/-- The registers that are taken while requests are accepted. -/
theorem le_of_open (h : s.Sized c) (index : MSHRQueueIndex) (hm : 1 ≤ (c.sizes index).1)
    (hopen : s.blocked = ∅) : (s.queue index).allocated + 1 ≤ (c.sizes index).1 := by
  have h : DRAMCache.Sized c index s.blocked ((s.queue index).shape, (s.queue index).isFull) := by
    cases index <;> exact h _
  have hroom : (s.queue index).isFull ≠ true := fun hf => by
    simpa [hopen] using h.2 hm hf
  have hshape := h.1
  simp only [MSHRQueue.shape, Prod.mk.injEq] at hshape
  rw [ne_eq, MSHRFile.isFull_iff] at hroom
  omega

theorem miss_le_of_open (h : s.Sized c) (hm : 1 ≤ c.mshrs) (hopen : s.blocked = ∅) :
    s.mshrQueue.allocated + 1 ≤ c.mshrs :=
  h.le_of_open .mshrs hm hopen

end State.Sized

theorem Recv.sized (h : Recv c s r s') (hs : s.Sized c) : s'.Sized c := by
  cases h with
  | coalescedLast => exact hs.mono (Finset.subset_insert _ _)
  | bypassTagRead m q _ _ _ hq | bypassed m q _ _ _ _ hq | readPam m q _ _ _ _ _ hq =>
    exact hs.takes .mshrs hq
  | bypassTagWrite m q _ _ _ hq => exact hs.takes .writeBuffer hq
  | _ => exact hs

theorem Fills.sized {addr ctx : ℕ} (h : Fills c s addr ctx s') (hs : s.Sized c) : s'.Sized c := by
  cases h with
  | dirty m q _ _ _ _ _ hq => exact hs.takes .writeBuffer hq
  | _ => exact hs

theorem Freed.sized {index : MSHRQueueIndex} (h : Freed s index m w s')
    (hs : s.Sized c) : s'.Sized c := by
  cases h with
  | keeps q hq =>
    have hs := hs.set hq.shape_eq (fun _ _ => id) fun hbit hm hf => hbit hm (hq.isFull_of hf)
    cases index <;> exact hs
  | opens q hq _ hroom =>
    have hs := hs.set hq.shape_eq
      (fun i hi hb => Finset.mem_erase.2 ⟨State.ofIndex_ne hi, hb⟩)
      fun _ _ hf => absurd (hroom.symm.trans hf) Bool.false_ne_true
    cases index <;> exact hs

theorem Micro.sized (h : Micro c e s₀ φ s φ' s') (hs : s.Sized c) :
    s'.Sized c := by
  cases h with
  | request r _ h | pamDoneHit _ _ _ _ _ _ _ _ h | pamHit _ _ _ _ _ _ _ _ h
  | writeAnswered _ _ _ _ _ h | pamAnswered _ _ _ _ _ _ h | filled _ h => exact h.sized hs
  | retryWrite _ h | retryRead _ h | retryCache _ _ _ h =>
    exact h.keeps hs fun _ _ _ h => h.sized hs
  | sendNothing h | sendRefused _ _ h => cases h <;> exact hs
  | serialCoalescedLast => exact hs.mono (Finset.subset_insert _ _)
  | serialMiss _ _ _ _ _ _ _ hq => exact hs.takes .mshrs hq
  | pamDoneMiss _ _ _ _ _ _ _ _ hfill hfree => exact hfree.sized (hfill.sized hs)
  | readAnswered _ _ _ _ _ _ hfill hfree =>
    exact hfree.sized (hfill.keeps hs fun h => h.sized hs)
  | writeMiss _ _ _ _ _ _ _ _ hq | writeAllocDirty _ _ _ _ _ _ _ _ _ hq =>
    exact hs.takes .writeBuffer hq
  | sentMiss _ _ _ _ hw _ _ hq =>
    obtain ⟨_, _, rfl⟩ := hw.frame
    exact hs.sends .mshrs hq
  | sentWrite _ _ _ _ hw _ _ hq =>
    obtain ⟨_, _, rfl⟩ := hw.frame
    exact hs.sends .writeBuffer hq
  | release =>
    exact fun i => ⟨(hs i).1, fun hm hf =>
      Finset.mem_erase.2 ⟨State.ofIndex_ne_noTargets, (hs i).2 hm hf⟩⟩
  | _ => exact hs

theorem State.init_sized (c : Config) (store : ℕ → Data) : (State.init c store).Sized c := by
  intro index
  cases index <;> refine ⟨rfl, ?_⟩ <;>
    simp only [Config.sizes, State.each, State.init, MSHRQueue.init, MSHRFile.isFull_iff] <;> omega

/-! ## The registers for misses -/

/-- The misses and the reads that may become misses have registers, and there
are fewer reads than bursts fit into the read queue. -/
def Phase.Room (c : Config) (φ : Phase) (s : State) : Prop :=
  s.mshrQueue.allocated + distinct (φ.readIds s) ≤ c.mshrs + c.readBufferSize - 1 ∧
    distinct (φ.readIds s) + 1 ≤ c.readBufferSize

theorem Phase.distinct_readIds_le (φ : Phase) (s : State) :
    distinct (φ.readIds s) ≤ s.respQueue.length + s.readQueue.length := by
  refine (distinct_le_length _).trans ?_
  simp only [Phase.readIds, burstIds, List.length_map, List.length_append, List.length_drop]
  omega

/-- A read enters the queues. -/
theorem Queues.distinct_push (hq : Queues c s r) (φ : Phase) :
    distinct (burstIds (s.respQueue.drop φ.lookedUp ++ (s.readQueue ++
      (missingBursts c s r.addr).map fun b => ⟨s.newPacket r, b⟩))) + 1 ≤
      c.readBufferSize := by
  rw [burstIds_push, burstIds_map]
  have hpush := distinct_append_replicate_le (burstIds (s.respQueue.drop φ.lookedUp ++ s.readQueue))
    (missingBursts c s r.addr).length (s.newPacket r).id
  have hle := φ.distinct_readIds_le s
  have hroom := hq.hasRoom
  simp only [Phase.readIds] at hle
  omega

theorem Recv.room (h : Recv c s r s') (hm : 1 ≤ c.mshrs) (hsize : s.Sized c)
    (hs : φ.Room c s) : φ.Room c s' := by
  cases h with
  | bypassTagRead m q hmiss _ _ hq | bypassed m q _ hmiss _ _ hq =>
    have hle := hsize.miss_le_of_open hm hmiss.isOpen
    refine ⟨?_, hs.2⟩
    have hs := hs.2
    simp only [hq.allocated_eq]
    simp only [Phase.readIds] at hs ⊢
    omega
  | readQueued hq =>
    have hle := hsize.miss_le_of_open hm hq.isOpen
    have hpush := hq.distinct_push φ
    refine ⟨?_, hpush⟩
    simp only [Phase.readIds]
    omega
  | readPam m q hq _ _ _ _ hm' =>
    have hle := hsize.miss_le_of_open hm hq.isOpen
    have hpush := hq.distinct_push φ
    refine ⟨?_, hpush⟩
    simp only [Phase.readIds, hm'.allocated_eq]
    omega
  | _ => exact hs

theorem Fills.room {addr ctx : ℕ} (h : Fills c s addr ctx s') (hs : φ.Room c s) : φ.Room c s' := by
  cases h <;> exact hs

theorem Freed.room {index : MSHRQueueIndex} (h : Freed s index m w s')
    (hs : φ.Room c s) : φ.Room c s' := by
  have hfrees : ∀ q, (s.queue index).Frees m q → φ.Room c (s.setQueue index q) := by
    intro q hq
    cases index with
    | mshrs =>
      have halloc : q.allocated + 1 = s.mshrQueue.allocated := hq.allocated_eq
      refine ⟨?_, hs.2⟩
      have hs := hs.1
      simp only [Phase.readIds, State.setQueue] at hs ⊢
      omega
    | writeBuffer => exact hs
  cases h with
  | keeps q hq | opens q hq => exact hfrees q hq

section

variable (h : LastBurst e s pkt) (hcount : Phase.start.Counted s)
include h hcount

/-- With its last burst, a read leaves the queues. -/
theorem LastBurst.distinct_eq :
    distinct (Phase.start.readIds s) =
      distinct (burstIds (s.respQueue.drop 1 ++ s.readQueue)) + 1 := by
  have hbal : Balanced 2 s.burstsServiced s.readIds := hcount.readBursts
  rw [h.readIds_eq] at hbal
  change distinct s.readIds = _
  rw [h.readIds_eq, distinct_cons_of_notMem (hbal.notMem_of_last h.last)]

/-- A read that has been looked up may take a register. -/
theorem LastBurst.room (hs : Phase.start.Room c s) :
    s.mshrQueue.allocated + 1 + distinct (burstIds (s.respQueue.drop 1 ++ s.readQueue)) ≤
        c.mshrs + c.readBufferSize - 1 ∧
      distinct (burstIds (s.respQueue.drop 1 ++ s.readQueue)) + 1 ≤
        c.readBufferSize := by
  have heq := h.distinct_eq hcount
  obtain ⟨hle, hlt⟩ := hs
  omega

theorem LastBurst.room_of_allocated (hs : Phase.start.Room c s) :
    s.mshrQueue.allocated + distinct (burstIds (s.respQueue.drop 1 ++ s.readQueue)) ≤
        c.mshrs + c.readBufferSize - 1 ∧
      distinct (burstIds (s.respQueue.drop 1 ++ s.readQueue)) + 1 ≤
        c.readBufferSize := by
  obtain ⟨hle, hlt⟩ := h.room hcount hs
  exact ⟨by omega, hlt⟩

end

theorem Micro.room (h : Micro c e s₀ φ s φ' s') (hm : 1 ≤ c.mshrs)
    (hcount : φ.Counted s) (hsize : s.Sized c) (hs : φ.Room c s) :
    φ'.Room c s' := by
  cases h with
  | request r _ h => exact h.room (φ := .start) hm hsize hs
  | retryWrite _ h | retryRead _ h =>
    exact h.keeps (P := Phase.done.Room c) hs fun _ _ _ h => h.room hm hsize hs
  | retryCache _ _ _ h => exact h.keeps (P := φ.Room c) hs fun _ _ _ h => h.room hm hsize hs
  | serveRead b w d i p hp =>
    have hperm := distinct_eq_of_perm (burstIds_serve_perm s.respQueue hp)
    unfold Phase.Room at hs ⊢
    simp only [Phase.readIds, Phase.lookedUp, List.drop_zero, hperm] at hs ⊢
    exact hs
  | burst p rest d hq =>
    have hids : s.readIds = p.pkt.id :: burstIds (rest ++ s.readQueue) := by
      simp [State.readIds, burstIds, hq]
    have hle := distinct_le_cons p.pkt.id (burstIds (rest ++ s.readQueue))
    rw [← hids] at hle
    obtain ⟨h₁, h₂⟩ := hs
    change _ + distinct s.readIds ≤ _ at h₁
    change distinct s.readIds + 1 ≤ _ at h₂
    exact ⟨(Nat.add_le_add_left hle _).trans h₁, by
      change distinct (burstIds (rest ++ s.readQueue)) + 1 ≤ _; omega⟩
  | serialHit pkt hlast | serialCoalesced pkt m hlast | serialCoalescedLast pkt m hlast
  | pamMiss pkt pr hlast => exact hlast.room_of_allocated hcount hs
  | serialMiss pkt m q hlast _ _ _ hq =>
    have hroom := hlast.room hcount hs
    rw [← hq.allocated_eq] at hroom
    exact hroom
  | pamDoneHit pkt pr _ _ hlast _ _ _ hfree =>
    exact hfree.room (φ := .finished pkt) (hlast.room_of_allocated hcount hs)
  | pamDoneMiss pkt pr _ _ hlast _ _ _ hfill hfree =>
    exact hfree.room (φ := .finished pkt) (hfill.room (φ := .finished pkt)
      (hlast.room_of_allocated hcount hs))
  | pamHit pkt pr _ _ hlast _ _ _ hfree =>
    split
    · exact hfree.room (φ := .finished pkt) (hlast.room_of_allocated hcount hs)
    · exact hfree.room (φ := .forgetting pkt) (hlast.room_of_allocated hcount hs)
  | pop pkt d =>
    unfold Phase.Room at hs ⊢
    simp only [Phase.readIds, Phase.lookedUp, List.drop_one, List.drop_zero] at hs ⊢
    exact hs
  | sendNothing hw | sendRefused _ _ hw | sentWrite _ _ _ _ hw => cases hw <;> exact hs
  | sentMiss _ _ _ _ hw _ _ hq =>
    obtain ⟨_, _, rfl⟩ := hw.frame
    unfold Phase.Room at hs ⊢
    rw [hq.allocated_eq]
    exact hs
  | readAnswered p _ _ _ _ _ hfill hfree =>
    exact hfree.room (φ := .done) (hfill.keeps hs fun h => h.room (φ := .done) hs)
  | writeAnswered p _ _ _ _ hfree | pamAnswered p _ _ _ _ _ hfree | filled p hfree =>
    exact hfree.room (φ := .done) hs
  | _ => exact hs

/-- What holds at every point of a run about the bursts, the sizes of the queues
and the registers for misses. -/
structure Reserved (c : Config) (φ : Phase) (s : State) : Prop where
  counted : φ.Counted s
  sized : s.Sized c
  room : φ.Room c s

theorem Micro.reserved (h : Micro c e s₀ φ s φ' s') (hm : 1 ≤ c.mshrs)
    (hs : Reserved c φ s) : Reserved c φ' s' where
  counted := h.counted hs.counted
  sized := h.sized hs.sized
  room := h.room hm hs.counted hs.sized hs.room

theorem Reaches.reserved {ok : State → Event → Prop} (h : Reaches c ok s)
    (hm : 1 ≤ c.mshrs) (hr : 1 ≤ c.readBufferSize) : Reserved c .start s := by
  refine h.invariant (I := Reserved c) ?_ ?_ ?_
  · intro store
    refine ⟨State.init_counted c store, State.init_sized c store, ?_, hr⟩
    change 0 ≤ _
    exact Nat.zero_le _
  · exact fun s hs => ⟨hs.counted, hs.sized, hs.room⟩
  · exact fun e s₀ _ φ s φ' s' hs hmicro => hmicro.reserved hm hs

/-- The reads that are queued fit into the free registers, in every state of
every run, and no event ever finds the free list of the misses empty. -/
theorem mshr_reserve_suffices (hm : 1 ≤ c.mshrs) (hr : 2 ≤ c.readBufferSize)
    (h : Reaches c (fun _ _ => True) s) :
    s.mshrQueue.allocated + distinct s.readIds ≤ c.mshrs + c.readBufferSize - 1 ∧
      ∀ e, step c s e ≠ .error (.freeListEmpty .mshrs) := by
  have hs := h.reserved hm (by omega)
  refine ⟨hs.room.1, fun e => ?_⟩
  refine step_ne_error hs (fun _ _ _ _ hs hmicro => hmicro.reserved hm hs) ?_
  intro φ s₁ hs hfails
  have hshape := (hs.sized .mshrs).1
  simp only [State.each, Config.sizes, MSHRQueue.shape, Prod.mk.injEq] at hshape
  have hlen := s₁.mshrQueue.wf.length_add
  generalize hf : Fault.freeListEmpty .mshrs = f at hfails
  cases hfails with
  | request hopen hfree =>
    -- a request is only accepted while the queue is not full
    have hle := hs.sized.miss_le_of_open hm hopen
    rw [hfree, List.length_nil] at hlen
    omega
  | miss pkt hlast hfree =>
    -- the read that misses has been counted
    have hle := (hlast.room hs.counted hs.room).1
    rw [hfree, List.length_nil] at hlen
    omega
  | write hfree =>
    have hindex := (hs.sized .writeBuffer).1
    simp only [State.each, MSHRQueue.shape, Prod.mk.injEq] at hindex
    rw [hindex.1] at hf
    cases hf
  | other hother =>
    rw [← hf] at hother
    cases hother
  | _ => cases hf

namespace Scenario

/-- A read that misses and a read that asks the memory early are under way. -/
def twoReads : List Event :=
  .recvTimingReq (gpuRead 1) :: lookup ++ [.recvTimingReq (cpuRead 2 false)]

end Scenario

open Scenario in
theorem twoReads_fit :
    let s := State.ofRun config blank twoReads
    1 ≤ config.mshrs ∧ 2 ≤ config.readBufferSize ∧ s.mshrQueue.allocated + distinct s.readIds ≤
        config.mshrs + config.readBufferSize - 1 ∧
      ∀ e, step config s e ≠ .error (.freeListEmpty .mshrs) :=
  ⟨by decide, by decide, mshr_reserve_suffices (by decide) (by decide)
    (reaches_ofRun (meets_true _) (by decide +kernel))⟩

end Gem5Gpu.DRAMCache
