import Gem5Gpu.Lib.Fallible
import Gem5Gpu.Lib.Table
import Gem5Gpu.Mem.Packet
import Mathlib.Data.List.TakeWhile

/-!
# The queue of miss status holding registers

`MSHRQueue` of `mem/cache/mshr_queue.cc`, which the DRAM cache uses twice: for
its misses and for its write buffer.

* `MSHRFile` is the data of the queue: the registers, the list of the allocated
  ones in order of allocation, the list of those not yet sent in order of their
  ready time, the free list, and the two counters.  A register is named by its
  index in the register file.
* `MSHRFile.WF` says what the lists and the counters mean.  `MSHRQueue` is a
  file together with that fact, so no later proof has to show it again.
* The operations follow the source.  An assertion of the source that can fail
  is a `Fault`.  `deallocate` and `markInService` use iterators that the
  register keeps, so they also fail when the register is not in the list that
  the iterator points into.

No request of this system carries the `SECURE` flag, so the flag that
`MSHR::allocate` copies from the packet is never set.  The same holds for the
`UNCACHEABLE` flag.
-/

open Function

variable {l : List ℕ} {x : ℕ} {blk : ℕ}

namespace Gem5Gpu.Mem

/-- The assertions and fatal errors of the modelled code. -/
inductive Fault
  /-- `assert(!freeList.empty())` in `MSHRQueue::allocate`. -/
  | freeListEmpty (index : MSHRQueueIndex)
  /-- `assert(mshr->getNumTargets() == 0)` in `MSHRQueue::allocate`. -/
  | mshrNotReset
  /-- An MSHR is freed that is not on the allocated list. -/
  | notAllocated
  /-- `assert(targets.empty())` in `MSHR::deallocate`. -/
  | targetsLeft
  /-- `assert(!inService)` in `MSHR::markInService`. -/
  | alreadyInService
  /-- `assert(!blocked)` of the port in `setBlocked`. -/
  | portAlreadyBlocked
  /-- `assert(blocked)` of the port in `clearBlocked`. -/
  | portNotBlocked
  /-- A write to a block that has an MSHR in `recvTimingReq`. -/
  | writeToMissedBlock
  /-- A request that is neither a read nor a write in `recvTimingReq`. -/
  | neitherReadNorWrite
  /-- `assert(writeQueue.size() == isInWriteQueue.size())`. -/
  | writeQueueIndexSize
  /-- `assert(fillQueue.size() == isInFillQueue.size())`. -/
  | fillQueueIndexSize
  /-- `chooseNext` is called on an empty queue. -/
  | chooseNextEmpty
  /-- The `fatal` of the write branch of `processNextReqEvent`. -/
  | noQueueToServe
  /-- `assert(mshr->getNumTargets() >= 1)` in `processRespondEvent`. -/
  | pamNoTargets
  /-- `assert(mshr->getNumTargets() >= 1)` in `recvTimingResp`. -/
  | respNoTargets
  /-- `assert(target address == packet address)` in `recvTimingResp`. -/
  | respTargetAddr
  /-- `assert(mshr == pr->mshr)` in `recvTimingResp`. -/
  | respPamMshr
  /-- `assert(mshr->getNumTargets() == 1)` in `recvTimingResp`. -/
  | respWriteTargets
  /-- The `fatal` at the end of `recvTimingResp`. -/
  | respUnknown
  /-- `assert(!sendEvent.scheduled())` in `schedSendEvent`. -/
  | sendEventScheduled
  /-- `assert(!waitingOnRetry)` in `processSendEvent`. -/
  | sendWhileWaiting
  /-- `assert(mshr->getNumTargets() >= 1)` in `getTimingPacket`. -/
  | sendNoTargets
  deriving DecidableEq, Repr

/-- A miss status holding register. -/
structure MSHR where
  blkAddr : ℕ := 0
  readyTime : ℕ := 0
  order : ℕ := 0
  inService : Bool := false
  targets : List Packet := []
  deriving DecidableEq, Repr

/-- The flag that `allocate` copies from the packet.  No packet sets it. -/
def MSHR.isSecure (_ : MSHR) : Bool := false

def MSHR.getNumTargets (m : MSHR) : ℕ := m.targets.length

/-- The data of a queue of registers. -/
structure MSHRFile where
  index : MSHRQueueIndex
  numEntries : ℕ
  numReserve : ℕ
  registers : ℕ → MSHR
  allocatedList : List ℕ
  readyList : List ℕ
  freeList : List ℕ
  allocated : ℕ
  inServiceEntries : ℕ

namespace MSHRFile

/-- Registers are ordered by the time from which they may be sent. -/
def ReadyBefore (f : MSHRFile) (i j : ℕ) : Prop :=
  (f.registers i).readyTime ≤ (f.registers j).readyTime

/-- What the lists and the counters of a queue mean. -/
structure WF (f : MSHRFile) : Prop where
  partition : (f.allocatedList ++ f.freeList).Perm (List.range f.numEntries)
  ready : f.readyList.Perm (f.allocatedList.filter fun r => !(f.registers r).inService)
  sorted : f.readyList.Pairwise f.ReadyBefore
  allocated : f.allocated = f.allocatedList.length
  inService : f.inServiceEntries =
    (f.allocatedList.filter fun r => (f.registers r).inService).length

variable {f : MSHRFile} {r : ℕ}

theorem WF.nodup (h : f.WF) : (f.allocatedList ++ f.freeList).Nodup :=
  h.partition.nodup_iff.2 List.nodup_range

theorem WF.nodup_allocated (h : f.WF) : f.allocatedList.Nodup :=
  (List.nodup_append.1 h.nodup).1

theorem WF.not_mem_free (h : f.WF) (hr : r ∈ f.allocatedList) : r ∉ f.freeList :=
  fun hf => (List.nodup_append.1 h.nodup).2.2 r hr r hf rfl

/-- Every register is allocated or free. -/
theorem WF.length_add (h : f.WF) : f.allocated + f.freeList.length = f.numEntries := by
  have hlen := h.partition.length_eq
  rw [List.length_append, List.length_range] at hlen
  rw [h.allocated]
  exact hlen

theorem WF.mem_readyList (h : f.WF) : r ∈ f.readyList ↔
      r ∈ f.allocatedList ∧ (f.registers r).inService = false := by
  rw [h.ready.mem_iff, List.mem_filter, Bool.not_eq_true']

/-! ## Searches -/

/-- `isFull`, with `numEntries - numReserve` moved to the other side. -/
def isFull (f : MSHRFile) : Bool :=
  decide (f.numEntries < f.allocated + f.numReserve)

/-- The first allocated register of a block. -/
def findMatch (f : MSHRFile) (blkAddr : ℕ) (isSecure : Bool) : Option ℕ :=
  f.allocatedList.find? fun r =>
    (f.registers r).blkAddr == blkAddr && (f.registers r).isSecure == isSecure

/-- The first register of a block that has not been sent. -/
def findPending (f : MSHRFile) (blkAddr : ℕ) (isSecure : Bool) : Option ℕ :=
  f.readyList.find? fun r =>
    (f.registers r).blkAddr == blkAddr && (f.registers r).isSecure == isSecure

/-- The register to send next, when its time has come. -/
def getNextMSHR (f : MSHRFile) (curTick : ℕ) : Option ℕ :=
  match f.readyList with
  | [] => none
  | r :: _ => if curTick < (f.registers r).readyTime then none else some r

/-- The ready time of the next register.  `none` is `MaxTick`. -/
def nextMSHRReadyTime (f : MSHRFile) : Option ℕ :=
  f.readyList.head?.map fun r => (f.registers r).readyTime

theorem isFull_iff : f.isFull ↔ f.numEntries < f.allocated + f.numReserve := by
  simp [isFull]

theorem findMatch_eq_some {sec : Bool} (h : f.findMatch blk sec = some r) :
    r ∈ f.allocatedList ∧ (f.registers r).blkAddr = blk := by
  have hp := List.find?_some h
  simp only [Bool.and_eq_true, beq_iff_eq] at hp
  exact ⟨List.mem_of_find?_eq_some h, hp.1⟩

theorem findMatch_eq_none (h : f.findMatch blk false = none)
    (hr : r ∈ f.allocatedList) : (f.registers r).blkAddr ≠ blk := by
  have hp := List.find?_eq_none.1 h r hr
  simpa [MSHR.isSecure] using hp

theorem findPending_eq_some {sec : Bool} (h : f.findPending blk sec = some r) :
    r ∈ f.readyList ∧ (f.registers r).blkAddr = blk := by
  have hp := List.find?_some h
  simp only [Bool.and_eq_true, beq_iff_eq] at hp
  exact ⟨List.mem_of_find?_eq_some h, hp.1⟩

theorem getNextMSHR_eq_some {now : ℕ} (h : f.getNextMSHR now = some r) :
    r ∈ f.readyList ∧ (f.registers r).readyTime ≤ now := by
  unfold getNextMSHR at h
  split at h
  · cases h
  · rename_i i is hlist
    split at h
    · cases h
    · cases h
      exact ⟨by simp [hlist], by omega⟩

/-! ## Changes of one register -/

/-- Change one register and nothing else. -/
def setRegister (f : MSHRFile) (r : ℕ) (m : MSHR) : MSHRFile :=
  { f with registers := update f.registers r m }

/-- A list predicate that does not look at a register does not see its
change. -/
theorem filter_update_of_notMem (hr : r ∉ l) (m : MSHR) (p : MSHR → Bool) (g : ℕ → MSHR) :
    l.filter (fun i => p (update g r m i)) = l.filter fun i => p (g i) := by
  refine List.filter_congr fun i hi => ?_
  rw [update_of_ne (ne_of_mem_of_not_mem hi hr)]

/-- A change of a register that keeps a field. -/
theorem field_update_of_eq {α : Type} (p : MSHR → α) (m : MSHR) (g : ℕ → MSHR)
    (hm : p m = p (g r)) : ∀ i, p (update g r m i) = p (g i) :=
  (forall_update_iff g fun i m => p m = p (g i)).2 ⟨hm, fun _ _ => rfl⟩

theorem filter_update_of_eq (l : List ℕ) (m : MSHR) (p : MSHR → Bool)
    (g : ℕ → MSHR) (hm : p m = p (g r)) :
    l.filter (fun i => p (update g r m i)) = l.filter fun i => p (g i) :=
  List.filter_congr fun i _ => field_update_of_eq p m g hm i

/-- A change of a register's targets keeps the lists right. -/
theorem WF.setRegister (h : f.WF) (m : MSHR) (hserv : m.inService = (f.registers r).inService)
    (htime : m.readyTime = (f.registers r).readyTime) :
    (f.setRegister r m).WF := {
  h with
  ready := by
    refine h.ready.trans (List.Perm.of_eq ?_)
    exact (filter_update_of_eq _ m (fun m => !m.inService) f.registers (by simp [hserv])).symm
  sorted := by
    refine h.sorted.imp fun {i j} hij => ?_
    have htimes : ∀ i, ((f.setRegister r m).registers i).readyTime = (f.registers i).readyTime :=
      field_update_of_eq MSHR.readyTime m f.registers htime
    simpa only [ReadyBefore, htimes] using hij
  inService := by
    refine h.inService.trans (congrArg List.length ?_)
    exact (filter_update_of_eq _ m (fun m => m.inService) f.registers hserv).symm }

/-! ## Allocation -/

/-- Register `i` is ready no later than `r`. -/
def notLater (f : MSHRFile) (r i : ℕ) : Bool :=
  decide ((f.registers i).readyTime ≤ (f.registers r).readyTime)

/-- Insert a register into the ready list: at the end when it is ready last,
and otherwise before the first register that is ready later. -/
def addToReadyList (f : MSHRFile) (r : ℕ) : List ℕ :=
  match f.readyList.getLast? with
  | none => [r]
  | some l =>
    if f.notLater r l then f.readyList ++ [r]
    else f.readyList.takeWhile (f.notLater r) ++
      r :: f.readyList.dropWhile (f.notLater r)

theorem addToReadyList_perm (f : MSHRFile) (r : ℕ) :
    (f.addToReadyList r).Perm (r :: f.readyList) := by
  unfold addToReadyList
  split
  · rename_i hlast
    rw [List.getLast?_eq_none_iff.1 hlast]
  · split
    · exact List.perm_append_singleton r f.readyList
    · refine List.perm_middle.trans ?_
      rw [List.takeWhile_append_dropWhile]

/-- The last register of a sorted list is ready last. -/
theorem readyBefore_getLast {i j : ℕ} (hl : l.Pairwise f.ReadyBefore) (hlast : l.getLast? = some j)
    (hi : i ∈ l) : f.ReadyBefore i j := by
  obtain ⟨l', rfl⟩ := List.getLast?_eq_some_iff.1 hlast
  rcases List.mem_append.1 hi with hi | hi
  · exact (List.pairwise_append.1 hl).2.2 i hi j (by simp)
  · rw [List.mem_singleton.1 hi]
    exact le_rfl

/-- What is left after the registers that are not later starts with a later
one, and so all of it is later. -/
theorem notLater_dropWhile (hl : (l.dropWhile (f.notLater r)).Pairwise f.ReadyBefore) :
    ∀ i ∈ l.dropWhile (f.notLater r), f.notLater r i = false := by
  intro i hi
  have hhead := List.head?_dropWhile_not (f.notLater r) l
  revert hl hi hhead
  generalize l.dropWhile (f.notLater r) = d
  intro hl hi hhead
  cases d with
  | nil => cases hi
  | cons k ks =>
    rcases List.mem_cons.1 hi with rfl | hi
    · exact hhead
    · have hle := (List.pairwise_cons.1 hl).1 i hi
      simp only [List.head?_cons, notLater, ReadyBefore, decide_eq_false_iff_not] at hhead hle ⊢
      omega

/-- A relation that holds along the list, from the registers that are not later
to `r`, and from `r` to the later ones. -/
theorem addToReadyList_pairwise {R : ℕ → ℕ → Prop} (hl : f.readyList.Pairwise f.ReadyBefore)
    (hR : f.readyList.Pairwise R) (hpre : ∀ i ∈ f.readyList, f.notLater r i = true → R i r)
    (hpost : ∀ i ∈ f.readyList, f.notLater r i = false → R r i) :
    (f.addToReadyList r).Pairwise R := by
  unfold addToReadyList
  split
  · exact List.pairwise_singleton _ _
  · rename_i l hlast
    split
    · rename_i hle
      refine List.pairwise_append.2 ⟨hR, List.pairwise_singleton _ _, fun i hi j hj => ?_⟩
      rw [List.mem_singleton.1 hj]
      refine hpre i hi (decide_eq_true ?_)
      exact le_trans (readyBefore_getLast hl hlast hi) (of_decide_eq_true hle)
    · -- what is kept before `r` is not later, what comes after it is
      have happ := List.takeWhile_append_dropWhile (p := f.notLater r) (l := f.readyList)
      rw [← happ] at hl hR
      obtain ⟨hRpre, hRpost, hcross⟩ := List.pairwise_append.1 hR
      have hlater := notLater_dropWhile (List.pairwise_append.1 hl).2.1
      refine List.pairwise_append.2 ⟨hRpre, List.pairwise_cons.2 ⟨fun i hi => ?_, hRpost⟩, ?_⟩
      · exact hpost i ((List.dropWhile_sublist _).subset hi) (hlater i hi)
      · intro i hi j hj
        rcases List.mem_cons.1 hj with rfl | hj
        · exact hpre i ((List.takeWhile_sublist _).subset hi) (List.mem_takeWhile_imp hi)
        · exact hcross i hi j hj

theorem addToReadyList_sorted (hl : f.readyList.Pairwise f.ReadyBefore) :
    (f.addToReadyList r).Pairwise f.ReadyBefore :=
  addToReadyList_pairwise hl hl (fun _ _ => of_decide_eq_true)
    fun _ _ h => (Nat.lt_of_not_le (of_decide_eq_false h)).le

/-- The file after the first free register `r` was taken, with `rest` as the
free registers that are left. -/
def allocateAt (f : MSHRFile) (r : ℕ) (rest : List ℕ) (m : MSHR) : MSHRFile :=
  { f.setRegister r m with
    allocatedList := f.allocatedList ++ [r]
    readyList := (f.setRegister r m).addToReadyList r
    freeList := rest
    allocated := f.allocated + 1 }

theorem WF.allocateAt (h : f.WF) {rest : List ℕ} (hfree : f.freeList = r :: rest)
    {m : MSHR} (hm : m.inService = false) : (f.allocateAt r rest m).WF := by
  have hr : r ∉ f.allocatedList := fun hr =>
    h.not_mem_free hr (by simp [hfree])
  have hready : r ∉ f.readyList := fun hr' => hr (h.mem_readyList.1 hr').1
  constructor
  · show (f.allocatedList ++ [r] ++ rest).Perm _
    rw [List.append_assoc, List.singleton_append, ← hfree]
    exact h.partition
  · refine ((f.setRegister r m).addToReadyList_perm r).trans ?_
    show (r :: f.readyList).Perm (List.filter (fun i => !(update f.registers r m i).inService)
      (f.allocatedList ++ [r]))
    rw [List.filter_append, filter_update_of_notMem hr m (fun m => !m.inService) f.registers]
    simp only [List.filter_cons, update_self, hm, Bool.not_false, List.filter_nil, if_true]
    exact (h.ready.cons r).trans (List.perm_append_singleton r _).symm
  · refine addToReadyList_sorted (f := f.setRegister r m) ?_
    refine h.sorted.imp_of_mem fun {i j} hi hj hij => ?_
    simpa only [ReadyBefore, MSHRFile.setRegister, update_of_ne (ne_of_mem_of_not_mem hi hready),
      update_of_ne (ne_of_mem_of_not_mem hj hready)] using hij
  · simp [MSHRFile.allocateAt, h.allocated]
  · show f.inServiceEntries = _
    rw [h.inService]
    show _ = (List.filter (fun i => (update f.registers r m i).inService)
      (f.allocatedList ++ [r])).length
    rw [List.filter_append, filter_update_of_notMem hr m (fun m => m.inService) f.registers]
    simp [hm]

/-! ## Sending and freeing -/

/-- Removing a register from a filtered list of distinct registers. -/
theorem filter_erase (hl : l.Nodup) (p : ℕ → Bool) (r : ℕ) :
    (l.erase r).filter p = (l.filter p).erase r := by
  rw [hl.erase_eq_filter, List.Nodup.erase_eq_filter (hl.filter p),
    List.filter_filter, List.filter_filter]
  exact List.filter_congr fun i _ => Bool.and_comm _ _

/-- The file after `r` went into service. -/
def sendAt (f : MSHRFile) (r : ℕ) : MSHRFile :=
  { f.setRegister r { f.registers r with inService := true } with
    readyList := f.readyList.erase r
    inServiceEntries := f.inServiceEntries + 1 }

/-- The file after `r` was freed. -/
def freeAt (f : MSHRFile) (r : ℕ) : MSHRFile :=
  { f.setRegister r { f.registers r with inService := false } with
    allocatedList := f.allocatedList.erase r
    freeList := r :: f.freeList
    allocated := f.allocated - 1
    readyList :=
      if (f.registers r).inService then f.readyList else f.readyList.erase r
    inServiceEntries :=
      if (f.registers r).inService then f.inServiceEntries - 1
      else f.inServiceEntries }

/-- Ready times do not change, so what is left of the ready list stays in
order. -/
theorem WF.sorted_erase (h : f.WF) {f' : MSHRFile}
    (htime : ∀ i, (f'.registers i).readyTime = (f.registers i).readyTime)
    (hl : l.Sublist f.readyList) : l.Pairwise f'.ReadyBefore := by
  refine (h.sorted.sublist hl).imp fun {i j} hij => ?_
  simpa only [ReadyBefore, htime] using hij

theorem setRegister_readyTime (f : MSHRFile) (r : ℕ) (b : Bool) (i : ℕ) :
    ((f.setRegister r { f.registers r with inService := b }).registers
      i).readyTime = (f.registers i).readyTime :=
  field_update_of_eq MSHR.readyTime { f.registers r with inService := b } f.registers rfl i

/-- The two filters of the allocated registers, when the flag of one of them
is set. -/
theorem filter_setService (hl : l.Nodup) (g : ℕ → MSHR) : (l.filter fun i =>
      !(update g r { g r with inService := true } i).inService) =
      (l.filter fun i => !(g i).inService).erase r := by
  rw [List.Nodup.erase_eq_filter (hl.filter _), List.filter_filter]
  refine List.filter_congr fun i _ => ?_
  by_cases hi : i = r
  · subst hi
    simp
  · simp [hi]

theorem length_filter_not (l : List ℕ) (p : ℕ → Bool) :
    (l.filter p).length + (l.filter fun i => !p i).length = l.length := by
  have h := List.length_eq_countP_add_countP p (l := l)
  rw [List.countP_eq_length_filter, List.countP_eq_length_filter] at h
  simpa using h.symm

theorem WF.sendAt (h : f.WF) (hr : r ∈ f.readyList) : (f.sendAt r).WF := by
  have hready : (f.readyList.erase r).Perm
      (f.allocatedList.filter fun i => !((f.sendAt r).registers i).inService) := by
    refine (h.ready.erase r).trans (List.Perm.of_eq ?_)
    exact (filter_setService h.nodup_allocated f.registers).symm
  refine ⟨h.partition, hready, ?_, h.allocated, ?_⟩
  · exact h.sorted_erase (setRegister_readyTime f r true) List.erase_sublist
  · -- the two kinds of allocated registers add up, before and after
    have hnew := length_filter_not f.allocatedList fun i => ((f.sendAt r).registers i).inService
    have hold := length_filter_not f.allocatedList fun i => (f.registers i).inService
    have hpos := List.length_pos_of_mem hr
    rw [← hready.length_eq, List.length_erase_of_mem hr] at hnew
    rw [← h.ready.length_eq, ← h.inService] at hold
    show f.inServiceEntries + 1 =
      (f.allocatedList.filter fun i => ((f.sendAt r).registers i).inService).length
    omega

/-- The filters of the registers that stay allocated, when `r` is freed. -/
theorem WF.filter_freeAt (h : f.WF) (p : MSHR → Bool) :
    ((f.allocatedList.erase r).filter fun i => p ((f.freeAt r).registers i)) =
      (f.allocatedList.filter fun i => p (f.registers i)).erase r := by
  rw [← filter_erase h.nodup_allocated]
  exact filter_update_of_notMem h.nodup_allocated.not_mem_erase _ p f.registers

theorem WF.freeAt (h : f.WF) (hr : r ∈ f.allocatedList) : (f.freeAt r).WF := by
  refine ⟨?_, ?_, ?_, ?_, ?_⟩
  · refine List.perm_middle.trans (List.Perm.trans ?_ h.partition)
    exact (List.perm_cons_erase hr).symm.append_right _
  · show (if (f.registers r).inService then f.readyList
      else f.readyList.erase r).Perm _
    rw [show (f.freeAt r).allocatedList = f.allocatedList.erase r from rfl,
      h.filter_freeAt fun m => !m.inService]
    split
    · rename_i hserv
      rw [List.erase_of_not_mem (by simp [hserv])]
      exact h.ready
    · exact h.ready.erase r
  · refine h.sorted_erase (setRegister_readyTime f r false) ?_
    show (if (f.registers r).inService then f.readyList
      else f.readyList.erase r).Sublist _
    split
    · exact List.Sublist.refl _
    · exact List.erase_sublist
  · show f.allocated - 1 = (f.allocatedList.erase r).length
    rw [List.length_erase_of_mem hr, h.allocated]
  · show (if (f.registers r).inService then f.inServiceEntries - 1
      else f.inServiceEntries) = _
    rw [show (f.freeAt r).allocatedList = f.allocatedList.erase r from rfl,
      h.filter_freeAt fun m => m.inService, h.inService]
    split
    · rename_i hserv
      rw [List.length_erase_of_mem (by simp [hr, hserv])]
    · rename_i hserv
      rw [List.erase_of_not_mem (by simp [hserv])]

end MSHRFile

/-- A queue of registers whose lists and counters agree. -/
structure MSHRQueue extends MSHRFile where
  wf : toMSHRFile.WF

namespace MSHRQueue

open Lib

/-- The constructor of the source: all registers are free, and `reserve - 1`
of them come on top of the requested number. -/
def init (index : MSHRQueueIndex) (numEntries reserve : ℕ) : MSHRQueue where
  index := index
  numEntries := numEntries + reserve - 1
  numReserve := reserve
  registers := fun _ => {}
  allocatedList := []
  readyList := []
  freeList := List.range (numEntries + reserve - 1)
  allocated := 0
  inServiceEntries := 0
  wf := ⟨List.Perm.refl _, List.Perm.refl _, List.Pairwise.nil, rfl, rfl⟩

/-- Take the first free register for a packet. -/
def allocate (q : MSHRQueue) (blkAddr : ℕ) (pkt : Packet) (whenReady order : ℕ) :
    Except Fault (ℕ × MSHRQueue) :=
  match h : q.freeList with
  | [] => .error (.freeListEmpty q.index)
  | r :: rest =>
    if (q.registers r).getNumTargets = 0 then
      .ok (r, ⟨q.allocateAt r rest
        { blkAddr := blkAddr, readyTime := whenReady, order := order,
          targets := [pkt] }, q.wf.allocateAt h rfl⟩)
    else .error .mshrNotReset

/-- Free a register. -/
def deallocate (q : MSHRQueue) (r : ℕ) : Except Fault MSHRQueue :=
  if h : r ∈ q.allocatedList then
    if (q.registers r).targets = [] then .ok ⟨q.freeAt r, q.wf.freeAt h⟩
    else .error .targetsLeft
  else .error .notAllocated

/-- A register was sent and waits for its answer. -/
def markInService (q : MSHRQueue) (r : ℕ) : Except Fault MSHRQueue :=
  if h : r ∈ q.readyList then .ok ⟨q.sendAt r, q.wf.sendAt h⟩
  else .error .alreadyInService

/-- Change the targets of a register. -/
def setTargets (q : MSHRQueue) (r : ℕ) (targets : List Packet) : MSHRQueue :=
  ⟨q.setRegister r { q.registers r with targets := targets }, q.wf.setRegister _ rfl rfl⟩

/-- Add a packet to the targets of a register. -/
def allocateTarget (q : MSHRQueue) (r : ℕ) (pkt : Packet) : MSHRQueue :=
  q.setTargets r ((q.registers r).targets ++ [pkt])

variable {q q' : MSHRQueue} {r blk t o : ℕ} {pkt : Packet} {f : Fault}

/-! ## What the operations do -/

/-- The queue `q'` is `q` after its first free register `r` was taken. -/
structure Takes (q : MSHRQueue) (blkAddr : ℕ) (pkt : Packet)
    (whenReady order : ℕ) (r : ℕ) (q' : MSHRQueue) : Prop where
  free : q.freeList = r :: q.freeList.tail
  reset : (q.registers r).targets = []
  file : q'.toMSHRFile = q.allocateAt r q.freeList.tail
    { blkAddr := blkAddr, readyTime := whenReady, order := order,
      targets := [pkt] }

theorem allocate_ok (h : q.allocate blk pkt t o = .ok (r, q')) :
    q.Takes blk pkt t o r q' := by
  unfold allocate at h
  split at h
  · cases h
  · rename_i r' rest hfree
    split at h
    · rename_i htargets
      cases h
      have htail : q.freeList.tail = rest := by rw [hfree, List.tail_cons]
      exact ⟨by rw [htail, hfree], List.length_eq_zero_iff.1 htargets, by rw [htail]⟩
    · cases h

theorem allocate_error (h : q.allocate blk pkt t o = .error f) :
    f = .freeListEmpty q.index ∧ q.freeList = [] ∨ f = .mshrNotReset := by
  unfold allocate at h
  split at h
  · rename_i hfree
    cases h
    exact .inl ⟨rfl, hfree⟩
  · split at h
    · cases h
    · cases h
      exact .inr rfl

/-- The queue `q'` is `q` after the allocated register `r` was freed. -/
structure Frees (q : MSHRQueue) (r : ℕ) (q' : MSHRQueue) : Prop where
  mem : r ∈ q.allocatedList
  done : (q.registers r).targets = []
  file : q'.toMSHRFile = q.freeAt r

theorem deallocate_ok (h : q.deallocate r = .ok q') : q.Frees r q' := by
  unfold deallocate at h
  split at h
  · rename_i hmem
    split at h
    · rename_i hdone
      cases h
      exact ⟨hmem, hdone, rfl⟩
    · cases h
  · cases h

theorem deallocate_error (h : q.deallocate r = .error f) :
    f = .targetsLeft ∧ (q.registers r).targets ≠ [] ∨ f = .notAllocated ∧ r ∉ q.allocatedList := by
  unfold deallocate at h
  split at h
  · split at h
    · cases h
    · rename_i hleft
      cases h
      exact .inl ⟨rfl, hleft⟩
  · rename_i hmem
    cases h
    exact .inr ⟨rfl, hmem⟩

/-- The queue `q'` is `q` after the register `r` was sent. -/
structure Sends (q : MSHRQueue) (r : ℕ) (q' : MSHRQueue) : Prop where
  mem : r ∈ q.readyList
  file : q'.toMSHRFile = q.sendAt r

theorem markInService_ok (h : q.markInService r = .ok q') : q.Sends r q' := by
  unfold markInService at h
  split at h
  · rename_i hmem
    cases h
    exact ⟨hmem, rfl⟩
  · cases h

theorem markInService_error (h : q.markInService r = .error f) : f = .alreadyInService := by
  unfold markInService at h
  split at h
  · cases h
  · cases h
    rfl

/-! ## Sizes

The index, the number of registers and the reserve never change, and the number
of allocated registers follows the operations. -/

/-- The parts of a queue that its constructor fixes. -/
def shape (q : MSHRQueue) : MSHRQueueIndex × ℕ × ℕ :=
  (q.index, q.numEntries, q.numReserve)

theorem Takes.shape_eq (h : q.Takes blk pkt t o r q') : q'.shape = q.shape := by
  simp only [shape, h.file]
  rfl

theorem Takes.allocated_eq (h : q.Takes blk pkt t o r q') : q'.allocated = q.allocated + 1 := by
  rw [h.file]
  rfl

theorem Frees.shape_eq (h : q.Frees r q') : q'.shape = q.shape := by
  simp only [shape, h.file]
  rfl

theorem Frees.allocated_eq (h : q.Frees r q') : q'.allocated + 1 = q.allocated := by
  have hpos := List.length_pos_of_mem h.mem
  rw [← q.wf.allocated] at hpos
  have hfile : q'.allocated = q.allocated - 1 := by
    rw [h.file]
    rfl
  omega

theorem Sends.shape_eq (h : q.Sends r q') : q'.shape = q.shape := by
  simp only [shape, h.file]
  rfl

theorem Sends.allocated_eq (h : q.Sends r q') : q'.allocated = q.allocated := by
  rw [h.file]
  rfl

@[simp] theorem setTargets_shape (targets : List Packet) :
    (q.setTargets r targets).shape = q.shape := rfl

theorem Sends.isFull_eq (h : q.Sends r q') : q'.isFull = q.isFull := by
  simp only [h.file]
  rfl

/-- A queue that is full stays full when one more register is taken. -/
theorem Takes.isFull_of (h : q.Takes blk pkt t o r q')
    (hfull : q.isFull) : q'.isFull := by
  have hshape := h.shape_eq
  simp only [shape, Prod.mk.injEq] at hshape
  rw [MSHRFile.isFull_iff] at hfull ⊢
  rw [h.allocated_eq]
  omega

/-- A queue that is not full does not become full when a register is freed. -/
theorem Frees.not_isFull_of (h : q.Frees r q') (hfull : q.isFull = false) : q'.isFull = false := by
  have hshape := h.shape_eq
  have halloc := h.allocated_eq
  simp only [shape, Prod.mk.injEq] at hshape
  rw [← Bool.not_eq_true, MSHRFile.isFull_iff] at hfull ⊢
  omega

theorem Frees.isFull_of (h : q.Frees r q') (hfull : q'.isFull) : q.isFull := by
  by_contra hroom
  rw [h.not_isFull_of (Bool.not_eq_true _ ▸ hroom)] at hfull
  cases hfull

/-! ## The queue as a map

What the queue is for, without its lists: a map from the names of the allocated
registers to their contents.  Each operation changes the map at one name. -/

/-- The contents of the allocated registers. -/
def entries (q : MSHRQueue) (r : ℕ) : Option MSHR :=
  if r ∈ q.allocatedList then some (q.registers r) else none

theorem entries_eq_some {reg : MSHR} :
    q.entries r = some reg ↔ r ∈ q.allocatedList ∧ q.registers r = reg := by
  simp [entries]

theorem entries_of_mem (hr : r ∈ q.allocatedList) : q.entries r = some (q.registers r) := if_pos hr

theorem Takes.notMem (h : q.Takes blk pkt t o r q') : r ∉ q.allocatedList := by
  intro hr
  exact q.wf.not_mem_free hr (by rw [h.free]; exact List.mem_cons_self)

theorem Takes.entries_self (h : q.Takes blk pkt t o r q') : q.entries r = none := if_neg h.notMem

theorem Takes.entries_eq (h : q.Takes blk pkt t o r q') : q'.entries = update q.entries r (some
      { blkAddr := blk, readyTime := t, order := o, targets := [pkt] }) := by
  funext i
  simp only [entries, h.file, MSHRFile.allocateAt, MSHRFile.setRegister]
  by_cases hi : i = r
  · subst hi
    simp
  · simp [entries, hi]

theorem Frees.entries_eq (h : q.Frees r q') : q'.entries = update q.entries r none := by
  funext i
  simp only [entries, h.file, MSHRFile.freeAt, MSHRFile.setRegister]
  by_cases hi : i = r
  · subst hi
    simp [q.wf.nodup_allocated.not_mem_erase]
  · simp [entries, hi]

theorem Sends.entries_eq (h : q.Sends r q') : q'.entries = update q.entries r
      (some { q.registers r with inService := true }) := by
  have hr := (q.wf.mem_readyList.1 h.mem).1
  funext i
  simp only [entries, h.file, MSHRFile.sendAt, MSHRFile.setRegister]
  by_cases hi : i = r
  · subst hi
    simp [hr]
  · simp [entries, hi]

theorem setTargets_entries (q : MSHRQueue) (r : ℕ) (targets : List Packet) :
    (q.setTargets r targets).entries = update q.entries r
      ((q.entries r).map fun reg => { reg with targets := targets }) := by
  funext i
  simp only [entries, setTargets, MSHRFile.setRegister]
  by_cases hi : i = r
  · subst hi
    by_cases hr : i ∈ q.allocatedList <;> simp [hr]
  · simp [entries, hi]

/-- Clearing the targets of a register before it is freed. -/
theorem Frees.entries_eq_of_setTargets {targets : List Packet}
    (h : (q.setTargets r targets).Frees r q') :
    q'.entries = update q.entries r none := by
  rw [h.entries_eq, setTargets_entries, update_idem]

theorem findMatch_entries (h : q.findMatch blk false = some r) :
    q.entries r = some (q.registers r) ∧ (q.registers r).blkAddr = blk :=
  let ⟨hr, hblk⟩ := MSHRFile.findMatch_eq_some h
  ⟨entries_of_mem hr, hblk⟩

theorem findMatch_eq_none_entries (h : q.findMatch blk false = none)
    {reg : MSHR} (hr : q.entries r = some reg) : reg.blkAddr ≠ blk := by
  obtain ⟨hmem, rfl⟩ := entries_eq_some.1 hr
  exact MSHRFile.findMatch_eq_none h hmem

/-! ## Targets -/

/-- The packets that wait in a register. -/
def targets (q : MSHRQueue) (r : ℕ) : List Packet := (q.registers r).targets

theorem setTargets_targets (l : List Packet) :
    (q.setTargets r l).targets = update q.targets r l :=
  comp_update MSHR.targets q.registers r _

theorem Takes.targets_eq (h : q.Takes blk pkt t o r q') :
    q'.targets = update q.targets r [pkt] := by
  unfold targets
  rw [h.file]
  exact comp_update MSHR.targets q.registers r _

/-- Setting the service flag of a register leaves its packets. -/
theorem setRegister_targets (f : MSHRFile) (r : ℕ) (b : Bool) (i : ℕ) :
    ((f.setRegister r { f.registers r with inService := b }).registers i).targets =
      (f.registers i).targets :=
  MSHRFile.field_update_of_eq MSHR.targets { f.registers r with inService := b } f.registers rfl i

theorem Frees.targets_eq (h : q.Frees r q') : q'.targets = q.targets := by
  funext i
  simp only [targets, h.file]
  exact setRegister_targets q.toMSHRFile r false i

theorem Sends.targets_eq (h : q.Sends r q') : q'.targets = q.targets := by
  funext i
  simp only [targets, h.file]
  exact setRegister_targets q.toMSHRFile r true i

/-- Every packet that waits in a register has the property. -/
def AllTargets (P : Packet → Prop) (q : MSHRQueue) : Prop :=
  ∀ r, ∀ pkt ∈ q.targets r, P pkt

section AllTargets

variable {P : Packet → Prop}

theorem AllTargets.setTargets (hq : q.AllTargets P) {l : List Packet}
    (hl : ∀ pkt ∈ l, P pkt) : (q.setTargets r l).AllTargets P := by
  unfold AllTargets
  rw [setTargets_targets]
  exact (forall_update_iff q.targets fun _ l => ∀ pkt ∈ l, P pkt).2 ⟨hl, fun i _ => hq i⟩

theorem AllTargets.allocateTarget (hq : q.AllTargets P) (hp : P pkt) :
    (q.allocateTarget r pkt).AllTargets P := by
  refine hq.setTargets fun t ht => ?_
  rcases List.mem_append.1 ht with ht | ht
  · exact hq r t ht
  · rw [List.mem_singleton.1 ht]
    exact hp

theorem Takes.allTargets (h : q.Takes blk pkt t o r q') (hq : q.AllTargets P)
    (hp : P pkt) : q'.AllTargets P := by
  unfold AllTargets
  rw [h.targets_eq]
  refine (forall_update_iff q.targets fun _ l => ∀ pkt ∈ l, P pkt).2 ⟨?_, fun i _ => hq i⟩
  simpa using hp

theorem Frees.allTargets (h : q.Frees r q') (hq : q.AllTargets P) :
    q'.AllTargets P := by
  unfold AllTargets
  rw [h.targets_eq]
  exact hq

theorem Sends.allTargets (h : q.Sends r q') (hq : q.AllTargets P) :
    q'.AllTargets P := by
  unfold AllTargets
  rw [h.targets_eq]
  exact hq

end AllTargets

/-! ## Packets that wait -/

/-- How often the packet of an accepted request waits in a register. -/
def waitingIn (i : ℕ) (reg : Option MSHR) : ℕ :=
  reg.elim 0 fun reg => held i reg.targets

/-- How often the packet of an accepted request waits in the queue. -/
def waiting (q : MSHRQueue) (i : ℕ) : ℕ :=
  Lib.tableSum q.numEntries (waitingIn i) q.entries

theorem lt_numEntries (hr : r ∈ q.allocatedList ++ q.freeList) : r < q.numEntries :=
  List.mem_range.1 (q.wf.partition.mem_iff.1 hr)

/-- One register changes. -/
theorem waiting_of_update {reg : Option MSHR} (hshape : q'.shape = q.shape)
    (hr : r ∈ q.allocatedList ++ q.freeList)
    (hentries : q'.entries = update q.entries r reg) (i : ℕ) :
    q'.waiting i + waitingIn i (q.entries r) = q.waiting i + waitingIn i reg := by
  simp only [shape, Prod.mk.injEq] at hshape
  rw [waiting, hshape.2.1, hentries]
  exact Lib.tableSum_update (lt_numEntries hr) reg

theorem Takes.waiting_eq (h : q.Takes blk pkt t o r q') (i : ℕ) :
    q'.waiting i = q.waiting i + held i [pkt] := by
  have hmem : r ∈ q.allocatedList ++ q.freeList := by
    rw [h.free]
    exact List.mem_append_right _ List.mem_cons_self
  have hupd := waiting_of_update h.shape_eq hmem h.entries_eq i
  rw [h.entries_self] at hupd
  exact hupd

theorem Frees.waiting_eq {l : List Packet} (h : (q.setTargets r l).Frees r q')
    (i : ℕ) : q'.waiting i + held i (q.registers r).targets = q.waiting i := by
  have hr : r ∈ q.allocatedList := h.mem
  have hupd := waiting_of_update (h.shape_eq.trans (setTargets_shape l))
    (List.mem_append_left _ hr) h.entries_eq_of_setTargets i
  rw [entries_of_mem hr] at hupd
  exact hupd

theorem Sends.waiting_eq (h : q.Sends r q') (i : ℕ) : q'.waiting i = q.waiting i := by
  have hr := (q.wf.mem_readyList.1 h.mem).1
  have hupd := waiting_of_update h.shape_eq (List.mem_append_left _ hr) h.entries_eq i
  rw [entries_of_mem hr] at hupd
  exact Nat.add_right_cancel hupd

theorem setTargets_waiting (hr : r ∈ q.allocatedList) (l : List Packet) (i : ℕ) :
    (q.setTargets r l).waiting i + held i (q.registers r).targets = q.waiting i + held i l := by
  have hupd := waiting_of_update (setTargets_shape l) (List.mem_append_left _ hr)
    (setTargets_entries q r l) i
  rw [entries_of_mem hr] at hupd
  exact hupd

theorem allocateTarget_waiting (hr : r ∈ q.allocatedList) (i : ℕ) :
    (q.allocateTarget r pkt).waiting i = q.waiting i + held i [pkt] := by
  have hset := setTargets_waiting hr ((q.registers r).targets ++ [pkt]) i
  rw [held_append] at hset
  rw [allocateTarget]
  omega

/-! ## Ready times -/

/-- The times from which the registers not yet sent may be sent. -/
def readyTimes (q : MSHRQueue) : List ℕ :=
  q.readyList.map fun r => (q.registers r).readyTime

theorem readyTimes_sorted (q : MSHRQueue) : q.readyTimes.Pairwise (· ≤ ·) :=
  List.pairwise_map.2 q.wf.sorted

theorem nextMSHRReadyTime_eq (q : MSHRQueue) : q.nextMSHRReadyTime = q.readyTimes.head? := by
  simp [MSHRFile.nextMSHRReadyTime, readyTimes]

/-- The next register to be ready is ready first. -/
theorem exists_nextMSHRReadyTime (hx : x ∈ q.readyTimes) :
    ∃ t, q.nextMSHRReadyTime = some t ∧ t ≤ x := by
  have hsorted := q.readyTimes_sorted
  rw [nextMSHRReadyTime_eq]
  cases htimes : q.readyTimes with
  | nil => simp [htimes] at hx
  | cons t ts =>
    rw [htimes] at hx hsorted
    refine ⟨t, rfl, ?_⟩
    rcases List.mem_cons.1 hx with rfl | hx
    · exact le_rfl
    · exact (List.pairwise_cons.1 hsorted).1 x hx

/-- A change that keeps the ready times of the registers. -/
theorem mem_readyTimes_of_subset (hlist : q'.readyList ⊆ q.readyList)
    (htime : ∀ i, (q'.registers i).readyTime = (q.registers i).readyTime)
    (hx : x ∈ q'.readyTimes) : x ∈ q.readyTimes := by
  obtain ⟨i, hi, rfl⟩ := List.mem_map.1 hx
  exact List.mem_map.2 ⟨i, hlist hi, (htime i).symm⟩

theorem Takes.mem_readyTimes (h : q.Takes blk pkt t o r q')
    (hx : x ∈ q'.readyTimes) : x = t ∨ x ∈ q.readyTimes := by
  obtain ⟨i, hi, rfl⟩ := List.mem_map.1 hx
  simp only [h.file, MSHRFile.allocateAt] at hi ⊢
  by_cases hir : i = r
  · left
    simp [MSHRFile.setRegister, hir]
  · right
    have hi := (MSHRFile.addToReadyList_perm _ r).mem_iff.1 hi
    refine List.mem_map.2 ⟨i, (List.mem_cons.1 hi).resolve_left hir, ?_⟩
    simp [MSHRFile.setRegister, hir]

theorem Frees.mem_readyTimes (h : q.Frees r q') (hx : x ∈ q'.readyTimes) : x ∈ q.readyTimes := by
  refine mem_readyTimes_of_subset ?_ ?_ hx
  · rw [h.file]
    show (if (q.registers r).inService then q.readyList
      else q.readyList.erase r) ⊆ _
    split
    · exact List.Subset.refl _
    · exact List.erase_subset
  · rw [h.file]
    exact MSHRFile.setRegister_readyTime _ r false

@[simp] theorem setTargets_readyTimes (targets : List Packet) :
    (q.setTargets r targets).readyTimes = q.readyTimes :=
  List.map_congr_left fun i _ =>
    MSHRFile.field_update_of_eq MSHR.readyTime { q.registers r with targets } q.registers rfl i

end MSHRQueue

end Gem5Gpu.Mem
