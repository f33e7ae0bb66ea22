import Gem5Gpu.DRAMCache.SmallStep
import Gem5Gpu.Lib.Pieces

/-!
# Packets in bursts

A packet goes through the DRAM in two bursts, and its burst helper counts how
many of them are done.  The reads are in `readQueue` and `respQueue`, the writes
in `writeQueue` and `dramPktWriteRespQueue`.

`Counted` is what holds of the two pairs of queues in every state: the bursts
done and the bursts queued of each packet add up to two, a packet that is queued
as a read is not queued as a write, and the number of a packet is that of an
accepted request.  While the last burst of a read is looked up, the read no
longer counts as queued, although the burst is still at the front.
-/

namespace Gem5Gpu.DRAMCache

open Mem Lib

variable {c : Config} {e : Event} {up : Upstream} {s s' s₀ s₁ : State} {r : TimingReq}
  {φ φ' : Phase} {m : ℕ} {w : Bool} {p : MemPacket} {pkt : Packet}

/-- The packets of a queue of bursts. -/
def burstIds (queue : List DRAMPacket) : List ℕ := queue.map fun b => b.pkt.id

/-- The reads that are queued, one number per burst. -/
def State.readIds (s : State) : List ℕ := burstIds (s.respQueue ++ s.readQueue)

/-- The writes that are queued, one number per burst. -/
def State.writeIds (s : State) : List ℕ :=
  burstIds (s.dramPktWriteRespQueue ++ s.writeQueue)

/-- The number of bursts at the front of `respQueue` that are being looked
up. -/
def Phase.lookedUp : Phase → ℕ
  | .finished _ => 1
  | .forgetting _ => 1
  | _ => 0

/-- The reads that are queued, without the burst that is being looked up. -/
def Phase.readIds (φ : Phase) (s : State) : List ℕ :=
  burstIds (s.respQueue.drop φ.lookedUp ++ s.readQueue)

/-- The queued bursts against the burst helpers and the accepted requests. -/
structure Counted (done : ℕ → ℕ) (fresh : ℕ) (reads writes : List ℕ) : Prop where
  readBursts : Balanced 2 done reads
  writeBursts : Balanced 2 done writes
  bound : ∀ i, i ∈ reads ∨ i ∈ writes → i < fresh
  disjoint : ∀ i ∈ reads, i ∉ writes

def Phase.Counted (φ : Phase) (s : State) : Prop :=
  DRAMCache.Counted s.burstsServiced s.accepted.length (φ.readIds s) s.writeIds

/-! ## Operations on the queues -/

section Queues

variable {done : ℕ → ℕ} {fresh fresh' i : ℕ} {reads reads' writes writes' : List ℕ}

namespace Counted

section

variable (h : Counted done fresh reads writes)
include h

theorem mono (hle : fresh ≤ fresh') :
    Counted done fresh' reads writes :=
  { h with bound := fun i hi => (h.bound i hi).trans_le hle }

theorem perm (hr : reads.Perm reads')
    (hw : writes.Perm writes') : Counted done fresh reads' writes' where
  readBursts := h.readBursts.perm hr
  writeBursts := h.writeBursts.perm hw
  bound i hi := h.bound i (hi.imp hr.mem_iff.2 hw.mem_iff.2)
  disjoint i hi hi' := h.disjoint i (hr.mem_iff.2 hi) (hw.mem_iff.2 hi')

theorem fresh_notMem_reads : fresh ∉ reads := fun hi => (h.bound _ (.inl hi)).ne rfl

theorem fresh_notMem_writes : fresh ∉ writes := fun hi => (h.bound _ (.inr hi)).ne rfl

/-- A new read enters. -/
theorem pushRead {m : ℕ} (hm : m ≤ 2) : Counted (Function.update done fresh (2 - m)) (fresh + 1)
      (reads ++ List.replicate m fresh) writes where
  readBursts := h.readBursts.push h.fresh_notMem_reads hm
  writeBursts := h.writeBursts.update_of_notMem h.fresh_notMem_writes _
  bound i hi := by
    rcases hi with hi | hi
    · rcases List.mem_append.1 hi with hi | hi
      · exact (h.bound i (.inl hi)).trans (Nat.lt_succ_self _)
      · rw [List.eq_of_mem_replicate hi]
        exact Nat.lt_succ_self _
    · exact (h.bound i (.inr hi)).trans (Nat.lt_succ_self _)
  disjoint i hi := by
    rcases List.mem_append.1 hi with hi | hi
    · exact h.disjoint i hi
    · rw [List.eq_of_mem_replicate hi]
      exact h.fresh_notMem_writes

/-- Reads and writes play the same part. -/
theorem symm : Counted done fresh writes reads where
  readBursts := h.writeBursts
  writeBursts := h.readBursts
  bound i hi := h.bound i hi.symm
  disjoint i hi hi' := h.disjoint i hi' hi

end

/-- A burst of a read is done. -/
theorem popRead (h : Counted done fresh (i :: reads) writes) :
    Counted (Function.update done i (done i + 1)) fresh reads writes where
  readBursts := h.readBursts.pop
  writeBursts := h.writeBursts.update_of_notMem (h.disjoint i List.mem_cons_self) _
  bound j hj := h.bound j (hj.imp_left (List.mem_cons_of_mem i))
  disjoint j hj := h.disjoint j (List.mem_cons_of_mem i hj)

end Counted

theorem burstIds_append (q q' : List DRAMPacket) :
    burstIds (q ++ q') = burstIds q ++ burstIds q' := List.map_append

/-- New bursts enter at the end. -/
theorem burstIds_push (q q' new : List DRAMPacket) :
    burstIds (q ++ (q' ++ new)) = burstIds (q ++ q') ++ burstIds new := by
  rw [← List.append_assoc, burstIds_append]

/-- All bursts of one packet. -/
theorem burstIds_map (pkt : Packet) (bursts : List ℕ) : burstIds (bursts.map fun b => ⟨pkt, b⟩) =
      List.replicate bursts.length pkt.id := by
  simp [burstIds, Function.comp_def, List.map_const']

/-- A burst moves from the queue in front of the DRAM to the one behind it. -/
theorem burstIds_serve_perm {q : List DRAMPacket} (q' : List DRAMPacket) {j : ℕ}
    {b : DRAMPacket} (hb : q[j]? = some b) :
    (burstIds (q' ++ q)).Perm (burstIds (q' ++ [b] ++ q.eraseIdx j)) := by
  refine List.Perm.map _ ?_
  rw [List.append_assoc]
  refine List.Perm.append_left _ ?_
  obtain ⟨hj, rfl⟩ := List.getElem?_eq_some_iff.1 hb
  exact (List.getElem_cons_eraseIdx_perm hj).symm

end Queues

theorem missingBursts_length_le (c : Config) (s : State) (addr : ℕ) :
    (missingBursts c s addr).length ≤ 2 :=
  List.length_filter_le _ _

/-! ## The pieces of the handlers -/

theorem Recv.counted (h : Recv c s r s') (hs : φ.Counted s) : φ.Counted s' := by
  have hfresh : (s.accepted ++ [r]).length = s.accepted.length + 1 := by simp
  cases h with
  | dropped | blocked | readRefused | writeRefused => exact hs
  | readQueued | readPam =>
    -- the packet enters with its bursts that are not at the controller yet
    have hpush := hs.pushRead (missingBursts_length_le c s r.addr)
    rw [Phase.Counted, hfresh, Phase.readIds, burstIds_push, burstIds_map]
    exact hpush
  | writeQueued =>
    have hpush := (hs.symm.pushRead (m := 2) le_rfl).symm
    rw [Phase.Counted, hfresh, State.writeIds, burstIds_push]
    exact hpush
  | _ =>
    rw [Phase.Counted, hfresh]
    exact hs.mono (Nat.le_succ _)

theorem Retried.counted (h : Retried c up s s') (hs : φ.Counted s) :
    φ.Counted s' :=
  h.keeps (P := φ.Counted) hs fun _ _ _ h => h.counted hs

theorem Fills.counted {addr ctx : ℕ} (h : Fills c s addr ctx s')
    (hs : φ.Counted s) : φ.Counted s' := by
  cases h <;> exact hs

theorem FillsOnResp.counted (h : FillsOnResp c s p s') (hs : φ.Counted s) :
    φ.Counted s' :=
  h.keeps (P := φ.Counted) hs fun h => h.counted hs

theorem Freed.counted {index : MSHRQueueIndex} (h : Freed s index m w s')
    (hs : φ.Counted s) : φ.Counted s' := by
  cases h <;> cases index <;> exact hs

theorem Wakes.counted (h : Wakes s e s') (hs : φ.Counted s) : φ.Counted s' := by
  cases h <;> exact hs

/-- The last burst of a read is at the front, and no other burst of it is
queued. -/
theorem LastBurst.readIds_eq (h : LastBurst e s pkt) :
    s.readIds = pkt.id :: burstIds (s.respQueue.drop 1 ++ s.readQueue) := by
  obtain ⟨burst, rest, hq⟩ := h.front
  simp [State.readIds, burstIds, hq]

theorem LastBurst.counted (h : LastBurst e s pkt) (hs : Phase.start.Counted s) :
    DRAMCache.Counted (s.countBurst pkt) s.accepted.length
      (burstIds (s.respQueue.drop 1 ++ s.readQueue)) s.writeIds := by
  have hs : DRAMCache.Counted _ _ s.readIds _ := hs
  rw [h.readIds_eq] at hs
  exact hs.popRead

theorem LastWriteBurst.writeIds_eq {rest : List DRAMPacket} (h : LastWriteBurst e s pkt rest) :
    s.writeIds = pkt.id :: burstIds (rest ++ s.writeQueue) := by
  obtain ⟨burst, hq⟩ := h.front
  simp [State.writeIds, burstIds, hq]

theorem LastWriteBurst.counted {rest : List DRAMPacket}
    (h : LastWriteBurst e s pkt rest) (hs : Phase.start.Counted s) :
    DRAMCache.Counted (s.countBurst pkt) s.accepted.length s.readIds
      (burstIds (rest ++ s.writeQueue)) := by
  have hs : DRAMCache.Counted _ _ s.readIds s.writeIds := hs
  rw [h.writeIds_eq] at hs
  exact hs.symm.popRead.symm

theorem Micro.counted (h : Micro c e s₀ φ s φ' s') (hs : φ.Counted s) :
    φ'.Counted s' := by
  cases h with
  | request r _ h | retryCache _ _ _ h | serialHit pkt h | serialCoalesced pkt m h
  | serialCoalescedLast pkt m h | serialMiss pkt m q h | pamMiss pkt pr h | writeHit pkt rest d h
  | writeMiss pkt rest d m q h | writeAllocClean pkt rest d h | writeAllocDirty pkt rest d m q h =>
    exact h.counted hs
  | retryWrite _ h | retryRead _ h | sendNothing h | sendRefused _ _ h | sentMiss _ _ _ _ h
  | sentWrite _ _ _ _ h | writeAnswered _ _ _ _ _ h | pamAnswered _ _ _ _ _ _ h | filled _ h =>
    exact h.counted (φ := .done) hs
  | serveRead b w d i p hp =>
    exact Counted.perm hs (burstIds_serve_perm _ hp) (List.Perm.refl _)
  | serveWrite b w d i p hp =>
    exact Counted.perm hs (List.Perm.refl _) (burstIds_serve_perm _ hp)
  | burst p rest d hq =>
    have hids : s.readIds = p.pkt.id :: burstIds (rest ++ s.readQueue) := by
      simp [State.readIds, burstIds, hq]
    have hs : DRAMCache.Counted _ _ s.readIds _ := hs
    rw [hids] at hs
    exact hs.popRead
  | pamDoneHit pkt pr _ _ hlast _ _ _ hfree =>
    exact hfree.counted (φ := .finished pkt) (hlast.counted hs)
  | pamDoneMiss pkt pr _ _ hlast _ _ _ hfill hfree =>
    exact hfree.counted (φ := .finished pkt) (hfill.counted (φ := .finished pkt) (hlast.counted hs))
  | pamHit pkt pr _ _ hlast _ _ _ hfree =>
    split
    · exact hfree.counted (φ := .finished pkt) (hlast.counted hs)
    · exact hfree.counted (φ := .forgetting pkt) (hlast.counted hs)
  | pop pkt d =>
    have hs : DRAMCache.Counted _ _ (burstIds (s.respQueue.drop 1 ++ _)) _ := hs
    rw [List.drop_one] at hs
    exact hs
  | writeBurst p rest d hq =>
    have hids : s.writeIds = p.pkt.id :: burstIds (rest ++ s.writeQueue) := by
      simp [State.writeIds, burstIds, hq]
    have hs : DRAMCache.Counted _ _ _ s.writeIds := hs
    rw [hids] at hs
    exact hs.symm.popRead.symm
  | readAnswered _ _ _ _ _ _ hfill hfree =>
    exact hfree.counted (φ := .done) (hfill.counted (φ := .done) hs)
  | _ => exact hs

theorem State.init_counted (c : Config) (store : ℕ → Data) :
    Phase.start.Counted (State.init c store) where
  readBursts := nofun
  writeBursts := nofun
  bound := nofun
  disjoint := nofun

end Gem5Gpu.DRAMCache
