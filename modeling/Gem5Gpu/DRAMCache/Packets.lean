import Gem5Gpu.DRAMCache.SmallStep

/-!
# Where the packets come from

Every packet inside the controller was made from a request: as the packet of the
request itself, as a copy of it, or as a read of its block that was sent to the
memory.  `Carries P` says so for a property `P` of addresses that all requests
have: it holds of the packets in the queues in front of the DRAM, of the packets
that wait for a miss, and of the reads that the memory has performed.  It also
says that reads and writes do not get mixed up.

The writes that the controller makes itself, when it evicts a block, are not
among these packets.
-/

namespace Gem5Gpu.DRAMCache

open Mem Lib

variable {c : Config} {P : ℕ → Prop} {e : Event} {up : Upstream} {s s' s₀ s₁ : State}
  {r : TimingReq} {φ φ' : Phase} {m : ℕ} {w : Bool} {p : MemPacket} {pkt : Packet}
  {rest : List DRAMPacket}

/-- A packet of a command that came from upstream, at an address with the
property. -/
structure IsPacket (P : ℕ → Prop) (cmd : MemCmd) (pkt : Packet) : Prop where
  cmd_eq : pkt.cmd = cmd
  addr : P pkt.addr
  external : pkt.internal = false

/-- A read in the memory, at an address with the property.  Writes in the memory
are not constrained. -/
def IsMissOf (P : ℕ → Prop) (p : MemPacket) : Prop :=
  p.queue = .mshrs → p.cmd = .readReq ∧ P p.addr

/-- The answer that a handler works on. -/
def Phase.taken : Phase → List MemPacket
  | .answering p _ _ => [p]
  | .released p _ _ => [p]
  | .consuming p _ _ => [p]
  | _ => []

/-- The block that is about to be installed. -/
def Phase.fillAddr : Phase → List ℕ
  | .filling p => [p.addr]
  | _ => []

/-- The packets of the controller against the requests that they came from. -/
structure Carries (P : ℕ → Prop) (reads writes : List DRAMPacket)
    (misses : MSHRQueue) (mem : List MemPacket) (fills : List ℕ) : Prop where
  readPkts : ∀ b ∈ reads, IsPacket P .readReq b.pkt
  writePkts : ∀ b ∈ writes, IsPacket P .writeReq b.pkt
  missPkts : misses.AllTargets fun pkt => P pkt.addr
  memPkts : ∀ p ∈ mem, IsMissOf P p
  fillAddr : ∀ a ∈ fills, P a

def Phase.Carries (P : ℕ → Prop) (φ : Phase) (s : State) : Prop :=
  DRAMCache.Carries P (s.respQueue ++ s.readQueue)
    (s.dramPktWriteRespQueue ++ s.writeQueue) s.mshrQueue (φ.taken ++ s.mem)
    φ.fillAddr

section Lists

variable {α : Type} {Q : α → Prop} {l l' : List α} {a : α} {i : ℕ}

theorem forall_mem_push (h : ∀ x ∈ l ++ l', Q x) {new : List α}
    (hnew : ∀ x ∈ new, Q x) : ∀ x ∈ l ++ (l' ++ new), Q x := by
  intro x hx
  rw [← List.append_assoc] at hx
  rcases List.mem_append.1 hx with hx | hx
  · exact h x hx
  · exact hnew x hx

/-- An element moves from one list to the end of the other. -/
theorem forall_mem_serve (h : ∀ x ∈ l ++ l', Q x) (ha : l'[i]? = some a) :
    ∀ x ∈ l ++ [a] ++ l'.eraseIdx i, Q x := by
  intro x hx
  rw [List.append_assoc, List.mem_append, List.mem_append, List.mem_singleton] at hx
  rcases hx with hx | rfl | hx
  · exact h x (List.mem_append_left _ hx)
  · exact h x (List.mem_append_right _ (List.mem_of_getElem? ha))
  · exact h x (List.mem_append_right _ (List.mem_of_mem_eraseIdx hx))

end Lists

/-! ## The pieces of the handlers -/

theorem Recv.carries (h : Recv c s r s') (hr : P r.addr) (hs : φ.Carries P s) :
    φ.Carries P s' := by
  have hread : r.cmd = .readReq → IsPacket P .readReq (s.newPacket r) :=
    fun hcmd => ⟨hcmd, hr, rfl⟩
  have hwrite : r.cmd = .writeReq → IsPacket P .writeReq (s.newPacket r) :=
    fun hcmd => ⟨hcmd, hr, rfl⟩
  cases h with
  | coalesced | coalescedLast => exact { hs with missPkts := hs.missPkts.allocateTarget hr }
  | bypassTagRead m q _ _ _ hq | bypassed m q log _ _ _ hq =>
    exact { hs with missPkts := hq.allTargets hs.missPkts hr }
  | readQueued hq hsome =>
    refine { hs with readPkts := forall_mem_push hs.readPkts ?_ }
    simp only [List.mem_map, forall_exists_index, and_imp]
    rintro _ b - rfl
    exact hread hq.isRead
  | readPam m q hq hall hcpu hpam hpred hm =>
    refine { hs with
      readPkts := forall_mem_push hs.readPkts ?_
      missPkts := hm.allTargets hs.missPkts hr }
    simp only [List.mem_map, forall_exists_index, and_imp]
    rintro _ b - rfl
    exact hread hq.isRead
  | writeQueued hmiss hcmd =>
    refine { hs with writePkts := forall_mem_push hs.writePkts ?_ }
    simp only [List.mem_cons, List.not_mem_nil, or_false, forall_eq_or_imp, forall_eq]
    exact ⟨hwrite hcmd, hwrite hcmd⟩
  | _ => exact hs

theorem Retried.carries (h : Retried c up s s')
    (hup : ∀ s r, up s = some r → P r.addr) (hs : φ.Carries P s) :
    φ.Carries P s' :=
  h.keeps (P := φ.Carries P) hs fun r _ hr h => h.carries (hup _ r hr) hs

theorem Fills.carries {addr ctx : ℕ} (h : Fills c s addr ctx s')
    (hs : φ.Carries P s) : φ.Carries P s' := by
  cases h <;> exact hs

theorem FillsOnResp.carries (h : FillsOnResp c s p s') (hs : φ.Carries P s) :
    φ.Carries P s' :=
  h.keeps (P := φ.Carries P) hs fun h => h.carries hs

theorem Freed.carries {index : MSHRQueueIndex} (h : Freed s index m w s')
    (hs : φ.Carries P s) : φ.Carries P s' := by
  cases h with
  | keeps q hq | opens q hq =>
    cases index with
    | mshrs => exact { hs with missPkts := hq.allTargets hs.missPkts }
    | writeBuffer => exact hs

theorem Wakes.carries (h : Wakes s e s') (hs : φ.Carries P s) : φ.Carries P s' := by
  cases h <;> exact hs

/-- The packet of a lookup is a read. -/
theorem LastBurst.isPacket (h : LastBurst e s pkt) (hs : φ.Carries P s) :
    IsPacket P .readReq pkt := by
  obtain ⟨burst, rest, hq⟩ := h.front
  refine hs.readPkts ⟨pkt, burst⟩ ?_
  rw [hq]
  exact List.mem_append_left _ List.mem_cons_self

theorem LastWriteBurst.isPacket (h : LastWriteBurst e s pkt rest) (hs : φ.Carries P s) :
    IsPacket P .writeReq pkt := by
  obtain ⟨burst, hq⟩ := h.front
  refine hs.writePkts ⟨pkt, burst⟩ ?_
  rw [hq]
  exact List.mem_append_left _ List.mem_cons_self

/-- A burst leaves the queue of served writes. -/
theorem Phase.Carries.popWrite {b : DRAMPacket}
    (hs : φ.Carries P s) (hq : s.dramPktWriteRespQueue = b :: rest) :
    ∀ b ∈ rest ++ s.writeQueue, IsPacket P .writeReq b.pkt := by
  intro b hb
  refine hs.writePkts b ?_
  rw [hq]
  exact List.mem_cons_of_mem _ hb

theorem LastWriteBurst.writePkts (h : LastWriteBurst e s pkt rest) (hs : φ.Carries P s) :
    ∀ b ∈ rest ++ s.writeQueue, IsPacket P .writeReq b.pkt := by
  obtain ⟨burst, hq⟩ := h.front
  exact hs.popWrite hq

/-- The memory gives an answer back. -/
theorem Phase.Carries.answer {i : ℕ} (hs : Phase.start.Carries P s)
    (hp : s.mem[i]? = some p) : ∀ x ∈ [p] ++ s.mem.eraseIdx i, IsMissOf P x :=
  forall_mem_serve (l := []) hs.memPkts hp

theorem Micro.carries (h : Micro c e s₀ φ s φ' s')
    (hok : Demands (fun _ r => P r.addr) s₀ e) (hs : φ.Carries P s) :
    φ'.Carries P s' := by
  cases h with
  | request r he h => exact h.carries (hok.request r he) hs
  | retryWrite _ h | retryRead _ h => exact h.carries (φ := .done) hok.reaction hs
  | retryCache _ _ _ h => exact h.carries hok.reaction hs
  | serveRead b w d i p hp =>
    exact { hs with readPkts := forall_mem_serve hs.readPkts hp }
  | serveWrite b w d i p hp =>
    exact { hs with writePkts := forall_mem_serve hs.writePkts hp }
  | burst p rest d hq =>
    refine { hs with readPkts := fun b hb => hs.readPkts b ?_ }
    rw [hq]
    exact List.mem_cons_of_mem _ hb
  | serialCoalesced pkt m hlast | serialCoalescedLast pkt m hlast | pamMiss pkt pr hlast =>
    have hpkt := hlast.isPacket hs
    exact { hs with missPkts := hs.missPkts.allocateTarget hpkt.addr }
  | serialMiss pkt m q hlast _ _ _ hq =>
    have hpkt := hlast.isPacket hs
    exact { hs with missPkts := hq.allTargets hs.missPkts hpkt.addr }
  | pamDoneHit pkt pr _ _ hlast _ _ _ hfree =>
    refine hfree.carries (φ := .finished pkt) ?_
    exact { hs with missPkts := hs.missPkts.setTargets (List.forall_mem_nil _) }
  | pamDoneMiss pkt pr _ _ hlast _ _ _ hfill hfree =>
    refine hfree.carries (φ := .finished pkt) ?_
    refine hfill.carries (φ := .finished pkt) ?_
    exact { hs with missPkts := hs.missPkts.setTargets (List.forall_mem_nil _) }
  | pamHit pkt pr _ _ hlast _ _ _ hfree =>
    split
    · refine hfree.carries (φ := .finished pkt) ?_
      exact { hs with missPkts := hs.missPkts.setTargets (List.forall_mem_nil _) }
    · refine hfree.carries (φ := .forgetting pkt) ?_
      exact { hs with missPkts := hs.missPkts.setTargets (List.forall_mem_nil _) }
  | pop pkt d =>
    refine { hs with readPkts := fun b hb => hs.readPkts b ?_ }
    rw [List.mem_append] at hb ⊢
    exact hb.imp_left List.mem_of_mem_tail
  | writeBurst p rest d hq => exact { hs with writePkts := hs.popWrite hq }
  | writeHit pkt rest d hlast => exact { hs with writePkts := hlast.writePkts hs }
  | writeMiss pkt rest d m q hlast | writeAllocClean pkt rest d hlast
  | writeAllocDirty pkt rest d m q hlast =>
    exact { hs with writePkts := hlast.writePkts hs }
  | sendNothing hw | sendRefused _ _ hw => exact hw.carries (φ := .done) hs
  | sentMiss r target rest q hw _ htargets hq =>
    have hs := hw.carries (φ := .done) hs
    have htarget : P target.addr := by
      refine hs.missPkts r target ?_
      rw [MSHRQueue.targets, htargets]
      exact List.mem_cons_self
    refine { hs with missPkts := hq.allTargets hs.missPkts, memPkts := ?_ }
    refine forall_mem_push (l := []) hs.memPkts ?_
    simp only [List.mem_singleton, forall_eq]
    exact fun _ => ⟨rfl, htarget⟩
  | sentWrite r target rest q hw =>
    have hs := hw.carries (φ := .done) hs
    refine { hs with memPkts := forall_mem_push (l := []) hs.memPkts ?_ }
    simp only [List.mem_singleton, forall_eq]
    exact fun h => by cases h
  | pamEarly i up p pr first rest _ hp _ _ _ htargets =>
    refine { hs with
      missPkts := hs.missPkts.setTargets ?_
      memPkts := fun x hx => hs.answer hp x (List.mem_cons_of_mem _ hx) }
    intro t ht
    have hold : ∀ t ∈ first :: rest, P t.addr := by
      intro t ht
      refine hs.missPkts pr.mshr t ?_
      rw [MSHRQueue.targets, htargets]
      exact ht
    rcases List.mem_cons.1 ht with rfl | ht
    · exact hold first List.mem_cons_self
    · exact hold t (List.mem_cons_of_mem _ ht)
  | pamLate i up p pr _ hp =>
    refine { hs with memPkts := fun x hx => ?_ }
    exact hs.answer hp x (List.mem_cons_of_mem _ hx)
  | pamAnswer i up p pr _ hp | serialAnswer i up p _ hp => exact { hs with memPkts := hs.answer hp }
  | readAnswered p w _ _ _ _ hfill hfree =>
    refine hfree.carries (φ := .done) ?_
    have hs := hfill.carries (φ := .consuming p w false) hs
    exact { hs with
      missPkts := hs.missPkts.setTargets (List.forall_mem_nil _)
      memPkts := fun x hx => hs.memPkts x (List.mem_cons_of_mem _ hx) }
  | writeAnswered p w _ _ _ hfree =>
    refine hfree.carries (φ := .done) ?_
    exact { hs with memPkts := fun x hx => hs.memPkts x (List.mem_cons_of_mem _ hx) }
  | pamAnswered p w _ _ hqueue _ hfree =>
    refine hfree.carries (φ := .filling p) ?_
    refine { hs with
      missPkts := hs.missPkts.setTargets (List.forall_mem_nil _)
      memPkts := fun x hx => hs.memPkts x (List.mem_cons_of_mem _ hx)
      fillAddr := ?_ }
    rw [Phase.fillAddr, List.forall_mem_singleton]
    exact (hs.memPkts p List.mem_cons_self hqueue).2
  | filled p hfill =>
    have hs := hfill.carries (φ := .filling p) hs
    exact { hs with fillAddr := List.forall_mem_nil _ }
  | _ => exact hs

theorem State.init_carries (c : Config) (store : ℕ → Data) :
    Phase.start.Carries P (State.init c store) where
  readPkts := nofun
  writePkts := nofun
  missPkts := nofun
  memPkts := nofun
  fillAddr := nofun

end Gem5Gpu.DRAMCache
