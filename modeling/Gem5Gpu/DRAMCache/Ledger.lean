import Gem5Gpu.DRAMCache.Clones
import Gem5Gpu.DRAMCache.Owed

/-!
# Every request is answered once

The packet of an accepted request is in one of four places: its bursts are in the
queues of reads, or in the queues of writes, or it waits in the register of a
miss, or it has been sent upstream.  `Ledger` adds these up: for each accepted
request the sum is one.

The copies that the controller makes do not count, and by `Cloned` none of them
goes upstream.  With `Owes` the assertions of `recvTimingResp` on the targets
hold as well.  All of this needs `AnswersMatch`, the condition that the code does
not check: an answer for a block that has an entry of `pamQueue` is the answer
to the request of that entry.
-/

namespace Gem5Gpu.DRAMCache

open Mem Lib

variable {c : Config} {e : Event} {up : Upstream} {s s' s₀ s₁ : State} {r : TimingReq}
  {φ φ' : Phase} {m i : ℕ} {w : Bool} {p : MemPacket} {pkt : Packet} {pr : PamReq} {reg : MSHR}
  {f : Fault} {l : List ℕ}

/-- One if a packet has bursts in a queue. -/
def queued (i : ℕ) (l : List ℕ) : ℕ := if i ∈ l then 1 else 0

/-- The places of the packets of accepted requests. -/
structure Ledger (reads writes : List ℕ) (waiting : ℕ → ℕ) (responses : List Packet)
    (fresh : ℕ) : Prop where
  once : ∀ i, queued i reads + queued i writes + waiting i + held i responses =
    if i < fresh then 1 else 0
  upstream : ∀ t ∈ responses, t.internal = false

def Phase.Ledger (φ : Phase) (s : State) : Prop :=
  DRAMCache.Ledger (φ.readIds s) s.writeIds s.mshrQueue.waiting s.responses s.accepted.length

/-! ## Queues -/

theorem queued_perm {l l' : List ℕ} (h : l.Perm l') (i : ℕ) : queued i l = queued i l' := by
  simp [queued, h.mem_iff]

theorem queued_cons_of_notMem {j : ℕ} (h : j ∉ l) (i : ℕ) :
    queued i (j :: l) = queued i l + if i = j then 1 else 0 := by
  by_cases hi : i = j
  · subst hi
    simp [queued, h]
  · simp [queued, hi]

theorem queued_cons_of_mem {j : ℕ} (h : j ∈ l) (i : ℕ) : queued i (j :: l) = queued i l := by
  by_cases hi : i = j
  · subst hi
    simp [queued, h]
  · simp [queued, hi]

theorem queued_append_replicate {j n : ℕ} (h : j ∉ l) (hn : 0 < n)
    (i : ℕ) : queued i (l ++ List.replicate n j) = queued i l + if i = j then 1 else 0 := by
  by_cases hi : i = j
  · subst hi
    simp [queued, h, hn.ne']
  · simp [queued, hi]

namespace Ledger

variable {reads reads' writes writes' : List ℕ} {waiting waiting' : ℕ → ℕ}
  {responses new : List Packet} {fresh : ℕ} {t : Packet}

section

variable (h : Ledger reads writes waiting responses fresh)
include h

/-- Bursts move, and packets stay where they are. -/
theorem congr (hr : ∀ i, queued i reads' = queued i reads)
    (hw : ∀ i, queued i writes' = queued i writes) (hm : ∀ i, waiting' i = waiting i) :
    Ledger reads' writes' waiting' responses fresh := by
  refine ⟨fun i => ?_, h.upstream⟩
  rw [hr, hw, hm]
  exact h.once i

/-- Reads and writes play the same part. -/
theorem symm :
    Ledger writes reads waiting responses fresh := by
  refine ⟨fun i => ?_, h.upstream⟩
  rw [← h.once i]
  omega

/-- A new packet enters the queues. -/
theorem acceptRead (hnew : fresh ∉ reads) {n : ℕ} (hn : 0 < n) :
    Ledger (reads ++ List.replicate n fresh) writes waiting responses (fresh + 1) := by
  refine ⟨fun i => ?_, h.upstream⟩
  have honce := h.once i
  rw [queued_append_replicate hnew hn]
  split_ifs at honce ⊢ <;> omega

/-- A new packet waits for a miss. -/
theorem acceptWait (hw : ∀ i, waiting' i = waiting i + if i = fresh then 1 else 0) :
    Ledger reads writes waiting' responses (fresh + 1) := by
  refine ⟨fun i => ?_, h.upstream⟩
  have honce := h.once i
  rw [hw]
  split_ifs at honce ⊢ <;> omega

/-- A new packet is answered at once. -/
theorem acceptRespond (hid : t.id = fresh) (ht : t.internal = false) :
    Ledger reads writes waiting (responses ++ [t]) (fresh + 1) := by
  refine ⟨fun i => ?_, List.forall_mem_append.2 ⟨h.upstream, by simp [ht]⟩⟩
  have honce := h.once i
  rw [held_append, held_cons ht, held_nil, hid]
  split_ifs at honce ⊢ <;> omega

end

/-- A packet leaves the queues and is answered. -/
theorem respond (h : Ledger (t.id :: reads) writes waiting responses fresh)
    (hid : t.id ∉ reads) (ht : t.internal = false) :
    Ledger reads writes waiting (responses ++ [t]) fresh := by
  refine ⟨fun i => ?_, List.forall_mem_append.2 ⟨h.upstream, by simp [ht]⟩⟩
  have honce := h.once i
  rw [queued_cons_of_notMem hid] at honce
  rw [held_append, held_cons ht, held_nil]
  omega

/-- A packet leaves the queues and waits for a miss. -/
theorem wait (h : Ledger (i :: reads) writes waiting responses fresh) (hid : i ∉ reads)
    (hw : ∀ j, waiting' j = waiting j + if j = i then 1 else 0) :
    Ledger reads writes waiting' responses fresh := by
  refine ⟨fun j => ?_, h.upstream⟩
  have honce := h.once j
  rw [queued_cons_of_notMem hid] at honce
  rw [hw]
  omega

/-- The packets that wait for a miss are answered. -/
theorem release (h : Ledger reads writes waiting responses fresh)
    (hw : ∀ i, waiting' i + held i new = waiting i) (hnew : ∀ t ∈ new, t.internal = false) :
    Ledger reads writes waiting' (responses ++ new) fresh := by
  refine ⟨fun i => ?_, List.forall_mem_append.2 ⟨h.upstream, hnew⟩⟩
  have honce := h.once i
  have hw := hw i
  rw [held_append]
  omega

end Ledger

/-! ## Requests -/

/-- A packet from upstream joins the ones that wait. -/
theorem held_singleton {t : Packet} (ht : t.internal = false) (i : ℕ) :
    held i [t] = if i = t.id then 1 else 0 := by
  rw [held_cons ht, held_nil, Nat.zero_add]

theorem Recv.ledger (h : Recv c s r s') (hcount : φ.Counted s) (hs : φ.Ledger s) :
    φ.Ledger s' := by
  have hlen : (s.accepted ++ [r]).length = s.accepted.length + 1 := by simp
  have hs : Ledger (φ.readIds s) s.writeIds s.mshrQueue.waiting s.responses
    s.accepted.length := hs
  cases h with
  | dropped | blocked | readRefused | writeRefused => exact hs
  | coalesced m _ hm | coalescedLast m _ hm =>
    have hmem := (MSHRFile.findMatch_eq_some hm).1
    rw [Phase.Ledger, hlen]
    exact hs.acceptWait fun i => by
      rw [MSHRQueue.allocateTarget_waiting hmem, held_singleton rfl]
      rfl
  | fromWriteBuffer | readServed =>
    rw [Phase.Ledger, hlen]
    exact hs.acceptRespond (t := (s.accept r).accessRead (s.newPacket r)) rfl rfl
  | bypassTagRead m q _ _ _ hq | bypassed m q log _ _ _ hq =>
    rw [Phase.Ledger, hlen]
    exact hs.acceptWait fun i => by
      rw [hq.waiting_eq, held_singleton rfl]
      rfl
  | bypassTagWrite =>
    rw [Phase.Ledger, hlen]
    exact hs.acceptRespond (t := s.newPacket r) rfl rfl
  | readQueued hq hsome =>
    rw [Phase.Ledger, hlen, Phase.readIds, burstIds_push, burstIds_map]
    exact hs.acceptRead hcount.fresh_notMem_reads (List.length_pos_of_ne_nil hsome)
  | readPam m q _ hall _ _ _ hm =>
    have hpos : 0 < (missingBursts c s r.addr).length := by
      rw [hall]
      exact Nat.succ_pos _
    rw [Phase.Ledger, hlen, Phase.readIds, burstIds_push, burstIds_map]
    -- the copy in the register does not count
    refine Ledger.congr (hs.acceptRead hcount.fresh_notMem_reads hpos) (fun _ => rfl)
      (fun _ => rfl) fun i => ?_
    rw [hm.waiting_eq, held_cons_internal rfl]
    rfl
  | writeQueued =>
    rw [Phase.Ledger, hlen, State.writeIds, burstIds_push]
    exact (hs.symm.acceptRead (n := 2) hcount.fresh_notMem_writes (by decide)).symm

theorem Retried.ledger (h : Retried c up s s') (hcount : φ.Counted s)
    (hs : φ.Ledger s) : φ.Ledger s' :=
  h.keeps (P := φ.Ledger) hs fun _ _ _ h => h.ledger hcount hs

/-! ## Lookups -/

section Lookups

variable (hlink : Phase.start.Linked c s) (hs : Phase.start.Ledger s)
include hs

/-- The places while a read is looked up: it is in the queues, and its last burst
is at the front. -/
theorem LastBurst.ledger (h : LastBurst e s pkt) :
    Ledger (pkt.id :: burstIds (s.respQueue.drop 1 ++ s.readQueue)) s.writeIds
      s.mshrQueue.waiting s.responses s.accepted.length := by
  have hs : Ledger s.readIds _ _ _ _ := hs
  rwa [h.readIds_eq] at hs

/-- The places while a write is looked up. -/
theorem LastWriteBurst.ledger {rest : List DRAMPacket} (h : LastWriteBurst e s pkt rest) :
    Ledger (pkt.id :: burstIds (rest ++ s.writeQueue)) s.readIds s.mshrQueue.waiting
      s.responses s.accepted.length := by
  have hs : Ledger s.readIds s.writeIds _ _ _ := hs
  rw [h.writeIds_eq] at hs
  exact hs.symm

include hlink

/-- A write is answered. -/
theorem LastWriteBurst.ledger_respond {rest : List DRAMPacket} (h : LastWriteBurst e s pkt rest) :
    Ledger s.readIds (burstIds (rest ++ s.writeQueue)) s.mshrQueue.waiting
      (s.responses ++ [pkt]) s.accepted.length := by
  have hcount : Counted _ _ _ s.writeIds := hlink.counted
  rw [h.writeIds_eq] at hcount
  exact ((h.ledger hs).respond (hcount.writeBursts.notMem_of_last h.last)
    (h.isPacket hlink.pkts).external).symm

/-- A lookup hits while the memory was asked as well. -/
theorem OwnBurst.ledger_respond (h : OwnBurst e s pkt pr) (hclone : Phase.start.Cloned s)
    {first : Packet} {rest : List Packet}
    (htargets : (s.mshrQueue.registers pr.mshr).targets = first :: rest) (copy : Packet → Packet)
    (hid : ∀ t, (copy t).id = t.id) (hint : ∀ t, (copy t).internal = t.internal) {q : MSHRQueue}
    (hq : (s.mshrQueue.setTargets pr.mshr []).Frees pr.mshr q) :
    Ledger (burstIds (s.respQueue.drop 1 ++ s.readQueue)) s.writeIds q.waiting
      (s.responses ++ (pkt :: rest).map copy) s.accepted.length := by
  obtain ⟨hfirst, hrest⟩ := h.targets hlink hclone htargets
  have hlast := h.toLastBurst
  have hlook := hlast.ledger hs
  rw [← hid pkt] at hlook
  have hpkt := hlook.respond (by rw [hid]; exact hlast.notMem hlink)
    (by rw [hint]; exact (hlast.isPacket hlink.pkts).external)
  have hwaiting : ∀ i, q.waiting i + held i (rest.map copy) = s.mshrQueue.waiting i := by
    intro i
    rw [held_map hid hint, ← hq.waiting_eq, htargets, held_cons_internal hfirst]
  have hall := hpkt.release hwaiting (by simpa [hint] using hrest)
  rwa [List.append_assoc, List.singleton_append, ← List.map_cons] at hall

end Lookups

/-! ## The pieces of the handlers -/

theorem accessRead_id (s : State) (t : Packet) : (s.accessRead t).id = t.id := rfl

theorem accessRead_internal (s : State) (t : Packet) : (s.accessRead t).internal = t.internal := rfl

theorem Micro.ledger (h : Micro c e s₀ φ s φ' s') (hown : OwnEntries s₀ e) (hlink : φ.Linked c s)
    (hclone : φ.Cloned s) (hs : φ.Ledger s) : φ'.Ledger s' := by
  cases h with
  | request r _ h | retryCache _ _ _ h => exact h.ledger hlink.counted hs
  | retryWrite _ h | retryRead _ h => exact h.ledger (φ := .done) hlink.counted hs
  | serveRead b w d i p hp =>
    exact Ledger.congr hs (fun i => (queued_perm (burstIds_serve_perm _ hp) i).symm)
      (fun _ => rfl) fun _ => rfl
  | serveWrite b w d i p hp =>
    exact Ledger.congr hs (fun _ => rfl)
      (fun i => (queued_perm (burstIds_serve_perm _ hp) i).symm) fun _ => rfl
  | burst p rest d hq hmore =>
    have hids : s.readIds = p.pkt.id :: burstIds (rest ++ s.readQueue) := by
      simp [State.readIds, burstIds, hq]
    have hcount : Counted _ _ s.readIds _ := hlink.counted
    rw [hids] at hcount
    refine Ledger.congr hs (fun i => ?_) (fun _ => rfl) fun _ => rfl
    have hsame := queued_cons_of_mem (hcount.readBursts.mem_of_more hmore) i
    rw [← hids] at hsame
    exact hsame.symm
  | serialHit pkt hlast =>
    have hgone := hlast.notMem hlink
    exact (hlast.ledger hs).respond (t := s.accessRead pkt) hgone
      (hlast.isPacket hlink.pkts).external
  | serialCoalesced pkt m hlast _ _ hm | serialCoalescedLast pkt m hlast _ _ hm =>
    have hmem := (MSHRFile.findMatch_eq_some hm).1
    exact (hlast.ledger hs).wait (hlast.notMem hlink) fun i => by
      rw [MSHRQueue.allocateTarget_waiting hmem,
        held_singleton (hlast.isPacket hlink.pkts).external]
  | serialMiss pkt m q hlast _ _ _ hq =>
    exact (hlast.ledger hs).wait (hlast.notMem hlink) fun i => by
      rw [hq.waiting_eq, held_singleton (hlast.isPacket hlink.pkts).external]
  | pamDoneHit pkt pr _ _ hlast _ _ htargets hfree =>
    obtain ⟨q, b, pb, hq, rfl⟩ := hfree.frame
    exact (hown.burst hlast).ledger_respond hlink hs hclone htargets s.accessRead
      (accessRead_id s) (accessRead_internal s) hq
  | pamDoneMiss pkt pr first rest hlast _ _ htargets hfill hfree =>
    obtain ⟨_, _, _, _, _, _, _, _, rfl⟩ := hfill.frame
    obtain ⟨q, b, pb, hq, rfl⟩ := hfree.frame
    exact (hown.burst hlast).ledger_respond hlink hs hclone htargets
      (fun t => { t with data := first.data, stamp := first.stamp }) (fun _ => rfl)
      (fun _ => rfl) hq
  | pamHit pkt pr _ _ hlast _ _ htargets hfree =>
    obtain ⟨q, b, pb, hq, rfl⟩ := hfree.frame
    have hledger := (hown.burst hlast).ledger_respond hlink hs hclone htargets s.accessRead
      (accessRead_id s) (accessRead_internal s) hq
    split
    · exact hledger
    · exact hledger
  | pamMiss pkt pr hlast =>
    obtain ⟨reg, hreg, -⟩ := (hown.burst hlast).entry_eq hlink
    have hmem := (MSHRQueue.entries_eq_some.1 hreg).1
    have hburst := hlast.toLastBurst
    exact (hburst.ledger hs).wait (hburst.notMem hlink) fun i => by
      rw [MSHRQueue.allocateTarget_waiting hmem,
        held_singleton (hburst.isPacket hlink.pkts).external]
  | pop pkt d =>
    have hs : Ledger (burstIds (s.respQueue.drop 1 ++ _)) _ _ _ _ := hs
    rw [List.drop_one] at hs
    exact hs
  | writeBurst p rest d hq hmore =>
    have hids : s.writeIds = p.pkt.id :: burstIds (rest ++ s.writeQueue) := by
      simp [State.writeIds, burstIds, hq]
    have hcount : Counted _ _ _ s.writeIds := hlink.counted
    rw [hids] at hcount
    refine Ledger.congr hs (fun _ => rfl) (fun i => ?_) fun _ => rfl
    have hsame := queued_cons_of_mem (hcount.writeBursts.mem_of_more hmore) i
    rw [← hids] at hsame
    exact hsame.symm
  | writeHit pkt rest d hlast | writeMiss pkt rest d m q hlast | writeAllocClean pkt rest d hlast
  | writeAllocDirty pkt rest d m q hlast => exact hlast.ledger_respond hlink hs
  | sendNothing hw | sendRefused _ _ hw | sentWrite _ _ _ _ hw =>
    obtain ⟨_, _, rfl⟩ := hw.frame
    exact hs
  | sentMiss r target rest q hw _ _ hq =>
    obtain ⟨_, _, rfl⟩ := hw.frame
    exact Ledger.congr hs (fun _ => rfl) (fun _ => rfl) hq.waiting_eq
  | pamEarly i up p pr first rest _ _ _ hpr hhit htargets =>
    obtain ⟨reg, hreg, -⟩ := hlink.links.early p.addr pr hpr (by simp [hhit])
    have hmem := (MSHRQueue.entries_eq_some.1 hreg).1
    refine Ledger.congr hs (fun _ => rfl) (fun _ => rfl) fun i => ?_
    have hset := MSHRQueue.setTargets_waiting hmem
      ({ first with data := p.data, stamp := p.stamp } :: rest) i
    rw [htargets] at hset
    have hsame : held i ({ first with data := p.data, stamp := p.stamp } :: rest) =
        held i (first :: rest) := by
      simp [held, List.countP_cons]
    rw [hsame] at hset
    exact Nat.add_right_cancel hset
  | readAnswered p w hqueue _ _ _ hfill hfree =>
    have hext := hlink.external hqueue hclone
    obtain ⟨_, _, _, _, _, _, _, _, rfl⟩ := hfill.frame
    obtain ⟨q, b, pb, hq, rfl⟩ := hfree.frame
    refine Ledger.release hs (fun i => ?_) ?_
    · rw [held_map (accessRead_id _) (accessRead_internal _)]
      exact hq.waiting_eq i
    · simpa [accessRead_internal] using hext
  | writeAnswered p w _ _ _ hfree =>
    obtain ⟨q, b, pb, hq, rfl⟩ := hfree.frame_writeBuffer
    exact hs
  | pamAnswered p w first rest _ htargets hfree =>
    obtain ⟨hfirst, hrest⟩ := hlink.clone hclone htargets
    obtain ⟨q, b, pb, hq, rfl⟩ := hfree.frame
    have hwaiting : ∀ i, q.waiting i + held i (rest.map fun t =>
        { t with data := p.data, stamp := p.stamp }) = s.mshrQueue.waiting i := by
      intro i
      rw [held_map (f := fun t => { t with data := p.data, stamp := p.stamp })
        (fun _ => rfl) fun _ => rfl, ← held_cons_internal hfirst, ← htargets]
      exact hq.waiting_eq i
    exact Ledger.release hs hwaiting (by simpa using hrest)
  | filled p hfill =>
    obtain ⟨_, _, _, _, _, _, _, _, rfl⟩ := hfill.frame
    exact hs
  | _ => exact hs

/-- All that the packets and the answers keep up. -/
structure Phase.Settled (c : Config) (φ : Phase) (s : State) : Prop where
  linked : φ.Linked c s
  owes : φ.Owes s
  cloned : φ.Cloned s
  ledger : φ.Ledger s

theorem State.init_settled (c : Config) (store : ℕ → Data) :
    Phase.start.Settled c (State.init c store) where
  linked := State.init_linked c store
  owes := ⟨fun _ _ => rfl, nofun, fun _ => rfl, nofun, nofun⟩
  cloned := ⟨nofun, nofun⟩
  ledger := by
    refine ⟨fun i => ?_, nofun⟩
    have hnone : (State.init c store).mshrQueue.waiting i = 0 := by
      unfold MSHRQueue.waiting tableSum
      exact Finset.sum_eq_zero fun _ _ => rfl
    rw [hnone]
    rfl

/-- The condition on the steps of a run. -/
def MatchesAnswers (c : Config) (s : State) (e : Event) : Prop :=
  Demands (fun _ r => c.Aligned r.addr) s e ∧ AnswersMatch s e ∧ OwnEntries s e

theorem Micro.settled (h : Micro c e s₀ φ s φ' s') (hok : MatchesAnswers c s₀ e)
    (hfound : AnswersFound s₀ e) (hs : φ.Settled c s) : φ'.Settled c s' where
  linked := h.linked hok.1 hok.2.2 hfound hs.linked
  owes := h.owes hok.1 hok.2.1 hok.2.2 hs.linked hs.owes
  cloned := h.cloned hok.1 hok.2.2 hs.linked hs.cloned
  ledger := h.ledger hok.2.2 hs.linked hs.cloned hs.ledger

theorem Reaches.settled (h : Reaches c (MatchesAnswers c) s) :
    Phase.start.Settled c s := by
  refine h.invariant_of_handlers (I := Phase.start.Settled c)
    (J := fun e s₀ φ s => AnswersFound s₀ e ∧ φ.Settled c s) ?_ ?_ ?_ ?_
  · exact State.init_settled c
  · exact fun e s₀ _ hs => ⟨hs.owes.answersFound, hs⟩
  · exact fun e s₀ hok φ s φ' s' hs hmicro => ⟨hs.1, hmicro.settled hok hs.1 hs.2⟩
  · rintro e s₀ s ⟨-, hs⟩
    exact ⟨⟨hs.linked.pkts, hs.linked.counted, hs.linked.links, hs.linked.waits⟩,
      hs.owes, hs.cloned, hs.ledger⟩

/-- The packet of each accepted request is in exactly one place: in the queues of
reads, in the queues of writes, among the targets of one miss, or answered, and
then once.  No copy was sent upstream, and the assertions of `recvTimingResp` on
targets hold. -/
theorem answered_exactly_once (h : Reaches c (MatchesAnswers c) s) :
    (∀ i, queued i s.readIds + queued i s.writeIds + s.mshrQueue.waiting i +
      held i s.responses = if i < s.accepted.length then 1 else 0) ∧
    (∀ t ∈ s.responses, t.internal = false) ∧
    ∀ e, MatchesAnswers c s e → ∀ f, isTargetFault f = true → step c s e ≠ .error f := by
  have hs := h.settled
  refine ⟨hs.ledger.once, hs.ledger.upstream, fun e hok f hf => ?_⟩
  refine step_ne_error (I := fun φ s => φ.Settled c s) hs ?_ ?_
  · exact fun φ s φ' s' hs hmicro => hmicro.settled hok h.settled.owes.answersFound hs
  · exact fun φ s hs => Phase.Owes.not_fails hf hok.2.1 hs.linked hs.owes

instance (s : State) (e : Event) : Decidable (AnswersMatch s e ∧ OwnEntries s e) := by
  cases e <;> unfold AnswersMatch OwnEntries <;> infer_instance

namespace Scenario

/-- A block is in the cache.  A CPU reads it, and the memory is asked as well: the
lookup hits before the memory answers. -/
def hitBeforeAnswer : List Event :=
  fill 0 1 ++ [serveNext, serveNext, serveNext, serveNext] ++
    .recvTimingReq (cpuRead 0 false) :: send 6 ++ lookup

/-- The block is evicted.  Another miss takes the register that the hit freed, and
the block is read again with a second register, while the first answer for it is
still to come. -/
def twoReadsOfOneBlock : List Event :=
  hitBeforeAnswer ++ .recvTimingReq (gpuRead 4) :: lookup ++ send 7 ++
    [answer 1, serveNext, serveNext, serveNext, serveNext] ++
    .recvTimingReq (gpuRead 5) :: lookup ++
    .recvTimingReq (gpuRead 0) :: lookup ++ send 8 ++ send 9

theorem hitBeforeAnswer_asks {P : TimingReq → Prop} (h : P (gpuRead 0))
    (h' : P (cpuRead 0 false)) : ∀ e ∈ hitBeforeAnswer, e.Asks P := by
  simp [hitBeforeAnswer, fill, send, lookup, answer, serveNext, Event.Asks,
    Event.upstream, quiet, h, h']

end Scenario

open Scenario in
/-- The answer comes after the hit, and two requests have two responses. -/
theorem late_answer_is_dropped :
    let s := State.ofRun config blank (hitBeforeAnswer ++ [answer 0])
    s.accepted.length = 2 ∧ s.mem = [] ∧ ∀ i, queued i s.readIds +
      queued i s.writeIds + s.mshrQueue.waiting i + held i s.responses =
        if i < s.accepted.length then 1 else 0 := by
  refine ⟨by decide +kernel, by decide +kernel, ?_⟩
  refine (answered_exactly_once (c := config) ?_).1
  refine reaches_ofRun (Meets.and ?_ (by decide +kernel)) (by decide +kernel)
  refine Meets.of_forall fun e he s =>
    demands_of_asks (P := fun r => config.Aligned r.addr) ?_
  revert e
  refine List.forall_mem_append.2 ⟨hitBeforeAnswer_asks rfl rfl, ?_⟩
  simp [answer, Event.Asks, Event.upstream, quiet]

open Scenario in
/-- The answer to the second read is taken for the one that the hit left behind,
and dropped.  The packet then waits for an answer that will not come, and the
first answer fails an assertion: its register belongs to another block. -/
theorem answer_is_swallowed : ∃ s, Reaches config (Demands fun _ r => config.Aligned r.addr) s ∧
      ∃ s', step config s (answer 2) = .ok s' ∧
        (s'.mshrQueue.waiting 4 = 1 ∧ s'.mem.all fun p => p.mshr = 0) ∧
        step config s' (answer 0) = .error .respTargetAddr := by
  refine ⟨State.ofRun config blank twoReadsOfOneBlock, ?_, ?_⟩
  · refine reaches_ofRun (Meets.of_forall fun e he s => ?_) (by decide +kernel)
    refine demands_of_asks (P := fun r => config.Aligned r.addr) ?_
    revert e
    simp only [twoReadsOfOneBlock, List.forall_mem_append, List.forall_mem_cons]
    have hlookup : ∀ e ∈ lookup, e.Asks fun r => config.Aligned r.addr := by
      simp [lookup, serveNext, Event.Asks, Event.upstream, quiet]
    have hsend : ∀ t, ∀ e ∈ send t, e.Asks fun r => config.Aligned r.addr := by
      simp [send, Event.Asks, Event.upstream, quiet]
    have hanswer : ∀ e ∈ [answer 1, serveNext, serveNext, serveNext, serveNext],
        e.Asks fun r => config.Aligned r.addr := by
      simp [answer, serveNext, Event.Asks, Event.upstream, quiet]
    simp only [List.forall_mem_cons] at hanswer
    exact ⟨⟨⟨⟨⟨⟨⟨hitBeforeAnswer_asks rfl rfl, rfl, hlookup⟩, hsend 7⟩, hanswer⟩, rfl,
      hlookup⟩, rfl, hlookup⟩, hsend 8⟩, hsend 9⟩
  · obtain ⟨s', hs', hwaits, hfails⟩ := Post.exists_ok
      (x := step config (State.ofRun config blank twoReadsOfOneBlock) (answer 2))
      (Q := fun s' => (s'.mshrQueue.waiting 4 = 1 ∧ s'.mem.all fun p => p.mshr = 0) ∧
        Post (step config s' (answer 0)) (· = .respTargetAddr) fun _ => False)
      (by decide +kernel)
    exact ⟨s', hs', hwaits, hfails.eq_error⟩

end Gem5Gpu.DRAMCache
