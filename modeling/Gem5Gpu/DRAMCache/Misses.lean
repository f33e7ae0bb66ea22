import Gem5Gpu.DRAMCache.Bursts
import Gem5Gpu.DRAMCache.Packets

/-!
# Outstanding misses

A miss is outstanding while a register of `mshrQueue` is allocated for its
block.  A read that is predicted to miss gets such a register before its lookup,
and an entry of `pamQueue` remembers it.  This module is about how the two fit
together.

* `Joins` lists what a request can do to the outstanding misses.
* `Linked` is the invariant: the packets that wait for a miss are all for its
  block, an entry of `pamQueue` points to the register of its block until the
  lookup hits, and an entry whose lookup is done belongs to a read that has left
  the queues.
* `AnswersFound` is what the invariant needs of the memory: an answer without an
  entry of `pamQueue` is for the register of its block.  `OwnEntries` is what it
  needs of the upstream port: the address of a packet that has an entry of
  `pamQueue` is not that of another read.  The code checks neither.

All of this is about requests that are aligned to blocks.
-/

namespace Gem5Gpu.DRAMCache

open Mem Lib Function

variable {c : Config} {e : Event} {up : Upstream} {s s' s₀ s₁ : State}
  {r : TimingReq} {φ φ' : Phase} {m a : ℕ} {w : Bool} {p : MemPacket}
  {pkt : Packet} {pr : PamReq} {reg : MSHR}

/-- An address of a block. -/
def Config.Aligned (c : Config) (a : ℕ) : Prop := c.blockAlign a = a

/-! ## What a request does to the misses -/

/-- The register of a packet that was just taken. -/
def newMiss (blkAddr : ℕ) (pkt : Packet) (time order : ℕ) : MSHR :=
  { blkAddr := blkAddr, readyTime := time, order := order, targets := [pkt] }

/-- One more packet waits for a miss. -/
def MSHR.addTarget (reg : MSHR) (pkt : Packet) : MSHR :=
  { reg with targets := reg.targets ++ [pkt] }

/-- The ways in which a request can change the registers, `pamQueue` and the
list of accepted requests. -/
inductive Joins (c : Config) (s : State) (r : TimingReq) (pam : ℕ → Option PamReq) :
    (ℕ → Option MSHR) → (ℕ → Option PamReq) → List TimingReq → Prop
  | same (acc : List TimingReq) : Joins c s r pam s.mshrQueue.entries pam acc
  | coalesced (m : ℕ) (reg : MSHR) (hm : s.mshrQueue.entries m = some reg)
      (hblk : reg.blkAddr = c.blockAlign r.addr) :
      Joins c s r pam (update s.mshrQueue.entries m
        (some (MSHR.addTarget reg (s.newPacket r)))) pam (s.accepted ++ [r])
  | taken (m t : ℕ) (hfree : s.mshrQueue.entries m = none)
      (hnone : ∀ i reg, s.mshrQueue.entries i = some reg → reg.blkAddr ≠ c.blockAlign r.addr) :
      Joins c s r pam (update s.mshrQueue.entries m
        (some (newMiss (c.blockAlign r.addr) (s.newPacket r) t s.order))) pam (s.accepted ++ [r])
  | early (m t : ℕ) (hfree : s.mshrQueue.entries m = none)
      (hnone : ∀ i reg, s.mshrQueue.entries i = some reg → reg.blkAddr ≠ c.blockAlign r.addr)
      (hpam : pam r.addr = none) :
      Joins c s r pam (update s.mshrQueue.entries m (some (newMiss (c.blockAlign r.addr)
          { s.newPacket r with internal := true } t s.order)))
        (update pam (c.blockAlign r.addr)
          (some { mshr := m, pkt := (s.newPacket r).ptr, id := s.accepted.length }))
        (s.accepted ++ [r])

theorem allocateTarget_entries {q : MSHRQueue} (h : q.entries m = some reg) :
    (q.allocateTarget m pkt).entries = update q.entries m (some (MSHR.addTarget reg pkt)) := by
  obtain ⟨-, hreg⟩ := MSHRQueue.entries_eq_some.1 h
  rw [MSHRQueue.allocateTarget, MSHRQueue.setTargets_entries, h, hreg]
  rfl

theorem Recv.joins (h : Recv c s r s') :
    Joins c s r s.pamQueue s'.mshrQueue.entries s'.pamQueue s'.accepted := by
  cases h with
  | coalesced m _ hm | coalescedLast m _ hm =>
    obtain ⟨hreg, hblk⟩ := MSHRQueue.findMatch_entries hm
    simp only [allocateTarget_entries hreg]
    exact .coalesced m _ hreg hblk
  | bypassTagRead m q hmiss _ _ hq | bypassed m q log hmiss _ _ hq =>
    simp only [hq.entries_eq]
    exact .taken m _ hq.entries_self fun i reg =>
      MSHRQueue.findMatch_eq_none_entries hmiss.noMiss
  | readPam m q hqueues _ _ hpam _ hq =>
    simp only [hq.entries_eq]
    exact .early m _ hq.entries_self
      (fun i reg => MSHRQueue.findMatch_eq_none_entries hqueues.noMiss) hpam
  | _ => exact .same _

/-! ## The invariant -/

/-- The registers, `pamQueue` and the queued reads fit together. -/
structure Linked (entries : ℕ → Option MSHR) (pam : ℕ → Option PamReq)
    (reads : List ℕ) (fresh : ℕ) : Prop where
  waiting : ∀ m reg, entries m = some reg →
    reg.targets ≠ [] ∧ ∀ t ∈ reg.targets, t.addr = reg.blkAddr
  early : ∀ a pr, pam a = some pr → pr.isHit ≠ some true →
    ∃ reg, entries pr.mshr = some reg ∧ reg.blkAddr = a
  bound : ∀ a pr, pam a = some pr → pr.id < fresh
  looked : ∀ a pr, pam a = some pr → pr.isHit ≠ none → pr.id ∉ reads

/-- The entries of `pamQueue` that a handler is about to delete. -/
def Phase.gone : Phase → List ℕ
  | .forgetting pkt => [pkt.addr]
  | .filling p => [p.addr]
  | _ => []

/-- `pamQueue` without the entries that are about to be deleted. -/
def Phase.pam (φ : Phase) (s : State) (a : ℕ) : Option PamReq :=
  if a ∈ φ.gone then none else s.pamQueue a

/-- What a handler relies on while it works on an answer: the entry of
`pamQueue`, or the register of the answer. -/
def Phase.Waits (φ : Phase) (s : State) : Prop :=
  match φ with
  | .answering p _ true | .released p _ true | .consuming p _ true =>
    ∃ pr, s.pamQueue p.addr = some pr ∧ pr.isHit = some false ∧ pr.mshr = p.mshr
  | .answering p _ false | .released p _ false | .consuming p _ false =>
    p.queue = .mshrs → ∃ reg, s.mshrQueue.entries p.mshr = some reg ∧
      reg.blkAddr = p.addr ∧ s.pamQueue p.addr = none
  | .forgetting pkt => s.pamQueue pkt.addr ≠ none
  | .filling p => s.pamQueue p.addr ≠ none
  | _ => True

/-- All that is known about the outstanding misses at a point of a handler. -/
structure Phase.Linked (c : Config) (φ : Phase) (s : State) : Prop where
  pkts : φ.Carries c.Aligned s
  counted : φ.Counted s
  links : DRAMCache.Linked s.mshrQueue.entries (φ.pam s) (φ.readIds s) s.accepted.length
  waits : φ.Waits s

/-- An answer for a block without an entry of `pamQueue` is for a register that
is allocated for the block. -/
def AnswersFound (s : State) : Event → Prop
  | .recvTimingResp i _ => ∀ p ∈ s.mem[i]?, p.queue = .mshrs →
      s.pamQueue p.addr = none → p.mshr ∈ s.mshrQueue.allocatedList ∧
        (s.mshrQueue.registers p.mshr).blkAddr = p.addr
  | _ => True

/-- The last burst of a read whose own entry is in `pamQueue`. -/
structure OwnBurst (e : Event) (s : State) (pkt : Packet) (pr : PamReq) : Prop
    extends LastPamBurst e s pkt pr where
  own : pr.id = pkt.id

/-- A read that is looked up does not lie where the packet of another entry of
`pamQueue` lay. -/
def OwnEntries (s : State) : Event → Prop
  | .processRespondEvent _ => ∀ b ∈ s.respQueue.head?, ∀ pr ∈ s.pamQueue b.pkt.addr,
      s.burstsServiced b.pkt.id + 1 = 2 → pr.pkt = b.pkt.ptr → pr.id = b.pkt.id
  | _ => True

theorem OwnEntries.burst (h : OwnEntries s e) (hlast : LastPamBurst e s pkt pr) :
    OwnBurst e s pkt pr := by
  obtain ⟨up, rfl⟩ := hlast.event
  obtain ⟨burst, rest, hq⟩ := hlast.front
  exact ⟨hlast, h ⟨pkt, burst⟩ (by simp [hq]) pr hlast.entry hlast.last hlast.pkt_ptr⟩

/-! ## Changes of the registers and of `pamQueue` -/

namespace Linked

variable {entries : ℕ → Option MSHR} {pam : ℕ → Option PamReq}
  {reads reads' : List ℕ} {fresh fresh' : ℕ}

variable (h : Linked entries pam reads fresh)
include h

/-- Reads leave the queues. -/
theorem mono (hreads : reads' ⊆ reads)
    (hle : fresh ≤ fresh') : Linked entries pam reads' fresh' := {
  h with
  bound a pr hpr := (h.bound a pr hpr).trans_le hle
  looked a pr hpr hhit hmem := h.looked a pr hpr hhit (hreads hmem) }

/-- A new read enters. -/
theorem push (n : ℕ) : Linked entries pam (reads ++ List.replicate n fresh) (fresh + 1) := {
  h with
  bound a pr hpr := (h.bound a pr hpr).trans (Nat.lt_succ_self _)
  looked a pr hpr hhit hmem := by
    rcases List.mem_append.1 hmem with hmem | hmem
    · exact h.looked a pr hpr hhit hmem
    · have hlt := h.bound a pr hpr
      rw [List.eq_of_mem_replicate hmem] at hlt
      exact hlt.ne rfl }

/-- A register changes, but it stays allocated for its block. -/
theorem set {reg' : MSHR} (hm : entries m = some reg) (hblk : reg'.blkAddr = reg.blkAddr)
    (hne : reg'.targets ≠ []) (haddr : ∀ t ∈ reg'.targets, t.addr = reg.blkAddr) :
    Linked (update entries m (some reg')) pam reads fresh := {
  h with
  waiting i reg₁ hi := by
    rcases update_eq_some hi with ⟨-, ⟨⟩⟩ | ⟨-, hi⟩
    · exact ⟨hne, hblk ▸ haddr⟩
    · exact h.waiting i reg₁ hi
  early a pr hpr hhit := by
    obtain ⟨reg₁, hreg₁, ha⟩ := h.early a pr hpr hhit
    by_cases him : pr.mshr = m
    · rw [him, hm] at hreg₁
      cases hreg₁
      exact ⟨reg', by rw [him, update_self], hblk.trans ha⟩
    · exact ⟨reg₁, by rw [update_of_ne him]; exact hreg₁, ha⟩ }

/-- A packet is added to the targets of a miss. -/
theorem addTarget (hm : entries m = some reg) (hpkt : pkt.addr = reg.blkAddr) :
    Linked (update entries m (some (MSHR.addTarget reg pkt))) pam reads
      fresh := by
  refine h.set hm rfl (by simp [MSHR.addTarget]) fun t ht => ?_
  rcases List.mem_append.1 ht with ht | ht
  · exact (h.waiting m reg hm).2 t ht
  · rw [List.mem_singleton.1 ht]
    exact hpkt

/-- A free register is taken. -/
theorem take (hfree : entries m = none)
    (hne : reg.targets ≠ []) (haddr : ∀ t ∈ reg.targets, t.addr = reg.blkAddr) :
    Linked (update entries m (some reg)) pam reads fresh := {
  h with
  waiting i reg' hi := by
    rcases update_eq_some hi with ⟨-, ⟨⟩⟩ | ⟨-, hi⟩
    · exact ⟨hne, haddr⟩
    · exact h.waiting i reg' hi
  early a pr hpr hhit := by
    obtain ⟨reg₁, hreg₁, ha⟩ := h.early a pr hpr hhit
    have him : pr.mshr ≠ m := by
      rintro rfl
      rw [hfree] at hreg₁
      cases hreg₁
    exact ⟨reg₁, by rw [update_of_ne him]; exact hreg₁, ha⟩ }

/-- A register is freed that no entry needs any more. -/
theorem free (hm : ∀ a pr, pam a = some pr → pr.isHit ≠ some true → pr.mshr ≠ m) :
    Linked (update entries m none) pam reads fresh := {
  h with
  waiting i reg hi := by
    rcases update_eq_some hi with ⟨-, ⟨⟩⟩ | ⟨-, hi⟩
    exact h.waiting i reg hi
  early a pr hpr hhit := by
    obtain ⟨reg, hreg, ha⟩ := h.early a pr hpr hhit
    exact ⟨reg, by rw [update_of_ne (hm a pr hpr hhit)]; exact hreg, ha⟩ }

/-- An entry of `pamQueue` changes. -/
theorem setPam (hbound : pr.id < fresh) (hlooked : pr.isHit ≠ none → pr.id ∉ reads)
    (hearly : pr.isHit ≠ some true → ∃ reg, entries pr.mshr = some reg ∧ reg.blkAddr = a) :
    Linked entries (update pam a (some pr)) reads fresh where
  waiting := h.waiting
  early b pr' hpr := by
    rcases update_eq_some hpr with ⟨rfl, ⟨⟩⟩ | ⟨-, hpr⟩
    · exact hearly
    · exact h.early b pr' hpr
  bound b pr' hpr := by
    rcases update_eq_some hpr with ⟨-, ⟨⟩⟩ | ⟨-, hpr⟩
    · exact hbound
    · exact h.bound b pr' hpr
  looked b pr' hpr := by
    rcases update_eq_some hpr with ⟨-, ⟨⟩⟩ | ⟨-, hpr⟩
    · exact hlooked
    · exact h.looked b pr' hpr

/-- An entry of `pamQueue` is deleted. -/
theorem erasePam (a : ℕ) : Linked entries (update pam a none) reads fresh where
  waiting := h.waiting
  early b pr hpr := by
    rcases update_eq_some hpr with ⟨-, ⟨⟩⟩ | ⟨-, hpr⟩
    exact h.early b pr hpr
  bound b pr hpr := by
    rcases update_eq_some hpr with ⟨-, ⟨⟩⟩ | ⟨-, hpr⟩
    exact h.bound b pr hpr
  looked b pr hpr := by
    rcases update_eq_some hpr with ⟨-, ⟨⟩⟩ | ⟨-, hpr⟩
    exact h.looked b pr hpr

/-- Two entries that still need their registers have different ones. -/
theorem mshr_inj {a' : ℕ} {pr' : PamReq} (hpr : pam a = some pr) (hhit : pr.isHit ≠ some true)
    (hpr' : pam a' = some pr') (hhit' : pr'.isHit ≠ some true)
    (heq : pr.mshr = pr'.mshr) : a = a' := by
  obtain ⟨reg, hreg, rfl⟩ := h.early a pr hpr hhit
  obtain ⟨reg', hreg', rfl⟩ := h.early a' pr' hpr' hhit'
  rw [heq, hreg'] at hreg
  cases hreg
  rfl

end Linked

/-! ## Requests -/

section Requests

variable {entries : ℕ → Option MSHR} {pam pam' : ℕ → Option PamReq} {acc : List TimingReq}

/-- A request leaves the registers of the other blocks, and only adds a packet to
the one of its own. -/
theorem Joins.entry (h : Joins c s r pam entries pam' acc) (hm : s.mshrQueue.entries m = some reg) :
    ∃ reg', entries m = some reg' ∧ reg'.blkAddr = reg.blkAddr := by
  cases h with
  | same => exact ⟨reg, hm, rfl⟩
  | coalesced i reg₁ hi =>
    by_cases him : m = i
    · subst him
      rw [hm] at hi
      cases hi
      exact ⟨_, update_self .., rfl⟩
    · exact ⟨reg, by rw [update_of_ne him]; exact hm, rfl⟩
  | taken i t hfree | early i t hfree =>
    have him : m ≠ i := by
      rintro rfl
      rw [hm] at hfree
      cases hfree
    exact ⟨reg, by rw [update_of_ne him]; exact hm, rfl⟩

/-- A request leaves the entries of `pamQueue`. -/
theorem Joins.pam_some (h : Joins c s r pam entries pam' acc)
    (hr : c.Aligned r.addr) (hpr : pam a = some pr) : pam' a = some pr := by
  cases h with
  | early i t hfree hnone hpam =>
    have ha : a ≠ c.blockAlign r.addr := by
      rw [hr]
      rintro rfl
      rw [hpr] at hpam
      cases hpam
    rw [update_of_ne ha]
    exact hpr
  | _ => exact hpr

/-- A request adds no entry for a block that has a register. -/
theorem Joins.pam_none (h : Joins c s r pam entries pam' acc)
    (hm : s.mshrQueue.entries m = some reg) (hpam : pam reg.blkAddr = none) :
    pam' reg.blkAddr = none := by
  cases h with
  | early i t hfree hnone =>
    rw [update_of_ne (hnone m reg hm)]
    exact hpam
  | _ => exact hpam

theorem Joins.links {reads : List ℕ} (h : Joins c s r pam entries pam' acc) (hr : c.Aligned r.addr)
    (hs : Linked s.mshrQueue.entries pam reads acc.length) :
    Linked entries pam' reads acc.length := by
  cases h with
  | same => exact hs
  | coalesced m reg hm hblk => exact hs.addTarget hm (hr.symm.trans hblk.symm)
  | taken m t hfree =>
    refine hs.take hfree (by simp [newMiss]) ?_
    simp only [newMiss, List.forall_mem_singleton]
    exact hr.symm
  | early m t hfree hnone hnew =>
    rw [hr]
    refine (hs.take hfree (by simp [newMiss]) ?_).setPam ?_ (fun h => ?_) ?_
    · simp only [newMiss, List.forall_mem_singleton]
      rfl
    · simp
    · cases h rfl
    · exact fun _ => ⟨_, update_self .., rfl⟩

end Requests

/-- The queued reads and the number of accepted requests after a request. -/
theorem Recv.readIds (h : Recv c s r s') (φ : Phase) :
    φ.readIds s' = φ.readIds s ∧ s.accepted.length ≤ s'.accepted.length ∨
      ∃ n, φ.readIds s' = φ.readIds s ++ List.replicate n s.accepted.length ∧
        s'.accepted.length = s.accepted.length + 1 := by
  have hlen : (s.accepted ++ [r]).length = s.accepted.length + 1 := by simp
  cases h with
  | readQueued | readPam =>
    exact .inr ⟨_, by rw [Phase.readIds, burstIds_push, burstIds_map]; rfl, hlen⟩
  | dropped | blocked | readRefused | writeRefused => exact .inl ⟨rfl, le_rfl⟩
  | _ => exact .inl ⟨rfl, hlen ▸ Nat.le_succ _⟩

theorem Phase.pam_update {v : Option PamReq}
    (hs : s'.pamQueue = update s.pamQueue a v) (ha : a ∉ φ.gone) :
    φ.pam s' = update (φ.pam s) a v := by
  funext b
  by_cases hb : b = a
  · subst hb
    simp [Phase.pam, hs, ha]
  · simp [Phase.pam, hs, hb]

/-- An entry that is about to be deleted counts as deleted. -/
theorem Phase.pam_of_gone (h : φ.gone = [a]) {f : ℕ → Option PamReq}
    (hs : ∀ b, b ≠ a → s.pamQueue b = f b) : φ.pam s = update f a none := by
  funext b
  by_cases hb : b = a
  · subst hb
    simp [Phase.pam, h]
  · simp [Phase.pam, h, hb, hs b hb]

/-- The entry that is about to be deleted is still there. -/
theorem Phase.Waits.gone (h : φ.Waits s) : ∀ a ∈ φ.gone, s.pamQueue a ≠ none := by
  cases φ with
  | forgetting pkt | filling p =>
    rw [Phase.gone, List.forall_mem_singleton]
    exact h
  | _ => exact nofun

section

variable (h : Recv c s r s') (hr : c.Aligned r.addr)
include h hr

/-- What a request does to the misses, without the entries that are about to be deleted. -/
theorem Recv.joins_pam (hs : φ.Waits s) :
    Joins c s r (φ.pam s) s'.mshrQueue.entries (φ.pam s') s'.accepted := by
  have hj := h.joins
  generalize s'.mshrQueue.entries = entries at hj ⊢
  generalize hpam : s'.pamQueue = pam at hj
  generalize s'.accepted = acc at hj ⊢
  have hsame : s'.pamQueue = s.pamQueue → φ.pam s' = φ.pam s := fun heq => by
    funext b
    simp [Phase.pam, heq]
  cases hj with
  | same =>
    rw [hsame hpam]
    exact .same acc
  | coalesced m reg hm hblk =>
    rw [hsame hpam]
    exact .coalesced m reg hm hblk
  | taken m t hfree hnone =>
    rw [hsame hpam]
    exact .taken m t hfree hnone
  | early m t hfree hnone hnew =>
    have hgone : c.blockAlign r.addr ∉ φ.gone := fun hmem => hs.gone _ hmem (hr.symm ▸ hnew)
    rw [Phase.pam_update hpam hgone]
    exact .early m t hfree hnone (by simp [Phase.pam, hnew])

theorem Recv.links (hs : φ.Linked c s) :
    Linked s'.mshrQueue.entries (φ.pam s') (φ.readIds s') s'.accepted.length := by
  have hlinks : Linked s.mshrQueue.entries (φ.pam s) (φ.readIds s')
      s'.accepted.length := by
    rcases h.readIds φ with ⟨hreads, hle⟩ | ⟨n, hreads, hlen⟩
    · rw [hreads]
      exact hs.links.mono (List.Subset.refl _) hle
    · rw [hreads, hlen]
      exact hs.links.push n
  exact (h.joins_pam hr hs.waits).links hr hlinks

theorem Recv.waits (hs : φ.Waits s) : φ.Waits s' := by
  have hj := h.joins
  have hpam : ∀ {a}, s.pamQueue a ≠ none → s'.pamQueue a ≠ none := by
    intro a ha
    obtain ⟨pr, hpr⟩ := Option.ne_none_iff_exists'.1 ha
    rw [hj.pam_some hr hpr]
    exact Option.some_ne_none _
  have hanswer : ∀ {p : MemPacket}, (∃ pr, s.pamQueue p.addr = some pr ∧
      pr.isHit = some false ∧ pr.mshr = p.mshr) →
      ∃ pr, s'.pamQueue p.addr = some pr ∧ pr.isHit = some false ∧ pr.mshr = p.mshr := by
    rintro p ⟨pr, hpr, hrest⟩
    exact ⟨pr, hj.pam_some hr hpr, hrest⟩
  have hserial : ∀ {p : MemPacket}, (p.queue = .mshrs →
      ∃ reg, s.mshrQueue.entries p.mshr = some reg ∧ reg.blkAddr = p.addr ∧
        s.pamQueue p.addr = none) →
      p.queue = .mshrs → ∃ reg, s'.mshrQueue.entries p.mshr = some reg ∧
        reg.blkAddr = p.addr ∧ s'.pamQueue p.addr = none := by
    intro p hp hqueue
    obtain ⟨reg, hreg, haddr, hnone⟩ := hp hqueue
    obtain ⟨reg', hreg', hblk⟩ := hj.entry hreg
    rw [← haddr] at hnone ⊢
    exact ⟨reg', hreg', hblk, hj.pam_none hreg hnone⟩
  unfold Phase.Waits at hs ⊢
  split at hs
  · exact hanswer hs
  · exact hanswer hs
  · exact hanswer hs
  · exact hserial hs
  · exact hserial hs
  · exact hserial hs
  · exact hpam hs
  · exact hpam hs
  · trivial

theorem Recv.linked
    (hs : φ.Linked c s) : φ.Linked c s' where
  pkts := h.carries hr hs.pkts
  counted := h.counted hs.counted
  links := h.links hr hs
  waits := h.waits hr hs.waits

end

theorem Phase.Linked.logRetry (hs : φ.Linked c s) : φ.Linked c s.logRetry :=
  ⟨hs.pkts, hs.counted, hs.links, hs.waits⟩

theorem Retried.linked (h : Retried c up s s')
    (hup : ∀ s r, up s = some r → c.Aligned r.addr) (hs : φ.Linked c s) : φ.Linked c s' :=
  h.keeps (P := φ.Linked c) hs.logRetry fun r _ hr h => h.linked (hup _ r hr) hs.logRetry

/-! ## Lookups -/

section Lookups

variable (hs : Phase.start.Linked c s)
include hs

theorem LastBurst.aligned (h : LastBurst e s pkt) : c.Aligned pkt.addr :=
  (h.isPacket hs.pkts).addr

/-- The reads that stay queued when one is looked up. -/
theorem LastBurst.links (h : LastBurst e s pkt) : Linked s.mshrQueue.entries s.pamQueue
      (burstIds (s.respQueue.drop 1 ++ s.readQueue)) s.accepted.length := by
  have hlinks : Linked _ _ s.readIds _ := hs.links
  rw [h.readIds_eq] at hlinks
  exact hlinks.mono (List.subset_cons_self _ _) le_rfl

/-- The read that is looked up has left the queues. -/
theorem LastBurst.notMem (h : LastBurst e s pkt) :
    pkt.id ∉ burstIds (s.respQueue.drop 1 ++ s.readQueue) := by
  have hcount : Counted _ _ s.readIds _ := hs.counted
  rw [h.readIds_eq] at hcount
  exact hcount.readBursts.notMem_of_last h.last

variable (h : OwnBurst e s pkt pr)
include h

/-- The entry of `pamQueue` is new when its packet is looked up. -/
theorem OwnBurst.isHit_eq : pr.isHit = none := by
  by_contra hne
  refine hs.links.looked pkt.addr pr h.entry hne ?_
  rw [h.own]
  have hids : pkt.id ∈ s.readIds := by
    rw [h.toLastBurst.readIds_eq]
    exact List.mem_cons_self
  exact hids

/-- The register of the packet that is looked up. -/
theorem OwnBurst.entry_eq :
    ∃ reg, s.mshrQueue.entries pr.mshr = some reg ∧ reg.blkAddr = pkt.addr :=
  hs.links.early pkt.addr pr h.entry (by simp [h.isHit_eq hs])

/-- No other entry of `pamQueue` needs the register. -/
theorem OwnBurst.unique {b : ℕ} {pr' : PamReq} (hpr : s.pamQueue b = some pr')
    (hhit : pr'.isHit ≠ some true) (heq : pr'.mshr = pr.mshr) : b = pkt.addr :=
  hs.links.mshr_inj hpr hhit h.entry (by simp [h.isHit_eq hs]) heq

/-- The register is freed, and the entry is deleted. -/
theorem OwnBurst.links_free : Linked (update s.mshrQueue.entries pr.mshr none)
      (update s.pamQueue pkt.addr none)
      (burstIds (s.respQueue.drop 1 ++ s.readQueue)) s.accepted.length := by
  refine ((h.toLastBurst.links hs).erasePam pkt.addr).free fun b pr' hpr hhit heq => ?_
  rcases update_eq_some hpr with ⟨-, ⟨⟩⟩ | ⟨hne, hpr⟩
  exact hne (h.unique hs hpr hhit heq)

/-- The register is freed, and the entry waits for the answer. -/
theorem OwnBurst.links_hit : Linked (update s.mshrQueue.entries pr.mshr none)
      (update s.pamQueue pkt.addr (some { pr with isHit := some true }))
      (burstIds (s.respQueue.drop 1 ++ s.readQueue)) s.accepted.length := by
  have hbound : pr.id < s.accepted.length := hs.links.bound _ pr h.entry
  have hnotMem := h.toLastBurst.notMem hs
  rw [← h.own] at hnotMem
  rw [← update_idem (a := pkt.addr) none]
  exact (h.links_free hs).setPam hbound (fun _ => hnotMem) fun hne => (hne rfl).elim

/-- The packet waits for the answer. -/
theorem OwnBurst.links_miss : Linked (s.mshrQueue.allocateTarget pr.mshr pkt).entries
      (update s.pamQueue pkt.addr (some { pr with isHit := some false }))
      (burstIds (s.respQueue.drop 1 ++ s.readQueue)) s.accepted.length := by
  obtain ⟨reg, hreg, hblk⟩ := h.entry_eq hs
  have hbound : pr.id < s.accepted.length := hs.links.bound _ pr h.entry
  have hnotMem := h.toLastBurst.notMem hs
  rw [← h.own] at hnotMem
  rw [allocateTarget_entries hreg]
  exact ((h.toLastBurst.links hs).addTarget hreg hblk.symm).setPam hbound
    (fun _ => hnotMem) fun _ => ⟨_, update_self .., hblk⟩

end Lookups

/-! ## Answers -/

/-- An answer without an entry of `pamQueue` frees a register that no entry
needs. -/
theorem Phase.Linked.links_serial (hs : (Phase.consuming p w false).Linked c s)
    (hqueue : p.queue = .mshrs) :
    DRAMCache.Linked (update s.mshrQueue.entries p.mshr none) s.pamQueue
      s.readIds s.accepted.length := by
  obtain ⟨reg, hreg, hblk, hnone⟩ := hs.waits hqueue
  refine Linked.free hs.links fun a pr hpr hhit heq => ?_
  obtain ⟨reg', hreg', ha⟩ := hs.links.early a pr hpr hhit
  rw [heq, hreg] at hreg'
  cases hreg'
  have hsame : a = p.addr := ha.symm.trans hblk
  rw [hsame] at hpr
  exact Option.some_ne_none _ (hpr.symm.trans hnone)

/-- An answer for a lookup that missed frees its register. -/
theorem Phase.Linked.links_pam (hs : (Phase.consuming p w true).Linked c s) :
    DRAMCache.Linked (update s.mshrQueue.entries p.mshr none)
      ((Phase.filling p).pam s) s.readIds s.accepted.length := by
  obtain ⟨pr, hpr, hhit, hmshr⟩ := hs.waits
  rw [Phase.pam_of_gone (φ := .filling p) rfl fun _ _ => rfl]
  refine (Linked.erasePam hs.links p.addr).free fun b pr' hpr' hhit' heq => ?_
  rcases update_eq_some hpr' with ⟨-, ⟨⟩⟩ | ⟨hne, hpr'⟩
  exact hne (hs.links.mshr_inj hpr' hhit' hpr (by simp [hhit]) (heq.trans hmshr.symm))

/-! ## The pieces of the handlers -/

section

variable (h : Micro c e s₀ φ s φ' s') (hok : Demands (fun _ r => c.Aligned r.addr) s₀ e)
include h hok

theorem Micro.links (hown : OwnEntries s₀ e) (hs : φ.Linked c s) :
    Linked s'.mshrQueue.entries (φ'.pam s') (φ'.readIds s') s'.accepted.length := by
  cases h with
  | request r he h => exact (h.linked (hok.request r he) hs).links
  | retryWrite _ h | retryRead _ h =>
    exact (h.linked (φ := .done) hok.reaction ⟨hs.pkts, hs.counted, hs.links, hs.waits⟩).links
  | retryCache _ _ _ h => exact (h.linked hok.reaction hs).links
  | serveRead b w d i p hp =>
    exact hs.links.mono (burstIds_serve_perm _ hp).symm.subset le_rfl
  | burst p rest d hq =>
    refine hs.links.mono (fun x hx => ?_) le_rfl
    have hids : s.readIds = p.pkt.id :: burstIds (rest ++ s.readQueue) := by
      simp [State.readIds, burstIds, hq]
    change x ∈ s.readIds
    rw [hids]
    exact List.mem_cons_of_mem _ hx
  | serialHit pkt hlast =>
    have hlinks := hlast.links hs
    exact hlinks
  | serialCoalesced pkt m hlast _ _ hm | serialCoalescedLast pkt m hlast _ _ hm =>
    obtain ⟨hreg, hblk⟩ := MSHRQueue.findMatch_entries hm
    simp only [allocateTarget_entries hreg]
    exact (hlast.links hs).addTarget hreg ((hlast.aligned hs).symm.trans hblk.symm)
  | serialMiss pkt m q hlast _ _ _ hq =>
    simp only [hq.entries_eq]
    refine (hlast.links hs).take hq.entries_self (by simp) ?_
    simp only [List.forall_mem_singleton]
    exact (hlast.aligned hs).symm
  | pamDoneHit pkt pr _ _ hlast _ _ _ hfree =>
    obtain ⟨q, b, pb, hq, rfl⟩ := hfree.frame
    simp only [hq.entries_eq_of_setTargets]
    exact (hown.burst hlast).links_free hs
  | pamDoneMiss pkt pr _ _ hlast _ _ _ hfill hfree =>
    obtain ⟨_, _, _, _, _, _, _, _, rfl⟩ := hfill.frame
    obtain ⟨q, b, pb, hq, rfl⟩ := hfree.frame
    simp only [hq.entries_eq_of_setTargets]
    have hlinks := (hown.burst hlast).links_free hs
    rw [← update_idem (a := pkt.addr) (some { pr with isHit := some false })] at hlinks
    exact hlinks
  | pamHit pkt pr _ _ hlast _ _ _ hfree =>
    obtain ⟨q, b, pb, hq, rfl⟩ := hfree.frame
    simp only [hq.entries_eq_of_setTargets]
    split
    · exact (hown.burst hlast).links_hit hs
    · rw [Phase.pam_of_gone (φ := .forgetting pkt) rfl fun b hb =>
        update_of_ne hb _ _]
      exact (hown.burst hlast).links_free hs
  | pamMiss pkt pr hlast => exact (hown.burst hlast).links_miss hs
  | forget pkt =>
    have hlinks := hs.links
    rw [Phase.pam_of_gone rfl fun _ _ => rfl] at hlinks
    exact hlinks
  | pop pkt d =>
    refine hs.links.mono (fun x hx => ?_) le_rfl
    rw [Phase.readIds, Phase.lookedUp, List.drop_one]
    exact hx
  | sendNothing hw | sendRefused _ _ hw | sentWrite _ _ _ _ hw =>
    obtain ⟨_, _, rfl⟩ := hw.frame
    exact hs.links
  | sentMiss r target rest q hw _ htargets hq =>
    obtain ⟨_, _, rfl⟩ := hw.frame
    have hreg := MSHRQueue.entries_of_mem (s.mshrQueue.wf.mem_readyList.1 hq.mem).1
    simp only [hq.entries_eq]
    exact hs.links.set hreg rfl (hs.links.waiting _ _ hreg).1 (hs.links.waiting _ _ hreg).2
  | pamEarly i up p pr first rest _ hp _ hpr hhit htargets =>
    obtain ⟨reg, hreg, hblk⟩ := hs.links.early p.addr pr hpr (by simp [hhit])
    have hregister := (MSHRQueue.entries_eq_some.1 hreg).2
    have haddr := (hs.links.waiting _ reg hreg).2
    rw [← hregister, htargets] at haddr
    simp only [MSHRQueue.setTargets_entries, hreg, Option.map_some]
    have hset : Linked (update s.mshrQueue.entries pr.mshr (some { reg with targets :=
          { first with data := p.data, stamp := p.stamp } :: rest }))
        s.pamQueue s.readIds s.accepted.length := by
      refine hs.links.set hreg rfl (by simp) fun t ht => ?_
      rw [← hregister]
      rcases List.mem_cons.1 ht with rfl | ht
      · exact haddr first List.mem_cons_self
      · exact haddr t (List.mem_cons_of_mem _ ht)
    exact hset.setPam (hs.links.bound _ pr hpr) (hs.links.looked _ pr hpr)
      fun _ => ⟨_, update_self .., hblk⟩
  | pamLate i up p pr => exact hs.links.erasePam p.addr
  | pamAnswer i up p pr _ _ _ hpr hhit =>
    exact hs.links.setPam (hs.links.bound _ pr hpr) (hs.links.looked _ pr hpr)
      (hs.links.early _ pr hpr)
  | readAnswered p w hqueue _ _ _ hfill hfree =>
    obtain ⟨_, _, _, _, _, _, _, _, rfl⟩ := hfill.frame
    obtain ⟨q, b, pb, hq, rfl⟩ := hfree.frame
    simp only [hq.entries_eq_of_setTargets]
    exact hs.links_serial hqueue
  | writeAnswered p w _ _ _ hfree =>
    obtain ⟨q, b, pb, hq, rfl⟩ := hfree.frame_writeBuffer
    exact hs.links
  | pamAnswered p w _ _ _ _ hfree =>
    obtain ⟨q, b, pb, hq, rfl⟩ := hfree.frame
    simp only [hq.entries_eq_of_setTargets]
    exact hs.links_pam
  | filled p hfill =>
    obtain ⟨_, _, _, _, _, _, _, _, rfl⟩ := hfill.frame
    have hlinks := hs.links
    rw [Phase.pam_of_gone rfl fun _ _ => rfl] at hlinks
    exact hlinks
  | _ => exact hs.links

theorem Micro.waits
    (hfound : AnswersFound s₀ e) (hs : φ.Linked c s) : φ'.Waits s' := by
  cases h with
  | retryCache _ _ _ h => exact (h.linked hok.reaction hs).waits
  | pamHit pkt pr _ _ hlast _ _ _ hfree =>
    obtain ⟨q, b, pb, hq, rfl⟩ := hfree.frame
    split
    · trivial
    · simp [Phase.Waits]
  | pamAnswer i up p pr _ _ _ _ hhit hmshr =>
    exact ⟨_, update_self .., hhit, hmshr.symm⟩
  | serialAnswer i up p he hp hpam =>
    intro hqueue
    rw [he] at hfound
    obtain ⟨hmem, hblk⟩ := hfound p (by simp [hp]) hqueue (hpam hqueue)
    exact ⟨_, MSHRQueue.entries_of_mem hmem, hblk, hpam hqueue⟩
  | release p w pam | released p w pam | keep p w pam =>
    cases pam <;> exact hs.waits
  | pamAnswered p w _ _ _ _ hfree =>
    obtain ⟨q, b, pb, hq, rfl⟩ := hfree.frame
    obtain ⟨pr, hpr, -⟩ := hs.waits
    simp [Phase.Waits, hpr]
  | _ => trivial

theorem Micro.linked (hown : OwnEntries s₀ e)
    (hfound : AnswersFound s₀ e) (hs : φ.Linked c s) : φ'.Linked c s' where
  pkts := h.carries hok hs.pkts
  counted := h.counted hs.counted
  links := h.links hok hown hs
  waits := h.waits hok hfound hs

end

theorem State.init_linked (c : Config) (store : ℕ → Data) :
    Phase.start.Linked c (State.init c store) where
  pkts := State.init_carries c store
  counted := State.init_counted c store
  links := ⟨nofun, nofun, nofun, nofun⟩
  waits := trivial

end Gem5Gpu.DRAMCache
