import Gem5Gpu.DRAMCache.Misses

/-!
# Copies of packets

A read that is sent to the memory before its lookup waits in the DRAM queues,
and a copy of it waits in the register.  The copy must not go upstream, and the
code finds it by its position alone: it is the first target of the register of
an entry of `pamQueue` whose lookup has not hit.

`Cloned` is the invariant that makes this right.  The first target of such a
register is a copy, and no other target of any register is one.
-/

namespace Gem5Gpu.DRAMCache

open Mem Lib Function

variable {c : Config} {e : Event} {up : Upstream} {s s' s₀ s₁ : State} {r : TimingReq}
  {φ φ' : Phase} {m a : ℕ} {w : Bool} {p : MemPacket} {pkt : Packet} {pr : PamReq} {reg : MSHR}
  {v : Option PamReq} {rest : List Packet} {first : Packet}

/-- A register was taken for a read before its lookup, and the lookup has not
hit. -/
def Early (pam : ℕ → Option PamReq) (m b : ℕ) : Prop :=
  ∃ pr, pam b = some pr ∧ pr.isHit ≠ some true ∧ pr.mshr = m

/-- Of a list of targets, exactly the first one is a copy. -/
def FirstIsClone (l : List Packet) : Prop :=
  ∃ first rest, l = first :: rest ∧ first.internal = true ∧ ∀ t ∈ rest, t.internal = false

/-- Where the copies are. -/
structure Cloned (entries : ℕ → Option MSHR) (pam : ℕ → Option PamReq) : Prop where
  clone : ∀ m reg, entries m = some reg → Early pam m reg.blkAddr → FirstIsClone reg.targets
  external : ∀ m reg, entries m = some reg → ¬ Early pam m reg.blkAddr →
    ∀ t ∈ reg.targets, t.internal = false

def Phase.Cloned (φ : Phase) (s : State) : Prop :=
  DRAMCache.Cloned s.mshrQueue.entries (φ.pam s)

/-! ## Changes of the registers and of `pamQueue` -/

theorem FirstIsClone.append {l : List Packet} (h : FirstIsClone l)
    (hpkt : pkt.internal = false) : FirstIsClone (l ++ [pkt]) := by
  obtain ⟨first, rest, rfl, hfirst, hrest⟩ := h
  refine ⟨first, rest ++ [pkt], rfl, hfirst, fun t ht => ?_⟩
  rcases List.mem_append.1 ht with ht | ht
  · exact hrest t ht
  · rw [List.mem_singleton.1 ht]
    exact hpkt

theorem FirstIsClone.tail (h : FirstIsClone (first :: rest)) :
    first.internal ∧ ∀ t ∈ rest, t.internal = false := by
  obtain ⟨_, _, heq, hfirst, hrest⟩ := h
  cases heq
  exact ⟨hfirst, hrest⟩

/-- Another entry of `pamQueue` does not matter. -/
theorem early_update_of_ne {pam : ℕ → Option PamReq} {b : ℕ}
    (hb : b ≠ a) : Early (update pam a v) m b ↔ Early pam m b := by
  simp [Early, update_of_ne hb]

/-- The register of an entry of `pamQueue` is the only one that can be early for
its block. -/
theorem early_iff {pam : ℕ → Option PamReq} (hpr : pam a = some pr) :
    Early pam m a ↔ pr.isHit ≠ some true ∧ pr.mshr = m := by
  simp [Early, hpr]

namespace Cloned

variable {entries : ℕ → Option MSHR} {pam pam' : ℕ → Option PamReq}

variable (h : Cloned entries pam)
include h

/-- A change of `pamQueue` that no register notices. -/
theorem pam_congr
    (hpam : ∀ m reg, entries m = some reg → (Early pam' m reg.blkAddr ↔ Early pam m reg.blkAddr)) :
    Cloned entries pam' where
  clone m reg hm he := h.clone m reg hm ((hpam m reg hm).1 he)
  external m reg hm he := h.external m reg hm fun h' => he ((hpam m reg hm).2 h')

/-- A register changes, but neither its block nor where its copy is. -/
theorem set {reg' : MSHR} (hm : entries m = some reg) (hblk : reg'.blkAddr = reg.blkAddr)
    (hclone : FirstIsClone reg.targets → FirstIsClone reg'.targets)
    (hext : (∀ t ∈ reg.targets, t.internal = false) → ∀ t ∈ reg'.targets, t.internal = false) :
    Cloned (update entries m (some reg')) pam where
  clone i reg₁ hi he := by
    rcases update_eq_some hi with ⟨rfl, ⟨⟩⟩ | ⟨-, hi⟩
    · exact hclone (h.clone i reg hm (hblk ▸ he))
    · exact h.clone i reg₁ hi he
  external i reg₁ hi he := by
    rcases update_eq_some hi with ⟨rfl, ⟨⟩⟩ | ⟨-, hi⟩
    · exact hext (h.external i reg hm (hblk ▸ he))
    · exact h.external i reg₁ hi he

/-- A packet from upstream joins the targets of a register. -/
theorem addTarget (hm : entries m = some reg) (hpkt : pkt.internal = false) :
    Cloned (update entries m (some (MSHR.addTarget reg pkt))) pam := by
  refine h.set hm rfl (fun hclone => hclone.append hpkt) fun hext t ht => ?_
  rcases List.mem_append.1 ht with ht | ht
  · exact hext t ht
  · rw [List.mem_singleton.1 ht]
    exact hpkt

/-- A register is taken. -/
theorem take (hclone : Early pam m reg.blkAddr → FirstIsClone reg.targets)
    (hext : ¬ Early pam m reg.blkAddr → ∀ t ∈ reg.targets, t.internal = false) :
    Cloned (update entries m (some reg)) pam where
  clone i reg' hi := by
    rcases update_eq_some hi with ⟨rfl, ⟨⟩⟩ | ⟨-, hi⟩
    · exact hclone
    · exact h.clone i reg' hi
  external i reg' hi := by
    rcases update_eq_some hi with ⟨rfl, ⟨⟩⟩ | ⟨-, hi⟩
    · exact hext
    · exact h.external i reg' hi

/-- A register is freed, and its entry of `pamQueue` may change. -/
theorem free (hpam : ∀ i ≠ m, ∀ reg, entries i = some reg → reg.blkAddr = a →
      (Early (update pam a v) i a ↔ Early pam i a)) :
    Cloned (update entries m none) (update pam a v) := by
  have hfree : Cloned (update entries m none) pam := by
    constructor
    · intro i reg hi
      rcases update_eq_some hi with ⟨-, ⟨⟩⟩ | ⟨-, hi⟩
      exact h.clone i reg hi
    · intro i reg hi
      rcases update_eq_some hi with ⟨-, ⟨⟩⟩ | ⟨-, hi⟩
      exact h.external i reg hi
  refine hfree.pam_congr fun i reg hi => ?_
  rcases update_eq_some hi with ⟨-, ⟨⟩⟩ | ⟨hne, hi⟩
  by_cases hblk : reg.blkAddr = a
  · rw [hblk]
    exact hpam i hne reg hi hblk
  · exact early_update_of_ne hblk

/-- An entry of `pamQueue` changes, but not whether its register is early. -/
theorem setPam (hpr : pam a = some pr)
    (hv : ∀ m, Early (update pam a v) m a ↔ pr.isHit ≠ some true ∧ pr.mshr = m) :
    Cloned entries (update pam a v) := by
  refine h.pam_congr fun i reg _ => ?_
  by_cases hi : reg.blkAddr = a
  · rw [hi, hv i, early_iff hpr]
  · exact early_update_of_ne hi

end Cloned

/-! ## The pieces of the handlers -/

theorem Joins.cloned {entries : ℕ → Option MSHR} {pam pam' : ℕ → Option PamReq} {reads : List ℕ}
    {fresh : ℕ} {acc : List TimingReq} (h : Joins c s r pam entries pam' acc)
    (hr : c.Aligned r.addr) (hlink : Linked s.mshrQueue.entries pam reads fresh)
    (hs : Cloned s.mshrQueue.entries pam) : Cloned entries pam' := by
  cases h with
  | same => exact hs
  | coalesced m reg hm => exact hs.addTarget hm rfl
  | taken m t hfree =>
    refine hs.take ?_ fun _ t ht => ?_
    · -- a register that is taken was not early before
      rintro ⟨pr, hpr, hhit, rfl⟩
      obtain ⟨reg, hreg, -⟩ := hlink.early _ pr hpr hhit
      rw [hfree] at hreg
      cases hreg
    · rw [List.mem_singleton.1 ht]
      rfl
  | early m t hfree hnone =>
    rw [hr] at hnone ⊢
    -- no other register is for the block
    have hothers : Cloned s.mshrQueue.entries (update pam r.addr
        (some { mshr := m, pkt := (s.newPacket r).ptr, id := s.accepted.length })) :=
      hs.pam_congr fun i reg hi => early_update_of_ne (hnone i reg hi)
    refine hothers.take (fun _ => ⟨_, [], rfl, rfl, List.forall_mem_nil _⟩) fun hne => ?_
    refine (hne ?_).elim
    exact ⟨_, update_self .., by simp, rfl⟩

theorem Recv.cloned (h : Recv c s r s') (hr : c.Aligned r.addr)
    (hlink : φ.Linked c s) (hs : φ.Cloned s) : φ.Cloned s' :=
  (h.joins_pam hr hlink.waits).cloned hr hlink.links hs

theorem Retried.cloned (h : Retried c up s s') (hup : ∀ s r, up s = some r → c.Aligned r.addr)
    (hlink : φ.Linked c s) (hs : φ.Cloned s) : φ.Cloned s' :=
  h.keeps (P := φ.Cloned) hs fun r _ hr h => h.cloned (hup _ r hr) hlink.logRetry hs

/-- A lookup frees the register of its packet, and the entry of `pamQueue` goes
or records a hit. -/
theorem LastPamBurst.cloned_free (h : LastPamBurst e s pkt pr)
    (hs : Phase.start.Cloned s) (hv : ∀ pr' ∈ v, pr'.isHit = some true) :
    Cloned (update s.mshrQueue.entries pr.mshr none) (update s.pamQueue pkt.addr v) := by
  have hs : Cloned s.mshrQueue.entries s.pamQueue := hs
  refine hs.free fun i hi reg _ _ => ?_
  rw [early_iff h.entry]
  refine ⟨?_, fun he => (hi he.2.symm).elim⟩
  rintro ⟨pr', hpr', hhit, -⟩
  rw [update_self] at hpr'
  exact (hhit (hv pr' (by simp [hpr']))).elim

/-- The targets of the register of a lookup: the copy, and packets from
upstream. -/
theorem OwnBurst.targets (h : OwnBurst e s pkt pr)
    (hlink : Phase.start.Linked c s) (hs : Phase.start.Cloned s)
    (htargets : (s.mshrQueue.registers pr.mshr).targets = first :: rest) :
    first.internal = true ∧ ∀ t ∈ rest, t.internal = false := by
  obtain ⟨reg, hreg, hblk⟩ := h.entry_eq hlink
  have hclone := hs.clone _ reg hreg
    ⟨pr, by rw [hblk]; exact h.entry, by simp [h.isHit_eq hlink], rfl⟩
  rw [← (MSHRQueue.entries_eq_some.1 hreg).2, htargets] at hclone
  exact hclone.tail

/-- The targets of the register of an answer without an entry of `pamQueue` are
packets from upstream. -/
theorem Phase.Linked.external (hlink : (Phase.consuming p w false).Linked c s)
    (hqueue : p.queue = .mshrs) (hs : (Phase.consuming p w false).Cloned s) :
    ∀ t ∈ (s.mshrQueue.registers p.mshr).targets, t.internal = false := by
  obtain ⟨reg, hreg, hblk, hnone⟩ := hlink.waits hqueue
  rw [(MSHRQueue.entries_eq_some.1 hreg).2]
  refine hs.external _ reg hreg ?_
  rintro ⟨pr, hpr, -⟩
  rw [hblk] at hpr
  exact Option.some_ne_none _ (hpr.symm.trans hnone)

/-- The targets of the register of an answer for a lookup that missed. -/
theorem Phase.Linked.clone (hlink : (Phase.consuming p w true).Linked c s)
    (hs : (Phase.consuming p w true).Cloned s)
    (htargets : (s.mshrQueue.registers p.mshr).targets = first :: rest) :
    first.internal = true ∧ ∀ t ∈ rest, t.internal = false := by
  obtain ⟨pr, hpr, hhit, hmshr⟩ := hlink.waits
  obtain ⟨reg, hreg, hblk⟩ := hlink.links.early p.addr pr hpr (by simp [hhit])
  have hclone := hs.clone _ reg hreg ⟨pr, by rw [hblk]; exact hpr, by simp [hhit], rfl⟩
  rw [← (MSHRQueue.entries_eq_some.1 hreg).2, hmshr, htargets] at hclone
  exact hclone.tail

theorem Micro.cloned (h : Micro c e s₀ φ s φ' s') (hok : Demands (fun _ r => c.Aligned r.addr) s₀ e)
    (hown : OwnEntries s₀ e) (hlink : φ.Linked c s) (hs : φ.Cloned s) : φ'.Cloned s' := by
  cases h with
  | request r he h => exact h.cloned (φ := .start) (hok.request r he) hlink hs
  | retryWrite _ h | retryRead _ h =>
    exact h.cloned (φ := .done) hok.reaction
      ⟨hlink.pkts, hlink.counted, hlink.links, hlink.waits⟩ hs
  | retryCache _ _ _ h => exact h.cloned hok.reaction hlink hs
  | serialCoalesced pkt m hlast _ _ hm | serialCoalescedLast pkt m hlast _ _ hm =>
    have hreg := (MSHRQueue.findMatch_entries hm).1
    simp only [Phase.Cloned, allocateTarget_entries hreg]
    exact Cloned.addTarget hs hreg (hlast.isPacket hlink.pkts).external
  | serialMiss pkt m q hlast _ _ _ hq =>
    simp only [Phase.Cloned, hq.entries_eq]
    refine Cloned.take hs ?_ fun _ t ht => ?_
    · rintro ⟨pr, hpr, hhit, rfl⟩
      obtain ⟨reg, hreg, -⟩ := hlink.links.early _ pr hpr hhit
      rw [hq.entries_self] at hreg
      cases hreg
    · rw [List.mem_singleton.1 ht]
      exact (hlast.isPacket hlink.pkts).external
  | pamDoneHit pkt pr _ _ hlast _ _ _ hfree =>
    obtain ⟨q, b, pb, hq, rfl⟩ := hfree.frame
    simp only [Phase.Cloned, hq.entries_eq_of_setTargets]
    exact hlast.cloned_free hs nofun
  | pamDoneMiss pkt pr _ _ hlast _ _ _ hfill hfree =>
    obtain ⟨_, _, _, _, _, _, _, _, rfl⟩ := hfill.frame
    obtain ⟨q, b, pb, hq, rfl⟩ := hfree.frame
    simp only [Phase.Cloned, hq.entries_eq_of_setTargets]
    have hfreed := hlast.cloned_free hs (v := none) nofun
    rw [← update_idem (a := pkt.addr) (some { pr with isHit := some false })] at hfreed
    exact hfreed
  | pamHit pkt pr _ _ hlast _ _ _ hfree =>
    obtain ⟨q, b, pb, hq, rfl⟩ := hfree.frame
    simp only [Phase.Cloned, hq.entries_eq_of_setTargets]
    split
    · exact hlast.cloned_free hs (by simp)
    · rw [Phase.pam_of_gone (φ := .forgetting pkt) rfl fun b hb =>
        update_of_ne hb _ _]
      exact hlast.cloned_free hs nofun
  | pamMiss pkt pr hlast =>
    obtain ⟨reg, hreg, hblk⟩ := (hown.burst hlast).entry_eq hlink
    have hs : Cloned s.mshrQueue.entries s.pamQueue := hs
    simp only [Phase.Cloned, allocateTarget_entries hreg]
    refine (hs.addTarget hreg (hlast.isPacket hlink.pkts).external).setPam hlast.entry fun i => ?_
    rw [early_iff (update_self ..)]
    simp [(hown.burst hlast).isHit_eq hlink]
  | forget pkt =>
    have hs : Cloned _ _ := hs
    rw [Phase.pam_of_gone rfl fun _ _ => rfl] at hs
    exact hs
  | sendNothing hw | sendRefused _ _ hw | sentWrite _ _ _ _ hw =>
    obtain ⟨_, _, rfl⟩ := hw.frame
    exact hs
  | sentMiss r target rest q hw _ _ hq =>
    obtain ⟨_, _, rfl⟩ := hw.frame
    have hreg := MSHRQueue.entries_of_mem (s.mshrQueue.wf.mem_readyList.1 hq.mem).1
    simp only [Phase.Cloned, hq.entries_eq]
    exact Cloned.set hs hreg rfl id id
  | pamEarly i up p pr first rest he hp hqueue hpr hhit htargets =>
    obtain ⟨reg, hreg, hblk⟩ := hlink.links.early p.addr pr hpr (by simp [hhit])
    have hs : Cloned s.mshrQueue.entries s.pamQueue := hs
    rw [(MSHRQueue.entries_eq_some.1 hreg).2] at htargets
    simp only [Phase.Cloned, MSHRQueue.setTargets_entries, hreg, Option.map_some]
    have hpam : Cloned s.mshrQueue.entries (update s.pamQueue p.addr
        (some { pr with isPamComplete := true })) :=
      hs.setPam hpr fun i => by rw [early_iff (update_self ..)]
    refine hpam.set hreg rfl (fun hclone => ?_) fun hext t ht => ?_
    · rw [htargets] at hclone
      exact ⟨_, rest, rfl, hclone.tail⟩
    · rw [htargets] at hext
      rcases List.mem_cons.1 ht with rfl | ht
      · exact hext first List.mem_cons_self
      · exact hext t (List.mem_cons_of_mem _ ht)
  | pamLate i up p pr _ _ _ hpr hhit =>
    have hs : Cloned s.mshrQueue.entries s.pamQueue := hs
    refine hs.setPam hpr fun m => ⟨?_, fun h => (h.1 hhit).elim⟩
    rintro ⟨pr', hpr', -⟩
    rw [update_self] at hpr'
    cases hpr'
  | pamAnswer i up p pr _ _ _ hpr =>
    have hs : Cloned s.mshrQueue.entries s.pamQueue := hs
    exact hs.setPam hpr fun m => by rw [early_iff (update_self ..)]
  | readAnswered p w hqueue _ _ _ hfill hfree =>
    obtain ⟨reg, hreg, hblk, hnone⟩ := hlink.waits hqueue
    obtain ⟨_, _, _, _, _, _, _, _, rfl⟩ := hfill.frame
    obtain ⟨q, b, pb, hq, rfl⟩ := hfree.frame
    have hs : Cloned s.mshrQueue.entries s.pamQueue := hs
    simp only [Phase.Cloned, hq.entries_eq_of_setTargets]
    have hfreed := hs.free (m := p.mshr) (a := p.addr) (v := none)
      fun i _ reg' _ _ => by rw [← hnone, update_eq_self]
    rw [← hnone, update_eq_self] at hfreed
    exact hfreed
  | writeAnswered p w _ _ _ hfree =>
    obtain ⟨q, b, pb, hq, rfl⟩ := hfree.frame_writeBuffer
    exact hs
  | pamAnswered p w _ _ hqueue _ hfree =>
    obtain ⟨pr, hpr, hhit, hmshr⟩ := hlink.waits
    obtain ⟨q, b, pb, hq, rfl⟩ := hfree.frame
    have hs : Cloned s.mshrQueue.entries s.pamQueue := hs
    simp only [Phase.Cloned, hq.entries_eq_of_setTargets]
    rw [Phase.pam_of_gone (φ := .filling p) rfl fun _ _ => rfl]
    refine hs.free fun i hi reg _ _ => ?_
    rw [early_iff hpr]
    constructor
    · rintro ⟨pr', hpr', -⟩
      rw [update_self] at hpr'
      cases hpr'
    · exact fun h => (hi (h.2.symm.trans hmshr)).elim
  | filled p hfill =>
    obtain ⟨_, _, _, _, _, _, _, _, rfl⟩ := hfill.frame
    have hs : Cloned _ _ := hs
    rw [Phase.pam_of_gone rfl fun _ _ => rfl] at hs
    exact hs
  | _ => exact hs

end Gem5Gpu.DRAMCache
