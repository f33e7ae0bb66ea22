import Gem5Gpu.DRAMCache.TagStore

/-!
# The Bloom filter of dirty blocks

While a kernel runs, a CPU read may go to the memory without a lookup when the
Bloom filter does not know its block.  That is right as long as the filter knows
every dirty block of the cache.

The filter is a counting one.  A block is added when a write makes its line
dirty, and removed when the line is written back, so the filter should count the
dirty lines: this is `Filtered`.  Its counters have two bits and saturate, and a
counter that has saturated loses count.  `AddsWithRoom` is the condition that
this does not happen.

* `bypass_misses_dirty`: no read bypasses a dirty block, in a run that keeps
  room in the filter.
* `bypass_skips_dirty` is a run in which four dirty blocks share a counter.  It
  stops at three, three evictions bring it to zero, and a read bypasses the
  fourth block.
-/

namespace Gem5Gpu.DRAMCache

open Mem Lib Function

variable {c : Config} {e : Event} {up : Upstream} {s s' s₀ s₁ : State}
  {t t' : Tags} {sets : ℕ → CacheSet} {cbf : ℕ → ℕ} {r : TimingReq}
  {φ φ' : Phase} {a i ctx : ℕ} {p : MemPacket} {pkt : Packet}

/-- The dirty block in a line. -/
def dirtyBlock (c : Config) (sets : ℕ → CacheSet) (i : ℕ) : Option ℕ :=
  if (sets i).valid && (sets i).dirty then
    some (c.regenerateBlkAddr i (sets i).tag)
  else none

/-- The filter counts the dirty blocks of the cache. -/
structure Filtered (c : Config) (sets : ℕ → CacheSet) (cbf : ℕ → ℕ) : Prop where
  holds : Holds c c.InRange sets
  tracks : CountingBloom.Tracks c.bloomCells c.numSets (dirtyBlock c sets) cbf

/-- No read bypassed a dirty block so far. -/
def CleanBypasses (c : Config) (log : List (ℕ × Tags)) : Prop :=
  ∀ x ∈ log, ¬ (x.2.resident c x.1 = true ∧ (x.2.sets (c.setOf x.1)).dirty = true)

/-- The counters of a block have room for one more. -/
def Tags.HasRoom (c : Config) (t : Tags) (addr : ℕ) : Prop :=
  ∀ i ∈ c.bloomCells (c.blockAlign addr),
    t.cbf i + (c.bloomCells (c.blockAlign addr)).count i ≤ bloomMax

/-- A write that is about to make a line dirty finds room in the filter. -/
def AddsWithRoom (c : Config) (s : State) : Event → Prop
  | .processWriteRespondEvent => ∀ b ∈ s.dramPktWriteRespQueue.head?,
      s.burstsServiced b.pkt.id + 1 = 2 → s.tags.resident c b.pkt.addr = true →
      (s.tags.sets (c.setOf b.pkt.addr)).dirty = false →
      s.tags.HasRoom c b.pkt.addr
  | _ => True

instance (c : Config) (t : Tags) (addr : ℕ) : Decidable (t.HasRoom c addr) :=
  inferInstanceAs (Decidable (∀ i ∈ c.bloomCells (c.blockAlign addr), _))

instance (c : Config) (s : State) : (e : Event) → Decidable (AddsWithRoom c s e)
  | .processWriteRespondEvent =>
    inferInstanceAs (Decidable (∀ b ∈ s.dramPktWriteRespQueue.head?, _))
  | .recvTimingReq _ | .processNextReqEvent .. | .processRespondEvent _
  | .processSendEvent .. | .recvReqRetry .. | .recvTimingResp .. | .advance _
  | .setGpuRunning _ | .drain | .drainResume => .isTrue trivial

/-! ## Lines -/

theorem setOf_lt (c : Config) (a : ℕ) : c.setOf a < c.numSets :=
  Nat.mod_lt _ c.numSets_pos

theorem Tags.resident_iff : t.resident c a ↔
    (t.sets (c.setOf a)).tag = c.tagOf a ∧ (t.sets (c.setOf a)).valid := by
  simp [resident]

theorem dirtyBlock_update_of_ne {j : ℕ} (hj : j ≠ i) (line : CacheSet) :
    dirtyBlock c (update sets i line) j = dirtyBlock c sets j := by
  simp [dirtyBlock, hj]

theorem dirtyBlock_update_clean (tag : ℕ) (valid : Bool) : dirtyBlock c (update sets i
      { tag := tag, valid := valid, dirty := false }) i = none := by
  simp [dirtyBlock]

theorem dirtyBlock_of_inRange (ha : c.InRange a) {line : CacheSet} (hline : sets (c.setOf a) = line)
    (htag : line.tag = c.tagOf a) (hvalid : line.valid) (hdirty : line.dirty) :
    dirtyBlock c sets (c.setOf a) = some (c.blockAlign a) := by
  simp [dirtyBlock, hline, hvalid, hdirty, htag, ha.regenerateBlkAddr, ha.blockAlign]

/-- A dirty block is known to the filter. -/
theorem Filtered.lookup_pos (h : Filtered c t.sets t.cbf) (ha : c.InRange a)
    (hres : t.resident c a) (hdirty : (t.sets (c.setOf a)).dirty) :
    0 < t.cbfLookup c (c.blockAlign a) := by
  obtain ⟨htag, hvalid⟩ := Tags.resident_iff.1 hres
  exact h.tracks.lookup_pos (setOf_lt c a)
    (dirtyBlock_of_inRange ha rfl htag hvalid hdirty) (c.bloomCells_ne _)

/-! ## Changes of a line -/

/-- A line that is not dirty is filled. -/
theorem Filtered.install (h : Filtered c sets cbf) (ha : c.InRange a)
    (hclean : dirtyBlock c sets (c.setOf a) = none) :
    Filtered c (update sets (c.setOf a)
      { tag := c.tagOf a, valid := true, dirty := false }) cbf where
  holds := h.holds.install ha true false
  tracks := by
    refine h.tracks.congr fun j _ => ?_
    by_cases hj : j = c.setOf a
    · subst hj
      rw [dirtyBlock_update_clean, hclean]
    · exact dirtyBlock_update_of_ne hj _

/-- A dirty line is written back. -/
theorem Filtered.evict (h : Filtered c sets cbf) (hi : i < c.numSets)
    (hvalid : (sets i).valid) (hdirty : (sets i).dirty) :
    Filtered c (update sets i { tag := (sets i).tag, valid := false, dirty := false })
      (CountingBloom.remove (c.bloomCells (c.regenerateBlkAddr i (sets i).tag)) cbf) where
  holds := h.holds.clear _
  tracks := by
    refine h.tracks.remove hi ?_ ?_ fun j hj => dirtyBlock_update_of_ne hj _
    · simp [dirtyBlock, hvalid, hdirty]
    · exact dirtyBlock_update_clean _ _

/-- A clean line becomes dirty, with room in the filter. -/
theorem Filtered.dirty (h : Filtered c t.sets t.cbf) (ha : c.InRange a)
    (hres : t.resident c a)
    (hclean : (t.sets (c.setOf a)).dirty = false) (hroom : t.HasRoom c a) :
    Filtered c (update t.sets (c.setOf a) { t.sets (c.setOf a) with dirty := true })
      (CountingBloom.add bloomMax (c.bloomCells (c.blockAlign a)) t.cbf) := by
  obtain ⟨htag, hvalid⟩ := Tags.resident_iff.1 hres
  refine ⟨h.holds.touch (.inl hvalid) _ _, ?_⟩
  refine h.tracks.add (setOf_lt c a) ?_ ?_ (fun j hj => dirtyBlock_update_of_ne hj _) hroom
  · simp [dirtyBlock, hclean]
  · exact dirtyBlock_of_inRange ha (update_self ..) htag hvalid rfl

/-! ## The pieces of the handlers -/

theorem Looks.filtered {isRead gpu hit : Bool} (h : Looks c t isRead gpu a hit t')
    (hbloom : c.bloomFilterEnable) (ha : c.InRange a)
    (hroom : isRead = false → t.resident c a →
      (t.sets (c.setOf a)).dirty = false → t.HasRoom c a)
    (hs : Filtered c t.sets t.cbf) : Filtered c t'.sets t'.cbf := by
  cases h with
  | miss | found => exact hs
  | dirtied hres hwrite hclean =>
    simp only [hbloom, if_true]
    exact hs.dirty ha hres hclean (hroom hwrite hres hclean)

/-- The lookup of a read. -/
theorem LastBurst.filtered (h : LastBurst e s pkt) (hbloom : c.bloomFilterEnable)
    (hpkts : φ.Carries c.InRange s) (hs : Filtered c s.tags.sets s.tags.cbf) :
    Filtered c (s.lookup c pkt).2.sets (s.lookup c pkt).2.cbf := by
  obtain ⟨hcmd, haddr, -⟩ := h.isPacket hpkts
  refine (State.looks rfl).filtered hbloom haddr (fun hread => ?_) hs
  rw [hcmd] at hread
  cases hread

/-- The lookup of a write. -/
theorem LastWriteBurst.filtered {rest : List DRAMPacket} (h : LastWriteBurst e s pkt rest)
    (hbloom : c.bloomFilterEnable) (hroom : AddsWithRoom c s e)
    (hpkts : φ.Carries c.InRange s) (hs : Filtered c s.tags.sets s.tags.cbf) :
    Filtered c (s.lookup c pkt).2.sets (s.lookup c pkt).2.cbf := by
  have haddr := (h.isPacket hpkts).addr
  refine (State.looks rfl).filtered hbloom haddr (fun _ => ?_) hs
  obtain ⟨burst, hfront⟩ := h.front
  rw [h.event] at hroom
  exact hroom ⟨pkt, burst⟩ (by simp [hfront]) h.last

theorem Fills.filtered (h : Fills c s a ctx s') (hbloom : c.bloomFilterEnable)
    (ha : c.InRange a) (hs : Filtered c s.tags.sets s.tags.cbf) :
    Filtered c s'.tags.sets s'.tags.cbf := by
  cases h with
  | skipped => exact hs
  | clean fq ifq hskip hclean =>
    obtain ⟨l, heq⟩ := s.tags.install_eq c a ctx (s.tags.victim c a)
    simp only [heq]
    refine hs.install ha ?_
    rw [Bool.and_comm] at hclean
    simp [dirtyBlock, hclean]
  | dirty m q fq ifq hskip hdirty hvalid hq hport =>
    -- the line that is cleared is the one that is filled
    have hset : c.setOf (s.tags.victim c a) = c.setOf a := by
      obtain ⟨b, hb, hset, htag⟩ := hs.holds _ (.inl hvalid)
      rw [Tags.victim, ← htag, ← hset, hb.regenerateBlkAddr]
    have hevict := hs.evict (setOf_lt c a) hvalid hdirty
    obtain ⟨l, heq⟩ := ((s.tags.forget c (s.tags.victim c a)).clearSet c
      (s.tags.victim c a)).install_eq c a ctx (s.tags.victim c a)
    simp only [heq]
    simp only [Tags.forget_eq, hbloom, if_true, Tags.clearSet, Tags.setSet, hset]
    exact hevict.install ha (dirtyBlock_update_clean _ _)

theorem FillsOnResp.filtered (h : FillsOnResp c s p s') (hbloom : c.bloomFilterEnable)
    (ha : c.InRange p.addr) (hs : Filtered c s.tags.sets s.tags.cbf) :
    Filtered c s'.tags.sets s'.tags.cbf := by
  cases h with
  | present => exact hs
  | fills _ h => exact h.filtered hbloom ha hs

/-- What the filter and the log of its bypasses keep up. -/
structure Screened (c : Config) (t : Tags) (log : List (ℕ × Tags)) : Prop where
  filtered : Filtered c t.sets t.cbf
  clean : CleanBypasses c log

theorem Recv.screened (h : Recv c s r s') (hr : c.InRange r.addr)
    (hs : Screened c s.tags s.bloomBypasses) :
    Screened c s'.tags s'.bloomBypasses := by
  cases h with
  | bypassTagRead | bypassTagWrite =>
    obtain ⟨l, heq⟩ := s.tags.touchBypassTag_eq c r.addr
    simp only [heq]
    exact ⟨hs.filtered, hs.clean⟩
  | bypassed m q log _ _ hby =>
    rcases hby with ⟨-, rfl⟩ | ⟨-, hbloom, rfl⟩
    · exact hs
    · refine ⟨hs.filtered, ?_⟩
      simp only [bypassesBloom, Bool.and_eq_true, beq_iff_eq] at hbloom
      intro x hx
      rcases List.mem_cons.1 hx with rfl | hx
      · rintro ⟨hres, hdirty⟩
        have hpos := hs.filtered.lookup_pos hr hres hdirty
        omega
      · exact hs.clean x hx
  | _ => exact hs

theorem Retried.screened (h : Retried c up s s') (hup : ∀ s r, up s = some r → c.InRange r.addr)
    (hs : Screened c s.tags s.bloomBypasses) :
    Screened c s'.tags s'.bloomBypasses := by
  cases h with
  | silent => exact hs
  | reacted r hr h => exact (recvTimingReq_ok h).screened (hup _ r hr) hs

theorem Freed.tags_eq {index : MSHRQueueIndex} {m : ℕ} {w : Bool} (h : Freed s index m w s') :
    s'.tags = s.tags ∧ s'.bloomBypasses = s.bloomBypasses := by
  cases h <;> cases index <;> exact ⟨rfl, rfl⟩

theorem Fills.bloomBypasses_eq (h : Fills c s a ctx s') : s'.bloomBypasses = s.bloomBypasses := by
  cases h <;> rfl

theorem FillsOnResp.bloomBypasses_eq (h : FillsOnResp c s p s') :
    s'.bloomBypasses = s.bloomBypasses := by
  cases h with
  | present => rfl
  | fills _ h => exact h.bloomBypasses_eq

theorem Wakes.screened (h : Wakes s e s') (hs : Screened c s.tags s.bloomBypasses) :
    Screened c s'.tags s'.bloomBypasses := by
  cases h <;> exact hs

theorem Micro.screened (h : Micro c e s₀ φ s φ' s') (hbloom : c.bloomFilterEnable)
    (halloc : c.writeAllocate = false) (hok : Demands (fun _ r => c.InRange r.addr) s₀ e)
    (hroom : AddsWithRoom c s₀ e) (hpkts : φ.Carries c.InRange s)
    (hs : Screened c s.tags s.bloomBypasses) :
    Screened c s'.tags s'.bloomBypasses := by
  cases h with
  | request r he h => exact h.screened (hok.request r he) hs
  | retryWrite _ h | retryRead _ h | retryCache _ _ _ h => exact h.screened hok.reaction hs
  | serialHit pkt hlast | pamMiss pkt pr hlast =>
    exact ⟨hlast.filtered hbloom hpkts hs.filtered, hs.clean⟩
  | serialCoalesced pkt m hlast | serialCoalescedLast pkt m hlast | serialMiss pkt m q hlast =>
    exact ⟨hlast.filtered hbloom hpkts hs.filtered, hs.clean⟩
  | pamDoneHit pkt pr _ _ hlast _ _ _ hfree | pamHit pkt pr _ _ hlast _ _ _ hfree =>
    rw [hfree.tags_eq.1, hfree.tags_eq.2]
    exact ⟨hlast.filtered hbloom hpkts hs.filtered, hs.clean⟩
  | pamDoneMiss pkt pr first rest hlast _ _ htargets hfill hfree =>
    rw [hfree.tags_eq.1, hfree.tags_eq.2]
    have haddr : c.InRange first.addr := by
      refine hpkts.missPkts pr.mshr first ?_
      rw [MSHRQueue.targets, htargets]
      exact List.mem_cons_self
    refine ⟨?_, ?_⟩
    · refine hfill.filtered hbloom haddr ?_
      exact hlast.filtered hbloom hpkts hs.filtered
    · rw [hfill.bloomBypasses_eq]
      exact hs.clean
  | writeHit pkt rest d hlast | writeMiss pkt rest d m q hlast =>
    exact ⟨hlast.filtered hbloom hroom hpkts hs.filtered, hs.clean⟩
  | writeAllocClean pkt rest d hlast hmiss hyes | writeAllocDirty pkt rest d m q hlast hmiss hyes =>
    simp [halloc] at hyes
  | sendNothing hw | sendRefused _ _ hw | sentMiss _ _ _ _ hw | sentWrite _ _ _ _ hw =>
    exact hw.screened hs
  | readAnswered p w hqueue _ _ _ hfill hfree =>
    rw [hfree.tags_eq.1, hfree.tags_eq.2]
    have haddr := (hpkts.memPkts p List.mem_cons_self hqueue).2
    refine ⟨hfill.filtered hbloom haddr hs.filtered, ?_⟩
    rw [hfill.bloomBypasses_eq]
    exact hs.clean
  | writeAnswered p w _ _ _ hfree | pamAnswered p w _ _ hqueue _ hfree =>
    rw [hfree.tags_eq.1, hfree.tags_eq.2]
    exact hs
  | filled p hfill =>
    have haddr := hpkts.fillAddr p.addr List.mem_cons_self
    refine ⟨hfill.filtered hbloom haddr hs.filtered, ?_⟩
    rw [hfill.bloomBypasses_eq]
    exact hs.clean
  | _ => exact hs

theorem State.init_screened (c : Config) (store : ℕ → Data) :
    Screened c (State.init c store).tags (State.init c store).bloomBypasses where
  filtered := by
    refine ⟨?_, ?_⟩
    · intro i hi
      simp [State.init] at hi
    · intro cell
      simp [State.init, tableSum, dirtyBlock, CountingBloom.weight]
  clean := nofun

/-- A read that bypasses the cache because the filter does not know its block
does not miss a dirty block. -/
theorem bypass_misses_dirty (hbloom : c.bloomFilterEnable) (halloc : c.writeAllocate = false)
    (h : Reaches c (fun s e => Demands (fun _ r => c.InRange r.addr) s e ∧ AddsWithRoom c s e) s) :
    ∀ x ∈ s.bloomBypasses, ¬ (x.2.resident c x.1 ∧
      (x.2.sets (c.setOf x.1)).dirty) := by
  have hs : Phase.start.Carries c.InRange s ∧ Screened c s.tags s.bloomBypasses := by
    refine h.invariant (I := fun φ s => φ.Carries c.InRange s ∧
      Screened c s.tags s.bloomBypasses) ?_ ?_ ?_
    · exact fun store => ⟨State.init_carries c store, State.init_screened c store⟩
    · exact fun s hs => ⟨hs.1, hs.2⟩
    · intro e s₀ hok φ s φ' s' hs hmicro
      exact ⟨hmicro.carries hok.1 hs.1, hmicro.screened hbloom halloc hok.1 hok.2 hs.1 hs.2⟩
  exact hs.2.clean

namespace Scenario

/-- A filter in which every block has a counter of its own. -/
def filtering : Config :=
  { config with
    bloomFilterEnable := true
    bloomCells := fun a => [a / 128]
    bloomCells_ne := by simp }

/-- A filter with one counter. -/
def oneCounter : Config := { config with bloomFilterEnable := true }

/-- A kernel starts, and a CPU reads a block. -/
def kernelRead (block : ℕ) : List Event :=
  [.setGpuRunning true, .recvTimingReq (cpuRead block true)]

theorem kernelRead_asks {P : TimingReq → Prop} {block : ℕ}
    (h : P (cpuRead block true)) : ∀ e ∈ kernelRead block, e.Asks P := by
  simp [kernelRead, Event.Asks, Event.upstream, h]

/-- The GPU makes a block dirty, and a CPU reads another one. -/
def oneDirty : List Event := fill 0 1 ++ write 0 ++ kernelRead 1

/-- The GPU makes four blocks dirty, three of them are evicted, and a CPU reads
the fourth. -/
def fourDirty : List Event :=
  (fill 0 1 ++ write 0) ++ (fill 1 2 ++ write 1) ++ (fill 2 3 ++ write 2) ++
    (fill 3 4 ++ write 3) ++ (fill 4 5 ++ [serveNext, serveNext, serveNext]) ++
    (fill 5 6 ++ [serveNext, serveNext, serveNext]) ++ fill 6 7 ++ kernelRead 3

end Scenario

open Scenario in
theorem bypass_of_clean_block : (State.ofRun filtering blank oneDirty).bloomBypasses.length = 1 ∧
      ∀ x ∈ (State.ofRun filtering blank oneDirty).bloomBypasses,
        ¬ (x.2.resident filtering x.1 ∧ (x.2.sets (filtering.setOf x.1)).dirty) := by
  refine ⟨by decide +kernel, bypass_misses_dirty rfl rfl ?_⟩
  refine reaches_ofRun (Meets.and ?_ ?_) (by decide +kernel)
  · refine Meets.of_forall fun e he s =>
      demands_of_asks (P := fun r => filtering.InRange r.addr) ?_
    revert e
    refine List.forall_mem_append.2 ⟨List.forall_mem_append.2 ⟨?_, ?_⟩, ?_⟩
    · exact fill_asks (by decide)
    · exact write_asks (by decide)
    · exact kernelRead_asks (by decide)
  · decide +kernel

open Scenario in
/-- Four dirty blocks share a counter.  It stops at three, and is zero after
three evictions. -/
theorem bypass_skips_dirty :
    ∃ s, Reaches oneCounter (Demands fun _ r => oneCounter.InRange r.addr) s ∧
      ∃ x ∈ s.bloomBypasses, x.2.resident oneCounter x.1 = true ∧
        (x.2.sets (oneCounter.setOf x.1)).dirty = true := by
  refine ⟨State.ofRun oneCounter blank fourDirty, ?_, by decide +kernel⟩
  refine reaches_ofRun (Meets.of_forall fun e he s => ?_) (by decide +kernel)
  refine demands_of_asks (P := fun r => oneCounter.InRange r.addr) ?_
  revert e
  have hserve : ∀ e ∈ [serveNext, serveNext, serveNext],
      e.Asks fun r => oneCounter.InRange r.addr := by
    simp [serveNext, Event.Asks, Event.upstream, quiet]
  simp only [fourDirty, List.forall_mem_append]
  refine ⟨⟨⟨⟨⟨⟨⟨⟨?_, ?_⟩, ?_, ?_⟩, ?_, ?_⟩, ?_, ?_⟩, ?_, hserve⟩, ?_, hserve⟩,
    ?_⟩, kernelRead_asks (by decide)⟩
  all_goals first
    | exact fill_asks (by decide)
    | exact write_asks (by decide)

end Gem5Gpu.DRAMCache
