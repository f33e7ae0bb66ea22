import Gem5Gpu.DRAMCache.TagStore

/-!
# Dirty lines are written back

A dirty line is the only place besides the store that knows about the latest
write of its block, so it must not disappear without a write to the memory.
Three functions rewrite lines: the lookup of a write, the fill and the write that
allocates its block.  The last one is where this goes wrong.  It makes a line
dirty without making it valid, and a fill writes a line back only if it is both.

* `Sound` is the invariant of the lines: a dirty line is valid, and the address
  that `regenerateBlkAddr` makes up from it is the one of the block it holds.
* `AllocatesOnClean` is the condition on the writes that allocate: the line they
  take is valid and clean.
* `Covers` relates the state before a handler to a state inside it: a block that
  was dirty is still dirty, or a register of the write buffer was taken for it.
-/

namespace Gem5Gpu.DRAMCache

open Mem Lib Function

variable {c : Config} {e : Event} {up : Upstream} {s s' s₀ s₁ : State}
  {r : TimingReq} {φ φ' : Phase} {a i tag ctx : ℕ} {t t' : Tags}
  {sets : ℕ → CacheSet} {pkt : Packet}

/-! ## The lines -/

/-- A dirty line is valid, and a line that is in use holds a block. -/
structure Sound (c : Config) (sets : ℕ → CacheSet) : Prop where
  valid : ∀ i, (sets i).dirty = true → (sets i).valid = true
  holds : Holds c c.InRange sets

/-- A write that allocates its block takes a line that is valid and clean. -/
def AllocatesOnClean (c : Config) (s : State) (e : Event) : Prop :=
  c.writeAllocate = true → ∀ pkt rest, LastWriteBurst e s pkt rest →
    (s.lookup c pkt).1 = false → (s.tags.sets (c.setOf pkt.addr)).valid = true ∧
      (s.tags.sets (c.setOf pkt.addr)).dirty = false

theorem Sound.update (h : Sound c sets) {line : CacheSet}
    (hvalid : line.dirty → line.valid)
    (hline : line.valid ∨ line.dirty →
      ∃ b, c.InRange b ∧ c.setOf b = i ∧ c.tagOf b = line.tag) :
    Sound c (Function.update sets i line) where
  valid j := by
    by_cases hj : j = i
    · subst hj
      rw [Function.update_self]
      exact hvalid
    · rw [Function.update_of_ne hj]
      exact h.valid j
  holds := h.holds.update hline

/-- A line is filled with a block. -/
theorem Sound.install (h : Sound c sets) (ha : c.Fits a) (dirty : Bool) :
    Sound c (Function.update sets (c.setOf a)
      { tag := c.tagOf a, valid := true, dirty := dirty }) :=
  h.update (fun _ => rfl) fun _ => ⟨_, ha.block⟩

/-- The block in a dirty line. -/
theorem Sound.victim (h : Sound c t.sets) (hdirty : (t.sets (c.setOf a)).dirty) :
    c.InRange (t.victim c a) ∧ c.setOf (t.victim c a) = c.setOf a := by
  obtain ⟨b, hb, hset, htag⟩ := h.holds _ (.inr hdirty)
  have hvictim : t.victim c a = b := by
    rw [Tags.victim, ← htag, ← hset, hb.regenerateBlkAddr]
  rw [hvictim]
  exact ⟨hb, hset⟩

theorem Looks.sound {isRead gpu hit : Bool} (h : Looks c t isRead gpu a hit t')
    (hs : Sound c t.sets) : Sound c t'.sets := by
  cases h with
  | miss | found => exact hs
  | dirtied hres =>
    simp only [Tags.resident, Bool.and_eq_true] at hres
    exact hs.update (fun _ => hres.2) fun _ => hs.holds _ (.inl hres.2)

theorem TagStep.sound (h : TagStep c e s₀ s s') (hok : AllocatesOnClean c s₀ e)
    (hpkts : Phase.start.Carries c.Fits s₀) (hs : Sound c s.tags.sets) :
    Sound c s'.tags.sets := by
  cases h with
  | same h =>
    rw [h.sets]
    exact hs
  | look pkt hlast htags =>
    rw [htags]
    exact (State.looks rfl).sound hs
  | fill addr ctx hinst hbefore hlines _ hskip hfill htags =>
    have hs₁ : Sound c _ := hs
    rw [hbefore.sets, ← hlines.sets] at hs₁
    rw [htags, hfill.sets_eq hskip fun hdirty => (hs₁.victim hdirty).2]
    exact hs₁.install (hinst.addr hpkts) false
  | allocClean pkt rest hlast hmiss halloc hclean htags =>
    have hvalid := (hok halloc pkt rest hlast hmiss).1
    rw [htags]
    have hsets := (sameLines_of_miss hmiss).sets
    simp only [Tags.installDirty, Tags.setSet, Tags.setOwner, hsets, hvalid]
    exact hs.install (hlast.isPacket hpkts).addr true
  | allocDirty pkt rest hlast hmiss halloc hdirty =>
    have hclean := (hok halloc pkt rest hlast hmiss).2
    simp [hclean] at hdirty

/-! ## The write buffer -/

/-- The tag of the dirty block in a line. -/
def Tags.dirtyTag (t : Tags) (i : ℕ) : Option ℕ :=
  if (t.sets i).dirty then some (t.sets i).tag else none

/-- A register of the write buffer was taken for a block. -/
def TakesFor (before after : ℕ → Option MSHR) (a : ℕ) : Prop :=
  ∃ m reg, before m = none ∧ after m = some reg ∧ reg.blkAddr = a

/-- A block that was dirty is dirty, or is on its way to the memory. -/
def Covers (c : Config) (s s' : State) : Prop :=
  ∀ i tag, s.tags.dirtyTag i = some tag → s'.tags.dirtyTag i = some tag ∨
    TakesFor s.writeBuffer.entries s'.writeBuffer.entries (c.regenerateBlkAddr i tag)

/-- No register of the write buffer was freed. -/
def KeepsWrites (s s' : State) : Prop :=
  ∀ m reg, s.writeBuffer.entries m = some reg →
    ∃ reg', s'.writeBuffer.entries m = some reg' ∧ reg'.blkAddr = reg.blkAddr

namespace KeepsWrites

theorem of_eq (h : s'.writeBuffer.entries = s.writeBuffer.entries) :
    KeepsWrites s s' := by
  intro m reg hm
  exact ⟨reg, h ▸ hm, rfl⟩

theorem trans (h : KeepsWrites s₀ s) (h' : KeepsWrites s s') : KeepsWrites s₀ s' := by
  intro m reg hm
  obtain ⟨reg₁, hm₁, hblk₁⟩ := h m reg hm
  obtain ⟨reg₂, hm₂, hblk₂⟩ := h' m reg₁ hm₁
  exact ⟨reg₂, hm₂, hblk₂.trans hblk₁⟩

/-- A free register is taken. -/
theorem of_take {m : ℕ} {reg : MSHR} (hfree : s.writeBuffer.entries m = none)
    (h : s'.writeBuffer.entries = update s.writeBuffer.entries m (some reg)) :
    KeepsWrites s s' := by
  intro j reg' hj
  have hne : j ≠ m := by
    rintro rfl
    rw [hfree] at hj
    cases hj
  rw [h, update_of_ne hne]
  exact ⟨reg', hj, rfl⟩

/-- A register that is free now was free before. -/
theorem free (h : KeepsWrites s s') {m : ℕ} (hfree : s'.writeBuffer.entries m = none) :
    s.writeBuffer.entries m = none := by
  cases hm : s.writeBuffer.entries m with
  | none => rfl
  | some reg =>
    obtain ⟨reg', hm', -⟩ := h m reg hm
    rw [hfree] at hm'
    cases hm'

end KeepsWrites

theorem Recv.keepsWrites (h : Recv c s r s') : KeepsWrites s s' := by
  rcases h.writeEntries with heq | ⟨m, reg, hfree, -, -, heq⟩
  · exact .of_eq heq
  · exact .of_take hfree heq

theorem Retried.keepsWrites (h : Retried c up s s') : KeepsWrites s s' := by
  cases h with
  | silent => exact .of_eq rfl
  | reacted r _ h => exact (recvTimingReq_ok h).keepsWrites

theorem Fills.keepsWrites (h : Fills c s a ctx s') : KeepsWrites s s' := by
  rcases h.writeEntries with heq | ⟨m, reg, hfree, -, -, heq⟩
  · exact .of_eq heq
  · exact .of_take hfree heq

theorem FillsOnResp.keepsWrites {p : MemPacket} (h : FillsOnResp c s p s') :
    KeepsWrites s s' := by
  cases h with
  | present => exact .of_eq rfl
  | fills _ h => exact h.keepsWrites

/-- A register of the write buffer is freed only by its answer, which leaves the
lines alone. -/
theorem Micro.keepsWrites (h : Micro c e s₀ φ s φ' s') :
    KeepsWrites s s' ∨ φ' = .done ∧ s'.tags = s.tags ∧ ∃ p w, φ = .consuming p w false := by
  cases h with
  | request r he h | retryWrite _ h | retryRead _ h | retryCache _ _ _ h | filled p h =>
    exact .inl h.keepsWrites
  | pamDoneHit pkt pr _ _ _ _ _ _ hfree | pamHit pkt pr _ _ _ _ _ _ hfree
  | pamAnswered p w _ _ _ _ hfree =>
    obtain ⟨q, b, pb, hq, rfl⟩ := hfree.frame
    exact .inl (.of_eq rfl)
  | pamDoneMiss pkt pr _ _ _ _ _ _ hfill hfree | readAnswered p w _ _ _ _ hfill hfree =>
    have hkeeps := hfill.keepsWrites
    obtain ⟨q, b, pb, hq, rfl⟩ := hfree.frame
    exact .inl hkeeps
  | writeMiss pkt rest d m q _ _ _ hq | writeAllocDirty pkt rest d m q _ _ _ _ hq =>
    exact .inl (.of_take hq.entries_self hq.entries_eq)
  | sendNothing hw | sendRefused _ _ hw | sentMiss _ _ _ _ hw =>
    obtain ⟨_, _, rfl⟩ := hw.frame
    exact .inl (.of_eq rfl)
  | sentWrite r target rest q hw _ _ hq =>
    obtain ⟨_, _, rfl⟩ := hw.frame
    refine .inl fun j reg hj => ?_
    simp only [hq.entries_eq]
    by_cases hjr : j = r
    · subst hjr
      rw [update_self]
      rw [← (MSHRQueue.entries_eq_some.1 hj).2]
      exact ⟨_, rfl, rfl⟩
    · rw [update_of_ne hjr]
      exact ⟨reg, hj, rfl⟩
  | writeAnswered p w _ _ _ hfree => exact .inr ⟨rfl, hfree.sameTags.1, p, w, rfl⟩
  | _ => exact .inl (.of_eq rfl)

/-! ## Blocks that were dirty -/

theorem dirtyTag_congr (h : t'.sets = t.sets) (i : ℕ) : t'.dirtyTag i = t.dirtyTag i := by
  rw [Tags.dirtyTag, Tags.dirtyTag, h]

theorem Covers.of_lines (h : SameLines s.tags s'.tags) : Covers c s s' :=
  fun i _ hi => .inl ((dirtyTag_congr h.sets i).trans hi)

/-- The lines that matter do not change, and neither do the writes. -/
theorem Covers.trans (h : Covers c s₀ s) (hlines : SameLines s.tags s'.tags)
    (hkeeps : KeepsWrites s s') : Covers c s₀ s' := by
  intro i tag hi
  rcases h i tag hi with hdirty | ⟨m, reg, hfree, hreg, hblk⟩
  · exact .inl ((dirtyTag_congr hlines.sets i).trans hdirty)
  · obtain ⟨reg', hreg', hblk'⟩ := hkeeps m reg hreg
    exact .inr ⟨m, reg', hfree, hreg', hblk'.trans hblk⟩

theorem Looks.dirtyTag {isRead gpu hit : Bool} (h : Looks c t isRead gpu a hit t')
    (hi : t.dirtyTag i = some tag) : t'.dirtyTag i = some tag := by
  cases h with
  | miss | found => exact hi
  | dirtied hres hwrite hclean =>
    have hne : i ≠ c.setOf a := by
      rintro rfl
      simp [Tags.dirtyTag, hclean] at hi
    simp only [Tags.dirtyTag, update_of_ne hne]
    exact hi

/-- A fill that overwrites a dirty line writes its block back. -/
theorem Fills.covers (h : Fills c s a ctx s') (hskip : skipsFill c s ctx = false)
    (hs : Sound c s.tags.sets) : Covers c s s' := by
  intro i tag hi
  have hsets := h.sets_eq hskip fun hdirty => (hs.victim hdirty).2
  by_cases hne : i = c.setOf a
  · subst hne
    have hdirty : (s.tags.sets (c.setOf a)).dirty = true := by
      by_contra hclean
      simp [Tags.dirtyTag, hclean] at hi
    have hvalid := hs.valid _ hdirty
    have htag : (s.tags.sets (c.setOf a)).tag = tag := by
      simpa [Tags.dirtyTag, hdirty] using hi
    cases h with
    | skipped h => simp [h] at hskip
    | clean _ _ _ hclean => simp [hdirty, hvalid] at hclean
    | dirty m q fq ifq _ _ _ hq =>
      have hblk : c.blockAlign (s.tags.victim c a) = c.regenerateBlkAddr (c.setOf a) tag := by
        rw [(hs.victim hdirty).1.blockAlign, Tags.victim, htag]
      have hentry := congrFun hq.entries_eq m
      rw [update_self] at hentry
      exact .inr ⟨m, _, hq.entries_self, hentry, hblk⟩
  · left
    rw [Tags.dirtyTag, hsets, update_of_ne hne]
    exact hi

/-- What a handler keeps up about the lines since it began in the state `s₀`. -/
structure Handled (c : Config) (e : Event) (s₀ : State) (φ : Phase) (s : State) :
    Prop where
  origin : Phase.start.Carries c.Fits s₀
  pkts : φ.Carries c.Fits s
  since : φ.Since e s₀ s
  sound : Sound c s.tags.sets
  covers : Covers c s₀ s
  keeps : φ ≠ .done → KeepsWrites s₀ s

/-- After its work a handler only sends retries. -/
theorem Micro.of_done (h : Micro c e s₀ .done s φ' s') :
    φ' = .done ∧ SameLines s.tags s'.tags ∧ KeepsWrites s s' := by
  cases h with
  | retryWrite _ h | retryRead _ h | retryCache _ _ _ h => exact ⟨rfl, h.sameLines.1, h.keepsWrites⟩

theorem Micro.covers (h : Micro c e s₀ φ s φ' s') (hok : AllocatesOnClean c s₀ e)
    (hs : Handled c e s₀ φ s) : Covers c s₀ s' := by
  by_cases hdone : φ = .done
  · subst hdone
    exact hs.covers.trans h.of_done.2.1 h.of_done.2.2
  rcases h.keepsWrites with hkeeps | ⟨-, htags, p, w, rfl⟩
  · have htag := h.tagStep hs.since
    cases htag with
    | same hlines => exact hs.covers.trans hlines hkeeps
    | look pkt hlast htags =>
      intro i tag hi
      rw [htags]
      exact .inl ((State.looks rfl).dirtyTag hi)
    | fill addr ctx hinst hbefore hlines hwrites hskip hfill htags hwrites' =>
      have hsound : Sound c _ := hs.sound
      rw [hbefore.sets, ← hlines.sets] at hsound
      intro i tag hi
      rw [← dirtyTag_congr hlines.sets] at hi
      rw [htags, hwrites']
      rcases hfill.covers hskip hsound i tag hi with hdirty | ⟨m, reg, hfree, hreg⟩
      · exact .inl hdirty
      · rw [hwrites] at hfree
        exact .inr ⟨m, reg, (hs.keeps hdone).free hfree, hreg⟩
    | allocClean pkt rest hlast hmiss halloc hclean htags =>
      intro i tag hi
      have hne : i ≠ c.setOf pkt.addr := by
        rintro rfl
        simp [Tags.dirtyTag, hclean] at hi
      rw [htags]
      simp only [Tags.dirtyTag, Tags.installDirty, Tags.setSet, Tags.setOwner, update_of_ne hne]
      exact .inl ((dirtyTag_congr (sameLines_of_miss hmiss).sets i).trans hi)
    | allocDirty pkt rest hlast hmiss halloc hdirty =>
      have hclean := (hok halloc pkt rest hlast hmiss).2
      simp [hclean] at hdirty
  · -- the answer to a write: the lines are as the handler found them
    refine Covers.of_lines ?_
    rw [htags]
    exact hs.since.2.1

theorem Micro.handled (h : Micro c e s₀ φ s φ' s') (hreq : Demands (fun _ r => c.Fits r.addr) s₀ e)
    (hok : AllocatesOnClean c s₀ e) (hs : Handled c e s₀ φ s) : Handled c e s₀ φ' s' where
  origin := hs.origin
  pkts := h.carries hreq hs.pkts
  since := h.since hs.since
  sound := (h.tagStep hs.since).sound hok hs.origin hs.sound
  covers := h.covers hok hs
  keeps hdone := by
    rcases h.keepsWrites with hkeeps | ⟨hfree, -⟩
    · refine (hs.keeps ?_).trans hkeeps
      rintro rfl
      exact hdone h.of_done.1
    · exact absurd hfree hdone

/-- The condition on the steps of a run: the block numbers of the requests fit,
and a write that allocates takes a clean line. -/
def WritesBack (c : Config) (s : State) (e : Event) : Prop :=
  Demands (fun _ r => c.Fits r.addr) s e ∧ AllocatesOnClean c s e

theorem handled_start (hpkts : Phase.start.Carries c.Fits s)
    (hs : Sound c s.tags.sets) : Handled c e s .start s where
  origin := hpkts
  pkts := hpkts
  since := trivial
  sound := hs
  covers := .of_lines (.refl _)
  keeps _ := .of_eq rfl

/-- The lines in every state reached. -/
theorem Reaches.sound (h : Reaches c (WritesBack c) s) :
    Phase.start.Carries c.Fits s ∧ Sound c s.tags.sets := by
  refine h.invariant_of_handlers (I := fun s => Phase.start.Carries c.Fits s ∧ Sound c s.tags.sets)
    (J := Handled c) ?_ ?_ ?_ ?_
  · refine fun store => ⟨State.init_carries c store, nofun, fun i hi => ?_⟩
    simp [State.init] at hi
  · exact fun e s₀ _ hs => handled_start hs.1 hs.2
  · exact fun e s₀ hok φ s φ' s' hs hmicro => hmicro.handled hok.1 hok.2 hs
  · exact fun e s₀ s hs => ⟨hs.pkts, hs.sound⟩

/-- A dirty line is valid, and a step after which the block in it is no longer
recorded as dirty takes a register of the write buffer for exactly that block. -/
theorem dirty_is_written_back (h : Reaches c (WritesBack c) s) :
    (∀ i, (s.tags.sets i).dirty = true → (s.tags.sets i).valid = true) ∧
      ∀ i, (s.tags.sets i).dirty = true → ∃ a, c.InRange a ∧ c.setOf a = i ∧
        c.tagOf a = (s.tags.sets i).tag ∧
        ∀ e s', WritesBack c s e → step c s e = .ok s' →
          ¬ ((s'.tags.sets i).dirty = true ∧ (s'.tags.sets i).tag = c.tagOf a) →
          ∃ m reg, s.writeBuffer.entries m = none ∧
            s'.writeBuffer.entries m = some reg ∧ reg.blkAddr = a := by
  obtain ⟨hpkts, hs⟩ := h.sound
  refine ⟨hs.valid, fun i hdirty => ?_⟩
  obtain ⟨a, ha, hset, htag⟩ := hs.holds i (.inr hdirty)
  refine ⟨a, ha, hset, htag, fun e s' hok hstep hgone => ?_⟩
  have hend : Handled c e s .done s' := (step_micros hstep).invariant
    (I := Handled c e s) (handled_start hpkts hs)
    fun φ s φ' s' hs hmicro => hmicro.handled hok.1 hok.2 hs
  have hrecorded : s.tags.dirtyTag i = some (c.tagOf a) := by
    simp [Tags.dirtyTag, hdirty, htag]
  rcases hend.covers i _ hrecorded with hkept | htakes
  · refine absurd ?_ hgone
    cases hd : (s'.tags.sets i).dirty with
    | false => simp [Tags.dirtyTag, hd] at hkept
    | true =>
      simp only [Tags.dirtyTag, hd, if_true, Option.some.injEq] at hkept
      exact ⟨rfl, hkept⟩
  · rw [← hset, ha.regenerateBlkAddr] at htakes
    exact htakes

namespace Scenario

/-- The GPU makes a block dirty and reads another block of the same set, up to
the answer of the memory. -/
def evictsDirty : List Event :=
  fill 0 1 ++ write 0 ++ [.recvTimingReq (gpuRead 4)] ++ lookup ++ send 2

/-- A controller that allocates on writes. -/
def allocating : Config := { config with writeAllocate := true }

/-- The GPU writes a block of an empty cache, and reads another block of the same
set, up to the answer of the memory. -/
def dropsDirty : List Event :=
  [.recvTimingReq (gpuWrite 0), serveNext, serveNext, serveNext,
    .processWriteRespondEvent, .processWriteRespondEvent,
    .recvTimingReq (gpuRead 4)] ++ lookup ++ send 1

end Scenario

open Scenario in
/-- A block is evicted while it is dirty. -/
theorem evicted_block_is_written_back :
    ((State.ofRun config blank evictsDirty).tags.sets 0).dirty = true ∧
      ((State.ofRun config blank evictsDirty).tags.sets 0).valid = true ∧
      ∃ a, config.InRange a ∧ config.setOf a = 0 ∧ ∀ s',
        step config (State.ofRun config blank evictsDirty) (answer 0) = .ok s' →
        ¬ ((s'.tags.sets 0).dirty = true ∧ (s'.tags.sets 0).tag = config.tagOf a) →
        ∃ m reg, s'.writeBuffer.entries m = some reg ∧ reg.blkAddr = a := by
  have hdirty : ((State.ofRun config blank evictsDirty).tags.sets 0).dirty = true := by
    decide +kernel
  have hreach : Reaches config (WritesBack config) (State.ofRun config blank evictsDirty) := by
    refine reaches_ofRun (Meets.of_forall fun e he s => ⟨demands_of_asks ?_, fun h => by cases h⟩)
      (by decide +kernel)
    revert e
    simp only [evictsDirty, List.forall_mem_append]
    refine ⟨⟨⟨⟨fill_asks (by decide), write_asks (by decide)⟩, ?_⟩, ?_⟩, ?_⟩
    · simp only [List.forall_mem_singleton]
      exact (by decide : config.Fits (gpuRead 4).addr)
    · simp [lookup, serveNext, Event.Asks, Event.upstream, quiet]
    · simp [send, Event.Asks, Event.upstream, quiet]
  obtain ⟨hvalid, hback⟩ := dirty_is_written_back hreach
  refine ⟨hdirty, hvalid 0 hdirty, ?_⟩
  obtain ⟨a, ha, hset, -, hstep⟩ := hback 0 hdirty
  refine ⟨a, ha, hset, fun s' hs' hgone => ?_⟩
  have hok : WritesBack config (State.ofRun config blank evictsDirty) (answer 0) := by
    refine ⟨demands_of_asks ?_, fun h => by cases h⟩
    simp [answer, Event.Asks, Event.upstream, quiet]
  obtain ⟨m, reg, -, hreg⟩ := hstep (answer 0) s' hok hs' hgone
  exact ⟨m, reg, hreg⟩

open Scenario in
/-- A write that misses makes its line dirty, but not valid.  The fill of another
block takes the line, and nothing is written back. -/
theorem dirty_block_is_dropped :
    ∃ s, Reaches allocating (Demands fun _ r => allocating.Fits r.addr) s ∧
      (s.tags.sets 0).dirty = true ∧ (s.tags.sets 0).valid = false ∧
      ∃ s', step allocating s (answer 0) = .ok s' ∧ (s'.tags.sets 0).dirty = false ∧
        s'.writeBuffer.allocatedList = [] := by
  refine ⟨State.ofRun allocating blank dropsDirty, ?_, by decide +kernel,
    by decide +kernel, Post.exists_ok (by decide +kernel)⟩
  refine reaches_ofRun (Meets.of_forall fun e he s => demands_of_asks ?_) (by decide +kernel)
  revert e
  simp only [dropsDirty, List.forall_mem_append]
  refine ⟨⟨?_, ?_⟩, ?_⟩
  · have hwrite : allocating.Fits (gpuWrite 0).addr := by decide
    have hread : allocating.Fits (gpuRead 4).addr := by decide
    simp [serveNext, Event.Asks, Event.upstream, quiet, hwrite, hread]
  · simp [lookup, serveNext, Event.Asks, Event.upstream, quiet]
  · simp [send, Event.Asks, Event.upstream, quiet]

end Gem5Gpu.DRAMCache
