import Gem5Gpu.DRAMCache.TagStore
import Gem5Gpu.Lib.Recency

/-!
# The store of evicted tags

`LRUTagStore` remembers the blocks that fills have evicted.  A request for one of
them goes to the memory without a lookup, so a block in the store must not be in
the cache.  The store is kept up to date by the fills alone: the block that comes
in is removed, and the one that goes out is inserted.

* `Exclusive` is the invariant: no duplicates, no more blocks than fit, and no
  block that is in the cache.
* `Swaps` is what a fill needs for it.  A fill over a line of the GPU leaves the
  store alone, so its block must not be in it.  Any other fill inserts the block
  that the line stands for, whether the line was valid or not, so this must not
  be the block that comes in, and not be in the store already.
* The order of the store is the order of the last uses, `RecentFirst`.
-/

namespace Gem5Gpu.DRAMCache

open Mem Lib Function

variable {c : Config} {e : Event} {s s' s₀ s₁ : State} {φ φ' : Phase}
  {a b i ctx : ℕ} {t t' : Tags} {sets : ℕ → CacheSet} {l : List ℕ}

/-! ## The invariant -/

/-- The tag of a line is that of a block, or the one it began with. -/
def Tagged (c : Config) (sets : ℕ → CacheSet) : Prop :=
  ∀ i, (sets i).tag = 0 ∨ ∃ b, c.InRange b ∧ c.setOf b = i ∧ c.tagOf b = (sets i).tag

/-- The store and the cache have no block in common. -/
structure Exclusive (c : Config) (sets : ℕ → CacheSet) (l : List ℕ) : Prop where
  nodup : l.Nodup
  bounded : l.length ≤ c.bypassTagSize
  inRange : ∀ b ∈ l, c.InRange b
  absent : ∀ b ∈ l, ¬ ((sets (c.setOf b)).tag = c.tagOf b ∧ (sets (c.setOf b)).valid = true)

/-- What a fill needs of the lines and of the store. -/
def Swaps (c : Config) (t : Tags) (a : ℕ) : Prop :=
  if t.isGPUOwned (c.setOf a) then t.isHit c a = false
  else t.victim c a ≠ c.blockAlign a ∧
    ((t.sets (c.setOf a)).valid = true ∨ t.victim c a ∉ t.bypassTag)

/-- A response is for a block that the cache takes. -/
def State.wants (c : Config) (s : State) (addr : ℕ) : Bool :=
  match s.pamQueue addr with
  | none => !s.tags.resident c addr
  | some pr => pr.isHit == some false

/-- The block that the handler of an event installs. -/
def State.installs (c : Config) (s : State) : Event → Option ℕ
  | .processRespondEvent _ => do
    let burst ← s.respQueue.head?
    let pr ← s.pamQueue burst.pkt.addr
    let first ← (s.mshrQueue.registers pr.mshr).targets.head?
    if s.burstsServiced burst.pkt.id + 1 = 2 ∧ pr.pkt = burst.pkt.ptr ∧
        pr.isPamComplete = true ∧ (s.lookup c burst.pkt).1 = false ∧
        skipsFill c s burst.pkt.contextId = false then
      some first.addr
    else none
  | .recvTimingResp i _ => do
    let p ← s.mem[i]?
    if p.queue = .mshrs ∧ skipsFill c s p.contextId = false ∧ s.wants c p.addr = true then
      some p.addr
    else none
  | _ => none

/-- A write that allocates its block in a valid line does not find it in the
store. -/
def AllocatesUnlisted (c : Config) (s : State) : Event → Prop
  | .processWriteRespondEvent => ∀ b ∈ s.dramPktWriteRespQueue.head?,
      c.writeAllocate = true → s.burstsServiced b.pkt.id + 1 = 2 →
      (s.lookup c b.pkt).1 = false →
      (s.tags.sets (c.setOf b.pkt.addr)).valid = true →
      (s.tags.sets (c.setOf b.pkt.addr)).dirty = false →
      s.tags.isHit c b.pkt.addr = false
  | _ => True

/-- The blocks that come in are swapped for others. -/
def SwapsTags (c : Config) (s : State) (e : Event) : Prop :=
  (∀ a ∈ s.installs c e, Swaps c s.tags a) ∧ AllocatesUnlisted c s e

instance (c : Config) (t : Tags) (a : ℕ) : Decidable (Swaps c t a) :=
  inferInstanceAs (Decidable (if t.isGPUOwned (c.setOf a) then _ else _ ∧ (_ ∨ ¬ _)))

instance (c : Config) (s : State) : (e : Event) → Decidable (AllocatesUnlisted c s e)
  | .processWriteRespondEvent =>
    inferInstanceAs (Decidable (∀ b ∈ s.dramPktWriteRespQueue.head?, _))
  | .recvTimingReq _ | .processNextReqEvent .. | .processRespondEvent _
  | .processSendEvent .. | .recvReqRetry .. | .recvTimingResp .. | .advance _
  | .setGpuRunning _ | .drain | .drainResume => .isTrue trivial

instance (c : Config) (s : State) (e : Event) : Decidable (SwapsTags c s e) :=
  inferInstanceAs (Decidable (_ ∧ _))

theorem Installs.installs_eq (h : Installs c s e a) : s.installs c e = some a := by
  cases h with
  | lookup pkt pr first rest hlast hdone hmiss htargets hskip =>
    obtain ⟨up, rfl⟩ := hlast.event
    obtain ⟨burst, queue, hfront⟩ := hlast.front
    have hserviced : s.burstsServiced pkt.id = 1 := Nat.succ.inj hlast.last
    simp [State.installs, hfront, hlast.entry, htargets, hserviced, hlast.pkt_ptr,
      hdone, hmiss, hskip]
  | answer p pam hans hqueue hskip habsent =>
    obtain ⟨i, up, rfl, hp⟩ := hans.answers
    cases pam with
    | true =>
      obtain ⟨-, pr, hpr, hhit⟩ := hans.found rfl
      simp [State.installs, State.wants, hp, hqueue, hskip, hpr, hhit]
    | false =>
      have hres : s.tags.resident c p.addr = false := by
        rcases habsent rfl with hvalid | htag
        · simp [Tags.resident, hvalid]
        · simp [Tags.resident, htag]
      simp [State.installs, State.wants, hp, hqueue, hskip, hans.absent rfl hqueue, hres]

/-! ## Blocks and lines -/

/-- Blocks with the same set and tag are the same. -/
theorem Config.InRange.eq (ha : c.InRange a) (hb : c.InRange b)
    (hset : c.setOf a = c.setOf b) (htag : c.tagOf a = c.tagOf b) : a = b := by
  rw [← ha.regenerateBlkAddr, ← hb.regenerateBlkAddr, hset, htag]

/-- The block that a line stands for, when the line belongs to an address. -/
theorem Tagged.victim (h : Tagged c t.sets) (ha : c.Fits a) :
    c.InRange (t.victim c a) ∧ c.setOf (t.victim c a) = c.setOf a ∧
      c.tagOf (t.victim c a) = (t.sets (c.setOf a)).tag := by
  have hblock : ∃ b, c.InRange b ∧ c.setOf b = c.setOf a ∧
      c.tagOf b = (t.sets (c.setOf a)).tag := by
    rcases h (c.setOf a) with htag | hblock
    · -- the first block of the set
      have hle : c.setOf a * c.blockSize ≤ a := by
        calc c.setOf a * c.blockSize ≤ a / c.blockSize * c.blockSize :=
              Nat.mul_le_mul_right _ ((Nat.mod_le _ _).trans (Nat.mod_le _ _))
          _ ≤ a := Nat.div_mul_le_self a c.blockSize
      have hlt : c.setOf a < 2 ^ 32 :=
        (Nat.mod_le _ _).trans_lt (Nat.mod_lt _ (by decide))
      have hset : c.setOf a < c.numSets := Nat.mod_lt _ c.numSets_pos
      refine ⟨c.setOf a * c.blockSize, ⟨Nat.dvd_mul_left _ _, hle.trans_lt ha.1,
        hle.trans_lt ha.2⟩, ?_, ?_⟩
      · change c.setOf a * c.blockSize / c.blockSize % 2 ^ 32 % c.numSets = _
        rw [Nat.mul_div_cancel _ c.blockSize_pos, Nat.mod_eq_of_lt hlt, Nat.mod_eq_of_lt hset]
      · rw [htag]
        change c.setOf a * c.blockSize / c.blockSize % 2 ^ 32 / c.numSets = 0
        rw [Nat.mul_div_cancel _ c.blockSize_pos, Nat.mod_eq_of_lt hlt, Nat.div_eq_of_lt hset]
    · exact hblock
  obtain ⟨b, hb, hset, htag⟩ := hblock
  have hvictim : t.victim c a = b := by
    rw [Tags.victim, ← htag, ← hset, hb.regenerateBlkAddr]
  rw [hvictim]
  exact ⟨hb, hset, htag⟩

theorem Tagged.update (h : Tagged c sets) {line : CacheSet}
    (hline : ∃ b, c.InRange b ∧ c.setOf b = i ∧ c.tagOf b = line.tag) :
    Tagged c (Function.update sets i line) := by
  intro j
  by_cases hj : j = i
  · subst hj
    rw [Function.update_self]
    exact .inr hline
  · rw [Function.update_of_ne hj]
    exact h j

namespace Exclusive

/-- A line changes so that it holds no block of the store. -/
theorem setLine (h : Exclusive c sets l) {line : CacheSet}
    (hline : ∀ b ∈ l, c.setOf b = i → ¬ (line.tag = c.tagOf b ∧ line.valid)) :
    Exclusive c (update sets i line) l := {
  h with
  absent b hb := by
    by_cases hi : c.setOf b = i
    · rw [hi, update_self]
      exact hline b hb hi
    · rw [update_of_ne hi]
      exact h.absent b hb }

/-- The store keeps some of its blocks, in any order. -/
theorem subset (h : Exclusive c sets l) {l' : List ℕ} (hl : l'.Subperm l) :
    Exclusive c sets l' where
  nodup := by
    obtain ⟨l₁, hperm, hsub⟩ := hl
    exact hperm.nodup_iff.1 (h.nodup.sublist hsub)
  bounded := hl.length_le.trans h.bounded
  inRange b hb := h.inRange b (hl.subset hb)
  absent b hb := h.absent b (hl.subset hb)

/-- A block that is not in the cache is inserted. -/
theorem insert (h : Exclusive c sets l) (hsize : 1 ≤ c.bypassTagSize)
    (hb : c.InRange b) (hnew : b ∉ l)
    (habsent : ¬ ((sets (c.setOf b)).tag = c.tagOf b ∧ (sets (c.setOf b)).valid = true)) :
    Exclusive c sets (b :: if l.length = c.bypassTagSize then l.dropLast else l) := by
  have hrest : Exclusive c sets (if l.length = c.bypassTagSize then l.dropLast else l) := by
    split
    · exact h.subset (List.dropLast_sublist l).subperm
    · exact h
  have hsub : (if l.length = c.bypassTagSize then l.dropLast else l) ⊆ l := by
    split
    · exact List.dropLast_subset l
    · exact List.Subset.refl l
  refine ⟨List.nodup_cons.2 ⟨fun hmem => hnew (hsub hmem), hrest.nodup⟩, ?_, ?_, ?_⟩
  · have hle := h.bounded
    rw [List.length_cons]
    split
    · rw [List.length_dropLast]
      omega
    · omega
  · exact List.forall_mem_cons.2 ⟨hb, hrest.inRange⟩
  · exact List.forall_mem_cons.2 ⟨habsent, hrest.absent⟩

end Exclusive

/-- A line and the store after a fill. -/
theorem Tags.install_bypassTag (hen : c.bypassTagEnable) (victim : ℕ) :
    (t.install c a ctx victim).bypassTag =
      if t.isGPUOwned (c.setOf a) then t.bypassTag
      else c.blockAlign victim ::
        if (t.bypassTag.erase (c.blockAlign a)).length = c.bypassTagSize then
          (t.bypassTag.erase (c.blockAlign a)).dropLast
        else t.bypassTag.erase (c.blockAlign a) := by
  cases h : t.isGPUOwned (c.setOf a) with
  | true => simp [install, hen, h, setSet, setOwner]
  | false =>
    simp [install, hen, h, setSet, setOwner, removeFromBypassTag, insertIntoBypassTag]
    rfl

theorem Fills.bypassTag_eq (h : Fills c s a ctx s')
    (hskip : skipsFill c s ctx = false) (hen : c.bypassTagEnable) :
    s'.tags.bypassTag = if s.tags.isGPUOwned (c.setOf a) then s.tags.bypassTag
      else c.blockAlign (s.tags.victim c a) ::
        if (s.tags.bypassTag.erase (c.blockAlign a)).length = c.bypassTagSize then
          (s.tags.bypassTag.erase (c.blockAlign a)).dropLast
        else s.tags.bypassTag.erase (c.blockAlign a) := by
  cases h with
  | skipped h => simp [h] at hskip
  | clean => exact Tags.install_bypassTag hen _
  | dirty =>
    simp only
    rw [Tags.install_bypassTag hen]
    simp only [Tags.clearSet, Tags.setSet, Tags.forget_eq]

/-- A fill swaps a block of the store for the one that it evicts. -/
theorem Exclusive.fill (h : Exclusive c t.sets t.bypassTag) (htags : Tagged c t.sets)
    (hsize : 1 ≤ c.bypassTagSize) (ha : c.Fits a) (hswap : Swaps c t a) :
    Exclusive c (update t.sets (c.setOf a) { tag := c.tagOf a, valid := true, dirty := false })
      (if t.isGPUOwned (c.setOf a) then t.bypassTag
        else c.blockAlign (t.victim c a) ::
          if (t.bypassTag.erase (c.blockAlign a)).length = c.bypassTagSize then
            (t.bypassTag.erase (c.blockAlign a)).dropLast
          else t.bypassTag.erase (c.blockAlign a)) := by
  obtain ⟨hblock, hset, htag⟩ := ha.block
  -- a block of the line that is filled is the one that comes in
  have hsame : ∀ b, c.InRange b → c.setOf b = c.setOf a → c.tagOf a = c.tagOf b →
      b = c.blockAlign a := fun b hb hbset hbtag =>
    hb.eq hblock (hbset.trans hset.symm) (hbtag.symm.trans htag.symm)
  unfold Swaps at hswap
  split at hswap
  · rename_i hgpu
    rw [if_pos hgpu]
    refine h.setLine fun b hb hbset hline => ?_
    rw [hsame b (h.inRange b hb) hbset hline.1] at hb
    simp [Tags.isHit, hb] at hswap
  · rename_i hcpu
    obtain ⟨hne, hnew⟩ := hswap
    obtain ⟨hvictim, hvset, hvtag⟩ := htags.victim ha
    rw [if_neg hcpu, hvictim.blockAlign]
    have hleft : Exclusive c (update t.sets (c.setOf a)
        { tag := c.tagOf a, valid := true, dirty := false })
        (t.bypassTag.erase (c.blockAlign a)) := by
      refine (h.subset List.erase_sublist.subperm).setLine fun b hb hbset hline => ?_
      rw [hsame b (h.inRange b (List.mem_of_mem_erase hb)) hbset hline.1] at hb
      exact h.nodup.not_mem_erase hb
    refine hleft.insert hsize hvictim (fun hmem => ?_) fun hline => ?_
    · have hmem := List.mem_of_mem_erase hmem
      rcases hnew with hvalid | hnew
      · refine h.absent _ hmem ?_
        rw [hvset]
        exact ⟨hvtag.symm, hvalid⟩
      · exact hnew hmem
    · rw [hvset, update_self] at hline
      exact hne (hsame _ hvictim hvset hline.1)

/-! ## The pieces of the handlers -/

/-- The lines and the store. -/
structure Listed (c : Config) (t : Tags) : Prop where
  tagged : Tagged c t.sets
  exclusive : Exclusive c t.sets t.bypassTag

theorem Listed.of_sameLines (h : Listed c t) (hlines : SameLines t t') :
    Listed c t' := by
  refine ⟨?_, ?_⟩
  · rw [hlines.sets]
    exact h.tagged
  · rw [hlines.sets]
    exact h.exclusive.subset hlines.bypassTag.subperm

theorem Looks.listed {isRead gpu hit : Bool} (h : Looks c t isRead gpu a hit t')
    (hs : Listed c t) : Listed c t' := by
  cases h with
  | miss | found => exact ⟨hs.tagged, hs.exclusive⟩
  | dirtied hres =>
    -- the tag and the valid bit of the line stay
    have hline : ∀ j, (update t.sets (c.setOf a)
        { t.sets (c.setOf a) with dirty := true } j).tag = (t.sets j).tag ∧
        (update t.sets (c.setOf a)
          { t.sets (c.setOf a) with dirty := true } j).valid = (t.sets j).valid := by
      intro j
      by_cases hj : j = c.setOf a
      · subst hj
        simp
      · simp [hj]
    refine ⟨fun j => ?_, hs.exclusive.nodup, hs.exclusive.bounded,
      hs.exclusive.inRange, fun b hb => ?_⟩
    · rw [(hline j).1]
      exact hs.tagged j
    · rw [(hline _).1, (hline _).2]
      exact hs.exclusive.absent b hb

theorem Swaps.of_sameLines (h : Swaps c t a) (hlines : SameLines t t') :
    Swaps c t' a := by
  have hvictim : t'.victim c a = t.victim c a := by
    rw [Tags.victim, Tags.victim, hlines.sets]
  simp only [Swaps, Tags.isHit, hlines.isGPUOwned, hlines.sets, hvictim,
    hlines.bypassTag.mem_iff] at h ⊢
  exact h

theorem TagStep.listed (h : TagStep c e s₀ s s') (hen : c.bypassTagEnable)
    (hsize : 1 ≤ c.bypassTagSize) (hok : SwapsTags c s₀ e)
    (hpkts : Phase.start.Carries c.Fits s₀) (hs : Listed c s.tags) :
    Listed c s'.tags := by
  cases h with
  | same hlines => exact hs.of_sameLines hlines
  | look pkt hlast htags =>
    rw [htags]
    exact (State.looks rfl).listed hs
  | @fill _ _ s₁ s₂ addr ctx hinst hbefore hlines _ hskip hfill htags =>
    have haddr := hinst.addr hpkts
    have hswap : Swaps c s₁.tags addr :=
      (hok.1 addr (by simp [hinst.installs_eq])).of_sameLines hlines
    have hs₁ : Listed c s₁.tags := by
      refine ⟨?_, ?_⟩
      · rw [hlines.sets, ← hbefore.sets]
        exact hs.tagged
      · rw [hlines.sets, ← hbefore.sets]
        exact hs.exclusive.subset (hlines.bypassTag.trans hbefore.bypassTag.symm).subperm
    have hsets := hfill.sets_eq hskip fun _ => (hs₁.tagged.victim haddr).2.1
    rw [htags]
    refine ⟨?_, ?_⟩
    · rw [hsets]
      exact hs₁.tagged.update ⟨_, haddr.block⟩
    · rw [hsets, hfill.bypassTag_eq hskip hen]
      exact hs₁.exclusive.fill hs₁.tagged hsize haddr hswap
  | allocClean pkt rest hlast hmiss halloc hclean htags =>
    have haddr := (hlast.isPacket hpkts).addr
    have hs₁ := hs.of_sameLines (sameLines_of_miss hmiss)
    rw [htags]
    refine ⟨hs₁.tagged.update ⟨_, haddr.block⟩, hs₁.exclusive.setLine ?_⟩
    rintro b hb hbset ⟨hbtag, hvalid⟩
    -- the block would be in the store although its line is valid
    obtain ⟨hblock, hset, htag⟩ := haddr.block
    have heq : b = c.blockAlign pkt.addr := (hs₁.exclusive.inRange b hb).eq hblock
      (hbset.trans hset.symm) (hbtag.symm.trans htag.symm)
    have hlines := sameLines_of_miss hmiss
    obtain ⟨burst, hfront⟩ := hlast.front
    have hunlisted := hok.2
    rw [hlast.event] at hunlisted
    simp only [hlines.sets] at hvalid
    have hhit := hunlisted ⟨pkt, burst⟩ (by simp [hfront]) halloc hlast.last hmiss hvalid hclean
    rw [hlines.bypassTag.mem_iff, heq] at hb
    simp [Tags.isHit, hb] at hhit
  | allocDirty pkt rest hlast hmiss halloc hdirty htags =>
    have haddr := (hlast.isPacket hpkts).addr
    have hs₁ := hs.of_sameLines (sameLines_of_miss hmiss)
    have hvset := (hs₁.tagged.victim haddr).2.1
    rw [htags]
    simp only [Tags.clearSet, hvset]
    have hcleared : Exclusive c (update (s.lookup c pkt).2.sets
        (c.setOf pkt.addr) { (s.lookup c pkt).2.sets (c.setOf pkt.addr) with
          valid := false, dirty := false }) (s.lookup c pkt).2.bypassTag :=
      hs₁.exclusive.setLine (by simp)
    have htagged : Tagged c (update (s.lookup c pkt).2.sets
        (c.setOf pkt.addr) { (s.lookup c pkt).2.sets (c.setOf pkt.addr) with
          valid := false, dirty := false }) := by
      intro j
      by_cases hj : j = c.setOf pkt.addr
      · subst hj
        rw [update_self]
        exact hs₁.tagged _
      · rw [update_of_ne hj]
        exact hs₁.tagged j
    refine ⟨htagged.update ⟨_, haddr.block⟩, hcleared.setLine ?_⟩
    simp [Tags.setSet]

/-! ## The order of the store -/

/-- The calls of the methods of the store. -/
inductive TagOp
  | insertIntoBypassTag (a : ℕ)
  | isHit (a : ℕ)
  | removeFromBypassTag (a : ℕ)

/-- The store after a call, and the blocks that were inserted or hit so far,
newest first. -/
def TagOp.apply (c : Config) (x : Tags × List ℕ) : TagOp → Tags × List ℕ
  | .insertIntoBypassTag a => (x.1.insertIntoBypassTag c a, c.blockAlign a :: x.2)
  | .isHit a => (x.1.touchBypassTag c a,
      if x.1.isHit c a then c.blockAlign a :: x.2 else x.2)
  | .removeFromBypassTag a => (x.1.removeFromBypassTag c a, x.2)

/-- The calls of a history, oldest first, when no block is inserted that is in
the store. -/
inductive TagHistory (c : Config) : Tags × List ℕ → Prop
  | empty : TagHistory c ({}, [])
  | next {x : Tags × List ℕ} (op : TagOp) (h : TagHistory c x)
      (hnew : ∀ a, op = .insertIntoBypassTag a → x.1.isHit c a = false) :
      TagHistory c (op.apply c x)

theorem TagHistory.recentFirst {x : Tags × List ℕ} (h : TagHistory c x) :
    RecentFirst x.2 x.1.bypassTag := by
  induction h with
  | empty => exact .nil
  | @next x op _ hnew ih =>
    cases op with
    | insertIntoBypassTag a =>
      have hnew := hnew a rfl
      simp only [Tags.isHit, decide_eq_false_iff_not] at hnew
      simp only [TagOp.apply, Tags.insertIntoBypassTag]
      split
      · exact (ih.sublist (List.dropLast_sublist _)).cons
          fun hmem => hnew (List.mem_of_mem_dropLast hmem)
      · exact ih.cons hnew
    | isHit a =>
      simp only [TagOp.apply, Tags.touchBypassTag]
      split
      · exact ih.touch
      · exact ih
    | removeFromBypassTag a => exact ih.sublist List.erase_sublist

theorem Reaches.listed (hen : c.bypassTagEnable) (hsize : 1 ≤ c.bypassTagSize) (h : Reaches c
      (fun s e => Demands (fun _ r => c.Fits r.addr) s e ∧ SwapsTags c s e) s) :
    Listed c s.tags := by
  refine h.tags_invariant (I := Listed c) (fun s e hok => hok.1) ?_ ?_
  · exact ⟨fun i => .inl rfl, .nil, Nat.zero_le _, nofun, nofun⟩
  · exact fun e s₀ s s' hok hpkts hstep hs => hstep.listed hen hsize hok.2 hpkts hs

/-- The store has no duplicates, is not larger than its size, and has no block
in common with the cache.  A hit moves the block to the front and leaves the
order of the others, and the block that makes room for a new one is the least
recently inserted or hit one. -/
theorem bypass_tags_exclusive (hen : c.bypassTagEnable = true)
    (hsize : 1 ≤ c.bypassTagSize) (h : Reaches c
      (fun s e => Demands (fun _ r => c.Fits r.addr) s e ∧ SwapsTags c s e) s) :
    (s.tags.bypassTag.Nodup ∧ s.tags.bypassTag.length ≤ c.bypassTagSize ∧
      ∀ a, c.Fits a → s.tags.isHit c a = true → s.tags.resident c a = false) ∧
    (∀ (t : Tags) (a : ℕ), t.isHit c a = true → (t.touchBypassTag c a).bypassTag =
      c.blockAlign a :: t.bypassTag.erase (c.blockAlign a)) ∧
    ∀ t uses, TagHistory c (t, uses) → t.bypassTag.length = c.bypassTagSize →
      ∀ a, ∃ oldest, t.bypassTag = t.bypassTag.dropLast ++ [oldest] ∧
        (t.insertIntoBypassTag c a).bypassTag = c.blockAlign a :: t.bypassTag.dropLast ∧
        ∀ x ∈ t.bypassTag.dropLast, uses.idxOf x < uses.idxOf oldest := by
  refine ⟨?_, fun t a hhit => ?_, fun t uses ht hfull a => ?_⟩
  · obtain ⟨-, hs⟩ := h.listed hen hsize
    refine ⟨hs.nodup, hs.bounded, fun a ha hhit => ?_⟩
    obtain ⟨-, hset, htag⟩ := ha.block
    simp only [Tags.isHit, decide_eq_true_eq] at hhit
    have habsent := hs.absent _ hhit
    rw [hset, htag] at habsent
    rw [← Bool.not_eq_true, Tags.resident, Bool.and_eq_true, beq_iff_eq]
    exact habsent
  · simp [Tags.touchBypassTag, hhit]
  · have hne : t.bypassTag ≠ [] := by
      intro hnil
      simp only [hnil, List.length_nil] at hfull
      omega
    refine ⟨t.bypassTag.getLast hne, (List.dropLast_append_getLast hne).symm, ?_, ?_⟩
    · simp [Tags.insertIntoBypassTag, hfull]
    · intro x hx
      refine ht.recentFirst.lt_getLast hx ?_
      rw [List.getLast?_eq_getLast_of_ne_nil hne]
      rfl

namespace Scenario

/-- A controller that remembers two evicted tags. -/
def remembering : Config :=
  { config with bypassTagEnable := true, bypassTagSize := 2 }

/-- A CPU reads a block, which misses and is installed. -/
def cpuFill (block t : ℕ) : List Event :=
  .recvTimingReq (cpuRead block true) :: lookup ++ send t ++ [answer 0]

theorem cpuFill_asks {P : TimingReq → Prop} {block t : ℕ}
    (h : P (cpuRead block true)) : ∀ e ∈ cpuFill block t, e.Asks P := by
  simp [cpuFill, lookup, send, answer, serveNext, Event.Asks, Event.upstream, quiet, h]

/-- A block comes in, and the one that its line stood for at first is read, which
goes to the memory. -/
def swaps : List Event :=
  cpuFill 4 1 ++ .recvTimingReq (cpuRead 0 true) :: send 6 ++ [answer 0]

end Scenario

open Scenario in
/-- Two blocks of one set, of which one is in the cache and the other one is in
the store. -/
theorem swapped_blocks_are_apart : (State.ofRun remembering blank swaps).tags.bypassTag = [512] ∧
      ∀ a, remembering.Fits a →
        (State.ofRun remembering blank swaps).tags.isHit remembering a = true →
        (State.ofRun remembering blank swaps).tags.resident remembering a = false := by
  refine ⟨by decide +kernel, ?_⟩
  refine (bypass_tags_exclusive (c := remembering) rfl (by decide) ?_).1.2.2
  refine reaches_ofRun (Meets.and ?_ (by decide +kernel)) (by decide +kernel)
  refine Meets.of_forall fun e he s =>
    demands_of_asks (P := fun r => remembering.Fits r.addr) ?_
  revert e
  simp only [swaps, List.forall_mem_append, List.forall_mem_cons]
  refine ⟨⟨cpuFill_asks (by decide), ?_, ?_⟩, ?_⟩
  · exact (by decide : remembering.Fits (cpuRead 0 true).addr)
  · simp [send, Event.Asks, Event.upstream, quiet]
  · simp [answer, Event.Asks, Event.upstream, quiet]

open Scenario in
/-- The first fill of an empty line with the tag zero.  The line stands for the
block that comes in, so the block is removed from the store and inserted again,
and the next read of it ignores the line. -/
theorem resident_block_is_listed :
    ∃ s, Reaches remembering (Demands fun _ r => remembering.Fits r.addr) s ∧
      s.tags.isHit remembering 0 ∧ s.tags.resident remembering 0 ∧
      ∃ s', step remembering s (.recvTimingReq (cpuRead 0 true)) = .ok s' ∧
        s'.mshrQueue.allocatedList = [0] ∧ s'.readQueue = [] := by
  refine ⟨State.ofRun remembering blank (cpuFill 0 1), ?_, by decide +kernel,
    by decide +kernel, Post.exists_ok (by decide +kernel)⟩
  refine reaches_ofRun (Meets.of_forall fun e he s => ?_) (by decide +kernel)
  refine demands_of_asks (P := fun r => remembering.Fits r.addr) ?_
  revert e
  exact cpuFill_asks (by decide)

end Gem5Gpu.DRAMCache
