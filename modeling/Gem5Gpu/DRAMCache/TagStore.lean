import Gem5Gpu.DRAMCache.Packets

/-!
# What the operations on the tag store do

The counterpart of `Recv` and `Fills` for the tag store.

* `Looks` lists the ways in which a lookup can end, and `State.looks` says that
  these are all.
* The fills and the evictions are described by equations.
* `Holds` says which blocks the lines of the cache can hold: the address that
  `regenerateBlkAddr` makes up from a line is the address of a block that was
  installed, and leads back to the same line.
* `TagStep` lists the ways in which a piece of a handler can change the lines,
  and `Micro.tagStep` says that these are all.  A fill is described by what the
  handler found when it began, `Installs`.
-/

namespace Gem5Gpu.DRAMCache

open Mem Lib Function

variable {c : Config}

/-! ## Lookups -/

/-- A valid, dirty line of the GPU. -/
def Tags.gpuDirty (t : Tags) (i : ℕ) : Bool :=
  (t.sets i).valid && t.isGPUOwned i && (t.sets i).dirty

/-- The counter of dirty GPU lines after a miss. -/
def Tags.missTotal (c : Config) (t : Tags) (isRead gpu : Bool) (addr : ℕ) : ℕ :=
  let i := c.setOf addr
  let n := if t.gpuDirty i then
    (t.totalGpuDirtyLines + (2 ^ 64 - 1)) % 2 ^ 64 else t.totalGpuDirtyLines
  if !isRead && gpu && !((t.sets i).dirty && t.isGPUOwned i) && c.writeAllocate
  then (n + 1) % 2 ^ 64 else n

/-- The ways in which a lookup can end: whether it hits, and the tag store
afterwards. -/
inductive Looks (c : Config) (t : Tags) (isRead gpu : Bool) (addr : ℕ) :
    Bool → Tags → Prop
  | miss (habsent : t.resident c addr = false) :
      Looks c t isRead gpu addr false { t with totalGpuDirtyLines := t.missTotal c isRead gpu addr }
  | found (hres : t.resident c addr = true)
      (hold : isRead = true ∨ (t.sets (c.setOf addr)).dirty = true) :
      Looks c t isRead gpu addr true { t with
        isGPUOwned := update t.isGPUOwned (c.setOf addr) gpu }
  | dirtied (hres : t.resident c addr = true) (hwrite : isRead = false)
      (hclean : (t.sets (c.setOf addr)).dirty = false) :
      Looks c t isRead gpu addr true
        { sets := update t.sets (c.setOf addr) { t.sets (c.setOf addr) with dirty := true }
          isGPUOwned := update t.isGPUOwned (c.setOf addr) gpu
          totalGpuDirtyLines := if gpu then (t.totalGpuDirtyLines + 1) % 2 ^ 64
            else t.totalGpuDirtyLines
          cbf := if c.bloomFilterEnable then
              CountingBloom.add bloomMax (c.bloomCells (c.blockAlign addr)) t.cbf
            else t.cbf
          bypassTag := t.bypassTag }

theorem Tags.lookupMiss_eq (c : Config) (t : Tags) (isRead gpu : Bool)
    (addr : ℕ) : t.lookupMiss c isRead gpu addr =
      { t with totalGpuDirtyLines := t.missTotal c isRead gpu addr } := by
  cases hd : t.gpuDirty (c.setOf addr) with
  | true =>
    have hline := hd
    simp only [gpuDirty] at hline
    simp only [lookupMiss, missTotal, hd, hline, if_true, decGpuDirty, incGpuDirty]
    split <;> rfl
  | false =>
    have hline := hd
    simp only [gpuDirty] at hline
    simp only [lookupMiss, missTotal, hd, hline, Bool.false_eq_true, if_false, incGpuDirty]
    split <;> rfl

theorem Tags.lookupHit_looks {t : Tags} {addr : ℕ}
    (isRead gpu : Bool) (hres : t.resident c addr) :
    Looks c t isRead gpu addr true (t.lookupHit c isRead gpu addr) := by
  cases isRead with
  | true => exact .found hres (.inl rfl)
  | false =>
    cases hd : (t.sets (c.setOf addr)).dirty with
    | true =>
      have heq : t.lookupHit c false gpu addr = t.setOwner (c.setOf addr) gpu := by
        simp [lookupHit, setOwner, hd]
      rw [heq]
      exact .found hres (.inr hd)
    | false =>
      convert Looks.dirtied hres rfl hd using 1
      simp only [lookupHit, setOwner, hd, incGpuDirty, cbfAdd, setSet,
        Bool.false_eq_true, if_false, update_self, Bool.not_false,
        Bool.true_and]
      cases gpu <;> cases c.bloomFilterEnable <;> simp [hd]

theorem Tags.doCacheLookup_looks (c : Config) (t : Tags) (cmd : MemCmd) (addr ctx : ℕ) :
    Looks c t cmd.isRead (ctx == gpuContextId) addr
      (t.doCacheLookup c cmd addr ctx).1 (t.doCacheLookup c cmd addr ctx).2 := by
  unfold doCacheLookup
  split
  · rename_i hres
    exact lookupHit_looks _ _ hres
  · rename_i hres
    simp only [lookupMiss_eq]
    exact .miss (Bool.not_eq_true _ ▸ hres)

/-- The lookup of a packet by the controller. -/
theorem State.looks {s : State} {pkt : Packet} {hit : Bool} (hhit : (s.lookup c pkt).1 = hit) :
    Looks c s.tags pkt.cmd.isRead (pkt.contextId == gpuContextId) pkt.addr hit
      (s.lookup c pkt).2 := by
  rw [← hhit]
  exact s.tags.doCacheLookup_looks c pkt.cmd pkt.addr pkt.contextId

/-! ## Fills and evictions -/

theorem Tags.install_eq (c : Config) (t : Tags) (addr ctx victim : ℕ) :
    ∃ l, t.install c addr ctx victim = { t with
      sets := update t.sets (c.setOf addr) { tag := c.tagOf addr, valid := true, dirty := false }
      isGPUOwned := update t.isGPUOwned (c.setOf addr) (ctx == gpuContextId)
      bypassTag := l } := by
  unfold install
  simp only
  split
  · exact ⟨_, rfl⟩
  · exact ⟨_, rfl⟩

theorem Tags.touchBypassTag_eq (c : Config) (t : Tags) (addr : ℕ) :
    ∃ l, t.touchBypassTag c addr = { t with bypassTag := l } := by
  unfold touchBypassTag
  split
  · exact ⟨_, rfl⟩
  · exact ⟨_, rfl⟩

theorem Tags.forget_eq (c : Config) (t : Tags) (addr : ℕ) : t.forget c addr = { t with
      cbf := if c.bloomFilterEnable then
          CountingBloom.remove (c.bloomCells addr) t.cbf
        else t.cbf } := by
  unfold forget
  split
  · rfl
  · rfl

/-- The lines after a fill, when the line that is cleared is the one that is
filled. -/
theorem Fills.sets_eq {s s' : State} {a ctx : ℕ}
    (h : Fills c s a ctx s') (hskip : skipsFill c s ctx = false)
    (hset : (s.tags.sets (c.setOf a)).dirty → c.setOf (s.tags.victim c a) = c.setOf a) :
    s'.tags.sets = update s.tags.sets (c.setOf a)
      { tag := c.tagOf a, valid := true, dirty := false } := by
  cases h with
  | skipped h => simp [h] at hskip
  | clean =>
    obtain ⟨l, heq⟩ := s.tags.install_eq c a ctx (s.tags.victim c a)
    simp only [heq]
  | dirty m q fq ifq _ hdirty =>
    obtain ⟨l, heq⟩ := ((s.tags.forget c (s.tags.victim c a)).clearSet c
      (s.tags.victim c a)).install_eq c a ctx (s.tags.victim c a)
    simp only [heq]
    simp only [Tags.forget_eq, Tags.clearSet, Tags.setSet, hset hdirty, update_idem]

/-! ## The blocks in the cache -/

/-- The block that a line stands for was installed there. -/
def Holds (c : Config) (P : ℕ → Prop) (sets : ℕ → CacheSet) : Prop :=
  ∀ i, (sets i).valid = true ∨ (sets i).dirty = true →
    ∃ a, P a ∧ c.setOf a = i ∧ c.tagOf a = (sets i).tag

section Holds

variable {c : Config} {P : ℕ → Prop} {sets : ℕ → CacheSet} {i a : ℕ}

theorem Holds.update (h : Holds c P sets) {line : CacheSet}
    (hline : line.valid ∨ line.dirty →
      ∃ a, P a ∧ c.setOf a = i ∧ c.tagOf a = line.tag) :
    Holds c P (Function.update sets i line) := by
  intro j hj
  by_cases hi : j = i
  · subst hi
    rw [Function.update_self] at hj ⊢
    exact hline hj
  · rw [Function.update_of_ne hi] at hj ⊢
    exact h j hj

/-- A line is filled with a block. -/
theorem Holds.install (h : Holds c P sets) (ha : P a) (valid dirty : Bool) :
    Holds c P (Function.update sets (c.setOf a)
      { tag := c.tagOf a, valid := valid, dirty := dirty }) :=
  h.update fun _ => ⟨a, ha, rfl, rfl⟩

/-- A line becomes empty. -/
theorem Holds.clear (h : Holds c P sets) (tag : ℕ) : Holds c P (Function.update sets i
      { tag := tag, valid := false, dirty := false }) :=
  h.update fun hline => by simp at hline

/-- A line that is in use changes its flags. -/
theorem Holds.touch (h : Holds c P sets)
    (hused : (sets i).valid ∨ (sets i).dirty) (valid dirty : Bool) :
    Holds c P (Function.update sets i { tag := (sets i).tag, valid := valid, dirty := dirty }) :=
  h.update fun _ => h i hused

end Holds

/-! ## What a piece of a handler does to the lines -/

/-- The lines and the filter are the same, and the list of evicted tags has the
same members. -/
structure SameLines (t t' : Tags) : Prop where
  sets : t'.sets = t.sets
  isGPUOwned : t'.isGPUOwned = t.isGPUOwned
  cbf : t'.cbf = t.cbf
  bypassTag : t'.bypassTag.Perm t.bypassTag

/-- An answer of the memory as the handler found it: with the entry of
`pamQueue` of a lookup that missed, or without one. -/
structure Answered (e : Event) (s₀ : State) (p : MemPacket) (pam : Bool) : Prop where
  answers : e.Answers s₀ p
  found : pam = true → p.queue = .mshrs ∧ ∃ pr, s₀.pamQueue p.addr = some pr ∧ pr.isHit = some false
  absent : pam = false → p.queue = .mshrs → s₀.pamQueue p.addr = none

/-- The blocks that the handler of an event installs. -/
inductive Installs (c : Config) (s : State) (e : Event) : ℕ → Prop
  | lookup (pkt : Packet) (pr : PamReq) (first : Packet) (rest : List Packet)
      (hlast : LastPamBurst e s pkt pr) (hdone : pr.isPamComplete = true)
      (hmiss : (s.lookup c pkt).1 = false)
      (htargets : (s.mshrQueue.registers pr.mshr).targets = first :: rest)
      (hskip : skipsFill c s pkt.contextId = false) : Installs c s e first.addr
  | answer (p : MemPacket) (pam : Bool) (h : Answered e s p pam)
      (hqueue : p.queue = .mshrs) (hskip : skipsFill c s p.contextId = false)
      (habsent : pam = false → (s.tags.sets (c.setOf p.addr)).valid = false ∨
        (s.tags.sets (c.setOf p.addr)).tag ≠ c.tagOf p.addr) :
      Installs c s e p.addr

/-- While a handler works on an answer, the lines are as it found them. -/
def Phase.Since (e : Event) (s₀ : State) (φ : Phase) (s : State) : Prop :=
  match φ with
  | .answering p _ pam | .released p _ pam | .consuming p _ pam =>
    Answered e s₀ p pam ∧ SameLines s₀.tags s.tags ∧ s.gpuRunning = s₀.gpuRunning
  | .filling p =>
    Answered e s₀ p true ∧ SameLines s₀.tags s.tags ∧ s.gpuRunning = s₀.gpuRunning
  | _ => True

/-- The ways in which a piece of a handler can change the lines. -/
inductive TagStep (c : Config) (e : Event) (s₀ : State) : State → State → Prop
  | same {s s' : State} (h : SameLines s.tags s'.tags) : TagStep c e s₀ s s'
  | look {s' : State} (pkt : Packet)
      (hlast : LastBurst e s₀ pkt ∨ ∃ rest, LastWriteBurst e s₀ pkt rest)
      (htags : s'.tags = (s₀.lookup c pkt).2) : TagStep c e s₀ s₀ s'
  | fill {s s' s₁ s₂ : State} (addr ctx : ℕ) (hinst : Installs c s₀ e addr)
      (hbefore : SameLines s₀.tags s.tags) (hlines : SameLines s₀.tags s₁.tags)
      (hwrites : s₁.writeBuffer = s.writeBuffer)
      (hskip : skipsFill c s₁ ctx = false) (hfill : Fills c s₁ addr ctx s₂)
      (htags : s'.tags = s₂.tags) (hwrites' : s'.writeBuffer = s₂.writeBuffer) :
      TagStep c e s₀ s s'
  | allocClean {s' : State} (pkt : Packet) (rest : List DRAMPacket)
      (hlast : LastWriteBurst e s₀ pkt rest) (hmiss : (s₀.lookup c pkt).1 = false)
      (halloc : c.writeAllocate = true)
      (hclean : (s₀.tags.sets (c.setOf pkt.addr)).dirty = false)
      (htags : s'.tags = (s₀.lookup c pkt).2.installDirty c pkt.addr pkt.contextId) :
      TagStep c e s₀ s₀ s'
  | allocDirty {s' : State} (pkt : Packet) (rest : List DRAMPacket)
      (hlast : LastWriteBurst e s₀ pkt rest) (hmiss : (s₀.lookup c pkt).1 = false)
      (halloc : c.writeAllocate = true)
      (hdirty : (s₀.tags.sets (c.setOf pkt.addr)).dirty = true)
      (htags : s'.tags = ((s₀.lookup c pkt).2.clearSet c
        ((s₀.lookup c pkt).2.victim c pkt.addr)).installDirty c pkt.addr pkt.contextId) :
      TagStep c e s₀ s₀ s'

namespace SameLines

variable {t t' t'' : Tags}

theorem refl (t : Tags) : SameLines t t := ⟨rfl, rfl, rfl, .refl _⟩

theorem trans (h : SameLines t t') (h' : SameLines t' t'') : SameLines t t'' :=
  ⟨h'.sets.trans h.sets, h'.isGPUOwned.trans h.isGPUOwned, h'.cbf.trans h.cbf,
    h'.bypassTag.trans h.bypassTag⟩

theorem touch (c : Config) (t : Tags) (addr : ℕ) : SameLines t (t.touchBypassTag c addr) := by
  unfold Tags.touchBypassTag
  split
  · rename_i hhit
    simp only [Tags.isHit, decide_eq_true_eq] at hhit
    exact ⟨rfl, rfl, rfl, (List.perm_cons_erase hhit).symm⟩
  · exact refl t

end SameLines

section Steps

variable {c : Config} {e : Event} {up : Upstream} {s s' s₀ : State}
  {r : TimingReq} {φ φ' : Phase} {p : MemPacket} {pkt : Packet}

/-- A request leaves the lines alone. -/
theorem Recv.sameLines (h : Recv c s r s') :
    SameLines s.tags s'.tags ∧ s'.gpuRunning = s.gpuRunning := by
  cases h with
  | bypassTagRead | bypassTagWrite => exact ⟨.touch c s.tags r.addr, rfl⟩
  | _ => exact ⟨.refl _, rfl⟩

theorem Retried.sameLines (h : Retried c up s s') :
    SameLines s.tags s'.tags ∧ s'.gpuRunning = s.gpuRunning := by
  cases h with
  | silent => exact ⟨.refl _, rfl⟩
  | reacted r _ h => exact (recvTimingReq_ok h).sameLines

/-- A lookup that misses leaves the lines alone. -/
theorem sameLines_of_miss (hmiss : (s.lookup c pkt).1 = false) :
    SameLines s.tags (s.lookup c pkt).2 := by
  have hlook := State.looks hmiss
  generalize (s.lookup c pkt).2 = t at hlook
  cases hlook
  exact ⟨rfl, rfl, rfl, .refl _⟩

theorem Freed.sameTags {index : MSHRQueueIndex} {m : ℕ} {w : Bool}
    (h : Freed s index m w s') : s'.tags = s.tags ∧ s'.gpuRunning = s.gpuRunning := by
  cases h <;> cases index <;> exact ⟨rfl, rfl⟩

theorem Micro.since (h : Micro c e s₀ φ s φ' s') (hs : φ.Since e s₀ s) :
    φ'.Since e s₀ s' := by
  cases h with
  | retryCache hph _ _ h =>
    obtain ⟨hlines, hrun⟩ := h.sameLines
    cases φ with
    | answering | consuming => exact hph.elim
    | released | filling => exact ⟨hs.1, hs.2.1.trans hlines, hrun.trans hs.2.2⟩
    | _ => trivial
  | pamHit => split <;> trivial
  | pamAnswer i up p pr he hp hqueue hpr hhit =>
    exact ⟨⟨⟨i, up, he, hp⟩, fun _ => ⟨hqueue, pr, hpr, hhit⟩, nofun⟩, .refl _, rfl⟩
  | serialAnswer i up p he hp hpam =>
    exact ⟨⟨⟨i, up, he, hp⟩, nofun, fun _ => hpam⟩, .refl _, rfl⟩
  | release | released | keep => exact hs
  | pamAnswered p w _ _ _ _ hfree =>
    obtain ⟨htags, hrun⟩ := hfree.sameTags
    exact ⟨hs.1, by rw [htags]; exact hs.2.1, hrun.trans hs.2.2⟩
  | _ => trivial

/-- A fill, skipped or not. -/
theorem TagStep.of_fills {s₁ s₂ : State} {addr ctx : ℕ} (hfill : Fills c s₁ addr ctx s₂)
    (hinst : skipsFill c s₁ ctx = false → Installs c s₀ e addr)
    (hbefore : SameLines s₀.tags s.tags) (hafter : SameLines s.tags s₁.tags)
    (hwrites : s₁.writeBuffer = s.writeBuffer) (htags : s'.tags = s₂.tags)
    (hwrites' : s'.writeBuffer = s₂.writeBuffer) : TagStep c e s₀ s s' := by
  cases hskip : skipsFill c s₁ ctx with
  | false =>
    exact .fill addr ctx (hinst hskip) hbefore (hbefore.trans hafter) hwrites hskip
      hfill htags hwrites'
  | true =>
    cases hfill with
    | skipped =>
      refine .same ?_
      rw [htags]
      exact hafter
    | clean _ _ h | dirty _ _ _ _ h => simp [h] at hskip

theorem skipsFill_congr {ctx : ℕ} (h : s'.gpuRunning = s.gpuRunning) :
    skipsFill c s' ctx = skipsFill c s ctx := by
  rw [skipsFill, skipsFill, h]

/-- The fill for an answer whose block is not there. -/
theorem Installs.of_consuming {w : Bool} (hs : Phase.Since e s₀ (.consuming p w false) s)
    (hqueue : p.queue = .mshrs) (habsent : (s.tags.sets (c.setOf p.addr)).valid = false ∨
      (s.tags.sets (c.setOf p.addr)).tag ≠ c.tagOf p.addr)
    (hskip : skipsFill c s p.contextId = false) : Installs c s₀ e p.addr := by
  obtain ⟨hans, hlines, hrun⟩ := hs
  rw [skipsFill_congr hrun] at hskip
  rw [hlines.sets] at habsent
  exact .answer p false hans hqueue hskip fun _ => habsent

/-- The fill for an answer that the lookup of the read waited for. -/
theorem Installs.of_filling (hs : Phase.Since e s₀ (.filling p) s)
    (hskip : skipsFill c s p.contextId = false) : Installs c s₀ e p.addr := by
  obtain ⟨hans, -, hrun⟩ := hs
  rw [skipsFill_congr hrun] at hskip
  exact .answer p true hans (hans.found rfl).1 hskip nofun

theorem Micro.tagStep (h : Micro c e s₀ φ s φ' s') (hs : φ.Since e s₀ s) :
    TagStep c e s₀ s s' := by
  cases h with
  | request r he h | retryWrite _ h | retryRead _ h | retryCache _ _ _ h =>
    exact .same h.sameLines.1
  | serialHit pkt hlast | serialCoalesced pkt m hlast | serialCoalescedLast pkt m hlast
  | serialMiss pkt m q hlast => exact .look pkt (.inl hlast) rfl
  | pamDoneHit pkt pr _ _ hlast _ _ _ hfree | pamHit pkt pr _ _ hlast _ _ _ hfree =>
    exact .look pkt (.inl hlast.toLastBurst) hfree.sameTags.1
  | pamDoneMiss pkt pr first rest hlast hdone hmiss htargets hfill hfree =>
    have hlines := sameLines_of_miss hmiss
    refine .of_fills hfill (fun hskip => ?_) (.refl _) hlines rfl hfree.sameTags.1 ?_
    · exact .lookup pkt pr first rest hlast hdone hmiss htargets hskip
    · obtain ⟨q, b, pb, hq, rfl⟩ := hfree.frame
      rfl
  | pamMiss pkt pr hlast => exact .look pkt (.inl hlast.toLastBurst) rfl
  | writeHit pkt rest d hlast | writeMiss pkt rest d m q hlast =>
    exact .look pkt (.inr ⟨rest, hlast⟩) rfl
  | writeAllocClean pkt rest d hlast hmiss halloc hclean =>
    rw [(sameLines_of_miss hmiss).sets] at hclean
    exact .allocClean pkt rest hlast hmiss halloc hclean rfl
  | writeAllocDirty pkt rest d m q hlast hmiss halloc hdirty =>
    rw [(sameLines_of_miss hmiss).sets] at hdirty
    exact .allocDirty pkt rest hlast hmiss halloc hdirty rfl
  | sendNothing hw | sendRefused _ _ hw | sentMiss _ _ _ _ hw | sentWrite _ _ _ _ hw =>
    obtain ⟨_, _, rfl⟩ := hw.frame
    exact .same (.refl _)
  | readAnswered p w hqueue _ _ _ hfill hfree =>
    cases hfill with
    | present =>
      refine .same ?_
      rw [hfree.sameTags.1]
      exact .refl _
    | fills habsent hfill =>
      refine .of_fills hfill (.of_consuming hs hqueue habsent) hs.2.1 (.refl _) rfl
        hfree.sameTags.1 ?_
      obtain ⟨q, b, pb, hq, rfl⟩ := hfree.frame
      rfl
  | writeAnswered p w _ _ _ hfree | pamAnswered p w _ _ _ _ hfree =>
    refine .same ?_
    rw [hfree.sameTags.1]
    exact .refl _
  | filled p hfill =>
    exact .of_fills hfill (.of_filling hs) hs.2.1 (.refl _) rfl rfl rfl
  | _ => exact .same (.refl _)

/-- A block that is installed is one that a packet asked for. -/
theorem Installs.addr {P : ℕ → Prop} {a : ℕ} (h : Installs c s e a)
    (hs : Phase.start.Carries P s) : P a := by
  cases h with
  | lookup pkt pr first rest _ _ _ htargets =>
    refine hs.missPkts pr.mshr first ?_
    rw [MSHRQueue.targets, htargets]
    exact List.mem_cons_self
  | answer p pam hans hqueue =>
    obtain ⟨i, up, -, hp⟩ := hans.answers
    exact (hs.memPkts p (List.mem_of_getElem? hp) hqueue).2

/-- The rule for invariants of the tag store. -/
theorem Reaches.tags_invariant {P : ℕ → Prop} {I : Tags → Prop}
    {ok : State → Event → Prop} (h : Reaches c ok s)
    (hreq : ∀ s e, ok s e → Demands (fun _ r => P r.addr) s e) (hinit : I {})
    (hstep : ∀ e s₀ s s', ok s₀ e → Phase.start.Carries P s₀ →
      TagStep c e s₀ s s' → I s.tags → I s'.tags) : I s.tags := by
  have hs : Phase.start.Carries P s ∧ I s.tags := by
    refine h.invariant_of_handlers (I := fun s => Phase.start.Carries P s ∧ I s.tags)
      (J := fun e s₀ φ s => Phase.start.Carries P s₀ ∧ φ.Carries P s ∧
        φ.Since e s₀ s ∧ I s.tags) ?_ ?_ ?_ ?_
    · exact fun store => ⟨State.init_carries c store, hinit⟩
    · exact fun e s₀ _ hs => ⟨hs.1, hs.1, trivial, hs.2⟩
    · rintro e s₀ hok φ s φ' s' ⟨hstart, hpkts, hsince, hs⟩ hmicro
      exact ⟨hstart, hmicro.carries (hreq s₀ e hok) hpkts, hmicro.since hsince,
        hstep e s₀ s s' hok hstart (hmicro.tagStep hsince) hs⟩
    · exact fun e s₀ s hs => ⟨hs.2.1, hs.2.2.2⟩
  exact hs.2

end Steps

end Gem5Gpu.DRAMCache
