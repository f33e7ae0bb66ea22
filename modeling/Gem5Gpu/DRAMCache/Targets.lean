import Gem5Gpu.DRAMCache.SmallStep

/-!
# The limit on the targets of a miss

A miss that gets its last target blocks the controller: `noTargetMSHR` points to
it, and `Blocked_NoTargets` is set until its answer arrives.  The pointer is
kept by hand in several places, and not all of them look at it.

* `Limits` is the property, about the map of the allocated registers: no register
  has more than `n` targets, one that has exactly `n` is the one that the pointer
  names while the bit is set, and a set bit has such a register.
* `targets_limited` says that the controller keeps it in every run whose steps
  meet `KeepsLimits`.  Requests need no condition.  What has to be excluded is in
  `processRespondEvent`, which adds targets to a miss without a look at the
  limit and frees a miss without a look at the pointer, and in the release
  itself, which resets the pointer after the upstream port has reacted.
* `blocked_for_ever` is a run that ends with the bit set and no miss left.
-/

namespace Gem5Gpu.DRAMCache

open Mem Lib

/-! ## Maps with a limit -/

/-- The limit `n` on the targets of the registers, when the bit and the pointer
are as given.  The register `hidden` is left out: it is about to be freed. -/
structure Limits (n : ℕ) (hidden : Option ℕ) (regs : ℕ → Option MSHR)
    (pointer : Option ℕ) (bit : Prop) : Prop where
  bounded : ∀ m reg, regs m = some reg → hidden ≠ some m → reg.targets.length ≤ n ∧
      (reg.targets.length = n → bit ∧ pointer = some m)
  pointed : bit → ∃ m reg, pointer = some m ∧ hidden ≠ some m ∧
    regs m = some reg ∧ reg.targets.length = n

namespace Limits

variable {n m : ℕ} {hidden pointer pointer' : Option ℕ} {regs : ℕ → Option MSHR}
  {bit bit' : Prop} {reg reg' : MSHR}

section

variable (h : Limits n hidden regs pointer bit)
include h

theorem congr_bit (hbit : bit' ↔ bit) :
    Limits n hidden regs pointer bit' := by
  rwa [propext hbit]

/-- While the bit is not set, the pointer does not matter, and every register
has room. -/
theorem lt_of_not_bit (hbit : ¬ bit) (hreg : regs m = some reg) (hm : hidden ≠ some m) :
    reg.targets.length < n := by
  obtain ⟨hle, hfull⟩ := h.bounded m reg hreg hm
  exact lt_of_le_of_ne hle fun heq => hbit (hfull heq).1

theorem of_not_bit (hbit : ¬ bit) (hbit' : ¬ bit') : Limits n hidden regs pointer' bit' where
  bounded m reg hreg hm := by
    have hlt := h.lt_of_not_bit hbit hreg hm
    exact ⟨hlt.le, fun heq => absurd heq hlt.ne⟩
  pointed hb := absurd hb hbit'

/-- A change of a register that has room before and after it. -/
theorem update {x : Option MSHR}
    (hold : hidden ≠ some m → ∀ reg, regs m = some reg → reg.targets.length < n)
    (hnew : hidden ≠ some m → ∀ reg, x = some reg → reg.targets.length < n) :
    Limits n hidden (Function.update regs m x) pointer bit where
  bounded i reg hreg hi := by
    by_cases him : i = m
    · subst him
      rw [Function.update_self] at hreg
      have hlt := hnew hi reg hreg
      exact ⟨hlt.le, fun heq => absurd heq hlt.ne⟩
    · rw [Function.update_of_ne him] at hreg
      exact h.bounded i reg hreg hi
  pointed hbit := by
    obtain ⟨i, reg, hptr, hi, hreg, hlen⟩ := h.pointed hbit
    have him : i ≠ m := by
      rintro rfl
      exact absurd hlen (hold hi reg hreg).ne
    exact ⟨i, reg, hptr, hi, by rw [Function.update_of_ne him, hreg], hlen⟩

/-- A change of a register that keeps the number of its targets. -/
theorem update_of_length_eq
    (hreg : regs m = some reg) (hlen : reg'.targets.length = reg.targets.length) :
    Limits n hidden (Function.update regs m (some reg')) pointer bit where
  bounded i r hr hi := by
    by_cases him : i = m
    · subst him
      rw [Function.update_self, Option.some.injEq] at hr
      rw [← hr, hlen]
      exact h.bounded i reg hreg hi
    · rw [Function.update_of_ne him] at hr
      exact h.bounded i r hr hi
  pointed hbit := by
    obtain ⟨i, r, hptr, hi, hr, hr'⟩ := h.pointed hbit
    by_cases him : i = m
    · subst him
      rw [hreg, Option.some.injEq] at hr
      exact ⟨i, reg', hptr, hi, Function.update_self .., by rw [hlen, hr, hr']⟩
    · exact ⟨i, r, hptr, hi, by rw [Function.update_of_ne him, hr], hr'⟩

end

/-- A register gets its last target, and the bit is set. -/
theorem setLast (h : Limits n none regs pointer bit) (hbit : ¬ bit)
    (hlen : reg'.targets.length = n) :
    Limits n none (Function.update regs m (some reg')) (some m) True where
  bounded i r hr hi := by
    by_cases him : i = m
    · subst him
      rw [Function.update_self, Option.some.injEq] at hr
      rw [← hr, hlen]
      exact ⟨le_rfl, fun _ => ⟨trivial, rfl⟩⟩
    · rw [Function.update_of_ne him] at hr
      have hlt := h.lt_of_not_bit hbit hr hi
      exact ⟨hlt.le, fun heq => absurd heq hlt.ne⟩
  pointed _ := ⟨m, reg', rfl, nofun, Function.update_self .., hlen⟩

/-- A register that the pointer does not name may be left out. -/
theorem hide (h : Limits n none regs pointer bit) (hm : pointer ≠ some m) :
    Limits n (some m) regs pointer bit where
  bounded i reg hreg _ := h.bounded i reg hreg nofun
  pointed hbit := by
    obtain ⟨i, reg, hptr, -, hreg, hlen⟩ := h.pointed hbit
    refine ⟨i, reg, hptr, ?_, hreg, hlen⟩
    rw [← hptr]
    exact fun heq => hm heq.symm

/-- The bit is cleared for the register that the pointer names. -/
theorem release (h : Limits n none regs (some m) bit) (hbit' : ¬ bit') :
    Limits n (some m) regs pointer' bit' where
  bounded i reg hreg hi := by
    obtain ⟨hle, hfull⟩ := h.bounded i reg hreg nofun
    refine ⟨hle, fun heq => absurd (hfull heq).2 ?_⟩
    exact hi
  pointed hb := absurd hb hbit'

/-- A register that is not allocated need not be left out. -/
theorem unhide (h : Limits n (some m) regs pointer bit) (hm : regs m = none) :
    Limits n none regs pointer bit where
  bounded i reg hreg _ := by
    refine h.bounded i reg hreg ?_
    rintro heq
    cases heq
    rw [hm] at hreg
    cases hreg
  pointed hbit := by
    obtain ⟨i, reg, hptr, -, hreg, hlen⟩ := h.pointed hbit
    exact ⟨i, reg, hptr, nofun, hreg, hlen⟩

end Limits

/-! ## The pieces of the handlers -/

variable {c : Config} {e : Event} {up : Upstream} {s s' s₀ s₁ : State}
  {r : TimingReq} {φ φ' : Phase} {m : ℕ} {w : Bool} {p : MemPacket}
  {hidden : Option ℕ}

/-- The limit of the configuration holds in a state, one register aside. -/
def State.Limited (c : Config) (hidden : Option ℕ) (s : State) : Prop :=
  Limits c.numTarget hidden s.mshrQueue.entries s.noTargetMSHR (.noTargets ∈ s.blocked)

namespace State.Limited

variable {q : MSHRQueue} {blk t o : ℕ} {pkt : Packet}

/-- A register of a queue is taken. -/
theorem takes (h : s.Limited c hidden) (hn : 2 ≤ c.numTarget) (index : MSHRQueueIndex)
    (hq : (s.queue index).Takes blk pkt t o m q) (full : Bool) :
    Limits c.numTarget hidden (s.setQueue index q).mshrQueue.entries s.noTargetMSHR
      (.noTargets ∈ s.blockedAfter (.ofIndex index) full) := by
  cases index with
  | writeBuffer => exact Limits.congr_bit h (s.mem_blockedAfter_of_ne (by decide) full)
  | mshrs =>
    refine Limits.congr_bit ?_ (s.mem_blockedAfter_of_ne (by decide) full)
    rw [State.setQueue, hq.entries_eq]
    refine Limits.update h (fun _ reg hreg => ?_) fun _ reg hreg => ?_
    · exact absurd (hq.entries_self.symm.trans hreg) (by simp)
    · cases hreg
      exact hn

/-- A packet joins a register that has room for another one after it. -/
theorem allocateTarget (h : s.Limited c hidden)
    (hlen : hidden ≠ some m → (s.mshrQueue.registers m).targets.length + 1 < c.numTarget) :
    Limits c.numTarget hidden (s.mshrQueue.allocateTarget m pkt).entries
      s.noTargetMSHR (.noTargets ∈ s.blocked) := by
  rw [MSHRQueue.allocateTarget, MSHRQueue.setTargets_entries]
  refine Limits.update h (fun hm reg hreg => ?_) fun hm reg hreg => ?_
  · rw [← (MSHRQueue.entries_eq_some.1 hreg).2]
    exact (Nat.lt_succ_self _).trans (hlen hm)
  · obtain ⟨reg, -, rfl⟩ := Option.map_eq_some_iff.1 hreg
    simpa using hlen hm

/-- A packet joins a register as the last one. -/
theorem allocateLast (h : s.Limited c none) (hbit : .noTargets ∉ s.blocked)
    (hm : m ∈ s.mshrQueue.allocatedList)
    (hlen : (s.mshrQueue.registers m).targets.length + 1 = c.numTarget) :
    Limits c.numTarget none (s.mshrQueue.allocateTarget m pkt).entries
      (some m) (.noTargets ∈ insert .noTargets s.blocked) := by
  rw [MSHRQueue.allocateTarget, MSHRQueue.setTargets_entries, MSHRQueue.entries_of_mem hm]
  refine Limits.congr_bit ?_ (iff_true_intro (Finset.mem_insert_self ..))
  exact Limits.setLast h hbit (by simpa using hlen)

/-- The targets of the register that is left out do not matter. -/
theorem setTargets_hidden (h : s.Limited c (some m)) (targets : List Packet) :
    Limits c.numTarget (some m) (s.mshrQueue.setTargets m targets).entries
      s.noTargetMSHR (.noTargets ∈ s.blocked) := by
  rw [MSHRQueue.setTargets_entries]
  exact Limits.update h (absurd rfl) (absurd rfl)

/-- A change of the data of the targets. -/
theorem setTargets_of_length_eq (h : s.Limited c hidden) {targets : List Packet}
    (hlen : targets.length = (s.mshrQueue.registers m).targets.length) :
    Limits c.numTarget hidden (s.mshrQueue.setTargets m targets).entries
      s.noTargetMSHR (.noTargets ∈ s.blocked) := by
  rw [MSHRQueue.setTargets_entries]
  cases hreg : s.mshrQueue.entries m with
  | none =>
    rw [Option.map_none, ← hreg, Function.update_eq_self]
    exact h
  | some reg =>
    refine Limits.update_of_length_eq h hreg ?_
    rw [← (MSHRQueue.entries_eq_some.1 hreg).2]
    exact hlen

end State.Limited

theorem Recv.limited (h : Recv c s r s') (hn : 2 ≤ c.numTarget)
    (hhid : hidden = none ∨ .noTargets ∉ s'.blocked)
    (hs : s.Limited c hidden) : s'.Limited c hidden := by
  cases h with
  | coalesced m hopen hm _ hlen =>
    refine hs.allocateTarget fun hhid => ?_
    -- the controller is open, so the register has room
    have hlt := Limits.lt_of_not_bit hs (by simp [hopen]) (MSHRQueue.findMatch_entries hm).1 hhid
    omega
  | coalescedLast m hopen hm _ hlen =>
    rcases hhid with rfl | hbit
    · exact hs.allocateLast (by simp [hopen]) (MSHRFile.findMatch_eq_some hm).1 hlen
    · exact absurd (Finset.mem_insert_self _ _) hbit
  | bypassTagRead m q _ _ _ hq | bypassed m q _ _ _ _ hq | readPam m q _ _ _ _ _ hq =>
    exact hs.takes hn .mshrs hq _
  | bypassTagWrite m q _ _ _ hq => exact hs.takes hn .writeBuffer hq _
  | _ => exact hs

/-- A request does not set the bit unless it gives a miss its last target. -/
theorem Recv.cleared (h : Recv c s r s') (hs : .noTargets ∉ s.blocked)
    (hlast : ∀ m, s.mshrQueue.findMatch (c.blockAlign r.addr) false = some m →
      r.cmd ≠ .writeReq → (s.mshrQueue.registers m).targets.length + 1 ≠ c.numTarget) :
    .noTargets ∉ s'.blocked := by
  cases h with
  | coalescedLast m _ hm hcmd hlen => exact absurd hlen (hlast m hm hcmd)
  | bypassTagRead | bypassTagWrite | bypassed | readPam =>
    exact (s.mem_blockedAfter_of_ne (by decide) _).not.2 hs
  | _ => exact hs

theorem Fills.limited {addr ctx : ℕ} (h : Fills c s addr ctx s') (hn : 2 ≤ c.numTarget)
    (hs : s.Limited c hidden) : s'.Limited c hidden := by
  cases h with
  | dirty m q _ _ _ _ _ hq => exact hs.takes hn .writeBuffer hq _
  | _ => exact hs

theorem State.Limited.unblock (hs : s.Limited c hidden)
    (index : MSHRQueueIndex) : (s.unblock (.ofIndex index)).Limited c hidden := by
  refine Limits.congr_bit hs ?_
  cases index <;> simp [State.unblock, BlockedCause.ofIndex]

/-- The register that was left out is freed. -/
theorem Freed.limited (h : Freed s .mshrs m w s')
    (hs : s.Limited c (some m)) : s'.Limited c none := by
  have hfrees : ∀ q, s.mshrQueue.Frees m q → (s.setQueue .mshrs q).Limited c none := by
    intro q hq
    change Limits _ _ q.entries _ _
    rw [hq.entries_eq]
    refine Limits.unhide (Limits.update hs ?_ ?_) (Function.update_self ..)
    · exact absurd rfl
    · exact absurd rfl
  cases h with
  | keeps q hq => exact hfrees q hq
  | opens q hq => exact (hfrees q hq).unblock .mshrs

theorem Freed.limited_of_writeBuffer (h : Freed s .writeBuffer m w s')
    (hs : s.Limited c hidden) : s'.Limited c hidden := by
  cases h with
  | keeps => exact hs
  | opens => exact State.Limited.unblock (s := s.setQueue _ _) hs .writeBuffer

theorem Sends.limited {q : MSHRQueue} (h : s.mshrQueue.Sends m q) (hs : s.Limited c hidden) :
    Limits c.numTarget hidden q.entries s.noTargetMSHR (.noTargets ∈ s.blocked) := by
  rw [h.entries_eq]
  exact Limits.update_of_length_eq hs
    (MSHRQueue.entries_of_mem (s.mshrQueue.wf.mem_readyList.1 h.mem).1) rfl

/-- What a step must not do:

* `pamMiss`: a read for which the memory was asked early misses, and joins the
  early request as its last target or beyond;
* `coalesce`: a read misses after its lookup and joins a miss while another miss
  is out of targets;
* `pamFree`: an early request that is out of targets is freed after a lookup;
* `release`: the upstream port reacts to the release of the miss that ran out of
  targets with a request for a block whose miss has one target less. -/
structure KeepsLimits (c : Config) (s₀ : State) (e : Event) : Prop where
  pamMiss : ∀ pkt pr, LastPamBurst e s₀ pkt pr → pr.isPamComplete = false →
    (s₀.lookup c pkt).1 = false →
    (s₀.mshrQueue.registers pr.mshr).targets.length + 1 < c.numTarget
  coalesce : ∀ pkt m, LastBurst e s₀ pkt → s₀.NotPam pkt → (s₀.lookup c pkt).1 = false →
    s₀.mshrQueue.findMatch (c.blockAlign pkt.addr) false = some m →
    .noTargets ∉ s₀.blocked
  pamFree : ∀ pkt pr, LastPamBurst e s₀ pkt pr →
    pr.isPamComplete = true ∨ (s₀.lookup c pkt).1 = true →
    s₀.noTargetMSHR ≠ some pr.mshr
  release : ∀ p, e.Answers s₀ p → p.queue = .mshrs →
    s₀.noTargetMSHR = some p.mshr → ∀ s r, e.upstream s = some r → ∀ m,
      s.mshrQueue.findMatch (c.blockAlign r.addr) false = some m → r.cmd ≠ .writeReq →
      (s.mshrQueue.registers m).targets.length + 1 ≠ c.numTarget

/-- The register that the handler is about to free. -/
def Phase.freeing : Phase → Option ℕ
  | .released p _ _ => some p.mshr
  | .consuming p _ _ => if p.queue = .mshrs then some p.mshr else none
  | _ => none

/-- Between the release and its end, the bit is not set. -/
def Phase.Cleared : Phase → State → Prop
  | .released .., s => .noTargets ∉ s.blocked
  | _, _ => True

theorem Micro.cleared (h : Micro c e s₀ φ s φ' s') (hok : KeepsLimits c s₀ e)
    (horigin : φ.Origin e s₀ s) (hs : φ.Cleared s) : φ'.Cleared s' := by
  cases h with
  | retryCache hph _ _ h =>
    cases φ with
    | released p w pam =>
      obtain ⟨hans, hqueue, hm⟩ := horigin
      exact h.keeps (P := fun s => BlockedCause.noTargets ∉ s.blocked) hs fun r _ hup h =>
        h.cleared hs (hok.release p hans hqueue hm _ r hup)
    | _ => trivial
  | pamHit => split <;> trivial
  | release => exact Finset.notMem_erase _ _
  | _ => trivial

theorem Micro.limited (h : Micro c e s₀ φ s φ' s') (hn : 2 ≤ c.numTarget) (hok : KeepsLimits c s₀ e)
    (horigin : φ.Origin e s₀ s) (hclear : φ.Cleared s) (hclear' : φ'.Cleared s')
    (hs : s.Limited c φ.freeing) : s'.Limited c φ'.freeing := by
  cases h with
  | request r _ h => exact h.limited hn (.inl rfl) hs
  | retryWrite _ h | retryRead _ h => exact h.keeps hs fun _ _ _ h => h.limited hn (.inl rfl) hs
  | @retryCache φ s s' hph _ _ h =>
    have hhid : φ.freeing = none ∨ .noTargets ∉ s'.blocked := by
      cases φ with
      | released => exact .inr hclear'
      | consuming => exact hph.elim
      | _ => exact .inl rfl
    cases h with
    | silent => exact hs
    | reacted r _ h => exact (recvTimingReq_ok h).limited hn hhid hs
  | serialCoalesced pkt m hlast hpam hmiss hm hlen =>
    refine hs.allocateTarget fun hhid => ?_
    have hlt := Limits.lt_of_not_bit hs (hok.coalesce pkt m hlast hpam hmiss hm)
      (MSHRQueue.findMatch_entries hm).1 hhid
    omega
  | serialCoalescedLast pkt m hlast hpam hmiss hm hlen =>
    exact hs.allocateLast (hok.coalesce pkt m hlast hpam hmiss hm)
      (MSHRFile.findMatch_eq_some hm).1 hlen
  | serialMiss _ _ _ _ _ _ _ hq => exact hs.takes hn .mshrs hq _
  | pamDoneHit pkt pr _ _ hlast hdone _ _ hfree =>
    have hs := Limits.hide hs (hok.pamFree pkt pr hlast (.inl hdone))
    exact hfree.limited (State.Limited.setTargets_hidden hs [])
  | pamDoneMiss pkt pr _ _ hlast hdone _ _ hfill hfree =>
    have hs := Limits.hide hs (hok.pamFree pkt pr hlast (.inl hdone))
    exact hfree.limited (hfill.limited hn (State.Limited.setTargets_hidden hs []))
  | pamHit pkt pr _ _ hlast _ hhit _ hfree =>
    have hs := Limits.hide hs (hok.pamFree pkt pr hlast (.inr hhit))
    split <;> exact hfree.limited (State.Limited.setTargets_hidden hs [])
  | pamMiss pkt pr hlast hdone hmiss =>
    exact hs.allocateTarget fun _ => hok.pamMiss pkt pr hlast hdone hmiss
  | writeMiss _ _ _ _ _ _ _ _ hq | writeAllocDirty _ _ _ _ _ _ _ _ _ hq =>
    exact hs.takes hn .writeBuffer hq _
  | sendNothing hwake | sendRefused _ _ hwake | sentWrite _ _ _ _ hwake => cases hwake <;> exact hs
  | sentMiss _ _ _ _ hwake _ _ hq =>
    cases hwake <;> exact Sends.limited (s := s) hq hs
  | pamEarly _ _ _ _ _ _ _ _ _ _ _ htargets =>
    exact hs.setTargets_of_length_eq (by rw [htargets]; rfl)
  | release p w pam hqueue hm =>
    have hs : Limits c.numTarget none s.mshrQueue.entries (some p.mshr)
        (.noTargets ∈ s.blocked) := by
      rw [← hm]
      exact hs
    exact hs.release (Finset.notMem_erase _ _)
  | released p w pam =>
    obtain ⟨-, hqueue, -⟩ := horigin
    simp only [Phase.freeing, hqueue, if_true]
    exact Limits.of_not_bit hs hclear hclear
  | keep p w pam hm =>
    by_cases hqueue : p.queue = .mshrs
    · simp only [Phase.freeing, hqueue, if_true]
      exact Limits.hide hs (hm hqueue)
    · simp only [Phase.freeing, hqueue, if_false]
      exact hs
  | readAnswered p _ hqueue _ _ _ hfill hfree =>
    simp only [Phase.freeing, hqueue, if_true] at hs
    have hfilled := hfill.keeps (P := (·.Limited c _)) hs fun h => h.limited hn hs
    exact hfree.limited (hfilled.setTargets_hidden [])
  | writeAnswered p _ hqueue _ _ hfree =>
    simp only [Phase.freeing, hqueue] at hs
    exact hfree.limited_of_writeBuffer hs
  | pamAnswered p _ _ _ hqueue _ hfree =>
    simp only [Phase.freeing, hqueue, if_true] at hs
    exact hfree.limited (hs.setTargets_hidden [])
  | filled _ hfill => exact hfill.limited hn hs
  | _ => exact hs

/-- In every run whose steps keep the limits, a set bit points to an allocated
miss with at least `numTarget` targets, and no miss has more. -/
theorem targets_limited (hn : 2 ≤ c.numTarget) (h : Reaches c (KeepsLimits c) s) :
    (.noTargets ∈ s.blocked → ∃ m, s.noTargetMSHR = some m ∧ m ∈ s.mshrQueue.allocatedList ∧
      c.numTarget ≤ (s.mshrQueue.registers m).targets.length) ∧
    ∀ m ∈ s.mshrQueue.allocatedList, (s.mshrQueue.registers m).targets.length ≤ c.numTarget := by
  have hs : s.Limited c none := by
    refine h.invariant_of_handlers (J := fun e s₀ φ s =>
      s.Limited c φ.freeing ∧ φ.Origin e s₀ s ∧ φ.Cleared s) ?_ ?_ ?_ ?_
    · exact fun store => ⟨nofun, nofun⟩
    · exact fun e s₀ _ hs => ⟨hs, trivial, trivial⟩
    · rintro e s₀ hok φ s φ' s' ⟨hs, horigin, hclear⟩ hmicro
      have hclear' := hmicro.cleared hok horigin hclear
      exact ⟨hmicro.limited hn hok horigin hclear hclear' hs, hmicro.origin horigin, hclear'⟩
    · exact fun e s₀ s hs => hs.1
  constructor
  · intro hbit
    obtain ⟨m, reg, hptr, -, hreg, hlen⟩ := hs.pointed hbit
    obtain ⟨hm, rfl⟩ := MSHRQueue.entries_eq_some.1 hreg
    exact ⟨m, hptr, hm, hlen.ge⟩
  · intro m hm
    exact (hs.bounded m _ (MSHRQueue.entries_of_mem hm) nofun).1

/-- A request at top level keeps the limits. -/
theorem keepsLimits_recvTimingReq (s : State) (r : TimingReq) :
    KeepsLimits c s (.recvTimingReq r) where
  pamMiss _ _ hlast := nomatch hlast.event
  coalesce _ _ hlast := nomatch hlast.event
  pamFree _ _ hlast := nomatch hlast.event
  release := by
    rintro p ⟨i, up, he, -⟩
    cases he

namespace Scenario

/-- Misses with two targets. -/
def twoTargets : Config := { config with numTarget := 2 }

end Scenario

open Scenario in
/-- A read asks the memory early, and a second one makes its miss run out of
targets. -/
theorem last_target_blocks :
    let s := State.ofRun twoTargets blank
      [.recvTimingReq (cpuRead 1 false), .recvTimingReq (gpuRead 1)]
    2 ≤ twoTargets.numTarget ∧ .noTargets ∈ s.blocked ∧
    (.noTargets ∈ s.blocked → ∃ m, s.noTargetMSHR = some m ∧ m ∈ s.mshrQueue.allocatedList ∧
      twoTargets.numTarget ≤ (s.mshrQueue.registers m).targets.length) ∧
    ∀ m ∈ s.mshrQueue.allocatedList,
      (s.mshrQueue.registers m).targets.length ≤ twoTargets.numTarget := by
  refine ⟨by decide, by decide +kernel, targets_limited (by decide)
    (reaches_ofRun (Meets.of_forall ?_) (by decide +kernel))⟩
  simp [keepsLimits_recvTimingReq]

open Scenario in
/-- The block is in the cache when it is read with a wrong prediction, and the
second read makes the early request run out of targets.  The lookup hits and
frees the request.  The bit stays set, the pointer names a free register, and no
answer is outstanding that could clear the bit. -/
theorem blocked_for_ever :
    let s := State.ofRun twoTargets blank (.recvTimingReq (gpuRead 1) :: lookup ++ send 1 ++
        [answer 0, serveNext, serveNext, serveNext, serveNext,
          .recvTimingReq (cpuRead 1 false), .recvTimingReq (gpuRead 1)] ++
        lookup)
    Reaches twoTargets (fun _ _ => True) s ∧ .noTargets ∈ s.blocked ∧
      s.noTargetMSHR = some 0 ∧ s.mshrQueue.allocatedList = [] ∧ s.mem = [] :=
  ⟨reaches_ofRun (meets_true _) (by decide +kernel), by decide +kernel,
    by decide +kernel, by decide +kernel, by decide +kernel⟩

end Gem5Gpu.DRAMCache
