import Gem5Gpu.DRAMCache.Faults
import Gem5Gpu.DRAMCache.Misses

/-!
# What the memory owes

The memory answers the requests that it has accepted, in any order, and an
answer brings back the number of the register that sent the request.  `Owes`
says exactly which answers are to come.

* For a register of a miss that is in service, one answer, unless the answer came
  before the lookup of its read.
* For an entry of `pamQueue` whose lookup hit, one answer as well: the register
  was freed while the request was at the memory.  The register may be in use
  again, for any block.
* For a register of a write that is in service, one answer.

The second kind is dangerous, because an answer is matched with an entry of
`pamQueue` by its address alone.  `AnswersMatch` is the condition that this finds
the right entry.  It makes the memory owe what `Owes` says in every state, and
then no assertion of `recvTimingResp` on the targets fails.
-/

namespace Gem5Gpu.DRAMCache

open Mem Lib Function

variable {c : Config} {e : Event} {up : Upstream} {s s' s₀ s₁ : State} {r : TimingReq}
  {φ φ' : Phase} {m a : ℕ} {w : Bool} {p : MemPacket} {pkt : Packet} {pr : PamReq} {reg : MSHR}
  {f : Fault} {mem : List MemPacket}

/-- The register and the block of an answer to a miss. -/
def missKey (p : MemPacket) : Option (ℕ × ℕ) :=
  if p.queue = .mshrs then some (p.mshr, p.addr) else none

/-- The register of an answer to a write. -/
def writeKey (p : MemPacket) : Option ℕ :=
  if p.queue = .writeBuffer then some p.mshr else none

/-- A register is in service for a block, and its answer has not come. -/
def awaits (entries : ℕ → Option MSHR) (pam : ℕ → Option PamReq) (m b : ℕ) : Bool :=
  (entries m).any (fun reg => reg.inService && reg.blkAddr == b) &&
    !(pam b).any fun pr => pr.mshr == m && pr.isHit.isNone && pr.isPamComplete

/-- A register was freed while its request was at the memory. -/
def orphaned (pam : ℕ → Option PamReq) (m b : ℕ) : Bool :=
  (pam b).any fun pr => pr.mshr == m && pr.isHit == some true

/-- The answers to come for a register and a block. -/
def owed (entries : ℕ → Option MSHR) (pam : ℕ → Option PamReq) (m b : ℕ) : ℕ :=
  (awaits entries pam m b).toNat + (orphaned pam m b).toNat

/-- The requests at the memory are the ones that the registers and `pamQueue`
wait for. -/
structure Owes (entries : ℕ → Option MSHR) (pam : ℕ → Option PamReq)
    (writes : ℕ → Option MSHR) (mem : List MemPacket) : Prop where
  misses : ∀ m b, (mem.filterMap missKey).count (m, b) = owed entries pam m b
  served : ∀ a pr, pam a = some pr → pr.isHit = none → pr.isPamComplete = true →
    ∃ reg, entries pr.mshr = some reg ∧ reg.inService = true
  sends : ∀ m, (mem.filterMap writeKey).count m = ((writes m).any fun reg => reg.inService).toNat
  single : ∀ m reg, writes m = some reg → reg.targets.length = 1
  cmds : ∀ p ∈ mem, p.queue = .writeBuffer → p.cmd = .writeReq

/-- An answer for a block with an entry of `pamQueue` is the answer to that
entry's request. -/
def AnswersMatch (s : State) : Event → Prop
  | .recvTimingResp i _ => ∀ p ∈ s.mem[i]?, p.queue = .mshrs →
      ∀ pr ∈ s.pamQueue p.addr, p.mshr = pr.mshr
  | _ => True

/-! ## Counting -/

section Keys

variable {mem : List MemPacket}

theorem count_missKey_cons (hqueue : p.queue = .mshrs) (i b : ℕ) :
    ((p :: mem).filterMap missKey).count (i, b) = (mem.filterMap missKey).count (i, b) +
        if i = p.mshr ∧ b = p.addr then 1 else 0 := by
  rw [List.filterMap_cons_some (b := (p.mshr, p.addr)) (by simp [missKey, hqueue]), List.count_cons]
  simp only [beq_iff_eq, Prod.mk.injEq]
  simp only [eq_comm]

theorem count_writeKey_cons (hqueue : p.queue = .writeBuffer) (i : ℕ) :
    ((p :: mem).filterMap writeKey).count i =
      (mem.filterMap writeKey).count i + if i = p.mshr then 1 else 0 := by
  rw [List.filterMap_cons_some (b := p.mshr) (by simp [writeKey, hqueue]), List.count_cons]
  simp only [beq_iff_eq]
  simp only [eq_comm]

theorem filterMap_missKey_cons (hqueue : p.queue = .writeBuffer) :
    (p :: mem).filterMap missKey = mem.filterMap missKey :=
  List.filterMap_cons_none (by simp [missKey, hqueue])

theorem filterMap_writeKey_cons (hqueue : p.queue = .mshrs) :
    (p :: mem).filterMap writeKey = mem.filterMap writeKey :=
  List.filterMap_cons_none (by simp [writeKey, hqueue])

end Keys

/-! ## Changes of the registers and of `pamQueue` -/

section Owed

variable {entries : ℕ → Option MSHR} {pam : ℕ → Option PamReq}

/-- A register of a miss changes, but neither its block nor its service. -/
theorem owed_set {reg' : MSHR} (hm : entries m = some reg)
    (hblk : reg'.blkAddr = reg.blkAddr) (hserv : reg'.inService = reg.inService) :
    owed (update entries m (some reg')) pam = owed entries pam := by
  funext i b
  by_cases hi : i = m
  · subst hi
    simp [owed, awaits, hm, hblk, hserv]
  · simp [owed, awaits, hi]

/-- A register is taken. -/
theorem owed_take (hfree : entries m = none) (hserv : reg.inService = false) :
    owed (update entries m (some reg)) pam = owed entries pam := by
  funext i b
  by_cases hi : i = m
  · subst hi
    simp [owed, awaits, hfree, hserv]
  · simp [owed, awaits, hi]

/-- An entry of `pamQueue` changes, but not what it means for its answer. -/
theorem owed_setPam {pr' : PamReq} (hpr : pam a = some pr) (hmshr : pr'.mshr = pr.mshr)
    (hearly : (pr'.isHit.isNone && pr'.isPamComplete) = (pr.isHit.isNone && pr.isPamComplete))
    (hlate : (pr'.isHit == some true) = (pr.isHit == some true)) :
    owed entries (update pam a (some pr')) = owed entries pam := by
  funext i b
  by_cases hb : b = a
  · subst hb
    simp only [owed, awaits, orphaned, update_self, hpr, Option.any_some,
      hmshr, hlate, Bool.and_assoc, hearly]
  · simp [owed, awaits, orphaned, hb]

/-- An entry of `pamQueue` is added. -/
theorem owed_startPam (hnone : pam a = none) (hhit : pr.isHit = none)
    (hdone : pr.isPamComplete = false) :
    owed entries (update pam a (some pr)) = owed entries pam := by
  funext i b
  by_cases hb : b = a
  · subst hb
    simp [owed, awaits, orphaned, hnone, hhit, hdone]
  · simp [owed, awaits, orphaned, hb]

/-- What is owed to the register that an entry of `pamQueue` points to. -/
theorem owed_self (hm : entries m = some reg) (hblk : reg.blkAddr = a)
    (hpr : pam a = some pr) (hmshr : pr.mshr = m) (hnot : pr.isHit ≠ some true) :
    owed entries pam m a = (reg.inService && !(pr.isHit.isNone && pr.isPamComplete)).toNat := by
  have hlate : (pr.isHit == some true) = false := by simpa using hnot
  simp only [owed, awaits, orphaned, hm, hblk, hpr, hmshr, hlate, Option.any_some,
    beq_self_eq_true, Bool.and_true, Bool.true_and, Bool.toNat_false,
    Nat.add_zero]

namespace Owes

variable {writes : ℕ → Option MSHR} {mem mem' : List MemPacket}

section

variable (h : Owes entries pam writes mem)
include h

theorem perm (hmem : mem.Perm mem') :
    Owes entries pam writes mem' := {
  h with
  misses i b := ((hmem.filterMap missKey).count_eq _).symm.trans (h.misses i b)
  sends i := ((hmem.filterMap writeKey).count_eq _).symm.trans (h.sends i)
  cmds p hp := h.cmds p (hmem.mem_iff.2 hp) }

theorem set {reg' : MSHR} (hm : entries m = some reg) (hblk : reg'.blkAddr = reg.blkAddr)
    (hserv : reg'.inService = reg.inService) :
    Owes (update entries m (some reg')) pam writes mem := {
  h with
  misses := by
    rw [owed_set hm hblk hserv]
    exact h.misses
  served a pr hpr hhit hdone := by
    obtain ⟨reg₁, hreg₁, hserv₁⟩ := h.served a pr hpr hhit hdone
    by_cases him : pr.mshr = m
    · rw [him, hm] at hreg₁
      cases hreg₁
      exact ⟨reg', by rw [him, update_self], hserv.trans hserv₁⟩
    · exact ⟨reg₁, by rw [update_of_ne him]; exact hreg₁, hserv₁⟩ }

theorem take (hfree : entries m = none) (hserv : reg.inService = false) :
    Owes (update entries m (some reg)) pam writes mem := {
  h with
  misses := by
    rw [owed_take hfree hserv]
    exact h.misses
  served a pr hpr hhit hdone := by
    obtain ⟨reg₁, hreg₁, hserv₁⟩ := h.served a pr hpr hhit hdone
    have him : pr.mshr ≠ m := by
      rintro rfl
      rw [hfree] at hreg₁
      cases hreg₁
    exact ⟨reg₁, by rw [update_of_ne him]; exact hreg₁, hserv₁⟩ }

theorem startPam (hnone : pam a = none)
    (hhit : pr.isHit = none) (hdone : pr.isPamComplete = false) :
    Owes entries (update pam a (some pr)) writes mem := {
  h with
  misses := by
    rw [owed_startPam hnone hhit hdone]
    exact h.misses
  served b pr' hpr hhit' hdone' := by
    rcases update_eq_some hpr with ⟨-, ⟨⟩⟩ | ⟨-, hpr⟩
    · rw [hdone] at hdone'
      cases hdone'
    · exact h.served b pr' hpr hhit' hdone' }

/-- The entry whose lookup misses, or whose answer comes after that. -/
theorem setPam {pr' : PamReq} (hpr : pam a = some pr) (hmshr : pr'.mshr = pr.mshr)
    (hmiss : pr'.isHit = some false) (hearly : pr.isHit = none → pr.isPamComplete = false)
    (hlate : pr.isHit ≠ some true) :
    Owes entries (update pam a (some pr')) writes mem := {
  h with
  misses := by
    rw [owed_setPam hpr hmshr]
    · exact h.misses
    · cases hhit : pr.isHit with
      | none => simp [hmiss, hearly hhit]
      | some b => simp [hmiss]
    · simp [hmiss, hlate]
  served b pr₁ hpr₁ hhit hdone := by
    rcases update_eq_some hpr₁ with ⟨-, ⟨⟩⟩ | ⟨-, hpr₁⟩
    · rw [hmiss] at hhit
      cases hhit
    · exact h.served b pr₁ hpr₁ hhit hdone }

/-- A register is freed, and the entry of its block is deleted or changed. -/
theorem free {v : Option PamReq} (hm : entries m = some reg) (hpr : pam reg.blkAddr = some pr)
    (hmshr : pr.mshr = m) (hnot : pr.isHit ≠ some true)
    (hother : ∀ a pr', pam a = some pr' → pr'.isHit ≠ some true → pr'.mshr = m → a = reg.blkAddr)
    (hv : ∀ pr' ∈ v, pr'.mshr = m ∧ pr'.isHit = some true)
    (hcount : (v.isSome).toNat = (reg.inService && !(pr.isHit.isNone && pr.isPamComplete)).toNat) :
    Owes (update entries m none) (update pam reg.blkAddr v) writes
      mem := {
  h with
  misses i b := by
    rw [h.misses]
    by_cases hi : i = m
    · subst hi
      by_cases hb : b = reg.blkAddr
      · subst hb
        rw [owed_self hm rfl hpr hmshr hnot, ← hcount]
        cases v with
        | none => simp [owed, awaits, orphaned]
        | some pr' =>
          obtain ⟨hmshr', hhit'⟩ := hv pr' rfl
          simp [owed, awaits, orphaned, hmshr', hhit']
      · have hne : (reg.blkAddr == b) = false := by simpa using Ne.symm hb
        simp [owed, awaits, orphaned, hm, hb, hne]
    · by_cases hb : b = reg.blkAddr
      · subst hb
        have hne : (m == i) = false := by simpa using Ne.symm hi
        cases v with
        | none => simp [owed, awaits, orphaned, hi, hpr, hmshr, hne]
        | some pr' =>
          have hmshr' := (hv pr' rfl).1
          simp [owed, awaits, orphaned, hi, hpr, hmshr, hne, hmshr']
      · simp [owed, awaits, orphaned, hi, hb]
  served a pr' hpr' hhit hdone := by
    rcases update_eq_some hpr' with ⟨-, rfl⟩ | ⟨hne, hpr'⟩
    · rw [(hv pr' rfl).2] at hhit
      cases hhit
    · obtain ⟨reg', hreg', hserv⟩ := h.served a pr' hpr' hhit hdone
      have him : pr'.mshr ≠ m := fun heq =>
        hne (hother a pr' hpr' (by simp [hhit]) heq)
      exact ⟨reg', by rw [update_of_ne him]; exact hreg', hserv⟩ }

/-- A request for a miss is sent. -/
theorem send (hm : entries m = some reg) (hserv : reg.inService = false) (hqueue : p.queue = .mshrs)
    (hmshr : p.mshr = m) (haddr : p.addr = reg.blkAddr) :
    Owes (update entries m (some { reg with inService := true })) pam writes (p :: mem) where
  misses i b := by
    rw [count_missKey_cons hqueue, h.misses, hmshr, haddr]
    by_cases hi : i = m
    · subst hi
      by_cases hb : b = reg.blkAddr
      · subst hb
        -- the answer cannot have come before the request was sent
        have hearly : ((pam reg.blkAddr).any fun pr => pr.mshr == i &&
            pr.isHit.isNone && pr.isPamComplete) = false := by
          cases hpr : pam reg.blkAddr with
          | none => rfl
          | some pr =>
            by_contra hdone
            simp only [Option.any_some, Bool.not_eq_false, Bool.and_eq_true,
              beq_iff_eq, Option.isNone_iff_eq_none] at hdone
            obtain ⟨⟨rfl, hhit⟩, hdone⟩ := hdone
            obtain ⟨reg', hreg', hserv'⟩ := h.served _ pr hpr hhit hdone
            rw [hm] at hreg'
            cases hreg'
            rw [hserv] at hserv'
            cases hserv'
        simp [owed, awaits, hm, hserv, hearly, Nat.add_comm]
      · have hne : (reg.blkAddr == b) = false := by simpa using Ne.symm hb
        simp [owed, awaits, hm, hb, hne]
    · simp [owed, awaits, hi]
  served a pr hpr hhit hdone := by
    obtain ⟨reg₁, hreg₁, hserv₁⟩ := h.served a pr hpr hhit hdone
    by_cases him : pr.mshr = m
    · exact ⟨_, by rw [him, update_self], rfl⟩
    · exact ⟨reg₁, by rw [update_of_ne him]; exact hreg₁, hserv₁⟩
  sends := by
    rw [filterMap_writeKey_cons hqueue]
    exact h.sends
  single := h.single
  cmds x hx hw := by
    rcases List.mem_cons.1 hx with rfl | hx
    · rw [hqueue] at hw
      cases hw
    · exact h.cmds x hx hw

end

section

variable (h : Owes entries pam writes (p :: mem))
include h

variable (hqueue : p.queue = .mshrs)
include hqueue

/-- An answer to a miss comes. -/
theorem pop {entries' : ℕ → Option MSHR} {pam' : ℕ → Option PamReq}
    (howed : ∀ i b, owed entries pam i b =
      owed entries' pam' i b + if i = p.mshr ∧ b = p.addr then 1 else 0)
    (hserved : ∀ a pr, pam' a = some pr → pr.isHit = none →
      pr.isPamComplete → ∃ reg, entries' pr.mshr = some reg ∧
        reg.inService) : Owes entries' pam' writes mem where
  misses i b := by
    have hcount := h.misses i b
    rw [count_missKey_cons hqueue, howed] at hcount
    exact Nat.add_right_cancel hcount
  served := hserved
  sends := by
    have hsends := h.sends
    rw [filterMap_writeKey_cons hqueue] at hsends
    exact hsends
  single := h.single
  cmds x hx := h.cmds x (List.mem_cons_of_mem p hx)

/-- An answer is owed. -/
theorem owed_pos : 0 < owed entries pam p.mshr p.addr := by
  rw [← h.misses, count_missKey_cons hqueue]
  simp

/-- An answer that belongs to no entry of `pamQueue` is for a register in
service. -/
theorem entry_of_none (hnone : pam p.addr = none) :
    ∃ reg, entries p.mshr = some reg ∧ reg.inService ∧ reg.blkAddr = p.addr := by
  have hpos := h.owed_pos hqueue
  cases hreg : entries p.mshr with
  | none => simp [owed, awaits, orphaned, hreg, hnone] at hpos
  | some reg =>
    refine ⟨reg, rfl, ?_⟩
    by_contra hne
    have hany : (reg.inService && reg.blkAddr == p.addr) = false := by
      simpa using hne
    simp [owed, awaits, orphaned, hreg, hnone, hany] at hpos

/-- The answer comes before the lookup. -/
theorem answerEarly (hm : entries p.mshr = some reg) (hblk : reg.blkAddr = p.addr)
    (hpr : pam p.addr = some pr) (hmshr : pr.mshr = p.mshr) (hhit : pr.isHit = none) :
    Owes entries (update pam p.addr (some { pr with isPamComplete := true })) writes mem := by
  have hpos := h.owed_pos hqueue
  have hself := owed_self hm hblk hpr hmshr (by simp [hhit])
  rw [hself] at hpos
  have hserv : reg.inService = true ∧ pr.isPamComplete = false := by
    cases hserv : reg.inService <;> cases hdone : pr.isPamComplete <;>
      simp [hserv, hdone, hhit] at hpos ⊢
  refine h.pop hqueue (fun i b => ?_) fun a pr' hpr' hhit' hdone => ?_
  · by_cases hb : b = p.addr
    · subst hb
      by_cases hi : i = p.mshr
      · subst hi
        rw [hself]
        have hself' : owed entries (update pam p.addr
            (some { pr with isPamComplete := true })) p.mshr p.addr = _ :=
          owed_self hm hblk (update_self ..) hmshr (by simp [hhit])
        rw [hself']
        simp [hserv, hhit]
      · have hne : (p.mshr == i) = false := by simpa using Ne.symm hi
        simp [owed, awaits, orphaned, hpr, hmshr, hi, hne]
    · simp [owed, awaits, orphaned, hb]
  · rcases update_eq_some hpr' with ⟨-, ⟨⟩⟩ | ⟨-, hpr'⟩
    · exact ⟨reg, hmshr ▸ hm, hserv.1⟩
    · exact h.served a pr' hpr' hhit' hdone

/-- The answer comes after the lookup hit. -/
theorem answerLate (hpr : pam p.addr = some pr)
    (hmshr : pr.mshr = p.mshr) (hhit : pr.isHit = some true) :
    Owes entries (update pam p.addr none) writes mem := by
  refine h.pop hqueue (fun i b => ?_) fun a pr' hpr' => ?_
  · by_cases hb : b = p.addr
    · subst hb
      by_cases hi : i = p.mshr
      · subst hi
        simp [owed, awaits, orphaned, hpr, hmshr, hhit]
      · have hne : (p.mshr == i) = false := by simpa using Ne.symm hi
        simp [owed, awaits, orphaned, hpr, hmshr, hi, hne]
    · simp [owed, awaits, orphaned, hb]
  · rcases update_eq_some hpr' with ⟨-, ⟨⟩⟩ | ⟨-, hpr'⟩
    exact h.served a pr' hpr'

/-- The answer comes after a miss, and its register is freed. -/
theorem answerMiss (hm : entries p.mshr = some reg) (hblk : reg.blkAddr = p.addr)
    (hpam : ∀ pr ∈ pam p.addr, pr.mshr = p.mshr ∧ pr.isHit = some false)
    (hother : ∀ a pr, pam a = some pr → pr.isHit ≠ some true → a ≠ p.addr → pr.mshr ≠ p.mshr) :
    Owes (update entries p.mshr none) (update pam p.addr none)
      writes mem := by
  have hpos := h.owed_pos hqueue
  refine h.pop hqueue (fun i b => ?_) fun a pr hpr hhit hdone => ?_
  · by_cases hb : b = p.addr
    · subst hb
      have horphan : orphaned pam i p.addr = false := by
        cases hpr : pam p.addr with
        | none => simp [orphaned, hpr]
        | some pr => simp [orphaned, hpr, (hpam pr hpr).2]
      by_cases hi : i = p.mshr
      · subst hi
        rw [owed, horphan] at hpos
        have hawaits : awaits entries pam p.mshr p.addr = true := by
          cases hawaits : awaits entries pam p.mshr p.addr <;>
            simp [hawaits] at hpos ⊢
        simp only [owed, horphan, hawaits]
        simp [awaits, orphaned]
      · have hearly : ((pam p.addr).any fun pr =>
            pr.mshr == i && pr.isHit.isNone && pr.isPamComplete) = false := by
          cases hpr : pam p.addr with
          | none => rfl
          | some pr => simp [(hpam pr hpr).2]
        simp only [owed, horphan, awaits, hearly]
        simp [orphaned, hi]
    · by_cases hi : i = p.mshr
      · subst hi
        have hne : (p.addr == b) = false := by simpa using Ne.symm hb
        simp [owed, awaits, orphaned, hb, hm, hblk, hne]
      · simp [owed, awaits, orphaned, hb, hi]
  · rcases update_eq_some hpr with ⟨-, ⟨⟩⟩ | ⟨hne, hpr⟩
    obtain ⟨reg', hreg', hserv⟩ := h.served a pr hpr hhit hdone
    have him := hother a pr hpr (by simp [hhit]) hne
    exact ⟨reg', by rw [update_of_ne him]; exact hreg', hserv⟩

end

/-- A register of a write is taken. -/
theorem takeWrite (h : Owes entries pam writes mem) (hfree : writes m = none)
    (hserv : reg.inService = false) (hlen : reg.targets.length = 1) :
    Owes entries pam (update writes m (some reg)) mem := {
  h with
  sends i := by
    rw [h.sends]
    by_cases hi : i = m
    · subst hi
      simp [hfree, hserv]
    · simp [hi]
  single i reg' hi := by
    rcases update_eq_some hi with ⟨-, ⟨⟩⟩ | ⟨-, hi⟩
    · exact hlen
    · exact h.single i reg' hi }

/-- A write is sent. -/
theorem sendWrite (h : Owes entries pam writes mem) (hm : writes m = some reg)
    (hserv : reg.inService = false) (hqueue : p.queue = .writeBuffer)
    (hmshr : p.mshr = m) (hcmd : p.cmd = .writeReq) :
    Owes entries pam (update writes m (some { reg with inService := true })) (p :: mem) where
  misses := by
    rw [filterMap_missKey_cons hqueue]
    exact h.misses
  served := h.served
  sends i := by
    rw [count_writeKey_cons hqueue, h.sends, hmshr]
    by_cases hi : i = m
    · subst hi
      simp [hm, hserv]
    · simp [hi]
  single i reg' hi := by
    rcases update_eq_some hi with ⟨-, ⟨⟩⟩ | ⟨-, hi⟩
    · exact h.single m reg hm
    · exact h.single i reg' hi
  cmds x hx := by
    rcases List.mem_cons.1 hx with rfl | hx
    · exact fun _ => hcmd
    · exact h.cmds x hx

/-- The answer to a write is for a register in service. -/
theorem entry_of_write (h : Owes entries pam writes (p :: mem)) (hqueue : p.queue = .writeBuffer) :
    ∃ reg, writes p.mshr = some reg ∧ reg.inService := by
  have hsends := h.sends p.mshr
  rw [count_writeKey_cons hqueue] at hsends
  cases hreg : writes p.mshr with
  | none => simp [hreg] at hsends
  | some reg =>
    refine ⟨reg, rfl, ?_⟩
    cases hserv : reg.inService with
    | true => rfl
    | false => simp [hreg, hserv] at hsends

/-- The answer to a write comes, and its register is freed. -/
theorem answerWrite (h : Owes entries pam writes (p :: mem)) (hqueue : p.queue = .writeBuffer) :
    Owes entries pam (update writes p.mshr none) mem where
  misses := by
    have hmisses := h.misses
    rw [filterMap_missKey_cons hqueue] at hmisses
    exact hmisses
  served := h.served
  sends i := by
    have hsends := h.sends i
    rw [count_writeKey_cons hqueue] at hsends
    obtain ⟨reg, hreg, hserv⟩ := h.entry_of_write hqueue
    by_cases hi : i = p.mshr
    · subst hi
      simp only [hreg, Option.any_some, hserv] at hsends
      simpa using hsends
    · simpa [hi] using hsends
  single i reg hi := by
    rcases update_eq_some hi with ⟨-, ⟨⟩⟩ | ⟨-, hi⟩
    exact h.single i reg hi
  cmds x hx := h.cmds x (List.mem_cons_of_mem p hx)

end Owes

end Owed

/-! ## The pieces of the handlers -/

/-- What the memory owes at a point of a handler. -/
def Phase.Owes (φ : Phase) (s : State) : Prop :=
  DRAMCache.Owes s.mshrQueue.entries (φ.pam s) s.writeBuffer.entries (φ.taken ++ s.mem)

theorem Recv.mem_eq (h : Recv c s r s') : s'.mem = s.mem := by
  cases h <;> rfl

theorem Joins.owes {entries writes : ℕ → Option MSHR} {pam pam' : ℕ → Option PamReq}
    {acc : List TimingReq} (h : Joins c s r pam entries pam' acc) (hr : c.Aligned r.addr)
    (hs : Owes s.mshrQueue.entries pam writes mem) : Owes entries pam' writes mem := by
  cases h with
  | same => exact hs
  | coalesced m reg hm => exact hs.set hm rfl rfl
  | taken m t hfree => exact hs.take hfree rfl
  | early m t hfree _ hnew => exact (hs.take hfree rfl).startPam (hr.symm ▸ hnew) rfl rfl

theorem Recv.owes (h : Recv c s r s') (hr : c.Aligned r.addr)
    (hlink : φ.Linked c s) (hs : φ.Owes s) : φ.Owes s' := by
  have hmisses : Owes s'.mshrQueue.entries (φ.pam s') s.writeBuffer.entries
      (φ.taken ++ s'.mem) := by
    rw [h.mem_eq]
    exact (h.joins_pam hr hlink.waits).owes hr hs
  rcases h.writeEntries with heq | ⟨m, reg, hfree, hserv, hlen, heq⟩
  · unfold Phase.Owes
    rw [heq]
    exact hmisses
  · unfold Phase.Owes
    rw [heq]
    exact hmisses.takeWrite hfree hserv hlen

theorem Retried.owes (h : Retried c up s s') (hup : ∀ s r, up s = some r → c.Aligned r.addr)
    (hlink : φ.Linked c s) (hs : φ.Owes s) : φ.Owes s' :=
  h.keeps (P := φ.Owes) hs fun r _ hr h => h.owes (hup _ r hr) hlink.logRetry hs

theorem Owes.fills {entries : ℕ → Option MSHR} {pam : ℕ → Option PamReq} {addr ctx : ℕ}
    (h : Fills c s addr ctx s') (hs : Owes entries pam s.writeBuffer.entries mem) :
    Owes entries pam s'.writeBuffer.entries mem := by
  rcases h.writeEntries with heq | ⟨m, reg, hfree, hserv, hlen, heq⟩
  · rw [heq]
    exact hs
  · rw [heq]
    exact hs.takeWrite hfree hserv hlen

theorem Owes.fillsOnResp {entries : ℕ → Option MSHR} {pam : ℕ → Option PamReq}
    (h : FillsOnResp c s p s') (hs : Owes entries pam s.writeBuffer.entries mem) :
    Owes entries pam s'.writeBuffer.entries mem := by
  cases h with
  | present => exact hs
  | fills _ h => exact hs.fills h

/-- The memory gives an answer back. -/
theorem mem_perm {i : ℕ} (hp : mem[i]? = some p) : mem.Perm (p :: mem.eraseIdx i) := by
  obtain ⟨hi, rfl⟩ := List.getElem?_eq_some_iff.1 hp
  exact (List.getElem_cons_eraseIdx_perm hi).symm

section Lookups

variable (hlink : Phase.start.Linked c s) (hs : Phase.start.Owes s)
include hlink hs

/-- A lookup frees its register.  Its entry stays, as a hit, while the request of the register is
sent and not answered. -/
theorem OwnBurst.owes_freed {v : Option PamReq} (h : OwnBurst e s pkt pr)
    (hv : ∀ pr' ∈ v, pr'.mshr = pr.mshr ∧ pr'.isHit = some true)
    (hcount : v.isSome =
      ((s.mshrQueue.registers pr.mshr).inService && !pr.isPamComplete)) :
    Owes (update s.mshrQueue.entries pr.mshr none) (update s.pamQueue pkt.addr v)
      s.writeBuffer.entries s.mem := by
  obtain ⟨reg, hreg, hblk⟩ := h.entry_eq hlink
  rw [(MSHRQueue.entries_eq_some.1 hreg).2] at hcount
  have hhit := h.isHit_eq hlink
  have hfree := Owes.free hs hreg (hblk ▸ h.entry) rfl (by simp [hhit])
    (fun b pr' hpr hne heq => (h.unique hlink hpr hne heq).trans hblk.symm) hv
    (by simp [hhit, hcount])
  rw [hblk] at hfree
  exact hfree

end Lookups

/-- What an answer for an entry of `pamQueue` finds. -/
theorem AnswersMatch.mshr_eq {i : ℕ} (h : AnswersMatch s (.recvTimingResp i up))
    (hp : s.mem[i]? = some p) (hqueue : p.queue = .mshrs)
    (hpr : s.pamQueue p.addr = some pr) : pr.mshr = p.mshr :=
  (h p (by simp [hp]) hqueue pr (by simp [hpr])).symm

/-- An answer without an entry of `pamQueue` frees its register. -/
theorem Phase.Linked.owes_serial {writes : ℕ → Option MSHR}
    (hlink : (Phase.consuming p w false).Linked c s) (hqueue : p.queue = .mshrs)
    (hs : DRAMCache.Owes s.mshrQueue.entries s.pamQueue writes (p :: mem)) :
    DRAMCache.Owes (update s.mshrQueue.entries p.mshr none) s.pamQueue writes
      mem := by
  obtain ⟨reg, hreg, hblk, hnone⟩ := hlink.waits hqueue
  have hfreed := hs.answerMiss hqueue hreg hblk (fun pr hpr => ?_) fun a pr hpr hhit hne heq => ?_
  · rwa [← hnone, update_eq_self] at hfreed
  · rw [hnone] at hpr
    cases hpr
  · obtain ⟨reg', hreg', ha⟩ := hlink.links.early a pr hpr hhit
    rw [heq, hreg] at hreg'
    cases hreg'
    exact hne (ha.symm.trans hblk)

theorem Micro.owes (h : Micro c e s₀ φ s φ' s') (hok : Demands (fun _ r => c.Aligned r.addr) s₀ e)
    (hmatch : AnswersMatch s₀ e) (hown : OwnEntries s₀ e) (hlink : φ.Linked c s)
    (hs : φ.Owes s) : φ'.Owes s' := by
  cases h with
  | request r he h =>
    exact h.owes (φ := .start) (hok.request r he) hlink hs
  | retryWrite _ h | retryRead _ h =>
    exact h.owes (φ := .done) hok.reaction ⟨hlink.pkts, hlink.counted, hlink.links, hlink.waits⟩ hs
  | retryCache _ _ _ h => exact h.owes hok.reaction hlink hs
  | serialCoalesced pkt m hlast _ _ hm | serialCoalescedLast pkt m hlast _ _ hm =>
    have hreg := (MSHRQueue.findMatch_entries hm).1
    simp only [Phase.Owes, allocateTarget_entries hreg]
    exact Owes.set hs hreg rfl rfl
  | serialMiss pkt m q hlast _ _ _ hq =>
    simp only [Phase.Owes, hq.entries_eq]
    exact Owes.take hs hq.entries_self rfl
  | pamDoneHit pkt pr _ _ hlast hdone _ _ hfree =>
    obtain ⟨q, b, pb, hq, rfl⟩ := hfree.frame
    simp only [Phase.Owes, hq.entries_eq_of_setTargets]
    exact (hown.burst hlast).owes_freed hlink hs (v := none) nofun (by simp [hdone])
  | pamDoneMiss pkt pr _ _ hlast hdone _ _ hfill hfree =>
    have howes := ((hown.burst hlast).owes_freed hlink hs (v := none) nofun
      (by simp [hdone])).fills hfill
    obtain ⟨_, _, _, _, _, _, _, _, rfl⟩ := hfill.frame
    obtain ⟨q, b, pb, hq, rfl⟩ := hfree.frame
    simp only [Phase.Owes, hq.entries_eq_of_setTargets]
    rw [← update_idem (a := pkt.addr) (some { pr with isHit := some false })] at howes
    exact howes
  | pamHit pkt pr _ _ hlast hdone _ _ hfree =>
    obtain ⟨q, b, pb, hq, rfl⟩ := hfree.frame
    simp only [Phase.Owes, hq.entries_eq_of_setTargets]
    split
    · rename_i hserv
      exact (hown.burst hlast).owes_freed hlink hs (v := some _) (by simp) (by simp [hserv, hdone])
    · rename_i hserv
      rw [Phase.pam_of_gone (φ := .forgetting pkt) rfl fun b hb =>
        update_of_ne hb _ _]
      exact (hown.burst hlast).owes_freed hlink hs (v := none) nofun (by simp [hserv])
  | pamMiss pkt pr hlast hdone =>
    obtain ⟨reg, hreg, hblk⟩ := (hown.burst hlast).entry_eq hlink
    have hhit := (hown.burst hlast).isHit_eq hlink
    simp only [Phase.Owes, allocateTarget_entries hreg]
    have hset : Owes (update s.mshrQueue.entries pr.mshr
        (some (MSHR.addTarget reg pkt))) s.pamQueue s.writeBuffer.entries s.mem :=
      Owes.set hs hreg rfl rfl
    exact hset.setPam hlast.entry rfl rfl (fun _ => hdone) (by simp [hhit])
  | forget pkt =>
    have hs : Owes _ _ _ _ := hs
    rw [Phase.pam_of_gone rfl fun _ _ => rfl] at hs
    exact hs
  | writeMiss pkt rest d m q _ _ _ hq | writeAllocDirty pkt rest d m q _ _ _ _ hq =>
    simp only [Phase.Owes, hq.entries_eq]
    exact Owes.takeWrite hs hq.entries_self rfl rfl
  | sendNothing hw | sendRefused _ _ hw =>
    obtain ⟨_, _, rfl⟩ := hw.frame
    exact hs
  | sentMiss r target rest q hw _ htargets hq =>
    obtain ⟨_, _, rfl⟩ := hw.frame
    obtain ⟨hmem, hserv⟩ := s.mshrQueue.wf.mem_readyList.1 hq.mem
    have hreg := MSHRQueue.entries_of_mem hmem
    have haddr : target.addr = (s.mshrQueue.registers r).blkAddr := by
      refine (hlink.links.waiting _ _ hreg).2 target ?_
      rw [htargets]
      exact List.mem_cons_self
    simp only [Phase.Owes, hq.entries_eq]
    exact (Owes.send hs hreg hserv rfl rfl haddr).perm (List.perm_append_singleton _ _).symm
  | sentWrite r target rest q hw _ htargets hq =>
    obtain ⟨_, _, rfl⟩ := hw.frame
    obtain ⟨hmem, hserv⟩ := s.writeBuffer.wf.mem_readyList.1 hq.mem
    simp only [Phase.Owes, hq.entries_eq]
    exact (Owes.sendWrite hs (MSHRQueue.entries_of_mem hmem) hserv rfl rfl rfl).perm
      (List.perm_append_singleton _ _).symm
  | pamEarly i up p pr first rest he hp hqueue hpr hhit htargets =>
    subst he
    have hmshr := hmatch.mshr_eq hp hqueue hpr
    obtain ⟨reg, hreg, hblk⟩ := hlink.links.early p.addr pr hpr (by simp [hhit])
    simp only [Phase.Owes, MSHRQueue.setTargets_entries, hreg, Option.map_some]
    have howes := (Owes.perm hs (mem_perm hp)).answerEarly hqueue (hmshr ▸ hreg) hblk hpr hmshr hhit
    exact howes.set hreg rfl rfl
  | pamLate i up p pr he hp hqueue hpr hhit =>
    subst he
    have hmshr := hmatch.mshr_eq hp hqueue hpr
    exact (Owes.perm hs (mem_perm hp)).answerLate hqueue hpr hmshr hhit
  | pamAnswer i up p pr he hp _ hpr hhit =>
    exact (Owes.perm hs (mem_perm hp)).setPam hpr rfl hhit (by simp [hhit]) (by simp [hhit])
  | serialAnswer i up p he hp => exact Owes.perm hs (mem_perm hp)
  | readAnswered p w hqueue _ _ _ hfill hfree =>
    have howes := hlink.owes_serial hqueue (Owes.fillsOnResp hfill hs)
    obtain ⟨_, _, _, _, _, _, _, _, rfl⟩ := hfill.frame
    obtain ⟨q, b, pb, hq, rfl⟩ := hfree.frame
    simp only [Phase.Owes, hq.entries_eq_of_setTargets]
    exact howes
  | writeAnswered p w hqueue _ _ hfree =>
    obtain ⟨q, b, pb, hq, rfl⟩ := hfree.frame_writeBuffer
    simp only [Phase.Owes, hq.entries_eq_of_setTargets]
    exact Owes.answerWrite hs hqueue
  | pamAnswered p w _ _ hqueue _ hfree =>
    obtain ⟨pr, hpr, hhit, hmshr⟩ := hlink.waits
    obtain ⟨reg, hreg, hblk⟩ := hlink.links.early p.addr pr hpr (by simp [hhit])
    obtain ⟨q, b, pb, hq, rfl⟩ := hfree.frame
    simp only [Phase.Owes, hq.entries_eq_of_setTargets]
    rw [Phase.pam_of_gone (φ := .filling p) rfl fun _ _ => rfl]
    refine Owes.answerMiss hs hqueue (hmshr ▸ hreg) hblk (fun pr' hpr' => ?_)
      fun a pr' hpr' hhit' hne heq => ?_
    · have hpr' : s.pamQueue p.addr = some pr' := hpr'
      rw [hpr] at hpr'
      cases hpr'
      exact ⟨hmshr, hhit⟩
    · exact hne (hlink.links.mshr_inj hpr' hhit' hpr (by simp [hhit]) (heq.trans hmshr.symm))
  | filled p hfill =>
    have howes := Owes.fills hfill hs
    obtain ⟨_, _, _, _, _, _, _, _, rfl⟩ := hfill.frame
    rw [Phase.pam_of_gone rfl fun _ _ => rfl] at howes
    exact howes
  | _ => exact hs

/-! ## Answers find their registers -/

/-- An answer without an entry of `pamQueue` is for the register of its block. -/
theorem Phase.Owes.answersFound (hs : Phase.start.Owes s) : AnswersFound s e := by
  cases e with
  | recvTimingResp i up =>
    intro p hp hqueue hnone
    obtain ⟨reg, hreg, -, hblk⟩ :=
      (Owes.perm hs (mem_perm hp)).entry_of_none hqueue hnone
    obtain ⟨hmem, rfl⟩ := MSHRQueue.entries_eq_some.1 hreg
    exact ⟨hmem, hblk⟩
  | _ => trivial

/-- The assertions of `recvTimingResp` on the register of an answer and its
targets. -/
def isTargetFault : Fault → Bool
  | .respNoTargets | .respTargetAddr | .respPamMshr | .respWriteTargets
  | .respUnknown => true
  | _ => false

theorem Phase.Owes.not_fails (hf : isTargetFault f)
    (hmatch : AnswersMatch s₀ e) (hlink : φ.Linked c s) (hs : φ.Owes s) :
    ¬ Fails c e s₀ φ s f := by
  intro h
  cases h with
  | request | miss | write | writeIndex | fillIndex | fillServed | nothingToServe => cases hf
  | pamEarly p pr _ _ hpr hhit htargets =>
    obtain ⟨reg, hreg, -⟩ := hlink.links.early p.addr pr hpr (by simp [hhit])
    rw [(MSHRQueue.entries_eq_some.1 hreg).2] at htargets
    exact (hlink.links.waiting _ reg hreg).1 htargets
  | pamMshr p pr hans hqueue hpr hne =>
    obtain ⟨i, up, rfl, hp⟩ := hans
    exact hne (hmatch.mshr_eq hp hqueue hpr).symm
  | noTargets p w pam hqueue htargets =>
    have hentry : ∃ reg, s.mshrQueue.entries p.mshr = some reg := by
      cases pam with
      | true =>
        obtain ⟨pr, hpr, hhit, hmshr⟩ := hlink.waits
        obtain ⟨reg, hreg, -⟩ := hlink.links.early p.addr pr hpr (by simp [hhit])
        exact ⟨reg, hmshr ▸ hreg⟩
      | false =>
        obtain ⟨reg, hreg, -⟩ := hlink.waits hqueue
        exact ⟨reg, hreg⟩
    obtain ⟨reg, hreg⟩ := hentry
    rw [(MSHRQueue.entries_eq_some.1 hreg).2] at htargets
    exact (hlink.links.waiting _ reg hreg).1 htargets
  | targetAddr p w t hqueue ht hne =>
    obtain ⟨reg, hreg, hblk, -⟩ := hlink.waits hqueue
    rw [(MSHRQueue.entries_eq_some.1 hreg).2] at ht
    exact hne (hblk.symm.trans ((hlink.links.waiting _ reg hreg).2 t ht).symm)
  | writeTargets p w hqueue hlen =>
    obtain ⟨reg, hreg, -⟩ := Owes.entry_of_write hs hqueue
    rw [(MSHRQueue.entries_eq_some.1 hreg).2] at hlen
    exact hlen (hs.single _ reg hreg)
  | unknown p w hread hwrite =>
    cases hqueue : p.queue with
    | mshrs => exact hread hqueue (hlink.pkts.memPkts p List.mem_cons_self hqueue).1
    | writeBuffer => exact hwrite hqueue (hs.cmds p List.mem_cons_self hqueue)
  | other hother =>
    cases f <;> simp [isTargetFault, isOther] at hf hother

end Gem5Gpu.DRAMCache
