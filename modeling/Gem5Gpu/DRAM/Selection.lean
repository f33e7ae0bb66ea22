import Gem5Gpu.DRAM.Scheduler

/-!
# What the scheduler selects

Each policy takes the first packet of the best class, for a class that depends on the packet
and on the state of the banks alone: `readyClass` for `frfcfs` and `prioClass` for
`cpuPriorityfrfcfs`.  The two passes find it with flags.  `Scan.Agrees` and `PrioScan.Agrees`
say which flags go with which best class so far; one visit keeps them in step with the general
one-pass search (`visit_agrees`, `visitCPUPrio_agrees`), and so does the pass (`scan_eq`,
`scanCPUPrio_eq`).

That some packet is always selected rests on the mask of `minBankPrep`: it only holds banks
with a waiting packet, and it holds one if any packet waits (`minBankPrep_mask`).
-/

namespace Gem5Gpu.DRAM.Channel

open Lib

variable {best : Option (ℕ × ℕ)} {st : PrioScan} {i : ℕ} {g : Geometry} (ch : Channel g)
  (queue : List (DRAMPacket g)) (minColAt : Tick)

/-! ## The classes -/

/-- A packet to a bank that can be prepared earliest. -/
def toEarliestBank (p : DRAMPacket g) : Bool :=
  (ch.minBankPrep queue minColAt).1.getLsbD p.bankId

/-- The classes of `frfcfs`: seamless row hits; packets to an earliest bank, if that bank is
prepared behind the bursts on the bus; prepped row hits; packets to an earliest bank. -/
def readyClass (p : DRAMPacket g) : Option ℕ :=
  if ch.available p then
    if ch.rowHit p then
      if ch.seamless minColAt p then some 0 else some 2
    else if ch.toEarliestBank queue minColAt p then
      if (ch.minBankPrep queue minColAt).2 then some 1 else some 3
    else none
  else none

/-- The classes of `cpuPriorityfrfcfs`: those of `frfcfs`, and in each of them the CPU before
the GPU. -/
def prioClass (p : DRAMPacket g) : Option ℕ :=
  (ch.readyClass queue minColAt p).map fun k => if p.fromCPU then 2 * k else 2 * k + 1

/-! ## The banks, when the pass needs them -/

/-- The pass has not computed the bank status yet, or it has. -/
def BanksOK (b : Banks) : Prop :=
  b.earliestBanks = 0 ∨ b = ⟨(ch.minBankPrep queue minColAt).1, (ch.minBankPrep queue minColAt).2⟩

variable {ch queue minColAt}

theorem BanksOK.bankStatus_eq {b : Banks} (h : ch.BanksOK queue minColAt b) :
    ch.bankStatus queue minColAt b
      = ⟨(ch.minBankPrep queue minColAt).1, (ch.minBankPrep queue minColAt).2⟩ := by
  unfold bankStatus
  split
  · rfl
  · rcases h with h | h
    · contradiction
    · exact h

/-! ## First ready, first come first served -/

/-- Which flags of `reorderQueue` go with the best class so far. -/
def Scan.Agrees (hidden : Bool) (st : Scan) : Option ℕ → Prop
  | none => st.foundHiddenBank = false ∧ st.foundPreppedPkt = false ∧ st.foundEarliestPkt = false
  | some 1 => hidden = true ∧ st.foundHiddenBank = true ∧ st.foundEarliestPkt = true
  | some 2 => st.foundHiddenBank = false ∧ st.foundPreppedPkt = true ∧
      (hidden = true → st.foundEarliestPkt = false)
  | some 3 => hidden = false ∧ st.foundHiddenBank = false ∧ st.foundPreppedPkt = false ∧
      st.foundEarliestPkt = true
  | _ => False

/-- The pass of `reorderQueue` is where the general search is. -/
structure Scan.InStep (ch : Channel g) (queue : List (DRAMPacket g)) (minColAt : Tick) (st : Scan)
    (best : Option (ℕ × ℕ)) : Prop where
  banks : ch.BanksOK queue minColAt st.toBanks
  flags : st.Agrees (ch.minBankPrep queue minColAt).2 (best.map Prod.fst)
  selected : st.selected = best.map Prod.snd

theorem visit_agrees {st : Scan} (p : DRAMPacket g) (h : st.InStep ch queue minColAt best) :
    match ch.visit queue minColAt i st p with
    | .done st' => improve best (ch.readyClass queue minColAt p) i = some (0, i) ∧
        st'.selected = some i
    | .yield st' =>
      st'.InStep ch queue minColAt (improve best (ch.readyClass queue minColAt p) i) := by
  obtain ⟨hb, hf, hs⟩ := h
  have hst := hb.bankStatus_eq
  unfold visit readyClass toEarliestBank
  cases hav : ch.available p with
  | false => exact ⟨hb, hf, hs⟩
  | true =>
    cases hrow : ch.rowHit p with
    | true =>
      cases hseam : ch.seamless minColAt p with
      | true =>
        refine ⟨?_, rfl⟩
        rcases best with _ | ⟨_ | k, i₀⟩
        · rfl
        · exact hf.elim
        · simp [improve]
      | false =>
        rcases st with ⟨b, H, P, E, sel⟩
        rcases best with _ | ⟨_ | _ | _ | _ | k, i₀⟩ <;> cases H <;> cases P <;>
          simp_all [Scan.Agrees, improve] <;> constructor <;> simp_all [Scan.Agrees]
    | false =>
      rcases st with ⟨b, H, P, E, sel⟩
      cases hbit : (ch.minBankPrep queue minColAt).1.getLsbD p.bankId <;>
        cases hhid : (ch.minBankPrep queue minColAt).2 <;>
        rcases best with _ | ⟨_ | _ | _ | _ | k, i₀⟩ <;> cases E <;> cases P <;>
        simp_all [Scan.Agrees, improve] <;> constructor <;> simp_all [Scan.Agrees, BanksOK]

/-- The pass of `reorderQueue` finds the first packet of the best class. -/
theorem scan_eq {rest : List (DRAMPacket g)} {st : Scan} (h : st.InStep ch queue minColAt best) :
    ch.scan queue minColAt i st rest
      = (bestFrom (ch.readyClass queue minColAt) i best rest).map Prod.snd := by
  induction rest generalizing i st best with
  | nil => exact h.selected
  | cons p rest ih =>
    have hv := visit_agrees (i := i) p h
    rw [scan, bestFrom]
    cases hst : ch.visit queue minColAt i st p with
    | done st' =>
      rw [hst] at hv
      rw [hv.1, bestFrom_zero]
      exact hv.2
    | yield st' =>
      rw [hst] at hv
      exact ih hv

theorem reorderQueue_eq (ch : Channel g) (queue : List (DRAMPacket g)) (extraColDelay : Tick) :
    ch.reorderQueue queue extraColDelay
      = moveToFront queue (firstBest (ch.readyClass queue (ch.minCol extraColDelay)) queue) := by
  have hstart : Scan.InStep ch queue (ch.minCol extraColDelay)
      ⟨⟨0, false⟩, false, false, false, none⟩ none :=
    ⟨.inl rfl, ⟨rfl, rfl, rfl⟩, rfl⟩
  rw [reorderQueue, scan_eq hstart]
  rfl

/-! ## The same with priority for the CPU -/

/-- Which flags of `reorderQueueCPUPrio` go with the best class so far. -/
def PrioScan.Agrees (hidden : Bool) (st : PrioScan) : Option ℕ → Prop
  | none => st.foundSeamlessPkt = false ∧ st.foundHiddenBank = false ∧
      st.foundPreppedPkt = false ∧ st.foundPreppedCPUPkt = false ∧
      st.foundEarliestPkt = false ∧ st.foundEarliestCPUPkt = false
  | some 1 => st.foundSeamlessPkt = true
  | some 2 => st.foundSeamlessPkt = false ∧ hidden = true ∧ st.foundHiddenBank = true ∧
      st.foundEarliestCPUPkt = true
  | some 3 => st.foundSeamlessPkt = false ∧ hidden = true ∧ st.foundHiddenBank = true ∧
      st.foundEarliestPkt = true ∧ st.foundEarliestCPUPkt = false
  | some 4 => st.foundSeamlessPkt = false ∧ st.foundHiddenBank = false ∧
      st.foundPreppedPkt = true ∧ st.foundPreppedCPUPkt = true ∧
      (hidden = true → st.foundEarliestPkt = false ∧ st.foundEarliestCPUPkt = false)
  | some 5 => st.foundSeamlessPkt = false ∧ st.foundHiddenBank = false ∧
      st.foundPreppedPkt = true ∧ st.foundPreppedCPUPkt = false ∧
      (hidden = true → st.foundEarliestPkt = false ∧ st.foundEarliestCPUPkt = false)
  | some 6 => st.foundSeamlessPkt = false ∧ hidden = false ∧ st.foundHiddenBank = false ∧
      st.foundPreppedPkt = false ∧ st.foundPreppedCPUPkt = false ∧ st.foundEarliestCPUPkt = true
  | some 7 => st.foundSeamlessPkt = false ∧ hidden = false ∧ st.foundHiddenBank = false ∧
      st.foundPreppedPkt = false ∧ st.foundPreppedCPUPkt = false ∧ st.foundEarliestPkt = true ∧
      st.foundEarliestCPUPkt = false
  | _ => False

/-- The pass of `reorderQueueCPUPrio` is where the general search is. -/
structure PrioScan.InStep (ch : Channel g) (queue : List (DRAMPacket g)) (minColAt : Tick)
    (st : PrioScan) (best : Option (ℕ × ℕ)) : Prop where
  banks : ch.BanksOK queue minColAt st.toBanks
  flags : st.Agrees (ch.minBankPrep queue minColAt).2 (best.map Prod.fst)
  selected : st.selected = best.map Prod.snd

/-- A packet that cannot be taken leaves the flags as they are. -/
theorem visitCPUPrio_skip (p : DRAMPacket g)
    (h : st.InStep ch queue minColAt best) (hav : ch.available p)
    (hrow : ch.rowHit p = false) (hbit : ch.toEarliestBank queue minColAt p = false) :
    ∃ st', ch.visitCPUPrio queue minColAt i st p = .yield st' ∧
      st'.InStep ch queue minColAt best := by
  have hst := h.banks.bankStatus_eq
  have hst' : PrioScan.InStep ch queue minColAt
      { st with toBanks := ch.bankStatus queue minColAt st.toBanks } best :=
    ⟨.inr hst, h.flags, h.selected⟩
  unfold toEarliestBank at hbit
  simp only [visitCPUPrio, hav, hrow, hst, hbit, Bool.false_eq_true, if_false, if_true]
  rw [hst] at hst'
  split
  · split
    · exact ⟨_, rfl, hst'⟩
    · split <;> exact ⟨_, rfl, hst'⟩
  · exact ⟨_, rfl, h⟩

/-- A packet to an earliest bank. -/
theorem visitCPUPrio_earliest (p : DRAMPacket g)
    (h : st.InStep ch queue minColAt best) (hav : ch.available p)
    (hrow : ch.rowHit p = false) (hbit : ch.toEarliestBank queue minColAt p) :
    ∃ st', ch.visitCPUPrio queue minColAt i st p = .yield st' ∧
      st'.InStep ch queue minColAt (improve best (ch.prioClass queue minColAt p) i) := by
  obtain ⟨hb, hf, hs⟩ := h
  have hst := hb.bankStatus_eq
  unfold toEarliestBank at hbit
  rcases st with ⟨b, S, H, P, Pc, E, Ec, sel⟩
  simp only [visitCPUPrio, prioClass, readyClass, toEarliestBank, hav, hrow, hst, hbit,
    Bool.false_eq_true, if_false, if_true]
  -- the best class so far gives the flags; only with a prepped packet as the best one and no
  -- hidden preparation it is open whether an earliest packet was met
  cases hcpu : p.fromCPU <;> cases hhid : (ch.minBankPrep queue minColAt).2 <;>
    rcases best with _ | ⟨_ | _ | _ | _ | _ | _ | _ | _ | k, i₀⟩ <;>
    simp only [PrioScan.Agrees, hhid, Option.map_some, Option.map_none] at hf <;>
    simp_all [improve]
  all_goals first
    | exact ⟨by simp_all [BanksOK], by simp_all [PrioScan.Agrees], rfl⟩
    | (split <;> exact ⟨_, rfl, by simp_all [BanksOK], by simp_all [PrioScan.Agrees], rfl⟩)

/-- A row hit, other than one of the CPU without a gap on the bus. -/
theorem visitCPUPrio_rowHit (p : DRAMPacket g) (h : st.InStep ch queue minColAt best)
    (hav : ch.available p) (hrow : ch.rowHit p)
    (hno : ch.seamless minColAt p = true → p.fromCPU = false) :
    ∃ st', ch.visitCPUPrio queue minColAt i st p = .yield st' ∧
      st'.InStep ch queue minColAt (improve best (ch.prioClass queue minColAt p) i) := by
  obtain ⟨hb, hf, hs⟩ := h
  rcases st with ⟨b, S, H, P, Pc, E, Ec, sel⟩
  simp only [visitCPUPrio, prioClass, readyClass, hav, hrow, if_true]
  cases hseam : ch.seamless minColAt p <;> cases hcpu : p.fromCPU <;>
    rcases best with _ | ⟨_ | _ | _ | _ | _ | _ | _ | _ | k, i₀⟩ <;>
    simp only [PrioScan.Agrees, Option.map_some, Option.map_none] at hf <;>
    simp_all [improve]
  all_goals exact ⟨hb, by simp_all [PrioScan.Agrees], rfl⟩

theorem visitCPUPrio_agrees (p : DRAMPacket g) (h : st.InStep ch queue minColAt best) :
    match ch.visitCPUPrio queue minColAt i st p with
    | .done st' => improve best (ch.prioClass queue minColAt p) i = some (0, i) ∧
        st'.selected = some i
    | .yield st' =>
      st'.InStep ch queue minColAt (improve best (ch.prioClass queue minColAt p) i) := by
  cases hav : ch.available p with
  | false =>
    have hc : ch.prioClass queue minColAt p = none := by simp [prioClass, readyClass, hav]
    simp only [visitCPUPrio, hav, hc, Bool.false_eq_true, if_false]
    exact h
  | true =>
    cases hrow : ch.rowHit p with
    | false =>
      cases hbit : ch.toEarliestBank queue minColAt p with
      | false =>
        have hc : ch.prioClass queue minColAt p = none := by
          simp [prioClass, readyClass, hav, hrow, hbit]
        obtain ⟨st', hst', hin⟩ := visitCPUPrio_skip p h hav hrow hbit
        rw [hst', hc]
        exact hin
      | true =>
        obtain ⟨st', hst', hin⟩ := visitCPUPrio_earliest p h hav hrow hbit
        rw [hst']
        exact hin
    | true =>
      by_cases hfirst : ch.seamless minColAt p = true ∧ p.fromCPU = true
      · have hc : ch.prioClass queue minColAt p = some 0 := by
          simp [prioClass, readyClass, hav, hrow, hfirst]
        rw [visitCPUPrio, hc]
        simp only [hav, hrow, hfirst, if_true, and_true]
        rcases best with _ | ⟨_ | k, i₀⟩
        · rfl
        · exact h.flags.elim
        · simp [improve]
      · obtain ⟨st', hst', hin⟩ := visitCPUPrio_rowHit p h hav hrow (by simpa using hfirst)
        rw [hst']
        exact hin

/-- The pass of `reorderQueueCPUPrio` finds the first packet of the best class. -/
theorem scanCPUPrio_eq {rest : List (DRAMPacket g)} (h : st.InStep ch queue minColAt best) :
    ch.scanCPUPrio queue minColAt i st rest
      = (bestFrom (ch.prioClass queue minColAt) i best rest).map Prod.snd := by
  induction rest generalizing i st best with
  | nil => exact h.selected
  | cons p rest ih =>
    have hv := visitCPUPrio_agrees (i := i) p h
    rw [scanCPUPrio, bestFrom]
    cases hst : ch.visitCPUPrio queue minColAt i st p with
    | done st' =>
      rw [hst] at hv
      rw [hv.1, bestFrom_zero]
      exact hv.2
    | yield st' =>
      rw [hst] at hv
      exact ih hv

theorem reorderQueueCPUPrio_eq (ch : Channel g) (queue : List (DRAMPacket g))
    (extraColDelay : Tick) :
    ch.reorderQueueCPUPrio queue extraColDelay
      = moveToFront queue (firstBest (ch.prioClass queue (ch.minCol extraColDelay)) queue) := by
  have hstart : PrioScan.InStep ch queue (ch.minCol extraColDelay)
      ⟨⟨0, false⟩, false, false, false, false, false, false, none⟩ none :=
    ⟨.inl rfl, ⟨rfl, rfl, rfl, rfl, rfl, rfl⟩, rfl⟩
  rw [reorderQueueCPUPrio, scanCPUPrio_eq hstart]
  rfl

/-! ## Some packet is always selected -/

/-- The mask so far holds banks with a waiting packet, and it holds one unless no bank with a
waiting packet has been looked at. -/
structure PrepOK (ch : Channel g) (queue : List (DRAMPacket g)) (acc : Prep) : Prop where
  waiting : ∀ id, acc.bankMask.getLsbD id = true → ch.gotWaiting queue id = true
  nonempty : (∃ id, acc.bankMask.getLsbD id = true) ∨
    acc.foundSeamlessBank = false ∧ acc.minActAt = maxTick

theorem rawId_lt (h64 : g.ranksPerChannel * g.banksPerRank ≤ 64) (i : Fin g.ranksPerChannel)
    (j : Fin g.banksPerRank) : i * g.banksPerRank + j < 64 := by
  have hj := j.isLt
  have hle : (i + 1) * g.banksPerRank ≤ g.ranksPerChannel * g.banksPerRank :=
    Nat.mul_le_mul_right _ i.isLt
  rw [Nat.add_mul] at hle
  omega

theorem bankId_lt (h64 : g.ranksPerChannel * g.banksPerRank ≤ 64) (i : Fin g.ranksPerChannel)
    (j : Fin g.banksPerRank) : g.bankId i j < 64 :=
  lt_of_le_of_lt (Nat.mod_le _ _) (rawId_lt h64 i j)

theorem le_maxTick (t : Tick) : t ≤ maxTick := by
  show t.toNat ≤ 2 ^ 64 - 1
  have := t.toNat_lt
  omega

/-- One bank; if it has a waiting packet, the mask holds a bank from here on. -/
theorem PrepOK.prepBank {acc : Prep} (h : PrepOK ch queue acc) (minColAt : Tick)
    (ij : Fin g.ranksPerChannel × Fin g.banksPerRank) (hid : g.bankId ij.1 ij.2 < 64) :
    PrepOK ch queue (ch.prepBank queue minColAt acc ij) ∧
      (ch.gotWaiting queue (g.bankId ij.1 ij.2) = true ∨ (∃ id, acc.bankMask.getLsbD id = true) →
        ∃ id, (ch.prepBank queue minColAt acc ij).bankMask.getLsbD id = true) := by
  unfold Channel.prepBank
  dsimp only
  cases hw : ch.gotWaiting queue (g.bankId ij.1 ij.2) with
  | false => exact ⟨h, by simp⟩
  | true =>
    simp only [if_true]
    split
    · have hbit : ∀ m : BitVec 64,
          (m ||| BitVec.twoPow 64 (g.bankId ij.1 ij.2)).getLsbD (g.bankId ij.1 ij.2) = true := by
        intro m
        simp [hid]
      refine ⟨⟨fun id hm => ?_, .inl ⟨_, hbit _⟩⟩, fun _ => ⟨_, hbit _⟩⟩
      rw [BitVec.getLsbD_or, Bool.or_eq_true] at hm
      rcases hm with hm | hm
      · split at hm
        · simp at hm
        · exact h.waiting id hm
      · simp only [BitVec.getLsbD_twoPow, Bool.and_eq_true, decide_eq_true_eq] at hm
        rw [← hm.2]
        exact hw
    · -- the bank is passed over, so the mask already holds one
      rename_i hpass
      have hsome : ∃ id, acc.bankMask.getLsbD id = true := by
        rcases h.nonempty with hex | ⟨hs, ht⟩
        · exact hex
        · exact absurd (by simp [hs, ht, le_maxTick]) hpass
      exact ⟨h, fun _ => hsome⟩

theorem PrepOK.foldl {acc : Prep} (h : PrepOK ch queue acc) (minColAt : Tick)
    (h64 : g.ranksPerChannel * g.banksPerRank ≤ 64)
    (l : List (Fin g.ranksPerChannel × Fin g.banksPerRank)) :
    PrepOK ch queue (l.foldl (ch.prepBank queue minColAt) acc) ∧
      ((∃ ij ∈ l, ch.gotWaiting queue (g.bankId ij.1 ij.2) = true) ∨
          (∃ id, acc.bankMask.getLsbD id = true) →
        ∃ id, (l.foldl (ch.prepBank queue minColAt) acc).bankMask.getLsbD id = true) := by
  induction l generalizing acc with
  | nil => exact ⟨h, by simp⟩
  | cons ij l ih =>
    obtain ⟨hok, hbit⟩ := h.prepBank minColAt ij (bankId_lt h64 ij.1 ij.2)
    refine ⟨(ih hok).1, fun hex => (ih hok).2 ?_⟩
    rcases hex with ⟨ij', hmem, hw⟩ | hex
    · rcases List.mem_cons.1 hmem with rfl | hmem
      · exact .inr (hbit (.inl hw))
      · exact .inl ⟨ij', hmem, hw⟩
    · exact .inr (hbit (.inr hex))

/-- The mask holds the bank of a packet that can be served, if there is such a packet. -/
theorem minBankPrep_mask (minColAt : Tick) (h64 : g.ranksPerChannel * g.banksPerRank ≤ 64)
    (hex : ∃ p ∈ queue, ch.available p = true) :
    ∃ p ∈ queue, ch.available p = true ∧ ch.toEarliestBank queue minColAt p = true := by
  obtain ⟨p, hp, hav⟩ := hex
  have hstart : PrepOK ch queue ⟨0, maxTick, false, false⟩ :=
    ⟨fun id h => by simp at h, .inr ⟨rfl, rfl⟩⟩
  obtain ⟨hok, hbit⟩ := hstart.foldl minColAt h64 (banks g)
  have hmem : (p.rank, p.bank) ∈ banks g := by simp [banks]
  have hw : ch.gotWaiting queue (g.bankId p.rank p.bank) = true := by
    rw [gotWaiting, List.any_eq_true]
    exact ⟨p, hp, by simp [hav, DRAMPacket.bankId]⟩
  obtain ⟨id, hid⟩ := hbit (.inl ⟨_, hmem, hw⟩)
  have hwait := hok.waiting id hid
  rw [gotWaiting, List.any_eq_true] at hwait
  obtain ⟨q, hq, hqw⟩ := hwait
  rw [Bool.and_eq_true, beq_iff_eq] at hqw
  refine ⟨q, hq, hqw.1, ?_⟩
  rw [toEarliestBank, hqw.2]
  exact hid

theorem available_of_readyClass {p : DRAMPacket g} {k : ℕ}
    (h : ch.readyClass queue minColAt p = some k) : ch.available p = true := by
  unfold readyClass at h
  split at h
  · assumption
  · cases h

theorem available_of_prioClass {p : DRAMPacket g} {k : ℕ}
    (h : ch.prioClass queue minColAt p = some k) : ch.available p = true := by
  rw [prioClass, Option.map_eq_some_iff] at h
  obtain ⟨_, h, _⟩ := h
  exact available_of_readyClass h

/-- Some packet is in a class, if one can be served. -/
theorem exists_readyClass (minColAt : Tick) (h64 : g.ranksPerChannel * g.banksPerRank ≤ 64)
    (hex : ∃ p ∈ queue, ch.available p = true) :
    ∃ p ∈ queue, ∃ k, ch.readyClass queue minColAt p = some k := by
  obtain ⟨p, hp, hav, hbit⟩ := minBankPrep_mask minColAt h64 hex
  refine ⟨p, hp, ?_⟩
  simp only [readyClass, hav, hbit, if_true]
  split <;> split <;> exact ⟨_, rfl⟩

theorem exists_prioClass (minColAt : Tick) (h64 : g.ranksPerChannel * g.banksPerRank ≤ 64)
    (hex : ∃ p ∈ queue, ch.available p = true) :
    ∃ p ∈ queue, ∃ k, ch.prioClass queue minColAt p = some k := by
  obtain ⟨p, hp, k, hk⟩ := exists_readyClass minColAt h64 hex
  exact ⟨p, hp, _, by rw [prioClass, hk]; rfl⟩

/-! ## What a policy owes to the queue -/

/-- A packet was found exactly if one can be served; then one that can be served came to the
front and the others stayed in order, and otherwise the queue is as it was. -/
structure Chosen (ch : Channel g) (queue : List (DRAMPacket g))
    (r : Bool × List (DRAMPacket g)) : Prop where
  found_iff : r.1 = true ↔ ∃ p ∈ queue, ch.available p = true
  moved : r.1 = true → ∃ i p, queue[i]? = some p ∧ ch.available p = true ∧
    r.2 = p :: queue.eraseIdx i
  kept : r.1 = false → r.2 = queue

/-- The first packet of the best class, for classes of packets that can be served. -/
theorem Chosen.firstBest {cls : DRAMPacket g → Option ℕ}
    (hcls : ∀ {p k}, cls p = some k → ch.available p = true)
    (hex : (∃ p ∈ queue, ch.available p = true) → ∃ p ∈ queue, ∃ k, cls p = some k) :
    Chosen ch queue (moveToFront queue (firstBest cls queue)) := by
  cases hb : Lib.firstBest cls queue with
  | none =>
    have hnone := forall_eq_none_of_eq_none hb
    have hno : ¬∃ p ∈ queue, ch.available p = true := fun h => by
      obtain ⟨p, hp, k, hk⟩ := hex h
      rw [hnone p hp] at hk
      cases hk
    exact ⟨⟨fun h => by simp [moveToFront_none] at h, fun h => absurd h hno⟩,
      fun h => by simp [moveToFront_none] at h, fun _ => rfl⟩
  | some i =>
    obtain ⟨p, k, hp, hk, _⟩ := isFirstBest_of_eq_some hb
    rw [moveToFront_some hp]
    exact ⟨⟨fun _ => ⟨p, List.mem_of_getElem? hp, hcls hk⟩, fun _ => rfl⟩,
      fun _ => ⟨i, p, hp, hcls hk, rfl⟩, fun h => by cases h⟩

/-- The classes of `fcfs`. -/
def anyClass (ch : Channel g) (p : DRAMPacket g) : Option ℕ :=
  if ch.available p then some 0 else none

/-- The classes of `cpuPriorityfcfs`. -/
def sideClass (ch : Channel g) (p : DRAMPacket g) : Option ℕ :=
  if ch.available p then if p.fromCPU then some 0 else some 1 else none

theorem findIdx?_eq (ch : Channel g) (queue : List (DRAMPacket g)) (i : ℕ) :
    (queue.findIdx? ch.available).map (· + i) =
      (bestFrom ch.anyClass i none queue).map Prod.snd := by
  induction queue generalizing i with
  | nil => rfl
  | cons p queue ih =>
    rw [List.findIdx?_cons, bestFrom]
    cases hav : ch.available p with
    | true => simp [anyClass, hav, improve, bestFrom_zero]
    | false =>
      have := ih (i + 1)
      simp only [anyClass, hav, improve, Bool.false_eq_true, if_false] at this ⊢
      rw [← this, Option.map_map]
      congr 1
      funext j
      show j + 1 + i = j + (i + 1)
      omega

theorem scanCPUFirst_eq (ch : Channel g) (queue : List (DRAMPacket g)) (i : ℕ) (found : Option ℕ) :
    ch.scanCPUFirst i found queue
      = (bestFrom ch.sideClass i (found.map (1, ·)) queue).map Prod.snd := by
  induction queue generalizing i found with
  | nil => cases found <;> rfl
  | cons p queue ih =>
    rw [scanCPUFirst, bestFrom]
    cases hav : ch.available p with
    | false => simp [sideClass, hav, improve, ih]
    | true =>
      cases hcpu : p.fromCPU with
      | true => cases found <;> simp [sideClass, hav, hcpu, improve, bestFrom_zero]
      | false => cases found <;> simp [sideClass, hav, hcpu, improve, ih]

theorem Chosen.fcfs (ch : Channel g) (queue : List (DRAMPacket g)) :
    Chosen ch queue (moveToFront queue (queue.findIdx? ch.available)) := by
  have heq : queue.findIdx? ch.available = Lib.firstBest ch.anyClass queue := by
    rw [Lib.firstBest, ← findIdx?_eq]
    simp
  rw [heq]
  apply Chosen.firstBest
  · intro p k h
    unfold anyClass at h
    split at h
    · assumption
    · cases h
  · rintro ⟨p, hp, hav⟩
    exact ⟨p, hp, 0, by simp [anyClass, hav]⟩

theorem Chosen.cpuPriorityfcfs (ch : Channel g) (queue : List (DRAMPacket g)) :
    Chosen ch queue (moveToFront queue (ch.scanCPUFirst 0 none queue)) := by
  have heq : ch.scanCPUFirst 0 none queue = Lib.firstBest ch.sideClass queue :=
    scanCPUFirst_eq ch queue 0 none
  rw [heq]
  apply Chosen.firstBest
  · intro p k h
    unfold sideClass at h
    split at h
    · assumption
    · cases h
  · rintro ⟨p, hp, hav⟩
    refine ⟨p, hp, ?_⟩
    simp only [sideClass, hav, if_true]
    split <;> exact ⟨_, rfl⟩

theorem Chosen.reorderQueue (h64 : g.ranksPerChannel * g.banksPerRank ≤ 64) (extraColDelay : Tick) :
    Chosen ch queue (ch.reorderQueue queue extraColDelay) := by
  rw [reorderQueue_eq]
  exact Chosen.firstBest available_of_readyClass (exists_readyClass _ h64)

theorem Chosen.reorderQueueCPUPrio (h64 : g.ranksPerChannel * g.banksPerRank ≤ 64)
    (extraColDelay : Tick) : Chosen ch queue (ch.reorderQueueCPUPrio queue extraColDelay) := by
  rw [reorderQueueCPUPrio_eq]
  exact Chosen.firstBest available_of_prioClass (exists_prioClass _ h64)

/-- A single packet stays where it is. -/
theorem Chosen.single (ch : Channel g) (p : DRAMPacket g) : Chosen ch [p] (ch.available p, [p]) :=
  ⟨by simp, fun h => ⟨0, p, rfl, h, rfl⟩, fun _ => rfl⟩

/-- Every policy owes it. -/
theorem Chosen.chooseNext (ch : Channel g) (policy : MemSched) (extraColDelay : Tick)
    (hne : queue ≠ []) (h64 : g.ranksPerChannel * g.banksPerRank ≤ 64) :
    ∃ r, ch.chooseNext policy queue extraColDelay = .ok r ∧ Chosen ch queue r := by
  match queue, hne with
  | [p], _ => exact ⟨_, rfl, Chosen.single ch p⟩
  | p :: q :: rest, _ =>
    cases policy with
    | fcfs => exact ⟨_, rfl, Chosen.fcfs ch _⟩
    | cpuPriorityfcfs => exact ⟨_, rfl, Chosen.cpuPriorityfcfs ch _⟩
    | frfcfs => exact ⟨_, rfl, Chosen.reorderQueue h64 _⟩
    | cpuPriorityfrfcfs => exact ⟨_, rfl, Chosen.reorderQueueCPUPrio h64 _⟩

/-! ## The results -/

/-- `chooseNext` finds a packet exactly if the rank of some queued packet is available, under
every policy; it moves one such packet to the front and keeps the order of the others. -/
theorem chooseNext_overlooks_nothing (ch : Channel g) (policy : MemSched)
    (queue : List (DRAMPacket g)) (extraColDelay : Tick) (hne : queue ≠ [])
    (h64 : g.ranksPerChannel * g.banksPerRank ≤ 64) :
    ∃ found queue', ch.chooseNext policy queue extraColDelay = .ok (found, queue') ∧
      (found = true ↔ ∃ p ∈ queue, ch.available p = true) ∧
      (found = true → ∃ i p, queue[i]? = some p ∧ ch.available p = true ∧
        queue' = p :: queue.eraseIdx i) ∧
      (found = false → queue' = queue) := by
  obtain ⟨r, hr, hc⟩ := Chosen.chooseNext ch policy extraColDelay hne h64
  exact ⟨r.1, r.2, hr, hc.found_iff, hc.moved, hc.kept⟩

/-- One rank of two banks, both with row 5 open and ready for a column command. -/
def idlePair : Channel ⟨1, 2⟩ :=
  { tCL := 10, tRCD := 10, tRP := 10, curTick := 100, busBusyUntil := 100
    ranks := fun _ => ⟨true, fun _ => ⟨5, 0, 0, 0⟩⟩ }

/-- A row hit of the GPU, a row conflict of the CPU and a row hit of the CPU. -/
def mixedQueue : List (DRAMPacket ⟨1, 2⟩) :=
  [⟨⟨0, Nat.one_pos⟩, ⟨0, Nat.two_pos⟩, 5, 31⟩, ⟨⟨0, Nat.one_pos⟩, ⟨1, Nat.one_lt_two⟩, 6, 0⟩,
    ⟨⟨0, Nat.one_pos⟩, ⟨1, Nat.one_lt_two⟩, 5, 0⟩]

theorem idlePair_overlooks_nothing : mixedQueue ≠ [] ∧ 1 * 2 ≤ 64 ∧
    ∃ found queue', idlePair.chooseNext .cpuPriorityfrfcfs mixedQueue 0 = .ok (found, queue') ∧
      (found = true ↔ ∃ p ∈ mixedQueue, idlePair.available p = true) ∧
      (found = true → ∃ i p, mixedQueue[i]? = some p ∧ idlePair.available p = true ∧
        queue' = p :: mixedQueue.eraseIdx i) ∧
      (found = false → queue' = mixedQueue) := by
  have hne : mixedQueue ≠ [] := by simp [mixedQueue]
  exact ⟨hne, by decide,
    chooseNext_overlooks_nothing idlePair .cpuPriorityfrfcfs mixedQueue 0 hne (by decide)⟩

/-- `reorderQueueCPUPrio` takes, among the packets whose rank is available, the first one of the
best class; it finds none exactly if no rank is available, and does not touch the queue then. -/
theorem reorderQueueCPUPrio_selects (ch : Channel g) (queue : List (DRAMPacket g))
    (extraColDelay : Tick) (h64 : g.ranksPerChannel * g.banksPerRank ≤ 64) :
    ((ch.reorderQueueCPUPrio queue extraColDelay).1 = false ↔ ∀ p ∈ queue, ch.available p = false) ∧
      ((ch.reorderQueueCPUPrio queue extraColDelay).1 = false →
        (ch.reorderQueueCPUPrio queue extraColDelay).2 = queue) ∧
      ((ch.reorderQueueCPUPrio queue extraColDelay).1 = true → ∃ i p k, queue[i]? = some p ∧
          ch.prioClass queue (ch.minCol extraColDelay) p = some k ∧
          (∀ j q k', queue[j]? = some q →
            ch.prioClass queue (ch.minCol extraColDelay) q = some k' → k < k' ∨ k = k' ∧ i ≤ j) ∧
          (ch.reorderQueueCPUPrio queue extraColDelay).2 = p :: queue.eraseIdx i) := by
  have hc : Chosen ch queue (ch.reorderQueueCPUPrio queue extraColDelay) :=
    Chosen.reorderQueueCPUPrio h64 extraColDelay
  refine ⟨?_, hc.kept, fun hfound => ?_⟩
  · rw [← Bool.not_eq_true, hc.found_iff]
    simp
  · rw [reorderQueueCPUPrio_eq] at hfound ⊢
    cases hb : firstBest (ch.prioClass queue (ch.minCol extraColDelay)) queue with
    | none =>
      rw [hb, moveToFront_none] at hfound
      cases hfound
    | some i =>
      obtain ⟨p, k, hp, hk, hmin⟩ := isFirstBest_of_eq_some hb
      rw [moveToFront_some hp]
      exact ⟨i, p, k, hp, hk, hmin, rfl⟩

/-- The row hit of the CPU is taken, although the GPU's came first. -/
theorem idlePair_selects : 1 * 2 ≤ 64 ∧ (idlePair.reorderQueueCPUPrio mixedQueue 0).1 = true ∧
      ∃ i p k, mixedQueue[i]? = some p ∧
        idlePair.prioClass mixedQueue (idlePair.minCol 0) p = some k ∧
        (∀ j q k', mixedQueue[j]? = some q →
          idlePair.prioClass mixedQueue (idlePair.minCol 0) q = some k' → k < k' ∨ k = k' ∧ i ≤ j) ∧
        (idlePair.reorderQueueCPUPrio mixedQueue 0).2 = p :: mixedQueue.eraseIdx i := by
  have hfound : (idlePair.reorderQueueCPUPrio mixedQueue 0).1 = true := by decide +kernel
  exact ⟨by decide, hfound,
    (reorderQueueCPUPrio_selects idlePair mixedQueue 0 (by decide)).2.2 hfound⟩

/-- On the traffic of one side alone the priority for the CPU changes nothing. -/
theorem reorderQueueCPUPrio_eq_reorderQueue (ch : Channel g) (queue : List (DRAMPacket g))
    (extraColDelay : Tick)
    (hside : (∀ p ∈ queue, p.contextId ≠ 31) ∨ (∀ p ∈ queue, p.contextId = 31)) :
    ch.reorderQueueCPUPrio queue extraColDelay = ch.reorderQueue queue extraColDelay := by
  rw [reorderQueueCPUPrio_eq, reorderQueue_eq]
  congr 1
  rcases hside with hcpu | hgpu
  · refine firstBest_relabel (f := fun k => 2 * k) (fun a b h => by dsimp only; omega) ?_
    intro p hp
    simp [prioClass, DRAMPacket.fromCPU, hcpu p hp]
  · refine firstBest_relabel (f := fun k => 2 * k + 1) (fun a b h => by dsimp only; omega) ?_
    intro p hp
    simp [prioClass, DRAMPacket.fromCPU, hgpu p hp]

theorem idlePair_oneSided : (∀ p ∈ mixedQueue.drop 1, p.contextId ≠ 31) ∧
      idlePair.reorderQueueCPUPrio (mixedQueue.drop 1) 0
        = idlePair.reorderQueue (mixedQueue.drop 1) 0 := by
  have hcpu : ∀ p ∈ mixedQueue.drop 1, p.contextId ≠ 31 := by simp [mixedQueue]
  exact ⟨hcpu, reorderQueueCPUPrio_eq_reorderQueue idlePair (mixedQueue.drop 1) 0 (.inl hcpu)⟩

end Gem5Gpu.DRAM.Channel
