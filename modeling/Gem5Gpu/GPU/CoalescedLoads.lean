import Gem5Gpu.GPU.LaneRuns

/-!
# Coalesced loads

The accesses of a load have all of its lanes, each in one access; an access is an
aligned block of 32, 64 or 128 bytes with the bytes of its lanes.  When they have all
been answered, in whatever order, every lane has the bytes at its own address
(`loads_are_coalesced`).
-/

namespace Gem5Gpu.GPU.LSQ.WarpInstBuffer

open Lib

variable {b : WarpInstBuffer} {lane : ℕ}

variable (mem : ℕ → Byte)

/-- The bytes of the memory from an address on. -/
def readMem (addr size : ℕ) : List Byte :=
  (List.range size).map fun i => mem (addr + i)

theorem take_drop_readMem {addr size off n : ℕ} (h : off + n ≤ size) :
    ((readMem mem addr size).drop off).take n = readMem mem (addr + off) n := by
  refine List.ext_getElem ?_ fun i h₁ h₂ => ?_
  · simp only [readMem, List.length_take, List.length_drop, List.length_map, List.length_range]
    omega
  · simp [readMem, Nat.add_assoc]

/-- The pieces of a load are aligned blocks that have the bytes of their lanes. -/
theorem load_piece (htype : b.type = .load) (hsize : b.requestDataSize ∈ [1, 2, 4, 8, 16])
    {warpParts : ℕ} {p : Piece} (hp : p ∈ b.coalesceParts warpParts) :
    ((p.size = 32 ∨ p.size = 64 ∨ p.size = 128) ∧ p.size ∣ p.addr) ∧
      ∀ lane ∈ p.lanes, b.requestDataSize ∣ b.getLaneAddr lane → p.addr ≤ b.getLaneAddr lane ∧
        b.getLaneAddr lane + b.requestDataSize ≤ p.addr + p.size := by
  obtain ⟨s, -, hp⟩ := List.mem_flatMap.1 hp
  obtain ⟨addr, size, block, hcases, hdvd, hblock, hcut⟩ := exists_block hp
  rw [cut, htype] at hcut
  obtain rfl := List.mem_singleton.1 hcut
  refine ⟨⟨hcases, hdvd⟩, fun lane hlane halign => ?_⟩
  obtain ⟨hle, hend⟩ := hblock lane hlane
  refine ⟨hle, ?_⟩
  dsimp only
  simp only [List.mem_cons, List.not_mem_nil, or_false] at hsize
  rcases hsize with h | h | h | h | h <;> rw [h] at halign ⊢ <;> omega

/-- The accesses of the pieces. -/
def accessesParts (warpParts inst buf : ℕ) (paddr : ℕ → ℕ) (b : WarpInstBuffer) : List Access :=
  b.accessesOf (b.coalesceParts warpParts) inst buf paddr

/-- `finishAccess` with the bytes of the memory. -/
def finishFrom (b : WarpInstBuffer) (a : Access) : WarpInstBuffer :=
  (b.finishAccess a (readMem mem a.vaddr a.size)).1

def LanePkt.filled (pkt : LanePkt) : LanePkt :=
  { pkt with data := readMem mem pkt.vaddr pkt.size }

/-- A lane has its bytes once one of its accesses was answered. -/
theorem foldl_finishFrom {order : List Access} (htype : b.type = .load)
    (hfits : ∀ a ∈ order, lane ∈ a.activeLanes → ∀ pkt ∈ b.laneRequestPkts lane,
      a.vaddr ≤ pkt.vaddr ∧ pkt.vaddr + pkt.size ≤ a.vaddr + a.size) :
    (order.foldl (finishFrom mem) b).laneRequestPkts lane =
      if ∃ a ∈ order, lane ∈ a.activeLanes then (b.laneRequestPkts lane).map (LanePkt.filled mem)
      else b.laneRequestPkts lane := by
  induction order generalizing b with
  | nil => simp
  | cons a order ih =>
    obtain ⟨htype', hpkts⟩ := finishAccess_pkts b a (readMem mem a.vaddr a.size) lane
    have hfirst : (finishFrom mem b a).laneRequestPkts lane = if lane ∈ a.activeLanes then
        (b.laneRequestPkts lane).map (LanePkt.filled mem) else b.laneRequestPkts lane := by
      refine hpkts.trans ?_
      split
      · rename_i ha
        rw [htype, Ledger.answerLane]
        refine Option.map_congr fun pkt hpkt => ?_
        obtain ⟨hle, hend⟩ := hfits a List.mem_cons_self ha pkt hpkt
        rw [LanePkt.fill, LanePkt.filled, take_drop_readMem mem (by omega), Nat.add_sub_cancel' hle]
      · rfl
    have hsame : ∀ pkt' ∈ (finishFrom mem b a).laneRequestPkts lane,
        ∃ pkt ∈ b.laneRequestPkts lane, pkt'.vaddr = pkt.vaddr ∧ pkt'.size = pkt.size := by
      intro pkt' hpkt'
      rw [hfirst] at hpkt'
      split at hpkt'
      · obtain ⟨pkt, hpkt, rfl⟩ := Option.mem_map.1 hpkt'
        exact ⟨pkt, hpkt, rfl, rfl⟩
      · exact ⟨pkt', hpkt', rfl, rfl⟩
    rw [List.foldl_cons, ih (b := finishFrom mem b a) (htype'.trans htype)
      fun a' ha' hlane pkt' hpkt' => ?_, hfirst]
    · by_cases ha : lane ∈ a.activeLanes
      · have hex : ∃ x ∈ a :: order, lane ∈ x.activeLanes := ⟨a, List.mem_cons_self, ha⟩
        rw [if_pos ha, if_pos hex, Option.map_map]
        exact ite_self _
      · simp [ha]
    · obtain ⟨pkt, hpkt, hv, hs⟩ := hsame pkt' hpkt'
      rw [hv, hs]
      exact hfits a' (List.mem_cons_of_mem _ ha') hlane pkt hpkt

/-- A load of lanes with aligned addresses: every lane is in one access, the accesses
are aligned blocks with the bytes of their lanes, and in the end every lane has the
bytes at its address. -/
theorem loads_are_coalesced {warpParts : ℕ} (htype : b.type = .load) (hparts : warpParts ∣ 32)
    (hsize : b.requestDataSize ∈ [1, 2, 4, 8, 16])
    (hpkts : ∀ lane, ∀ pkt ∈ b.laneRequestPkts lane,
      pkt.size = b.requestDataSize ∧ b.requestDataSize ∣ pkt.vaddr) :
    (lanesOf (b.coalesceParts warpParts)).Perm (b.active 32) ∧
    (∀ p ∈ b.coalesceParts warpParts, (p.size = 32 ∨ p.size = 64 ∨ p.size = 128) ∧
      p.size ∣ p.addr ∧ (p.addr + p.size - 1) / 128 = p.addr / 128 ∧
      ∀ lane ∈ p.lanes, p.addr ≤ b.getLaneAddr lane ∧
        b.getLaneAddr lane + b.requestDataSize ≤ p.addr + p.size) ∧
    ∀ mem inst buf paddr (order : List Access),
      order.Perm (b.accessesParts warpParts inst buf paddr) →
      ∀ lane ∈ b.active 32, (order.foldl (finishFrom mem) b).laneRequestPkts lane =
        (b.laneRequestPkts lane).map (LanePkt.filled mem) := by
  have hperm := lanesOf_coalesceParts (b := b) hparts
  have haddr {lane : ℕ} {pkt : LanePkt} (h : pkt ∈ b.laneRequestPkts lane) :
      b.getLaneAddr lane = pkt.vaddr := by
    rw [getLaneAddr, Option.mem_def.1 h]
  have hfits {p : Piece} (hp : p ∈ b.coalesceParts warpParts) {lane : ℕ} (hlane : lane ∈ p.lanes) :
      p.addr ≤ b.getLaneAddr lane ∧ b.getLaneAddr lane + b.requestDataSize ≤ p.addr + p.size := by
    have hactive := hperm.mem_iff.1 (List.mem_flatMap.2 ⟨p, hp, hlane⟩)
    obtain ⟨pkt, hpkt⟩ := Option.isSome_iff_exists.1 (mem_active.1 hactive).2
    exact (load_piece htype hsize hp).2 lane hlane (haddr hpkt ▸ (hpkts lane pkt hpkt).2)
  refine ⟨hperm, fun p hp => ?_, fun mem inst buf paddr order horder lane hlane => ?_⟩
  · obtain ⟨⟨hcases, hdvd⟩, -⟩ := load_piece htype hsize hp
    refine ⟨hcases, hdvd, ?_, fun lane hlane => hfits hp hlane⟩
    rcases hcases with h | h | h <;> rw [h] at hdvd ⊢ <;> omega
  · rw [foldl_finishFrom mem htype, if_pos]
    · obtain ⟨p, hp, hmem⟩ := List.mem_flatMap.1 (hperm.mem_iff.2 hlane)
      obtain ⟨idx, hidx, rfl⟩ := List.mem_iff_getElem.1 hp
      exact ⟨_, horder.mem_iff.2 (List.mem_mapIdx.2 ⟨idx, hidx, rfl⟩), hmem⟩
    · intro a ha hmem pkt hpkt
      obtain ⟨idx, hidx, rfl⟩ := List.mem_mapIdx.1 (horder.mem_iff.1 ha)
      have h := hfits (List.getElem_mem hidx) hmem
      rwa [haddr hpkt, ← (hpkts lane pkt hpkt).1] at h

/-- Two lanes load from two lines. -/
def twoLines : WarpInstBuffer := { empty with
  requestDataSize := 4
  laneRequestPkts := fun lane =>
    if lane < 2 then some ⟨lane, .load, 0, 132 * lane + 4, 4, []⟩ else none }

/-- The accesses are answered in the other order, from a memory with other bytes at every
address. -/
theorem twoLines_are_coalesced : (twoLines.coalesceParts 2).map (fun p => (p.addr, p.size)) =
      [(0, 32), (128, 32)] ∧
    (((twoLines.accessesParts 2 0 0 id).reverse.foldl (finishFrom fun a => BitVec.ofNat 8 a)
        twoLines).laneRequestPkts 1).map (·.data) = some [136, 137, 138, 139] := by
  have hpkts : ∀ lane, ∀ pkt ∈ twoLines.laneRequestPkts lane,
      pkt.size = twoLines.requestDataSize ∧ twoLines.requestDataSize ∣ pkt.vaddr := by
    intro lane pkt hpkt
    simp only [twoLines, Option.mem_def] at hpkt ⊢
    split at hpkt
    · cases hpkt
      exact ⟨rfl, by dsimp only; omega⟩
    · cases hpkt
  refine ⟨by decide, (congrArg (Option.map _) ((loads_are_coalesced rfl (by decide) (by decide)
    hpkts).2.2 _ 0 0 id _ (List.reverse_perm _) 1 (by decide))).trans (by decide)⟩

end Gem5Gpu.GPU.LSQ.WarpInstBuffer
