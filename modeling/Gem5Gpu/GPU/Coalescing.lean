import Mathlib.Data.List.SplitBy
import Gem5Gpu.GPU.WarpInstBuffer
import Gem5Gpu.Lib.Groups

/-!
# What coalescing covers

Every lane with a packet is in one of the accesses of its instruction
(`accesses_cover`), and an access of a load holds the bytes of its lanes
(`lane_inRange`): the segment of a lane may be reduced to a half or a quarter, but
the 32-byte chunk of the lane stays in it.
-/

namespace Gem5Gpu.GPU.LSQ.WarpInstBuffer

open Lib

variable {b : WarpInstBuffer} {laneCount lane : ℕ} {pkt : LanePkt}

theorem mem_active : lane ∈ b.active laneCount ↔
    lane < laneCount ∧ (b.laneRequestPkts lane).isSome := by
  simp [active]

theorem mem_lanePkts : (lane, pkt) ∈ b.lanePkts laneCount ↔
    lane < laneCount ∧ b.laneRequestPkts lane = some pkt := by
  simp only [lanePkts, List.mem_filterMap, List.mem_range, Option.map_eq_some_iff, Prod.mk.injEq]
  constructor
  · rintro ⟨_, hlt, _, hpkt, rfl, rfl⟩
    exact ⟨hlt, hpkt⟩
  · rintro ⟨hlt, hpkt⟩
    exact ⟨lane, hlt, pkt, hpkt, rfl, rfl⟩

/-- A packet for an empty lane is one more packet. -/
theorem lanePkts_setLane (pkt : LanePkt) (hlane : lane < laneCount)
    (hnone : b.laneRequestPkts lane = none) :
    ((b.setLane lane (some pkt)).lanePkts laneCount).Perm
      (b.lanePkts laneCount ++ [(lane, pkt)]) := by
  have hother (n : ℕ) (hn : n ≤ lane) : (b.setLane lane (some pkt)).lanePkts n = b.lanePkts n := by
    refine List.filterMap_congr fun l hl => ?_
    have hne : l ≠ lane := by
      have := List.mem_range.1 hl
      omega
    simp only [setLane, Function.update_of_ne hne]
  have hsucc (B : WarpInstBuffer) (n : ℕ) : B.lanePkts (n + 1)
      = B.lanePkts n ++ ((B.laneRequestPkts n).map (n, ·)).toList := by
    rw [lanePkts, List.range_succ, List.filterMap_append]
    rfl
  induction laneCount with
  | zero => omega
  | succ n ih =>
    rw [hsucc, hsucc]
    by_cases hn : lane = n
    · subst hn
      rw [hother lane le_rfl, hnone]
      simp [setLane]
    · have hne : n ≠ lane := fun h => hn h.symm
      have hsame : (b.setLane lane (some pkt)).laneRequestPkts n = b.laneRequestPkts n := by
        simp only [setLane, Function.update_of_ne hne]
      rw [hsame]
      refine ((ih (by omega)).append_right _).trans ?_
      rw [List.append_assoc, List.append_assoc]
      exact List.perm_append_comm.append_left _

/-! ## Segments -/

theorem segmentSize_cases (n : ℕ) :
    segmentSize n = 32 ∨ segmentSize n = 64 ∨ segmentSize n = 128 := by
  unfold segmentSize
  split <;> simp

/-- A reduced segment still has the chunk of each address that it was built for,
and it consists of chunks. -/
theorem reduce_covers {segment : ℕ} (addr : ℕ) {q : ℕ → Bool}
    (hseg : segment = 32 ∨ segment = 64 ∨ segment = 128) (hq : q (addr % 128 / 32)) :
    (reduce segment (addr / segment * segment) q).1 ≤ addr ∧
      addr / 32 * 32 + 32 ≤ (reduce segment (addr / segment * segment) q).1 +
        (reduce segment (addr / segment * segment) q).2 ∧
      (reduce segment (addr / segment * segment) q).1 % 32 = 0 := by
  have hchunk : addr % 128 / 32 = 0 ∨ addr % 128 / 32 = 1 ∨ addr % 128 / 32 = 2 ∨
      addr % 128 / 32 = 3 := by omega
  rcases hseg with rfl | rfl | rfl
  · simp only [reduce, show ¬(32 = 128) by decide, show ¬(32 = 64) by decide, if_false]
    omega
  · rcases hchunk with hk | hk | hk | hk <;> rw [hk] at hq <;>
      simp only [reduce, hq] <;> split_ifs <;> simp_all <;> omega
  · rcases hchunk with hk | hk | hk | hk <;> rw [hk] at hq <;>
      simp only [reduce, hq] <;> split_ifs <;> simp_all <;> omega

/-- A reduced segment is a block of 32, 64 or 128 bytes. -/
theorem reduce_aligned {segment block : ℕ} {q : ℕ → Bool}
    (hseg : segment = 32 ∨ segment = 64 ∨ segment = 128) (hblock : segment ∣ block) :
    ((reduce segment block q).2 = 32 ∨ (reduce segment block q).2 = 64 ∨
      (reduce segment block q).2 = 128) ∧
    (reduce segment block q).2 ∣ (reduce segment block q).1 := by
  rcases hseg with rfl | rfl | rfl
  · exact ⟨.inl rfl, hblock⟩
  · simp only [reduce, show ¬(64 = 128) by decide, if_false]
    split_ifs <;> dsimp only <;> omega
  · simp only [reduce]
    split_ifs <;> dsimp only <;> omega

/-! ## Pieces -/

/-- The lanes of the pieces, in their order. -/
def lanesOf (pieces : List Piece) : List ℕ := pieces.flatMap (·.lanes)

/-- The runs of a store have its words in the order of their offsets. -/
theorem lanesOf_storePieces (size addr : ℕ) (words : List (ℕ × ℕ)) :
    lanesOf (storePieces size addr words) = words.map Prod.snd := by
  rw [lanesOf, storePieces, List.flatMap_map]
  dsimp only
  rw [List.flatMap_def, ← List.map_flatten, List.flatten_splitBy]

theorem le_foldl_max {l : List ℕ} {n m : ℕ} (h : n ∈ l ∨ n ≤ m) : n ≤ l.foldl max m := by
  induction l generalizing m with
  | nil => exact h.resolve_left (by simp)
  | cons x l ih =>
    refine ih ?_
    rcases h with h | h
    · rcases List.mem_cons.1 h with rfl | h
      · exact .inr (le_max_right _ _)
      · exact .inl h
    · exact .inr (h.trans (le_max_left _ _))

/-- The packets of an atomic deal out each subblock in order. -/
theorem filter_atomicPieces {addr size k : ℕ} {subblock : ℕ → List ℕ} {p : ℕ → Bool}
    (hk : k < size / 32) (hp : ∀ j < size / 32, j ≠ k → ∀ x ∈ subblock j, p x = false) :
    (lanesOf (atomicPieces addr size subblock)).filter p = (subblock k).filter p := by
  have hmost : (subblock k).length ≤
      ((List.range (size / 32)).map fun k => (subblock k).length).foldl max 0 :=
    le_foldl_max (.inl (List.mem_map.2 ⟨k, List.mem_range.2 hk, rfl⟩))
  simp only [lanesOf, atomicPieces, List.flatMap_map, List.filter_flatMap]
  have hpacket (n : ℕ) : ((List.range (size / 32)).flatMap fun k =>
      ((subblock k).drop (3 * n)).take 3).filter p =
      (((subblock k).drop (3 * n)).take 3).filter p :=
    filter_flatMap_single List.nodup_range (List.mem_range.2 hk) fun j hj hne x hx =>
      hp j (List.mem_range.1 hj) hne x (List.mem_of_mem_drop (List.mem_of_mem_take hx))
  simp only [← List.filter_flatMap, hpacket]
  rw [flatMap_take_drop (by omega)]

/-- The pieces of a segment have its lanes, and keep the order of the lanes with one
address. -/
theorem filter_segmentPieces {segment : ℕ} (lanes : List ℕ)
    (hseg : segment = 32 ∨ segment = 64 ∨ segment = 128) (h : lane ∈ lanes) :
    (lanesOf (b.segmentPieces segment (b.getLaneAddr lane / segment * segment) lanes)).filter
      (b.getLaneAddr · == b.getLaneAddr lane) = lanes.filter
      (b.getLaneAddr · == b.getLaneAddr lane) := by
  have hcovers := reduce_covers (b.getLaneAddr lane)
    (q := fun c => lanes.any fun l => b.getLaneAddr l % 128 / 32 == c) hseg
    (List.any_eq_true.2 ⟨lane, h, by simp⟩)
  unfold segmentPieces
  dsimp only
  generalize reduce segment (b.getLaneAddr lane / segment * segment) _ = r at hcovers
  obtain ⟨addr, size⟩ := r
  dsimp only at hcovers ⊢
  unfold cut
  split
  · rw [lanesOf_storePieces, List.filter_map, filter_insertionSort, List.filter_map, List.map_map]
    · exact List.map_id _
    · simp only [List.mem_map, Function.comp_apply, beq_iff_eq]
      rintro _ ⟨x, -, rfl⟩ _ ⟨y, -, rfl⟩ hx hy
      rw [hx, hy]
  · rw [filter_atomicPieces (k := (b.getLaneAddr lane - addr) / 32) (by omega), List.filter_filter]
    · refine List.filter_congr fun x _ => ?_
      by_cases hx : b.getLaneAddr x = b.getLaneAddr lane
      · simp [hx]
      · simp [hx]
    · intro j _ hne x hx
      have hj := beq_iff_eq.1 (List.mem_filter.1 hx).2
      exact beq_eq_false_iff_ne.2 fun heq => hne (by rw [← hj, heq])
  · simp [lanesOf]

theorem mem_segmentPieces {segment addr : ℕ} {lanes : List ℕ}
    (h : lane ∈ lanesOf (b.segmentPieces segment addr lanes)) : lane ∈ lanes := by
  unfold segmentPieces cut at h
  dsimp only at h
  split at h
  · rw [lanesOf_storePieces] at h
    obtain ⟨w, hw, rfl⟩ := List.mem_map.1 h
    obtain ⟨x, hx, rfl⟩ := List.mem_map.1 ((List.mem_insertionSort _).1 hw)
    exact hx
  · simp only [lanesOf, atomicPieces, List.flatMap_map, List.mem_flatMap] at h
    obtain ⟨_, -, _, -, hx⟩ := h
    exact List.mem_of_mem_filter (List.mem_of_mem_drop (List.mem_of_mem_take hx))
  · simpa [lanesOf] using h

/-- The pieces of a subwarp have its lanes, and keep the order of the lanes with one
address. -/
theorem filter_coalesceLanes (lanes : List ℕ) (w : ℕ) :
    (lanesOf (b.coalesceLanes lanes)).filter (b.getLaneAddr · == w) =
      lanes.filter (b.getLaneAddr · == w) := by
  have hmem {a x : ℕ} (hx : x ∈ lanesOf (b.segmentPieces (segmentSize b.requestDataSize) a
      (lanes.filter fun lane => b.getLaneAddr lane / segmentSize b.requestDataSize *
        segmentSize b.requestDataSize == a))) :
      x ∈ lanes ∧ b.getLaneAddr x / segmentSize b.requestDataSize *
        segmentSize b.requestDataSize = a := by
    obtain ⟨hx, ha⟩ := List.mem_filter.1 (mem_segmentPieces hx)
    exact ⟨hx, beq_iff_eq.1 ha⟩
  have hflat : lanesOf (b.coalesceLanes lanes) = _ := List.flatMap_assoc
  rw [hflat]
  by_cases hw : ∃ lane ∈ lanes, b.getLaneAddr lane = w
  · obtain ⟨lane, hlane, rfl⟩ := hw
    rw [filter_flatMap_single (k := b.getLaneAddr lane / segmentSize b.requestDataSize *
      segmentSize b.requestDataSize)]
    · refine (filter_segmentPieces _ (segmentSize_cases _)
        (List.mem_filter.2 ⟨hlane, by simp⟩)).trans ?_
      rw [List.filter_filter]
      refine List.filter_congr fun x _ => ?_
      by_cases hx : b.getLaneAddr x = b.getLaneAddr lane
      · simp [hx]
      · simp [hx]
    · exact (List.perm_insertionSort _ _).nodup_iff.2 (List.nodup_dedup _)
    · exact (List.mem_insertionSort _).2 (List.mem_dedup.2 (List.mem_map.2 ⟨lane, hlane, rfl⟩))
    · intro a _ hne x hx
      exact beq_eq_false_iff_ne.2 fun heq => hne (by rw [← (hmem hx).2, heq])
  · rw [List.filter_eq_nil_iff.2 fun x hx heq => hw ⟨x, hx, beq_iff_eq.1 heq⟩]
    refine List.filter_eq_nil_iff.2 fun x hx heq => ?_
    obtain ⟨a, -, hx⟩ := List.mem_flatMap.1 hx
    exact hw ⟨x, (hmem hx).1, beq_iff_eq.1 heq⟩

/-- Every lane with a packet is in a piece. -/
theorem coalesce_covers (h : lane ∈ b.active laneCount) :
    ∃ piece ∈ b.coalesce laneCount, lane ∈ piece.lanes :=
  List.mem_flatMap.1 ((perm_of_filter_key (filter_coalesceLanes (b.active laneCount))).mem_iff.2 h)

/-- A piece is cut from an aligned block with the chunks of its lanes. -/
theorem exists_block {lanes : List ℕ} {p : Piece} (hp : p ∈ b.coalesceLanes lanes) :
    ∃ addr size block, (size = 32 ∨ size = 64 ∨ size = 128) ∧ size ∣ addr ∧
      (∀ lane ∈ block, addr ≤ b.getLaneAddr lane ∧
        b.getLaneAddr lane / 32 * 32 + 32 ≤ addr + size) ∧ p ∈ b.cut addr size block := by
  obtain ⟨a, ha, hp⟩ := List.mem_flatMap.1 hp
  obtain ⟨y, -, rfl⟩ := List.mem_map.1 (List.mem_dedup.1 ((List.mem_insertionSort _).1 ha))
  rw [segmentPieces] at hp
  generalize hl : lanes.filter _ = block at hp
  obtain ⟨hcases, hdvd⟩ := reduce_aligned (segmentSize_cases _) (Nat.dvd_mul_left ..)
  refine ⟨_, _, _, hcases, hdvd, fun lane hlane => ?_, hp⟩
  have hcovers := reduce_covers (b.getLaneAddr lane)
    (q := fun c => block.any (b.getLaneAddr · % 128 / 32 == c))
    (segmentSize_cases b.requestDataSize) (List.any_eq_true.2 ⟨lane, hlane, beq_self_eq_true _⟩)
  rw [← hl] at hlane
  have hsame := beq_iff_eq.1 (List.mem_filter.1 hlane).2
  dsimp only at hsame
  rw [hsame] at hcovers
  exact ⟨hcovers.1, hcovers.2.1⟩

/-! ## Subwarps -/

/-- The lanes with a packet of one of the subwarps of 32 lanes. -/
def subwarp (warpParts : ℕ) (b : WarpInstBuffer) (s : ℕ) : List ℕ :=
  (List.range' (s * (32 / warpParts)) (32 / warpParts)).filter fun lane =>
    (b.laneRequestPkts lane).isSome

/-- `coalesce` for any number of subwarps. -/
def coalesceParts (warpParts : ℕ) (b : WarpInstBuffer) : List Piece :=
  (List.range warpParts).flatMap fun s => b.coalesceLanes (b.subwarp warpParts s)

theorem flatMap_subwarp {warpParts : ℕ} (h : warpParts ∣ 32) :
    (List.range warpParts).flatMap (b.subwarp warpParts) = b.active 32 := by
  have hrange (n k : ℕ) : (List.range n).flatMap (fun s => List.range' (s * k) k) =
      List.range (n * k) := by
    induction n with
    | zero => simp
    | succ n ih =>
      rw [List.range_succ, List.flatMap_append, ih, List.flatMap_singleton, Nat.succ_mul,
        List.range_add, List.range'_eq_map_range]
  have hlanes := hrange warpParts (32 / warpParts)
  rw [Nat.mul_div_cancel' h] at hlanes
  rw [active, ← hlanes, List.filter_flatMap]
  rfl

/-- The pieces have all lanes, and keep the order of the lanes with one address. -/
theorem filter_coalesceParts {warpParts : ℕ} (h : warpParts ∣ 32) (w : ℕ) :
    (lanesOf (b.coalesceParts warpParts)).filter (b.getLaneAddr · == w) =
      (b.active 32).filter (b.getLaneAddr · == w) := by
  have hflat : lanesOf (b.coalesceParts warpParts) =
      (List.range warpParts).flatMap fun s => lanesOf (b.coalesceLanes (b.subwarp warpParts s)) :=
    List.flatMap_assoc
  simp only [hflat, List.filter_flatMap, filter_coalesceLanes]
  rw [← List.filter_flatMap, flatMap_subwarp h]

/-- Every lane with a packet is in one piece. -/
theorem lanesOf_coalesceParts {warpParts : ℕ} (h : warpParts ∣ 32) :
    (lanesOf (b.coalesceParts warpParts)).Perm (b.active 32) :=
  perm_of_filter_key (filter_coalesceParts h)

/-! ## Accesses -/

variable {inst buf : ℕ} {paddr : ℕ → ℕ}

/-- Every lane with a packet is in an access. -/
theorem accesses_cover (h : (lane, pkt) ∈ b.lanePkts laneCount) :
    ∃ a ∈ b.accesses laneCount inst buf paddr, lane ∈ a.activeLanes := by
  obtain ⟨hlt, hpkt⟩ := mem_lanePkts.1 h
  obtain ⟨piece, hpiece, hlane⟩ := coalesce_covers (b := b) (mem_active.2 ⟨hlt, by rw [hpkt]; rfl⟩)
  obtain ⟨idx, hidx, rfl⟩ := List.mem_iff_getElem.1 hpiece
  exact ⟨_, List.mem_mapIdx.2 ⟨idx, hidx, rfl⟩, hlane⟩

/-- The access of a load has the bytes of its lanes, if the address of the lane is
a multiple of its size. -/
theorem lane_inRange {a : Access} (htype : b.type = .load)
    (ha : a ∈ b.accesses laneCount inst buf paddr) (hlane : lane ∈ a.activeLanes)
    (h : (lane, pkt) ∈ b.lanePkts laneCount) :
    a.vaddr ≤ pkt.vaddr ∧ (pkt.size ∣ 32 → pkt.size ∣ pkt.vaddr →
      pkt.vaddr + pkt.size ≤ a.vaddr + a.size) := by
  obtain ⟨idx, hidx, rfl⟩ := List.mem_mapIdx.1 ha
  have hpiece : _ ∈ b.coalesceLanes (b.active laneCount) := List.getElem_mem hidx
  obtain ⟨addr, size, block, -, -, hblock, hcut⟩ := exists_block hpiece
  rw [cut, htype] at hcut
  rw [List.mem_singleton.1 hcut] at hlane ⊢
  obtain ⟨hle, hsize⟩ := hblock lane hlane
  have haddr : b.getLaneAddr lane = pkt.vaddr := by
    rw [getLaneAddr, (mem_lanePkts.1 h).2]
  rw [haddr] at hle hsize
  refine ⟨hle, fun ⟨k, hk⟩ ⟨m, hm⟩ => le_trans ?_ hsize⟩
  -- the lane is one of the `k` words of its chunk
  rw [hm]
  have hpos : 0 < pkt.size := Nat.pos_of_ne_zero fun h0 => by rw [h0] at hk; omega
  have hkpos : 0 < k := Nat.pos_of_ne_zero fun h0 => by rw [h0] at hk; omega
  rw [hk, Nat.mul_div_mul_left _ _ hpos]
  have hlt : m + 1 ≤ k * (m / k) + k := by
    have := Nat.div_add_mod m k
    have := Nat.mod_lt m hkpos
    omega
  calc pkt.size * m + pkt.size = pkt.size * (m + 1) := (Nat.mul_succ _ _).symm
    _ ≤ pkt.size * (k * (m / k) + k) := Nat.mul_le_mul_left _ hlt
    _ = m / k * (pkt.size * k) + pkt.size * k := by
      rw [Nat.mul_add, ← Nat.mul_assoc, Nat.mul_comm (pkt.size * k)]

end Gem5Gpu.GPU.LSQ.WarpInstBuffer
