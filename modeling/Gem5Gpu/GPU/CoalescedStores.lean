import Gem5Gpu.GPU.CoalescedLoads

/-!
# Coalesced stores

The accesses of a store are the runs of its words.  Every lane is in one of them, the
lanes of a run supply all of its bytes, and the accesses change the memory as the
lanes would one by one, in their order (`stores_are_coalesced`).  Lanes with one
address are in one run and keep their order, so the last one wins.
-/

namespace Gem5Gpu.GPU.LSQ.WarpInstBuffer

open Lib

variable {b : WarpInstBuffer} {lane size : ℕ}

/-- `memcpy` to an offset of a buffer. -/
def memcpy (data : List Byte) (off : ℕ) (buf : ℕ → Byte) : ℕ → Byte := fun i =>
  if off ≤ i ∧ i < off + data.length then data.getD (i - off) 0 else buf i

def getLaneData (b : WarpInstBuffer) (lane : ℕ) : List Byte :=
  (b.laneRequestPkts lane).elim [] (·.data)

/-- The data of a store access, in a fresh buffer with contents `heap`. -/
def storeData (b : WarpInstBuffer) (heap : ℕ → Byte) (p : Piece) : ℕ → Byte :=
  p.lanes.foldl (fun buf lane => memcpy (b.getLaneData lane) (b.getLaneAddr lane - p.addr) buf) heap

/-- A store access writes its data to the memory. -/
def performStore (b : WarpInstBuffer) (heap : Piece → ℕ → Byte) (mem : ℕ → Byte) (p : Piece) :
    ℕ → Byte := fun x =>
  if p.addr ≤ x ∧ x < p.addr + p.size then b.storeData (heap p) p (x - p.addr) else mem x

/-- The store of one lane. -/
def storeLane (b : WarpInstBuffer) (mem : ℕ → Byte) (lane : ℕ) : ℕ → Byte :=
  memcpy (b.getLaneData lane) (b.getLaneAddr lane) mem

/-- A lane stores to a byte. -/
def stores (b : WarpInstBuffer) (lane x : ℕ) : Bool :=
  decide (b.getLaneAddr lane ≤ x ∧ x < b.getLaneAddr lane + (b.getLaneData lane).length)

theorem storeLane_local : Local b.stores
    (fun lane x _ => (b.getLaneData lane).getD (x - b.getLaneAddr lane) 0) b.storeLane where
  apply mem lane x := by simp only [storeLane, memcpy, stores, decide_eq_true_eq]

/-! ## Runs -/

/-- A run of words has the bytes of its words and no others. -/
theorem run_bytes (hsize : 0 < size) (x : ℕ) : ∀ (u : ℕ × ℕ) (run : List (ℕ × ℕ)),
    (u :: run).IsChain (fun u v => (v.1 == u.1 + size || v.1 == u.1) = true) →
    ((u.1 ≤ x ∧ x < u.1 + (size + (((u :: run).zip run).filter fun uv =>
      uv.2.1 == uv.1.1 + size).length * size)) ↔
      ∃ v ∈ u :: run, v.1 ≤ x ∧ x < v.1 + size)
  | u, [], _ => by simp
  | u, v :: run, h => by
    obtain ⟨hv, hrun⟩ := List.isChain_cons_cons.1 h
    have ih := run_bytes hsize x v run hrun
    rw [List.zip_cons_cons, List.filter_cons]
    simp only [Bool.or_eq_true, beq_iff_eq] at hv
    rw [List.exists_mem_cons_iff, ← ih]
    rcases hv with hv | hv
    · simp only [hv, beq_self_eq_true, if_true, List.length_cons, Nat.succ_mul]
      omega
    · have hne : ¬u.1 = u.1 + size := by omega
      simp only [hv, beq_iff_eq, hne, if_false]
      omega

theorem storePieces_bytes {addr : ℕ} {words : List (ℕ × ℕ)} {p : Piece} (hsize : 0 < size)
    (hp : p ∈ storePieces size addr words) :
    ∃ run : List (ℕ × ℕ), run ≠ [] ∧ p.lanes = run.map Prod.snd ∧ (∀ w ∈ run, w ∈ words) ∧
      ∀ x, (p.addr ≤ x ∧ x < p.addr + p.size) ↔
        ∃ w ∈ run, addr + w.1 ≤ x ∧ x < addr + w.1 + size := by
  obtain ⟨run, hrun, rfl⟩ := List.mem_map.1 hp
  refine ⟨run, List.ne_nil_of_mem_splitBy hrun, rfl, fun w hw => ?_, fun x => ?_⟩
  · rw [← List.flatten_splitBy (fun u v : ℕ × ℕ => v.1 == u.1 + size || v.1 == u.1) words]
    exact List.mem_flatten.2 ⟨run, hrun, hw⟩
  · obtain ⟨u, run, rfl⟩ := List.exists_cons_of_ne_nil (List.ne_nil_of_mem_splitBy hrun)
    have hbytes := run_bytes hsize (x - addr) u run (List.isChain_of_mem_splitBy hrun)
    have hshift (n k : ℕ) : (addr + n ≤ x ∧ x < addr + n + k) ↔
        addr ≤ x ∧ n ≤ x - addr ∧ x - addr < n + k := by omega
    simp only [hshift, List.head?_cons, Option.map_some, Option.getD_some, List.tail_cons, hbytes]
    constructor
    · rintro ⟨hx, w, hw, h⟩
      exact ⟨w, hw, hx, h⟩
    · rintro ⟨w, hw, hx, h⟩
      exact ⟨hx, w, hw, h⟩

/-- The access of a run is in a line and has the bytes of its lanes and no others. -/
theorem store_piece (htype : b.type = .store) (hsize : b.requestDataSize ∈ [1, 2, 4, 8, 16])
    {warpParts : ℕ} {p : Piece} (hp : p ∈ b.coalesceParts warpParts)
    (halign : ∀ lane ∈ p.lanes, b.requestDataSize ∣ b.getLaneAddr lane) :
    (p.addr + p.size - 1) / 128 = p.addr / 128 ∧ ∀ x, (p.addr ≤ x ∧ x < p.addr + p.size) ↔
        ∃ lane ∈ p.lanes, b.getLaneAddr lane ≤ x ∧ x < b.getLaneAddr lane + b.requestDataSize := by
  obtain ⟨s, -, hp⟩ := List.mem_flatMap.1 hp
  obtain ⟨addr, size, lanes, hal, hdvd, hin, hp⟩ := exists_block hp
  rw [cut, htype] at hp
  have hpos : 0 < b.requestDataSize ∧ ∀ lane ∈ p.lanes, lane ∈ lanes → addr ≤ b.getLaneAddr lane ∧
      b.getLaneAddr lane + b.requestDataSize ≤ addr + size := by
    simp only [List.mem_cons, List.not_mem_nil, or_false] at hsize
    refine ⟨by omega, fun lane h hlane => ?_⟩
    have hword := halign lane h
    obtain ⟨hle, hend⟩ := hin lane hlane
    rcases hsize with h | h | h | h | h <;> rw [h] at hword ⊢ <;> omega
  obtain ⟨run, hne, hlanes, hwords, hbytes⟩ := storePieces_bytes hpos.1 hp
  have hword : ∀ w ∈ run, w.2 ∈ lanes ∧ addr + w.1 = b.getLaneAddr w.2 := by
    intro w hw
    obtain ⟨lane, hlane, rfl⟩ := List.mem_map.1 ((List.mem_insertionSort _).1 (hwords w hw))
    obtain ⟨hle, hend⟩ := hin lane hlane
    refine ⟨hlane, ?_⟩
    rcases hal with rfl | rfl | rfl <;> dsimp only <;> omega
  have hrange (x : ℕ) : (p.addr ≤ x ∧ x < p.addr + p.size) ↔ ∃ lane ∈ p.lanes,
      b.getLaneAddr lane ≤ x ∧ x < b.getLaneAddr lane + b.requestDataSize := by
    rw [hbytes, hlanes]
    constructor
    · rintro ⟨w, hw, hx⟩
      exact ⟨w.2, List.mem_map_of_mem hw, (hword w hw).2 ▸ hx⟩
    · rintro ⟨lane, hlane, hx⟩
      obtain ⟨w, hw, rfl⟩ := List.mem_map.1 hlane
      exact ⟨w, hw, (hword w hw).2 ▸ hx⟩
  refine ⟨?_, hrange⟩
  have hinside (x : ℕ) (hx : p.addr ≤ x ∧ x < p.addr + p.size) : addr ≤ x ∧ x < addr + size := by
    obtain ⟨lane, hlane, hx⟩ := (hrange x).1 hx
    obtain ⟨w, hw, rfl⟩ := List.mem_map.1 (hlanes ▸ hlane)
    have := hpos.2 w.2 hlane (hword w hw).1
    omega
  obtain ⟨w, hw⟩ := List.exists_mem_of_ne_nil run hne
  have hsome := (hbytes (addr + w.1)).2 ⟨w, hw, by omega⟩
  have hfirst := hinside p.addr (by omega)
  have hlast := hinside (p.addr + p.size - 1) (by omega)
  rcases hal with rfl | rfl | rfl <;> omega

/-! ## Effects -/

/-- An access has the effect of its lanes. -/
theorem performStore_eq {heap : Piece → ℕ → Byte} {mem : ℕ → Byte} {p : Piece}
    (hbytes : ∀ x, (p.addr ≤ x ∧ x < p.addr + p.size) ↔ ∃ lane ∈ p.lanes, b.stores lane x = true)
    (haddr : ∀ lane ∈ p.lanes, p.addr ≤ b.getLaneAddr lane) :
    b.performStore heap mem p = p.lanes.foldl b.storeLane mem := by
  have hshift (lanes : List ℕ) (hlanes : ∀ lane ∈ lanes, p.addr ≤ b.getLaneAddr lane)
      (buf m : ℕ → Byte) (hbuf : ∀ x, p.addr ≤ x → buf (x - p.addr) = m x) {x : ℕ}
      (hx : p.addr ≤ x) : lanes.foldl (fun buf lane =>
        memcpy (b.getLaneData lane) (b.getLaneAddr lane - p.addr) buf) buf (x - p.addr) =
      lanes.foldl b.storeLane m x := by
    induction lanes generalizing buf m with
    | nil => exact hbuf x hx
    | cons lane lanes ih =>
      refine ih (fun l hl => hlanes l (List.mem_cons_of_mem _ hl)) _ _ fun y hy => ?_
      have hle := hlanes lane List.mem_cons_self
      simp only [memcpy, storeLane, hbuf y hy, show y - p.addr - (b.getLaneAddr lane - p.addr) =
        y - b.getLaneAddr lane by omega]
      exact if_congr (by omega) rfl rfl
  funext x
  unfold performStore
  split
  · rename_i hx
    obtain ⟨lane, hlane, hstores⟩ := (hbytes x).1 hx
    rw [storeData, hshift _ haddr _ (fun x => heap p (x - p.addr)) (fun y _ => rfl) hx.1,
      storeLane_local.foldl, storeLane_local.foldl]
    -- the lanes supply the byte, whatever the buffer had
    have hmem : lane ∈ p.lanes.filter (b.stores · x) := List.mem_filter.2 ⟨hlane, hstores⟩
    obtain ⟨l, ls, hls⟩ := List.exists_cons_of_ne_nil (List.ne_nil_of_mem hmem)
    rw [hls]
    rfl
  · rename_i hx
    rw [storeLane_local.foldl, List.filter_eq_nil_iff.2 fun lane hlane hstores =>
      hx ((hbytes x).2 ⟨lane, hlane, hstores⟩)]
    rfl

/-- A store of lanes with aligned addresses: every lane is in one access, the accesses
stay in their lines and have no bytes but those of their lanes, and together they do to
the memory what the lanes do one by one. -/
theorem stores_are_coalesced {warpParts : ℕ} (htype : b.type = .store) (hparts : warpParts ∣ 32)
    (hsize : b.requestDataSize ∈ [1, 2, 4, 8, 16])
    (hpkts : ∀ lane, ∀ pkt ∈ b.laneRequestPkts lane,
      pkt.data.length = b.requestDataSize ∧ b.requestDataSize ∣ pkt.vaddr) :
    (lanesOf (b.coalesceParts warpParts)).Perm (b.active 32) ∧
    (∀ p ∈ b.coalesceParts warpParts, (p.addr + p.size - 1) / 128 = p.addr / 128 ∧
      ∀ x, p.addr ≤ x → x < p.addr + p.size → ∃ lane ∈ p.lanes, b.stores lane x = true) ∧
    ∀ heap mem, (b.coalesceParts warpParts).foldl (b.performStore heap) mem =
      (b.active 32).foldl b.storeLane mem := by
  have hperm := lanesOf_coalesceParts (b := b) hparts
  have hlane {lane : ℕ} (h : lane ∈ b.active 32) : (b.getLaneData lane).length = b.requestDataSize ∧
        b.requestDataSize ∣ b.getLaneAddr lane := by
    obtain ⟨pkt, hpkt⟩ := Option.isSome_iff_exists.1 (mem_active.1 h).2
    rw [getLaneData, getLaneAddr, hpkt]
    exact hpkts lane pkt hpkt
  have hactive {p : Piece} (hp : p ∈ b.coalesceParts warpParts) {lane : ℕ}
      (h : lane ∈ p.lanes) : lane ∈ b.active 32 :=
    hperm.mem_iff.1 (List.mem_flatMap.2 ⟨p, hp, h⟩)
  have hpiece {p : Piece} (hp : p ∈ b.coalesceParts warpParts) :
      (p.addr + p.size - 1) / 128 = p.addr / 128 ∧ ∀ x, (p.addr ≤ x ∧ x < p.addr + p.size) ↔
        ∃ lane ∈ p.lanes, b.stores lane x = true := by
    obtain ⟨hline, hbytes⟩ := store_piece htype hsize hp fun lane h => (hlane (hactive hp h)).2
    refine ⟨hline, fun x => (hbytes x).trans (exists_congr fun lane => and_congr_right fun h => ?_)⟩
    rw [stores, (hlane (hactive hp h)).1, decide_eq_true_eq]
  have hpos : 0 < b.requestDataSize := by
    rcases Nat.eq_zero_or_pos b.requestDataSize with h | h
    · simp [h] at hsize
    · exact h
  refine ⟨hperm, fun p hp => ⟨(hpiece hp).1, fun x h₁ h₂ => ((hpiece hp).2 x).1 ⟨h₁, h₂⟩⟩,
    fun heap mem => ?_⟩
  have hfold (ps : List Piece) (hps : ∀ p ∈ ps, p ∈ b.coalesceParts warpParts) (m : ℕ → Byte) :
      ps.foldl (b.performStore heap) m = (lanesOf ps).foldl b.storeLane m := by
    induction ps generalizing m with
    | nil => rfl
    | cons p ps ih =>
      have hp := hps p List.mem_cons_self
      rw [List.foldl_cons, ih fun q hq => hps q (List.mem_cons_of_mem _ hq),
        performStore_eq (hpiece hp).2, ← List.foldl_append]
      · rfl
      · intro lane h
        refine (((hpiece hp).2 _).2 ⟨lane, h, ?_⟩).1
        rw [stores, (hlane (hactive hp h)).1, decide_eq_true_eq]
        omega
  rw [hfold _ (fun p hp => hp)]
  refine storeLane_local.foldl_eq (fun x => ?_) mem
  -- words of one size are the same or disjoint
  have hword {lane : ℕ} (h : lane ∈ b.active 32) : b.stores lane x =
      (b.getLaneAddr lane == x / b.requestDataSize * b.requestDataSize) := by
    obtain ⟨hlen, k, hk⟩ := hlane h
    rw [stores, hlen, hk, Bool.eq_iff_iff, decide_eq_true_eq, beq_iff_eq]
    constructor
    · rintro ⟨h₁, h₂⟩
      rw [Nat.div_eq_of_lt_le (k := k) (by rwa [Nat.mul_comm])
        (by rwa [Nat.succ_mul, Nat.mul_comm]), Nat.mul_comm]
    · intro heq
      rw [heq]
      exact ⟨Nat.div_mul_le_self .., Nat.lt_div_mul_add hpos⟩
  rw [List.filter_congr fun lane h => hword (hperm.mem_iff.1 h), filter_coalesceParts hparts,
    List.filter_congr fun lane h => hword h]

/-- Two lanes store to one word, and a third one to the next. -/
def threeStores : WarpInstBuffer := { empty with
  type := .store
  requestDataSize := 2
  laneRequestPkts := fun lane =>
    if lane < 3 then some ⟨lane, .store, 0, 4 + lane / 2 * 2, 2, List.replicate 2 (.ofNat 8 lane)⟩
    else none }

theorem threeStores_are_coalesced : (threeStores.coalesceParts 1).map (·.lanes) = [[0, 1, 2]] ∧
    (threeStores.coalesceParts 1).foldl (threeStores.performStore fun _ _ => 0) (fun _ => 0) =
      (threeStores.active 32).foldl threeStores.storeLane fun _ => 0 := by
  refine ⟨by decide, (stores_are_coalesced rfl (by decide) (by decide) fun lane pkt hpkt => ?_).2.2
    _ _⟩
  simp only [threeStores, Option.mem_def] at hpkt ⊢
  split at hpkt
  · cases hpkt
    exact ⟨rfl, by dsimp only; omega⟩
  · cases hpkt

end Gem5Gpu.GPU.LSQ.WarpInstBuffer
