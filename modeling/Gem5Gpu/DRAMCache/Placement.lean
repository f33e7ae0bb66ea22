import Gem5Gpu.DRAMCache.Outcomes
import Gem5Gpu.DRAMCache.Step

/-!
# Where a block is placed

A block has a set and a tag in the tag store and two bursts in the DRAM.  This module is
about the arithmetic of both.

`getSetTagFromAddr` and `regenerateBlkAddr` are inverse exactly on the addresses whose block
number fits into 32 bits (`Config.Fits`), which is what an `unsigned int` holds.

A row of the DRAM holds 15 sets of two bursts each and two bursts more, which are not used.
`decodeAddr` finds the rank, the bank and the row of a burst.  Rank and bank are of type
`uint8_t`, so the rows of the DRAM are told apart exactly when no rank has more than 256 banks
and no channel more than 256 ranks.
-/

namespace Gem5Gpu.DRAMCache

open Mem Lib

/-! ## Set and tag -/

namespace Config

variable {c : Config} {a b : ℕ}

theorem Fits.blockOf_eq (h : c.Fits a) : c.blockOf a = a / c.blockSize :=
  Nat.mod_eq_of_lt ((Nat.div_lt_iff_lt_mul c.blockSize_pos).2 h.1)

theorem Fits.regenerateBlkAddr (h : c.Fits a) :
    c.regenerateBlkAddr (c.setOf a) (c.tagOf a) = c.blockAlign a := by
  obtain ⟨hrange, hset, htag⟩ := h.block
  rw [← hset, ← htag]
  exact hrange.regenerateBlkAddr

/-- The block number is cut to 32 bits, and the address is not the same then. -/
theorem regenerateBlkAddr_eq_iff (ha : a < 2 ^ 64) :
    c.regenerateBlkAddr (c.setOf a) (c.tagOf a) = c.blockAlign a ↔ c.Fits a := by
  refine ⟨fun h => ⟨?_, ha⟩, Fits.regenerateBlkAddr⟩
  have hle : c.blockOf a * c.blockSize < 2 ^ 64 :=
    (Nat.mul_le_mul_right _ (Nat.mod_le _ _)).trans_lt ((Nat.div_mul_le_self a _).trans_lt ha)
  rw [regenerateBlkAddr_eq, Nat.mod_eq_of_lt hle, blockAlign_eq ha,
    Nat.mul_left_inj c.blockSize_pos.ne'] at h
  refine (Nat.div_lt_iff_lt_mul c.blockSize_pos).1 ?_
  rw [← h]
  exact Nat.mod_lt _ (by decide)

/-- Set and tag determine the block number. -/
theorem blockOf_eq_of_setTag (h : c.getSetTagFromAddr a = c.getSetTagFromAddr b) :
    c.blockOf a = c.blockOf b := by
  have hset : c.blockOf a % c.numSets = c.blockOf b % c.numSets := congrArg Prod.fst h
  have htag : c.blockOf a / c.numSets = c.blockOf b / c.numSets := congrArg Prod.snd h
  rw [← Nat.div_add_mod (c.blockOf a) c.numSets, hset, htag, Nat.div_add_mod]

/-- Of the addresses that fit, those with the same set and tag are in the same block. -/
theorem Fits.getSetTagFromAddr_eq_iff (ha : c.Fits a) (hb : c.Fits b) :
    c.getSetTagFromAddr a = c.getSetTagFromAddr b ↔ a / c.blockSize = b / c.blockSize := by
  constructor
  · intro h
    rw [← ha.blockOf_eq, ← hb.blockOf_eq]
    exact blockOf_eq_of_setTag h
  · intro h
    simp only [getSetTagFromAddr, h]

/-- An address that does not fit has the set and the tag of another block, which does. -/
theorem exists_same_setTag (ha : a < 2 ^ 64) (h : ¬c.Fits a) : ∃ b, c.Fits b ∧
    c.getSetTagFromAddr a = c.getSetTagFromAddr b ∧ a / c.blockSize ≠ b / c.blockSize := by
  have hdiv : c.blockOf a * c.blockSize / c.blockSize = c.blockOf a :=
    Nat.mul_div_cancel _ c.blockSize_pos
  have hlt : c.blockOf a < 2 ^ 32 := Nat.mod_lt _ (by decide)
  have hle : c.blockOf a * c.blockSize ≤ a :=
    (Nat.mul_le_mul_right _ (Nat.mod_le _ _)).trans (Nat.div_mul_le_self a _)
  refine ⟨c.blockOf a * c.blockSize,
    ⟨Nat.mul_lt_mul_of_pos_right hlt c.blockSize_pos, hle.trans_lt ha⟩, ?_, fun heq => h ⟨?_, ha⟩⟩
  · simp only [getSetTagFromAddr, hdiv]
    simp only [blockOf, Nat.mod_mod]
  · rw [hdiv] at heq
    exact (Nat.div_lt_iff_lt_mul c.blockSize_pos).1 (heq ▸ hlt)

end Config

/-- What a set gives back at the next eviction is made of the set and the tag that were filled. -/
theorem Tags.victim_install {c : Config} {a b : ℕ} (t : Tags) (ctx evictAddr : ℕ)
    (hset : c.setOf b = c.setOf a) : (t.install c a ctx evictAddr).victim c b =
      c.regenerateBlkAddr (c.setOf a) (c.tagOf a) := by
  have htag : ((t.install c a ctx evictAddr).sets (c.setOf a)).tag = c.tagOf a := by
    unfold Tags.install
    dsimp only
    split <;>
      simp [Tags.setSet, Tags.setOwner, Tags.removeFromBypassTag, Tags.insertIntoBypassTag]
  rw [Tags.victim, hset, htag]

/-- Set and tag lose nothing exactly for the addresses whose block number fits into 32 bits: only
these are led back to their block, are told apart from the other blocks that fit, and are evicted
as the block that was filled. -/
theorem setTag_lossless (c : Config) (a : ℕ) (ha : a < 2 ^ 64) :
    (c.regenerateBlkAddr (c.getSetTagFromAddr a).1 (c.getSetTagFromAddr a).2 = c.blockAlign a ↔
        c.Fits a) ∧
      ((∀ b, c.Fits b → (c.getSetTagFromAddr a = c.getSetTagFromAddr b ↔
        a / c.blockSize = b / c.blockSize)) ↔ c.Fits a) ∧
      ∀ (t : Tags) (ctx evictAddr b : ℕ), c.setOf b = c.setOf a →
        ((t.install c a ctx evictAddr).victim c b = c.blockAlign a ↔ c.Fits a) := by
  refine ⟨Config.regenerateBlkAddr_eq_iff ha, ⟨fun h => ?_, fun h b hb =>
    h.getSetTagFromAddr_eq_iff hb⟩, fun t ctx evictAddr b hset => ?_⟩
  · by_contra hno
    obtain ⟨b, hb, hsame, hne⟩ := Config.exists_same_setTag ha hno
    exact hne ((h b hb).1 hsame)
  · rw [t.victim_install ctx evictAddr hset]
    exact Config.regenerateBlkAddr_eq_iff ha

theorem setTag_lossless_blockFive : Scenario.config.Fits 700 ∧ Scenario.config.Fits 128 ∧
      Scenario.config.regenerateBlkAddr (Scenario.config.getSetTagFromAddr 700).1
        (Scenario.config.getSetTagFromAddr 700).2 = 640 ∧
      Scenario.config.getSetTagFromAddr 700 ≠ Scenario.config.getSetTagFromAddr 128 ∧
      (({} : Tags).install Scenario.config 700 gpuContextId 0).victim Scenario.config 128 =
        640 := by
  have ha : Scenario.config.Fits 700 := by decide
  have hb : Scenario.config.Fits 128 := by decide
  have halign : Scenario.config.blockAlign 700 = 640 := by decide
  obtain ⟨hback, hapart, hevict⟩ := setTag_lossless Scenario.config 700 (by decide)
  rw [halign] at hback
  simp only [halign] at hevict
  refine ⟨ha, hb, hback.2 ha, fun heq => ?_, (hevict {} gpuContextId 0 128 (by decide)).2 ha⟩
  exact absurd ((hapart.2 ha 128 hb).1 heq) (by decide)

/-- The block number of the address `2 ^ 39` is `2 ^ 32`: set and tag are those of address 0, to
which they lead back, and filling it makes the set evict block 0. -/
theorem setTag_loses_high_block :
    Scenario.config.getSetTagFromAddr (2 ^ 39) = Scenario.config.getSetTagFromAddr 0 ∧
      Scenario.config.regenerateBlkAddr (Scenario.config.getSetTagFromAddr (2 ^ 39)).1
        (Scenario.config.getSetTagFromAddr (2 ^ 39)).2 = 0 ∧
      Scenario.config.blockAlign (2 ^ 39) = 2 ^ 39 ∧
      (({} : Tags).install Scenario.config (2 ^ 39) gpuContextId 0).victim Scenario.config 0 =
        0 := by
  decide +kernel

/-! ## Rank, bank and row -/

/-- The geometry of the DRAM, in the types of the source: counts of 32 bits. -/
structure Geometry where
  banksPerRank : ℕ
  ranksPerChannel : ℕ
  rowsPerBank : ℕ
  columnsPerRowBuffer : ℕ := 32
  columnsPerStripe : ℕ := 1
  channels : ℕ := 1
  banks_pos : 0 < banksPerRank := by decide
  ranks_pos : 0 < ranksPerChannel := by decide
  rows_pos : 0 < rowsPerBank := by decide
  rows_lt : rowsPerBank < 2 ^ 32 := by decide

inductive AddrMapping
  | roCoRaBaCh
  | roRaBaCoCh
  deriving DecidableEq, Repr

/-- The coordinates that `decodeAddr` gives to a burst. -/
structure Coordinates where
  rank : ℕ
  bank : ℕ
  row : ℕ
  deriving DecidableEq, Repr

namespace Geometry

variable (g : Geometry)

def totalRows : ℕ := g.rowsPerBank * g.banksPerRank * g.ranksPerChannel

/-- `decodeAddr` of `dramcache_ctrl.cc`, up to its assertions.  The rank and the bank are of
type `uint8_t`. -/
def decode (mapping : AddrMapping) (dramPktAddr : ℕ) : Coordinates :=
  let addr := dramPktAddr / g.columnsPerStripe / g.channels
  match mapping with
  | .roCoRaBaCh =>
    let bank := addr % g.banksPerRank
    let addr := addr / g.banksPerRank
    let rank := addr % g.ranksPerChannel
    let addr := addr / g.ranksPerChannel
    let addr := addr / (g.columnsPerRowBuffer / g.columnsPerStripe)
    ⟨rank % 2 ^ 8, bank % 2 ^ 8, addr % g.rowsPerBank⟩
  | .roRaBaCoCh =>
    let addr := addr / (g.columnsPerRowBuffer / g.columnsPerStripe)
    let bank := addr % g.banksPerRank
    let addr := addr / g.banksPerRank
    let rank := addr % g.ranksPerChannel
    let addr := addr / g.ranksPerChannel
    ⟨rank % 2 ^ 8, bank % 2 ^ 8, addr % g.rowsPerBank⟩

/-- The assertions of `decodeAddr`; `NO_ROW` is the largest number of 32 bits. -/
def InBounds (p : Coordinates) : Prop :=
  p.rank < g.ranksPerChannel ∧ p.bank < g.banksPerRank ∧ p.row < g.rowsPerBank ∧ p.row < 2 ^ 32 - 1

theorem decode_inBounds (mapping : AddrMapping) (addr : ℕ) :
    g.InBounds (g.decode mapping addr) := by
  have hmod : ∀ n m : ℕ, 0 < m → n % m % 2 ^ 8 < m := fun n m hm =>
    lt_of_le_of_lt (Nat.mod_le _ _) (Nat.mod_lt n hm)
  have hrow : ∀ n, n % g.rowsPerBank < 2 ^ 32 - 1 := fun n => by
    have := Nat.mod_lt n g.rows_pos
    have := g.rows_lt
    omega
  cases mapping
  · exact ⟨hmod _ _ g.ranks_pos, hmod _ _ g.banks_pos, Nat.mod_lt _ g.rows_pos, hrow _⟩
  · exact ⟨hmod _ _ g.ranks_pos, hmod _ _ g.banks_pos, Nat.mod_lt _ g.rows_pos, hrow _⟩

/-- The channel of an Alloy cache. -/
structure Alloy : Prop where
  columns : g.columnsPerRowBuffer = 32
  stripe : g.columnsPerStripe = 1
  channel : g.channels = 1

/-- The numbers of ranks and banks fit into their type. -/
def FitsBytes : Prop := g.banksPerRank ≤ 256 ∧ g.ranksPerChannel ≤ 256

variable {g}

/-- The row of the channel with number `n`. -/
theorem Alloy.decode_eq (h : g.Alloy) (addr : ℕ) : g.decode .roRaBaCoCh addr =
      ⟨addr / 32 / g.banksPerRank % g.ranksPerChannel % 2 ^ 8, addr / 32 % g.banksPerRank % 2 ^ 8,
        addr / 32 / g.banksPerRank / g.ranksPerChannel % g.rowsPerBank⟩ := by
  simp only [decode, h.columns, h.stripe, h.channel, Nat.div_one]

/-- The coordinates tell the rows of the channel apart. -/
theorem Alloy.decode_inj (h : g.Alloy) (hfit : g.FitsBytes) {addr addr' : ℕ}
    (ha : addr / 32 < g.totalRows) (ha' : addr' / 32 < g.totalRows) :
    g.decode .roRaBaCoCh addr = g.decode .roRaBaCoCh addr' ↔ addr / 32 = addr' / 32 := by
  have hrank : ∀ n, n % g.ranksPerChannel < 2 ^ 8 := fun n =>
    lt_of_lt_of_le (Nat.mod_lt n g.ranks_pos) hfit.2
  have hbank : ∀ n, n % g.banksPerRank < 2 ^ 8 := fun n =>
    lt_of_lt_of_le (Nat.mod_lt n g.banks_pos) hfit.1
  have hrow : ∀ n, n < g.totalRows → n / g.banksPerRank / g.ranksPerChannel < g.rowsPerBank := by
    intro n hn
    rw [Nat.div_div_eq_div_mul, Nat.div_lt_iff_lt_mul (Nat.mul_pos g.banks_pos g.ranks_pos),
      ← Nat.mul_assoc]
    exact hn
  simp only [h.decode_eq, Nat.mod_eq_of_lt (hrank _), Nat.mod_eq_of_lt (hbank _),
    Nat.mod_eq_of_lt (hrow _ ha), Nat.mod_eq_of_lt (hrow _ ha'), Coordinates.mk.injEq]
  constructor
  · rintro ⟨hrank, hbank, hrow⟩
    have hq : addr / 32 / g.banksPerRank = addr' / 32 / g.banksPerRank := by
      rw [← Nat.div_add_mod (addr / 32 / g.banksPerRank) g.ranksPerChannel, hrank, hrow,
        Nat.div_add_mod]
    rw [← Nat.div_add_mod (addr / 32) g.banksPerRank, hbank, hq, Nat.div_add_mod]
  · intro heq
    rw [heq]
    exact ⟨rfl, rfl, rfl⟩

/-- Bank 256 is taken for bank 0, and rank 256 for rank 0. -/
theorem Alloy.exists_same_row (h : g.Alloy) (hno : ¬g.FitsBytes) : ∃ n, 0 < n ∧ n < g.totalRows ∧
    ∀ addr addr', addr / 32 = 0 → addr' / 32 = n →
      g.decode .roRaBaCoCh addr = g.decode .roRaBaCoCh addr' := by
  have hrows : g.banksPerRank * g.ranksPerChannel ≤ g.totalRows := by
    rw [totalRows, Nat.mul_assoc]
    exact Nat.le_mul_of_pos_left _ g.rows_pos
  by_cases hbanks : g.banksPerRank ≤ 256
  · -- the first bank of rank 256
    have hranks : 256 < g.ranksPerChannel := Nat.lt_of_not_le fun hle => hno ⟨hbanks, hle⟩
    refine ⟨g.banksPerRank * 256, Nat.mul_pos g.banks_pos (by decide),
      (Nat.mul_lt_mul_of_pos_left hranks g.banks_pos).trans_le hrows, fun addr addr' ha ha' => ?_⟩
    rw [h.decode_eq, h.decode_eq, ha, ha', Nat.mul_div_cancel_left _ g.banks_pos]
    simp [Nat.mod_eq_of_lt hranks, Nat.div_eq_of_lt hranks]
  · have hbanks : 256 < g.banksPerRank := Nat.lt_of_not_le hbanks
    refine ⟨256, by decide,
      (hbanks.trans_le (Nat.le_mul_of_pos_right _ g.ranks_pos)).trans_le hrows, ?_⟩
    intro addr addr' ha ha'
    rw [h.decode_eq, h.decode_eq, ha, ha']
    simp [Nat.mod_eq_of_lt hbanks, Nat.div_eq_of_lt hbanks]

end Geometry

/-! ## The bursts of a set -/

/-- The first burst of a set. -/
def setBurst (set : ℕ) : ℕ := set * dramPktCount + set / 15 * 2

/-- The set of an address, as the queues of the DRAM compute it. -/
def Config.dramSet (c : Config) (addr : ℕ) : ℕ := addr / c.blockSize % c.numSets

theorem Config.dramAddr_eq (c : Config) (addr : ℕ) : c.dramAddr addr = setBurst (c.dramSet addr) :=
  rfl

/-- Both bursts of a set are in the row of the set. -/
theorem setBurst_row {set k : ℕ} (hk : k < 2) : (setBurst set + k) / 32 = set / 15 := by
  unfold setBurst dramPktCount
  omega

theorem setBurst_div (set : ℕ) : setBurst set / 32 = set / 15 :=
  setBurst_row (k := 0) (by omega)

theorem setBurst_inj {set set' k k' : ℕ} (hk : k < 2) (hk' : k' < 2)
    (h : setBurst set + k = setBurst set' + k') : set = set' ∧ k = k' := by
  unfold setBurst dramPktCount at h
  omega

/-- The two bursts of a block. -/
def Config.blockBursts (c : Config) (addr : ℕ) : List ℕ :=
  [setBurst (c.dramSet addr), setBurst (c.dramSet addr) + 1]

section Queues

variable {c : Config} {s s' : State} {pkt : Packet} {addr ctx : ℕ}

/-- The bursts of a read that are queued: those that are not at the controller. -/
theorem addToReadQueue_bursts {predictHit : Bool} (h : addToReadQueue c s pkt predictHit = .ok s') :
    s'.readQueue = s.readQueue ++ ((c.blockBursts pkt.addr).filter fun burst =>
      !burstIsQueued s pkt.addr burst).map fun burst => ⟨pkt, burst⟩ := by
  have hmissing : (c.blockBursts pkt.addr).filter (fun burst => !burstIsQueued s pkt.addr burst)
      = missingBursts c s pkt.addr := rfl
  rw [hmissing]
  unfold addToReadQueue at h
  simp only at h
  split at h
  · rename_i hnone
    cases h
    simp [hnone, State.accessAndRespond, State.respond]
  · split at h
    · obtain ⟨⟨m, s₁⟩, halloc, h⟩ := bind_eq_ok h
      cases h
      obtain ⟨q, -, -, rfl⟩ := State.allocateMissBuffer_ok halloc
      rfl
    · cases h
      rfl

theorem addWriteBurst_queue {burst : ℕ} (h : addWriteBurst s pkt burst = .ok s') :
    s'.writeQueue = s.writeQueue ++ [⟨pkt, burst⟩] := by
  obtain ⟨_, -, h⟩ := bind_eq_ok h
  cases h
  rfl

/-- Both bursts of a write are queued. -/
theorem addToWriteQueue_bursts {copied : Data} (h : addToWriteQueue c s pkt copied = .ok s') :
    s'.writeQueue = s.writeQueue ++ (c.blockBursts pkt.addr).map fun burst => ⟨pkt, burst⟩ := by
  obtain ⟨s₁, h₁, h⟩ := bind_eq_ok h
  obtain ⟨s₂, h₂, h⟩ := bind_eq_ok h
  cases h
  have hq₁ := addWriteBurst_queue h₁
  have hq₂ := addWriteBurst_queue h₂
  rw [hq₁, List.append_assoc] at hq₂
  exact hq₂

/-- The bursts of a fill that are queued: those that are not queued already, unless the fill is
skipped or dropped. -/
theorem addToFillQueue_bursts (h : addToFillQueue c s addr ctx = .ok s') :
    s'.fillQueue = s.fillQueue ∨
      s'.fillQueue = s.fillQueue ++ ((c.blockBursts addr).filter fun burst =>
        (addr, burst) ∉ s.isInFillQueue).map fun burst => ⟨addr, burst⟩ := by
  have hqueue : ∀ {fq ifq}, QueuesFill c addr s.fillQueue s.isInFillQueue fq ifq →
      fq = s.fillQueue ∨ fq = s.fillQueue ++ ((c.blockBursts addr).filter fun burst =>
        (addr, burst) ∉ s.isInFillQueue).map fun burst => ⟨addr, burst⟩ := by
    intro fq ifq hfill
    cases hfill with
    | dropped => exact .inl rfl
    | queued _ h₁ h₂ =>
      right
      rw [Config.dramAddr_eq] at h₁ h₂
      cases h₁ with
      | merged hmem =>
        cases h₂ with
        | merged hmem' | queued hmem' => simp [Config.blockBursts, hmem, hmem']
      | queued hnew =>
        cases h₂ with
        | merged hmem' =>
          have hmem' : (addr, setBurst (c.dramSet addr) + 1) ∈ s.isInFillQueue := by
            simpa using hmem'
          simp [Config.blockBursts, hnew, hmem']
        | queued hnew' =>
          have hnew' : (addr, setBurst (c.dramSet addr) + 1) ∉ s.isInFillQueue := fun hmem =>
            hnew' (List.mem_cons_of_mem _ hmem)
          simp [Config.blockBursts, hnew, hnew']
  cases addToFillQueue_ok h with
  | skipped => exact .inl rfl
  | clean fq ifq _ _ hfill | dirty m q fq ifq _ _ _ _ _ hfill => exact hqueue hfill

end Queues

/-- Sets share a row exactly if they have the same number in fifteens, if ranks and banks fit into
their type, and not otherwise. -/
theorem Geometry.Alloy.decode_setBurst (g : Geometry) (hg : g.Alloy) :
    (∀ set < 15 * g.totalRows, ∀ set' < 15 * g.totalRows,
      (g.decode .roRaBaCoCh (setBurst set) = g.decode .roRaBaCoCh (setBurst set') ↔
        set / 15 = set' / 15)) ↔ g.FitsBytes := by
  constructor
  · intro h
    by_contra hno
    obtain ⟨n, hpos, hlt, hsame⟩ := hg.exists_same_row hno
    have hrows := (h 0 (by omega) (15 * n) (by omega)).1
      (hsame _ _ (setBurst_div _) ((setBurst_div _).trans (by omega)))
    omega
  · intro hfit set hset set' hset'
    rw [← setBurst_div, ← setBurst_div]
    refine hg.decode_inj hfit ?_ ?_
    · rw [setBurst_div]
      omega
    · rw [setBurst_div]
      omega

/-- The placement of an Alloy cache.  Reads, writes and fills of a block use the same two bursts;
both are in one row of the DRAM, inside its bounds; different bursts of sets have different
addresses; and sets share a row exactly if they have the same number in fifteens, which is so
just when a rank has at most 256 banks and the channel at most 256 ranks. -/
theorem alloy_placement (g : Geometry) (hg : g.Alloy) (c : Config)
    (hsets : c.numSets = 15 * g.totalRows) :
    (∀ a,
      (∀ s pkt predictHit s', pkt.addr = a → addToReadQueue c s pkt predictHit = .ok s' →
        s'.readQueue = s.readQueue ++ ((c.blockBursts a).filter fun burst =>
          !burstIsQueued s a burst).map fun burst => ⟨pkt, burst⟩) ∧
      (∀ s pkt copied s', pkt.addr = a → addToWriteQueue c s pkt copied = .ok s' →
        s'.writeQueue = s.writeQueue ++ (c.blockBursts a).map fun burst => ⟨pkt, burst⟩) ∧
      (∀ s ctx s', addToFillQueue c s a ctx = .ok s' → s'.fillQueue = s.fillQueue ∨
        s'.fillQueue = s.fillQueue ++ ((c.blockBursts a).filter fun burst =>
          (a, burst) ∉ s.isInFillQueue).map fun burst => ⟨a, burst⟩) ∧
      ∀ burst ∈ c.blockBursts a, g.decode .roRaBaCoCh burst = g.decode .roRaBaCoCh (c.dramAddr a) ∧
        g.InBounds (g.decode .roRaBaCoCh burst)) ∧
      (∀ set set' k k', k < 2 → k' < 2 → setBurst set + k = setBurst set' + k' →
        set = set' ∧ k = k') ∧
      ((∀ set < c.numSets, ∀ set' < c.numSets,
        (g.decode .roRaBaCoCh (setBurst set) = g.decode .roRaBaCoCh (setBurst set') ↔
          set / 15 = set' / 15)) ↔ g.banksPerRank ≤ 256 ∧ g.ranksPerChannel ≤ 256) := by
  refine ⟨fun a => ⟨?_, ?_, ?_, ?_⟩, fun set set' k k' hk hk' h => setBurst_inj hk hk' h, ?_⟩
  · rintro s pkt predictHit s' rfl h
    exact addToReadQueue_bursts h
  · rintro s pkt copied s' rfl h
    exact addToWriteQueue_bursts h
  · exact fun s ctx s' h => addToFillQueue_bursts h
  · intro burst hburst
    refine ⟨?_, g.decode_inBounds _ _⟩
    rcases List.mem_pair.1 hburst with rfl | rfl
    · rfl
    · rw [Config.dramAddr_eq, hg.decode_eq, hg.decode_eq, setBurst_row (by omega), setBurst_div]
  · rw [hsets]
    exact Geometry.Alloy.decode_setBurst g hg

/-- Four rows of two banks. -/
def twoBanks : Geometry where
  banksPerRank := 2
  ranksPerChannel := 1
  rowsPerBank := 4
  ranks_pos := Nat.one_pos
  rows_pos := Nat.succ_pos _

/-- 257 banks of one row. -/
def manyBanks : Geometry where
  banksPerRank := 257
  ranksPerChannel := 1
  rowsPerBank := 1
  ranks_pos := Nat.one_pos
  rows_pos := Nat.one_pos

/-- A cache that fills a DRAM. -/
def cacheOn (g : Geometry) (h : 0 < 15 * g.totalRows := by decide) : Config :=
  { Scenario.config with numSets := 15 * g.totalRows, numSets_pos := h }

/-- Sets 0 and 14 share a row, and set 15 is in the next bank. -/
theorem twoBanks_placement : twoBanks.Alloy ∧ (cacheOn twoBanks).numSets = 15 * twoBanks.totalRows ∧
      twoBanks.decode .roRaBaCoCh (setBurst 0) = twoBanks.decode .roRaBaCoCh (setBurst 14) ∧
      twoBanks.decode .roRaBaCoCh (setBurst 0) ≠ twoBanks.decode .roRaBaCoCh (setBurst 15) := by
  have hg : twoBanks.Alloy := ⟨rfl, rfl, rfl⟩
  have h := (alloy_placement twoBanks hg (cacheOn twoBanks) rfl).2.2.2 (by decide) 0 (by decide)
  refine ⟨hg, rfl, (h 14 (by decide)).2 (by decide), fun heq => ?_⟩
  exact absurd ((h 15 (by decide)).1 heq) (by decide)

/-- Bank 256 is taken for bank 0: the sets 0 and 3840 share rank, bank and row, although they
belong to different rows. -/
theorem bank_number_truncated : (cacheOn manyBanks).numSets = 15 * manyBanks.totalRows ∧
      (cacheOn manyBanks).dramSet 0 = 0 ∧ (cacheOn manyBanks).dramSet (3840 * 128) = 3840 ∧
      manyBanks.decode .roRaBaCoCh ((cacheOn manyBanks).dramAddr 0)
        = manyBanks.decode .roRaBaCoCh ((cacheOn manyBanks).dramAddr (3840 * 128)) ∧
      0 / 15 ≠ 3840 / 15 := by
  refine ⟨rfl, ?_, ?_, ?_, ?_⟩ <;> decide

end Gem5Gpu.DRAMCache
