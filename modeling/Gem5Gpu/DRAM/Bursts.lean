import Gem5Gpu.DRAM.Ctrl
import Gem5Gpu.Lib.Tiling

/-!
# Cutting a request at the burst boundaries

The number of the bursts of a request comes from a ceiling division in 32 bits, and the loop that
forms them runs that often, whatever is left of the request.  The end of the last burst of the
address space is not an address: `nextBurst` wraps to 0 there.

`splits_iff` says for which requests the pieces are right: the ceiling division does not wrap, and
the request does not reach into the last burst, unless it is the end of that burst.

`nextBurst` and `burstAlign` are bit operations; `toNat_nextBurst` and `toNat_burstAlign` say what
they compute.  The loop is then an induction on the number of rounds.
-/

namespace Gem5Gpu.DRAM.Ctrl

open Gem5Gpu.Lib

variable {addr : UInt64}

/-! ## Masks -/

theorem or_two_pow_sub_one (x k : ℕ) : x ||| (2 ^ k - 1) = x / 2 ^ k * 2 ^ k + (2 ^ k - 1) := by
  have hlt : 2 ^ k - 1 < 2 ^ k := Nat.sub_lt (Nat.two_pow_pos k) Nat.one_pos
  refine Nat.eq_of_testBit_eq fun i => ?_
  rw [Nat.mul_comm, Nat.testBit_two_pow_mul_add _ hlt, Nat.testBit_or, Nat.testBit_two_pow_sub_one,
    Nat.testBit_div_two_pow]
  by_cases hi : i < k
  · simp [hi]
  · simp [hi, Nat.sub_add_cancel (Nat.le_of_not_lt hi)]

theorem and_sub_mask {x k n : ℕ} (hx : x < 2 ^ n) (hk : k ≤ n) :
    x &&& (2 ^ n - 1 - (2 ^ k - 1)) = x / 2 ^ k * 2 ^ k := by
  have hmask : 2 ^ k - 1 < 2 ^ n :=
    Nat.lt_of_lt_of_le (Nat.sub_lt (Nat.two_pow_pos k) Nat.one_pos)
      (Nat.pow_le_pow_right (by omega) hk)
  refine Nat.eq_of_testBit_eq fun i => ?_
  rw [show 2 ^ n - 1 - (2 ^ k - 1) = 2 ^ n - (2 ^ k - 1 + 1) by omega, Nat.testBit_and,
    Nat.testBit_two_pow_sub_succ hmask, Nat.testBit_mul_two_pow, Nat.testBit_two_pow_sub_one,
    Nat.testBit_div_two_pow]
  by_cases hi : i < k
  · simp [hi]
  · by_cases hn : i < n
    · simp [hi, hn, Nat.sub_add_cancel (Nat.le_of_not_lt hi), Nat.le_of_not_lt hi]
    · have hbit : x.testBit i = false :=
        Nat.testBit_lt_two_pow (Nat.lt_of_lt_of_le hx (Nat.pow_le_pow_right (by omega) (by omega)))
      simp [hi, hbit, Nat.sub_add_cancel (Nat.le_of_not_lt hi)]

namespace Config

variable (c : Config)

/-- The burst size as a number. -/
def bytes : ℕ := c.burstSize.toNat

theorem bytes_lt : c.bytes < 2 ^ 32 := c.burstSize.toNat_lt

theorem pow_le {k : ℕ} (hk : c.burstSize.toNat = 2 ^ k) : k ≤ 31 := by
  have hlt : 2 ^ k < 2 ^ 32 := hk ▸ c.bytes_lt
  exact Nat.le_of_lt_succ ((Nat.pow_lt_pow_iff_right (by omega)).1 hlt)

theorem bytes_pos : 0 < c.bytes := by
  obtain ⟨k, hk⟩ := c.burstSize_pow
  rw [bytes, hk]
  exact Nat.two_pow_pos k

theorem toNat_burstMask : c.burstMask.toNat = c.bytes - 1 := by
  rw [burstMask, UInt32.toNat_toUInt64, UInt32.toNat_sub_of_le]
  · rfl
  · exact UInt32.le_iff_toNat_le.2 c.bytes_pos

/-- Where the burst of `x` begins. -/
def burstStart (x : ℕ) : ℕ := x / c.bytes * c.bytes

theorem burstStart_le (x : ℕ) : c.burstStart x ≤ x := Nat.div_mul_le_self x _

theorem lt_burstStart_add (x : ℕ) : x < c.burstStart x + c.bytes := by
  rw [burstStart]
  exact Nat.lt_div_mul_add c.bytes_pos

/-- An interval that does not cross the end of its burst has its last byte in it. -/
theorem div_eq_of_le {x n : ℕ} (hpos : 0 < n) (hend : x + n ≤ c.burstStart x + c.bytes) :
    (x + n - 1) / c.bytes = x / c.bytes := by
  have hle := c.burstStart_le x
  refine Nat.div_eq_of_lt_le ?_ ?_
  · show c.burstStart x ≤ x + n - 1
    omega
  · rw [Nat.succ_mul]
    show x + n - 1 < c.burstStart x + c.bytes
    omega

theorem toNat_nextBurst_mod (addr : UInt64) :
    (c.nextBurst addr).toNat = (c.burstStart addr.toNat + c.bytes) % 2 ^ 64 := by
  have hor : (addr ||| c.burstMask).toNat = c.burstStart addr.toNat + (c.bytes - 1) := by
    obtain ⟨k, hk⟩ := c.burstSize_pow
    rw [UInt64.toNat_or, toNat_burstMask, burstStart, bytes, hk, or_two_pow_sub_one]
  have := c.bytes_pos
  rw [nextBurst, UInt64.toNat_add, hor, UInt64.toNat_one]
  congr 1
  omega

theorem toNat_nextBurst (addr : UInt64) (h : c.burstStart addr.toNat + c.bytes < 2 ^ 64) :
    (c.nextBurst addr).toNat = c.burstStart addr.toNat + c.bytes := by
  rw [toNat_nextBurst_mod, Nat.mod_eq_of_lt h]

theorem toNat_burstAlign (addr : UInt64) : (c.burstAlign addr).toNat = c.burstStart addr.toNat := by
  obtain ⟨k, hk⟩ := c.burstSize_pow
  have hpow : k ≤ 64 := by
    have := c.pow_le hk
    omega
  rw [burstAlign, UInt64.toNat_and, UInt64.toNat_not, toNat_burstMask, burstStart, bytes, hk]
  exact and_sub_mask addr.toNat_lt hpow

/-- Aligned addresses are burst numbers. -/
theorem burstAlign_eq_iff {a b : UInt64} :
    c.burstAlign a = c.burstAlign b ↔ a.toNat / c.bytes = b.toNat / c.bytes := by
  rw [← UInt64.toNat_inj, toNat_burstAlign, toNat_burstAlign]
  exact Nat.mul_left_inj (Nat.ne_of_gt c.bytes_pos)

theorem bytes_dvd : c.bytes ∣ 2 ^ 64 := by
  obtain ⟨k, hk⟩ := c.burstSize_pow
  have hle := c.pow_le hk
  rw [bytes, hk]
  exact pow_dvd_pow 2 (by omega)

/-- The last burst of the address space ends with it. -/
theorem burstStart_add_le {x : ℕ} (h : x < 2 ^ 64) : c.burstStart x + c.bytes ≤ 2 ^ 64 := by
  obtain ⟨q, hq⟩ := c.bytes_dvd
  rw [hq, Nat.mul_comm] at h ⊢
  rw [burstStart, ← Nat.succ_mul]
  exact Nat.mul_le_mul_right _ ((Nat.div_lt_iff_lt_mul c.bytes_pos).2 h)

theorem le_burstStart_add {x : ℕ} (h : 2 ^ 64 ≤ x + c.bytes) :
    2 ^ 64 ≤ c.burstStart x + c.bytes := by
  obtain ⟨q, hq⟩ := c.bytes_dvd
  rw [hq, Nat.mul_comm] at h ⊢
  have hle : (q - 1) * c.bytes ≤ x := by
    rw [Nat.sub_one_mul]
    omega
  have hdiv := (Nat.le_div_iff_mul_le c.bytes_pos).2 hle
  rw [burstStart, ← Nat.succ_mul]
  exact Nat.mul_le_mul_right _ (by omega)

/-! ## The loop -/

/-- The pieces of a request are not empty, lie in one burst each, and share its bytes out. -/
structure Splits (r : Request) : Prop where
  one_burst : ∀ f ∈ c.fragments r, 0 < f.2.toNat ∧
    f.1.toNat / c.bytes = (f.1.toNat + f.2.toNat - 1) / c.bytes
  apart : (c.fragments r).Pairwise fun f g => f.1.toNat + f.2.toNat ≤ g.1.toNat
  covers : ∀ i, (∃ f ∈ c.fragments r, f.1.toNat ≤ i ∧ i < f.1.toNat + f.2.toNat) ↔
    r.addr.toNat ≤ i ∧ i < r.addr.toNat + r.size.toNat

/-- The number of bursts does not wrap, and the request does not reach into the last burst of the
address space, or it is the end of that burst. -/
structure Fits (r : Request) : Prop where
  count : r.addr.toNat % c.bytes + r.size.toNat + (c.bytes - 1) < 2 ^ 32
  addr : r.addr.toNat + r.size.toNat + c.bytes ≤ 2 ^ 64 ∨
    r.addr.toNat + r.size.toNat = 2 ^ 64 ∧ r.size.toNat ≤ c.bytes

instance (r : Request) : Decidable (c.Fits r) :=
  decidable_of_iff (_ ∧ _) ⟨fun h => ⟨h.1, h.2⟩, fun h => ⟨h.1, h.2⟩⟩

variable {c} {r : Request}

/-- The ceiling division, with the sum that wraps. -/
theorem toNat_dramPktCount (c : Config) (r : Request) : (c.dramPktCount r).toNat
      = (r.addr.toNat % c.bytes + r.size.toNat + (c.bytes - 1)) % 2 ^ 32 / c.bytes := by
  have hpos := c.bytes_pos
  have hlt := c.bytes_lt
  have hoff : ((r.addr &&& c.burstMask).toUInt32).toNat = r.addr.toNat % c.bytes := by
    obtain ⟨k, hk⟩ := c.burstSize_pow
    have hmod : r.addr.toNat &&& (c.bytes - 1) = r.addr.toNat % c.bytes := by
      rw [bytes, hk, Nat.and_two_pow_sub_one_eq_mod]
    rw [UInt64.toNat_toUInt32, UInt64.toNat_and, toNat_burstMask, hmod]
    exact Nat.mod_eq_of_lt ((Nat.mod_lt _ hpos).trans hlt)
  have hsum : ((r.addr &&& c.burstMask).toUInt32 + r.size + c.burstSize - 1).toNat
      = (r.addr.toNat % c.bytes + r.size.toNat + (c.bytes - 1)) % 2 ^ 32 := by
    rw [UInt32.toNat_sub, UInt32.toNat_add, UInt32.toNat_add, hoff, UInt32.toNat_one,
      show c.burstSize.toNat = c.bytes from rfl]
    omega
  rw [dramPktCount, divCeil, UInt32.toNat_div, hsum]
  rfl

theorem Fits.toNat_dramPktCount (h : c.Fits r) : (c.dramPktCount r).toNat
      = (r.addr.toNat % c.bytes + r.size.toNat + (c.bytes - 1)) / c.bytes := by
  rw [Config.toNat_dramPktCount, Nat.mod_eq_of_lt h.count]

/-- A fragment as an interval. -/
def interval (f : Fragment) : ℕ × ℕ := (f.1.toNat, f.2.toNat)

/-- The bursts that are left when the loop has come to `addr`. -/
def burstsLeft (c : Config) (r : Request) (addr : ℕ) : ℕ :=
  (r.addr.toNat + r.size.toNat - c.burstStart addr + (c.bytes - 1)) / c.bytes

theorem burstStart_next (c : Config) (x : ℕ) :
    c.burstStart (c.burstStart x + c.bytes) = c.burstStart x + c.bytes := by
  rw [burstStart, burstStart, ← Nat.succ_mul, Nat.mul_div_cancel _ c.bytes_pos]

/-- The last round. -/
theorem burstsLeft_last {addr : ℕ} (hlt : addr < r.addr.toNat + r.size.toNat)
    (hlast : r.addr.toNat + r.size.toNat ≤ c.burstStart addr + c.bytes) :
    c.burstsLeft r addr = 1 := by
  have := c.burstStart_le addr
  exact Nat.div_eq_of_lt_le (by omega) (by omega)

/-- A round that is not the last one. -/
theorem burstsLeft_next {addr : ℕ}
    (hmore : c.burstStart addr + c.bytes < r.addr.toNat + r.size.toNat) :
    c.burstsLeft r addr = c.burstsLeft r (c.burstStart addr + c.bytes) + 1 := by
  rw [burstsLeft, burstsLeft, burstStart_next, ← Nat.add_div_right _ c.bytes_pos]
  congr 1
  omega

section Below

variable (h : r.addr.toNat + r.size.toNat + c.bytes ≤ 2 ^ 64)
include h

/-- The piece that begins at `addr` ends with its burst or with the request. -/
theorem toNat_fragSize (hlt : addr.toNat < r.addr.toNat + r.size.toNat) :
    (c.fragSize r addr).toNat
      = min (c.burstStart addr.toNat + c.bytes) (r.addr.toNat + r.size.toNat) - addr.toNat := by
  have hle := c.burstStart_le addr.toNat
  have hnext := c.toNat_nextBurst addr (by omega)
  have hstop : (r.addr + r.size.toUInt64).toNat = r.addr.toNat + r.size.toNat := by
    have := c.bytes_pos
    rw [UInt64.toNat_add, UInt32.toNat_toUInt64, Nat.mod_eq_of_lt (by omega)]
  have hmin : (min (c.nextBurst addr) (r.addr + r.size.toUInt64)).toNat
      = min (c.burstStart addr.toNat + c.bytes) (r.addr.toNat + r.size.toNat) := by
    rw [UInt64.toNat_min, hnext, hstop]
  have hgt := c.lt_burstStart_add addr.toNat
  have hbytes := c.bytes_lt
  rw [fragSize, UInt64.toNat_toUInt32, UInt64.toNat_sub_of_le, hmin]
  · exact Nat.mod_eq_of_lt (by omega)
  · rw [UInt64.le_iff_toNat_le, hmin]
    omega

/-- The loop cuts what is left of the request, and the rounds are as many as it takes. -/
theorem abut_fragmentsFrom : ∀ n addr, addr.toNat < r.addr.toNat + r.size.toNat →
    n = c.burstsLeft r addr.toNat →
      Abut addr.toNat (r.addr.toNat + r.size.toNat) ((c.fragmentsFrom r n addr).map interval) := by
  intro n
  induction n with
  | zero =>
    intro addr hlt hn
    by_cases hlast : r.addr.toNat + r.size.toNat ≤ c.burstStart addr.toNat + c.bytes
    · rw [burstsLeft_last hlt hlast] at hn
      omega
    · rw [burstsLeft_next (by omega)] at hn
      omega
  | succ n ih =>
    intro addr hlt hn
    have hsize := toNat_fragSize h hlt
    have hgt := c.lt_burstStart_add addr.toNat
    have hle := c.burstStart_le addr.toNat
    refine ⟨rfl, ?_, ?_⟩
    · show 0 < (c.fragSize r addr).toNat
      omega
    show Abut (addr.toNat + (c.fragSize r addr).toNat) _
      ((c.fragmentsFrom r n (c.nextBurst addr)).map interval)
    by_cases hlast : r.addr.toNat + r.size.toNat ≤ c.burstStart addr.toNat + c.bytes
    · -- the request ends in this burst, and this is the last round
      rw [burstsLeft_last hlt hlast] at hn
      obtain rfl : n = 0 := by omega
      show addr.toNat + (c.fragSize r addr).toNat = _
      omega
    · have hnext := c.toNat_nextBurst addr (by omega)
      have hend : addr.toNat + (c.fragSize r addr).toNat = (c.nextBurst addr).toNat := by omega
      rw [burstsLeft_next (by omega), ← hnext] at hn
      rw [hend]
      exact ih _ (by omega) (by omega)

/-- No piece crosses the end of its burst. -/
theorem fragSize_le (hlt : addr.toNat < r.addr.toNat + r.size.toNat) :
    addr.toNat + (c.fragSize r addr).toNat ≤ c.burstStart addr.toNat + c.bytes := by
  have := toNat_fragSize h hlt
  have := c.lt_burstStart_add addr.toNat
  omega

end Below

theorem size_of_mem_fragmentsFrom {n : ℕ} {f : Fragment}
    (hf : f ∈ c.fragmentsFrom r n addr) : f.2 = c.fragSize r f.1 := by
  induction n generalizing addr with
  | zero => cases hf
  | succ n ih =>
    rcases List.mem_cons.1 hf with rfl | hf
    · rfl
    · exact ih hf

theorem toNat_size_pos (hsize : r.size ≠ 0) : 0 < r.size.toNat :=
  Nat.pos_of_ne_zero fun hzero => hsize (UInt32.toNat_inj.1 hzero)

/-- The piece that begins in the last burst of the address space, or in a request that ends with
it, ends with the address space. -/
theorem toNat_fragSize_last (hlt : 2 ^ 64 < addr.toNat + 2 ^ 32)
    (h : 2 ^ 64 ≤ c.burstStart addr.toNat + c.bytes ∨ r.addr.toNat + r.size.toNat = 2 ^ 64) :
    (c.fragSize r addr).toNat = 2 ^ 64 - addr.toNat := by
  have hzero : (min (c.nextBurst addr) (r.addr + r.size.toUInt64)).toNat = 0 := by
    rw [UInt64.toNat_min]
    rcases h with h | h
    · have hle := c.burstStart_add_le addr.toNat_lt
      rw [toNat_nextBurst_mod, show c.burstStart addr.toNat + c.bytes = 2 ^ 64 by omega,
        Nat.mod_self, Nat.zero_min]
    · rw [UInt64.toNat_add, UInt32.toNat_toUInt64, h, Nat.mod_self, Nat.min_zero]
  have haddr := addr.toNat_lt
  rw [fragSize, UInt64.toNat_toUInt32, UInt64.toNat_sub, hzero]
  omega

theorem mem_fragments_first (h : (c.dramPktCount r).toNat ≠ 0) :
    (r.addr, c.fragSize r r.addr) ∈ c.fragments r := by
  obtain ⟨n, hn⟩ := Nat.exists_eq_succ_of_ne_zero h
  rw [fragments, hn]
  exact List.mem_cons_self

theorem length_fragmentsFrom (n : ℕ) : (c.fragmentsFrom r n addr).length = n := by
  induction n generalizing addr with
  | zero => rfl
  | succ n ih => rw [fragmentsFrom, List.length_cons, ih]

/-- The pieces of a request that fits follow each other from its first byte to its last. -/
theorem Fits.abut_fragments (h : c.Fits r) (hsize : r.size ≠ 0) :
    Abut r.addr.toNat (r.addr.toNat + r.size.toNat) ((c.fragments r).map interval) := by
  have hpos := toNat_size_pos hsize
  have hmod : r.addr.toNat = c.burstStart r.addr.toNat + r.addr.toNat % c.bytes :=
    (Nat.div_add_mod' _ _).symm
  have hn : (c.dramPktCount r).toNat = c.burstsLeft r r.addr.toNat := by
    rw [h.toNat_dramPktCount, burstsLeft]
    congr 1
    omega
  rcases h.addr with haddr | ⟨hend, hlast⟩
  · exact abut_fragmentsFrom haddr _ _ (by omega) hn
  · -- one piece, which the two wraps make as long as the request
    have hle := c.le_burstStart_add (x := r.addr.toNat) (by omega)
    have hfrag : (c.fragSize r r.addr).toNat = 2 ^ 64 - r.addr.toNat :=
      toNat_fragSize_last (by have := c.bytes_lt; omega) (.inr hend)
    rw [burstsLeft_last (by omega) (by omega)] at hn
    rw [fragments, hn]
    refine ⟨rfl, ?_, ?_⟩
    · show 0 < (c.fragSize r r.addr).toNat
      omega
    · show r.addr.toNat + (c.fragSize r r.addr).toNat = _
      omega

theorem Fits.splits (h : c.Fits r) (hsize : r.size ≠ 0) : c.Splits r where
  one_burst f hf := by
    obtain ⟨hfirst, hpos, hend⟩ := (h.abut_fragments hsize).bounds (List.mem_map_of_mem hf)
    have hfirst : r.addr.toNat ≤ f.1.toNat := hfirst
    have hpos : 0 < f.2.toNat := hpos
    have hend : f.1.toNat + f.2.toNat ≤ r.addr.toNat + r.size.toNat := hend
    refine ⟨hpos, (c.div_eq_of_le hpos ?_).symm⟩
    rcases h.addr with haddr | ⟨hlast, hle⟩
    · rw [size_of_mem_fragmentsFrom hf]
      exact fragSize_le haddr (by omega)
    · have := c.le_burstStart_add (x := f.1.toNat) (by omega)
      omega
  apart := List.pairwise_map.1 (h.abut_fragments hsize).pairwise
  covers i := by
    rw [← (h.abut_fragments hsize).mem_iff]
    simp only [List.mem_map, exists_exists_and_eq_and]
    rfl

namespace Splits

variable (h : c.Splits r) (hsize : r.size ≠ 0)
include h

/-- The burst of the first byte of a piece is that of its last one. -/
theorem add_le {f : Fragment} (hf : f ∈ c.fragments r) :
    f.1.toNat + f.2.toNat ≤ c.burstStart f.1.toNat + c.bytes := by
  obtain ⟨hpos, hone⟩ := h.one_burst f hf
  have hlt := c.lt_burstStart_add (f.1.toNat + f.2.toNat - 1)
  rw [burstStart, ← hone] at hlt
  show _ ≤ f.1.toNat / c.bytes * c.bytes + c.bytes
  omega

include hsize

/-- The last byte of the request is in a piece. -/
theorem exists_last : ∃ f ∈ c.fragments r, f.1.toNat < r.addr.toNat + r.size.toNat ∧
    r.addr.toNat + r.size.toNat = f.1.toNat + f.2.toNat := by
  have hpos := toNat_size_pos hsize
  obtain ⟨f, hf, hle, hlt⟩ := (h.covers (r.addr.toNat + r.size.toNat - 1)).2 (by omega)
  obtain ⟨hfpos, -⟩ := h.one_burst f hf
  obtain ⟨-, hend⟩ := (h.covers (f.1.toNat + f.2.toNat - 1)).1 ⟨f, hf, by omega, by omega⟩
  exact ⟨f, hf, by omega, by omega⟩

/-- There are as many pieces as bursts with a byte of the request. -/
theorem count_le : (r.addr.toNat % c.bytes + r.size.toNat + (c.bytes - 1)) / c.bytes ≤
    (c.dramPktCount r).toNat := by
  have hpos := toNat_size_pos hsize
  have hbytes := c.bytes_pos
  set n := (r.addr.toNat % c.bytes + r.size.toNat + (c.bytes - 1)) / c.bytes
  have hsub : (List.range' (r.addr.toNat / c.bytes) n) ⊆
      (c.fragments r).map fun f => f.1.toNat / c.bytes := by
    intro j hj
    obtain ⟨i, hi, rfl⟩ := List.mem_range'.1 hj
    rw [Nat.one_mul]
    -- a byte of the request in the burst
    have hmod := Nat.div_add_mod' r.addr.toNat c.bytes
    have hoff := Nat.mod_lt r.addr.toNat c.bytes_pos
    have hadd := Nat.add_mul (r.addr.toNat / c.bytes) i c.bytes
    have hi : (i + 1) * c.bytes ≤ n * c.bytes := Nat.mul_le_mul_right _ hi
    have hn : n * c.bytes ≤ _ := Nat.div_mul_le_self _ _
    rw [Nat.succ_mul] at hi
    have hburst : max r.addr.toNat ((r.addr.toNat / c.bytes + i) * c.bytes) / c.bytes =
        r.addr.toNat / c.bytes + i := by
      refine Nat.div_eq_of_lt_le (Nat.le_max_right _ _) ?_
      rw [Nat.succ_mul]
      omega
    obtain ⟨f, hf, hle, hlt⟩ := (h.covers (max r.addr.toNat
      ((r.addr.toNat / c.bytes + i) * c.bytes))).2 (by omega)
    refine List.mem_map.2 ⟨f, hf, Nat.le_antisymm ?_ ?_⟩
    · exact (Nat.div_le_div_right hle).trans hburst.le
    · rw [(h.one_burst f hf).2, ← hburst]
      exact Nat.div_le_div_right (by omega)
  have hlen := (List.subperm_of_subset List.nodup_range' hsub).length_le
  rwa [List.length_range', List.length_map, fragments, length_fragmentsFrom] at hlen

theorem count_lt : r.addr.toNat % c.bytes + r.size.toNat + (c.bytes - 1) < 2 ^ 32 := by
  by_contra hge
  have hlt := c.bytes_lt
  have hcount := Nat.mul_le_mul_right c.bytes (h.count_le hsize)
  rw [c.toNat_dramPktCount] at hcount
  have hle := Nat.div_mul_le_self
    ((r.addr.toNat % c.bytes + r.size.toNat + (c.bytes - 1)) % 2 ^ 32) c.bytes
  have hgt := Nat.lt_div_mul_add (a := r.addr.toNat % c.bytes + r.size.toNat + (c.bytes - 1))
    c.bytes_pos
  omega

theorem fits : c.Fits r := by
  refine ⟨h.count_lt hsize, ?_⟩
  have hpos := toNat_size_pos hsize
  have hlt := c.bytes_lt
  obtain ⟨f, hf, hfirst, hend⟩ := h.exists_last hsize
  by_cases hbelow : r.addr.toNat + r.size.toNat + c.bytes ≤ 2 ^ 64
  · exact .inl hbelow
  right
  -- the last piece ends with the address space
  have hstart := c.burstStart_le f.1.toNat
  have hspace : 2 ^ 64 ≤ c.burstStart f.1.toNat + c.bytes := by
    have hlast := c.le_burstStart_add (x := f.1.toNat + f.2.toNat - 1) (by omega)
    rwa [burstStart, ← (h.one_burst f hf).2] at hlast
  have hlast : (c.fragSize r f.1).toNat = 2 ^ 64 - f.1.toNat :=
    toNat_fragSize_last (by omega) (.inl hspace)
  rw [← size_of_mem_fragmentsFrom hf] at hlast
  have hwhole : r.addr.toNat + r.size.toNat = 2 ^ 64 := by
    have := f.1.toNat_lt
    omega
  -- so does the first one
  have hsome : (c.dramPktCount r).toNat ≠ 0 := by
    intro hzero
    rw [fragments, hzero] at hf
    cases hf
  have hone : r.addr.toNat + (c.fragSize r r.addr).toNat ≤ c.burstStart r.addr.toNat + c.bytes :=
    h.add_le (mem_fragments_first hsome)
  have hsize : (c.fragSize r r.addr).toNat = 2 ^ 64 - r.addr.toNat :=
    toNat_fragSize_last (by have := r.size.toNat_lt; omega) (.inr hwhole)
  have hle := c.burstStart_le r.addr.toNat
  exact ⟨hwhole, by omega⟩

end Splits

/-- The requests that are cut as they should. -/
theorem splits_iff (hsize : r.size ≠ 0) : c.Splits r ↔ c.Fits r :=
  ⟨fun h => h.fits hsize, fun h => h.splits hsize⟩

end Config

end Gem5Gpu.DRAM.Ctrl
