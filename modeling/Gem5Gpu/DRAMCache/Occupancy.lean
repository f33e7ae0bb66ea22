import Gem5Gpu.DRAMCache.Tags
import Mathlib.Tactic.Ring

/-!
# The lines of the GPU in each row

Once in ten accesses of the GPU, `doCacheLookup` counts the sets that the GPU owns:
in the whole cache, and in each row of fifteen sets for the statistics of the rows.

The count of a row ends one set early.  `countOwned_row` says what is missing, and so
when the counts of the rows are right and add up to the count of the cache.
-/

namespace Gem5Gpu.DRAMCache

variable (isGPUOwned : ℕ → Bool)

/-- `count(begin + first, begin + last, true)` over the ownership bits. -/
def countOwned (first last : ℕ) : ℕ :=
  (List.range' first (last - first)).countP isGPUOwned

/-- The value of `gpu_row_counter` for row `r`. -/
def gpuRowCounter (r : ℕ) : ℕ := countOwned isGPUOwned (r * 15) (15 * (r + 1) - 1)

/-- The statistics of a row. -/
structure RowStats where
  maxGpuLines : ℕ := 0
  above20 : ℕ := 0
  above50 : ℕ := 0
  above80 : ℕ := 0

def RowStats.sample (st : RowStats) (counter : ℕ) : RowStats where
  maxGpuLines := max st.maxGpuLines counter
  above20 := if 3 < counter then st.above20 + 1 else st.above20
  above50 := if 7 < counter then st.above50 + 1 else st.above50
  above80 := if 12 < counter then st.above80 + 1 else st.above80

structure OccupancyStats where
  sampleCounter : ℕ := 0
  totalGpuLines : ℕ := 0
  maxGpuLines : ℕ := 0
  rows : ℕ → RowStats := fun _ => {}

/-- What `doCacheLookup` does to the statistics for an access of the GPU. -/
def OccupancyStats.access (st : OccupancyStats) (totalRows : ℕ) : OccupancyStats :=
  let sampleCounter := (st.sampleCounter + 1) % 10
  if sampleCounter = 0 then
    let totalGpuLines := countOwned isGPUOwned 0 (15 * totalRows)
    { sampleCounter, totalGpuLines
      maxGpuLines := max st.maxGpuLines totalGpuLines
      rows := fun r =>
        if r < totalRows then (st.rows r).sample (gpuRowCounter isGPUOwned r) else st.rows r }
  else { st with sampleCounter }

theorem countOwned_append (first n m : ℕ) : countOwned isGPUOwned first (first + (n + m)) =
    countOwned isGPUOwned first (first + n) +
      countOwned isGPUOwned (first + n) (first + (n + m)) := by
  have hrest : first + (n + m) - (first + n) = m := by omega
  simp only [countOwned, Nat.add_sub_cancel_left, hrest]
  rw [← List.range'_append_1, List.countP_append]

/-- The counter misses the last set of its row. -/
theorem countOwned_row (r : ℕ) : countOwned isGPUOwned (15 * r) (15 * r + 15) =
    gpuRowCounter isGPUOwned r + if isGPUOwned (15 * r + 14) then 1 else 0 := by
  have hend : 15 * (r + 1) - 1 = 15 * r + 14 := by omega
  rw [countOwned_append _ _ 14 1, gpuRowCounter, hend, Nat.mul_comm r 15]
  congr 1
  rw [countOwned, Nat.add_sub_add_left]
  exact List.countP_singleton

/-- The sets of the rows are the sets of the cache. -/
theorem sum_countOwned (rows : ℕ) :
    ((List.range rows).map fun r => countOwned isGPUOwned (15 * r) (15 * r + 15)).sum =
      countOwned isGPUOwned 0 (15 * rows) := by
  induction rows with
  | zero => rfl
  | succ rows ih =>
    have happend := countOwned_append isGPUOwned 0 (15 * rows) 15
    simp only [Nat.zero_add] at happend
    rw [List.range_succ, List.map_append, List.sum_append, ih, List.map_singleton,
      List.sum_singleton]
    exact happend.symm

/-- The count of the cache is that of its rows and the sets that they miss. -/
theorem sum_gpuRowCounter (rows : ℕ) : countOwned isGPUOwned 0 (15 * rows) =
    ((List.range rows).map (gpuRowCounter isGPUOwned)).sum +
      ((List.range rows).map fun r => if isGPUOwned (15 * r + 14) then 1 else 0).sum := by
  rw [← sum_countOwned, ← List.sum_map_add]
  exact congrArg List.sum (List.map_congr_left fun r _ => countOwned_row isGPUOwned r)

/-- A sample counts the sets of the GPU, and adds the counter of each row to its statistics.  The
counters are the numbers of these sets in each row, and add up to their number, exactly if the GPU
owns the last set of no row. -/
theorem gpuRowCounter_sums (totalRows : ℕ) (st : OccupancyStats)
    (hdue : (st.sampleCounter + 1) % 10 = 0) :
    (st.access isGPUOwned totalRows).totalGpuLines = countOwned isGPUOwned 0 (15 * totalRows) ∧
    (∀ r < totalRows, (st.access isGPUOwned totalRows).rows r =
      (st.rows r).sample (gpuRowCounter isGPUOwned r)) ∧
    (∀ r < totalRows, (gpuRowCounter isGPUOwned r = countOwned isGPUOwned (15 * r) (15 * r + 15) ↔
      isGPUOwned (15 * r + 14) = false)) ∧
    (((List.range totalRows).map (gpuRowCounter isGPUOwned)).sum =
        (st.access isGPUOwned totalRows).totalGpuLines ↔
      ∀ r < totalRows, isGPUOwned (15 * r + 14) = false) := by
  have htotal : (st.access isGPUOwned totalRows).totalGpuLines =
      countOwned isGPUOwned 0 (15 * totalRows) := by
    simp [OccupancyStats.access, hdue]
  refine ⟨htotal, fun r hr => ?_, fun r _ => ?_, ?_⟩
  · simp [OccupancyStats.access, hdue, hr]
  · rw [countOwned_row]
    cases isGPUOwned (15 * r + 14) <;> simp
  · rw [htotal, sum_gpuRowCounter, left_eq_add, List.sum_eq_zero_iff]
    simp

/-- Two rows, of which the GPU owns the first sets. -/
theorem gpuRowCounter_firstSets :
    let st := OccupancyStats.access (fun i => i % 15 == 0) { sampleCounter := 9 } 2
    st.totalGpuLines = 2 ∧ st.rows 1 = ({} : RowStats).sample 1 ∧
      ((List.range 2).map (gpuRowCounter fun i => i % 15 == 0)).sum = 2 := by
  obtain ⟨htotal, hrows, -, hsum⟩ :=
    gpuRowCounter_sums (fun i => i % 15 == 0) 2 { sampleCounter := 9 } (by decide)
  exact ⟨htotal.trans (by decide), hrows 1 (by decide), hsum.2 (by decide)⟩

/-- One row, of which the GPU owns the last set. -/
theorem gpuRowCounter_lastSet : gpuRowCounter (fun i => i == 14) 0 = 0 ∧
    countOwned (fun i => i == 14) 0 15 = 1 := by
  decide

end Gem5Gpu.DRAMCache
