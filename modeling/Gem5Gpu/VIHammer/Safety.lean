import Gem5Gpu.VIHammer.Runs

/-!
# Single writer, multiple readers

What the invariant says of the states of the controllers: next to an exclusive copy
there is no other one, there is at most one owner, all copies agree, and no message
comes at a wrong time.
-/

namespace Gem5Gpu.VIHammer


open Lib

variable {ι : Type} [DecidableEq ι] [Fintype ι] {L : ℕ} {v : View ι L}

/-! ## The states with a copy -/

namespace CPUCache.State

/-- The states with an exclusive copy. -/
def exclusive : State → Bool
  | .M | .MM | .M_W | .MM_W | .MT | .MMT | .MR | .MMR => true
  | _ => false

/-- The states with a valid copy. -/
def valid : State → Bool
  | .S | .O | .M | .MM | .SS | .SM | .OM | .ISM | .M_W | .MM_W | .ST | .OT | .MT | .MMT
  | .SR | .OR | .MR | .MMR => true
  | _ => false

/-- The states of the owner. -/
def owner : State → Bool
  | .O | .M | .MM | .M_W | .MM_W | .OM | .OI | .MI | .OT | .MT | .MMT | .OR | .MR
  | .MMR => true
  | _ => false

end CPUCache.State

namespace GPUL2Cache.State

/-- The states with an exclusive copy. -/
def exclusive : State → Bool
  | .M | .MM | .M_W | .MM_W => true
  | _ => false

/-- The states with a valid copy. -/
def valid : State → Bool
  | .S | .O | .M | .MM | .SS | .SM | .OM | .ISM | .M_W | .MM_W => true
  | _ => false

/-- The states of the owner. -/
def owner : State → Bool
  | .O | .M | .MM | .M_W | .MM_W | .OM | .OI | .MI => true
  | _ => false

end GPUL2Cache.State

namespace Ctl

variable (c : Ctl ι L)

def exclusive : Bool :=
  match c with
  | .cpu l => (l.getState .I).exclusive
  | .gpu l => (l.getState .I).exclusive

def valid : Bool :=
  match c with
  | .cpu l => (l.getState .I).valid
  | .gpu l => (l.getState .I).valid

def owner : Bool :=
  match c with
  | .cpu l => (l.getState .I).owner
  | .gpu l => (l.getState .I).owner

end Ctl

omit [DecidableEq ι] [Fintype ι] in
/-- The state of a CPU cache is its mode, and where the block is on its way. -/
theorem CPUCache.Sees.getState_eq {l : Line CPUCache.State ι L} {k : Move}
    (h : CPUCache.Sees l v k) :
    l.getState .I = if v.mode.resting then restState k v.mode else stateOf v.mode := by
  cases h with
  | absent => rfl
  | rest e m k hm => cases m <;> first | rfl | cases hm
  | both e t m hm | tbe t m hm => cases m <;> rfl

omit [DecidableEq ι] [Fintype ι] in
theorem GPUL2Cache.Sees.getState_eq {l : Line GPUL2Cache.State ι L}
    (h : GPUL2Cache.Sees l v) : l.getState .I = stateOf v.mode := by
  cases h with
  | absent | both e t m hm | tbe t m hm => rfl
  | rest e m hm => cases m <;> rfl

omit [DecidableEq ι] [Fintype ι] in
/-- The copy in a cache, by its state. -/
theorem Ctl.Sees.copy {c : Ctl ι L} {k : Move} (h : c.Sees v k) :
    (c.exclusive → v.mode.copy = some (true, true)) ∧ (c.valid → v.mode.copy ≠ none) ∧
      (c.owner → ∃ x, v.mode.copy = some (true, x)) := by
  cases c with
  | cpu l =>
    have hst := CPUCache.Sees.getState_eq h
    unfold exclusive valid owner
    simp only [hst]
    cases v.mode <;> cases k <;> simp [Mode.resting, Mode.copy, CPUCache.restState,
      CPUCache.stateOf, CPUCache.State.exclusive, CPUCache.State.valid, CPUCache.State.owner]
  | gpu l =>
    have hst := GPUL2Cache.Sees.getState_eq h.1
    unfold exclusive valid owner
    simp only [hst]
    cases v.mode <;> simp [Mode.copy, GPUL2Cache.stateOf, GPUL2Cache.State.exclusive,
      GPUL2Cache.State.valid, GPUL2Cache.State.owner]

/-- The data of the entry, or else of the TBE, and whether it is dirty. -/
def Line.data {S : Type} (l : Line S ι L) : Option (DataBlock L × Bool) :=
  match l.entry with
  | some e => some (e.dataBlk, e.dirty)
  | none => l.tbe.map fun t => (t.dataBlk, t.dirty)

def Ctl.data : Ctl ι L → Option (DataBlock L × Bool)
  | .cpu l => l.data
  | .gpu l => l.data

omit [DecidableEq ι] [Fintype ι] in
/-- A cache with a copy has the data of its view. -/
theorem Ctl.Sees.data_eq {c : Ctl ι L} {k : Move} (h : c.Sees v k) (hc : v.mode.copy ≠ none) :
    c.data = some (v.blk, v.dirty) := by
  cases c with
  | cpu l =>
    cases h with
    | absent => exact absurd rfl hc
    | rest e m => cases m <;> first | rfl | exact absurd rfl hc
    | both | tbe => rfl
  | gpu l =>
    cases h.1 with
    | absent => exact absurd rfl hc
    | rest e m => cases m <;> first | rfl | exact absurd rfl hc
    | both | tbe => rfl

/-! ## Copies -/

section Copies

variable {g : Ghost ι L} {a : ι → Party ι L} {s : Sys ι L} {i j : ι}

omit [DecidableEq ι] [Fintype ι] in
theorem Party.mem_holdings_of_copy {p : Party ι L} (x : Bool) {y : Bool × Bool}
    (hy : p.view.mode.copy = some y) :
    (⟨y.1, y.2, p.view.blk, p.view.dirty⟩ : Holding L) ∈ p.holdings x :=
  mem_holdings_view (by simp [View.holding, hy])

/-- A cache with an owned copy is the owner. -/
theorem Inv.own_of_copy {x : Bool} (h : Inv g a s) (hc : (a i).view.mode.copy = some (true, x)) :
    g.own = some i ∧ (x = true → g.excl = true) := by
  have hheld := (h.party i).held
  have hmem := Party.mem_holdings_of_copy (g.role i).x hc
  exact ⟨hheld.own_eq hmem rfl, hheld.excl _ hmem⟩

/-- Next to an exclusive copy there is no other one. -/
theorem Inv.copy_eq_none (h : Inv g a s) (hc : (a i).view.mode.copy = some (true, true))
    (hij : i ≠ j) : (a j).view.mode.copy = none := by
  obtain ⟨hown, hexcl⟩ := h.own_of_copy hc
  have hzero := (h.party j).held.eq_zero (hexcl rfl) (by rw [hown]; simpa using hij)
  by_contra hne
  obtain ⟨y, hy⟩ := Option.ne_none_iff_exists'.1 hne
  have hmem := Party.mem_holdings_of_copy (g.role j).x hy
  rw [hzero] at hmem
  exact absurd hmem (Multiset.notMem_zero _)

/-- In `E` and `O` the directory is idle, and the memory has the block. -/
theorem Global.unowned {σ : ι → Signal ι L} {b : Hub ι L} (h : Global g σ b)
    (hd : b.dir.directoryState = .E ∨ b.dir.directoryState = .O) :
    g.own = none ∧ b.memory = g.cur := by
  have htxn : g.txn = .idle := by
    by_contra htxn
    rcases h.busy htxn with ⟨J, hJ⟩ | ⟨st, o, hst, hb, -⟩
    · cases hJ with
      | alone st hst' hst | merging t ht hst => grind
    · rw [hst] at hd
      rcases hd with rfl | rfl <;> cases hb
  unfold Global at h
  rw [htxn] at h
  cases h.2.2.2.2 with
  | E _ hown _ hmem | O _ hown hmem => exact ⟨hown, hmem⟩
  | owned st hst' hst => grind

/-- The block has the value `D`: in every cache with a copy, and in the memory if the
copy of the owner is clean or the directory is in `E` or `O`, without an owner. -/
structure Sys.Coherent (s : Sys ι L) (D : DataBlock L) : Prop where
  copies : ∀ i, (s.node i).ctl.valid = true ∨ (s.node i).ctl.owner = true →
    ∃ dirty, (s.node i).ctl.data = some (D, dirty)
  clean : ∀ i, (s.node i).ctl.owner = true → (s.node i).ctl.data = some (D, false) → s.memory = D
  unowned : s.dir.directoryState = .E ∨ s.dir.directoryState = .O →
    s.memory = D ∧ ∀ i, (s.node i).ctl.owner = false

theorem Inv.coherent (h : Inv g a s) : s.Coherent g.cur := by
  have hdata (i : ι) (y : Bool × Bool) (hy : (a i).view.mode.copy = some y) :
      (s.node i).ctl.data = some (g.cur, (a i).view.dirty) := by
    rw [(h.of i).sees.data_eq (by simp [hy]),
      ← (h.party i).held.blk _ (Party.mem_holdings_of_copy _ hy)]
  refine ⟨fun i hi => ?_, fun i hi hd => ?_, fun hd => ?_⟩
  · rcases hi with hi | hi
    · obtain ⟨y, hy⟩ := Option.ne_none_iff_exists'.1 ((h.of i).sees.copy.2.1 hi)
      exact ⟨_, hdata i y hy⟩
    · obtain ⟨x, hx⟩ := (h.of i).sees.copy.2.2 hi
      exact ⟨_, hdata i _ hx⟩
  · obtain ⟨x, hx⟩ := (h.of i).sees.copy.2.2 hi
    rw [hdata i _ hx] at hd
    exact (h.party i).held.clean _ (Party.mem_holdings_of_copy _ hx) rfl (by simpa using hd)
  · obtain ⟨hown, hcur⟩ := h.dir.unowned hd
    refine ⟨hcur, fun i => Bool.eq_false_iff.2 fun hi => ?_⟩
    obtain ⟨x, hx⟩ := (h.of i).sees.copy.2.2 hi
    simpa [hown] using (h.own_of_copy hx).1

end Copies

section Runs

variable {P : Params} {β : Type} [DecidableEq β]

/-- **Single writer, multiple readers.**  In every state that the system reaches, for
every block: next to a controller with an exclusive copy no other one has a valid copy,
and there is at most one owner. -/
theorem single_writer_multiple_readers (hn : 1 < Fintype.card ι) (hP : P.cfg = ⟨false, false⟩)
    (kind : ι → Kind) (d : β → DataBlock L) (es : List (β × ℕ × Act ι L))
    (hflush : ∀ e ∈ es, e.2.2.flushes = false) (S : β → Sys ι L)
    (hrun : run (stepBlocks P) (fun b => Sys.init kind (d b)) es = .ok S) (b : β) :
    (∀ i j, i ≠ j → ((S b).node i).ctl.exclusive = true → ((S b).node j).ctl.valid = false) ∧
      ∀ i j, ((S b).node i).ctl.owner = true → ((S b).node j).ctl.owner = true → i = j := by
  obtain ⟨S', hrun', hinv⟩ := run_inv hn hP kind d es hflush
  obtain rfl : S = S' := Except.ok.inj (hrun.symm.trans hrun')
  obtain ⟨g, a, h⟩ := hinv b
  refine ⟨fun i j hij hexcl => ?_, fun i j hi hj => ?_⟩
  · have hnone := h.copy_eq_none ((h.of i).sees.copy.1 hexcl) hij
    by_contra hvalid
    exact (h.of j).sees.copy.2.1 (Bool.eq_true_of_not_eq_false hvalid) hnone
  · obtain ⟨x, hx⟩ := (h.of i).sees.copy.2.2 hi
    obtain ⟨y, hy⟩ := (h.of j).sees.copy.2.2 hj
    have heq := (h.own_of_copy hx).1.symm.trans (h.own_of_copy hy).1
    exact Option.some.inj heq

/-! A CPU cache stores to a block next to a GPU L2 cache. -/

/-- A request as a cache sends it at the time 0. -/
def requestOf {n : ℕ} (i : Fin n) (t : CoherenceRequestType) : RequestMsg (Fin n) :=
  { type := t, requestor := .cache i }

/-- A response of `q` with `acks`. -/
def responseOf {n : ℕ} (q : MachineID (Fin n)) (t : CoherenceResponseType) (acks : ℤ) :
    ResponseMsg (Fin n) 1 :=
  { type := t, sender := q, acks := acks }

/-- The byte 1 is stored. -/
def storeOne : Write 1 := ⟨fun _ => 1, 0, 1⟩

/-- The broadcast configuration. -/
def broadcastParams : Params where
  cfg := ⟨false, false⟩

/-- A CPU cache and a GPU L2 cache. -/
def cpuAndGpu : Fin 2 → Kind
  | 0 => .cpu
  | 1 => .gpu

/-- The CPU stores to a block that no cache has. -/
def storeRun : List (Act (Fin 2) 1) := [ .issue 0 ⟨.ST, storeOne⟩, .demand 0 .mandatory,
  .deliverDir (.request 0 (requestOf 0 .GETX)),
  .memory (.read (.cache 0)),
  .deliverDir (.memory (.MEMORY_READ (.cache 0) (DataBlock.clear 1))),
  .deliver 1 (.forward (requestOf 0 .GETX)),
  .deliver 0 (.response (responseOf .directory .DATA_EXCLUSIVE 1)),
  .deliver 0 (.response (responseOf (.cache 1) .ACK 1)),
  .deliver 0 (.trigger .ALL_ACKS_NO_SHARERS)]

/-- The steps of a run at the time 0, at the only block. -/
def atZero {n : ℕ} (l : List (Act (Fin n) 1)) : List (Unit × ℕ × Act (Fin n) 1) :=
  l.map fun a => ((), 0, a)

theorem single_writer_after_store :
    ∃ S, run (stepBlocks broadcastParams) (fun _ => Sys.init cpuAndGpu (DataBlock.clear 1))
        (atZero storeRun) = .ok S ∧
      ((S ()).node 0).ctl.exclusive = true ∧ ((S ()).node 1).ctl.valid = false := by
  have hend : (match run (stepBlocks broadcastParams)
      (fun _ => Sys.init cpuAndGpu (DataBlock.clear 1)) (atZero storeRun) with
    | .ok S => ((S ()).node 0).ctl.exclusive
    | .error _ => false) = true := by decide +kernel
  have hflush : ∀ e ∈ atZero storeRun, e.2.2.flushes = false := by decide
  cases hrun : run (stepBlocks broadcastParams) (fun _ => Sys.init cpuAndGpu (DataBlock.clear 1))
      (atZero storeRun) with
  | error f =>
    rw [hrun] at hend
    cases hend
  | ok S =>
    rw [hrun] at hend
    refine ⟨S, rfl, hend, ?_⟩
    exact (single_writer_multiple_readers (by decide) rfl cpuAndGpu (fun _ => DataBlock.clear 1)
      (atZero storeRun) hflush S hrun ()).1 0 1 (by decide) hend

/-- **No event without a transition.**  With two caches or more, no run faults: every
message finds a transition of the controller that takes it, and no assertion fails. -/
theorem no_fault (hn : 1 < Fintype.card ι) (hP : P.cfg = ⟨false, false⟩) (kind : ι → Kind)
    (d : β → DataBlock L) (es : List (β × ℕ × Act ι L)) (hflush : ∀ e ∈ es, e.2.2.flushes = false) :
    ∃ S, run (stepBlocks P) (fun b => Sys.init kind (d b)) es = .ok S :=
  (run_inv hn hP kind d es hflush).imp fun _ hS => hS.1

theorem no_fault_store : ∃ S, run (stepBlocks broadcastParams)
    (fun _ => Sys.init cpuAndGpu (DataBlock.clear 1)) (atZero storeRun) = .ok S :=
  no_fault (by decide) rfl cpuAndGpu (fun _ => DataBlock.clear 1) (atZero storeRun) (by decide)

/-- **One value.**  In every state reached, the copies of a block and the memory agree. -/
theorem blocks_are_coherent (hn : 1 < Fintype.card ι) (hP : P.cfg = ⟨false, false⟩)
    (kind : ι → Kind) (d : β → DataBlock L) (es : List (β × ℕ × Act ι L))
    (hflush : ∀ e ∈ es, e.2.2.flushes = false) :
    ∃ S, run (stepBlocks P) (fun b => Sys.init kind (d b)) es = .ok S ∧
      ∀ b, ∃ D, (S b).Coherent D := by
  obtain ⟨S, hrun, hinv⟩ := run_inv hn hP kind d es hflush
  refine ⟨S, hrun, fun b => ?_⟩
  obtain ⟨g, a, h⟩ := hinv b
  exact ⟨g.cur, h.coherent⟩

theorem store_is_coherent : ∃ S, run (stepBlocks broadcastParams)
    (fun _ => Sys.init cpuAndGpu (DataBlock.clear 1)) (atZero storeRun) = .ok S ∧
      ∀ b, ∃ D, (S b).Coherent D :=
  blocks_are_coherent (by decide) rfl cpuAndGpu _ _ (by decide)

/-- One CPU cache alone.  A DMA read makes it the owner of a block that it then writes
back clean, so the directory ends in `O`.  There a GETX is answered by the memory and,
since there is no other cache, by an acknowledgement of the directory as well. -/
def aloneRun : List (Act (Fin 1) 1) := [ .issue 0 ⟨.LD, storeOne⟩, .demand 0 .mandatory,
  .deliverDir (.request 0 (requestOf 0 .GETS)),
  .memory (.read (.cache 0)),
  .deliverDir (.memory (.MEMORY_READ (.cache 0) (DataBlock.clear 1))),
  .deliver 0 (.response (responseOf .directory .DATA_EXCLUSIVE 1)),
  .deliver 0 (.trigger .ALL_ACKS_NO_SHARERS),
  .deliverDir (.unblock 0 (responseOf (.cache 0) .UNBLOCKM 0)),
  .issueDma .READ,
  .deliverDir (.dma .READ),
  .deliver 0 (.forward { type := .GETS, requestor := .directory }),
  .deliverDir (.response 0 (responseOf (.cache 0) .DATA_SHARED 2)),
  .deliverDir (.trigger .ALL_ACKS_OWNER_EXISTS),
  .demand 0 .makeRoomL1,
  .demand 0 .makeRoomL2,
  .deliverDir (.request 0 (requestOf 0 .PUT)),
  .deliver 0 (.forward (requestOf 0 .WB_ACK)),
  .deliverDir (.unblock 0 (responseOf (.cache 0) .WB_CLEAN 0)),
  .issue 0 ⟨.ST, storeOne⟩,
  .demand 0 .mandatory,
  .deliverDir (.request 0 (requestOf 0 .GETX)),
  .memory (.read (.cache 0)),
  .deliverDir (.memory (.MEMORY_READ (.cache 0) (DataBlock.clear 1))),
  .deliver 0 (.response (responseOf .directory .DATA 1))]

/-- The data is there and the store is performed, and then the acknowledgement finds the
cache in `MM`. -/
theorem alone_faults : (match run (stepBlocks broadcastParams)
      (fun _ => Sys.init (fun _ => .cpu) (DataBlock.clear 1))
      (atZero (aloneRun ++ [.deliver 0 (.trigger .ALL_ACKS_NO_SHARERS),
        .deliver 0 (.response (responseOf .directory .ACK 0))])) with
    | .ok _ => none
    | .error f => some f) = some .invalidTransition := by decide +kernel

end Runs

end Gem5Gpu.VIHammer
