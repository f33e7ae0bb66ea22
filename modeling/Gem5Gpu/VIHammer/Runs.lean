import Gem5Gpu.VIHammer.DirDma

/-!
# Runs of the protocol

The steps that are not a message at a controller: a core or the DMA controller
issues a request, and the memory performs one.  `step_ok` says that every step but a
flush keeps the invariant, and `run_inv` that it holds after every run.
-/

namespace Gem5Gpu.VIHammer

open Lib Directory Function

variable {ι : Type} [DecidableEq ι] [Fintype ι] {L : ℕ} {P : Params} {g : Ghost ι L}
  {a : ι → Party ι L} {s : Sys ι L} {i j : ι} {now : ℕ} {r : SequencerRequest L}

/-! ## Requests of the cores -/

/-- A core issues a request. -/
theorem step_issue (h : Inv g a s) (hr : r.type ≠ .FLUSH) : StepOK P g s (now, .issue i r) := by
  refine ⟨g, a, _, rfl, ⟨fun j => ?_, h.party, h.dir, h.writes⟩,
    ⟨[], (List.append_nil _).symm, .inl (.inl ⟨rfl, rfl⟩)⟩, rfl⟩
  obtain ⟨hs, ht, hresp, hf, hq, hu, ha⟩ := h.of j
  rw [Sys.modify_node]
  split
  · rename_i hj
    subst hj
    exact ⟨hs.accept hr, ht, hresp, hf, hq, hu, ha⟩
  · exact ⟨hs, ht, hresp, hf, hq, hu, ha⟩

/-- The DMA controller issues a request. -/
theorem step_issueDma {m : DMARequestMsg L} (h : Inv g a s) (hm : m = .READ ∨ g.dmaWritten) :
    StepOK P g s (now, .issueDma m) := by
  refine ⟨g, a, _, rfl, ⟨h.of, h.party, h.dir, fun m' hm' => ?_⟩,
    ⟨[], (List.append_nil _).symm, .inl (.inl ⟨rfl, rfl⟩)⟩, rfl⟩
  rcases Multiset.mem_cons.1 hm' with rfl | hm'
  · exact hm
  · exact h.writes m' hm'

/-! ## The memory -/

omit [DecidableEq ι] [Fintype ι] in
theorem Fetching.of_mem {b : Hub ι L} {q : MachineID ι} {d : DataBlock L} {m : MemoryRequest ι L}
    (h : Fetching b q d) (hm : m ∈ b.requests) :
    m = .read q ∧ b.requests = {.read q} ∧ b.responses = 0 := by
  rcases h with ⟨hrequests, hresponses⟩ | ⟨hrequests, -⟩
  · rw [hrequests] at hm
    exact ⟨Multiset.mem_singleton.1 hm, hrequests, hresponses⟩
  · rw [hrequests] at hm
    exact absurd hm (Multiset.notMem_zero m)

omit [DecidableEq ι] [Fintype ι] in
theorem Writing.of_mem {b : Hub ι L} {cur d : DataBlock L} {m : MemoryRequest ι L}
    (h : Writing b cur d) (hm : m ∈ b.requests) :
    m = .write d ∧ b.requests = {.write d} ∧ b.responses = 0 := by
  rcases h with ⟨hrequests, hresponses⟩ | ⟨hrequests, -⟩
  · rw [hrequests] at hm
    exact ⟨Multiset.mem_singleton.1 hm, hrequests, hresponses⟩
  · rw [hrequests] at hm
    exact absurd hm (Multiset.notMem_zero m)

/-- The memory reads the block. -/
theorem step_read {q : MachineID ι} (h : Inv g a s) (hrequests : s.hub.requests = {.read q})
    (hresponses : s.hub.responses = 0)
    (hdir : Global g (fun j => (a j).signal)
      { s.hub with requests := 0, responses := {.MEMORY_READ q s.memory} }) :
    StepOK P g s (now, .memory (.read q)) := by
  have hrequests : s.requestToMemory = {.read q} := hrequests
  have hresponses : s.responseFromMemory = 0 := hresponses
  refine ⟨g, a, { s with requestToMemory := 0, responseFromMemory := {.MEMORY_READ q s.memory} },
    ?_, ⟨h.of, h.party, hdir, h.writes⟩, ⟨[], (List.append_nil _).symm, .inl (.inl ⟨rfl, rfl⟩)⟩,
    rfl⟩
  simp [step, hrequests, hresponses]
  rfl

/-- The memory writes the block. -/
theorem step_write {d : DataBlock L} (cur : DataBlock L) (h : Inv g a s)
    (hrequests : s.hub.requests = {.write d}) (hresponses : s.hub.responses = 0)
    (hquiet : ∀ j, (a j).signal.Quiet) (hidle : ∀ j, g.role j = .idle) (hown : g.own = none)
    (htrigger : s.hub.trigger = 0)
    (hcur : cur = g.cur ∨ g.excl = true ∧ g.dmaWritten = true)
    (hdir : DirWrite { g with txn := .memoryWrite, cur := cur }
      { s.hub with requests := 0, responses := {.MEMORY_WB}, memory := d }) :
    StepOK P g s (now, .memory (.write d)) := by
  have hrequests : s.requestToMemory = {.write d} := hrequests
  have hresponses : s.responseFromMemory = 0 := hresponses
  refine ⟨{ g with txn := .memoryWrite, cur := cur }, a,
    { s with requestToMemory := 0, responseFromMemory := {.MEMORY_WB}, memory := d }, ?_,
    ⟨h.of, fun j => ?_, ?_, h.writes⟩, ⟨[], (List.append_nil _).symm, ?_⟩, rfl⟩
  · simp [step, hrequests, hresponses]
    rfl
  · refine (h.party j).passive (.inl (hidle j)) rfl (fun hheld => ?_) (.inl (hquiet j).probe)
      (fun h => by cases h) fun _ h => by cases h
    rw [hown] at hheld ⊢
    rcases hcur with rfl | ⟨hexcl, -⟩
    · exact hheld.of_mem (.inl (by simp))
    · rw [hheld.eq_zero hexcl (by simp)]
      exact Held.zero (by simp)
  · exact ⟨hquiet, hidle, htrigger, hown, hdir⟩
  · rcases hcur with rfl | ⟨-, hw⟩
    · exact .inl (.inl ⟨rfl, rfl⟩)
    · exact .inr ⟨rfl, hw⟩

/-- The memory performs a request. -/
theorem step_perform (h : Inv g a s) (q : MemoryRequest ι L) : StepOK P g s (now, .memory q) := by
  by_cases hq : q ∈ s.hub.requests
  case neg =>
    refine .refl h ?_
    have hq : q ∉ s.requestToMemory := hq
    simp only [step, if_neg hq]
    rfl
  case pos =>
  have hno (hmemory : MemIdle s.hub) : StepOK P g s (now, .memory q) := by
    rw [hmemory.1] at hq
    exact absurd hq (Multiset.notMem_zero q)
  have hglobal := h.dir
  unfold Global at hglobal
  cases htxn : g.txn with rw [htxn] at hglobal
  | idle => exact hno hglobal.2.2.2.1
  | close r => exact hno hglobal.2.2.2.1
  | feed J φ pending => exact hno hglobal.2.1
  | dmaWrite => exact hno hglobal.2.2.1
  | writeBack i => exact hno hglobal.2.2.2.1
  | serve r x τ φ =>
    obtain ⟨hsignals, htrigger, J, d, hserve, hrJ, hroles⟩ := hglobal
    cases hserve with
    | owned k hown hd hmemory | clean hx hown hd hmemory => exact hno hmemory
    | fetch t st hd hst hacks hsilent hown hfetch hmem htype =>
      obtain ⟨rfl, hrequests, hresponses⟩ := hfetch.of_mem hq
      refine step_read h hrequests hresponses ?_
      unfold Global
      rw [htxn]
      have hmem : s.memory = g.cur := hmem
      exact ⟨hsignals, htrigger, _, _, .fetch t st hd hst hacks hsilent hown
        (.inr ⟨rfl, by rw [hmem]⟩) hmem htype, hrJ, hroles⟩
  | dmaRead seen =>
    obtain ⟨hsignals, hidle, hseen, t, hread, hsharers, howned, hcount⟩ := hglobal
    cases hread with
    | fetched st hst hd hown hmemory | owner hst hd hmemory => exact hno hmemory
    | fetch st hst hd hown hmem hfetch hdirty htrigger htype hcalm =>
      obtain ⟨rfl, hrequests, hresponses⟩ := hfetch.of_mem hq
      refine step_read h hrequests hresponses ?_
      unfold Global
      rw [htxn]
      have hmem : s.memory = g.cur := hmem
      exact ⟨hsignals, hidle, hseen, t, .fetch st hst hd hown hmem (.inr ⟨rfl, by rw [hmem]⟩)
        hdirty htrigger htype hcalm, hsharers, howned, hcount⟩
  | memoryWrite =>
    obtain ⟨hquiet, hidle, htrigger, hown, hwrite⟩ := hglobal
    cases hwrite with
    | shared hd hw =>
      obtain ⟨rfl, hrequests, hresponses⟩ := hw.of_mem hq
      exact step_write g.cur h hrequests hresponses hquiet hidle hown htrigger (.inl rfl)
        (.shared hd (.inr ⟨rfl, rfl, rfl⟩))
    | exclusive hd hexcl hw =>
      obtain ⟨rfl, hrequests, hresponses⟩ := hw.of_mem hq
      exact step_write g.cur h hrequests hresponses hquiet hidle hown htrigger (.inl rfl)
        (.exclusive hd hexcl (.inr ⟨rfl, rfl, rfl⟩))
    | dma t hst hd hexcl hwritten d hw =>
      obtain ⟨rfl, hrequests, hresponses⟩ := hw.of_mem hq
      exact step_write d h hrequests hresponses hquiet hidle hown htrigger
        (.inr ⟨hexcl, hwritten⟩) (.dma t hst hd hexcl hwritten d (.inr ⟨rfl, rfl, rfl⟩))

/-! ## All steps -/

/-- A core gives the block up with a flush. -/
def Act.flushes : Act ι L → Bool
  | .issue _ r => r.type = .FLUSH
  | _ => false

/-- The DMA controller writes the block. -/
def Act.dmaWrites : Act ι L → Bool
  | .issueDma m => m ≠ .READ
  | _ => false

/-- Every step but a flush keeps the invariant. -/
theorem step_ok (h : Inv g a s) (hn : 1 < Fintype.card ι) (hP : P.cfg = ⟨false, false⟩)
    (e : ℕ × Act ι L) (hflush : e.2.flushes = false)
    (hw : e.2.dmaWrites = true → g.dmaWritten = true) : StepOK P g s e := by
  obtain ⟨now, act⟩ := e
  cases act with
  | issue i r => exact step_issue h (of_decide_eq_false hflush)
  | demand i d => exact step_demand h d
  | deliver i m => exact step_deliver h hn m
  | replacePf m =>
    refine .refl h ?_
    simp [step, hP]
    rfl
  | issueDma m =>
    refine step_issueDma h ?_
    by_cases hm : m = .READ
    · exact .inl hm
    · exact .inr (hw (decide_eq_true hm))
  | memory q => exact step_perform h q
  | deliverDir m =>
    by_cases hm : s.holds m = true
    case neg =>
      refine .refl h ?_
      simp [step, hm]
      rfl
    case pos =>
    cases m with
    | trigger t => exact step_dirTrigger h hP hm
    | unblock i m => exact step_unblock h hn hP hm
    | response i m => exact step_answer h hP hm
    | memory m => exact step_memory h hP hm
    | request i m => exact step_request h hn hP hm
    | dma m => exact step_dma h hn hP hm

/-- The invariant holds at the start. -/
theorem inv_init (kind : ι → Kind) (d : DataBlock L) (w : Bool) :
    Inv ⟨.idle, fun _ => .idle, none, true, d, w⟩ (fun _ => {}) (Sys.init kind d) := by
  refine ⟨fun j => ?_, fun j => ?_, ?_, fun m hm => absurd hm (Multiset.notMem_zero m)⟩
  · refine ⟨?_, rfl, rfl, rfl, rfl, rfl, rfl⟩
    cases hk : kind j with
    | cpu =>
      simp only [Sys.init, hk]
      exact .absent (.inr ⟨rfl, rfl⟩)
    | gpu =>
      simp only [Sys.init, hk]
      exact ⟨.absent, rfl⟩
  · refine .of_rest (by simp) ⟨⟨rfl, rfl⟩, ?_⟩ ?_ nofun nofun nofun
    · exact .rest rfl ⟨rfl, rfl, rfl⟩
    · exact Held.zero (by simp)
  · exact ⟨fun j => ⟨rfl, rfl, rfl, by simp [Party.signal]⟩, fun j => rfl, rfl, ⟨rfl, rfl⟩,
      .E rfl rfl rfl rfl⟩

/-- A run without a flush has no fault, and the invariant holds for every block at its
end. -/
theorem run_ok {β : Type} [DecidableEq β] (hn : 1 < Fintype.card ι) (hP : P.cfg = ⟨false, false⟩)
    (es : List (β × ℕ × Act ι L)) (hflush : ∀ e ∈ es, e.2.2.flushes = false) {S : β → Sys ι L}
    (h : ∀ b, ∃ g a, Inv g a (S b) ∧ g.dmaWritten = true) :
    ∃ S', run (stepBlocks P) S es = .ok S' ∧ ∀ b, ∃ g a, Inv g a (S' b) ∧ g.dmaWritten = true := by
  induction es generalizing S with
  | nil => exact ⟨S, rfl, h⟩
  | cons e es ih =>
    obtain ⟨g, a, hinv, hw⟩ := h e.1
    obtain ⟨g', a', s', hs, hinv', hev⟩ := step_ok hinv hn hP e.2 (hflush e List.mem_cons_self)
      (fun _ => hw)
    have hstep : stepBlocks P S e = .ok (update S e.1 s') := by
      rw [stepBlocks, hs]
      rfl
    obtain ⟨S', hrun, hS'⟩ := ih (fun e he => hflush e (List.mem_cons_of_mem _ he))
      (S := update S e.1 s') (fun b => by
        by_cases hb : b = e.1
        · subst hb
          rw [update_self]
          exact ⟨g', a', hinv', hev.written.trans hw⟩
        · rw [update_of_ne hb]
          exact h b)
    refine ⟨S', ?_, hS'⟩
    rw [run, hstep]
    exact hrun

/-- The invariant holds after every run without a flush, and there is no fault. -/
theorem run_inv {β : Type} [DecidableEq β] (hn : 1 < Fintype.card ι) (hP : P.cfg = ⟨false, false⟩)
    (kind : ι → Kind) (d : β → DataBlock L) (es : List (β × ℕ × Act ι L))
    (hflush : ∀ e ∈ es, e.2.2.flushes = false) :
    ∃ S, run (stepBlocks P) (fun b => Sys.init kind (d b)) es = .ok S ∧
      ∀ b, ∃ g a, Inv g a (S b) := by
  obtain ⟨S, hrun, hS⟩ := run_ok hn hP es hflush fun b => ⟨_, _, inv_init kind (d b) true, rfl⟩
  exact ⟨S, hrun, fun b => (hS b).imp fun g hg => hg.imp fun a ha => ha.1⟩

end Gem5Gpu.VIHammer
