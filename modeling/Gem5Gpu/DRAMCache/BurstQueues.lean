import Gem5Gpu.DRAMCache.Faults
import Gem5Gpu.Lib.Index

/-!
# The queues of bursts

The controller keeps the bursts of writes and of fills in two queues, with a set of the bursts
that each of them holds.  `BurstQueues` is what is true of these parts in every state: each set
mirrors its queue, and while the bus is on its way to writes or does them, one of the queues has
a burst.  Every piece of a handler keeps it (`Micro.queuesOK`).

Two things follow.  The sets agree with the queues, so that a read finds every burst that is
queued for it; the assertions on the sizes of the fill queue and its set never fail, and those of
the write queue do not as long as no write is accepted while a write of the same block is queued.
And there always is a burst to serve, so that `chooseNext` never sees an empty queue.
-/

namespace Gem5Gpu.DRAMCache

open Mem Lib

variable {c : Config} {e : Event} {up : Upstream} {s s' s₀ : State} {r : TimingReq} {φ φ' : Phase}
  {m : ℕ} {w : Bool} {index : MSHRQueueIndex} {choice : Option ℕ} {ifq ifq' : List (ℕ × ℕ)}
  {fq fq' : List FillPacket} {s₁ : State} {b : BusState}

/-! ## The invariant -/

/-- The entry of a burst of a write in `isInWriteQueue`. -/
def DRAMPacket.key (p : DRAMPacket) : ℕ × ℕ := (p.pkt.addr, p.addr)

/-- The entry of a burst of a fill in `isInFillQueue`. -/
def FillPacket.key (p : FillPacket) : ℕ × ℕ := (p.requestAddr, p.addr)

/-- The sets mirror the queues, and a bus that turns to writes has one to do. -/
structure BurstQueues (writeQueue : List DRAMPacket) (isInWriteQueue : List (ℕ × ℕ))
    (fillQueue : List FillPacket) (isInFillQueue : List (ℕ × ℕ)) (bus : BusState) : Prop where
  writes : Indexes DRAMPacket.key writeQueue isInWriteQueue
  fills : Indexes FillPacket.key fillQueue isInFillQueue
  busy : bus.Writes → writeQueue ≠ [] ∨ fillQueue ≠ []

def State.QueuesOK (s : State) : Prop :=
  BurstQueues s.writeQueue s.isInWriteQueue s.fillQueue s.isInFillQueue s.busState

theorem State.init_queuesOK (c : Config) (store : ℕ → Data) : (State.init c store).QueuesOK where
  writes := .nil
  fills := .nil
  busy h := by rcases h with h | h <;> cases h

/-! ## What the pieces do to the queues -/

theorem Recv.queuesOK (h : Recv c s r s') (hs : s.QueuesOK) : s'.QueuesOK := by
  cases h with
  | writeQueued _ _ _ hindex =>
    have hs : BurstQueues _ _ _ _ _ := hs
    have hwrites : Indexes DRAMPacket.key (s.writeQueue ++ [⟨s.newPacket r, c.dramAddr r.addr⟩,
        ⟨s.newPacket r, c.dramAddr r.addr + 1⟩]) _ := hs.writes.insert_two hindex
    exact ⟨hwrites, hs.fills, fun _ => .inl (by simp)⟩
  | _ => exact hs

theorem Retried.queuesOK (h : Retried c up s s') (hs : s.QueuesOK) : s'.QueuesOK :=
  h.keeps (P := State.QueuesOK) hs fun _ _ _ h => h.queuesOK hs

theorem AddsFill.mirrors {addr burst : ℕ}
    (h : AddsFill addr burst fq ifq fq' ifq') (hs : Indexes FillPacket.key fq ifq) :
    Indexes FillPacket.key fq' ifq' ∧ (fq ≠ [] → fq' ≠ []) := by
  cases h with
  | merged => exact ⟨hs, id⟩
  | queued hnew =>
    have hpush : Indexes FillPacket.key (fq ++ [⟨addr, burst⟩]) _ := hs.push hnew
    exact ⟨hpush, fun _ => by simp⟩

theorem QueuesFill.mirrors {addr : ℕ}
    (h : QueuesFill c addr fq ifq fq' ifq') (hs : Indexes FillPacket.key fq ifq) :
    Indexes FillPacket.key fq' ifq' ∧ (fq ≠ [] → fq' ≠ []) := by
  cases h with
  | dropped => exact ⟨hs, id⟩
  | queued _ h₁ h₂ =>
    obtain ⟨hs₁, hne₁⟩ := h₁.mirrors hs
    obtain ⟨hs₂, hne₂⟩ := h₂.mirrors hs₁
    exact ⟨hs₂, fun hne => hne₂ (hne₁ hne)⟩

theorem BurstQueues.fill {addr : ℕ} {wq : List DRAMPacket} {iwq : List (ℕ × ℕ)}
    (hs : BurstQueues wq iwq fq ifq b)
    (h : QueuesFill c addr fq ifq fq' ifq') : BurstQueues wq iwq fq' ifq' b := by
  obtain ⟨hfills, hne⟩ := h.mirrors hs.fills
  exact ⟨hs.writes, hfills, fun hb => (hs.busy hb).imp_right hne⟩

theorem Fills.queuesOK {addr ctx : ℕ} (h : Fills c s addr ctx s') (hs : s.QueuesOK) :
    s'.QueuesOK := by
  cases h with
  | skipped => exact hs
  | clean fq ifq _ _ hfill | dirty m q fq ifq _ _ _ _ _ hfill => exact BurstQueues.fill hs hfill

theorem FillsOnResp.queuesOK {p : MemPacket} (h : FillsOnResp c s p s') (hs : s.QueuesOK) :
    s'.QueuesOK :=
  h.keeps (P := State.QueuesOK) hs fun h => h.queuesOK hs

theorem Freed.queuesOK (h : Freed s index m w s') (hs : s.QueuesOK) : s'.QueuesOK := by
  cases h <;> cases index <;> exact hs

theorem Wakes.queuesOK (h : Wakes s e s') (hs : s.QueuesOK) : s'.QueuesOK := by
  cases h <;> exact hs

/-- Every piece of a handler keeps the queues in order. -/
theorem Micro.queuesOK (h : Micro c e s₀ φ s φ' s') (hs : s.QueuesOK) : s'.QueuesOK := by
  have hq : BurstQueues s.writeQueue s.isInWriteQueue s.fillQueue s.isInFillQueue s.busState := hs
  cases h with
  | request r _ h | retryWrite _ h | retryRead _ h | retryCache _ _ _ h
  | pamDoneHit _ _ _ _ _ _ _ _ h | pamHit _ _ _ _ _ _ _ _ h | sendNothing h | sendRefused _ _ h
  | sentMiss _ _ _ _ h | sentWrite _ _ _ _ h | writeAnswered _ _ _ _ _ h
  | pamAnswered _ _ _ _ _ _ h | filled _ h => exact h.queuesOK hs
  | bus b w d hb | serveRead b w d i p _ hb =>
    exact ⟨hq.writes, hq.fills, fun h => (hb h).elim hq.busy id⟩
  | serveWrite b w d i p hp hb => exact ⟨hq.writes.erase hp, hq.fills, hb⟩
  | serveFill b w d i p hp hb => exact ⟨hq.writes, hq.fills.erase hp, hb⟩
  | pamDoneMiss _ _ _ _ _ _ _ _ hfill hfree | readAnswered _ _ _ _ _ _ hfill hfree =>
    exact hfree.queuesOK (hfill.queuesOK hs)
  | _ => exact hs

theorem Reaches.queuesOK {ok : State → Event → Prop} (h : Reaches c ok s) : s.QueuesOK :=
  h.invariant (I := fun _ s => s.QueuesOK) (State.init_queuesOK c) (fun _ hs => hs)
    fun _ _ _ _ _ _ _ hs hmicro => hmicro.queuesOK hs

/-! ## The sets of queued bursts -/

/-- A write is accepted only when none of its bursts is queued. -/
def Unqueued (c : Config) (s : State) (r : TimingReq) : Prop :=
  AcceptsWrite c s r → (r.addr, c.dramAddr r.addr) ∉ s.isInWriteQueue ∧
    (r.addr, c.dramAddr r.addr + 1) ∉ s.isInWriteQueue

/-- The assertion on the set of queued writes, when the writes that a step accepts are for blocks
that have no write queued. -/
theorem State.QueuesOK.step_ne_writeIndex (hs : s.QueuesOK) (hask : Demands (Unqueued c) s e) :
    step c s e ≠ .error .writeQueueIndexSize := by
  refine step_ne_error (I := fun _ s => s.QueuesOK) hs (fun _ _ _ _ hs h => h.queuesOK hs) ?_
  intro φ s₁ hs₁ hfails
  have hlen := Indexes.length_eq (BurstQueues.writes hs₁)
  cases hfails with
  | writeIndex r hr hclash =>
    obtain ⟨s₂, hr, hqueues, hsame⟩ := hr
    have hfree : Unqueued c s₂ r := by
      rcases hr with ⟨rfl, rfl⟩ | hr
      · exact hask.request r rfl
      · exact hask.reaction s₂ r hr
    have hfree := hfree (hqueues hclash.1)
    rw [hsame] at hfree
    exact (hclash.2 hlen).elim hfree.1 hfree.2
  | other hother => cases hother

/-- The assertion on the set of queued fills. -/
theorem State.QueuesOK.step_ne_fillIndex (hs : s.QueuesOK) :
    step c s e ≠ .error .fillQueueIndexSize := by
  refine step_ne_error (I := fun _ s => s.QueuesOK) hs (fun _ _ _ _ hs h => h.queuesOK hs) ?_
  intro φ s₁ hs₁ hfails
  have hfills : Indexes _ _ _ := BurstQueues.fills hs₁
  cases hfails with
  | fillIndex hne => exact hne hfills.length_eq
  | fillServed i p hp hne =>
    refine hne hfills.length_eq ((Indexes.mem_iff hfills).2 ⟨p, ?_, rfl⟩)
    exact List.mem_of_getElem? hp
  | other hother => cases hother

/-- A read is serviced from a queue exactly when its burst is queued there. -/
theorem State.QueuesOK.burstIsQueued_iff (hs : s.QueuesOK) (addr burst : ℕ) :
    burstIsQueued s addr burst = true ↔ (∃ p ∈ s.writeQueue, p.pkt.addr = addr ∧ p.addr = burst) ∨
        ∃ p ∈ s.fillQueue, p.requestAddr = addr ∧ p.addr = burst := by
  have hw : (addr, burst) ∈ s.isInWriteQueue ↔ _ := Indexes.mem_iff (BurstQueues.writes hs)
  have hf : (addr, burst) ∈ s.isInFillQueue ↔ _ := Indexes.mem_iff (BurstQueues.fills hs)
  simp only [DRAMPacket.key, Prod.mk.injEq] at hw
  simp only [FillPacket.key, Prod.mk.injEq] at hf
  simp only [burstIsQueued, Bool.or_eq_true, Bool.and_eq_true, decide_eq_true_eq, hw, hf,
    List.any_eq_true, beq_iff_eq]
  constructor
  · rintro (⟨h, -⟩ | ⟨h, -⟩)
    · exact .inl h
    · exact .inr h
  · rintro (⟨p, hp, ha, hb⟩ | ⟨p, hp, ha, hb⟩)
    · exact .inl ⟨⟨p, hp, ha, hb⟩, p, hp, hb⟩
    · exact .inr ⟨⟨p, hp, ha, hb⟩, p, hp, hb⟩

/-- The sets hold exactly the bursts of the queues, in every state of every run in which no write
is accepted while a write of the same block is queued; the assertions on their sizes do not fail,
and a read is serviced from a queue whenever its burst is queued there. -/
theorem queue_sets_mirror_queues (h : Reaches c (Demands (Unqueued c)) s) :
    (∀ addr burst, (addr, burst) ∈ s.isInWriteQueue ↔
        ∃ p ∈ s.writeQueue, p.pkt.addr = addr ∧ p.addr = burst) ∧
      (∀ addr burst, (addr, burst) ∈ s.isInFillQueue ↔
        ∃ p ∈ s.fillQueue, p.requestAddr = addr ∧ p.addr = burst) ∧
      s.writeQueue.length = s.isInWriteQueue.length ∧
      s.fillQueue.length = s.isInFillQueue.length ∧
      (∀ e, Demands (Unqueued c) s e → step c s e ≠ .error .writeQueueIndexSize ∧
        step c s e ≠ .error .fillQueueIndexSize) ∧
      ∀ addr burst, burstIsQueued s addr burst = true ↔
        (∃ p ∈ s.writeQueue, p.pkt.addr = addr ∧ p.addr = burst) ∨
          ∃ p ∈ s.fillQueue, p.requestAddr = addr ∧ p.addr = burst := by
  have hs := h.queuesOK
  have hw : Indexes DRAMPacket.key s.writeQueue s.isInWriteQueue := hs.writes
  have hf : Indexes FillPacket.key s.fillQueue s.isInFillQueue := hs.fills
  refine ⟨fun addr burst => ?_, fun addr burst => ?_, hw.length_eq, hf.length_eq,
    fun e hask => ⟨hs.step_ne_writeIndex hask, hs.step_ne_fillIndex⟩, hs.burstIsQueued_iff⟩
  · rw [hw.mem_iff]
    simp [DRAMPacket.key]
  · rw [hf.mem_iff]
    simp [FillPacket.key]

namespace Scenario

/-- The GPU writes block 0. -/
def oneWrite : State := State.ofRun config blank [.recvTimingReq (gpuWrite 0)]

theorem oneWrite_reaches : Reaches config (Demands (Unqueued config)) oneWrite := by
  refine reaches_ofRun ⟨demands_recvTimingReq fun _ => ?_, ?_⟩ (by decide +kernel)
  · exact ⟨List.not_mem_nil, List.not_mem_nil⟩
  · split <;> trivial

end Scenario

open Scenario in
/-- Both bursts of a write are queued, and in the set. -/
theorem oneWrite_sets_mirror_queues : oneWrite.writeQueue.length = 2 ∧
      (∀ addr burst, (addr, burst) ∈ oneWrite.isInWriteQueue ↔
        ∃ p ∈ oneWrite.writeQueue, p.pkt.addr = addr ∧ p.addr = burst) :=
  ⟨by decide +kernel, (queue_sets_mirror_queues oneWrite_reaches).1⟩

open Scenario in
/-- A second write of the block fails the assertion: its bursts are in the set already, which stays
as large as it was. -/
theorem second_write_breaks_set : Reaches config (fun _ _ => True) oneWrite ∧
      step config oneWrite (.recvTimingReq (gpuWrite 0)) = .error .writeQueueIndexSize := by
  refine ⟨reaches_ofRun (meets_true _) (by decide +kernel), ?_⟩
  have h : Post (step config oneWrite (.recvTimingReq (gpuWrite 0))) (· = .writeQueueIndexSize)
      fun _ => False := by decide +kernel
  exact h.eq_error

/-! ## Something to serve -/

/-- There is a burst for `chooseNext`, and the choice between the two queues succeeds. -/
theorem State.QueuesOK.step_serves (hs : s.QueuesOK) :
    step c s e ≠ .error .chooseNextEmpty ∧ step c s e ≠ .error .noQueueToServe := by
  constructor
  · refine step_ne_error (I := fun _ s => s.QueuesOK) hs (fun _ _ _ _ hs h => h.queuesOK hs) ?_
    intro φ s₁ hs₁ hfails
    cases hfails with
    | nothingToServe hbus hwrites hfills => exact (hs.busy hbus).elim (· hwrites) (· hfills)
    | other hother => cases hother
  · refine step_ne_error (I := fun _ s => s.QueuesOK) hs (fun _ _ _ _ hs h => h.queuesOK hs) ?_
    intro φ s₁ hs₁ hfails
    cases hfails with
    | other hother => cases hother

/-- A call of `processNextReqEvent` serves at most one packet, before it may ask for a retry. -/
theorem processNextReqEvent_servesOne {busy : Bool}
    (h : processNextReqEvent c up s busy choice = .ok s') :
    ∃ s₁, ServesOne s s₁ ∧
      (s' = s₁ ∨ sendRetryReq c up { s₁ with retryWrReq := false } = .ok s') := by
  unfold processNextReqEvent at h
  split at h
  · cases h
    exact ⟨s, .none rfl rfl rfl rfl rfl, .inl rfl⟩
  · obtain ⟨⟨goesOn, s₁⟩, hserve, h⟩ := bind_eq_ok h
    refine ⟨s₁, (serve_spec (e := .drain) hserve).2, ?_⟩
    simp only at h
    split at h
    · exact .inr h
    · cases h
      exact .inl rfl

/-- In every state of every run a bus that is on its way to writes, or does them, has a burst to
serve, so that `chooseNext` never sees an empty queue and the choice between writes and fills
succeeds; and a call of `processNextReqEvent` takes at most one packet from the queues. -/
theorem bus_has_burst_to_serve (h : Reaches c (fun _ _ => True) s) :
    (s.busState = .readToWrite ∨ s.busState = .write → s.writeQueue ≠ [] ∨ s.fillQueue ≠ []) ∧
      (∀ e, step c s e ≠ .error .chooseNextEmpty ∧ step c s e ≠ .error .noQueueToServe) ∧
      ∀ up busy choice s', processNextReqEvent c up s busy choice = .ok s' → ∃ s₁, ServesOne s s₁ ∧
          (s' = s₁ ∨ sendRetryReq c up { s₁ with retryWrReq := false } = .ok s') := by
  have hs := h.queuesOK
  exact ⟨hs.busy, fun _ => hs.step_serves, fun _ _ _ _ => processNextReqEvent_servesOne⟩

open Scenario in
/-- The bus turns to the write of block 0. -/
theorem oneWrite_has_burst_to_serve :
    let s := State.ofRun config blank [.recvTimingReq (gpuWrite 0), serveNext]
    s.busState = .readToWrite ∧ (s.writeQueue ≠ [] ∨ s.fillQueue ≠ []) := by
  have hbus : (State.ofRun config blank [.recvTimingReq (gpuWrite 0), serveNext]).busState
      = .readToWrite := by decide +kernel
  exact ⟨hbus, (bus_has_burst_to_serve (c := config)
    (reaches_ofRun (meets_true _) (by decide +kernel))).1 (.inl hbus)⟩

end Gem5Gpu.DRAMCache
