import Gem5Gpu.DRAMCache.BypassTags

/-!
# The end of a drain

The simulator asks the controller to drain, and the controller answers at once that it is
drained (`drain`), or reports later that it is done (`signalDrainDone`).  `ReportsDrained` lists
the four places at which this happens, each with the state at that moment: `drain` itself, and
three handlers.  Two of the handlers go on and may send a retry afterwards, which is why the state
at the moment of the report is not always the one in which the handler ends.

`processNextReqEvent` looks at all five queues of bursts.  The other three places do not look at
the fills that are queued, so these have to be done before the step, and the step may not install
a block (`Micro.fillQueue_nil`).
-/

namespace Gem5Gpu.DRAMCache

open Mem Lib

variable {c : Config} {e : Event} {s s' s₀ s₁ : State} {φ φ' : Phase} {choice : Option ℕ}
  {goesOn : Bool}

/-- The first part of `processRespondHelper`: the burst leaves the queue, and the end of a drain
is reported. -/
def State.popRead (s : State) : State :=
  let s := { s with respQueue := s.respQueue.tail }
  signalDrainDone s (s.respQueue.isEmpty && s.writeQueue.isEmpty && s.readQueue.isEmpty &&
    s.dramPktWriteRespQueue.isEmpty)

/-- The last part of `processWriteRespondEvent`. -/
def State.popWrite (s : State) : State :=
  let s := { s with dramPktWriteRespQueue := s.dramPktWriteRespQueue.tail }
  signalDrainDone s (s.dramPktWriteRespQueue.isEmpty && s.writeQueue.isEmpty &&
    s.readQueue.isEmpty && s.respQueue.isEmpty)

/-- The places at which a step reports that the controller is drained, with the state at that
moment. -/
inductive ReportsDrained (c : Config) (s : State) : Event → State → Prop
  | drain (h : (drain s).drainState = .drained) : ReportsDrained c s .drain (drain s)
  | nextReq (choice : Option ℕ) (up : Upstream) {goesOn : Bool} {s₁ : State}
      (hserve : serve c (turnBus s) choice = .ok (goesOn, s₁))
      (hdraining : s.drainState = .draining) (h : s₁.drainState = .drained) :
      ReportsDrained c s (.processNextReqEvent false choice up) s₁
  | respond (up : Upstream) (p : DRAMPacket) (rest : List DRAMPacket) {s₁ : State}
      (hfront : s.respQueue = p :: rest)
      (hserve : serviceRead c up (s.serviceBurst p.pkt) p.pkt = .ok s₁)
      (hdraining : s₁.drainState = .draining) (h : s₁.popRead.drainState = .drained) :
      ReportsDrained c s (.processRespondEvent up) s₁.popRead
  | writeRespond (p : DRAMPacket) (rest : List DRAMPacket) {s₁ : State}
      (hfront : s.dramPktWriteRespQueue = p :: rest)
      (hserve : serviceWrite c (s.serviceBurst p.pkt) p.pkt = .ok s₁)
      (hdraining : s₁.drainState = .draining) (h : s₁.popWrite.drainState = .drained) :
      ReportsDrained c s .processWriteRespondEvent s₁.popWrite

/-- All queues of bursts are empty. -/
structure State.BurstsDone (s : State) : Prop where
  reads : s.readQueue = []
  writes : s.writeQueue = []
  fills : s.fillQueue = []
  responses : s.respQueue = []
  served : s.dramPktWriteRespQueue = []

/-- A report of the end of a drain is made only if the handler sees nothing to do. -/
theorem signalDrainDone_drained {done : Bool} (hdraining : s.drainState = .draining)
    (h : (signalDrainDone s done).drainState = .drained) : done := by
  cases done with
  | true => rfl
  | false =>
    have hsame : (signalDrainDone s false).drainState = s.drainState := by simp [signalDrainDone]
    rw [hsame, hdraining] at h
    cases h

theorem signalDrainDone_queues (s : State) (done : Bool) :
    (signalDrainDone s done).readQueue = s.readQueue ∧
      (signalDrainDone s done).writeQueue = s.writeQueue ∧
      (signalDrainDone s done).fillQueue = s.fillQueue ∧
      (signalDrainDone s done).respQueue = s.respQueue ∧
      (signalDrainDone s done).dramPktWriteRespQueue = s.dramPktWriteRespQueue := by
  obtain ⟨d, hd⟩ := signalDrainDone_eq s done
  rw [hd]
  exact ⟨rfl, rfl, rfl, rfl, rfl⟩

theorem drain_drained (h : (drain s).drainState = .drained) (hfills : s.fillQueue = []) :
    (drain s).BurstsDone := by
  unfold drain at h ⊢
  split at h
  · rename_i hempty
    rw [if_pos hempty]
    simp only [Bool.and_eq_true, List.isEmpty_iff] at hempty
    exact ⟨hempty.1.1.2, hempty.1.1.1, hfills, hempty.1.2, hempty.2⟩
  · cases h

theorem popRead_drained (hdraining : s.drainState = .draining)
    (h : s.popRead.drainState = .drained) (hfills : s.fillQueue = []) :
    s.popRead.BurstsDone := by
  have hdone := signalDrainDone_drained (s := { s with respQueue := s.respQueue.tail }) hdraining h
  simp only [Bool.and_eq_true, List.isEmpty_iff] at hdone
  obtain ⟨hr, hw, hf, hp, hs⟩ := signalDrainDone_queues { s with respQueue := s.respQueue.tail }
    (s.respQueue.tail.isEmpty && s.writeQueue.isEmpty && s.readQueue.isEmpty &&
      s.dramPktWriteRespQueue.isEmpty)
  exact ⟨hr.trans hdone.1.2, hw.trans hdone.1.1.2, hf.trans hfills, hp.trans hdone.1.1.1,
    hs.trans hdone.2⟩

theorem popWrite_drained (hdraining : s.drainState = .draining)
    (h : s.popWrite.drainState = .drained) (hfills : s.popWrite.fillQueue = []) :
    s.popWrite.BurstsDone := by
  have hdone := signalDrainDone_drained
    (s := { s with dramPktWriteRespQueue := s.dramPktWriteRespQueue.tail }) hdraining h
  simp only [Bool.and_eq_true, List.isEmpty_iff] at hdone
  obtain ⟨hr, hw, -, hp, hs⟩ := signalDrainDone_queues
    { s with dramPktWriteRespQueue := s.dramPktWriteRespQueue.tail }
    (s.dramPktWriteRespQueue.tail.isEmpty && s.writeQueue.isEmpty && s.readQueue.isEmpty &&
      s.respQueue.isEmpty)
  exact ⟨hr.trans hdone.1.2, hw.trans hdone.1.1.2, hfills, hp.trans hdone.2, hs.trans hdone.1.1.1⟩

/-- While the controller drains, the read branch turns to writes as long as a write or a fill is
queued. -/
theorem serveRead_drained (hserve : serveRead c s choice = (goesOn, s₁))
    (hdraining : s.drainState = .draining) (h : s₁.drainState = .drained) : s₁.BurstsDone := by
  have hkeep : ∀ {s₂ : State}, s₂.drainState = s.drainState → s₂ ≠ s₁ := by
    rintro s₂ hsame rfl
    rw [hsame, hdraining] at h
    cases h
  simp only [serveRead] at hserve
  split at hserve
  · rename_i hreads
    split at hserve
    · exact absurd (congrArg Prod.snd hserve) (hkeep rfl)
    · rename_i hstay
      simp only [hdraining, decide_true, Bool.true_or, Bool.and_true, decide_eq_true_eq, ne_eq,
        not_not] at hstay
      cases hserve
      obtain ⟨hr, hw, hf, hp, hs⟩ := signalDrainDone_queues s
        (s.respQueue.isEmpty && s.dramPktWriteRespQueue.isEmpty)
      have hdone := signalDrainDone_drained hdraining h
      simp only [Bool.and_eq_true, List.isEmpty_iff] at hdone
      have hwrites : s.writeQueue = [] := List.length_eq_zero_iff.1 (by omega)
      have hfills : s.fillQueue = [] := List.length_eq_zero_iff.1 (by omega)
      exact ⟨hr.trans hreads, hw.trans hwrites, hf.trans hfills, hp.trans hdone.1, hs.trans hdone.2⟩
  · split at hserve
    · exact absurd (congrArg Prod.snd hserve) (hkeep rfl)
    · split at hserve
      · exact absurd (congrArg Prod.snd hserve) (hkeep rfl)
      · exact absurd (congrArg Prod.snd hserve) (hkeep rfl)

theorem serveWrite_drainState
    (h : serveWrite c s choice = .ok (goesOn, s₁)) : s₁.drainState = s.drainState := by
  obtain ⟨served, hserved, h⟩ := bind_eq_ok h
  have hone : ∀ s₂, served = some s₂ → s₂.drainState = s.drainState := by
    rintro s₂ rfl
    unfold serveWriteOrFill at hserved
    split at hserved
    · cases hnext : takeNext s.writeQueue choice with
      | none => simp [serveWriteBurst, hnext, pure, Except.pure] at hserved
      | some x =>
        simp only [serveWriteBurst, hnext, Option.bind_eq_bind, Option.bind_some, pure,
          Except.pure, Except.ok.injEq, Option.some.injEq] at hserved
        subst hserved
        rfl
    · split at hserved
      · obtain ⟨_, -, hserved⟩ := bind_eq_ok hserved
        split at hserved
        · cases hserved
        · obtain ⟨_, -, hserved⟩ := bind_eq_ok hserved
          cases hserved
          rfl
      · cases hserved
  cases served with
  | none =>
    cases h
    rfl
  | some s₂ =>
    simp only at h
    split at h
    · cases h
      exact hone s₂ rfl
    · cases h
      exact hone s₁ rfl

theorem serve_drained (hserve : serve c (turnBus s) choice = .ok (goesOn, s₁))
    (hdraining : s.drainState = .draining) (h : s₁.drainState = .drained) : s₁.BurstsDone := by
  obtain ⟨b, w, -, -, hturn⟩ := turnBus_eq s
  have hturn' : (turnBus s).drainState = .draining := by
    rw [hturn]
    exact hdraining
  unfold serve at hserve
  split at hserve
  · exact serveRead_drained (Except.ok.inj hserve) hturn' h
  · rw [serveWrite_drainState hserve, hturn'] at h
    cases h

/-! ## Fills -/

theorem Fills.fillQueue_nil {addr ctx : ℕ} (h : Fills c s addr ctx s') (hs : s.fillQueue = [])
    (hskip : skipsFill c s ctx ≠ false) : s'.fillQueue = [] := by
  cases h with
  | skipped => exact hs
  | clean _ _ h | dirty _ _ _ _ h => exact absurd h hskip

/-- A handler that installs no block leaves the queue of fills empty. -/
theorem Micro.fillQueue_nil (h : Micro c e s₀ φ s φ' s') (hno : s₀.installs c e = none)
    (hsince : φ.Since e s₀ s) (hs : s.fillQueue = []) : s'.fillQueue = [] := by
  have hfree : ∀ {s₁ s₂ : State} {index m w}, Freed s₁ index m w s₂ → s₁.fillQueue = [] →
      s₂.fillQueue = [] := by
    intro s₁ s₂ index m w h hs
    cases h <;> cases index <;> exact hs
  have hnot : ∀ a, ¬Installs c s₀ e a := by
    intro a h
    rw [h.installs_eq] at hno
    cases hno
  cases h with
  | request r _ h => cases h <;> exact hs
  | retryWrite _ h | retryRead _ h | retryCache _ _ _ h =>
    refine h.keeps (P := fun s => s.fillQueue = []) hs fun _ _ _ h => ?_
    cases h <;> exact hs
  | serveFill b w d i p hp =>
    rw [hs] at hp
    cases hp
  | pamDoneHit _ _ _ _ _ _ _ _ h | pamHit _ _ _ _ _ _ _ _ h | writeAnswered _ _ _ _ _ h
  | pamAnswered _ _ _ _ _ _ h => exact hfree h hs
  | pamDoneMiss pkt pr first rest hlast hdone hmiss htargets hfill h =>
    refine hfree h (hfill.fillQueue_nil hs fun hskip => ?_)
    exact hnot _ (.lookup pkt pr first rest hlast hdone hmiss htargets hskip)
  | sendNothing h | sendRefused _ _ h | sentMiss _ _ _ _ h | sentWrite _ _ _ _ h =>
    cases h <;> exact hs
  | readAnswered p w hqueue _ _ _ hfill h =>
    refine hfree h ?_
    cases hfill with
    | present => exact hs
    | fills habsent hfill =>
      exact hfill.fillQueue_nil hs fun hskip => hnot _ (.of_consuming hsince hqueue habsent hskip)
  | filled p hfill =>
    exact hfill.fillQueue_nil hs fun hskip => hnot _ (.of_filling hsince hskip)
  | _ => exact hs

theorem Micros.fillQueue_nil (h : Micros c e s (.start, s) (φ, s')) (hno : s.installs c e = none)
    (hs : s.fillQueue = []) : s'.fillQueue = [] := by
  have hend := h.invariant (I := fun φ s₁ => φ.Since e s s₁ ∧ s₁.fillQueue = []) ⟨trivial, hs⟩
    fun _ _ _ _ hs hmicro => ⟨hmicro.since hs.1, hmicro.fillQueue_nil hno hs.1 hs.2⟩
  exact hend.2

theorem serviceRead_fillQueue_nil {up : Upstream} {p : DRAMPacket} {rest : List DRAMPacket}
    (hfront : s.respQueue = p :: rest)
    (h : serviceRead c up (s.serviceBurst p.pkt) p.pkt = .ok s')
    (hno : s.installs c (.processRespondEvent up) = none) (hs : s.fillQueue = []) :
    s'.fillQueue = [] := by
  unfold serviceRead at h
  split at h
  · rename_i hcount
    have hlast : LastBurst (.processRespondEvent up) s p.pkt :=
      ⟨⟨up, rfl⟩, ⟨p.addr, rest, hfront⟩, by simpa [State.serviceBurst, dramPktCount] using hcount⟩
    exact (finishRead_micros hlast h).fillQueue_nil hno hs
  · cases h
    exact hs

theorem popWrite_fillQueue_nil {p : DRAMPacket} {rest : List DRAMPacket}
    (hfront : s.dramPktWriteRespQueue = p :: rest)
    (h : serviceWrite c (s.serviceBurst p.pkt) p.pkt = .ok s') (hs : s.fillQueue = []) :
    s'.popWrite.fillQueue = [] := by
  have hstep : step c s .processWriteRespondEvent = .ok s'.popWrite := by
    simp [step, processWriteRespondEvent, hfront, h, bind, Except.bind, pure, Except.pure,
      State.popWrite]
  exact (step_micros hstep).fillQueue_nil rfl hs

/-- When the controller reports that it is drained, its queues of bursts are empty, if no fill was
queued before the step and the step does not install a block; `processNextReqEvent` makes sure of
that itself. -/
theorem reports_drained_when_empty (h : ReportsDrained c s e s₁)
    (hfills : (∀ busy choice up, e ≠ .processNextReqEvent busy choice up) →
      s.fillQueue = [] ∧ s.installs c e = none) :
    s₁.readQueue = [] ∧ s₁.writeQueue = [] ∧ s₁.fillQueue = [] ∧ s₁.respQueue = [] ∧
      s₁.dramPktWriteRespQueue = [] := by
  have hdone : s₁.BurstsDone := by
    cases h with
    | drain h => exact drain_drained h (hfills (by simp)).1
    | nextReq choice up hserve hdraining h => exact serve_drained hserve hdraining h
    | respond up p rest hfront hserve hdraining h =>
      obtain ⟨hs, hno⟩ := hfills (by simp)
      exact popRead_drained hdraining h (serviceRead_fillQueue_nil hfront hserve hno hs)
    | writeRespond p rest hfront hserve hdraining h =>
      obtain ⟨hs, -⟩ := hfills (by simp)
      exact popWrite_drained hdraining h (popWrite_fillQueue_nil hfront hserve hs)
  exact ⟨hdone.reads, hdone.writes, hdone.fills, hdone.responses, hdone.served⟩

namespace Scenario

/-- The GPU writes block 0, the controller is asked to drain, and one burst of the write is left. -/
def drainingWrite : State :=
  State.ofRun config blank [.recvTimingReq (gpuWrite 0), .drain, serveNext, serveNext, serveNext,
    .processWriteRespondEvent]

theorem drainingWrite_last : ∃ p rest, drainingWrite.dramPktWriteRespQueue = p :: rest ∧
      Post (serviceWrite config (drainingWrite.serviceBurst p.pkt) p.pkt) (fun _ => False) fun s =>
        s.drainState = .draining ∧ s.popWrite.drainState = .drained := by
  have hne : drainingWrite.dramPktWriteRespQueue ≠ [] := by decide +kernel
  have h : ∀ p ∈ drainingWrite.dramPktWriteRespQueue.head?,
      Post (serviceWrite config (drainingWrite.serviceBurst p.pkt) p.pkt) (fun _ => False) fun s =>
        s.drainState = .draining ∧ s.popWrite.drainState = .drained := by
    decide +kernel
  obtain ⟨p, rest, hq⟩ := List.exists_cons_of_ne_nil hne
  exact ⟨p, rest, hq, h p (by rw [hq]; rfl)⟩

end Scenario

open Scenario in
/-- The drain ends with the last burst of the write, when all queues are empty. -/
theorem drainingWrite_reports : Reaches config (fun _ _ => True) drainingWrite ∧
      ∃ s₁, ReportsDrained config drainingWrite .processWriteRespondEvent s₁ ∧
        s₁.readQueue = [] ∧ s₁.writeQueue = [] ∧ s₁.fillQueue = [] ∧ s₁.respQueue = [] ∧
        s₁.dramPktWriteRespQueue = [] := by
  refine ⟨reaches_ofRun (meets_true _) (by decide +kernel), ?_⟩
  obtain ⟨p, rest, hfront, hlast⟩ := drainingWrite_last
  obtain ⟨s₁, hserve, hdraining, hdrained⟩ := hlast.exists_ok
  have hreport : ReportsDrained config drainingWrite .processWriteRespondEvent s₁.popWrite :=
    .writeRespond p rest hfront hserve hdraining hdrained
  exact ⟨_, hreport, reports_drained_when_empty hreport fun _ => ⟨by decide +kernel, rfl⟩⟩

open Scenario in
/-- The answer to a miss queues a fill.  The controller then says that it is drained, with both
bursts of the fill still queued. -/
theorem drained_with_fill_queued :
    ∃ s, Reaches config (fun _ _ => True) s ∧ ReportsDrained config s .drain (drain s) ∧
      (drain s).fillQueue.length = 2 := by
  refine ⟨State.ofRun config blank (fill 0 1),
    reaches_ofRun (meets_true _) (by decide +kernel), .drain (by decide +kernel),
    by decide +kernel⟩

end Gem5Gpu.DRAMCache
