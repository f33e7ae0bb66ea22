import Gem5Gpu.DRAMCache.SmallStep

/-!
# The wake-up of the memory-side port

The requests to the memory wait on the ready lists of the two queues, and one
event, `sendEvent`, makes the port look at them.  `schedSendEvent` moves the
event forward, except while the port waits for a retry: then the retry takes the
place of the event.

* `ready_is_scheduled` says when no wake-up is lost: as long as a request is on
  a ready list, the port waits for a retry, or its event comes no later than the
  request is ready and the next tick has begun.
* `sendDeferredPacket` schedules the next send only after it has sent something.
  When the port wakes up and finds that nothing is due, it goes back to sleep
  for good.  `FindsWork` excludes that.  The run of `ready_is_stranded` gets
  there by a retry for a request that has been freed in the meantime.
-/

namespace Gem5Gpu.DRAMCache

open Mem Lib

variable {c : Config} {e : Event} {up : Upstream} {s s' s₀ s₁ : State}
  {r : TimingReq} {φ φ' : Phase} {m : ℕ} {w : Bool} {p : MemPacket}

/-- A request that is ready at `t` will be looked at in time. -/
def Covered (waiting : Bool) (event : Option ℕ) (now t : ℕ) : Prop :=
  waiting = true ∨ ∃ u, event = some u ∧ u ≤ max t (now + 1)

/-- Every ready time of the two queues is covered. -/
def State.Awake (s : State) : Prop :=
  ∀ index, ∀ t ∈ s.each (·.readyTimes) index, Covered s.waitingOnRetry s.sendEvent s.curTick t

/-! ## Scheduling -/

theorem Covered.mono {waiting : Bool} {event : Option ℕ} {now now' t t' : ℕ}
    (h : Covered waiting event now t) (hnow : now ≤ now') (ht : t ≤ t') :
    Covered waiting event now' t' := by
  rcases h with h | ⟨u, hu, hle⟩
  · exact .inl h
  · exact .inr ⟨u, hu, by omega⟩

/-- `schedSendEvent` covers the time that it is asked for. -/
theorem State.covered_nextSend (s : State) (t : ℕ) :
    Covered s.waitingOnRetry (s.nextSend (some t)) s.curTick t := by
  unfold State.nextSend
  cases hw : s.waitingOnRetry with
  | true => exact .inl rfl
  | false =>
    right
    cases s.sendEvent with
    | none => exact ⟨_, rfl, le_rfl⟩
    | some u => exact ⟨_, rfl, min_le_left _ _⟩

/-- `schedSendEvent` never moves the event back. -/
theorem Covered.nextSend {t : ℕ}
    (h : Covered s.waitingOnRetry s.sendEvent s.curTick t) (time : Option ℕ) :
    Covered s.waitingOnRetry (s.nextSend time) s.curTick t := by
  unfold State.nextSend
  rcases h with h | ⟨u, hu, hle⟩
  · exact .inl h
  · right
    cases time with
    | none => exact ⟨u, hu, hle⟩
    | some t' =>
      cases s.waitingOnRetry with
      | true => exact ⟨u, hu, hle⟩
      | false =>
        simp only [hu]
        exact ⟨_, rfl, (min_le_right _ _).trans hle⟩

namespace State.Awake

variable {q : MSHRQueue} {blk t o i : ℕ} {pkt : Packet}

/-- A register of a queue is taken. -/
theorem takes (h : s.Awake) (index : MSHRQueueIndex)
    (hq : (s.queue index).Takes blk pkt t o i q) :
    ∀ i, ∀ x ∈ (s.setQueue index q).each (·.readyTimes) i,
      Covered s.waitingOnRetry (s.nextSend (some t)) s.curTick x := by
  refine State.forall_setQueue (P := fun _ ts => ∀ x ∈ ts, Covered _ _ _ x) ?_ ?_
  · intro x hx
    rcases hq.mem_readyTimes hx with rfl | hx
    · exact s.covered_nextSend x
    · exact (h index x (by cases index <;> exact hx)).nextSend _
  · exact fun i _ x hx => (h i x hx).nextSend _

/-- A queue has no ready times but those from before. -/
theorem set (h : s.Awake) (index : MSHRQueueIndex)
    (hsub : q.readyTimes ⊆ s.each (·.readyTimes) index) :
    ∀ i, ∀ x ∈ (s.setQueue index q).each (·.readyTimes) i,
      Covered s.waitingOnRetry s.sendEvent s.curTick x :=
  State.forall_setQueue (P := fun _ ts => ∀ x ∈ ts, Covered _ _ _ x)
    (fun x hx => h index x (hsub hx)) fun i _ => h i

theorem setTargets (h : s.Awake) (m : ℕ) (targets : List Packet) :
    ({ s with mshrQueue := s.mshrQueue.setTargets m targets } : State).Awake :=
  h.set .mshrs fun x hx => by rwa [MSHRQueue.setTargets_readyTimes] at hx

end State.Awake

/-- The next ready time of the two queues is the first of all. -/
theorem State.exists_nextMSHRReadyTime {x : ℕ} {index : MSHRQueueIndex}
    (hx : x ∈ s.each (·.readyTimes) index) : ∃ t, s.nextMSHRReadyTime = some t ∧ t ≤ x := by
  unfold State.nextMSHRReadyTime
  cases index with
  | mshrs =>
    obtain ⟨t, ht, hle⟩ := MSHRQueue.exists_nextMSHRReadyTime hx
    rw [ht]
    cases s.writeBuffer.nextMSHRReadyTime with
    | none => exact ⟨t, rfl, hle⟩
    | some u => exact ⟨_, rfl, (min_le_left _ _).trans hle⟩
  | writeBuffer =>
    obtain ⟨t, ht, hle⟩ := MSHRQueue.exists_nextMSHRReadyTime hx
    rw [ht]
    cases s.mshrQueue.nextMSHRReadyTime with
    | none => exact ⟨t, rfl, hle⟩
    | some u => exact ⟨_, rfl, (min_le_right _ _).trans hle⟩

/-- The next ready time is that of a request. -/
theorem State.nextMSHRReadyTime_mem {t : ℕ} (h : s.nextMSHRReadyTime = some t) :
    ∃ index, t ∈ s.each (·.readyTimes) index := by
  unfold State.nextMSHRReadyTime at h
  rw [MSHRQueue.nextMSHRReadyTime_eq, MSHRQueue.nextMSHRReadyTime_eq] at h
  split at h
  · exact ⟨.writeBuffer, List.mem_of_mem_head? h⟩
  · exact ⟨.mshrs, List.mem_of_mem_head? h⟩
  · rename_i t₁ t₂ h₁ h₂
    cases h
    rcases min_choice t₁ t₂ with hmin | hmin
    · exact ⟨.mshrs, hmin.symm ▸ List.mem_of_mem_head? h₁⟩
    · exact ⟨.writeBuffer, hmin.symm ▸ List.mem_of_mem_head? h₂⟩

/-! ## The pieces of the handlers -/

theorem Recv.awake (h : Recv c s r s') (hs : s.Awake) : s'.Awake := by
  cases h with
  | coalesced | coalescedLast => exact hs.setTargets _ _
  | bypassTagRead m q _ _ _ hq | bypassed m q _ _ _ _ hq | readPam m q _ _ _ _ _ hq =>
    exact hs.takes .mshrs hq
  | bypassTagWrite m q _ _ _ hq => exact hs.takes .writeBuffer hq
  | _ => exact hs

theorem Fills.awake {addr ctx : ℕ} (h : Fills c s addr ctx s') (hs : s.Awake) : s'.Awake := by
  cases h with
  | dirty m q _ _ _ _ _ hq => exact hs.takes .writeBuffer hq
  | _ => exact hs

theorem Freed.awake {index : MSHRQueueIndex} (h : Freed s index m w s')
    (hs : s.Awake) : s'.Awake := by
  cases h with
  | keeps q hq | opens q hq => cases index <;> exact hs.set _ fun _ => hq.mem_readyTimes

/-- After a send, the event is scheduled for what is left. -/
theorem State.awake_nextSend (s s' : State) :
    ∀ index, ∀ t ∈ s.each (·.readyTimes) index,
      Covered s'.waitingOnRetry (s'.nextSend s.nextMSHRReadyTime) s'.curTick t := by
  intro index x hx
  obtain ⟨t, ht, hle⟩ := State.exists_nextMSHRReadyTime hx
  rw [ht]
  exact (s'.covered_nextSend t).mono le_rfl hle

/-- When the port wakes up, a request is due, or none is waiting. -/
def FindsWork (s : State) : Event → Prop
  | .processSendEvent .. =>
    s.sendEvent.any (fun t => t ≤ s.curTick) = true → getNextMSHR s = none →
      s.mshrQueue.readyList = [] ∧ s.writeBuffer.readyList = []
  | .recvReqRetry .. =>
    s.waitingOnRetry = true → getNextMSHR s = none →
      s.mshrQueue.readyList = [] ∧ s.writeBuffer.readyList = []
  | _ => True

instance (s : State) : (e : Event) → Decidable (FindsWork s e)
  | .processSendEvent .. | .recvReqRetry .. => inferInstanceAs (Decidable (_ → _ → _ ∧ _))
  | .recvTimingReq _ | .processNextReqEvent .. | .processRespondEvent _
  | .processWriteRespondEvent | .recvTimingResp .. | .advance _
  | .setGpuRunning _ | .drain | .drainResume => .isTrue trivial

/-- A port that goes back to sleep has nothing to send. -/
theorem Wakes.awake_of_none (h : Wakes s e s₁) (hok : FindsWork s e)
    (hnone : getNextMSHR s₁ = none) : s₁.Awake := by
  have hempty : s₁.mshrQueue.readyList = [] ∧ s₁.writeBuffer.readyList = [] := by
    cases h with
    | event t _ _ hev ht => exact hok (by simpa [hev] using ht) hnone
    | retry _ _ hw => exact hok hw hnone
  intro index x hx
  cases index <;> simp [State.each, MSHRQueue.readyTimes, hempty] at hx

theorem Micro.awake (h : Micro c e s₀ φ s φ' s') (hok : FindsWork s₀ e)
    (hs : s.Awake) : s'.Awake := by
  cases h with
  | request r _ h | filled _ h => exact h.awake hs
  | retryWrite _ h | retryRead _ h | retryCache _ _ _ h =>
    exact h.keeps hs fun _ _ _ h => h.awake hs
  | serialCoalesced | serialCoalescedLast | pamMiss | pamEarly => exact hs.setTargets _ _
  | serialMiss _ _ _ _ _ _ _ hq => exact hs.takes .mshrs hq
  | pamDoneHit _ _ _ _ _ _ _ _ hfree | pamHit _ _ _ _ _ _ _ _ hfree
  | pamAnswered _ _ _ _ _ _ hfree => exact hfree.awake (hs.setTargets _ _)
  | pamDoneMiss _ _ _ _ _ _ _ _ hfill hfree =>
    exact hfree.awake (hfill.awake (hs.setTargets _ _))
  | writeMiss _ _ _ _ _ _ _ _ hq | writeAllocDirty _ _ _ _ _ _ _ _ _ hq =>
    exact hs.takes .writeBuffer hq
  | sendNothing hwake hnone => exact hwake.awake_of_none hok hnone
  | sendRefused => exact fun _ _ _ => .inl rfl
  | @sentMiss s₁ _ _ _ q => exact State.awake_nextSend { s₁ with mshrQueue := q } s₁
  | @sentWrite s₁ _ _ _ q => exact State.awake_nextSend { s₁ with writeBuffer := q } s₁
  | readAnswered p _ _ _ _ _ hfill hfree =>
    have hs := hfill.keeps hs fun h => h.awake hs
    exact hfree.awake (hs.setTargets _ _)
  | writeAnswered _ _ _ _ _ hfree =>
    exact hfree.awake (hs.set .writeBuffer fun x hx => by
      rwa [MSHRQueue.setTargets_readyTimes] at hx)
  | advance t hle => exact fun index x hx => (hs index x hx).mono hle le_rfl
  | _ => exact hs

/-- No lost wake-up: in every run in which the port finds work whenever it wakes
up while requests wait, a request on a ready list is covered by a retry or by
the send event. -/
theorem ready_is_scheduled (h : Reaches c FindsWork s)
    (hready : s.mshrQueue.readyList ≠ [] ∨ s.writeBuffer.readyList ≠ []) :
    s.waitingOnRetry = true ∨ ∃ u t, s.sendEvent = some u ∧
      s.nextMSHRReadyTime = some t ∧ u ≤ max t (s.curTick + 1) := by
  have hs : s.Awake := by
    refine h.invariant (I := fun _ s => s.Awake) ?_ ?_ ?_
    · intro store index x hx
      cases index <;> cases hx
    · exact fun s hs => hs
    · exact fun e s₀ hok φ s φ' s' hs hmicro => hmicro.awake hok hs
  obtain ⟨index, x, hx⟩ : ∃ index x, x ∈ s.each (·.readyTimes) index := by
    rcases hready with hne | hne
    · obtain ⟨i, hi⟩ := List.exists_mem_of_ne_nil _ hne
      exact ⟨.mshrs, _, List.mem_map_of_mem hi⟩
    · obtain ⟨i, hi⟩ := List.exists_mem_of_ne_nil _ hne
      exact ⟨.writeBuffer, _, List.mem_map_of_mem hi⟩
  obtain ⟨t, ht, -⟩ := State.exists_nextMSHRReadyTime hx
  obtain ⟨index, hmem⟩ := State.nextMSHRReadyTime_mem ht
  rcases hs index t hmem with hw | ⟨u, hu, hle⟩
  · exact .inl hw
  · exact .inr ⟨u, t, hu, ht, hle⟩

namespace Scenario

/-- A block is brought into the cache, and then read by a CPU with a wrong
prediction.  The early request is refused by the memory, and freed when the
lookup hits.  Another early request comes at the tick `t`. -/
def freedWhileWaiting (t : ℕ) : List Event :=
  .recvTimingReq (gpuRead 1) :: lookup ++ send 1 ++
    [answer 0, serveNext, serveNext, serveNext, serveNext, .recvTimingReq (cpuRead 1 false),
      .advance 6, .processSendEvent false quiet] ++ lookup ++
    [.advance t, .recvTimingReq (cpuRead 2 false)]

end Scenario

open Scenario in
/-- The retry comes when the second request is ready, and a third one arrives
after it. -/
theorem retry_finds_work :
    let s := State.ofRun config blank (freedWhileWaiting 60 ++
      [.advance 65, .recvReqRetry true quiet, .recvTimingReq (cpuRead 3 false)])
    (s.mshrQueue.readyList ≠ [] ∨ s.writeBuffer.readyList ≠ []) ∧
      (s.waitingOnRetry ∨ ∃ u t, s.sendEvent = some u ∧
        s.nextMSHRReadyTime = some t ∧ u ≤ max t (s.curTick + 1)) :=
  ⟨by decide +kernel, ready_is_scheduled (reaches_ofRun (c := config) (by decide +kernel)
      (by decide +kernel)) (by decide +kernel)⟩

open Scenario in
/-- The retry comes before the second request is ready.  The port finds nothing
to send and sleeps, with a request on the ready list. -/
theorem ready_is_stranded :
    let s := State.ofRun config blank (freedWhileWaiting 60 ++ [.recvReqRetry true quiet])
    Reaches config (fun _ _ => True) s ∧ s.mshrQueue.readyList ≠ [] ∧
      s.waitingOnRetry = false ∧ s.sendEvent = none :=
  ⟨reaches_ofRun (meets_true _) (by decide +kernel), by decide +kernel,
    by decide +kernel, by decide +kernel⟩

end Gem5Gpu.DRAMCache
