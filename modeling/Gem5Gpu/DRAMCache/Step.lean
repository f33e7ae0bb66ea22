import Gem5Gpu.DRAMCache.Ctrl
import Gem5Gpu.Lib.Machine

/-!
# Runs of the DRAM cache

The controller as a machine.  An event is one call of a handler, or a change in
its environment: time passes, a kernel starts or ends, or the simulator asks for
a drain.  Events come in any order.  One that cannot happen in a state, such as
the respond event of an empty queue, leaves the state as it is.

`Reaches c ok s` says that `s` is reached from the initial state, with any
contents of the backing store, by a run whose steps all meet `ok`.  `Demands` is
how such a condition speaks about requests: it constrains the request of a call
of `recvTimingReq` at top level and every reaction of the upstream port to a
retry.
-/

namespace Gem5Gpu.DRAMCache

open Mem Lib

variable {ok : State → Event → Prop} {P : TimingReq → Prop} {c : Config} {s : State}

inductive Event
  | recvTimingReq (r : TimingReq)
  | processNextReqEvent (busy : Bool) (choice : Option ℕ) (up : Upstream)
  | processRespondEvent (up : Upstream)
  | processWriteRespondEvent
  | processSendEvent (accepted : Bool) (up : Upstream)
  | recvReqRetry (accepted : Bool) (up : Upstream)
  /-- The memory answers the request at a position of `mem`. -/
  | recvTimingResp (i : ℕ) (up : Upstream)
  /-- Time passes, but not beyond a scheduled send. -/
  | advance (t : ℕ)
  | setGpuRunning (running : Bool)
  | drain
  | drainResume

/-- `drain`: the controller is drained at once when its queues are empty. -/
def drain (s : State) : State :=
  if s.writeQueue.isEmpty && s.readQueue.isEmpty && s.respQueue.isEmpty &&
      s.dramPktWriteRespQueue.isEmpty then { s with drainState := .drained }
  else { s with drainState := .draining }

def step (c : Config) (s : State) : Event → Except Fault State
  | .recvTimingReq r => recvTimingReq c s r
  | .processNextReqEvent busy choice up => processNextReqEvent c up s busy choice
  | .processRespondEvent up => processRespondEvent c up s
  | .processWriteRespondEvent => processWriteRespondEvent c s
  | .processSendEvent accepted up => processSendEvent c up s accepted
  | .recvReqRetry accepted up => recvReqRetry c up s accepted
  | .recvTimingResp i up =>
    match s.mem[i]? with
    | none => pure s
    | some p => recvTimingResp c up { s with mem := s.mem.eraseIdx i } p
  | .advance t =>
    if s.curTick ≤ t ∧ s.sendEvent.all (fun u => decide (t ≤ u)) then
      pure { s with curTick := t }
    else pure s
  | .setGpuRunning running => pure { s with gpuRunning := running }
  | .drain => pure (drain s)
  | .drainResume => pure { s with drainState := .running }

/-- The reaction of the upstream port to the retries of an event. -/
def Event.upstream : Event → Upstream
  | .processNextReqEvent _ _ up => up
  | .processRespondEvent up => up
  | .processSendEvent _ up => up
  | .recvReqRetry _ up => up
  | .recvTimingResp _ up => up
  | _ => fun _ => none

/-- The call of `recvTimingReq` at top level. -/
def Event.request : Event → Option TimingReq
  | .recvTimingReq r => some r
  | _ => none

/-- A demand on the requests of a step: on the call at top level, and on every
call that reacts to a retry, in the state in which it is made. -/
structure Demands (P : State → TimingReq → Prop) (s : State) (e : Event) :
    Prop where
  request : ∀ r, e = .recvTimingReq r → P s r
  reaction : ∀ s' r, e.upstream s' = some r → P s' r

theorem demands_recvTimingReq {P : State → TimingReq → Prop}
    {r : TimingReq} (h : P s r) : Demands P s (.recvTimingReq r) where
  request r' hr := by
    cases hr
    exact h
  reaction s' r' hup := by simp [Event.upstream] at hup

/-- The request of an event has the property, and the upstream port does not
react to its retries. -/
def Event.Asks (P : TimingReq → Prop) : Event → Prop
  | .recvTimingReq r => P r
  | e => ∀ s, e.upstream s = none

theorem demands_of_asks {e : Event} (h : e.Asks P) : Demands (fun _ r => P r) s e where
  request r he := by
    subst he
    exact h
  reaction s' r hup := by
    cases e with
    | recvTimingReq => simp [Event.upstream] at hup
    | _ => exact absurd hup (by simp [h s'])

/-- The states of the runs whose steps all meet `ok`. -/
def Reaches (c : Config) (ok : State → Event → Prop) (s : State) : Prop :=
  ∃ store, Reach (step c) ok (State.init c store) s

/-! ## Runs on concrete inputs -/

/-- The state that a run ends in, or the initial state when it fails. -/
def State.ofRun (c : Config) (store : ℕ → Data) (es : List Event) : State :=
  match run (step c) (State.init c store) es with
  | .ok s => s
  | .error _ => State.init c store

/-- A run that ends well and meets the condition reaches its state. -/
theorem reaches_ofRun {store : ℕ → Data} {es : List Event}
    (hok : Meets (step c) ok (State.init c store) es)
    (hrun : (run (step c) (State.init c store) es).toBool = true) :
    Reaches c ok (State.ofRun c store es) := by
  refine ⟨store, ?_⟩
  unfold State.ofRun
  cases h : run (step c) (State.init c store) es with
  | ok s => exact Reach.of_meets .start hok h
  | error f =>
    rw [h] at hrun
    cases hrun

/-- A condition that always holds. -/
theorem meets_true (es : List Event) : Meets (step c) (fun _ _ => True) s es :=
  .of_forall fun _ _ _ => trivial

namespace Scenario

/-- A small controller, on which the concrete runs of this development take
place. -/
def config : Config where
  numSets := 4
  mshrs := 4
  writeBuffers := 4
  numTarget := 4
  readBufferSize := 8
  writeBufferSize := 8
  fillBufferSize := 8
  writeHighThreshold := 8
  fillHighThreshold := 8

/-- An upstream port that does not react to retries. -/
def quiet : Upstream := fun _ => none

/-- A store whose blocks are all empty. -/
def blank : ℕ → Data := fun _ => []

/-- A read of a block by the GPU. -/
def gpuRead (block : ℕ) : TimingReq :=
  { cmd := .readReq, addr := block * 128, contextId := gpuContextId }

/-- A read of a block by a CPU, with the answer of the hit predictor. -/
def cpuRead (block : ℕ) (predictHit : Bool) : TimingReq :=
  { cmd := .readReq, addr := block * 128, predictHit := predictHit }

/-- A write of a block by the GPU. -/
def gpuWrite (block : ℕ) : TimingReq :=
  { cmd := .writeReq, addr := block * 128, contextId := gpuContextId }

/-- Serve the oldest burst of the queue whose turn it is. -/
def serveNext : Event := .processNextReqEvent false (some 0) quiet

/-- Serve both bursts of a read and look it up. -/
def lookup : List Event :=
  [serveNext, serveNext, .processRespondEvent quiet, .processRespondEvent quiet]

/-- Time passes up to a tick, and the memory accepts a request. -/
def send (t : ℕ) : List Event := [.advance t, .processSendEvent true quiet]

/-- The memory answers a request. -/
def answer (i : ℕ) : Event := .recvTimingResp i quiet

/-- The GPU reads a block, which misses and is installed. -/
def fill (block t : ℕ) : List Event :=
  .recvTimingReq (gpuRead block) :: lookup ++ send t ++ [answer 0]

/-- The GPU writes a block, and the bursts of an earlier fill are served. -/
def write (block : ℕ) : List Event :=
  .recvTimingReq (gpuWrite block) :: [serveNext, serveNext, serveNext,
    .processWriteRespondEvent, .processWriteRespondEvent, serveNext, serveNext]

theorem fill_asks {block t : ℕ} (h : P (gpuRead block)) : ∀ e ∈ fill block t, e.Asks P := by
  simp [fill, lookup, send, answer, serveNext, Event.Asks, Event.upstream, quiet, h]

theorem write_asks {block : ℕ} (h : P (gpuWrite block)) : ∀ e ∈ write block, e.Asks P := by
  simp [write, serveNext, Event.Asks, Event.upstream, quiet, h]

end Scenario

end Gem5Gpu.DRAMCache
