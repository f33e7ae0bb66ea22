import Gem5Gpu.DRAMCache.Outcomes
import Gem5Gpu.DRAMCache.Step

/-!
# The handlers in small steps

A handler that sends a retry is interrupted: the upstream port may call
`recvTimingReq` in the middle of it.  An invariant of the controller therefore
has to survive at every point where that can happen, and not only between
events.  This module cuts the handlers at those points.

* `Phase` names the points.  A handler begins at `start` and ends at `done`.
* `Micro c e s₀` is one piece of the handler of the event `e` that began in the
  state `s₀`.  Each constructor names the branch of the source that it stands
  for, with the tests that lead there and the state that it leaves.
* `step_micros` says that a step of the machine is a path of such pieces.
  `Reaches.invariant` is the rule that the safety proofs use: an invariant of
  the phases that every piece preserves holds in every state reached.
-/

namespace Gem5Gpu.DRAMCache

open Mem Lib Function

variable {choice : Option ℕ} {s₁ : State}

namespace State

/-- The state when the upstream port is asked to retry. -/
def logRetry (s : State) : State :=
  { s with portLog := .sendRetryReq :: s.portLog }

/-- One cause fewer to refuse requests. -/
def unblock (s : State) (cause : BlockedCause) : State :=
  { s with
    blocked := s.blocked.erase cause
    portBlocked := if s.blocked.erase cause = ∅ then false else s.portBlocked }

/-- The packet was not the one for which the memory was asked early. -/
def NotPam (s : State) (pkt : Packet) : Prop :=
  ∀ pr, s.pamQueue pkt.addr = some pr → pr.pkt ≠ pkt.ptr

end State

/-- A register was freed, and the cause for refusing requests with it when the
queue was full. -/
inductive Freed (s : State) (index : MSHRQueueIndex) (r : ℕ) (wasFull : Bool) :
    State → Prop
  | keeps (q : MSHRQueue) (hq : (s.queue index).Frees r q)
      (hfull : wasFull = true → q.isFull = true) :
      Freed s index r wasFull (s.setQueue index q)
  | opens (q : MSHRQueue) (hq : (s.queue index).Frees r q)
      (hwas : wasFull = true) (hfull : q.isFull = false)
      (hport : s.blocked.erase (.ofIndex index) = ∅ → s.portBlocked = true) :
      Freed s index r wasFull ((s.setQueue index q).unblock (.ofIndex index))

/-- The upstream port was asked to retry, and may have reacted. -/
inductive Retried (c : Config) (up : Upstream) (s : State) : State → Prop
  | silent (h : up s.logRetry = none) : Retried c up s s.logRetry
  | reacted {s' : State} (r : TimingReq) (hup : up s.logRetry = some r)
      (h : recvTimingReq c s.logRetry r = .ok s') : Retried c up s s'

/-- The block of an answer was installed unless it was there. -/
inductive FillsOnResp (c : Config) (s : State) (p : MemPacket) : State → Prop
  | present (hvalid : (s.tags.sets (c.setOf p.addr)).valid = true)
      (htag : (s.tags.sets (c.setOf p.addr)).tag = c.tagOf p.addr) :
      FillsOnResp c s p s
  | fills {s' : State} (habsent : (s.tags.sets (c.setOf p.addr)).valid = false ∨
        (s.tags.sets (c.setOf p.addr)).tag ≠ c.tagOf p.addr)
      (h : Fills c s p.addr p.contextId s') : FillsOnResp c s p s'

/-- The memory-side port wakes up: its event is due, or a retry has come. -/
inductive Wakes (s : State) : Event → State → Prop
  | event (t : ℕ) (accepted : Bool) (up : Upstream) (hev : s.sendEvent = some t)
      (ht : t ≤ s.curTick) (hw : s.waitingOnRetry = false) :
      Wakes s (.processSendEvent accepted up) { s with sendEvent := none }
  | retry (accepted : Bool) (up : Upstream) (hw : s.waitingOnRetry = true) :
      Wakes s (.recvReqRetry accepted up) { s with waitingOnRetry := false }

/-- The points at which a handler can be interrupted. -/
inductive Phase
  | start
  | done
  /-- A read was looked up, and its last burst still has to leave the queue. -/
  | finished (pkt : Packet)
  /-- The same, and an entry of `pamQueue` has to go. -/
  | forgetting (pkt : Packet)
  /-- An answer of the memory was taken.  `pam` says that the entry in
  `pamQueue` decides what to do with it. -/
  | answering (p : MemPacket) (wasFull pam : Bool)
  /-- The same, after `clearBlocked (Blocked_NoTargets)`. -/
  | released (p : MemPacket) (wasFull pam : Bool)
  /-- The same, when the targets are up next. -/
  | consuming (p : MemPacket) (wasFull pam : Bool)
  /-- The targets were answered, and the block has to be installed. -/
  | filling (p : MemPacket)

/-- The points at which `clearBlocked` may send a retry. -/
def Phase.SendsRetry : Phase → Prop
  | .start | .answering .. | .consuming .. => False
  | _ => True

/-- The bus is on its way to writes, or does them. -/
def BusState.Writes (b : BusState) : Prop := b = .readToWrite ∨ b = .write

/-- The outcome of the lookup of a packet, and the tag store after it. -/
def State.lookup (c : Config) (s : State) (pkt : Packet) : Bool × Tags :=
  s.tags.doCacheLookup c pkt.cmd pkt.addr pkt.contextId

/-- The burst helpers after one more burst of a packet. -/
def State.countBurst (s : State) (pkt : Packet) : ℕ → ℕ :=
  update s.burstsServiced pkt.id (s.burstsServiced pkt.id + 1)

/-- The front of the response queue is the last burst of a read. -/
structure LastBurst (e : Event) (s : State) (pkt : Packet) : Prop where
  event : ∃ up, e = .processRespondEvent up
  front : ∃ burst rest, s.respQueue = ⟨pkt, burst⟩ :: rest
  last : s.burstsServiced pkt.id + 1 = 2

/-- The front of the response queue is the last burst of the read for which the
memory was asked early with the entry `pr`. -/
structure LastPamBurst (e : Event) (s : State) (pkt : Packet) (pr : PamReq) :
    Prop extends LastBurst e s pkt where
  entry : s.pamQueue pkt.addr = some pr
  pkt_ptr : pr.pkt = pkt.ptr

/-- The front of the queue of served writes is the last burst of a write. -/
structure LastWriteBurst (e : Event) (s : State) (pkt : Packet)
    (rest : List DRAMPacket) : Prop where
  event : e = .processWriteRespondEvent
  front : ∃ burst, s.dramPktWriteRespQueue = ⟨pkt, burst⟩ :: rest
  last : s.burstsServiced pkt.id + 1 = 2

/-- One piece of the handler of the event `e` that began in the state `s₀`. -/
inductive Micro (c : Config) (e : Event) (s₀ : State) :
    Phase → State → Phase → State → Prop
  -- requests and retries
  | request (r : TimingReq) {s' : State} (he : e = .recvTimingReq r)
      (h : Recv c s₀ r s') : Micro c e s₀ .start s₀ .done s'
  | retryWrite {s s' : State} (hflag : s.retryWrReq = true)
      (h : Retried c e.upstream { s with retryWrReq := false } s') :
      Micro c e s₀ .done s .done s'
  | retryRead {s s' : State} (hflag : s.retryRdReq = true)
      (h : Retried c e.upstream { s with retryRdReq := false } s') :
      Micro c e s₀ .done s .done s'
  | retryCache {φ : Phase} {s s' : State} (hph : φ.SendsRetry)
      (hflag : s.cacheMustSendRetry = true) (hopen : s.blocked = ∅)
      (h : Retried c e.upstream s s') :
      Micro c e s₀ φ s φ { s' with cacheMustSendRetry := false }
  -- `processNextReqEvent`
  | bus (b : BusState) (w : ℕ) (d : DrainState)
      (hb : b.Writes → s₀.busState.Writes ∨ s₀.writeQueue ≠ [] ∨ s₀.fillQueue ≠ []) :
      Micro c e s₀ .start s₀ .done { s₀ with
        busState := b, writesThisTime := w, drainState := d }
  | serveRead (b : BusState) (w : ℕ) (d : DrainState) (i : ℕ) (p : DRAMPacket)
      (hp : s₀.readQueue[i]? = some p)
      (hb : b.Writes → s₀.busState.Writes ∨ s₀.writeQueue ≠ [] ∨ s₀.fillQueue ≠ []) :
      Micro c e s₀ .start s₀ .done { s₀ with
        busState := b, writesThisTime := w, drainState := d
        readQueue := s₀.readQueue.eraseIdx i
        respQueue := s₀.respQueue ++ [p] }
  | serveWrite (b : BusState) (w : ℕ) (d : DrainState) (i : ℕ) (p : DRAMPacket)
      (hp : s₀.writeQueue[i]? = some p)
      (hb : b.Writes → s₀.writeQueue.eraseIdx i ≠ [] ∨ s₀.fillQueue ≠ []) :
      Micro c e s₀ .start s₀ .done { s₀ with
        busState := b, writesThisTime := w, drainState := d
        writeQueue := s₀.writeQueue.eraseIdx i
        isInWriteQueue := s₀.isInWriteQueue.erase (p.pkt.addr, p.addr)
        dramPktWriteRespQueue := s₀.dramPktWriteRespQueue ++ [p] }
  | serveFill (b : BusState) (w : ℕ) (d : DrainState) (i : ℕ) (p : FillPacket)
      (hp : s₀.fillQueue[i]? = some p)
      (hb : b.Writes → s₀.writeQueue ≠ [] ∨ s₀.fillQueue.eraseIdx i ≠ []) :
      Micro c e s₀ .start s₀ .done { s₀ with
        busState := b, writesThisTime := w, drainState := d
        fillQueue := s₀.fillQueue.eraseIdx i
        isInFillQueue := s₀.isInFillQueue.erase (p.requestAddr, p.addr) }
  -- `processRespondEvent`: a burst that is not the last one, and the ways in
  -- which a lookup can end
  | burst (p : DRAMPacket) (rest : List DRAMPacket) (d : DrainState)
      (hq : s₀.respQueue = p :: rest)
      (hmore : s₀.burstsServiced p.pkt.id + 1 ≠ 2) :
      Micro c e s₀ .start s₀ .done { s₀ with
        burstsServiced := s₀.countBurst p.pkt
        respQueue := rest
        drainState := d }
  | serialHit (pkt : Packet) (hlast : LastBurst e s₀ pkt) (hpam : s₀.NotPam pkt)
      (hhit : (s₀.lookup c pkt).1 = true) :
      Micro c e s₀ .start s₀ (.finished pkt) { s₀ with
        burstsServiced := s₀.countBurst pkt
        tags := (s₀.lookup c pkt).2
        responses := s₀.responses ++ [s₀.accessRead pkt] }
  | serialCoalesced (pkt : Packet) (m : ℕ) (hlast : LastBurst e s₀ pkt)
      (hpam : s₀.NotPam pkt) (hmiss : (s₀.lookup c pkt).1 = false)
      (hm : s₀.mshrQueue.findMatch (c.blockAlign pkt.addr) false = some m)
      (hlen : (s₀.mshrQueue.registers m).targets.length + 1 ≠ c.numTarget) :
      Micro c e s₀ .start s₀ (.finished pkt) { s₀ with
        burstsServiced := s₀.countBurst pkt
        tags := (s₀.lookup c pkt).2
        mshrQueue := s₀.mshrQueue.allocateTarget m pkt
        order := s₀.order + 1 }
  | serialCoalescedLast (pkt : Packet) (m : ℕ) (hlast : LastBurst e s₀ pkt)
      (hpam : s₀.NotPam pkt) (hmiss : (s₀.lookup c pkt).1 = false)
      (hm : s₀.mshrQueue.findMatch (c.blockAlign pkt.addr) false = some m)
      (hlen : (s₀.mshrQueue.registers m).targets.length + 1 = c.numTarget)
      (hport : s₀.blocked = ∅ → s₀.portBlocked = false) :
      Micro c e s₀ .start s₀ (.finished pkt) { s₀ with
        burstsServiced := s₀.countBurst pkt
        tags := (s₀.lookup c pkt).2
        mshrQueue := s₀.mshrQueue.allocateTarget m pkt
        order := s₀.order + 1
        noTargetMSHR := some m
        blocked := insert .noTargets s₀.blocked
        portBlocked := s₀.portBlockedAfter true }
  | serialMiss (pkt : Packet) (m : ℕ) (q : MSHRQueue) (hlast : LastBurst e s₀ pkt)
      (hpam : s₀.NotPam pkt) (hmiss : (s₀.lookup c pkt).1 = false)
      (hnone : s₀.mshrQueue.findMatch (c.blockAlign pkt.addr) false = none)
      (hq : s₀.mshrQueue.Takes (c.blockAlign pkt.addr) pkt (s₀.curTick + 1) s₀.order m q)
      (hport : q.isFull = true → s₀.blocked = ∅ → s₀.portBlocked = false) :
      Micro c e s₀ .start s₀ (.finished pkt) { s₀ with
        burstsServiced := s₀.countBurst pkt
        tags := (s₀.lookup c pkt).2
        mshrQueue := q
        order := s₀.order + 1
        blocked := s₀.blockedAfter .noMSHRs q.isFull
        portBlocked := s₀.portBlockedAfter q.isFull
        sendEvent := s₀.nextSend (some (s₀.curTick + 1)) }
  | pamDoneHit (pkt : Packet) (pr : PamReq) (first : Packet)
      (rest : List Packet) {s' : State}
      (hlast : LastPamBurst e s₀ pkt pr) (hdone : pr.isPamComplete = true)
      (hhit : (s₀.lookup c pkt).1 = true)
      (htargets : (s₀.mshrQueue.registers pr.mshr).targets = first :: rest)
      (hfree : Freed { s₀ with
        burstsServiced := s₀.countBurst pkt
        tags := (s₀.lookup c pkt).2
        responses := s₀.responses ++ (pkt :: rest).map s₀.accessRead
        mshrQueue := s₀.mshrQueue.setTargets pr.mshr []
        pamQueue := update s₀.pamQueue pkt.addr none }
        .mshrs pr.mshr s₀.mshrQueue.isFull s') :
      Micro c e s₀ .start s₀ (.finished pkt) s'
  | pamDoneMiss (pkt : Packet) (pr : PamReq) (first : Packet)
      (rest : List Packet) {s₁ s' : State}
     
      (hlast : LastPamBurst e s₀ pkt pr) (hdone : pr.isPamComplete = true)
      (hmiss : (s₀.lookup c pkt).1 = false)
      (htargets : (s₀.mshrQueue.registers pr.mshr).targets = first :: rest)
      (hfill : Fills c { s₀ with
        burstsServiced := s₀.countBurst pkt
        tags := (s₀.lookup c pkt).2
        responses := s₀.responses ++ (pkt :: rest).map fun t =>
          { t with data := first.data, stamp := first.stamp }
        mshrQueue := s₀.mshrQueue.setTargets pr.mshr []
        pamQueue := update s₀.pamQueue pkt.addr
          (some { pr with isHit := some false }) } first.addr pkt.contextId s₁)
      (hfree : Freed { s₁ with
        pamQueue := update s₁.pamQueue pkt.addr none }
        .mshrs pr.mshr s₀.mshrQueue.isFull s') :
      Micro c e s₀ .start s₀ (.finished pkt) s'
  | pamHit (pkt : Packet) (pr : PamReq) (first : Packet)
      (rest : List Packet) {s' : State}
      (hlast : LastPamBurst e s₀ pkt pr) (hdone : pr.isPamComplete = false)
      (hhit : (s₀.lookup c pkt).1 = true)
      (htargets : (s₀.mshrQueue.registers pr.mshr).targets = first :: rest)
      (hfree : Freed { s₀ with
        burstsServiced := s₀.countBurst pkt
        tags := (s₀.lookup c pkt).2
        responses := s₀.responses ++ (pkt :: rest).map s₀.accessRead
        mshrQueue := s₀.mshrQueue.setTargets pr.mshr []
        pamQueue := update s₀.pamQueue pkt.addr (some { pr with isHit := some true }) }
        .mshrs pr.mshr s₀.mshrQueue.isFull s') :
      Micro c e s₀ .start s₀ (if (s₀.mshrQueue.registers pr.mshr).inService then .finished pkt
          else .forgetting pkt) s'
  | pamMiss (pkt : Packet) (pr : PamReq) (hlast : LastPamBurst e s₀ pkt pr)
      (hdone : pr.isPamComplete = false) (hmiss : (s₀.lookup c pkt).1 = false) :
      Micro c e s₀ .start s₀ (.finished pkt) { s₀ with
        burstsServiced := s₀.countBurst pkt
        tags := (s₀.lookup c pkt).2
        mshrQueue := s₀.mshrQueue.allocateTarget pr.mshr pkt
        order := s₀.order + 1
        pamQueue := update s₀.pamQueue pkt.addr (some { pr with isHit := some false }) }
  | forget (pkt : Packet) {s : State} :
      Micro c e s₀ (.forgetting pkt) s (.finished pkt) { s with
        pamQueue := update s.pamQueue pkt.addr none }
  | pop (pkt : Packet) (d : DrainState) {s : State} :
      Micro c e s₀ (.finished pkt) s .done { s with
        respQueue := s.respQueue.tail
        drainState := d }
  -- `processWriteRespondEvent`
  | writeBurst (p : DRAMPacket) (rest : List DRAMPacket) (d : DrainState)
      (hq : s₀.dramPktWriteRespQueue = p :: rest)
      (hmore : s₀.burstsServiced p.pkt.id + 1 ≠ 2) :
      Micro c e s₀ .start s₀ .done { s₀ with
        burstsServiced := s₀.countBurst p.pkt
        dramPktWriteRespQueue := rest
        drainState := d }
  | writeHit (pkt : Packet) (rest : List DRAMPacket) (d : DrainState)
      (hlast : LastWriteBurst e s₀ pkt rest)
      (hhit : (s₀.lookup c pkt).1 = true) :
      Micro c e s₀ .start s₀ .done { s₀ with
        burstsServiced := s₀.countBurst pkt
        tags := (s₀.lookup c pkt).2
        responses := s₀.responses ++ [pkt]
        dramPktWriteRespQueue := rest
        drainState := d }
  | writeMiss (pkt : Packet) (rest : List DRAMPacket) (d : DrainState)
      (m : ℕ) (q : MSHRQueue) (hlast : LastWriteBurst e s₀ pkt rest)
      (hmiss : (s₀.lookup c pkt).1 = false) (halloc : c.writeAllocate = false)
      (hq : s₀.writeBuffer.Takes (c.blockAlign pkt.addr)
        { pkt with internal := true } (s₀.curTick + 1) s₀.order m q)
      (hport : q.isFull = true → s₀.blocked = ∅ → s₀.portBlocked = false) :
      Micro c e s₀ .start s₀ .done { s₀ with
        burstsServiced := s₀.countBurst pkt
        tags := (s₀.lookup c pkt).2
        writeBuffer := q
        order := s₀.order + 1
        blocked := s₀.blockedAfter .noWBuffers q.isFull
        portBlocked := s₀.portBlockedAfter q.isFull
        sendEvent := s₀.nextSend (some (s₀.curTick + 1))
        responses := s₀.responses ++ [pkt]
        dramPktWriteRespQueue := rest
        drainState := d }
  | writeAllocClean (pkt : Packet) (rest : List DRAMPacket) (d : DrainState)
      (hlast : LastWriteBurst e s₀ pkt rest)
      (hmiss : (s₀.lookup c pkt).1 = false) (halloc : c.writeAllocate = true)
      (hclean : ((s₀.lookup c pkt).2.sets (c.setOf pkt.addr)).dirty = false) :
      Micro c e s₀ .start s₀ .done { s₀ with
        burstsServiced := s₀.countBurst pkt
        tags := (s₀.lookup c pkt).2.installDirty c pkt.addr pkt.contextId
        responses := s₀.responses ++ [pkt]
        dramPktWriteRespQueue := rest
        drainState := d }
  | writeAllocDirty (pkt : Packet) (rest : List DRAMPacket) (d : DrainState)
      (m : ℕ) (q : MSHRQueue) (hlast : LastWriteBurst e s₀ pkt rest)
      (hmiss : (s₀.lookup c pkt).1 = false) (halloc : c.writeAllocate = true)
      (hdirty : ((s₀.lookup c pkt).2.sets (c.setOf pkt.addr)).dirty = true)
      (hq : s₀.writeBuffer.Takes (c.blockAlign ((s₀.lookup c pkt).2.victim c pkt.addr))
        (s₀.writeBackPacket ((s₀.lookup c pkt).2.victim c pkt.addr)
          ((s₀.lookup c pkt).2.victimContext c pkt.addr))
        (s₀.curTick + 1) s₀.order m q)
      (hport : q.isFull = true → s₀.blocked = ∅ → s₀.portBlocked = false) :
      Micro c e s₀ .start s₀ .done { s₀ with
        burstsServiced := s₀.countBurst pkt
        tags := ((s₀.lookup c pkt).2.clearSet c
          ((s₀.lookup c pkt).2.victim c pkt.addr)).installDirty c pkt.addr pkt.contextId
        writeBuffer := q
        order := s₀.order + 1
        blocked := s₀.blockedAfter .noWBuffers q.isFull
        portBlocked := s₀.portBlockedAfter q.isFull
        sendEvent := s₀.nextSend (some (s₀.curTick + 1))
        responses := s₀.responses ++ [pkt]
        dramPktWriteRespQueue := rest
        drainState := d }
  -- `sendDeferredPacket`
  | sendNothing {s₁ : State} (hw : Wakes s₀ e s₁) (hnone : getNextMSHR s₁ = none) :
      Micro c e s₀ .start s₀ .done s₁
  | sendRefused {s₁ : State} (index : MSHRQueueIndex) (r : ℕ)
      (hw : Wakes s₀ e s₁) (hnext : getNextMSHR s₁ = some (index, r)) :
      Micro c e s₀ .start s₀ .done { s₁ with waitingOnRetry := true }
  | sentMiss {s₁ : State} (r : ℕ) (target : Packet) (rest : List Packet)
      (q : MSHRQueue) (hw : Wakes s₀ e s₁)
      (hnext : getNextMSHR s₁ = some (.mshrs, r))
      (htargets : (s₁.mshrQueue.registers r).targets = target :: rest)
      (hq : s₁.mshrQueue.Sends r q) :
      Micro c e s₀ .start s₀ .done { s₁ with
        mshrQueue := q
        mem := s₁.mem ++ [{ queue := .mshrs, mshr := r, cmd := .readReq,
                            addr := target.addr, contextId := target.contextId,
                            data := s₁.store target.addr,
                            stamp := s₁.accepted.length }]
        sendEvent := s₁.nextSend ({ s₁ with mshrQueue := q } : State).nextMSHRReadyTime }
  | sentWrite {s₁ : State} (r : ℕ) (target : Packet) (rest : List Packet)
      (q : MSHRQueue) (hw : Wakes s₀ e s₁)
      (hnext : getNextMSHR s₁ = some (.writeBuffer, r))
      (htargets : (s₁.writeBuffer.registers r).targets = target :: rest)
      (hq : s₁.writeBuffer.Sends r q) :
      Micro c e s₀ .start s₀ .done { s₁ with
        writeBuffer := q
        store := update s₁.store (c.blockAlign target.addr) target.data
        mem := s₁.mem ++ [{ queue := .writeBuffer, mshr := r, cmd := .writeReq,
                            addr := c.blockAlign target.addr,
                            contextId := target.contextId }]
        sendEvent := s₁.nextSend ({ s₁ with writeBuffer := q } : State).nextMSHRReadyTime }
  -- `recvTimingResp`
  | pamEarly (i : ℕ) (up : Upstream) (p : MemPacket) (pr : PamReq)
      (first : Packet) (rest : List Packet) (he : e = .recvTimingResp i up)
      (hp : s₀.mem[i]? = some p) (hqueue : p.queue = .mshrs)
      (hpr : s₀.pamQueue p.addr = some pr) (hhit : pr.isHit = none)
      (htargets : (s₀.mshrQueue.registers pr.mshr).targets = first :: rest) :
      Micro c e s₀ .start s₀ .done { s₀ with
        mem := s₀.mem.eraseIdx i
        pamQueue := update s₀.pamQueue p.addr (some { pr with isPamComplete := true })
        mshrQueue := s₀.mshrQueue.setTargets pr.mshr
          ({ first with data := p.data, stamp := p.stamp } :: rest) }
  | pamLate (i : ℕ) (up : Upstream) (p : MemPacket) (pr : PamReq)
      (he : e = .recvTimingResp i up) (hp : s₀.mem[i]? = some p)
      (hqueue : p.queue = .mshrs) (hpr : s₀.pamQueue p.addr = some pr)
      (hhit : pr.isHit = some true) :
      Micro c e s₀ .start s₀ .done { s₀ with
        mem := s₀.mem.eraseIdx i
        pamQueue := update s₀.pamQueue p.addr none }
  | pamAnswer (i : ℕ) (up : Upstream) (p : MemPacket) (pr : PamReq)
      (he : e = .recvTimingResp i up) (hp : s₀.mem[i]? = some p)
      (hqueue : p.queue = .mshrs) (hpr : s₀.pamQueue p.addr = some pr)
      (hhit : pr.isHit = some false) (hmshr : p.mshr = pr.mshr) :
      Micro c e s₀ .start s₀ (.answering p s₀.mshrQueue.isFull true) { s₀ with
        mem := s₀.mem.eraseIdx i
        pamQueue := update s₀.pamQueue p.addr (some { pr with isPamComplete := true }) }
  | serialAnswer (i : ℕ) (up : Upstream) (p : MemPacket)
      (he : e = .recvTimingResp i up) (hp : s₀.mem[i]? = some p)
      (hpam : p.queue = .mshrs → s₀.pamQueue p.addr = none) :
      Micro c e s₀ .start s₀ (.answering p (s₀.queue p.queue).isFull false)
        { s₀ with mem := s₀.mem.eraseIdx i }
  | release (p : MemPacket) (w pam : Bool) {s : State} (hqueue : p.queue = .mshrs)
      (hm : s.noTargetMSHR = some p.mshr)
      (hport : s.blocked.erase .noTargets = ∅ → s.portBlocked = true) :
      Micro c e s₀ (.answering p w pam) s (.released p w pam) (s.unblock .noTargets)
  | released (p : MemPacket) (w pam : Bool) {s : State} :
      Micro c e s₀ (.released p w pam) s (.consuming p w pam) { s with noTargetMSHR := none }
  | keep (p : MemPacket) (w pam : Bool) {s : State}
      (hm : p.queue = .mshrs → s.noTargetMSHR ≠ some p.mshr) :
      Micro c e s₀ (.answering p w pam) s (.consuming p w pam) s
  | readAnswered (p : MemPacket) (w : Bool) {s s₁ s' : State}
      (hqueue : p.queue = .mshrs) (hcmd : p.cmd = .readReq)
      (htargets : (s.mshrQueue.registers p.mshr).targets ≠ [])
      (haddr : ∀ t ∈ (s.mshrQueue.registers p.mshr).targets, p.addr = t.addr)
      (hfill : FillsOnResp c s p s₁)
      (hfree : Freed { s₁ with
        responses := s₁.responses ++ (s.mshrQueue.registers p.mshr).targets.map s₁.accessRead
        mshrQueue := s₁.mshrQueue.setTargets p.mshr [] } .mshrs p.mshr w s') :
      Micro c e s₀ (.consuming p w false) s .done s'
  | writeAnswered (p : MemPacket) (w : Bool) {s s' : State}
      (hqueue : p.queue = .writeBuffer) (hcmd : p.cmd = .writeReq)
      (htargets : (s.writeBuffer.registers p.mshr).targets.length = 1)
      (hfree : Freed { s with writeBuffer := s.writeBuffer.setTargets p.mshr [] }
        .writeBuffer p.mshr w s') :
      Micro c e s₀ (.consuming p w false) s .done s'
  | pamAnswered (p : MemPacket) (w : Bool) (first : Packet) (rest : List Packet)
      {s s' : State} (hqueue : p.queue = .mshrs)
      (htargets : (s.mshrQueue.registers p.mshr).targets = first :: rest)
      (hfree : Freed { s with
        responses := s.responses ++ rest.map fun t =>
          { t with data := p.data, stamp := p.stamp }
        mshrQueue := s.mshrQueue.setTargets p.mshr [] } .mshrs p.mshr w s') :
      Micro c e s₀ (.consuming p w true) s (.filling p) s'
  | filled (p : MemPacket) {s s₁ : State}
      (hfill : Fills c s p.addr p.contextId s₁) :
      Micro c e s₀ (.filling p) s .done { s₁ with
        pamQueue := update s₁.pamQueue p.addr none }
  -- the environment
  | advance (t : ℕ) (hle : s₀.curTick ≤ t)
      (hsend : ∀ u, s₀.sendEvent = some u → t ≤ u) :
      Micro c e s₀ .start s₀ .done { s₀ with curTick := t }
  | gpuRunning (running : Bool) :
      Micro c e s₀ .start s₀ .done { s₀ with gpuRunning := running }

/-! ## What the shared pieces leave alone -/

section Frames

variable {c : Config} {e : Event} {s s' : State} {r : ℕ} {w : Bool}

theorem Fills.frame {addr ctx : ℕ} (h : Fills c s addr ctx s') :
    ∃ t q o b pb se fq ifq, s' = { s with
      tags := t, writeBuffer := q, order := o, blocked := b, portBlocked := pb
      sendEvent := se, fillQueue := fq, isInFillQueue := ifq } := by
  cases h with
  | skipped | clean | dirty => exact ⟨_, _, _, _, _, _, _, _, rfl⟩

theorem FillsOnResp.frame {p : MemPacket} (h : FillsOnResp c s p s') :
    ∃ t q o b pb se fq ifq, s' = { s with
      tags := t, writeBuffer := q, order := o, blocked := b, portBlocked := pb
      sendEvent := se, fillQueue := fq, isInFillQueue := ifq } := by
  cases h with
  | present => exact ⟨_, _, _, _, _, _, _, _, rfl⟩
  | fills _ h => exact h.frame

/-- A register of a miss was freed. -/
theorem Freed.frame (h : Freed s .mshrs r w s') : ∃ q b pb, s.mshrQueue.Frees r q ∧
      s' = { s with mshrQueue := q, blocked := b, portBlocked := pb } := by
  cases h with
  | keeps q hq => exact ⟨q, _, _, hq, rfl⟩
  | opens q hq => exact ⟨q, _, _, hq, rfl⟩

/-- A register of a write was freed. -/
theorem Freed.frame_writeBuffer (h : Freed s .writeBuffer r w s') :
    ∃ q b pb, s.writeBuffer.Frees r q ∧
      s' = { s with writeBuffer := q, blocked := b, portBlocked := pb } := by
  cases h with
  | keeps q hq | opens q hq => exact ⟨q, _, _, hq, rfl⟩

theorem Wakes.frame (h : Wakes s e s') :
    ∃ se wr, s' = { s with sendEvent := se, waitingOnRetry := wr } := by
  cases h with
  | event | retry => exact ⟨_, _, rfl⟩

/-- What a request keeps is kept by a retry, to which the port reacts with one request. -/
theorem Retried.keeps {up : Upstream} {P : State → Prop} (h : Retried c up s s')
    (hs : P s.logRetry)
    (hrecv : ∀ r s', up s.logRetry = some r → Recv c s.logRetry r s' → P s') : P s' := by
  cases h with
  | silent => exact hs
  | reacted r hup h => exact hrecv r s' hup (recvTimingReq_ok h)

/-- What a fill keeps is kept by the fill for an answer. -/
theorem FillsOnResp.keeps {p : MemPacket} {P : State → Prop} (h : FillsOnResp c s p s') (hs : P s)
    (hfill : Fills c s p.addr p.contextId s' → P s') : P s' := by
  cases h with
  | present => exact hs
  | fills _ h => exact hfill h

end Frames

/-- A path of pieces of a handler. -/
def Micros (c : Config) (e : Event) (s₀ : State) : Phase × State → Phase × State → Prop :=
  Relation.ReflTransGen fun a b => Micro c e s₀ a.1 a.2 b.1 b.2

section Paths

variable {c : Config} {e : Event} {up : Upstream} {s₀ s s' : State}
  {φ : Phase} {pkt : Packet} {p : MemPacket} {r : ℕ} {w : Bool}
  {index : MSHRQueueIndex} {cause : BlockedCause}

theorem Micro.path {φ' : Phase} (h : Micro c e s₀ φ s φ' s') : Micros c e s₀ (φ, s) (φ', s') :=
  Relation.ReflTransGen.single h

/-- A handler that does nothing. -/
theorem Micros.skip : Micros c e s (.start, s) (.done, s) :=
  (Micro.bus s.busState s.writesThisTime s.drainState .inl).path

/-! ## Retries -/

theorem sendRetryReq_ok (h : sendRetryReq c up s = .ok s') :
    Retried c up s s' := by
  unfold sendRetryReq at h
  cases hup : up s.logRetry with
  | none =>
    simp only [State.logRetry] at hup
    simp only [hup] at h
    cases h
    exact .silent hup
  | some r =>
    simp only [State.logRetry] at hup
    simp only [hup] at h
    exact .reacted r hup h

/-- After `clearBlocked` the port was asked to retry if it had to be. -/
theorem clearBlocked_micros (s₀ : State) (hph : φ.SendsRetry)
    (h : clearBlocked c e.upstream s cause = .ok s') :
    (s.blocked.erase cause = ∅ → s.portBlocked) ∧
      Micros c e s₀ (φ, s.unblock cause) (φ, s') := by
  simp only [clearBlocked] at h
  split at h
  · rename_i hempty
    obtain ⟨_, hport, h⟩ := bind_eq_ok h
    have hstate : s.unblock cause =
        { s with blocked := s.blocked.erase cause, portBlocked := false } := by
      simp [State.unblock, hempty]
    refine ⟨fun _ => check_eq_ok hport, ?_⟩
    rw [hstate]
    split at h
    · rename_i hflag
      obtain ⟨s₁, hretry, h⟩ := bind_eq_ok h
      cases h
      refine (Micro.retryCache hph ?_ ?_ (sendRetryReq_ok hretry)).path
      · exact hflag
      · exact hempty
    · cases h
      exact Relation.ReflTransGen.refl
  · rename_i hne
    cases h
    have hstate : s.unblock cause = { s with blocked := s.blocked.erase cause } := by
      simp [State.unblock, hne]
    refine ⟨fun h => absurd h hne, ?_⟩
    rw [hstate]
    exact Relation.ReflTransGen.refl

theorem deallocate_micros (s₀ : State) (hph : φ.SendsRetry)
    (h : deallocate c e.upstream s index r w = .ok s') :
    ∃ s₁, Freed s index r w s₁ ∧ Micros c e s₀ (φ, s₁) (φ, s') := by
  obtain ⟨q, hq, h⟩ := bind_eq_ok h
  have hq := MSHRQueue.deallocate_ok hq
  simp only [Bool.and_eq_true, Bool.not_eq_true'] at h
  split at h
  · rename_i hopen
    obtain ⟨hport, hpath⟩ := clearBlocked_micros s₀ hph h
    refine ⟨_, .opens q hq hopen.1 hopen.2 ?_, hpath⟩
    cases index <;> exact hport
  · rename_i hclosed
    cases h
    refine ⟨_, .keeps q hq fun hw => ?_, Relation.ReflTransGen.refl⟩
    simpa [hw] using hclosed

theorem releaseTargets_micros {pam : Bool} (hqueue : p.queue = .mshrs)
    (h : releaseTargets c e.upstream s p.mshr = .ok s') :
    Micros c e s₀ (.answering p w pam, s) (.consuming p w pam, s') := by
  unfold releaseTargets at h
  split at h
  · rename_i hm
    obtain ⟨s₁, hclear, h⟩ := bind_eq_ok h
    cases h
    obtain ⟨hport, hpath⟩ :=
      clearBlocked_micros s₀ (φ := .released p w pam) trivial hclear
    exact (Micro.release p w pam hqueue hm hport).path.trans (hpath.tail (.released p w pam))
  · rename_i hm
    cases h
    exact (Micro.keep p w pam fun _ => hm).path

/-! ## The DRAM side -/

theorem signalDrainDone_eq (s : State) (done : Bool) :
    ∃ d, signalDrainDone s done = { s with drainState := d } := by
  unfold signalDrainDone
  split
  · exact ⟨_, rfl⟩
  · exact ⟨s.drainState, rfl⟩

/-- After a turn the bus does reads or writes, and a turn does not start writes. -/
theorem turnBus_eq (s : State) : ∃ b w, (b.Writes → s.busState.Writes) ∧ (b = .read ∨ b = .write) ∧
      turnBus s = { s with busState := b, writesThisTime := w } := by
  unfold turnBus
  split
  · rename_i hbus
    exact ⟨_, _, fun _ => .inl hbus, .inr rfl, rfl⟩
  · refine ⟨.read, 0, fun h => ?_, .inl rfl, rfl⟩
    rcases h with h | h <;> cases h
  · rename_i hread hwrite
    refine ⟨s.busState, s.writesThisTime, id, ?_, rfl⟩
    cases hbus : s.busState with
    | readToWrite => exact absurd hbus hread
    | writeToRead => exact absurd hbus hwrite
    | read => exact .inl rfl
    | write => exact .inr rfl

theorem takeNext_some {α : Type} {queue rest : List α}
    {x : α} (h : takeNext queue choice = some (x, rest)) :
    ∃ i, queue[i]? = some x ∧ rest = queue.eraseIdx i := by
  unfold takeNext at h
  cases choice with
  | none => cases h
  | some i =>
    cases hx : queue[i]? with
    | none => simp [hx] at h
    | some y =>
      simp only [hx, Option.bind_eq_bind, Option.bind_some, Option.pure_def,
        Option.some.injEq, Prod.mk.injEq] at h
      exact ⟨i, by rw [hx, h.1], h.2.symm⟩

/-- At most one packet left the three queues: a read for the queue of responses, a write for that
of served writes, and a fill for nowhere. -/
inductive ServesOne (s s' : State) : Prop
  | none (hread : s'.readQueue = s.readQueue) (hwrite : s'.writeQueue = s.writeQueue)
      (hfill : s'.fillQueue = s.fillQueue) (hresp : s'.respQueue = s.respQueue)
      (hserved : s'.dramPktWriteRespQueue = s.dramPktWriteRespQueue)
  | read (i : ℕ) (p : DRAMPacket) (hp : s.readQueue[i]? = some p)
      (hread : s'.readQueue = s.readQueue.eraseIdx i) (hwrite : s'.writeQueue = s.writeQueue)
      (hfill : s'.fillQueue = s.fillQueue) (hresp : s'.respQueue = s.respQueue ++ [p])
      (hserved : s'.dramPktWriteRespQueue = s.dramPktWriteRespQueue)
  | write (i : ℕ) (p : DRAMPacket) (hp : s.writeQueue[i]? = some p)
      (hread : s'.readQueue = s.readQueue) (hwrite : s'.writeQueue = s.writeQueue.eraseIdx i)
      (hfill : s'.fillQueue = s.fillQueue) (hresp : s'.respQueue = s.respQueue)
      (hserved : s'.dramPktWriteRespQueue = s.dramPktWriteRespQueue ++ [p])
  | fill (i : ℕ) (p : FillPacket) (hp : s.fillQueue[i]? = some p)
      (hread : s'.readQueue = s.readQueue) (hwrite : s'.writeQueue = s.writeQueue)
      (hfill : s'.fillQueue = s.fillQueue.eraseIdx i) (hresp : s'.respQueue = s.respQueue)
      (hserved : s'.dramPktWriteRespQueue = s.dramPktWriteRespQueue)

theorem serveRead_spec {b : BusState} {w : ℕ} {goesOn : Bool} (hb : b.Writes → s.busState.Writes)
    (h : serveRead c { s with busState := b, writesThisTime := w } choice = (goesOn, s₁)) :
    Micros c e s (.start, s) (.done, s₁) ∧ ServesOne s s₁ := by
  have hwaiting : s.writeQueue.length + s.fillQueue.length ≠ 0 →
      s.writeQueue ≠ [] ∨ s.fillQueue ≠ [] := by
    intro hne
    by_contra hnone
    rw [not_or, not_not, not_not] at hnone
    exact hne (by rw [hnone.1, hnone.2]; rfl)
  simp only [serveRead] at h
  split at h
  · split at h
    · rename_i hswitch
      cases h
      rw [Bool.and_eq_true, decide_eq_true_eq] at hswitch
      exact ⟨(Micro.bus .readToWrite w s.drainState fun _ => .inr (hwaiting hswitch.1)).path,
        .none rfl rfl rfl rfl rfl⟩
    · cases h
      obtain ⟨d, hd⟩ := signalDrainDone_eq { s with busState := b, writesThisTime := w }
        (s.respQueue.isEmpty && s.dramPktWriteRespQueue.isEmpty)
      rw [hd]
      exact ⟨(Micro.bus b w d fun h => .inl (hb h)).path, .none rfl rfl rfl rfl rfl⟩
  · split at h
    · cases h
      exact ⟨(Micro.bus b w s.drainState fun h => .inl (hb h)).path, .none rfl rfl rfl rfl rfl⟩
    · rename_i p rest hnext
      obtain ⟨i, hp, rfl⟩ := takeNext_some hnext
      split at h
      · rename_i hhigh
        cases h
        refine ⟨(Micro.serveRead .readToWrite w s.drainState i p hp fun _ => .inr ?_).path,
          .read i p hp rfl rfl rfl rfl rfl⟩
        exact hwaiting (Nat.ne_of_gt (Nat.zero_lt_of_lt hhigh))
      · cases h
        exact ⟨(Micro.serveRead b w s.drainState i p hp fun h => .inl (hb h)).path,
          .read i p hp rfl rfl rfl rfl rfl⟩

/-- One burst of the write queue or of the fill queue was served, and the bus
may have turned. -/
theorem serveWriteOrFill_spec {b : BusState} {w : ℕ}
    (h : serveWriteOrFill c { s with busState := b, writesThisTime := w } choice = .ok (some s₁))
    (b' : BusState) (hb : b'.Writes → s₁.writeQueue ≠ [] ∨ s₁.fillQueue ≠ []) :
    Micros c e s (.start, s) (.done, { s₁ with busState := b' }) ∧
      ServesOne s { s₁ with busState := b' } := by
  unfold serveWriteOrFill at h
  split at h
  · cases hnext : takeNext s.writeQueue choice with
    | none => simp [serveWriteBurst, hnext, pure, Except.pure] at h
    | some x =>
      obtain ⟨p, rest⟩ := x
      obtain ⟨i, hp, rfl⟩ := takeNext_some hnext
      simp only [serveWriteBurst, hnext, Option.bind_eq_bind, Option.bind_some,
        pure, Except.pure, Except.ok.injEq, Option.some.injEq] at h
      subst h
      exact ⟨(Micro.serveWrite b' (w + 1) s.drainState i p hp hb).path,
        .write i p hp rfl rfl rfl rfl rfl⟩
  · split at h
    · obtain ⟨_, -, h⟩ := bind_eq_ok h
      split at h
      · cases h
      · rename_i p rest hnext
        obtain ⟨i, hp, rfl⟩ := takeNext_some hnext
        obtain ⟨_, -, h⟩ := bind_eq_ok h
        cases h
        have hp : s.fillQueue[i]? = some p := hp
        exact ⟨(Micro.serveFill b' (w + 1) s.drainState i p hp hb).path,
          .fill i p hp rfl rfl rfl rfl rfl⟩
    · cases h

theorem serve_spec {goesOn : Bool} (h : serve c (turnBus s) choice = .ok (goesOn, s₁)) :
    Micros c e s (.start, s) (.done, s₁) ∧ ServesOne s s₁ := by
  obtain ⟨b, w, hb, -, hturn⟩ := turnBus_eq s
  rw [hturn] at h
  unfold serve at h
  split at h
  · exact serveRead_spec hb (Except.ok.inj h)
  · obtain ⟨served, hserved, h⟩ := bind_eq_ok h
    cases served with
    | none =>
      cases h
      exact ⟨(Micro.bus b w s.drainState fun h => .inl (hb h)).path, .none rfl rfl rfl rfl rfl⟩
    | some s₂ =>
      simp only at h
      split at h
      · cases h
        refine serveWriteOrFill_spec hserved .writeToRead fun h => ?_
        rcases h with h | h <;> cases h
      · rename_i hends
        cases h
        refine serveWriteOrFill_spec hserved _ fun _ => ?_
        by_contra hnone
        rw [not_or, not_not, not_not] at hnone
        exact hends (by simp [endsWrites, hnone.1, hnone.2])

theorem processNextReqEvent_micros {busy : Bool}
    (h : processNextReqEvent c e.upstream s busy choice = .ok s') :
    Micros c e s (.start, s) (.done, s') := by
  unfold processNextReqEvent at h
  split at h
  · cases h
    exact .skip
  · obtain ⟨⟨goesOn, s₁⟩, hserve, h⟩ := bind_eq_ok h
    have hpath := (serve_spec (e := e) hserve).1
    simp only [Bool.and_eq_true] at h
    split at h
    · rename_i hretry
      exact hpath.tail (.retryWrite hretry.1.2 (sendRetryReq_ok h))
    · cases h
      exact hpath

theorem accessAndRespondAll_eq (s : State) (pkts : List Packet) : s.accessAndRespondAll pkts =
      { s with responses := s.responses ++ pkts.map s.accessRead } := by
  induction pkts generalizing s with
  | nil => simp [State.accessAndRespondAll]
  | cons pkt pkts ih =>
    show (s.accessAndRespond pkt).accessAndRespondAll pkts = _
    rw [ih]
    simp only [State.accessAndRespond, State.respond, List.map_cons,
      List.append_assoc, List.singleton_append]
    rfl

theorem copyAndRespondAll_eq (s : State) (data : Data) (stamp : ℕ) (pkts : List Packet) :
    s.copyAndRespondAll data stamp pkts = { s with responses := s.responses ++ pkts.map fun t =>
          { t with data := data, stamp := stamp } } := by
  induction pkts generalizing s with
  | nil => simp [State.copyAndRespondAll]
  | cons pkt pkts ih =>
    show (s.respond { pkt with data := data, stamp := stamp }).copyAndRespondAll data stamp pkts = _
    rw [ih]
    simp [State.respond]

theorem respondPamHit_ok (h : respondPamHit s pkt r = .ok s') :
    ∃ first rest, (s.mshrQueue.registers r).targets = first :: rest ∧ s' = { s with
        responses := s.responses ++ (pkt :: rest).map s.accessRead
        mshrQueue := s.mshrQueue.setTargets r [] } := by
  obtain ⟨_, hne, h⟩ := bind_eq_ok h
  have hne := check_eq_ok hne
  obtain ⟨first, rest, htargets⟩ := List.exists_cons_of_ne_nil hne
  have htargets : (s.mshrQueue.registers r).targets = first :: rest := htargets
  cases h
  refine ⟨first, rest, htargets, ?_⟩
  rw [accessAndRespondAll_eq]
  simp only [State.accessAndRespond, State.respond, State.clearTargets, htargets,
    List.tail_cons, List.append_assoc, List.singleton_append, List.map_cons]
  rfl

theorem respondPamMiss_ok (h : respondPamMiss c s pkt r = .ok s') :
    ∃ first rest, (s.mshrQueue.registers r).targets = first :: rest ∧ Fills c { s with
        responses := s.responses ++ (pkt :: rest).map fun t =>
          { t with data := first.data, stamp := first.stamp }
        mshrQueue := s.mshrQueue.setTargets r [] } first.addr pkt.contextId s' := by
  unfold respondPamMiss at h
  split at h
  · cases h
  · rename_i first rest htargets
    rw [copyAndRespondAll_eq] at h
    exact ⟨first, rest, htargets, addToFillQueue_ok h⟩

/-- A fill leaves the outstanding misses and the requests to the memory
alone. -/
theorem Fills.mshrQueue_eq {addr ctx : ℕ} (h : Fills c s addr ctx s') :
    s'.mshrQueue = s.mshrQueue := by
  cases h <;> rfl

theorem finishPamRead_micros {pr : PamReq} {hit : Bool}
    (hlast : LastPamBurst e s pkt pr) (hhit : (s.lookup c pkt).1 = hit)
    (h : finishPamRead c e.upstream { s with
      burstsServiced := s.countBurst pkt
      tags := (s.lookup c pkt).2 } pkt pr hit = .ok s') :
    Micros c e s (.start, s) (.finished pkt, s') := by
  unfold finishPamRead at h
  split at h
  · -- the memory has answered
    rename_i hdone
    obtain ⟨s₁, hresp, h⟩ := bind_eq_ok h
    obtain ⟨s₂, hfree, hpath⟩ :=
      deallocate_micros s (φ := .finished pkt) trivial h
    cases hit with
    | true =>
      obtain ⟨first, rest, htargets, rfl⟩ := respondPamHit_ok hresp
      simp only [State.setPamQueue, update_idem] at hfree
      exact (Micro.pamDoneHit pkt pr first rest hlast hdone hhit htargets hfree).path.trans hpath
    | false =>
      obtain ⟨first, rest, htargets, hfill⟩ := respondPamMiss_ok hresp
      rw [hfill.mshrQueue_eq] at hfree
      exact (Micro.pamDoneMiss pkt pr first rest hlast hdone hhit htargets
        hfill hfree).path.trans hpath
  · rename_i hdone
    rw [Bool.not_eq_true] at hdone
    split at h
    · -- the memory has not answered, and the lookup hit
      rename_i htrue
      subst htrue
      obtain ⟨s₁, hresp, h⟩ := bind_eq_ok h
      obtain ⟨s₂, hdealloc, h⟩ := bind_eq_ok h
      obtain ⟨first, rest, htargets, rfl⟩ := respondPamHit_ok hresp
      obtain ⟨s₃, hfree, hpath⟩ := deallocate_micros s
        (φ := if (s.mshrQueue.registers pr.mshr).inService then .finished pkt
          else .forgetting pkt) (by split <;> trivial) hdealloc
      have hfirst := (Micro.pamHit pkt pr first rest hlast hdone hhit htargets
        hfree).path.trans hpath
      have hserv : ((s.mshrQueue.setTargets pr.mshr []).registers
          pr.mshr).inService = (s.mshrQueue.registers pr.mshr).inService := by
        simp [MSHRQueue.setTargets, MSHRFile.setRegister]
      change (if ((s.mshrQueue.setTargets pr.mshr []).registers
        pr.mshr).inService then pure s₂
        else pure (s₂.setPamQueue pkt.addr none)) = Except.ok s' at h
      rw [hserv] at h
      split at h
      · rename_i hin
        cases h
        rwa [if_pos hin] at hfirst
      · rename_i hin
        cases h
        rw [if_neg hin] at hfirst
        exact hfirst.tail (.forget pkt)
    · -- the memory has not answered, and the lookup missed
      rename_i hfalse
      rw [Bool.not_eq_true] at hfalse
      subst hfalse
      cases h
      exact (Micro.pamMiss pkt pr hlast hdone hhit).path

theorem finishSerialRead_micros {hit : Bool} (hlast : LastBurst e s pkt)
    (hpam : s.NotPam pkt) (hhit : (s.lookup c pkt).1 = hit)
    (h : finishSerialRead c { s with
      burstsServiced := s.countBurst pkt
      tags := (s.lookup c pkt).2 } pkt hit = .ok s') :
    Micros c e s (.start, s) (.finished pkt, s') := by
  unfold finishSerialRead at h
  cases hit with
  | true =>
    cases h
    exact (Micro.serialHit pkt hlast hpam hhit).path
  | false =>
    simp only [Bool.false_eq_true, if_false] at h
    split at h
    · rename_i m hm
      rcases State.coalesce_ok h with ⟨hlen, rfl⟩ | ⟨hlen, hport, rfl⟩
      · exact (Micro.serialCoalesced pkt m hlast hpam hhit hm hlen).path
      · exact (Micro.serialCoalescedLast pkt m hlast hpam hhit hm hlen hport).path
    · rename_i hnone
      obtain ⟨⟨m, s₁⟩, halloc, h⟩ := bind_eq_ok h
      cases h
      obtain ⟨q, hq, hport, rfl⟩ := State.allocateMissBuffer_ok halloc
      exact (Micro.serialMiss pkt m q hlast hpam hhit hnone hq hport).path

theorem finishRead_micros (hlast : LastBurst e s pkt)
    (h : finishRead c e.upstream (s.serviceBurst pkt) pkt = .ok s') :
    Micros c e s (.start, s) (.finished pkt, s') := by
  simp only [finishRead] at h
  split at h
  · rename_i pr hentry
    split at h
    · rename_i hid
      exact finishPamRead_micros ⟨hlast, hentry, hid⟩ rfl h
    · rename_i hid
      refine finishSerialRead_micros hlast (fun pr' hpr' => ?_) rfl h
      cases hentry.symm.trans hpr'
      exact hid
  · rename_i hentry
    refine finishSerialRead_micros hlast (fun pr' hpr' => ?_) rfl h
    cases hentry.symm.trans hpr'

/-- The burst that was looked up leaves the queue, and the port may be asked to
retry. -/
theorem processRespondHelper_micros (s₀ : State)
    (h : processRespondHelper c e.upstream s = .ok s') :
    ∃ d, Micros c e s₀ (.done, { s with respQueue := s.respQueue.tail, drainState := d })
      (.done, s') := by
  simp only [processRespondHelper] at h
  obtain ⟨d, hd⟩ := signalDrainDone_eq { s with respQueue := s.respQueue.tail }
    (s.respQueue.tail.isEmpty && s.writeQueue.isEmpty && s.readQueue.isEmpty &&
      s.dramPktWriteRespQueue.isEmpty)
  rw [hd] at h
  refine ⟨d, ?_⟩
  split at h
  · rename_i hflag
    exact (Micro.retryRead hflag (sendRetryReq_ok h)).path
  · cases h
    exact Relation.ReflTransGen.refl

theorem processRespondEvent_micros (he : ∃ up, e = .processRespondEvent up)
    (h : processRespondEvent c e.upstream s = .ok s') :
    Micros c e s (.start, s) (.done, s') := by
  unfold processRespondEvent at h
  split at h
  · cases h
    exact .skip
  · rename_i p rest hq
    obtain ⟨s₁, hserve, h⟩ := bind_eq_ok h
    obtain ⟨d, hpath⟩ := processRespondHelper_micros s h
    have hcount : (s.serviceBurst p.pkt).burstsServiced p.pkt.id =
        s.burstsServiced p.pkt.id + 1 := by
      simp [State.serviceBurst]
    unfold serviceRead at hserve
    rw [hcount] at hserve
    split at hserve
    · rename_i hlast
      have hburst : LastBurst e s p.pkt := ⟨he, ⟨p.addr, rest, hq⟩, hlast⟩
      exact ((finishRead_micros hburst hserve).tail (.pop p.pkt d)).trans hpath
    · rename_i hmore
      cases hserve
      have htail : s.respQueue.tail = rest := by rw [hq, List.tail_cons]
      refine (Micro.burst p rest d hq hmore).path.trans ?_
      rw [← htail]
      exact hpath

/-! ## Served writes -/

theorem writeBackDirty_ok {addr : ℕ} (h : writeBackDirty c s addr = .ok s') :
    (s.tags.sets (c.setOf addr)).dirty = false ∧ s' = s ∨
      (s.tags.sets (c.setOf addr)).dirty ∧
        doWriteBack c s (s.tags.victim c addr) (s.tags.victimContext c addr) =
          .ok s' := by
  unfold writeBackDirty at h
  split at h
  · rename_i hdirty
    exact .inr ⟨hdirty, h⟩
  · rename_i hdirty
    cases h
    exact .inl ⟨Bool.not_eq_true _ ▸ hdirty, rfl⟩

theorem finishWrite_micros (d : DrainState)
    (hlast : LastWriteBurst e s pkt s.dramPktWriteRespQueue.tail)
    (h : finishWrite c (s.serviceBurst pkt) pkt = .ok s') :
    Micros c e s (.start, s) (.done, { s' with
      dramPktWriteRespQueue := s'.dramPktWriteRespQueue.tail
      drainState := d }) := by
  obtain ⟨s₁, hplace, h⟩ := bind_eq_ok h
  cases h
  change placeWrite c { s with
    burstsServiced := s.countBurst pkt
    tags := (s.lookup c pkt).2 } pkt (s.lookup c pkt).1 = _ at hplace
  unfold placeWrite at hplace
  split at hplace
  · rename_i hhit
    cases hplace
    exact (Micro.writeHit pkt _ d hlast hhit).path
  · rename_i hmiss
    rw [Bool.not_eq_true] at hmiss
    split at hplace
    · rename_i halloc
      obtain ⟨s₂, hback, hplace⟩ := bind_eq_ok hplace
      cases hplace
      rcases writeBackDirty_ok hback with ⟨hclean, rfl⟩ | ⟨hdirty, hback⟩
      · exact (Micro.writeAllocClean pkt _ d hlast hmiss halloc hclean).path
      · obtain ⟨m, q, hq, hport, rfl⟩ := doWriteBack_ok hback
        exact (Micro.writeAllocDirty pkt _ d m q hlast hmiss halloc hdirty hq hport).path
    · rename_i halloc
      rw [Bool.not_eq_true] at halloc
      obtain ⟨m, q, hq, hport, rfl⟩ := State.allocateWriteBuffer_ok hplace
      exact (Micro.writeMiss pkt _ d m q hlast hmiss halloc hq hport).path

theorem processWriteRespondEvent_micros (he : e = .processWriteRespondEvent)
    (h : processWriteRespondEvent c s = .ok s') :
    Micros c e s (.start, s) (.done, s') := by
  unfold processWriteRespondEvent at h
  split at h
  · cases h
    exact .skip
  · rename_i p rest hq
    obtain ⟨s₁, hserve, h⟩ := bind_eq_ok h
    have hcount : (s.serviceBurst p.pkt).burstsServiced p.pkt.id =
        s.burstsServiced p.pkt.id + 1 := by
      simp [State.serviceBurst]
    have htail : s.dramPktWriteRespQueue.tail = rest := by
      rw [hq, List.tail_cons]
    obtain ⟨d, hd⟩ := signalDrainDone_eq
      { s₁ with dramPktWriteRespQueue := s₁.dramPktWriteRespQueue.tail }
      (s₁.dramPktWriteRespQueue.tail.isEmpty && s₁.writeQueue.isEmpty &&
        s₁.readQueue.isEmpty && s₁.respQueue.isEmpty)
    simp only [hd] at h
    cases h
    unfold serviceWrite at hserve
    rw [hcount] at hserve
    split at hserve
    · rename_i hlast
      refine finishWrite_micros d ⟨he, ⟨p.addr, ?_⟩, hlast⟩ hserve
      rw [hq, List.tail_cons]
    · rename_i hmore
      cases hserve
      have hpath := (Micro.writeBurst (c := c) (e := e) p rest d hq hmore).path
      rwa [← htail] at hpath

/-! ## The memory side -/

/-- Sending a request does not change how full the queue is. -/
theorem markInService_eq {q : MSHRQueue} (hq : (s.queue index).markInService r = .ok q) :
    q.isFull = (s.queue index).isFull := by
  have h := (MSHRQueue.markInService_ok hq).file
  simp only [MSHRFile.isFull, h, MSHRFile.sendAt, MSHRFile.setRegister]

theorem markInService_ok {up : Upstream} (h : markInService c up s index r = .ok s') :
    ∃ q, (s.queue index).Sends r q ∧ s' = s.setQueue index q := by
  obtain ⟨q, hq, h⟩ := bind_eq_ok h
  have hfull := markInService_eq hq
  rw [if_neg (by simp [hfull])] at h
  cases h
  exact ⟨q, MSHRQueue.markInService_ok hq, rfl⟩

theorem sendDeferredPacket_micros {accepted : Bool} (hw : Wakes s e s₁)
    (h : sendDeferredPacket c e.upstream s₁ accepted = .ok s') :
    Micros c e s (.start, s) (.done, s') := by
  unfold sendDeferredPacket at h
  split at h
  · rename_i hnone
    cases h
    exact (Micro.sendNothing hw hnone).path
  · rename_i index r hnext
    split at h
    · cases h
    · rename_i target rest htargets
      split at h
      · obtain ⟨s₂, hmark, h⟩ := bind_eq_ok h
        obtain ⟨q, hq, rfl⟩ := markInService_ok hmark
        obtain ⟨-, rfl⟩ := State.schedSendEvent_ok h
        cases index with
        | mshrs => exact (Micro.sentMiss r target rest q hw hnext htargets hq).path
        | writeBuffer =>
          exact (Micro.sentWrite r target rest q hw hnext htargets hq).path
      · cases h
        exact (Micro.sendRefused index r hw hnext).path

theorem fillOnResp_ok (h : fillOnResp c s p = .ok s') : FillsOnResp c s p s' := by
  simp only [fillOnResp] at h
  split at h
  · rename_i habsent
    exact .fills (by simpa using habsent) (addToFillQueue_ok h)
  · rename_i hpresent
    cases h
    simp only [Bool.or_eq_true, Bool.not_eq_true', bne_iff_ne, ne_eq,
      not_or, Bool.not_eq_false, not_not] at hpresent
    exact .present hpresent.1 hpresent.2

theorem releaseMiss_micros (h : releaseMiss c e.upstream s p = .ok s') :
    Micros c e s₀ (.answering p w false, s) (.consuming p w false, s') := by
  unfold releaseMiss at h
  split at h
  · rename_i hqueue
    exact releaseTargets_micros hqueue h
  · rename_i hqueue
    cases h
    exact (Micro.keep p w false fun hq => absurd hq hqueue).path

/-- The targets of an answer are used up and their register is freed. -/
theorem consumeTargets_micro (h : consumeTargets c s p = .ok s₁)
    (hfree : Freed s₁ p.queue p.mshr w s') :
    Micro c e s₀ (.consuming p w false) s .done s' := by
  simp only [consumeTargets] at h
  split at h
  · rename_i hqueue hcmd
    rw [hqueue] at h hfree
    obtain ⟨_, hne, h⟩ := bind_eq_ok h
    obtain ⟨s₂, hfill, h⟩ := bind_eq_ok h
    obtain ⟨_, haddr, h⟩ := bind_eq_ok h
    rw [accessAndRespondAll_eq] at h
    cases h
    exact .readAnswered p w hqueue hcmd (check_eq_ok hne) (check_eq_ok haddr)
      (fillOnResp_ok hfill) hfree
  · rename_i hqueue hcmd
    rw [hqueue] at h hfree
    obtain ⟨_, hone, h⟩ := bind_eq_ok h
    cases h
    exact .writeAnswered p w hqueue hcmd (check_eq_ok hone) hfree
  · cases h

theorem recvSerialResp_micros (h : recvSerialResp c e.upstream s p = .ok s') :
    Micros c e s₀ (.answering p (s.queue p.queue).isFull false, s) (.done, s') := by
  obtain ⟨s₁, hrel, h⟩ := bind_eq_ok h
  obtain ⟨s₂, hcons, h⟩ := bind_eq_ok h
  obtain ⟨s₃, hfree, hend⟩ := deallocate_micros s₀ (φ := .done) trivial h
  exact ((releaseMiss_micros hrel).tail (consumeTargets_micro hcons hfree)).trans hend

theorem finishPamMiss_micros (s₀ : State) {pr : PamReq} (hqueue : p.queue = .mshrs)
    (h : finishPamMiss c e.upstream s p pr = .ok s') :
    p.mshr = pr.mshr ∧ Micros c e s₀ (.answering p s.mshrQueue.isFull true, s)
        (.done, s'.setPamQueue p.addr none) := by
  obtain ⟨_, hmshr, h⟩ := bind_eq_ok h
  obtain ⟨s₁, hrel, h⟩ := bind_eq_ok h
  obtain ⟨_, hne, h⟩ := bind_eq_ok h
  obtain ⟨s₂, hdealloc, h⟩ := bind_eq_ok h
  refine ⟨check_eq_ok hmshr, (releaseTargets_micros hqueue hrel).trans ?_⟩
  obtain ⟨first, rest, htargets⟩ :=
    List.exists_cons_of_ne_nil (check_eq_ok hne)
  obtain ⟨s₃, hfree, hpath⟩ :=
    deallocate_micros s₀ (φ := .filling p) trivial hdealloc
  rw [copyAndRespondAll_eq, htargets] at hfree
  exact ((Micro.pamAnswered p _ first rest hqueue htargets hfree).path.trans
    hpath).tail (.filled p (addToFillQueue_ok h))

theorem recvTimingResp_micros {i : ℕ} (he : e = .recvTimingResp i up) (hp : s.mem[i]? = some p)
    (h : recvTimingResp c e.upstream { s with mem := s.mem.eraseIdx i } p = .ok s') :
    Micros c e s (.start, s) (.done, s') := by
  unfold recvTimingResp at h
  split at h
  · rename_i pr hqueue hpr
    simp only [recvPamResp] at h
    split at h
    · rename_i hhit
      split at h
      · cases h
      · rename_i first rest htargets
        cases h
        exact (Micro.pamEarly i up p pr first rest he hp hqueue hpr hhit htargets).path
    · rename_i hhit
      cases h
      simp only [State.setPamQueue, update_idem]
      exact (Micro.pamLate i up p pr he hp hqueue hpr hhit).path
    · rename_i hhit
      obtain ⟨s₁, hmiss, h⟩ := bind_eq_ok h
      cases h
      obtain ⟨hmshr, hpath⟩ := finishPamMiss_micros s hqueue hmiss
      exact (Micro.pamAnswer i up p pr he hp hqueue hpr hhit hmshr).path.trans hpath
  · rename_i hother
    refine (Micro.serialAnswer i up p he hp fun hqueue => ?_).path.trans (recvSerialResp_micros h)
    cases hpr : s.pamQueue p.addr with
    | none => rfl
    | some pr => exact absurd hpr (hother pr hqueue)

/-- A step of the machine is a path of pieces of its handler. -/
theorem step_micros (h : step c s e = .ok s') : Micros c e s (.start, s) (.done, s') := by
  cases e with
  | recvTimingReq r => exact (Micro.request r rfl (recvTimingReq_ok h)).path
  | processNextReqEvent busy choice up => exact processNextReqEvent_micros h
  | processRespondEvent up => exact processRespondEvent_micros ⟨up, rfl⟩ h
  | processWriteRespondEvent => exact processWriteRespondEvent_micros rfl h
  | processSendEvent accepted up =>
    simp only [step, processSendEvent] at h
    split at h
    · cases h
      exact .skip
    · rename_i t hev
      split at h
      · rename_i ht
        obtain ⟨_, hwait, h⟩ := bind_eq_ok h
        exact sendDeferredPacket_micros (.event t accepted up hev ht (check_eq_ok hwait)) h
      · cases h
        exact .skip
  | recvReqRetry accepted up =>
    simp only [step, recvReqRetry] at h
    split at h
    · rename_i hwait
      exact sendDeferredPacket_micros (.retry accepted up hwait) h
    · cases h
      exact .skip
  | recvTimingResp i up =>
    simp only [step] at h
    split at h
    · cases h
      exact .skip
    · rename_i p hp
      exact recvTimingResp_micros rfl hp h
  | advance t =>
    simp only [step] at h
    split at h
    · rename_i hadv
      cases h
      refine (Micro.advance t hadv.1 fun u hu => ?_).path
      simpa [hu] using hadv.2
    · cases h
      exact .skip
  | setGpuRunning running =>
    cases h
    exact (Micro.gpuRunning running).path
  | drain =>
    simp only [step, drain] at h
    split at h
    · cases h
      exact (Micro.bus s.busState s.writesThisTime .drained .inl).path
    · cases h
      exact (Micro.bus s.busState s.writesThisTime .draining .inl).path
  | drainResume =>
    cases h
    exact (Micro.bus s.busState s.writesThisTime .running .inl).path

/-- An invariant of the phases that every piece of a handler preserves. -/
theorem Micros.invariant {I : Phase → State → Prop} {a b : Phase × State} (h : Micros c e s₀ a b)
    (ha : I a.1 a.2) (hmicro : ∀ φ s φ' s', I φ s → Micro c e s₀ φ s φ' s' → I φ' s') :
    I b.1 b.2 := by
  induction h with
  | refl => exact ha
  | tail _ hlast ih => exact hmicro _ _ _ _ ih hlast

/-! ## Where an answer comes from -/

/-- An event that delivers an answer of the memory. -/
def Event.Answers (e : Event) (s₀ : State) (p : MemPacket) : Prop :=
  ∃ i up, e = .recvTimingResp i up ∧ s₀.mem[i]? = some p

/-- The answer that a handler works on was in the memory when the handler
began, and so was the miss that ran out of targets. -/
def Phase.Origin (e : Event) (s₀ : State) : Phase → State → Prop
  | .answering p _ _, s => e.Answers s₀ p ∧ s.noTargetMSHR = s₀.noTargetMSHR
  | .released p _ _, _ =>
    e.Answers s₀ p ∧ p.queue = .mshrs ∧ s₀.noTargetMSHR = some p.mshr
  | _, _ => True

theorem Micro.origin {φ' : Phase} (h : Micro c e s₀ φ s φ' s')
    (hs : φ.Origin e s₀ s) : φ'.Origin e s₀ s' := by
  cases h with
  | retryCache hph =>
    cases φ with
    | released => exact hs
    | answering => exact hph.elim
    | _ => trivial
  | pamHit => split <;> trivial
  | pamAnswer i up p pr he hp | serialAnswer i up p he hp => exact ⟨⟨i, up, he, hp⟩, rfl⟩
  | release p w pam hqueue hm => exact ⟨hs.1, hqueue, hs.2 ▸ hm⟩
  | _ => trivial

/-- The rule for invariants of the controller: `I` holds initially, and `J`,
which may also speak about the event and the state in which its handler began,
carries it through the pieces of a handler. -/
theorem Reaches.invariant_of_handlers {I : State → Prop} {J : Event → State → Phase → State → Prop}
    {ok : State → Event → Prop} (h : Reaches c ok s) (hinit : ∀ store, I (State.init c store))
    (hstart : ∀ e s₀, ok s₀ e → I s₀ → J e s₀ .start s₀)
    (hmicro : ∀ e s₀, ok s₀ e → ∀ φ s φ' s', J e s₀ φ s → Micro c e s₀ φ s φ' s' → J e s₀ φ' s')
    (hdone : ∀ e s₀ s, J e s₀ .done s → I s) : I s := by
  obtain ⟨store, h⟩ := h
  refine Reach.invariant h (hinit store) fun s e hs hok => ?_
  refine post_of_forall fun s' hstep => hdone e s s' ?_
  exact (step_micros hstep).invariant (hstart e s hok hs) (hmicro e s hok)

/-- The rule for an invariant of the phases that does not mention where the
handler began. -/
theorem Reaches.invariant {I : Phase → State → Prop} {ok : State → Event → Prop}
    (h : Reaches c ok s) (hinit : ∀ store, I .start (State.init c store))
    (hdone : ∀ s, I .done s → I .start s)
    (hmicro : ∀ e s₀, ok s₀ e → ∀ φ s φ' s', I φ s → Micro c e s₀ φ s φ' s' → I φ' s') :
    I .start s :=
  h.invariant_of_handlers (J := fun _ _ => I) hinit (fun _ _ _ hs => hs) hmicro fun _ _ s => hdone s

end Paths

end Gem5Gpu.DRAMCache
