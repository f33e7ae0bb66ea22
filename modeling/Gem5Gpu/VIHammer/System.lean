import Gem5Gpu.VIHammer.CPUActions
import Gem5Gpu.VIHammer.DirActions
import Gem5Gpu.VIHammer.GPUActions

/-!
# A block in the whole system

The caches, the directory, the memory and the messages between them, for one
block.  `ι` is the type of the last-level caches.  A queue is a multiset: the
network may reorder messages, and neither loses nor duplicates one.  A message
that a controller stalls stays in its queue.

A step of the system is one transition of one controller, one request from
outside, or one access of the memory.  What other blocks do to this one is the
choice of a victim, so a replacement can come at any time.  A step that is not
possible in a state leaves the state as it is.
-/

namespace Gem5Gpu.VIHammer

open Lib

variable {ι : Type} [DecidableEq ι] [Fintype ι] {L : ℕ}

/-- The controller of a last-level cache. -/
inductive Ctl (ι : Type) (L : ℕ)
  | cpu (l : Line CPUCache.State ι L)
  | gpu (l : Line GPUL2Cache.State ι L)
  deriving DecidableEq

/-- A cache with the messages to it and from it. -/
structure Node (ι : Type) (L : ℕ) where
  ctl : Ctl ι L
  triggerQueue : Multiset TriggerType := 0
  responseToCache : Multiset (ResponseMsg ι L) := 0
  forwardToCache : Multiset (RequestMsg ι) := 0
  requestFromCache : Multiset (RequestMsg ι) := 0
  unblockFromCache : Multiset (ResponseMsg ι L) := 0
  /-- The responses of this cache to the directory. -/
  responseFromCache : Multiset (ResponseMsg ι L) := 0

/-- A block in the system. -/
structure Sys (ι : Type) (L : ℕ) where
  node : ι → Node ι L
  dir : Directory.DirLine ι L := {}
  dirTriggerQueue : Multiset TriggerType := 0
  dmaRequestToDir : Multiset (DMARequestMsg L) := 0
  dmaResponseFromDir : Multiset (DMAResponseMsg L) := 0
  requestToMemory : Multiset (MemoryRequest ι L) := 0
  responseFromMemory : Multiset (MemoryMsg ι L) := 0
  memory : DataBlock L
  /-- The loads and stores in the order in which they are performed. -/
  history : List (Callback ι L) := []

/-- The parameters of a system. -/
structure Params where
  cfg : Directory.Config
  noMigAtomic : Bool := true

/-! ## One cache -/

/-- A message at an input port of a cache. -/
inductive Message (ι : Type) (L : ℕ)
  | trigger (t : TriggerType)
  | response (m : ResponseMsg ι L)
  | forward (m : RequestMsg ι)
  deriving DecidableEq

/-- A request from the processor side of a cache. -/
inductive Demand (L : ℕ)
  /-- The request in the mandatory queue of a CPU cache. -/
  | mandatory
  /-- A CPU cache moves the block from an L1 cache to make room for another one. -/
  | makeRoomL1
  /-- The L2 cache gives the block up to make room for another one. -/
  | makeRoomL2
  /-- A request of a GPU L1 cache. -/
  | requestL1 (m : GPUL2Cache.RequestMsgVI L)
  deriving DecidableEq

/-- What a cache does in a transition. -/
structure Output (ι : Type) (L : ℕ) where
  ctl : Ctl ι L
  sent : List (Send ι L)
  dequeued : Bool

namespace Ctl

/-- The result of a transition of a CPU cache. -/
def ofCpu (c : Ctx CPUCache.State ι L) : Output ι L := ⟨.cpu c.toLine, c.sent, c.dequeued⟩

/-- The result of a transition of a GPU L2 cache. -/
def ofGpu (c : Ctx GPUL2Cache.State ι L) : Output ι L := ⟨.gpu c.toLine, c.sent, c.dequeued⟩

/-- The input of a CPU cache and its event. -/
def cpuEvent (env : Env ι) (l : Line CPUCache.State ι L) :
    Message ι L → CPUCache.Input ι L × Option CPUCache.Event
  | .trigger t => (.trigger t, CPUCache.triggerEvent t)
  | .response m => (.response m, CPUCache.responseEvent m.type)
  | .forward m => (.forward m, CPUCache.forwardEvent env l m.type)

/-- The input of a GPU L2 cache and its event. -/
def gpuEvent (env : Env ι) : Message ι L → GPUL2Cache.Input ι L × Option GPUL2Cache.Event
  | .trigger t => (.trigger t, GPUL2Cache.triggerEvent t)
  | .response m => (.response m, GPUL2Cache.responseEvent m.type)
  | .forward m => (.forward m, GPUL2Cache.forwardEvent env m.type)

/-- A cache takes a message from a port. -/
def receive (env : Env ι) (m : Message ι L) : Ctl ι L → Except Fault (Output ι L)
  | .cpu l =>
    match cpuEvent env l m with
    | (_, none) => throw .unexpected
    | (inp, some e) => do
      let c ← CPUCache.doTransition env inp e l
      pure (ofCpu c)
  | .gpu l =>
    match gpuEvent env m with
    | (_, none) => throw .unexpected
    | (inp, some e) => do
      let c ← GPUL2Cache.doTransition env inp e l
      pure (ofGpu c)

/-- The cache memory of a CPU cache that holds the block. -/
def level (l : Line CPUCache.State ι L) : Option Level := l.entry.map (·.level)

/-- A cache takes a demand, if there is one. -/
def serve (env : Env ι) (d : Demand L) : Ctl ι L → Except Fault (Output ι L)
  | .cpu l =>
    match d, l.mandatory, l.outstanding with
    | .mandatory, true, some r => do
      let c ← CPUCache.doTransition env (.mandatory r.type) (CPUCache.mandatoryEvent r.type l) l
      pure (ofCpu c)
    | .makeRoomL1, _, _ =>
      if level l = some .L1D ∨ level l = some .L1I then do
        let c ← CPUCache.doTransition env .elsewhere .L1_to_L2 l
        pure (ofCpu c)
      else pure ⟨.cpu l, [], false⟩
    | .makeRoomL2, _, _ =>
      if level l = some .L2 then do
        let c ← CPUCache.doTransition env .elsewhere .L2_Replacement l
        pure (ofCpu c)
      else pure ⟨.cpu l, [], false⟩
    | _, _, _ => pure ⟨.cpu l, [], false⟩
  | .gpu l =>
    match d with
    | .requestL1 m => do
      let c ← GPUL2Cache.doTransition env (.request m) (GPUL2Cache.requestEvent m) l
      pure (ofGpu c)
    | .makeRoomL2 =>
      if l.entry.isSome then do
        let c ← GPUL2Cache.doTransition env .elsewhere .Replacement l
        pure (ofGpu c)
      else pure ⟨.gpu l, [], false⟩
    | _ => pure ⟨.gpu l, [], false⟩

/-- `Sequencer::makeRequest`: one request for a line at a time. -/
def accept (r : SequencerRequest L) : Ctl ι L → Ctl ι L
  | .cpu l =>
    match l.outstanding with
    | none => .cpu { l with outstanding := some r, mandatory := true }
    | some _ => .cpu l
  | .gpu l => .gpu l

end Ctl

/-! ## The network -/

/-- The caches answer each other and the directory. -/
def Send.routed : Send ι L → Bool
  | .response .dma _ | .response .unset _ => false
  | _ => true

/-- The directory answers the caches. -/
def Directory.DirSend.routed : Directory.DirSend ι L → Bool
  | .response (.cache _) _ => true
  | .response .. => false
  | _ => true

namespace Sys

/-- Change one node. -/
def modify (i : ι) (f : Node ι L → Node ι L) (s : Sys ι L) : Sys ι L :=
  { s with node := Function.update s.node i (f (s.node i)) }

/-- What a cache sends arrives at its destination. -/
def send (i : ι) (s : Sys ι L) : Send ι L → Sys ι L
  | .request m =>
    s.modify i fun nd => { nd with requestFromCache := m ::ₘ nd.requestFromCache }
  | .response (.cache k) m =>
    s.modify k fun nd => { nd with responseToCache := m ::ₘ nd.responseToCache }
  | .response .directory m =>
    s.modify i fun nd => { nd with responseFromCache := m ::ₘ nd.responseFromCache }
  -- a step that sends such a message fails
  | .response .dma _ | .response .unset _ => s
  | .multicast dest m =>
    { s with
      node := fun k =>
        if k ∈ dest then
          { s.node k with responseToCache := m ::ₘ (s.node k).responseToCache }
        else s.node k }
  | .unblock m =>
    s.modify i fun nd => { nd with unblockFromCache := m ::ₘ nd.unblockFromCache }
  | .trigger t => s.modify i fun nd => { nd with triggerQueue := t ::ₘ nd.triggerQueue }
  | .callback c => { s with history := s.history ++ [c] }

/-- What the directory sends arrives at its destination. -/
def sendDir (s : Sys ι L) : Directory.DirSend ι L → Sys ι L
  | .forward dest m =>
    { s with
      node := fun k =>
        if k ∈ dest then
          { s.node k with forwardToCache := m ::ₘ (s.node k).forwardToCache }
        else s.node k }
  | .response (.cache k) m =>
    s.modify k fun nd => { nd with responseToCache := m ::ₘ nd.responseToCache }
  | .response .directory _ | .response .dma _ | .response .unset _ => s
  | .dmaResponse m => { s with dmaResponseFromDir := m ::ₘ s.dmaResponseFromDir }
  | .memory r => { s with requestToMemory := r ::ₘ s.requestToMemory }
  | .trigger t => { s with dirTriggerQueue := t ::ₘ s.dirTriggerQueue }

/-- A cache has made a transition. -/
def settle (i : ι) (o : Output ι L) (s : Sys ι L) : Sys ι L :=
  o.sent.foldl (send i) (s.modify i fun nd => { nd with ctl := o.ctl })

/-- The directory has made a transition. -/
def settleDir (c : Directory.DirCtx ι L) (s : Sys ι L) : Sys ι L :=
  c.sent.foldl sendDir { s with dir := c.toDirLine }

end Sys

namespace Node

variable (nd : Node ι L)

/-- The message is at one of the input ports. -/
def holds (m : Message ι L) : Bool :=
  match m with
  | .trigger t => decide (t ∈ nd.triggerQueue)
  | .response m => decide (m ∈ nd.responseToCache)
  | .forward m => decide (m ∈ nd.forwardToCache)

/-- Dequeue a message. -/
def drop (m : Message ι L) : Node ι L :=
  match m with
  | .trigger t => { nd with triggerQueue := nd.triggerQueue.erase t }
  | .response m => { nd with responseToCache := nd.responseToCache.erase m }
  | .forward m => { nd with forwardToCache := nd.forwardToCache.erase m }

end Node

/-! ## The directory -/

/-- A message at an input port of the directory, with the cache it is from. -/
inductive DirMessage (ι : Type) (L : ℕ)
  | trigger (t : TriggerType)
  | unblock (i : ι) (m : ResponseMsg ι L)
  | response (i : ι) (m : ResponseMsg ι L)
  | memory (m : MemoryMsg ι L)
  | request (i : ι) (m : RequestMsg ι)
  | dma (m : DMARequestMsg L)
  deriving DecidableEq

namespace DirMessage

/-- The input of the directory and its event. -/
def event : DirMessage ι L → Directory.Input ι L × Option Directory.Event
  | .trigger t => (.trigger t, Directory.triggerEvent t)
  | .unblock _ m => (.unblock m, Directory.unblockEvent m.type)
  | .response _ m => (.response m, Directory.responseEvent m.type)
  | .memory m => (.memory m, some (Directory.memoryEvent m))
  | .request _ m => (.request m, Directory.requestEvent m.type)
  | .dma m => (.dma m, some (Directory.dmaEvent m))

end DirMessage

namespace Sys

variable (s : Sys ι L)

/-- The message is at one of the input ports of the directory. -/
def holds (m : DirMessage ι L) : Bool :=
  match m with
  | .trigger t => decide (t ∈ s.dirTriggerQueue)
  | .unblock i m => decide (m ∈ (s.node i).unblockFromCache)
  | .response i m => decide (m ∈ (s.node i).responseFromCache)
  | .memory m => decide (m ∈ s.responseFromMemory)
  | .request i m => decide (m ∈ (s.node i).requestFromCache)
  | .dma m => decide (m ∈ s.dmaRequestToDir)

/-- Dequeue a message. -/
def drop (m : DirMessage ι L) : Sys ι L :=
  match m with
  | .trigger t => { s with dirTriggerQueue := s.dirTriggerQueue.erase t }
  | .unblock i m =>
    s.modify i fun nd => { nd with unblockFromCache := nd.unblockFromCache.erase m }
  | .response i m =>
    s.modify i fun nd => { nd with responseFromCache := nd.responseFromCache.erase m }
  | .memory m => { s with responseFromMemory := s.responseFromMemory.erase m }
  | .request i m =>
    s.modify i fun nd => { nd with requestFromCache := nd.requestFromCache.erase m }
  | .dma m => { s with dmaRequestToDir := s.dmaRequestToDir.erase m }

end Sys

/-! ## Steps -/

/-- A step of the system. -/
inductive Act (ι : Type) (L : ℕ)
  /-- A CPU core issues a request. -/
  | issue (i : ι) (r : SequencerRequest L)
  | demand (i : ι) (d : Demand L)
  | deliver (i : ι) (m : Message ι L)
  | deliverDir (m : DirMessage ι L)
  /-- The probe filter gives the entry up for the request `m` to another block. -/
  | replacePf (m : RequestMsg ι)
  | issueDma (m : DMARequestMsg L)
  /-- The memory controller performs a request. -/
  | memory (r : MemoryRequest ι L)
  deriving DecidableEq

variable (p : Params)

/-- What a cache sees of the system at the time `now`. -/
def Params.env (now : ℕ) (i : ι) : Env ι where
  machineID := i
  machineCount := Fintype.card ι
  noMigAtomic := p.noMigAtomic
  curCycle := now

/-- One step at the time `now`. -/
def step (s : Sys ι L) : ℕ × Act ι L → Except Fault (Sys ι L)
  | (_, .issue i r) => pure (s.modify i fun nd => { nd with ctl := nd.ctl.accept r })
  | (now, .demand i d) => do
    let o ← (s.node i).ctl.serve (p.env now i) d
    check (o.sent.all Send.routed = true) .noRoute
    pure (s.settle i o)
  | (now, .deliver i m) =>
    if (s.node i).holds m then do
      let o ← (s.node i).ctl.receive (p.env now i) m
      check (o.sent.all Send.routed = true) .noRoute
      let s := if o.dequeued then s.modify i fun nd => nd.drop m else s
      pure (s.settle i o)
    else pure s
  | (now, .deliverDir m) =>
    if s.holds m then
      match m.event with
      | (_, none) => throw .unexpected
      | (inp, some e) => do
        let c ← Directory.doTransition ⟨p.cfg, now⟩ inp e s.dir
        check (c.sent.all Directory.DirSend.routed = true) .noRoute
        let s := if c.dequeued then s.drop m else s
        pure (s.settleDir c)
    else pure s
  | (now, .replacePf m) =>
    if p.cfg.filter ∧ s.dir.pf.isSome then do
      let c ← Directory.doTransition ⟨p.cfg, now⟩ (.request m) .Pf_Replacement s.dir
      check (c.sent.all Directory.DirSend.routed = true) .noRoute
      pure (s.settleDir c)
    else pure s
  | (_, .issueDma m) => pure { s with dmaRequestToDir := m ::ₘ s.dmaRequestToDir }
  | (_, .memory r) =>
    if r ∈ s.requestToMemory then
      let s := { s with requestToMemory := s.requestToMemory.erase r }
      match r with
      | .read requestor =>
        pure { s with
          responseFromMemory := .MEMORY_READ requestor s.memory ::ₘ s.responseFromMemory }
      | .write dataBlk =>
        pure { s with
          memory := dataBlk
          responseFromMemory := .MEMORY_WB ::ₘ s.responseFromMemory }
    else pure s

/-- Which caches are CPU caches. -/
inductive Kind
  | cpu | gpu
  deriving DecidableEq

/-- The caches are empty and the memory holds `d`. -/
def Sys.init (kind : ι → Kind) (d : DataBlock L) : Sys ι L where
  node i :=
    { ctl :=
        match kind i with
        | .cpu => .cpu {}
        | .gpu => .gpu {} }
  memory := d

/-! ## All blocks -/

variable {β : Type} [DecidableEq β]

/-- One step of the system at one block. -/
def stepBlocks (s : β → Sys ι L) (e : β × ℕ × Act ι L) : Except Fault (β → Sys ι L) := do
  let t ← step p (s e.1) e.2
  pure (Function.update s e.1 t)

end Gem5Gpu.VIHammer
