import Gem5Gpu.Lib.Machine
import Gem5Gpu.GPU.ShaderTLB

/-!
# The MMU of the GPU

`ShaderMMU` answers the misses of the TLBs of the shader cores.  A miss waits in
`startMisses` for the latency of the MMU, and `handleTLBMiss` looks it up in the
second-level TLB.  If the page is not there, the request goes to the list of its
page in `outstandingWalks`; the first request of a page asks for a page walk, which
waits in `pendingWalks` if all walkers are active.  `finishWalk` hands the walker to
the next pending walk and answers all requests of the page, or raises a page fault.
One fault at a time is in the kernel; the others wait in `pendingFaults`.  When the
kernel has finished, the same request is walked again.

`State` has the fields of the object and, below them, the registers and the page
table of the CPU that the object uses and a log of the run.  The members of a walker
are together: its flag in `activeWalkers`, its `StartPagewalkEvent` with the request
and the tick, the request that it translates, which is the one whose `pageWalker`
it is, and the one entry of its TLB.  An event of the run has the tick at which it
happens.

A walker uses the entry that it holds for the page, and nothing but a later walk of
another page takes it away.  Otherwise a walk reads the page table when it ends.  The
CPU takes the interrupt of a fault (`takeFault`, which is `GPUPageFault::invoke`), the
kernel maps the page (`mapPage`), and the return from the handler calls
`handleFinishPageFault` with the register CR2.
There is one thread context.  Statistics and the check of the stack pointers, which
only warns, are left out; the timeout of a fault is kept as the tick at which the
simulation would end.
-/

namespace Gem5Gpu.GPU.MMU

open Lib Function

structure Config where
  fullSystem : Bool
  clockPeriod : ℕ
  latency : ℕ
  pagewalkers : ℕ
  l2TlbEntries : ℕ
  l2TlbAssoc : ℕ
  prefetchBufferSize : ℕ
  clockPeriod_pos : 0 < clockPeriod
  pagewalkers_pos : 0 < pagewalkers
  /-- The assertion of the constructor of the TLB memory. -/
  assoc_dvd : (if l2TlbAssoc = 0 then l2TlbEntries else l2TlbAssoc) ∣ l2TlbEntries

/-- `faultTimeoutCycles`. -/
def faultTimeoutCycles : ℕ := 1000000

/-- The tick of the clock edge that is `cycles` after the next one. -/
def Config.clockEdge (c : Config) (now cycles : ℕ) : ℕ :=
  ((now + c.clockPeriod - 1) / c.clockPeriod + cycles) * c.clockPeriod

/-- `BaseTLB::Mode`. -/
inductive Mode
  | read
  | write
  | execute
deriving DecidableEq, Repr

/-- `TranslationRequest`.  The number tells two requests apart, as the pointers of
the source do. -/
structure Request where
  id : ℕ
  origTLB : Option ℕ
  vaddr : ℕ
  mode : Mode
  startTick : ℕ
  prefetch : Bool
deriving DecidableEq, Repr

def Request.offset (r : Request) : ℕ := r.vaddr % pageBytes

def Request.vpBase (r : Request) : ℕ := r.vaddr - r.vaddr % pageBytes

/-- An entry of the page table: the number of a physical page and the accesses it
allows. -/
structure PageEntry where
  frame : ℕ
  allows : Mode → Bool

/-- The entries of the pages, by the virtual address of the page. -/
abbrev PageTable := ℕ → Option PageEntry

/-- What an entry gives to a request: the physical address, or a fault. -/
def Request.translate (r : Request) : Option PageEntry → Option ℕ
  | some e => if e.allows r.mode then some (e.frame * pageBytes + r.offset) else none
  | none => none

/-- What the page table gives to a request. -/
def PageTable.walk (table : PageTable) (r : Request) : Option ℕ := r.translate (table r.vpBase)

inductive FaultStatus
  | none
  | inKernel
  | retrying
deriving DecidableEq, Repr

structure Walker where
  active : Bool
  /-- The scheduled start of a walk. -/
  event : Option (Request × ℕ)
  /-- The request under translation. -/
  walking : Option Request
  /-- The page and the entry in the TLB of the walker. -/
  entry : Option (ℕ × PageEntry)

/-- The entry of a page that a walker finds. -/
def Walker.find (w : Walker) (table : PageTable) (vp : ℕ) : Option PageEntry :=
  match w.entry with
  | some (vp', e) => if vp' = vp then some e else table vp
  | none => table vp

/-- An answer to a miss: the physical address, the translation that the TLB of the
miss gets, and the entry of the page at that time. -/
structure Answer where
  request : Request
  paddr : ℕ
  ppBase : ℕ
  mapping : Option PageEntry

structure State where
  now : ℕ
  startMisses : List Request
  walkers : ℕ → Walker
  curOutstandingWalks : ℤ
  pendingWalks : List Request
  outstandingWalks : ℕ → List Request
  pendingFaults : List Request
  outstandingFaultStatus : FaultStatus
  outstandingFaultInfo : Option Request
  /-- The tick of `faultTimeoutEvent`, if it is scheduled. -/
  faultTimeout : Option ℕ
  tlb : Option TLBMemory
  prefetchBuffer : List GPUTlbEntry
  /-- The number of the next request. -/
  created : ℕ
  /-- The register `MISCREG_GPU_FAULT`. -/
  inFault : ℕ
  /-- The register `MISCREG_GPU_FAULTADDR`. -/
  faultAddr : ℕ
  /-- The bit of a write in `MISCREG_GPU_FAULTCODE`. -/
  faultWrite : Bool
  pageTable : PageTable
  /-- The misses so far. -/
  misses : List Request
  answers : List Answer
  /-- The faults that were raised to the kernel. -/
  raised : List Request
  /-- The faults that the kernel has finished. -/
  handled : List Request

def State.initial (c : Config) (table : PageTable) : State where
  now := 0
  startMisses := []
  walkers := fun _ => ⟨false, none, none, none⟩
  curOutstandingWalks := 0
  pendingWalks := []
  outstandingWalks := fun _ => []
  pendingFaults := []
  outstandingFaultStatus := .none
  outstandingFaultInfo := none
  faultTimeout := none
  tlb := if c.l2TlbEntries = 0 then none else some (.new c.l2TlbEntries c.l2TlbAssoc)
  prefetchBuffer := []
  created := 0
  inFault := 0
  faultAddr := 0
  faultWrite := false
  pageTable := table
  misses := []
  answers := []
  raised := []
  handled := []

def State.setWalker (s : State) (i : ℕ) (w : Walker) : State :=
  { s with walkers := update s.walkers i w }

section Functions

variable (c : Config)

def beginTLBMiss (tlb vaddr : ℕ) (mode : Mode) (s : State) : State :=
  let r : Request :=
    { id := s.created
      origTLB := some tlb
      vaddr
      mode
      startTick := c.clockEdge s.now c.latency
      prefetch := false }
  { s with
    startMisses := s.startMisses ++ [r]
    created := s.created + 1
    misses := s.misses ++ [r] }

/-- `origTLB->insert` and `wrappedTranslation->finish`. -/
def answer (r : Request) (ppBase paddr : ℕ) (s : State) : Except Fault State := do
  check (r.origTLB.isSome = true) .nullPointer
  .ok { s with
    answers := s.answers ++ [⟨r, paddr, ppBase, s.pageTable r.vpBase⟩] }

/-- `getFreeWalker`: the first walker that is not active. -/
def getFreeWalker (s : State) : Option (ℕ × State) :=
  ((List.range c.pagewalkers).find? fun i => !(s.walkers i).active).map fun i =>
    (i, { s.setWalker i { s.walkers i with active := true } with
      curOutstandingWalks := s.curOutstandingWalks + 1 })

def setWalkerFree (i : ℕ) (s : State) : Except Fault State := do
  check ((s.walkers i).active = true) .assertActive
  .ok { s.setWalker i { s.walkers i with active := false } with
    curOutstandingWalks := s.curOutstandingWalks - 1 }

def schedulePagewalk (i : ℕ) (r : Request) (s : State) : Except Fault State := do
  check ((s.walkers i).active = true) .assertActive
  check ((s.walkers i).event.isNone = true) .assertWalkEvent
  .ok (s.setWalker i { s.walkers i with event := some (r, c.clockEdge s.now 1) })

/-- `tlb->lookup`, if there is a second-level TLB. -/
def lookupL2 (vpBase : ℕ) (setMru : Bool) (s : State) : Except Fault (Option ℕ × State) :=
  match s.tlb with
  | none => .ok (none, s)
  | some t => do
    let (found, t) ← t.lookup vpBase s.now setMru
    .ok (found, { s with tlb := some t })

/-- `tlb->insert`, if there is a second-level TLB. -/
def insertL2 (vpBase ppBase : ℕ) (s : State) : Except Fault State :=
  match s.tlb with
  | none => .ok s
  | some t => do
    let t ← t.insert vpBase ppBase s.now
    .ok { s with tlb := some t }

/-- The prefetched request is constructed with the flag in the place of the start
tick, so it is not marked as a prefetch. -/
def tryPrefetch (vpBase : ℕ) (s : State) : Except Fault State :=
  if c.prefetchBufferSize = 0 then .ok s
  else if (s.prefetchBuffer.find? (·.vpBase = vpBase)).isSome then .ok s
  else if s.curOutstandingWalks ≥ c.pagewalkers then .ok s
  else do
    let nextVpBase := vpBase + pageBytes
    let (found, s) ← lookupL2 nextVpBase false s
    if found.isSome then .ok s
    else if s.outstandingWalks nextVpBase ≠ [] then .ok s
    else
      let r : Request :=
        { id := s.created
          origTLB := none
          vaddr := nextVpBase
          mode := .read
          startTick := 1
          prefetch := false }
      let s := { s with
        created := s.created + 1
        outstandingWalks := update s.outstandingWalks nextVpBase [r] }
      match getFreeWalker c s with
      | none => .error .nullPointer
      | some (i, s) => schedulePagewalk c i r s

/-- The entry with the least tick, if that is before `minTick`. -/
def oldest : List GPUTlbEntry → ℕ → Option GPUTlbEntry → Option GPUTlbEntry
  | [], _, found => found
  | e :: buffer, minTick, found =>
    if e.mruTick < minTick then oldest buffer e.mruTick (some e)
    else oldest buffer minTick found

def insertPrefetch (vpBase ppBase : ℕ) (s : State) : Except Fault State := do
  check (vpBase % pageBytes = 0) .assertPrefetchAligned
  let buffer ←
    if c.prefetchBufferSize ≤ s.prefetchBuffer.length then
      match oldest s.prefetchBuffer s.now none with
      | none => .error .assertPrefetchVictim
      | some e => .ok (s.prefetchBuffer.erase e)
    else .ok s.prefetchBuffer
  let buffer := buffer.filter (·.vpBase ≠ vpBase) ++ [{ vpBase, ppBase, mruTick := s.now }]
  check (buffer.length ≤ c.prefetchBufferSize) .assertPrefetchSize
  .ok { s with prefetchBuffer := buffer }

/-- The request asks for a walk of its page, if it is the first one. -/
def requestWalk (r : Request) (s : State) : Except Fault State :=
  let walks := s.outstandingWalks r.vpBase ++ [r]
  let s := { s with outstandingWalks := update s.outstandingWalks r.vpBase walks }
  if walks.length = 1 then
    match getFreeWalker c s with
    | none => .ok { s with pendingWalks := s.pendingWalks ++ [r] }
    | some (i, s) => do
      let s ← schedulePagewalk c i r s
      tryPrefetch c r.vpBase s
  else
    .ok s

/-- A miss of the second-level TLB. -/
def missL2 (r : Request) (s : State) : Except Fault State :=
  match s.prefetchBuffer.find? (·.vpBase = r.vpBase) with
  | some e => do
    let s ← insertL2 r.vpBase e.ppBase s
    let s ← answer r e.ppBase (e.ppBase + r.offset) s
    tryPrefetch c r.vpBase { s with prefetchBuffer := s.prefetchBuffer.erase e }
  | none => requestWalk c r s

def handleTLBMiss (s : State) : Except Fault State :=
  match s.startMisses with
  | [] => .error .disabled
  | r :: rest => do
    let (found, s) ← lookupL2 r.vpBase r.origTLB.isSome { s with startMisses := rest }
    match found with
    | some ppBase => answer r ppBase (ppBase + r.offset) s
    | none => missL2 c r s

/-- `StartPagewalkEvent::process` and `walk`. -/
def startPagewalk (i : ℕ) (s : State) : Except Fault State :=
  match (s.walkers i).event with
  | none => .error .disabled
  | some (r, _) => do
    check ((List.range c.pagewalkers).all fun j => (s.walkers j).walking ≠ some r) .assertPageWalker
    .ok (s.setWalker i { s.walkers i with event := none, walking := some r })

def raisePageFaultInterrupt (s : State) : Except Fault State :=
  match s.outstandingFaultInfo with
  | none => .error .assertFaultInfo
  | some r => do
    check (s.outstandingFaultStatus = .inKernel) .assertInKernel
    check (s.inFault = 0) .assertInFault
    check (s.faultTimeout.isNone = true) .assertTimeout
    .ok { s with
      inFault := 1
      faultAddr := r.vaddr
      faultWrite := r.mode = .write
      faultTimeout := some (c.clockEdge s.now faultTimeoutCycles)
      raised := s.raised ++ [r] }

/-- The part of `handlePageFault` for a request that is not a prefetch. -/
def takePageFault (r : Request) (s : State) : Except Fault State :=
  if s.outstandingFaultStatus ≠ .none then
    .ok { s with pendingFaults := s.pendingFaults ++ [r] }
  else
    raisePageFaultInterrupt c { s with
      outstandingFaultStatus := .inKernel
      outstandingFaultInfo := some r }

def handlePageFault (r : Request) (s : State) : Except Fault State := do
  check (c.fullSystem = true) .panicSE
  if r.prefetch then
    let walks := (s.outstandingWalks r.vpBase).filter (· ≠ r)
    if (s.outstandingWalks r.vpBase).length ≠ 1 then
      let s := { s with outstandingWalks := update s.outstandingWalks r.vpBase walks }
      match walks with
      | [] => .error .nullPointer
      | r' :: _ => takePageFault c r' s
    else
      .ok { s with outstandingWalks := update s.outstandingWalks r.vpBase [] }
  else
    takePageFault c r s

/-- The loop of `finalizeTranslation` over the requests behind the walked one. -/
def finishQueued (r : Request) (ppBase : ℕ) : List Request → State → Except Fault State
  | [], s => .ok s
  | t :: walks, s => do
    check (t.prefetch = false ∧ t ≠ r) .assertQueued
    let s ← answer t ppBase (ppBase + t.offset) s
    finishQueued r ppBase walks s

def finalizeTranslation (r : Request) (paddr : ℕ) (s : State) : Except Fault State :=
  let ppBase := paddr - paddr % pageBytes
  match s.outstandingWalks r.vpBase with
  | [] => .error .assertFront
  | t :: walks => do
    check (t = r) .assertFront
    let s ←
      if r.prefetch then
        if walks = [] then insertPrefetch c r.vpBase ppBase s else .ok s
      else do
        let s ← insertL2 r.vpBase ppBase s
        answer r ppBase paddr s
    let s ← finishQueued r ppBase walks s
    .ok { s with outstandingWalks := update s.outstandingWalks r.vpBase [] }

/-- The walker that became free takes the next pending walk. -/
def startPendingWalk (s : State) : Except Fault State :=
  match s.pendingWalks with
  | [] => .ok s
  | t :: rest =>
    match getFreeWalker c s with
    | none => .error .nullPointer
    | some (i, s) => do
      let s ← schedulePagewalk c i t s
      .ok { s with pendingWalks := rest }

/-- The walk of a request after the kernel satisfied its fault. -/
def finishRetry (r : Request) (result : Option ℕ) (s : State) : Except Fault State :=
  if s.outstandingFaultStatus = .retrying ∧
      s.outstandingFaultInfo.map Request.vaddr = some r.vaddr then
    match result with
    | none => .error .panicRefault
    | some _ =>
      let s := { s with outstandingFaultStatus := .none, inFault := 0 }
      match s.pendingFaults with
      | [] => .ok s
      | t :: _ => do
        let s ← handlePageFault c t s
        .ok { s with pendingFaults := s.pendingFaults.tail }
  else
    .ok s

/-- The walker `i` ends its translation.  It keeps an entry that it found, also one
that does not allow the access. -/
def finishWalk (i : ℕ) (s : State) : Except Fault State :=
  match (s.walkers i).walking with
  | none => .error .disabled
  | some r => do
    let found := (s.walkers i).find s.pageTable r.vpBase
    let result := r.translate found
    let entry := (found.map fun e => (r.vpBase, e)).or (s.walkers i).entry
    let s ← setWalkerFree i s
    let s ← startPendingWalk c (s.setWalker i { s.walkers i with walking := none, entry })
    let s ← finishRetry c r result s
    match result with
    | some paddr => finalizeTranslation c r paddr s
    | none => handlePageFault c r s

/-- The CPU takes the interrupt of the fault. -/
def takeFault (s : State) : Except Fault State := do
  check (s.inFault = 1) .assertInFault
  .ok { s with inFault := 2 }

/-- The kernel maps the page of the outstanding fault. -/
def mapPage (e : PageEntry) (s : State) : Except Fault State :=
  match s.outstandingFaultInfo with
  | none => .error .disabled
  | some r => .ok { s with pageTable := update s.pageTable r.vpBase (some e) }

def handleFinishPageFault (cr2 : ℕ) (s : State) : Except Fault State := do
  check (s.faultTimeout.isSome = true) .panicNoTimeout
  let s := { s with faultTimeout := none }
  check (s.outstandingFaultStatus ≠ .none) .assertOutstanding
  check (s.inFault = 2) .panicInFault
  match s.outstandingFaultInfo with
  | none => .error .nullPointer
  | some r =>
    if cr2 ≠ r.vaddr then .ok s
    else if s.outstandingFaultStatus = .retrying then .ok s
    else
      let s := { s with
        outstandingFaultStatus := .retrying
        handled := s.handled ++ [r] }
      match getFreeWalker c s with
      | none => .ok { s with pendingWalks := s.pendingWalks ++ [r] }
      | some (i, s) => schedulePagewalk c i r s

end Functions

inductive Act
  | beginTLBMiss (tlb vaddr : ℕ) (mode : Mode)
  | handleTLBMiss
  | startPagewalk (i : ℕ)
  | finishWalk (i : ℕ)
  | takeFault
  | mapPage (e : PageEntry)
  | finishPageFault (cr2 : ℕ)

structure Event where
  now : ℕ
  act : Act

def act (c : Config) (s : State) : Act → Except Fault State
  | .beginTLBMiss tlb vaddr mode => .ok (beginTLBMiss c tlb vaddr mode s)
  | .handleTLBMiss => handleTLBMiss c s
  | .startPagewalk i => startPagewalk c i s
  | .finishWalk i => finishWalk c i s
  | .takeFault => takeFault s
  | .mapPage e => mapPage e s
  | .finishPageFault cr2 => handleFinishPageFault c cr2 s

def step (c : Config) (s : State) (e : Event) : Except Fault State :=
  act c { s with now := e.now } e.act

/-- What the environment can do in a state.  Events of the object fire when they are
scheduled, and not before their tick.  The kernel works on the outstanding fault
only: it maps the page once, for the access that faulted, and returns from the
handler before the timeout, with the address of the fault in CR2. -/
def State.enabled (s : State) (now : ℕ) : Act → Prop
  | .beginTLBMiss _ _ _ => True
  | .handleTLBMiss => ∃ r ∈ s.startMisses.head?, r.startTick ≤ now
  | .startPagewalk i => ∃ x ∈ (s.walkers i).event, x.2 ≤ now
  | .finishWalk i => (s.walkers i).walking.isSome = true
  | .takeFault => s.inFault = 1
  | .mapPage e => s.outstandingFaultStatus = .inKernel ∧ s.inFault = 2 ∧
      ∃ r ∈ s.outstandingFaultInfo, s.pageTable.walk r = none ∧ e.allows r.mode = true
  | .finishPageFault cr2 => s.outstandingFaultStatus = .inKernel ∧ s.inFault = 2 ∧
      ∃ r ∈ s.outstandingFaultInfo, (s.pageTable.walk r).isSome = true ∧ cr2 = r.vaddr

/-- The event can happen: time does not run backwards, and no fault times out. -/
structure Allowed (s : State) (e : Event) : Prop where
  time : s.now ≤ e.now
  inTime : ∀ t ∈ s.faultTimeout, e.now < t
  enabled : s.enabled e.now e.act

end Gem5Gpu.GPU.MMU
