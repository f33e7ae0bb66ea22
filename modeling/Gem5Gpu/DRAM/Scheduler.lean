import Gem5Gpu.Lib.Select
import Mathlib.Algebra.Group.Nat.Defs

/-!
# The scheduler of the DRAM controller

`DRAMCtrl::chooseNext` arbitrates between the packets of a queue: it moves the packet to
serve next to the front.  There are four policies.  `fcfs` takes the first packet whose rank
is available and `cpuPriorityfcfs` the first one from the CPU.  `frfcfs` (`reorderQueue`) and
`cpuPriorityfrfcfs` (`reorderQueueCPUPrio`) look at the state of the banks: one pass over the
queue with a flag for each kind of packet that has been found, and with the mask of the banks
that can be prepared earliest (`minBankPrep`), which the pass computes when it first needs it.

Ticks are 64-bit counters that wrap, as in the source.  A packet belongs to a rank and a bank
of the channel by construction, so that `bankRef` and `rankRef` are look-ups.
-/

namespace Gem5Gpu.DRAM

/-- `Tick`. -/
abbrev Tick := UInt64

/-- `MaxTick`. -/
def maxTick : Tick := 0xffffffffffffffff

/-- The ranks of a channel and the banks of a rank. -/
structure Geometry where
  ranksPerChannel : ℕ
  banksPerRank : ℕ

/-- `Bank`, as far as the scheduler reads it. -/
structure Bank where
  openRow : UInt32
  colAllowedAt : Tick
  preAllowedAt : Tick
  actAllowedAt : Tick

/-- `Bank::NO_ROW`. -/
def Bank.noRow : UInt32 := 0xffffffff

variable {g : Geometry}

/-- `Rank`: `isAvailable` is that no refresh is going on. -/
structure Rank (g : Geometry) where
  isAvailable : Bool
  banks : Fin g.banksPerRank → Bank

/-- `DRAMPacket`: one burst of a system packet, with the coordinates `decodeAddr` gave it. -/
structure DRAMPacket (g : Geometry) where
  rank : Fin g.ranksPerChannel
  bank : Fin g.banksPerRank
  row : UInt32
  contextId : ℤ

/-- `bankId`, a `uint16_t`: the number of a bank in its channel. -/
def Geometry.bankId (g : Geometry) (i : Fin g.ranksPerChannel) (j : Fin g.banksPerRank) : ℕ :=
  (i * g.banksPerRank + j) % 2 ^ 16

def DRAMPacket.bankId (p : DRAMPacket g) : ℕ := g.bankId p.rank p.bank

/-- Packets of the CPU; `contextId` 31 is the GPU's. -/
def DRAMPacket.fromCPU (p : DRAMPacket g) : Bool := p.contextId != 31

/-- The channel: its timing parameters, when the bus is free, and the state of its ranks. -/
structure Channel (g : Geometry) where
  tCL : Tick
  tRCD : Tick
  tRP : Tick
  curTick : Tick
  busBusyUntil : Tick
  ranks : Fin g.ranksPerChannel → Rank g

namespace Channel

variable (ch : Channel g) (queue : List (DRAMPacket g)) (minColAt : Tick)

/-- `rankRef.isAvailable()`. -/
def available (p : DRAMPacket g) : Bool := (ch.ranks p.rank).isAvailable

/-- `bankRef`. -/
def bankRef (p : DRAMPacket g) : Bank := (ch.ranks p.rank).banks p.bank

/-- The row of the packet is open. -/
def rowHit (p : DRAMPacket g) : Bool := (ch.bankRef p).openRow == p.row

/-- A column command can issue without a gap on the bus. -/
def seamless (p : DRAMPacket g) : Bool := decide ((ch.bankRef p).colAllowedAt ≤ minColAt)

/-! ## The banks that can be prepared earliest -/

/-- `got_waiting`. -/
def gotWaiting (id : ℕ) : Bool := queue.any fun p => ch.available p && p.bankId == id

/-- What `minBankPrep` keeps while it looks at the banks. -/
structure Prep where
  bankMask : BitVec 64
  minActAt : Tick
  foundSeamlessBank : Bool
  hiddenBankPrep : Bool

/-- When the bank can issue an activate. -/
def actAt (b : Bank) : Tick :=
  if b.openRow = Bank.noRow then max b.actAllowedAt ch.curTick
  else max b.preAllowedAt ch.curTick + ch.tRP

/-- The body of the loop of `minBankPrep`, for bank `j` of rank `i`. -/
def prepBank (acc : Prep) (ij : Fin g.ranksPerChannel × Fin g.banksPerRank) : Prep :=
  let bankId := g.bankId ij.1 ij.2
  if ch.gotWaiting queue bankId then
    let b := (ch.ranks ij.1).banks ij.2
    let actAt := ch.actAt b
    let colAt := max b.colAllowedAt (actAt + ch.tRCD)
    let newSeamlessBank := decide (colAt ≤ minColAt)
    if newSeamlessBank || (!acc.foundSeamlessBank && decide (actAt ≤ acc.minActAt)) then
      -- the first seamless bank, or an earlier activate than any before, starts the mask anew
      let bankMask :=
        if !acc.foundSeamlessBank && (newSeamlessBank || decide (actAt < acc.minActAt)) then 0
        else acc.bankMask
      { bankMask := bankMask ||| BitVec.twoPow 64 bankId
        minActAt := actAt
        foundSeamlessBank := acc.foundSeamlessBank || newSeamlessBank
        hiddenBankPrep := decide (actAt ≤ max (minColAt - ch.tRCD) ch.curTick) }
    else acc
  else acc

/-- The banks of the channel, in the order of the two loops. -/
def banks (g : Geometry) : List (Fin g.ranksPerChannel × Fin g.banksPerRank) :=
  (List.finRange g.ranksPerChannel).flatMap fun i =>
    (List.finRange g.banksPerRank).map fun j => (i, j)

/-- `minBankPrep`: the mask of the banks to prepare, and whether the last of them can be
prepared behind the bursts on the bus. -/
def minBankPrep : BitVec 64 × Bool :=
  let acc := (banks g).foldl (ch.prepBank queue minColAt) ⟨0, maxTick, false, false⟩
  (acc.bankMask, acc.hiddenBankPrep)

/-- `min_col_at`: when a column command has to issue to be seamless. -/
def minCol (extraColDelay : Tick) : Tick :=
  max (ch.busBusyUntil - ch.tCL + extraColDelay) ch.curTick

/-! ## First ready, first come first served -/

/-- What both passes keep about the banks. -/
structure Banks where
  earliestBanks : BitVec 64
  hiddenBankPrep : Bool

/-- The bank status, computed when it is first needed. -/
def bankStatus (b : Banks) : Banks :=
  if b.earliestBanks = 0 then
    let r := ch.minBankPrep queue minColAt
    ⟨r.1, r.2⟩
  else b

/-- The variables of the pass of `reorderQueue`. -/
structure Scan extends Banks where
  foundHiddenBank : Bool
  foundPreppedPkt : Bool
  foundEarliestPkt : Bool
  selected : Option ℕ

/-- The body of the loop of `reorderQueue`; `done` is its `break`. -/
def visit (i : ℕ) (st : Scan) (p : DRAMPacket g) : ForInStep Scan :=
  if ch.available p then
    if ch.rowHit p then
      if ch.seamless minColAt p then
        .done { st with selected := some i }
      else if !st.foundHiddenBank && !st.foundPreppedPkt then
        .yield { st with selected := some i, foundPreppedPkt := true }
      else .yield st
    else if !st.foundEarliestPkt then
      let st := { st with toBanks := ch.bankStatus queue minColAt st.toBanks }
      if st.earliestBanks.getLsbD p.bankId then
        .yield { st with
          foundEarliestPkt := true
          foundHiddenBank := st.hiddenBankPrep
          selected := if st.hiddenBankPrep || !st.foundPreppedPkt then some i else st.selected }
      else .yield st
    else .yield st
  else .yield st

/-- The pass of `reorderQueue` from position `i` on. -/
def scan : ℕ → Scan → List (DRAMPacket g) → Option ℕ
  | _, st, [] => st.selected
  | i, st, p :: rest =>
    match ch.visit queue minColAt i st p with
    | .done st => st.selected
    | .yield st => scan (i + 1) st rest

/-- `reorderQueue`: whether a packet was found, and the queue with it at the front. -/
def reorderQueue (extraColDelay : Tick) : Bool × List (DRAMPacket g) :=
  Lib.moveToFront queue
    (ch.scan queue (ch.minCol extraColDelay) 0 ⟨⟨0, false⟩, false, false, false, none⟩ queue)

/-! ## The same with priority for the CPU -/

/-- The variables of the pass of `reorderQueueCPUPrio`. -/
structure PrioScan extends Banks where
  foundSeamlessPkt : Bool
  foundHiddenBank : Bool
  foundPreppedPkt : Bool
  foundPreppedCPUPkt : Bool
  foundEarliestPkt : Bool
  foundEarliestCPUPkt : Bool
  selected : Option ℕ

/-- The body of the loop of `reorderQueueCPUPrio`; `done` is its `break`. -/
def visitCPUPrio (i : ℕ) (st : PrioScan) (p : DRAMPacket g) : ForInStep PrioScan :=
  if ch.available p then
    if ch.rowHit p then
      if ch.seamless minColAt p then
        if p.fromCPU then
          .done { st with selected := some i }
        else if !st.foundSeamlessPkt then
          .yield { st with selected := some i, foundSeamlessPkt := true }
        else .yield st
      else if !st.foundHiddenBank && !st.foundPreppedCPUPkt && !st.foundSeamlessPkt then
        if p.fromCPU then
          .yield { st with selected := some i, foundPreppedCPUPkt := true, foundPreppedPkt := true }
        else if !st.foundPreppedPkt then
          .yield { st with selected := some i, foundPreppedPkt := true }
        else .yield st
      else .yield st
    else if !st.foundEarliestCPUPkt && !st.foundSeamlessPkt then
      let st := { st with toBanks := ch.bankStatus queue minColAt st.toBanks }
      if p.fromCPU then
        if st.earliestBanks.getLsbD p.bankId then
          .yield { st with
            foundEarliestCPUPkt := true
            foundEarliestPkt := true
            foundHiddenBank := st.hiddenBankPrep
            selected := if st.hiddenBankPrep || !st.foundPreppedPkt then some i else st.selected }
        else .yield st
      else if !st.foundEarliestPkt then
        if st.earliestBanks.getLsbD p.bankId then
          .yield { st with
            foundEarliestPkt := true
            foundHiddenBank := st.hiddenBankPrep
            selected := if st.hiddenBankPrep || !st.foundPreppedPkt then some i else st.selected }
        else .yield st
      else .yield st
    else .yield st
  else .yield st

/-- The pass of `reorderQueueCPUPrio` from position `i` on. -/
def scanCPUPrio : ℕ → PrioScan → List (DRAMPacket g) → Option ℕ
  | _, st, [] => st.selected
  | i, st, p :: rest =>
    match ch.visitCPUPrio queue minColAt i st p with
    | .done st => st.selected
    | .yield st => scanCPUPrio (i + 1) st rest

/-- `reorderQueueCPUPrio`. -/
def reorderQueueCPUPrio (extraColDelay : Tick) : Bool × List (DRAMPacket g) :=
  Lib.moveToFront queue (ch.scanCPUPrio queue (ch.minCol extraColDelay) 0
      ⟨⟨0, false⟩, false, false, false, false, false, false, none⟩ queue)

/-! ## The choice -/

/-- The loop of `cpuPriorityfcfs`: `found` is the first packet of an available rank so far. -/
def scanCPUFirst : ℕ → Option ℕ → List (DRAMPacket g) → Option ℕ
  | _, found, [] => found
  | i, found, p :: rest =>
    if ch.available p then
      if p.fromCPU then some i
      else scanCPUFirst (i + 1) (if found.isNone then some i else found) rest
    else scanCPUFirst (i + 1) found rest

end Channel

/-- `Enums::MemSched`. -/
inductive MemSched where
  | fcfs
  | cpuPriorityfcfs
  | frfcfs
  | cpuPriorityfrfcfs
  deriving DecidableEq, Repr

/-- The assertion at the head of `chooseNext`. -/
inductive Fault where
  | emptyQueue
  deriving DecidableEq, Repr

/-- `chooseNext`: whether some packet goes to an available rank, and the queue with the packet
to serve at its front. -/
def Channel.chooseNext (ch : Channel g) (memSchedPolicy : MemSched)
    (queue : List (DRAMPacket g)) (extraColDelay : Tick) :
    Except Fault (Bool × List (DRAMPacket g)) :=
  match queue with
  | [] => .error .emptyQueue
  | [p] => .ok (ch.available p, queue)
  | _ =>
    match memSchedPolicy with
    | .fcfs => .ok (Lib.moveToFront queue (queue.findIdx? ch.available))
    | .cpuPriorityfcfs => .ok (Lib.moveToFront queue (ch.scanCPUFirst 0 none queue))
    | .frfcfs => .ok (ch.reorderQueue queue extraColDelay)
    | .cpuPriorityfrfcfs => .ok (ch.reorderQueueCPUPrio queue extraColDelay)

end Gem5Gpu.DRAM
