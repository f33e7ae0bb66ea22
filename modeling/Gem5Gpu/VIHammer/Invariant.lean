import Gem5Gpu.VIHammer.Holdings
import Gem5Gpu.VIHammer.Roles

/-!
# The invariant of the protocol

Without a probe filter the directory broadcasts.  `Txn` is the transaction that
the directory is in the middle of, and `Ghost` is what an observer who sees every
message knows besides: the owner, whether its copy is the only one, and the
current block.

`PartyOK` is about one cache and the messages that concern it.  `Global` is about
the directory and the memory, and sees of a cache only the messages that the
directory waits for, which are its `Signal`.
-/

namespace Gem5Gpu.VIHammer

open Lib Directory

variable {ι : Type} {L : ℕ}

/-- What the directory is in the middle of. -/
inductive Txn (ι : Type)
  | idle
  /-- It serves the request of `r`. -/
  | serve (r : ι) (x : Bool) (τ φ : ℕ)
  /-- The request of `r` is served, and its unblock message is on its way. -/
  | close (r : ι)
  /-- The owner answers the GETS requests of `J`; `pending` says that it has not
  got to it. -/
  | feed (J : Finset ι) (φ : ℕ) (pending : Bool)
  /-- A DMA read; `seen` says that a cache has answered that it has a copy. -/
  | dmaRead (seen : Bool)
  | dmaWrite
  | writeBack (i : ι)
  | memoryWrite

namespace Txn

/-- The request that is forwarded to the caches. -/
def probe : Txn ι → Option (RequestMsg ι)
  | .serve r x τ φ => some
    { type := getType x, requestor := .cache r
      initialRequestTime := τ, forwardRequestTime := φ }
  | .dmaRead _ => some { type := .GETS, requestor := .directory }
  | .dmaWrite => some { type := .GETX, requestor := .directory }
  | .feed J φ true => some
    { type := .MERGED_GETS, requestor := .unset
      mergedRequestors := J, forwardRequestTime := φ }
  | _ => none

/-- The caches that have no copy once they have answered. -/
def clears [DecidableEq ι] (j : ι) : Txn ι → Bool
  | .serve r true _ _ => j ≠ r
  | .dmaWrite => true
  | _ => false

end Txn

/-- What an observer knows. -/
structure Ghost (ι : Type) (L : ℕ) where
  txn : Txn ι
  role : ι → Role
  own : Option ι
  excl : Bool
  cur : DataBlock L
  /-- The DMA controller may write the block. -/
  dmaWritten : Bool

/-- The request that a party waits with is a GETX. -/
def Role.x : Role → Bool
  | .active x _ _ _ _ => x
  | _ => false

/-- What a party that reads has got is from the owner `k`. -/
def Party.FromOwner (x : Bool) (k : ι) (p : Party ι L) : Prop :=
  (p.view.mode = .SS → p.view.curOwner = .cache k) ∧
  ∀ m ∈ p.responses, x = false → m.type = .DATA ∨ m.type = .DATA_SHARED → m.sender = .cache k

/-- One cache.  `mem` says that the memory holds the current block. -/
structure PartyOK [DecidableEq ι] (n : ℕ) (g : Ghost ι L) (mem : Prop) (j : ι)
    (p : Party ι L) : Prop where
  role : (g.role j).Fits n j p
  held : Held g.own g.excl g.cur mem j (p.holdings (g.role j).x)
  calm : g.excl = true → p.view.sharers = false ∧ ∀ m ∈ p.responses, m.type ≠ .ACK_SHARED
  source : ∀ k, g.own = some k → p.FromOwner (g.role j).x k
  probe : ∀ m, p.probe = some m → g.txn.probe = some m
  cleared : g.txn.clears j = true → p.probe = none → p.holdings (g.role j).x = 0
  seen : ∀ b, g.txn = .dmaRead b → p.probe = none → p.holdings (g.role j).x ≠ 0 →
    b = true ∨ ∃ m, p.answer = some m ∧ (m.type = .ACK_SHARED ∨ m.type = .DATA_SHARED)

/-- The messages of a cache that the directory waits for or has sent. -/
structure Signal (ι : Type) (L : ℕ) where
  probe : Option (RequestMsg ι)
  answer : Option (ResponseMsg ι L)
  unblock : Option (ResponseMsg ι L)
  /-- A `WB_ACK`. -/
  grant : Option CoherenceRequestType

def Party.signal (p : Party ι L) : Signal ι L :=
  ⟨p.probe, p.answer, p.unblock, p.grant.filter (· = .WB_ACK)⟩

namespace Signal

def probed (σ : Signal ι L) : Bool := σ.probe.isSome

def answers (σ : Signal ι L) : Bool := σ.answer.isSome

def unblocks (σ : Signal ι L) : Bool := σ.unblock.isSome

theorem probed_eq_false {σ : Signal ι L} : σ.probed = false ↔ σ.probe = none := by
  simp [probed]

/-- The directory and the cache have nothing to say to each other. -/
structure Quiet (σ : Signal ι L) : Prop where
  probe : σ.probe = none
  answer : σ.answer = none
  unblock : σ.unblock = none
  grant : σ.grant ≠ some .WB_ACK

end Signal

/-- The directory and the memory. -/
structure Hub (ι : Type) (L : ℕ) where
  dir : DirLine ι L
  trigger : Multiset TriggerType
  requests : Multiset (MemoryRequest ι L)
  responses : Multiset (MemoryMsg ι L)
  memory : DataBlock L

def Sys.hub (s : Sys ι L) : Hub ι L :=
  ⟨s.dir, s.dirTriggerQueue, s.requestToMemory, s.responseFromMemory, s.memory⟩

/-! ## The memory -/

/-- The memory controller has nothing to do. -/
def MemIdle (b : Hub ι L) : Prop := b.requests = 0 ∧ b.responses = 0

/-- A read is on its way to the memory, or its answer `d` is on its way back. -/
def Fetching (b : Hub ι L) (q : MachineID ι) (d : DataBlock L) : Prop :=
  b.requests = {.read q} ∧ b.responses = 0 ∨
  b.requests = 0 ∧ b.responses = {.MEMORY_READ q d}

/-- A write of `d` is on its way to the memory, or done. -/
def Writing (b : Hub ι L) (cur d : DataBlock L) : Prop :=
  b.requests = {.write d} ∧ b.responses = 0 ∨
  b.requests = 0 ∧ b.responses = {.MEMORY_WB} ∧ b.memory = cur

/-! ## The directory -/

section Dir

variable (g : Ghost ι L) (b : Hub ι L)

/-- No request is being served. -/
inductive DirIdle : Prop
  | E (hd : b.dir = ⟨.E, none, none⟩) (own : g.own = none) (excl : g.excl = true)
      (mem : b.memory = g.cur)
  | O (hd : b.dir = ⟨.O, none, none⟩) (own : g.own = none) (mem : b.memory = g.cur)
  | owned (st : Directory.State) (hst : st = .NO ∨ st = .NX ∨ st = .S)
      (hd : b.dir = ⟨st, none, none⟩) (k : ι) (own : g.own = some k)

/-- A request to an owned block is being served, and the GETS requests of `J` wait
for its end. -/
inductive DirBlocked (J : Finset ι) : Prop
  | alone (st : Directory.State) (hst : st = .NO_B ∨ st = .NO_B_X)
      (hd : b.dir = ⟨st, none, none⟩) (hJ : J = ∅)
  | merging (t : DirTBE ι L) (hst : t.tbeState = .NO_B_S)
      (hd : b.dir = ⟨.NO_B_S, none, some t⟩) (hJ : t.getSRequestors = J)
      (hne : J.Nonempty)

/-- The directory while it serves the request of `r`.  `d` is the number of answers
that the memory still has to give. -/
inductive DirServe (r : ι) (x : Bool) : Finset ι → ℕ → Prop
  | owned {J : Finset ι} (k : ι) (own : g.own = some k) (hd : DirBlocked b J)
      (hm : MemIdle b) : DirServe r x J 0
  | clean (hx : x = false) (own : g.own = none) (hd : b.dir = ⟨.O_B, none, none⟩)
      (hm : MemIdle b) (mem : b.memory = g.cur) : DirServe r x ∅ 0
  | fetch (t : DirTBE ι L) (st : Directory.State) (hd : b.dir = ⟨st, none, some t⟩)
      (hst : t.tbeState = st) (acks : t.acks = 1) (silent : t.silentAcks = 0)
      (own : g.own = none) (hm : Fetching b (.cache r) g.cur) (mem : b.memory = g.cur)
      (type : st = .NO_B_W ∧ t.responseType = .DATA_EXCLUSIVE ∧ g.excl = true ∨
        st = .NO_B_W ∧ t.responseType = .DATA ∧ x = true ∨
        st = .O_B_W ∧ t.responseType = .DATA ∧ x = false) : DirServe r x ∅ 1

/-- The directory while the unblock message `m` of `r` is on its way. -/
inductive DirClose (r : ι) (m : ResponseMsg ι L) : Finset ι → Prop
  | owned {J : Finset ι} (hd : DirBlocked b J)
      (own : m.type = .UNBLOCKM ∧ g.own = some r ∨
        m.type = .UNBLOCKS ∧ ∃ k, g.own = some k ∧ m.curOwner = .cache k) :
      DirClose r m J
  | clean (own : g.own = none) (hd : b.dir = ⟨.O_B, none, none⟩)
      (hm : m.type = .UNBLOCKS) (mem : b.memory = g.cur) : DirClose r m ∅

/-- The trigger at the end of a DMA request. -/
def dmaTrigger (t : DirTBE ι L) : TriggerType :=
  if t.sharers then if t.owned then .ALL_ACKS_OWNER_EXISTS else .ALL_ACKS
  else .ALL_ACKS_NO_SHARERS

/-- The trigger queue of the directory. -/
def Triggered (q : Multiset TriggerType) (n : ℤ) (t : TriggerType) : Prop :=
  q = if n = 0 then {t} else 0

/-- Where the data of a DMA read comes from. -/
inductive DirRead (σ : ι → Signal ι L) (t : DirTBE ι L) : Prop
  /-- The memory has it, and the directory waits for it. -/
  | fetch (st : Directory.State) (hst : t.tbeState = st) (hd : b.dir = ⟨st, none, some t⟩)
      (own : g.own = none) (mem : b.memory = g.cur) (hm : Fetching b .dma g.cur)
      (dirty : t.cacheDirty = false) (trigger : b.trigger = 0)
      (type : st = .NO_DR_B_W ∧ g.excl = true ∨ st = .O_DR_B_W)
      (calm : ∀ k m, (σ k).answer = some m → m.type ≠ .DATA_EXCLUSIVE)
  | fetched (st : Directory.State) (hst : t.tbeState = st)
      (hd : b.dir = ⟨st, none, some t⟩) (own : g.own = none) (hm : MemIdle b)
      (data : t.dataBlk = g.cur)
      (trigger : Triggered b.trigger t.numPendingMsgs (dmaTrigger t))
      (type : st = .NO_DR_B ∧ g.excl = true ∨ st = .O_DR_B)
      (calm : ∀ k m, (σ k).answer = some m → m.type ≠ .DATA_EXCLUSIVE)
  /-- The owner has it, or has sent it. -/
  | owner (hst : t.tbeState = .NO_DR_B_D) (hd : b.dir = ⟨.NO_DR_B_D, none, some t⟩)
      (hm : MemIdle b)
      (trigger : Triggered b.trigger t.numPendingMsgs (dmaTrigger t))
      (data : t.cacheDirty = true → t.dataBlk = g.cur)
      (kept : ∀ k, g.own = some k → (g.excl = true → t.cacheDirty = false) ∧
        ((σ k).probe ≠ none ∨ t.owned = true ∨ ∃ m, (σ k).answer = some m ∧ m.type = .DATA_SHARED))
      (taken : g.own = none → g.excl = true ∧
        (t.cacheDirty = true ∨ ∃ k m, (σ k).answer = some m ∧ m.type = .DATA_EXCLUSIVE))

/-- A write-back that is on its way to the directory. -/
def ResponseMsg.WritesBack (m : ResponseMsg ι L) : Prop :=
  (m.type = .WB_CLEAN ∨ m.type = .WB_EXCLUSIVE_CLEAN) ∧ m.dirty = false ∨
  m.type = .WB_DIRTY ∨ m.type = .WB_EXCLUSIVE_DIRTY

/-- A block is being written to the memory. -/
inductive DirWrite : Prop
  | shared (hd : b.dir = ⟨.WB_O_W, none, none⟩) (hm : Writing b g.cur g.cur)
  | exclusive (hd : b.dir = ⟨.WB_E_W, none, none⟩) (excl : g.excl = true)
      (hm : Writing b g.cur g.cur)
  | dma (t : DirTBE ι L) (hst : t.tbeState = .NO_DW_W)
      (hd : b.dir = ⟨.NO_DW_W, none, some t⟩) (excl : g.excl = true)
      (written : g.dmaWritten = true) (d : DataBlock L) (hm : Writing b g.cur d)

end Dir

/-! ## The transactions -/

/-- An answer to a DMA read. -/
structure ResponseMsg.AnswersRead (g : Ghost ι L) (j : ι) (m : ResponseMsg ι L) : Prop where
  type : m.type = .ACK ∨ m.type = .ACK_SHARED ∨ m.type = .DATA_SHARED ∨ m.type = .DATA_EXCLUSIVE
  acks : m.acks = if m.isData then 2 else 1
  shared : m.type = .DATA_SHARED → m.dataBlk = g.cur ∧ g.own = some j
  exclusive : m.type = .DATA_EXCLUSIVE → m.dataBlk = g.cur ∧ g.own = none
  calm : g.excl = true → m.type = .ACK ∨ m.type = .DATA_EXCLUSIVE

/-- An answer to a DMA write. -/
structure ResponseMsg.AnswersWrite (m : ResponseMsg ι L) : Prop where
  type : m.type = .ACK ∨ m.type = .DATA ∨ m.type = .DATA_EXCLUSIVE
  acks : m.acks = if m.isData then 2 else 1

variable [DecidableEq ι] [Fintype ι]

/-- The answers that the owner will give. -/
def ownerDue (own : Option ι) (σ : ι → Signal ι L) : ℕ :=
  own.elim 0 fun k => (σ k).probed.toNat

/-- The directory and the memory in a transaction. -/
def Global (g : Ghost ι L) (σ : ι → Signal ι L) (b : Hub ι L) : Prop :=
  match g.txn with
  | .idle =>
    (∀ j, (σ j).Quiet) ∧ (∀ j, g.role j = .idle) ∧ b.trigger = 0 ∧ MemIdle b ∧
    DirIdle g b
  | .serve r x τ φ =>
    (∀ j, (σ j).answer = none ∧ (σ j).unblock = none ∧ (σ j).grant ≠ some .WB_ACK) ∧
    b.trigger = 0 ∧
    ∃ J d, DirServe g b r x J d ∧ r ∉ J ∧ ∀ j, g.role j =
        if j = r then .active x τ φ (tally Signal.probed σ + ownerDue g.own σ + d)
          (ownerDue g.own σ + d)
        else if j ∈ J then .waiting else .idle
  | .close r =>
    (∀ j, (σ j).probe = none ∧ (σ j).answer = none ∧ (σ j).grant ≠ some .WB_ACK) ∧
    (∀ j, j ≠ r → (σ j).unblock = none) ∧ b.trigger = 0 ∧ MemIdle b ∧
    ∃ m J, (σ r).unblock = some m ∧ m.sender = .cache r ∧ DirClose g b r m J ∧
      ∀ j, g.role j = if j ∈ J then .waiting else .idle
  | .feed J φ pending =>
    (∀ j, (σ j).answer = none ∧ (σ j).grant ≠ some .WB_ACK ∧
      ((σ j).probe ≠ none ↔ g.own = some j ∧ pending = true) ∧
      ∀ m, (σ j).unblock = some m → m.type = .UNBLOCKS ∧ pending = false) ∧
    MemIdle b ∧ (pending = true → J.Nonempty) ∧ (∃ k, g.own = some k ∧ g.role k = .idle) ∧
    (∀ j, if pending then g.role j = if j ∈ J then .waiting else .idle
      else g.role j = .idle ∨ g.role j = .active false 0 φ 0 0) ∧
    ∃ t, t.tbeState = .NO_B_S_W ∧ b.dir = ⟨.NO_B_S_W, none, some t⟩ ∧ t.numPendingMsgs =
        tally (fun ρ => decide (ρ ≠ Role.idle)) g.role + tally Signal.unblocks σ ∧
      Triggered b.trigger t.numPendingMsgs .ALL_UNBLOCKS
  | .dmaRead seen =>
    (∀ j, (σ j).unblock = none ∧ (σ j).grant ≠ some .WB_ACK ∧
      ((σ j).probe ≠ none → (σ j).answer = none) ∧
      ∀ m, (σ j).answer = some m → m.AnswersRead g j) ∧
    (∀ j, g.role j = .idle) ∧ (g.excl = true → seen = false) ∧
    ∃ t, DirRead g b σ t ∧ t.sharers = seen ∧ (t.owned = true → seen = true ∧ ∃ k, g.own = some k) ∧
      t.numPendingMsgs = tally Signal.probed σ + tally Signal.answers σ
  | .dmaWrite =>
    (∀ j, (σ j).unblock = none ∧ (σ j).grant ≠ some .WB_ACK ∧
      ((σ j).probe ≠ none → (σ j).answer = none) ∧
      ∀ m, (σ j).answer = some m → m.AnswersWrite) ∧
    (∀ j, g.role j = .idle) ∧ MemIdle b ∧ g.dmaWritten = true ∧
    (∀ k, g.own = some k → (σ k).probe ≠ none) ∧
    ∃ t, t.tbeState = .NO_DW_B_W ∧ b.dir = ⟨.NO_DW_B_W, none, some t⟩ ∧ t.sharers = false ∧
      t.numPendingMsgs = tally Signal.probed σ + tally Signal.answers σ ∧
      Triggered b.trigger t.numPendingMsgs .ALL_ACKS_NO_SHARERS
  | .writeBack i =>
    (∀ j, j ≠ i → (σ j).Quiet) ∧ (∀ j, g.role j = .idle) ∧ b.trigger = 0 ∧
    MemIdle b ∧ b.dir = ⟨.WB, none, none⟩ ∧ (∃ k, g.own = some k) ∧
    (σ i).probe = none ∧ (σ i).answer = none ∧
    ((σ i).grant = some .WB_ACK ∧ (σ i).unblock = none ∨
      (σ i).grant ≠ some .WB_ACK ∧ ∃ m, (σ i).unblock = some m ∧
        (m.type = .UNBLOCK ∨ g.own = some i ∧ m.WritesBack))
  | .memoryWrite =>
    (∀ j, (σ j).Quiet) ∧ (∀ j, g.role j = .idle) ∧ b.trigger = 0 ∧
    g.own = none ∧ DirWrite g b

/-- The invariant. -/
structure Inv (g : Ghost ι L) (a : ι → Party ι L) (s : Sys ι L) : Prop where
  of : ∀ j, (a j).Of j (s.node j)
  party : ∀ j, PartyOK (Fintype.card ι) g (s.memory = g.cur) j (a j)
  dir : Global g (fun j => (a j).signal) s.hub
  writes : ∀ m ∈ s.dmaRequestToDir, m = .READ ∨ g.dmaWritten = true

end Gem5Gpu.VIHammer
