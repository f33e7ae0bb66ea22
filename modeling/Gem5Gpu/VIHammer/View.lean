import Gem5Gpu.VIHammer.System

/-!
# What a cache is to the others

The two kinds of caches play the same part in the protocol.  A `View` is what
the rest of the system can tell of a cache: one of sixteen modes, the block it
holds, and the part of its TBE that the protocol reads.  A CPU cache has more
states, since a block also moves between its L1 and L2 caches; to the others a
block that moves is the same as one that rests.

`Reacts` and `Serves` say everything that a message and a request from the
processor side can do to a view, and `Expects` says which messages a view has a
transition for.  The two cache controllers are proved against these three.
-/

namespace Gem5Gpu.VIHammer

open Lib

variable {ι : Type} {L : ℕ}

inductive Mode
  | I | S | O | M | MM | IM | ISM | SM | OM | IS | SS | OI | MI | II | M_W | MM_W
  deriving DecidableEq

namespace Mode

/-- The modes without a TBE. -/
def resting : Mode → Bool
  | .I | .S | .O | .M | .MM => true
  | _ => false

/-- The modes of a cache that waits for a block. -/
def getting : Mode → Bool
  | .IM | .ISM | .SM | .OM | .IS | .SS | .M_W | .MM_W => true
  | _ => false

/-- The modes of a cache that gives a block up. -/
def leaving : Mode → Bool
  | .OI | .MI | .II => true
  | _ => false

/-- The modes with a transition for a forwarded request. -/
def probed : Mode → Bool
  | .ISM | .SS | .M_W | .MM_W => false
  | _ => true

/-- The modes that supply the data of a forwarded request. -/
def supplies : Mode → Bool
  | .O | .M | .MM | .OM | .OI | .MI => true
  | _ => false

theorem resting_of_getting {m : Mode} (h : m.getting) : m.resting = false := by
  cases m <;> first | rfl | cases h

theorem resting_of_leaving {m : Mode} (h : m.leaving) : m.resting = false := by
  cases m <;> first | rfl | cases h

end Mode

/-- The entry after a transition into a state that keeps a lock. -/
def Entry.kept {S : Type} (e : Entry S L) : Entry S L := { e with locked := e.locked && true }

/-- A cache as the others see it. -/
structure View (ι : Type) (L : ℕ) where
  mode : Mode := .I
  blk : DataBlock L := DataBlock.clear L
  dirty : Bool := false
  /-- `NumPendingMsgs` -/
  need : ℤ := 0
  sharers : Bool := false
  lastResponder : MachineID ι := .unset
  curOwner : MachineID ι := .unset
  initialRequestTime : ℕ := 0
  forwardRequestTime : ℕ := 0

/-! ## Loads and stores -/

namespace Callback

/-- The cache that performs the access. -/
def cache : Callback ι L → ι
  | .load i _ | .loadLinked i _ | .store i _ | .storeConditional i _ _ => i

/-- The block after the access.  A failed `Store_Conditional` writes as well. -/
def apply : Callback ι L → DataBlock L → DataBlock L
  | .load _ _, d | .loadLinked _ _, d => d
  | .store _ w, d | .storeConditional _ w _, d => d.copyPartial w

/-- A load returns the block `d`. -/
def Returns (d : DataBlock L) : Callback ι L → Prop
  | .load _ r | .loadLinked _ r => r = d
  | .store _ _ | .storeConditional _ _ _ => True

end Callback

/-! ## What a message does to a view -/

namespace View

variable (env : Env ι) (m : RequestMsg ι) (r : ResponseMsg ι L) (v : View ι L)

/-- A forwarded GETX takes the copy away. -/
def probeX : View ι L :=
  match v.mode with
  | .S | .O | .M | .MM => {}
  | .SM => { v with mode := .IM }
  | .OM => { v with mode := .IM, need := v.need + 1 }
  | .OI | .MI => { v with mode := .II }
  | _ => v

def replyX : ResponseMsg ι L :=
  match v.mode with
  | .O | .OM | .OI | .MI => Ctx.answer env m .DATA 2 v.blk v.dirty
  | .M | .MM => Ctx.answer env m .DATA_EXCLUSIVE 2 v.blk v.dirty
  | _ => Ctx.answer env m .ACK 1 (DataBlock.clear L) false

/-- An owner shares its copy. -/
def share : View ι L :=
  match v.mode with
  | .M | .MM => { v with mode := .O }
  | .MI => { v with mode := .OI }
  | _ => v

/-- A forwarded GETS.  An owner shares its copy, and with `mig` a modified one
migrates. -/
def probeS (mig : Bool) : View ι L := if mig ∧ v.mode = .MM then {} else v.share

def replyS (mig : Bool) : ResponseMsg ι L :=
  match v.mode with
  | .MM => Ctx.answer env m (if mig then .DATA_EXCLUSIVE else .DATA_SHARED) 2 v.blk v.dirty
  | .O | .OM | .OI | .MI | .M => Ctx.answer env m .DATA_SHARED 2 v.blk v.dirty
  | .S | .SM => Ctx.answer env m .ACK_SHARED 1 (DataBlock.clear L) false
  | _ => Ctx.answer env m .ACK 1 (DataBlock.clear L) false

/-- What a cache sends back on a `WB_ACK`. -/
def putAnswer : ResponseMsg ι L :=
  match v.mode with
  | .MI =>
    { type := if v.dirty then .WB_EXCLUSIVE_DIRTY else .WB_EXCLUSIVE_CLEAN
      sender := .cache env.machineID, dataBlk := v.blk, dirty := v.dirty }
  | .OI =>
    { type := if v.dirty then .WB_DIRTY else .WB_CLEAN
      sender := .cache env.machineID, dataBlk := v.blk, dirty := v.dirty }
  | _ => { type := .UNBLOCK, sender := .cache env.machineID }

/-- `m_decrementNumberOfMessages`, without silent acks -/
def count : View ι L :=
  { v with
    need := v.need - r.acks
    lastResponder := r.sender
    initialRequestTime :=
      if r.initialRequestTime = 0 then v.initialRequestTime else r.initialRequestTime
    forwardRequestTime :=
      if r.forwardRequestTime = 0 then v.forwardRequestTime else r.forwardRequestTime }

/-- `o_checkForCompletion` -/
def completion : List (Send ι L) :=
  if v.need = 0 then [.trigger (if v.sharers then .ALL_ACKS else .ALL_ACKS_NO_SHARERS)]
  else []

/-- The request times of a response agree with those of the TBE. -/
def TimesAgree : Prop :=
  (v.initialRequestTime = 0 ∨ r.initialRequestTime = 0 ∨
    v.initialRequestTime = r.initialRequestTime) ∧
  (v.forwardRequestTime = 0 ∨ r.forwardRequestTime = 0 ∨
    v.forwardRequestTime = r.forwardRequestTime)

end View

/-- The responses that a view has a transition for. -/
def View.ExpectsResponse (v : View ι L) (r : ResponseMsg ι L) : Prop :=
  v.mode.getting = true ∧ 0 ≤ r.acks ∧ r.silentAcks = 0 ∧ v.TimesAgree r ∧
  match r.type with
  | .ACK => True
  | .ACK_SHARED => v.mode = .IS ∨ v.mode = .SS
  | .DATA => v.mode = .IS ∨ v.mode = .IM ∨ v.mode = .SM ∧ v.blk = r.dataBlk
  | .DATA_EXCLUSIVE => v.mode = .IS ∨ v.mode = .IM
  | .DATA_SHARED => v.mode = .IS
  | _ => False

/-- The forwarded messages that a view has a transition for. -/
def View.ExpectsForward (env : Env ι) (v : View ι L) (m : RequestMsg ι) : Prop :=
  match m.type with
  | .GETX | .GETS =>
    v.mode.probed = true ∧ m.directedProbe = false ∧ m.requestor ≠ .cache env.machineID
  | .MERGED_GETS => v.mode.supplies = true
  | .WB_ACK => v.mode.leaving = true
  | .WB_NACK => v.mode = .II
  | _ => False

/-- The triggers that a view has a transition for. -/
def View.ExpectsTrigger (v : View ι L) : TriggerType → Prop
  | .ALL_ACKS => v.mode = .SS
  | .ALL_ACKS_NO_SHARERS =>
    v.mode = .SS ∨ v.mode = .M_W ∨ v.mode = .MM_W ∨
    ((v.mode = .ISM ∨ v.mode = .OM) ∧ v.lastResponder ≠ .unset ∧ v.lastResponder ≠ .dma)
  | _ => False

/-- The messages that a view has a transition for. -/
def View.Expects (env : Env ι) (v : View ι L) : Message ι L → Prop
  | .trigger t => v.ExpectsTrigger t
  | .response r => v.ExpectsResponse r
  | .forward m => v.ExpectsForward env m

/-- What a cache does with a message: its view before and after it, and what it
sends. -/
inductive Reacts (env : Env ι) (v : View ι L) :
    Message ι L → View ι L → List (Send ι L) → Prop
  | probeX {m : RequestMsg ι} : m.type = .GETX →
      Reacts env v (.forward m) v.probeX [.response m.requestor (v.replyX env m)]
  | probeS {m : RequestMsg ι} (mig : Bool) : m.type = .GETS →
      Reacts env v (.forward m) (v.probeS mig) [.response m.requestor (v.replyS env m mig)]
  | merged {m : RequestMsg ι} : m.type = .MERGED_GETS →
      Reacts env v (.forward m) v.share [.multicast m.mergedRequestors
        (Ctx.answer env m .DATA_SHARED env.machineCount v.blk v.dirty)]
  | wbAck {m : RequestMsg ι} : m.type = .WB_ACK →
      Reacts env v (.forward m) {} [.unblock (v.putAnswer env)]
  | wbNack {m : RequestMsg ι} : m.type = .WB_NACK → Reacts env v (.forward m) {} []
  | ack {r : ResponseMsg ι L} : r.type = .ACK →
      Reacts env v (.response r) (v.count r) (v.count r).completion
  | ackShared {r : ResponseMsg ι L} : r.type = .ACK_SHARED →
      Reacts env v (.response r) { v.count r with sharers := true }
        { v.count r with sharers := true }.completion
  | dataIS {r : ResponseMsg ι L} : r.type = .DATA → v.mode = .IS →
      Reacts env v (.response r) { v.count r with
          mode := .SS, blk := r.dataBlk, dirty := r.dirty, curOwner := r.sender }
        ((v.count r).completion ++ [.callback (.load env.machineID r.dataBlk)])
  | sharedIS {r : ResponseMsg ι L} : r.type = .DATA_SHARED → v.mode = .IS →
      Reacts env v (.response r) { v.count r with
          mode := .SS, blk := r.dataBlk, dirty := r.dirty, curOwner := r.sender
          sharers := true }
        ({ v.count r with sharers := true }.completion ++
          [.callback (.load env.machineID r.dataBlk)])
  | exclusiveIS {r : ResponseMsg ι L} : r.type = .DATA_EXCLUSIVE → v.mode = .IS →
      Reacts env v (.response r) { v.count r with mode := .M_W, blk := r.dataBlk, dirty := r.dirty }
        ((v.count r).completion ++ [.callback (.load env.machineID r.dataBlk)])
  | dataIM {r : ResponseMsg ι L} : r.type = .DATA → v.mode = .IM →
      Reacts env v (.response r) { v.count r with mode := .ISM, blk := r.dataBlk, dirty := r.dirty }
        (v.count r).completion
  | exclusiveIM {r : ResponseMsg ι L} (cb : Callback ι L) :
      r.type = .DATA_EXCLUSIVE → v.mode = .IM → cb.cache = env.machineID →
      cb.Returns r.dataBlk →
      Reacts env v (.response r)
        { v.count r with mode := .MM_W, blk := cb.apply r.dataBlk, dirty := true }
        ((v.count r).completion ++ [.callback cb])
  | dataSM {r : ResponseMsg ι L} : r.type = .DATA → v.mode = .SM →
      Reacts env v (.response r) { v.count r with mode := .ISM, dirty := r.dirty || v.dirty }
        (v.count r).completion
  | doneS {t : TriggerType} : t = .ALL_ACKS ∨ t = .ALL_ACKS_NO_SHARERS → v.mode = .SS →
      Reacts env v (.trigger t) { mode := .S, blk := v.blk, dirty := v.dirty } [.unblock
          { type := .UNBLOCKS, sender := .cache env.machineID, curOwner := v.curOwner }]
  | doneM {t : TriggerType} : t = .ALL_ACKS_NO_SHARERS → v.mode = .M_W →
      Reacts env v (.trigger t) { mode := .M, blk := v.blk, dirty := v.dirty }
        [.unblock { type := .UNBLOCKM, sender := .cache env.machineID }]
  | doneMM {t : TriggerType} : t = .ALL_ACKS_NO_SHARERS → v.mode = .MM_W →
      Reacts env v (.trigger t) { mode := .MM, blk := v.blk, dirty := v.dirty }
        [.unblock { type := .UNBLOCKM, sender := .cache env.machineID }]
  | doneStore {t : TriggerType} (cb : Callback ι L) : t = .ALL_ACKS_NO_SHARERS →
      v.mode = .ISM ∨ v.mode = .OM → cb.cache = env.machineID → cb.Returns v.blk →
      Reacts env v (.trigger t) { mode := .MM, blk := cb.apply v.blk, dirty := true }
        [.callback cb, .unblock { type := .UNBLOCKM, sender := .cache env.machineID }]

/-- What a cache does with a request from its processor side. -/
inductive Serves (env : Env ι) (v : View ι L) : View ι L → List (Send ι L) → Prop
  /-- The request waits, or the block moves between the caches of a CPU. -/
  | nothing : Serves env v v []
  | load : v.mode = .S ∨ v.mode = .O ∨ v.mode = .M ∨ v.mode = .MM ∨ v.mode.getting = true ∧
        v.mode ≠ .IS ∧ v.mode ≠ .IM →
      Serves env v v [.callback (.load env.machineID v.blk)]
  | store (cb : Callback ι L) : v.mode = .M ∨ v.mode = .MM → cb.cache = env.machineID →
      cb.Returns v.blk →
      Serves env v { v with mode := .MM, blk := cb.apply v.blk, dirty := true } [.callback cb]
  | storeEarly (cb : Callback ι L) : v.mode = .M_W ∨ v.mode = .MM_W →
      cb.cache = env.machineID → cb.Returns v.blk →
      Serves env v { v with mode := .MM_W, blk := cb.apply v.blk, dirty := true } [.callback cb]
  | getS (d : DataBlock L) (dirty : Bool) : v.mode = .I →
      Serves env v { mode := .IS, blk := d, dirty := dirty, need := env.machineCount }
        [.request { type := .GETS, requestor := .cache env.machineID
                    initialRequestTime := env.curCycle }]
  | getX (d : DataBlock L) (dirty : Bool) : v.mode = .I →
      Serves env v { mode := .IM, blk := d, dirty := dirty, need := env.machineCount }
        [.request { type := .GETX, requestor := .cache env.machineID
                    initialRequestTime := env.curCycle }]
  | upgradeS : v.mode = .S →
      Serves env v { v with mode := .SM, need := env.machineCount }
        [.request { type := .GETX, requestor := .cache env.machineID
                    initialRequestTime := env.curCycle }]
  | upgradeO : v.mode = .O →
      Serves env v { v with mode := .OM, need := env.machineCount - 1 }
        [.request { type := .GETX, requestor := .cache env.machineID
                    initialRequestTime := env.curCycle }]
  | drop : v.mode = .S → Serves env v {} []
  | putO : v.mode = .O →
      Serves env v { v with mode := .OI }
        [.request { type := .PUT, requestor := .cache env.machineID }]
  | putM : v.mode = .M ∨ v.mode = .MM →
      Serves env v { v with mode := .MI }
        [.request { type := .PUT, requestor := .cache env.machineID }]

/-! ## The views of the two controllers -/

/-- Where a block is between the L1 and L2 caches of a CPU.  One in `transfer`
waits for its trigger, and one that is `ready` for the request that moved it. -/
inductive Move
  | settled | transfer | ready
  deriving DecidableEq

namespace View

variable {S : Type}

/-- A block without a TBE. -/
def rest (m : Mode) (e : Entry S L) : View ι L :=
  if m = .I then {} else { mode := m, blk := e.dataBlk, dirty := e.dirty }

/-- A block with an entry and a TBE. -/
def ofBoth (m : Mode) (e : Entry S L) (t : TBE S ι L) : View ι L where
  mode := m
  blk := e.dataBlk
  dirty := e.dirty
  need := t.numPendingMsgs
  sharers := t.sharers
  lastResponder := t.lastResponder
  curOwner := t.curOwner
  initialRequestTime := t.initialRequestTime
  forwardRequestTime := t.forwardRequestTime

/-- A block with a TBE alone. -/
def ofTBE (m : Mode) (t : TBE S ι L) : View ι L :=
  { mode := m, blk := t.dataBlk, dirty := t.dirty }

end View

/-! ## Actions as equations

The actions that test something, when the test is known to succeed. -/

/-- A TBE after `m_decrementNumberOfMessages`, without silent acks. -/
def TBE.count {S : Type} (t : TBE S ι L) (r : ResponseMsg ι L) : TBE S ι L :=
  { t with
    numPendingMsgs := t.numPendingMsgs - r.acks
    appliedSilentAcks := true
    lastResponder := r.sender
    initialRequestTime :=
      if r.initialRequestTime = 0 then t.initialRequestTime else r.initialRequestTime
    forwardRequestTime :=
      if r.forwardRequestTime = 0 then t.forwardRequestTime else r.forwardRequestTime }

/-- What `o_checkForCompletion` sends. -/
def TBE.completion {S : Type} (t : TBE S ι L) : List (Send ι L) :=
  if t.numPendingMsgs = 0 then
    [.trigger (if t.sharers then .ALL_ACKS else .ALL_ACKS_NO_SHARERS)]
  else []

/-- What `m_decrementNumberOfMessages` asserts, and that there are no silent acks. -/
structure TBE.Takes {S : Type} (t : TBE S ι L) (r : ResponseMsg ι L) : Prop where
  acks : 0 ≤ r.acks
  silent : r.silentAcks = 0
  initial : t.initialRequestTime = 0 ∨ r.initialRequestTime = 0 ∨
    t.initialRequestTime = r.initialRequestTime
  forward : t.forwardRequestTime = 0 ∨ r.forwardRequestTime = 0 ∨
    t.forwardRequestTime = r.forwardRequestTime

namespace Ctx

variable {S : Type} {c : Ctx S ι L} {env : Env ι} {m : RequestMsg ι}
  {r : ResponseMsg ι L} {t : TBE S ι L} {type : CoherenceResponseType}

theorem sendDataFromTBEToCache_eq [DecidableEq ι] (h : m.requestor ≠ .cache env.machineID) :
    c.sendDataFromTBEToCache env m type = c.sendDataFromTBE env m type := by
  simp [sendDataFromTBEToCache, check, h, bind, Except.bind]

theorem decrementNumberOfMessages_eq (ht : c.tbe = some t) (hr : t.Takes r) :
    c.decrementNumberOfMessages r = .ok (c.setTBE (t.count r)) := by
  simp only [decrementNumberOfMessages, getTBE, ht, check, if_pos hr.acks, pure_bind,
    hr.silent, Int.sub_zero, ite_self]
  rw [if_pos hr.initial, if_pos hr.forward]
  rfl

theorem checkForCompletion_eq (ht : c.tbe = some t) :
    c.checkForCompletion = .ok { c with sent := c.sent ++ t.completion } := by
  simp only [checkForCompletion, getTBE, ht, TBE.completion]
  by_cases h : t.numPendingMsgs = 0
  · simp [h, send, bind, Except.bind, pure, Except.pure]
  · simp [h, bind, Except.bind, pure, Except.pure]

theorem writeDataToCacheVerify_eq {e : Entry S L} (he : c.entry = some e)
    (hd : e.dataBlk = r.dataBlk) :
    c.writeDataToCacheVerify r =
      .ok (c.setEntry { e with dataBlk := r.dataBlk, dirty := r.dirty || e.dirty }) := by
  simp [writeDataToCacheVerify, getEntry, he, check, hd, bind, Except.bind, pure, Except.pure]

end Ctx

end Gem5Gpu.VIHammer
