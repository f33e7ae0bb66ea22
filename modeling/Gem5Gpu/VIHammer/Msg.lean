import Mathlib.Data.Fintype.Basic

/-!
# Messages of the VI_hammer protocol

The message types of `VI_hammer-msg.sm`, for one block.  `ι` is the type of the
last-level caches, which are the CPU caches and the GPU L2 caches, and `L` is
the number of bytes of a block.  A destination is not part of a message here: it
is where the network keeps the message.

`Callback` is what the outside sees of a run: the loads and the stores in the
order in which they are performed.
-/

namespace Gem5Gpu.VIHammer

/-- The bytes of a block. -/
abbrev DataBlock (L : ℕ) := Fin L → UInt8

def DataBlock.clear (L : ℕ) : DataBlock L := fun _ => 0

/-- A store: `size` bytes at `offset`. -/
structure Write (L : ℕ) where
  dataBlk : DataBlock L
  offset : ℕ
  size : ℕ
  deriving DecidableEq

/-- `DataBlock::copyPartial` -/
def DataBlock.copyPartial {L : ℕ} (d : DataBlock L) (w : Write L) : DataBlock L :=
  fun k => if w.offset ≤ k ∧ k.val < w.offset + w.size then w.dataBlk k else d k

inductive MachineID (ι : Type)
  | directory
  | dma
  | cache (i : ι)
  /-- The value of a field that no action has set. -/
  | unset
  deriving DecidableEq

/-- A destination as a set of caches: `NetDest`, without the other machines. -/
def MachineID.caches {ι : Type} : MachineID ι → Finset ι
  | .cache i => {i}
  | .directory | .dma | .unset => ∅

inductive CoherenceRequestType
  | GETX | GETS | MERGED_GETS | PUT | WB_ACK | WB_NACK | PUTF | GETF | BLOCK_ACK | INV
  deriving DecidableEq

inductive CoherenceResponseType
  | ACK | ACK_SHARED | DATA | DATA_SHARED | DATA_EXCLUSIVE
  | WB_CLEAN | WB_DIRTY | WB_EXCLUSIVE_CLEAN | WB_EXCLUSIVE_DIRTY
  | UNBLOCK | UNBLOCKS | UNBLOCKM | NULL
  deriving DecidableEq

inductive TriggerType
  | L2_to_L1 | ALL_ACKS | ALL_ACKS_OWNER_EXISTS | ALL_ACKS_NO_SHARERS | ALL_UNBLOCKS
  deriving DecidableEq

/-- `RequestMsg`, also for the requests that the directory forwards. -/
structure RequestMsg (ι : Type) where
  type : CoherenceRequestType
  requestor : MachineID ι
  mergedRequestors : Finset ι := ∅
  directedProbe : Bool := false
  initialRequestTime : ℕ := 0
  forwardRequestTime : ℕ := 0
  silentAcks : ℤ := 0
  deriving DecidableEq

/-- `ResponseMsg`, also for the unblock network. -/
structure ResponseMsg (ι : Type) (L : ℕ) where
  type : CoherenceResponseType
  sender : MachineID ι
  curOwner : MachineID ι := .unset
  dataBlk : DataBlock L := DataBlock.clear L
  dirty : Bool := false
  acks : ℤ := 0
  silentAcks : ℤ := 0
  initialRequestTime : ℕ := 0
  forwardRequestTime : ℕ := 0
  deriving DecidableEq

/-- `DMARequestMsg`.  The `physicalAddress` is an offset in the block here, and
`heap` stands for the bytes after the end of the buffer of `len` bytes that
`queueMemoryWritePartial` sends as a whole block. -/
inductive DMARequestMsg (L : ℕ)
  | READ
  | WRITE (physicalAddress : ℕ) (dataBlk : DataBlock L) (len : ℕ) (heap : DataBlock L)
  deriving DecidableEq

inductive DMAResponseMsg (L : ℕ)
  | DATA (dataBlk : DataBlock L)
  | ACK
  deriving DecidableEq

/-- A request to the memory controller. -/
inductive MemoryRequest (ι : Type) (L : ℕ)
  | read (requestor : MachineID ι)
  | write (dataBlk : DataBlock L)
  deriving DecidableEq

/-- `MemoryMsg`: an answer of the memory controller. -/
inductive MemoryMsg (ι : Type) (L : ℕ)
  | MEMORY_READ (originalRequestor : MachineID ι) (dataBlk : DataBlock L)
  | MEMORY_WB
  deriving DecidableEq

/-- A load or a store that is performed, with the cache it is performed in. -/
inductive Callback (ι : Type) (L : ℕ)
  | load (i : ι) (dataBlk : DataBlock L)
  | loadLinked (i : ι) (dataBlk : DataBlock L)
  | store (i : ι) (w : Write L)
  | storeConditional (i : ι) (w : Write L) (success : Bool)
  deriving DecidableEq

/-- What a cache controller sends in a transition. -/
inductive Send (ι : Type) (L : ℕ)
  | request (m : RequestMsg ι)
  | response (dest : MachineID ι) (m : ResponseMsg ι L)
  | multicast (dest : Finset ι) (m : ResponseMsg ι L)
  | unblock (m : ResponseMsg ι L)
  | trigger (t : TriggerType)
  | callback (c : Callback ι L)
  deriving DecidableEq

/-- Why a controller stops the simulation. -/
inductive Fault
  /-- The state has no transition for the event. -/
  | invalidTransition
  /-- An assertion of an action fails. -/
  | assertion
  /-- A call of `error`, or a message that is not there. -/
  | unexpected
  /-- A message to a machine that has no port for it. -/
  | noRoute
  deriving DecidableEq

end Gem5Gpu.VIHammer
