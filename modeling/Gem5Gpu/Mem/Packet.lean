import Mathlib.Data.List.Count

/-!
# Packets and memory requests

The data that the ports of the memory system exchange.  Addresses and ticks
are natural numbers.

* `TimingReq` is what the upstream port passes to `recvTimingReq`: the command,
  the address, the context and, for a write, the bytes.  A write names the kind
  of its data pointer as `Packet` does: `staticData` holds when the packet does
  not own its bytes.  A copy of a packet shares a static pointer, but gets a
  fresh buffer otherwise, and `heap` is what that buffer happens to contain.
* `Packet` is a packet inside the controller.  An accepted packet has the
  number of its acceptance as `id`, so that two packets never share one.  The code
  compares the addresses `ptr` of packets, and a new packet may lie at the address
  of one that was deleted (`reused`).
* `MemPacket` is a request that the memory has performed and not yet answered.

The field `stamp` of the last two is a history variable: the number of accepted
requests when the bytes were read from the backing store.  The code never reads
it.
-/

namespace Gem5Gpu.Mem

abbrev Data := List UInt8

/-- The commands that the DRAM cache tells apart.  `upgradeReq` stands for a
request that is neither a read nor a write. -/
inductive MemCmd
  | readReq
  | writeReq
  | cleanEvict
  | upgradeReq
  deriving DecidableEq, Repr

def MemCmd.isRead : MemCmd → Bool
  | .readReq => true
  | _ => false

def MemCmd.isWrite : MemCmd → Bool
  | .writeReq => true
  | _ => false

@[simp] theorem MemCmd.isRead_iff {cmd : MemCmd} : cmd.isRead = true ↔ cmd = .readReq := by
  cases cmd <;> simp [isRead]

@[simp] theorem MemCmd.isWrite_iff {cmd : MemCmd} : cmd.isWrite = true ↔ cmd = .writeReq := by
  cases cmd <;> simp [isWrite]

/-- A call of `recvTimingReq` by the upstream port. -/
structure TimingReq where
  cmd : MemCmd
  addr : ℕ
  contextId : ℕ := 0
  data : Data := []
  /-- The data pointer is static: a copy of the packet shares it. -/
  staticData : Bool := false
  /-- The contents of a fresh data buffer of a copy of the packet. -/
  heap : Data := []
  memInhibit : Bool := false
  /-- The answer of the hit predictor for this request. -/
  predictHit : Bool := true
  /-- The address of the packet object, if an object lay there before. -/
  reused : Option ℕ := none
  deriving DecidableEq, Repr

/-- A packet inside the controller. -/
structure Packet where
  id : ℕ := 0
  /-- The controller made the packet itself: it must not go upstream. -/
  internal : Bool := false
  cmd : MemCmd
  addr : ℕ
  contextId : ℕ := 0
  data : Data := []
  stamp : ℕ := 0
  /-- The address of the object, by which the controller tells packets apart. -/
  ptr : ℕ := 0
  deriving DecidableEq, Repr

/-- The two queues of outstanding memory requests, by their index. -/
inductive MSHRQueueIndex
  | mshrs
  | writeBuffer
  deriving DecidableEq, Repr

/-- A request that the memory has performed and not yet answered.  `mshr` is
the `senderState` that the answer brings back. -/
structure MemPacket where
  queue : MSHRQueueIndex
  mshr : ℕ
  cmd : MemCmd
  addr : ℕ
  contextId : ℕ := 0
  data : Data := []
  stamp : ℕ := 0
  deriving DecidableEq, Repr

/-- The copy of the bytes that a copied packet carries. -/
def TimingReq.copiedData (r : TimingReq) : Data :=
  if r.staticData then r.data else r.heap

/-! ## Packets in lists -/

/-- How often the packet of an accepted request is in a list.  The packets that
the controller made itself do not count. -/
def held (i : ℕ) (l : List Packet) : ℕ :=
  l.countP fun t => !t.internal && t.id == i

@[simp] theorem held_nil (i : ℕ) : held i [] = 0 := rfl

theorem held_append (i : ℕ) (l l' : List Packet) :
    held i (l ++ l') = held i l + held i l' := List.countP_append

theorem held_cons {t : Packet} (h : t.internal = false) (i : ℕ) (l : List Packet) :
    held i (t :: l) = held i l + if i = t.id then 1 else 0 := by
  simp only [held, List.countP_cons, h, Bool.not_false, Bool.true_and, beq_iff_eq]
  simp only [eq_comm]

theorem held_cons_internal {t : Packet} (h : t.internal) (i : ℕ)
    (l : List Packet) : held i (t :: l) = held i l := by
  simp [held, h]

/-- Copying bytes into packets does not change which packets they are. -/
theorem held_map {f : Packet → Packet} (hid : ∀ t, (f t).id = t.id)
    (hint : ∀ t, (f t).internal = t.internal) (i : ℕ) (l : List Packet) :
    held i (l.map f) = held i l := by
  simp [held, List.countP_map, Function.comp_def, hid, hint]

end Gem5Gpu.Mem
