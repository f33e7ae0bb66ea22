import Mathlib.Data.List.Sort
import Mathlib.Data.List.Dedup
import Mathlib.Algebra.Group.Nat.Defs

/-!
# Warp instruction buffers

A `WarpInstBuffer` collects the lane packets of one warp instruction.  When the
instruction is dispatched, `coalesce` cuts the lanes into accesses to segments of
memory: one access per segment for a load, one per contiguous run for a store,
and packets of at most three operations per subblock for an atomic.  The buffer
keeps an access in `coalescedAccesses` until the cache took it and in
`translatedAccesses` from its translation until its response is ejected;
`finishAccess` hands the response to the lanes.

The pool builds its buffers with `warpParts = 1`, so there is one subwarp.
-/

namespace Gem5Gpu.GPU.LSQ

abbrev Byte := BitVec 8

/-- `InstructionType`; an empty buffer has none. -/
inductive InstType
  | load
  | store
  | fence
  | atomic
deriving DecidableEq, Repr

/-- A request packet of a lane.  `data` is what a response carries. -/
structure LanePkt where
  id : ℕ
  type : InstType
  threadId : ℕ
  vaddr : ℕ
  size : ℕ
  data : List Byte
deriving DecidableEq

/-- A `CoalescedAccess`.  `inst` and `idx` identify it: the `idx`-th access of the
`inst`-th dispatched instruction.  `warp` is the warp of its buffer, which does
not change while the access exists, and `paddr` is the address that its
translation will give. -/
structure Access where
  inst : ℕ
  idx : ℕ
  buf : ℕ
  warp : ℕ
  activeLanes : List ℕ
  isWrite : Bool
  vaddr : ℕ
  paddr : ℕ
  size : ℕ
deriving DecidableEq

structure WarpInstBuffer where
  /-- The number of the instruction, once it is dispatched. -/
  inst : ℕ
  warpId : ℕ
  type : InstType
  requestDataSize : ℕ
  startTick : ℕ
  laneRequestPkts : ℕ → Option LanePkt
  coalescedAccesses : List Access
  translatedAccesses : List Access

namespace WarpInstBuffer

def empty : WarpInstBuffer where
  inst := 0
  warpId := 0
  type := .load
  requestDataSize := 0
  startTick := 0
  laneRequestPkts := fun _ => none
  coalescedAccesses := []
  translatedAccesses := []

def isFence (b : WarpInstBuffer) : Bool := b.type == .fence

def initializeInstBuffer (now : ℕ) (pkt : LanePkt) (b : WarpInstBuffer) : WarpInstBuffer :=
  { b with
    warpId := pkt.threadId
    type := pkt.type
    requestDataSize := pkt.size
    startTick := now }

def setLane (lane : ℕ) (pkt : Option LanePkt) (b : WarpInstBuffer) : WarpInstBuffer :=
  { b with laneRequestPkts := Function.update b.laneRequestPkts lane pkt }

/-! ## Coalescing -/

/-- The lanes with a packet, in order. -/
def active (laneCount : ℕ) (b : WarpInstBuffer) : List ℕ :=
  (List.range laneCount).filter fun lane => (b.laneRequestPkts lane).isSome

/-- The packets of the lanes, in order. -/
def lanePkts (laneCount : ℕ) (b : WarpInstBuffer) : List (ℕ × LanePkt) :=
  (List.range laneCount).filterMap fun lane => (b.laneRequestPkts lane).map (lane, ·)

def getLaneAddr (b : WarpInstBuffer) (lane : ℕ) : ℕ :=
  match b.laneRequestPkts lane with
  | some pkt => pkt.vaddr
  | none => 0

/-- The segment of a data size; CUDA has no other sizes. -/
def segmentSize : ℕ → ℕ
  | 1 => 32
  | 2 => 64
  | _ => 128

/-- Step 2 of `coalesce`: a segment of which only a half, or a half of a half, is
touched.  `q` are the 32-byte chunks of its 128-byte block that are touched. -/
def reduce (segment addr : ℕ) (q : ℕ → Bool) : ℕ × ℕ :=
  let half (addr : ℕ) (h₀ h₁ : Bool) : ℕ × ℕ :=
    if h₀ && !h₁ then (addr, 32)
    else if !h₀ && h₁ then (addr + 32, 32)
    else (addr, 64)
  if segment = 128 then
    if (q 0 || q 1) && !(q 2 || q 3) then half addr (q 0) (q 1)
    else if !(q 0 || q 1) && (q 2 || q 3) then half (addr + 64) (q 2) (q 3)
    else (addr, 128)
  else if segment = 64 then
    if addr % 128 = 0 then half addr (q 0) (q 1) else half addr (q 2) (q 3)
  else (addr, segment)

/-- The address, the size and the lanes of an access. -/
structure Piece where
  addr : ℕ
  size : ℕ
  lanes : List ℕ

/-- The runs of a store: `words` are the offsets and lanes in order of offset, and
a run goes on while the next word follows or overlaps the last one. -/
def storePieces (size addr : ℕ) (words : List (ℕ × ℕ)) : List Piece :=
  (words.splitBy fun u v => v.1 == u.1 + size || v.1 == u.1).map fun run =>
    { addr := addr + (run.head?.map Prod.fst).getD 0
      size := size + ((run.zip run.tail).filter fun uv => uv.2.1 == uv.1.1 + size).length * size
      lanes := run.map Prod.snd }

/-- The packets of an atomic: each takes up to three lanes of every subblock. -/
def atomicPieces (addr size : ℕ) (subblock : ℕ → List ℕ) : List Piece :=
  let blocks := List.range (size / 32)
  let most := (blocks.map fun k => (subblock k).length).foldl max 0
  (List.range ((most + 2) / 3)).map fun p =>
    { addr := addr
      size := size
      lanes := blocks.flatMap fun k => ((subblock k).drop (3 * p)).take 3 }

/-- The pieces of the lanes of a reduced segment. -/
def cut (b : WarpInstBuffer) (addr size : ℕ) (lanes : List ℕ) : List Piece :=
  match b.type with
  | .store =>
    let words := lanes.map fun lane => (b.getLaneAddr lane % size, lane)
    storePieces b.requestDataSize addr (words.insertionSort fun u v => u.1 ≤ v.1)
  | .atomic =>
    atomicPieces addr size fun k => lanes.filter fun lane => (b.getLaneAddr lane - addr) / 32 == k
  | _ => [{ addr := addr, size := size, lanes := lanes }]

/-- The pieces of one segment. -/
def segmentPieces (b : WarpInstBuffer) (segment block : ℕ) (lanes : List ℕ) : List Piece :=
  let reduced := reduce segment block fun c =>
    lanes.any fun lane => b.getLaneAddr lane % 128 / 32 == c
  b.cut reduced.1 reduced.2 lanes

/-- The pieces of some lanes, segment by segment in order of address. -/
def coalesceLanes (b : WarpInstBuffer) (lanes : List ℕ) : List Piece :=
  let segment := segmentSize b.requestDataSize
  let block (lane : ℕ) : ℕ := b.getLaneAddr lane / segment * segment
  let blocks := ((lanes.map block).dedup).insertionSort (· ≤ ·)
  blocks.flatMap fun a => b.segmentPieces segment a (lanes.filter fun lane => block lane == a)

/-- `coalesce`, for an instruction that is not cut into subwarps. -/
def coalesce (laneCount : ℕ) (b : WarpInstBuffer) : List Piece :=
  b.coalesceLanes (b.active laneCount)

/-- The accesses of the pieces, with the addresses that the translations will give. -/
def accessesOf (pieces : List Piece) (inst buf : ℕ) (paddr : ℕ → ℕ) (b : WarpInstBuffer) :
    List Access :=
  pieces.mapIdx fun idx piece =>
    { inst := inst
      idx := idx
      buf := buf
      warp := b.warpId
      activeLanes := piece.lanes
      isWrite := b.type == .store || b.type == .atomic
      vaddr := piece.addr
      paddr := paddr idx
      size := piece.size }

/-- `generateCoalescedAccesses`. -/
def accesses (laneCount inst buf : ℕ) (paddr : ℕ → ℕ) (b : WarpInstBuffer) : List Access :=
  b.accessesOf (b.coalesce laneCount) inst buf paddr

/-! ## Completion -/

/-- The response of one lane: a load gets its bytes, and the packet of a store is
deleted. -/
def finishLane (a : Access) (data : List Byte) (b : WarpInstBuffer) (lane : ℕ) :
    WarpInstBuffer :=
  match b.type with
  | .load =>
    b.setLane lane ((b.laneRequestPkts lane).map fun pkt =>
      { pkt with data := (data.drop (pkt.vaddr - a.vaddr)).take pkt.size })
  | .store => b.setLane lane none
  | _ => b

/-- `finishAccess`, and whether the instruction is complete. -/
def finishAccess (a : Access) (data : List Byte) (b : WarpInstBuffer) : WarpInstBuffer × Bool :=
  let b := a.activeLanes.foldl (finishLane a data) b
  let b := { b with translatedAccesses := b.translatedAccesses.erase a }
  (b, b.coalescedAccesses.isEmpty && b.translatedAccesses.isEmpty)

end WarpInstBuffer

end Gem5Gpu.GPU.LSQ
