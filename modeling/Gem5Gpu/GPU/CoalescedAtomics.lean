import Gem5Gpu.GPU.Coalescing

/-!
# Coalesced atomics

The lanes of an atomic are dealt out over packets, up to three of every 32-byte
subblock in each.  The memory performs the operations of a packet in order, until the
entry that has `lastAccess` set.  That is not the order of the lanes; but the lanes
with one address keep theirs, and so the packets leave the memory as the lanes would
one by one, and give every lane the same old value (`atomics_in_lane_order`).

All accesses are aligned words, so the memory is one of words, by their addresses.
Floating-point addition is left out.
-/

namespace Gem5Gpu.GPU.LSQ

open Lib Function

abbrev Word := BitVec 32

inductive Operation
  | ATOMIC_CAS_OP
  | ATOMIC_ADD_OP
  | ATOMIC_INC_OP
  | ATOMIC_MAX_OP
  | ATOMIC_MIN_OP

inductive DataType
  | S32_TYPE
  | U32_TYPE
  | B32_TYPE

/-- `data` and `swap` are the first words of the two halves of the operand. -/
structure AtomicOpRequest where
  uniqueId : ℕ
  dataType : DataType
  atomicOp : Operation
  lineOffset : ℕ := 0
  lastAccess : Bool := true
  data : Word
  swap : Word := 0

namespace AtomicOpRequest

/-- The new value of the memory.  There is none for a type that the operation does not
have: the code panics. -/
def newMemData (r : AtomicOpRequest) (mem : Word) : Option Word :=
  match r.atomicOp, r.dataType with
  | .ATOMIC_CAS_OP, .B32_TYPE | .ATOMIC_CAS_OP, .U32_TYPE =>
    some (if mem = r.data then r.swap else mem)
  | .ATOMIC_ADD_OP, .S32_TYPE | .ATOMIC_ADD_OP, .U32_TYPE => some (r.data + mem)
  | .ATOMIC_INC_OP, .U32_TYPE => some (if mem ≥ r.data then 0 else mem + 1)
  | .ATOMIC_MAX_OP, .U32_TYPE => some (if mem > r.data then mem else r.data)
  | .ATOMIC_MAX_OP, .S32_TYPE => some (if r.data.slt mem then mem else r.data)
  | .ATOMIC_MIN_OP, .S32_TYPE => some (if mem.slt r.data then mem else r.data)
  | .ATOMIC_MIN_OP, .U32_TYPE => some (if mem < r.data then mem else r.data)
  | _, _ => none

/-- The operation has the type. -/
def Supported (r : AtomicOpRequest) : Prop := ∀ mem, (r.newMemData mem).isSome = true

/-- The last of the entries of a packet gets `lastAccess`. -/
def markLast : List AtomicOpRequest → List AtomicOpRequest
  | [] => []
  | [r] => [{ r with lastAccess := true }]
  | r :: r' :: rest => r :: markLast (r' :: rest)

end AtomicOpRequest

/-- The memory, and the old values that the lanes got. -/
structure AtomicState where
  mem : ℕ → Word
  returned : ℕ → Option Word

/-- `doAtomicOperation` on the word at an address. -/
def doAtomicOperation (addr : ℕ) (r : AtomicOpRequest) (s : AtomicState) : Option AtomicState := do
  let word ← r.newMemData (s.mem addr)
  return ⟨update s.mem addr word, update s.returned r.uniqueId (some (s.mem addr))⟩

/-- There is an entry with `lastAccess`, or the loop runs off the packet. -/
def atomicMemoryAccess (addr : ℕ) : List AtomicOpRequest → AtomicState → Option AtomicState
  | [], _ => none
  | r :: rest, s => do
    let s ← doAtomicOperation (addr + r.lineOffset) r s
    if r.lastAccess then return s else atomicMemoryAccess addr rest s

namespace WarpInstBuffer

variable {b : WarpInstBuffer} {reqs : ℕ → AtomicOpRequest} {lane : ℕ}

/-- The entries of the packet of a piece. -/
def atomicEntries (b : WarpInstBuffer) (reqs : ℕ → AtomicOpRequest) (p : Piece) :
    List AtomicOpRequest :=
  AtomicOpRequest.markLast (p.lanes.map fun lane =>
    { reqs lane with lineOffset := b.getLaneAddr lane - p.addr, lastAccess := false })

/-- The packet of a piece at the memory. -/
def performAtomics (b : WarpInstBuffer) (reqs : ℕ → AtomicOpRequest) (s : AtomicState)
    (p : Piece) : Option AtomicState :=
  atomicMemoryAccess p.addr (b.atomicEntries reqs p) s

/-- The operation of one lane. -/
def performLane (b : WarpInstBuffer) (reqs : ℕ → AtomicOpRequest) (s : AtomicState) (lane : ℕ) :
    Option AtomicState :=
  doAtomicOperation (b.getLaneAddr lane) (reqs lane) s

/-! ## Packets -/

theorem foldl_max_le {l : List ℕ} {c m : ℕ} (h : ∀ x ∈ l, x ≤ c) (hm : m ≤ c) :
    l.foldl max m ≤ c := by
  induction l generalizing m with
  | nil => exact hm
  | cons x l ih =>
    exact ih (fun y hy => h y (List.mem_cons_of_mem _ hy)) (max_le hm (h x List.mem_cons_self))

/-- A packet has lanes, from the start of its block on, and three of a subblock at
most. -/
theorem atomic_piece (htype : b.type = .atomic) {warpParts : ℕ} {p : Piece}
    (hp : p ∈ b.coalesceParts warpParts) : p.lanes ≠ [] ∧
      (∀ lane ∈ p.lanes, p.addr ≤ b.getLaneAddr lane) ∧
      ∀ k, (p.lanes.filter (b.getLaneAddr · / 32 == k)).length ≤ 3 := by
  obtain ⟨s, -, hp⟩ := List.mem_flatMap.1 hp
  obtain ⟨addr, size, lanes, hal, hdvd, hin, hp⟩ := exists_block hp
  rw [cut, htype] at hp
  obtain ⟨n, hn, rfl⟩ := List.mem_map.1 hp
  have hmem {j x : ℕ} (hx : x ∈ ((lanes.filter fun lane =>
      (b.getLaneAddr lane - addr) / 32 == j).drop (3 * n)).take 3) :
      addr ≤ b.getLaneAddr x ∧ b.getLaneAddr x / 32 = addr / 32 + j := by
    have hfilter := List.mem_filter.1 (List.mem_of_mem_drop (List.mem_of_mem_take hx))
    have hj := beq_iff_eq.1 hfilter.2
    have hle := (hin x hfilter.1).1
    rcases hal with rfl | rfl | rfl <;> omega
  refine ⟨fun hnil => ?_, fun lane hlane => ?_, fun k => ?_⟩
  · have hshort := foldl_max_le (c := 3 * n) (l := (List.range (size / 32)).map fun k =>
      (lanes.filter fun lane => (b.getLaneAddr lane - addr) / 32 == k).length) (m := 0) ?_
      (by omega)
    · have hlt := List.mem_range.1 hn
      dsimp only at hlt
      omega
    · intro x hx
      obtain ⟨k, hk, rfl⟩ := List.mem_map.1 hx
      have hempty := List.flatMap_eq_nil_iff.1 hnil k hk
      rw [List.take_eq_nil_iff] at hempty
      exact List.drop_eq_nil_iff.1 (hempty.resolve_left (by decide))
  · obtain ⟨j, -, hx⟩ := List.mem_flatMap.1 hlane
    exact (hmem hx).1
  · by_cases hk : k - addr / 32 ∈ List.range (size / 32)
    · rw [filter_flatMap_single List.nodup_range hk]
      · exact (List.length_filter_le _ _).trans (List.length_take_le _ _)
      · intro j _ hne x hx
        have := (hmem hx).2
        exact beq_eq_false_iff_ne.2 (by omega)
    · rw [List.filter_eq_nil_iff.2]
      · exact Nat.zero_le _
      · intro x hx heq
        obtain ⟨j, hj, hx⟩ := List.mem_flatMap.1 hx
        have hxk := (hmem hx).2
        rw [beq_iff_eq.1 heq] at hxk
        exact hk (by rwa [hxk, Nat.add_sub_cancel_left])

/-! ## Execution -/

/-- The effect of a lane whose operation is supported. -/
def afterLane (b : WarpInstBuffer) (reqs : ℕ → AtomicOpRequest) (s : AtomicState) (lane : ℕ) :
    AtomicState :=
  let old := s.mem (b.getLaneAddr lane)
  ⟨update s.mem (b.getLaneAddr lane) (((reqs lane).newMemData old).getD old),
    update s.returned lane (some old)⟩

theorem performLane_eq (h : (reqs lane).Supported) (hid : (reqs lane).uniqueId = lane)
    (s : AtomicState) : b.performLane reqs s lane = some (b.afterLane reqs s lane) := by
  obtain ⟨w, hw⟩ := Option.isSome_iff_exists.1 (h (s.mem (b.getLaneAddr lane)))
  simp [performLane, doAtomicOperation, afterLane, hw, hid]

/-- The entries of a packet are performed in order, all of them. -/
theorem performAtomics_eq {p : Piece} (hne : p.lanes ≠ [])
    (haddr : ∀ lane ∈ p.lanes, p.addr ≤ b.getLaneAddr lane)
    (hreqs : ∀ lane ∈ p.lanes, (reqs lane).Supported ∧ (reqs lane).uniqueId = lane)
    (s : AtomicState) :
    b.performAtomics reqs s p = some (p.lanes.foldl (b.afterLane reqs) s) := by
  have hentry {lane : ℕ} (hlane : lane ∈ p.lanes) (last : Bool) (s : AtomicState) :
      doAtomicOperation (p.addr + (b.getLaneAddr lane - p.addr)) { reqs lane with
        lineOffset := b.getLaneAddr lane - p.addr, lastAccess := last } s =
      some (b.afterLane reqs s lane) := by
    rw [Nat.add_sub_cancel' (haddr lane hlane)]
    exact performLane_eq (hreqs lane hlane).1 (hreqs lane hlane).2 s
  have hlanes : ∀ l : List ℕ, l ≠ [] → (∀ lane ∈ l, lane ∈ p.lanes) → ∀ s,
      atomicMemoryAccess p.addr (AtomicOpRequest.markLast (l.map fun lane => { reqs lane with
        lineOffset := b.getLaneAddr lane - p.addr, lastAccess := false })) s =
      some (l.foldl (b.afterLane reqs) s) := by
    intro l
    induction l with
    | nil => exact absurd rfl
    | cons lane rest ih =>
      intro _ hl s
      have hlane := hl lane List.mem_cons_self
      cases rest with
      | nil =>
        simp only [List.map_cons, List.map_nil, AtomicOpRequest.markLast, atomicMemoryAccess,
          hentry hlane true s]
        rfl
      | cons next rest =>
        have hrest := ih (by simp) (fun x hx => hl x (List.mem_cons_of_mem _ hx))
          (b.afterLane reqs s lane)
        simp only [List.map_cons, AtomicOpRequest.markLast, atomicMemoryAccess,
          hentry hlane false s] at hrest ⊢
        exact hrest
  exact hlanes p.lanes hne (fun _ h => h) s

/-- The words and what was read from them, place by place. -/
def ofPlaces (b : WarpInstBuffer) (P : ℕ → Word × (ℕ → Option Word)) : AtomicState :=
  ⟨fun k => (P k).1, fun lane => (P (b.getLaneAddr lane)).2 lane⟩

/-- Two orders in which the lanes with one address stand alike have one effect. -/
theorem foldl_afterLane_eq {l l' : List ℕ}
    (h : ∀ k, l.filter (b.getLaneAddr · == k) = l'.filter (b.getLaneAddr · == k))
    (s : AtomicState) : l.foldl (b.afterLane reqs) s = l'.foldl (b.afterLane reqs) s := by
  let g (lane _k : ℕ) (v : Word × (ℕ → Option Word)) : Word × (ℕ → Option Word) :=
    (((reqs lane).newMemData v.1).getD v.1, update v.2 lane (some v.1))
  let f (P : ℕ → Word × (ℕ → Option Word)) (lane : ℕ) :=
    update P (b.getLaneAddr lane) (g lane (b.getLaneAddr lane) (P (b.getLaneAddr lane)))
  have hlocal : Local (fun lane k => b.getLaneAddr lane == k) g f := ⟨fun P lane k => by
    by_cases hk : b.getLaneAddr lane = k
    · subst hk
      simp [f]
    · simp [f, hk, update_of_ne (Ne.symm hk)]⟩
  have hstep (P : ℕ → Word × (ℕ → Option Word)) (lane : ℕ) :
      b.afterLane reqs (b.ofPlaces P) lane = b.ofPlaces (f P lane) := by
    refine congrArg₂ AtomicState.mk (funext fun k => ?_) (funext fun l => ?_)
    · by_cases hk : k = b.getLaneAddr lane
      · subst hk
        simp [ofPlaces, f, g]
      · simp [ofPlaces, f, hk]
    · by_cases hl : l = lane
      · subst hl
        simp [ofPlaces, f, g]
      · by_cases hk : b.getLaneAddr l = b.getLaneAddr lane
        · simp [ofPlaces, f, g, hl, hk]
        · simp [ofPlaces, f, hl, hk]
  have hs : s = b.ofPlaces fun k => (s.mem k, s.returned) := rfl
  rw [hs, List.foldl_hom b.ofPlaces hstep, List.foldl_hom b.ofPlaces hstep, hlocal.foldl_eq h]

theorem markLast_lastAccess (l : List AtomicOpRequest) (hl : ∀ r ∈ l, r.lastAccess = false)
    (hne : l ≠ []) : (AtomicOpRequest.markLast l).map (·.lastAccess) =
      List.replicate (l.length - 1) false ++ [true] := by
  induction l with
  | nil => exact absurd rfl hne
  | cons r l ih =>
    cases l with
    | nil => rfl
    | cons r' l =>
      rw [AtomicOpRequest.markLast, List.map_cons, ih (fun x hx => hl x (List.mem_cons_of_mem _ hx))
        (by simp), hl r List.mem_cons_self]
      rfl

/-- The packets of an atomic instruction have every lane once, at most three of a
subblock each, and `lastAccess` on their last entry.  Performed in order, they have the
effect of the lanes in order. -/
theorem atomics_in_lane_order {warpParts : ℕ} (htype : b.type = .atomic) (hparts : warpParts ∣ 32)
    (hreqs : ∀ lane ∈ b.active 32, (reqs lane).Supported ∧ (reqs lane).uniqueId = lane) :
    (lanesOf (b.coalesceParts warpParts)).Perm (b.active 32) ∧
    (∀ p ∈ b.coalesceParts warpParts,
      (∀ k, (p.lanes.filter (b.getLaneAddr · / 32 == k)).length ≤ 3) ∧
      (b.atomicEntries reqs p).map (·.lastAccess) =
        List.replicate (p.lanes.length - 1) false ++ [true]) ∧
    ∀ s, ∃ s', (b.coalesceParts warpParts).foldlM (b.performAtomics reqs) s = some s' ∧
      (b.active 32).foldlM (b.performLane reqs) s = some s' := by
  have hperm := lanesOf_coalesceParts (b := b) hparts
  refine ⟨hperm, fun p hp => ⟨(atomic_piece htype hp).2.2, ?_⟩, fun s => ?_⟩
  · refine (markLast_lastAccess _ (by simp) ?_).trans (by rw [List.length_map])
    simpa using (atomic_piece htype hp).1
  · have hsome {α : Type} {f : AtomicState → α → Option AtomicState}
        {g : AtomicState → α → AtomicState} (l : List α)
        (h : ∀ x ∈ l, ∀ s, f s x = some (g s x)) (s : AtomicState) :
        l.foldlM f s = some (l.foldl g s) := by
      induction l generalizing s with
      | nil => rfl
      | cons x l ih =>
        rw [List.foldlM_cons, h x List.mem_cons_self]
        exact ih (fun y hy => h y (List.mem_cons_of_mem _ hy)) _
    refine ⟨_, ?_, hsome _ (fun lane h => performLane_eq (hreqs lane h).1 (hreqs lane h).2) s⟩
    rw [hsome _ (fun p hp => performAtomics_eq (atomic_piece htype hp).1 (atomic_piece htype hp).2.1
      fun lane h => hreqs lane (hperm.mem_iff.1 (List.mem_flatMap.2 ⟨p, hp, h⟩))) s,
      ← foldl_afterLane_eq (filter_coalesceParts hparts), lanesOf, List.foldl_flatMap]

/-- Four lanes count up one word. -/
def fourAtomics : WarpInstBuffer := { empty with
  type := .atomic
  requestDataSize := 4
  laneRequestPkts := fun lane => if lane < 4 then some ⟨lane, .atomic, 0, 40, 4, []⟩ else none }

def countUp (lane : ℕ) : AtomicOpRequest where
  uniqueId := lane
  dataType := .U32_TYPE
  atomicOp := .ATOMIC_ADD_OP
  data := 1

/-- The first packet has three lanes and the second one.  The lanes get the values from
seven on, and the word ends at eleven. -/
theorem fourAtomics_in_lane_order : (fourAtomics.coalesceParts 1).map (·.lanes) = [[0, 1, 2], [3]] ∧
    ∃ s', (fourAtomics.coalesceParts 1).foldlM (fourAtomics.performAtomics countUp)
        ⟨fun _ => 7, fun _ => none⟩ = some s' ∧
      s'.mem 40 = 11 ∧ (List.range 4).map s'.returned = [some 7, some 8, some 9, some 10] := by
  obtain ⟨s', hpackets, hlanes⟩ : ∃ s', (fourAtomics.coalesceParts 1).foldlM
        (fourAtomics.performAtomics countUp) ⟨fun _ => 7, fun _ => none⟩ = some s' ∧
      (fourAtomics.active 32).foldlM (fourAtomics.performLane countUp)
        ⟨fun _ => 7, fun _ => none⟩ = some s' :=
    (atomics_in_lane_order rfl (by decide) fun _ _ => ⟨fun _ => rfl, rfl⟩).2.2 _
  have hvalues : ((fourAtomics.active 32).foldlM (fourAtomics.performLane countUp)
      ⟨fun _ => 7, fun _ => none⟩).map (fun s => (s.mem 40, (List.range 4).map s.returned)) =
        some (11, [some 7, some 8, some 9, some 10]) := by decide +kernel
  rw [hlanes, Option.map_some, Option.some_inj, Prod.mk.injEq] at hvalues
  exact ⟨by decide, s', hpackets, hvalues⟩

end WarpInstBuffer

end Gem5Gpu.GPU.LSQ
