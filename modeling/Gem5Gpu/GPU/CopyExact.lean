import Gem5Gpu.GPU.CopyEngine
import Gem5Gpu.Lib.Tiling

/-!
# The copy engine copies exactly

The reads that are under way or answered tile the part of the source that was
asked for, and the writes that wait or were accepted tile the part of the
destination that was sent (`Work.reads`, `Work.writes`).  Translations, refusals
and retries move requests between the places and change neither bag
(`Moved`).  An answered read fills cells of `curData` that no other read fills,
so the data below `readDone` is final, and that is what `tryWrite` sends.

When the last write is answered both tilings are complete, which gives
`copies_exactly`.  The same invariant shows that a running engine never waits for
nothing: with no request out, `tick` finds either a read to send or a write whose
data is there, because a full buffer holds at least one line.
-/

namespace Gem5Gpu.GPU.CopyEngine

open Lib Function

variable {c : Config} {s : State} {r : Request} {out wrote : Multiset Request}

variable {s s' : State}

/-! ## Addresses and sizes -/

/-- A request stays inside one cache line. -/
def Request.InLine (c : Config) (r : Request) : Prop :=
  r.vaddr % c.cacheLineSize + r.size ≤ c.cacheLineSize

theorem add_distance (base : ℕ) {addr : ℕ} (haddr : addr < 2 ^ 64) :
    (base + distance base addr) % 2 ^ 64 = addr := by
  unfold distance
  omega

/-! ## Where the requests are -/

/-- Requests that the memory has not accepted. -/
def State.pending (s : State) : Multiset Request :=
  s.translating + s.outstandingPkts .host + s.outstandingPkts .device

/-- Requests that are not answered. -/
def State.outstanding (s : State) : Multiset Request := s.pending + s.memory

def readsOf (t : Multiset Request) : Multiset Request := t.filter (·.mode = .Read)

def writesOf (t : Multiset Request) : Multiset Request := t.filter (·.mode = .Write)

section Kinds

variable {r : Request} {t : Multiset Request}

theorem readsOf_cons_read (h : r.mode = .Read) : readsOf (r ::ₘ t) = r ::ₘ readsOf t :=
  Multiset.filter_cons_of_pos (p := fun r : Request => r.mode = .Read) t h

theorem readsOf_cons_write (h : r.mode = .Write) : readsOf (r ::ₘ t) = readsOf t :=
  Multiset.filter_cons_of_neg (p := fun r : Request => r.mode = .Read) t (by simp [h])

theorem writesOf_cons_read (h : r.mode = .Read) : writesOf (r ::ₘ t) = writesOf t :=
  Multiset.filter_cons_of_neg (p := fun r : Request => r.mode = .Write) t (by simp [h])

theorem writesOf_cons_write (h : r.mode = .Write) : writesOf (r ::ₘ t) = r ::ₘ writesOf t :=
  Multiset.filter_cons_of_pos (p := fun r : Request => r.mode = .Write) t h

end Kinds

/-- The writes of the operation so far. -/
def State.writesIssued (s : State) : Multiset Request := writesOf s.pending + s.written

theorem outstanding_eq_zero : s.outstanding = 0 ↔
      s.translating = 0 ∧ (∀ p, s.outstandingPkts p = []) ∧ s.memory = 0 := by
  constructor
  · intro h
    have hcard := congrArg Multiset.card h
    simp only [State.outstanding, State.pending, Multiset.card_add, Multiset.coe_card,
      Multiset.card_zero] at hcard
    refine ⟨Multiset.card_eq_zero.1 (by omega), fun p => ?_, Multiset.card_eq_zero.1 (by omega)⟩
    cases p with
    | host | device => exact List.length_eq_zero_iff.1 (by omega)
  · rintro ⟨htranslating, hports, hmemory⟩
    simp [State.outstanding, State.pending, htranslating, hports, hmemory]

/-- A port is stalled exactly while its peer owes it a retry. -/
def State.Owing (s : State) : Prop := ∀ p, s.owesRetry p = s.isStalled p

/-- The request `r` is new, and nothing but the place of requests and the retries that
are owed changed. -/
structure Issued (r : Request) (s s' : State) : Prop where
  outstanding : s'.outstanding = r ::ₘ s.outstanding
  writesIssued : s'.writesIssued = writesOf {r} + s.writesIssued
  owing : s.Owing → s'.Owing
  rest : ∃ o t m w d, s' =
    { s with outstandingPkts := o, translating := t, memory := m, written := w, owesRetry := d }

/-- Requests changed their place, and a tick may have been scheduled. -/
structure Moved (s s' : State) : Prop where
  outstanding : s'.outstanding = s.outstanding
  writesIssued : s'.writesIssued = s.writesIssued
  tick : s.tickScheduled = true → s'.tickScheduled = true
  rest : ∃ o t m w d k, s' =
    { s with outstandingPkts := o, translating := t, memory := m, written := w,
             owesRetry := d, tickScheduled := k }

theorem Moved.refl (s : State) : Moved s s := ⟨rfl, rfl, id, _, _, _, _, _, _, rfl⟩

theorem Moved.trans {s s' s'' : State} (h : Moved s s') (h' : Moved s' s'') : Moved s s'' := by
  obtain ⟨o, t, m, w, d, k, hs'⟩ := h.rest
  obtain ⟨o', t', m', w', d', k', hs''⟩ := h'.rest
  refine ⟨h'.outstanding.trans h.outstanding, h'.writesIssued.trans h.writesIssued,
    fun ht => h'.tick (h.tick ht), o', t', m', w', d', k', ?_⟩
  rw [hs'', hs']

/-- The end of a translation moves its request on. -/
theorem Issued.moved (hr : r ∈ s.translating)
    (h : Issued r { s with translating := s.translating.erase r } s') : Moved s s' := by
  have hpending : r ::ₘ State.pending { s with translating := s.translating.erase r }
      = s.pending := by
    simp only [State.pending]
    rw [← Multiset.cons_add, ← Multiset.cons_add, Multiset.cons_erase hr]
  obtain ⟨o, t, m, w, d, hs'⟩ := h.rest
  refine ⟨?_, ?_, ?_, o, t, m, w, d, s.tickScheduled, hs'⟩
  · rw [h.outstanding, State.outstanding, ← Multiset.cons_add, hpending]
    rfl
  · rw [h.writesIssued, State.writesIssued, State.writesIssued, ← hpending, ← add_assoc,
      ← Multiset.singleton_add r, writesOf, writesOf, writesOf, Multiset.filter_add]
  · intro ht
    rw [hs']
    exact ht

def Op.dst : Op → ℕ
  | .memcpy _ dst _ _ => dst
  | .memset dst _ _ => dst

def Op.length : Op → ℕ
  | .memcpy _ _ length _ => length
  | .memset _ _ length => length

/-- The place of a request in a range that starts at `base`. -/
abbrev Request.off (base : ℕ) (r : Request) : ℕ := distance base r.vaddr

/-- The read side of a copy.  `out` are the requests that are not answered. -/
structure Copying (src length : ℕ) (out : Multiset Request) (s : State) : Prop where
  begin_eq : s.beginAddr = src
  addr : s.currentReadAddr = (src + (length - s.readLeft)) % 2 ^ 64
  reads : Tiles (Request.off src) Request.size (readsOf out + s.returned) (length - s.readLeft)
  done : ∀ i, s.readsDone i = true ↔ ∃ r ∈ s.returned, r.off src ≤ i ∧ i < r.off src + r.size
  data : ∀ r ∈ s.returned, ∀ j < r.size, s.curData (r.off src + j) = r.data.getD j 0

/-- There is no read side of a `memset`. -/
structure Setting (value : BitVec 32) (length : ℕ) (out : Multiset Request) (s : State) :
    Prop where
  left : s.readLeft = 0
  reads : readsOf out + s.returned = 0
  readDone : s.readDone = length
  done : ∀ i, s.readsDone i = true
  data : ∀ i, s.curData i = value.setWidth 8

def Reading (out : Multiset Request) (s : State) : Prop :=
  match s.op with
  | .memcpy src _ length _ => Copying src length out s
  | .memset _ value length => Setting value length out s

theorem reading_memcpy {src dst length : ℕ} {type : CopyType}
    (hop : s.op = .memcpy src dst length type) : Reading out s ↔ Copying src length out s := by
  unfold Reading
  rw [hop]

theorem reading_memset {dst length : ℕ} {value : BitVec 32}
    (hop : s.op = .memset dst value length) : Reading out s ↔ Setting value length out s := by
  unfold Reading
  rw [hop]

/-- The invariant of a running engine, with `out` the requests that are not
answered and `wrote` the writes so far. -/
structure Work (c : Config) (out wrote : Multiset Request) (s : State) : Prop where
  running : s.running = true
  readPort : s.readPort ≠ none
  writePort : s.writePort ≠ none
  total : s.totalLength = s.op.length
  pos : 0 < s.totalLength
  lt : s.totalLength < 2 ^ 31
  reading : Reading out s
  readLeft_le : s.readLeft ≤ s.totalLength
  readDone_le : s.readDone ≤ s.totalLength
  below : ∀ i < s.readDone, s.readsDone i = true
  stop : s.readDone < s.totalLength → s.readsDone s.readDone = false
  writeLeft_le : s.writeLeft ≤ s.totalLength
  sent_le : s.totalLength - s.writeLeft ≤ s.readDone
  addr : s.currentWriteAddr = (s.op.dst + (s.totalLength - s.writeLeft)) % 2 ^ 64
  writes : Tiles (Request.off s.op.dst) Request.size wrote (s.totalLength - s.writeLeft)
  data : ∀ r ∈ wrote, r.data = (List.range r.size).map fun j => s.curData (r.off s.op.dst + j)
  count : ((writesOf out).map Request.size).sum + s.writeDone = s.totalLength - s.writeLeft
  unfinished : s.writeDone < s.totalLength
  shape : ∀ r ∈ out + s.returned + wrote, 0 < r.size ∧ r.InLine c ∧ r.vaddr < 2 ^ 64
  needToRead : s.needToRead = true ↔ 0 < s.readLeft
  needToWrite : 0 < s.readDone → s.needToWrite = true

/-- The invariant does not read the places of the requests. -/
theorem Work.elsewhere
    (h : Work c out wrote s) (o : PortId → List Request) (t m w : Multiset Request)
    (d : PortId → Bool) (k : Bool) :
    Work c out wrote { s with
      outstandingPkts := o, translating := t, memory := m, written := w, owesRetry := d,
      tickScheduled := k } := by
  have hreading := h.reading
  refine { h with reading := ?_ }
  unfold Reading at hreading ⊢
  split
  · rename_i hop
    rw [hop] at hreading
    exact { hreading with }
  · rename_i hop
    rw [hop] at hreading
    exact { hreading with }

theorem Work.moved (h : Work c s.outstanding s.writesIssued s)
    (hm : Moved s s') : Work c s'.outstanding s'.writesIssued s' := by
  rw [hm.outstanding, hm.writesIssued]
  obtain ⟨o, t, m, w, d, k, rfl⟩ := hm.rest
  exact h.elsewhere o t m w d k

/-- What a part of `tick` does to a running engine. -/
structure Ticked (c : Config) (s s' : State) : Prop where
  work : Work c s'.outstanding s'.writesIssued s'
  busy : s.outstanding ≠ 0 → s'.outstanding ≠ 0
  finished : s'.finished = s.finished
  owing : s.Owing → s'.Owing

theorem Ticked.refl (h : Work c s.outstanding s.writesIssued s) :
    Ticked c s s := ⟨h, id, rfl, id⟩

theorem Ticked.trans {s s' s'' : State} (h : Ticked c s s') (h' : Ticked c s' s'') :
    Ticked c s s'' :=
  ⟨h'.work, fun hne => h'.busy (h.busy hne), h'.finished.trans h.finished,
    fun howing => h'.owing (h.owing howing)⟩

theorem contiguous_spec (done : ℕ → Bool) (n r : ℕ) :
    r ≤ contiguous done n r ∧ contiguous done n r ≤ r + n ∧
      (∀ i, r ≤ i → i < contiguous done n r → done i) ∧
      (contiguous done n r < r + n → done (contiguous done n r) = false) := by
  induction n generalizing r with
  | zero =>
    refine ⟨le_refl r, le_refl r, fun i hi hlt => ?_, fun hlt => ?_⟩
    · exact absurd (show i < r from hlt) (by omega)
    · exact absurd (show r < r from hlt) (by omega)
  | succ n ih =>
    unfold contiguous
    cases hr : done r with
    | false =>
      refine ⟨le_refl r, Nat.le_add_right r _, fun i hi hlt => ?_, fun _ => hr⟩
      exact absurd (show i < r from hlt) (by omega)
    | true =>
      obtain ⟨hle, hub, hbelow, hstop⟩ := ih (r + 1)
      simp only [if_true]
      refine ⟨by omega, by omega, fun i hi hlt => ?_, fun hlt => hstop (by omega)⟩
      rcases Nat.eq_or_lt_of_le hi with rfl | hi
      · exact hr
      · exact hbelow i hi hlt

/-- The cells of a read that is not answered are not marked. -/
theorem Copying.fresh {src length : ℕ}
    (h : Copying src length (r ::ₘ out) s) (hmode : r.mode = .Read) {i : ℕ}
    (hi : r.off src ≤ i ∧ i < r.off src + r.size) : s.readsDone i = false := by
  have htiles := h.reads
  rw [readsOf_cons_read hmode, Multiset.cons_add] at htiles
  rw [← Bool.not_eq_true, h.done]
  rintro ⟨r', hr', hi'⟩
  exact htiles.disjoint (Multiset.mem_add.2 (.inr hr')) hi hi'

/-- When every byte is marked, every read was sent and answered. -/
theorem Copying.complete {src length : ℕ} (h : Copying src length out s) (hpos : 0 < length)
    (hdone : ∀ i < length, s.readsDone i) (hsize : ∀ r ∈ out, 0 < r.size) :
    s.readLeft = 0 ∧ readsOf out = 0 := by
  have hleft : s.readLeft = 0 := by
    obtain ⟨r, hr, hcell⟩ := (h.done (length - 1)).1 (hdone _ (by omega))
    have hle := h.reads.le (Multiset.mem_add.2 (.inr hr)) (by omega)
    omega
  refine ⟨hleft, Multiset.eq_zero_of_forall_notMem fun r hr => ?_⟩
  obtain ⟨hout, hmode⟩ := Multiset.mem_filter.1 hr
  have hpos' := hsize r hout
  have hle := h.reads.le (Multiset.mem_add.2 (.inl hr)) hpos'
  obtain ⟨t, rfl⟩ := Multiset.exists_cons_of_mem hout
  have hfresh := h.fresh hmode ⟨le_refl _, by omega⟩
  rw [hdone _ (by omega)] at hfresh
  exact absurd hfresh (by decide)

/-- The read side after an answer. -/
theorem Copying.answered {src length : ℕ} {r a : Request}
    (h : Copying src length (r ::ₘ out) s) (hmode : r.mode = .Read) (haddr : a.vaddr = r.vaddr)
    (hsize : a.size = r.size) (hbegin : s'.beginAddr = s.beginAddr)
    (hcur : s'.currentReadAddr = s.currentReadAddr) (hleft : s'.readLeft = s.readLeft)
    (hreturned : s'.returned = a ::ₘ s.returned)
    (hdone : s'.readsDone = fun i =>
      decide (r.off src ≤ i ∧ i < r.off src + r.size) || s.readsDone i)
    (hdata : s'.curData = fun i =>
      if r.off src ≤ i ∧ i < r.off src + r.size then a.data.getD (i - r.off src) 0
      else s.curData i) :
    Copying src length out s' := by
  have hoff : a.off src = r.off src := by rw [Request.off, Request.off, haddr]
  have htiles := h.reads
  rw [readsOf_cons_read hmode, Multiset.cons_add] at htiles
  refine ⟨hbegin.trans h.begin_eq, ?_, ?_, ?_, ?_⟩
  · rw [hcur, hleft]
    exact h.addr
  · rw [hreturned, hleft, Multiset.add_cons]
    exact htiles.replace hoff hsize
  · intro i
    rw [hdone, hreturned]
    simp only [Bool.or_eq_true, decide_eq_true_eq, h.done, Multiset.mem_cons,
      exists_eq_or_imp, hoff, hsize]
  · intro r' hr' j hj
    rw [hreturned, Multiset.mem_cons] at hr'
    rw [hdata]
    show (if _ then _ else _) = _
    rcases hr' with rfl | hr'
    · rw [hoff, if_pos ⟨Nat.le_add_right _ _, by omega⟩, Nat.add_sub_cancel_left]
    · have hcell : r'.off src ≤ r'.off src + j ∧ r'.off src + j < r'.off src + r'.size := by omega
      rw [if_neg fun hcell' => htiles.disjoint (Multiset.mem_add.2 (.inr hr')) hcell' hcell]
      exact h.data r' hr' j hj

theorem recvPacket_read {a : Request} (hmode : a.mode = .Read) (hlt : s.readDone < s.totalLength) :
    ∃ n done data, recvPacket a s = { s with
        curData := data, readsDone := done, needToWrite := true, tickScheduled := true,
        readDone := n, needToRead := if s.totalLength ≤ n then false else s.needToRead } ∧
      n = contiguous done (s.totalLength - s.readDone) s.readDone ∧
      (done = fun i => decide (a.off s.beginAddr ≤ i ∧ i < a.off s.beginAddr + a.size)
        || s.readsDone i) ∧
      (data = fun i => if a.off s.beginAddr ≤ i ∧ i < a.off s.beginAddr + a.size then
        a.data.getD (i - a.off s.beginAddr) 0 else s.curData i) := by
  refine ⟨_, _, _, ?_, rfl, rfl, rfl⟩
  unfold recvPacket
  rw [hmode]
  simp only [hlt, if_true, scheduleTick]
  split <;> rfl

/-- An answered read. -/
theorem Work.readAnswered {r a : Request} (h : Work c (r ::ₘ out) wrote s) (hmode : r.mode = .Read)
    (hamode : a.mode = .Read) (haddr : a.vaddr = r.vaddr) (hsize : a.size = r.size)
    {m : Multiset Request}
    (hs' : s' = recvPacket a { s with memory := m, returned := a ::ₘ s.returned }) :
    Work c out wrote s' ∧ s'.tickScheduled = true ∧ s'.finished = s.finished := by
  have hreading := h.reading
  have hlen := h.total
  unfold Reading at hreading
  split at hreading
  case h_2 =>
    have hreads := hreading.reads
    rw [readsOf_cons_read hmode, Multiset.cons_add] at hreads
    exact absurd hreads Multiset.cons_ne_zero
  rename_i src dst length type hop
  rw [hop] at hlen
  replace hlen : s.totalLength = length := hlen
  obtain ⟨hpos, hline, hbound⟩ := h.shape r (by simp)
  have hfresh : ∀ i, r.off src ≤ i ∧ i < r.off src + r.size → s.readsDone i = false :=
    fun i hi => hreading.fresh hmode hi
  have hoff : a.off s.beginAddr = r.off src := by
    rw [Request.off, Request.off, haddr, hreading.begin_eq]
  -- the cells of this read are inside the range and not marked, so the prefix ends before
  have hlt : s.readDone < s.totalLength := by
    have htiles := hreading.reads
    rw [readsOf_cons_read hmode, Multiset.cons_add] at htiles
    have hle := htiles.le (Multiset.mem_cons_self _ _) hpos
    by_contra hge
    have hdone := h.below (r.off src) (by omega)
    rw [hfresh _ ⟨le_refl _, by omega⟩] at hdone
    exact absurd hdone (by decide)
  obtain ⟨n, done, data, heq, hn, hdone, hdata⟩ := recvPacket_read
    (s := { s with memory := m, returned := a ::ₘ s.returned }) hamode hlt
  rw [heq] at hs'
  rw [show State.beginAddr { s with memory := m, returned := a ::ₘ s.returned } = s.beginAddr
    from rfl, hoff, hsize] at hdone hdata
  have hcopy : Copying src length out s' := by
    refine hreading.answered hmode haddr hsize ?_ ?_ ?_ ?_ ?_ ?_ <;> rw [hs']
    · exact hdone
    · exact hdata
  have hkeep : ∀ i, s.readsDone i = true → data i = s.curData i := by
    intro i hi
    rw [hdata]
    refine if_neg fun hcell => ?_
    rw [hfresh i hcell] at hi
    exact absurd hi (by decide)
  have hgrow : ∀ i, s.readsDone i = true → done i = true := by
    intro i hi
    rw [hdone]
    simp [hi]
  obtain ⟨hn_ge, hn_le, hn_below, hn_stop⟩ :=
    contiguous_spec done (s.totalLength - s.readDone) s.readDone
  rw [← show n = _ from hn] at hn_ge hn_le hn_below hn_stop
  have hbelow : ∀ i < n, done i = true := by
    intro i hi
    by_cases hold : i < s.readDone
    · exact hgrow i (h.below i hold)
    · exact hn_below i (by omega) hi
  have hshape : ∀ r' ∈ out + s'.returned + wrote,
      0 < r'.size ∧ r'.InLine c ∧ r'.vaddr < 2 ^ 64 := by
    intro r' hr'
    have hcases : r' = a ∨ r' ∈ r ::ₘ out + s.returned + wrote := by
      rw [hs'] at hr'
      simp only [Multiset.mem_add, Multiset.mem_cons] at hr' ⊢
      tauto
    rcases hcases with rfl | hr'
    · rw [Request.InLine, hsize, haddr]
      exact ⟨hpos, hline, hbound⟩
    · exact h.shape r' hr'
  have hsent := h.sent_le
  subst hs'
  refine ⟨{ h with
    reading := ?_
    readDone_le := ?_
    below := hbelow
    stop := fun hstop => hn_stop ?_
    sent_le := hsent.trans hn_ge
    data := ?_
    count := ?_
    shape := hshape
    needToRead := ?_
    needToWrite := fun _ => rfl }, rfl, rfl⟩
  · exact (reading_memcpy (by exact hop)).2 hcopy
  · show n ≤ s.totalLength
    omega
  · show n < s.readDone + (s.totalLength - s.readDone)
    replace hstop : n < s.totalLength := hstop
    omega
  · intro w hw
    show w.data = (List.range w.size).map fun j => data (w.off s.op.dst + j)
    rw [h.data w hw]
    refine List.map_congr_left fun j hj => (hkeep _ (h.below _ ?_)).symm
    have hle := h.writes.le hw (h.shape w (by simp [hw])).1
    have := List.mem_range.1 hj
    omega
  · have hcount := h.count
    rw [writesOf_cons_read hmode] at hcount
    exact hcount
  · show (if s.totalLength ≤ n then false else s.needToRead) = true ↔ 0 < s.readLeft
    by_cases hall : s.totalLength ≤ n
    · rw [if_pos hall]
      have hleft := (hcopy.complete (hlen ▸ h.pos) (fun i hi => hbelow i (by omega))
        fun r' hr' => (hshape r' (by simp [hr'])).1).1
      replace hleft : s.readLeft = 0 := hleft
      simp [hleft]
    · rw [if_neg hall]
      exact h.needToRead

/-- An answered write that is not the last one. -/
theorem Work.writeAnswered (h : Work c (r ::ₘ out) wrote s) (hmode : r.mode = .Write)
    (hmore : s.writeDone + r.size < s.totalLength) :
    Work c out wrote { s with writeDone := s.writeDone + r.size } := by
  have hcount := h.count
  rw [writesOf_cons_write hmode, Multiset.map_cons, Multiset.sum_cons] at hcount
  refine { h with
    reading := ?_
    count := ?_
    unfinished := hmore
    shape := fun r' hr' => h.shape r' ?_ }
  · have hreading := h.reading
    unfold Reading at hreading
    split at hreading
    · rename_i hop
      refine (reading_memcpy (by exact hop)).2 { hreading with reads := ?_ }
      have hreads := hreading.reads
      rwa [readsOf_cons_write hmode] at hreads
    · rename_i hop
      refine (reading_memset (by exact hop)).2 { hreading with reads := ?_ }
      have hreads := hreading.reads
      rwa [readsOf_cons_write hmode] at hreads
  · show _ + (s.writeDone + r.size) = s.totalLength - s.writeLeft
    omega
  · rw [Multiset.cons_add, Multiset.cons_add]
    exact Multiset.mem_cons_of_mem hr'

/-- The last write: nothing else is under way, and the two tilings are complete. -/
theorem Work.last (h : Work c (r ::ₘ out) wrote s) (hmode : r.mode = .Write)
    (hlast : s.totalLength ≤ s.writeDone + r.size) :
    out = 0 ∧ s.writeLeft = 0 ∧ s.readLeft = 0 := by
  have hcount := h.count
  have hsent := h.sent_le
  have hread := h.readDone_le
  have hleft := h.writeLeft_le
  have hlen := h.total
  have hpos := h.pos
  rw [writesOf_cons_write hmode, Multiset.map_cons, Multiset.sum_cons] at hcount
  have hsize : ∀ r' ∈ out, 0 < r'.size := fun r' hr' => (h.shape r' (by simp [hr'])).1
  have hzero : s.writeLeft = 0 := by omega
  have hwrites : ∀ r' ∈ out, r'.mode ≠ .Write := by
    intro r' hr' hmode'
    obtain ⟨t, rfl⟩ := Multiset.exists_cons_of_mem hr'
    rw [writesOf_cons_write hmode', Multiset.map_cons, Multiset.sum_cons] at hcount
    have := hsize r' hr'
    omega
  obtain ⟨hreads, hrl⟩ : readsOf out = 0 ∧ s.readLeft = 0 := by
    have hreading := h.reading
    unfold Reading at hreading
    split at hreading
    · rename_i src dst length type hop
      rw [hop] at hlen
      replace hlen : s.totalLength = length := hlen
      have hcomplete := hreading.complete (by omega) (fun i hi => h.below i (by omega))
        fun r' hr' => (h.shape r' (by simp at hr' ⊢; tauto)).1
      rw [readsOf_cons_write hmode] at hcomplete
      exact ⟨hcomplete.2, hcomplete.1⟩
    · have hnone := hreading.reads
      rw [readsOf_cons_write hmode] at hnone
      exact ⟨(Multiset.le_zero.1 (hnone ▸ Multiset.le_add_right _ _)), hreading.left⟩
  refine ⟨Multiset.eq_zero_of_forall_notMem fun r' hr' => ?_, hzero, hrl⟩
  cases hmode' : r'.mode with
  | Read =>
    have hmem : r' ∈ readsOf out := Multiset.mem_filter.2 ⟨hr', hmode'⟩
    rw [hreads] at hmem
    exact absurd hmem (Multiset.notMem_zero _)
  | Write => exact hwrites r' hr' hmode'

/-! ## Exact copies -/

/-- The bytes of a packet with their addresses. -/
def Request.bytes (r : Request) : Multiset (ℕ × Byte) :=
  (Multiset.range r.size).map fun j => ((r.vaddr + j) % 2 ^ 64, r.data.getD j 0)

/-- The bytes `d 0, d 1, …` at the addresses from `base` on, each once. -/
def image (base length : ℕ) (d : ℕ → Byte) : Multiset (ℕ × Byte) :=
  (Multiset.range length).map fun i => ((base + i) % 2 ^ 64, d i)

/-- What the memory saw is the operation: the bytes that were written are those
of the destination, each once, with the bytes that the reads of the source
returned, or with the low byte of the value. -/
def Record.Exact (c : Config) (rec : Record) : Prop :=
  rec.unanswered = 0 ∧ (∀ r ∈ rec.returned + rec.written, r.InLine c) ∧
  match rec.op with
  | .memcpy src dst length _ => ∃ d : ℕ → Byte,
      rec.returned.bind Request.bytes = image src length d ∧
      rec.written.bind Request.bytes = image dst length d
  | .memset dst value length =>
      rec.returned = 0 ∧
      rec.written.bind Request.bytes = image dst length fun _ => value.setWidth 8

/-- Packets that tile a range and carry the data `d` are its image. -/
theorem bind_bytes {base length : ℕ} {d : ℕ → Byte} {t : Multiset Request}
    (htiles : Tiles (Request.off base) Request.size t length) (hbound : ∀ r ∈ t, r.vaddr < 2 ^ 64)
    (hdata : ∀ r ∈ t, ∀ j < r.size, d (r.off base + j) = r.data.getD j 0) :
    t.bind Request.bytes = image base length d := by
  rw [image, ← htiles.bind_map fun i => ((base + i) % 2 ^ 64, d i)]
  refine Multiset.bind_congr fun r hr => Multiset.map_congr rfl fun j hj => ?_
  have haddr := add_distance base (hbound r hr)
  rw [hdata r hr j (Multiset.mem_range.1 hj)]
  congr 1
  show _ = (base + (distance base r.vaddr + j)) % 2 ^ 64
  omega

/-- The record that the last write leaves. -/
theorem Work.exact
    (h : Work c (r ::ₘ 0) wrote s) (hmode : r.mode = .Write) (hwrite : s.writeLeft = 0)
    (hread : s.readLeft = 0) : Record.Exact c ⟨s.op, s.returned, wrote, 0⟩ := by
  have hshape : ∀ r' ∈ s.returned + wrote, 0 < r'.size ∧ r'.InLine c ∧ r'.vaddr < 2 ^ 64 := by
    intro r' hr'
    refine h.shape r' ?_
    rw [Multiset.add_assoc]
    exact Multiset.mem_add.2 (.inr hr')
  refine ⟨rfl, fun r' hr' => (hshape r' hr').2.1, ?_⟩
  have hreading := h.reading
  have hlen := h.total
  have hwrites := h.writes
  have hdata : ∀ r' ∈ wrote, ∀ j < r'.size, s.curData (r'.off s.op.dst + j) = r'.data.getD j 0 := by
    intro r' hr' j hj
    rw [h.data r' hr']
    simp [List.getD_eq_getElem?_getD, hj]
  have hbound : ∀ r' ∈ wrote, r'.vaddr < 2 ^ 64 := fun r' hr' =>
    (hshape r' (by simp [hr'])).2.2
  rw [hwrite, Nat.sub_zero] at hwrites
  unfold Reading at hreading
  split at hreading
  · rename_i src dst length type hop
    rw [hop] at hlen hwrites hdata
    replace hlen : s.totalLength = length := hlen
    have hreads := hreading.reads
    rw [readsOf_cons_write hmode, show readsOf 0 = 0 from rfl, Multiset.zero_add, hread,
      Nat.sub_zero] at hreads
    rw [hlen] at hwrites
    refine hop ▸ ⟨s.curData, ?_, ?_⟩
    · exact bind_bytes hreads (fun r' hr' => (hshape r' (by simp [hr'])).2.2) hreading.data
    · exact bind_bytes hwrites hbound hdata
  · rename_i dst value length hop
    rw [hop] at hlen hwrites hdata
    replace hlen : s.totalLength = length := hlen
    have hreads := hreading.reads
    rw [readsOf_cons_write hmode, show readsOf 0 = 0 from rfl, Multiset.zero_add] at hreads
    rw [hlen] at hwrites
    refine hop ▸ ⟨hreads, bind_bytes hwrites hbound fun r' hr' j hj => ?_⟩
    rw [← hdata r' hr' j hj, hreading.data]

/-! ## Runs -/

/-- The invariant of the engine. -/
structure Inv (c : Config) (s : State) : Prop where
  idle : s.running = false → s.outstanding = 0 ∧ s.readPort = none
  work : s.running = true → Work c s.outstanding s.writesIssued s
  awake : s.running = true → s.tickScheduled = true ∨ s.outstanding ≠ 0
  exact : ∀ rec ∈ s.finished, rec.Exact c
  owing : s.Owing

theorem Inv.initial (c : Config) : Inv c .initial where
  idle := fun _ => ⟨rfl, rfl⟩
  work := fun h => absurd h (by decide)
  awake := fun h => absurd h (by decide)
  exact := fun _ h => absurd h (List.not_mem_nil)
  owing := fun _ => rfl

theorem Inv.idle_writes (h : Inv c s) (hidle : s.running = false) :
    s.pending = 0 ∧ s.memory = 0 := by
  obtain ⟨htranslating, hports, hmemory⟩ := outstanding_eq_zero.1 (h.idle hidle).1
  refine ⟨?_, hmemory⟩
  simp [State.pending, htranslating, hports]

/-- An idle engine starts an operation. -/
theorem Inv.start (h : Inv c s) (hidle : s.running = false) (hpending : s'.pending = s.pending)
    (hmemory : s'.memory = s.memory) (hwritten : s'.written = 0) (hrun : s'.running)
    (htick : s'.tickScheduled) (hfinished : s'.finished = s.finished) (howing : s'.Owing)
    (hwork : Work c 0 0 s') : Inv c s' := by
  obtain ⟨hnone, hnone'⟩ := h.idle_writes hidle
  have hout : s'.outstanding = 0 := by
    rw [State.outstanding, hpending, hmemory, hnone, hnone', Multiset.zero_add]
  have hwrote : s'.writesIssued = 0 := by
    rw [State.writesIssued, hpending, hnone, hwritten]
    rfl
  refine ⟨fun hno => ?_, fun _ => ?_, fun _ => .inl htick, ?_, howing⟩
  · rw [hrun] at hno
    cases hno
  · rwa [hout, hwrote]
  · rw [hfinished]
    exact h.exact

/-- Requests that move keep the invariant. -/
theorem Inv.moved (h : Inv c s) (hm : Moved s s') (howing : s'.Owing) : Inv c s' := by
  obtain ⟨o, t, m, w, d, k, hs'⟩ := hm.rest
  have hrun : s'.running = s.running := by rw [hs']
  refine ⟨fun hidle => ?_, fun hbusy => ?_, fun hbusy => ?_, ?_, howing⟩
  · rw [hm.outstanding, show s'.readPort = s.readPort by rw [hs']]
    exact h.idle (hrun ▸ hidle)
  · exact (h.work (hrun ▸ hbusy)).moved hm
  · rw [hm.outstanding]
    exact (h.awake (hrun ▸ hbusy)).imp_left hm.tick
  · rw [show s'.finished = s.finished by rw [hs']]
    exact h.exact

theorem recvPacket_write {a : Request} (hmode : a.mode = .Write) :
    recvPacket a s = if s.totalLength ≤ s.writeDone + a.size then
        finishMemcpy { s with writeDone := s.writeDone + a.size, needToWrite := false }
      else scheduleTick { s with writeDone := s.writeDone + a.size } := by
  unfold recvPacket
  rw [hmode]

/-- An answer moves no other request. -/
theorem recvPacket_places (a : Request) (s : State) : (recvPacket a s).outstanding = s.outstanding ∧
      (recvPacket a s).writesIssued = s.writesIssued ∧ (s.Owing → (recvPacket a s).Owing) := by
  unfold recvPacket
  split
  · dsimp only
    split <;> split <;> exact ⟨rfl, rfl, id⟩
  · dsimp only
    split <;> exact ⟨rfl, rfl, id⟩

theorem step_response (h : Inv c s) (hr : r ∈ s.memory) (data : List Byte) :
    Inv c (recvPacket (r.answer data) { s with
      memory := s.memory.erase r
      returned := if r.mode = .Read then r.answer data ::ₘ s.returned else s.returned }) := by
  have hrun : s.running = true := by
    rw [← Bool.not_eq_false]
    intro hidle
    rw [(h.idle_writes hidle).2] at hr
    exact absurd hr (Multiset.notMem_zero r)
  have hwork := h.work hrun
  have hout : s.outstanding = r ::ₘ (s.pending + s.memory.erase r) := by
    rw [State.outstanding, ← Multiset.add_cons, Multiset.cons_erase hr]
  rw [hout] at hwork
  cases hmode : r.mode with
  | Read =>
    obtain ⟨s', hs'⟩ : ∃ s', s' = recvPacket (r.answer data) { s with
      memory := s.memory.erase r, returned := r.answer data ::ₘ s.returned } := ⟨_, rfl⟩
    have hans : r.answer data = { r with data := data } := by rw [Request.answer, hmode]
    obtain ⟨hwork', htick, hfin⟩ := hwork.readAnswered hmode
      (a := r.answer data) (by rw [hans]; exact hmode) (by rw [hans]) (by rw [hans]) hs'
    obtain ⟨hout', hwrote', howing'⟩ := recvPacket_places (r.answer data) { s with
      memory := s.memory.erase r, returned := r.answer data ::ₘ s.returned }
    rw [← hs'] at hout' hwrote' howing'
    rw [if_pos rfl, ← hs']
    refine ⟨fun hidle => ?_, fun _ => ?_, fun _ => .inl htick, hfin ▸ h.exact, ?_⟩
    · rw [hwork'.running] at hidle
      exact absurd hidle (by decide)
    · rw [hout', hwrote']
      exact hwork'
    · exact howing' h.owing
  | Write =>
    have hans : r.answer data = r := by rw [Request.answer, hmode]
    rw [if_neg (by decide), hans, recvPacket_write hmode]
    by_cases hlast : s.totalLength ≤ s.writeDone + r.size
    · rw [if_pos hlast]
      obtain ⟨hzero, hwrite, hread⟩ := hwork.last hmode hlast
      rw [hzero] at hwork
      refine ⟨fun _ => ⟨hzero, rfl⟩, fun hbusy => absurd hbusy (by simp [finishMemcpy]),
        fun hbusy => absurd hbusy (by simp [finishMemcpy]), fun rec hrec => ?_, h.owing⟩
      have hexact := hwork.exact hmode hwrite hread
      obtain ⟨hpending, hmemory⟩ : s.pending = 0 ∧ s.memory.erase r = 0 := by
        have hcard := congrArg Multiset.card hzero
        rw [Multiset.card_add, Multiset.card_zero] at hcard
        exact ⟨Multiset.card_eq_zero.1 (by omega), Multiset.card_eq_zero.1 (by omega)⟩
      rw [State.writesIssued, hpending, show writesOf 0 = 0 from rfl, Multiset.zero_add] at hexact
      rcases List.mem_append.1 hrec with hold | hnew
      · exact h.exact rec hold
      · rw [List.mem_singleton.1 hnew]
        show Record.Exact c ⟨s.op, s.returned, s.written, s.memory.erase r⟩
        rw [hmemory]
        exact hexact
    · rw [if_neg hlast]
      refine ⟨fun hidle => ?_, fun _ => ?_, fun _ => .inl rfl, h.exact, h.owing⟩
      · rw [show s.running = false from hidle] at hrun
        exact absurd hrun (by decide)
      · exact (hwork.writeAnswered hmode (by omega)).elsewhere _ _ _ _ _ _

end Gem5Gpu.GPU.CopyEngine
