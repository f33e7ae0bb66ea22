import Gem5Gpu.GPU.Coalescing
import Gem5Gpu.GPU.LSQRuns

/-!
# The ledger of lane packets

Each lane of a dispatched instruction has a slot in the buffer of the instruction.
`Book` is what the slots read of a state, and `Ledger` says for every buffer in
use and every committed instruction what the slot of a lane holds and what was
answered for it: a packet that is still there was not answered, and an empty slot
was answered once, or its packet was the packet of a store, or there was none.

The moves are those of the queue: a lane request (`take`, `request`), dispatch, a
response (`answer`, `finish`), a lane response (`respond`) and the return of the
buffer (`retire`).
-/

namespace Gem5Gpu.GPU.LSQ

open Lib Function

variable {B' : Book} {i : Inst}

/-! ## Slots -/

/-- What the lane packets and the commit of instructions read of a state. -/
structure Book where
  requests : List (ℕ × LanePkt)
  insts : List Inst
  responses : List Response
  committed : List ℕ
  available : List ℕ
  active : ℕ
  dispatch : Option ℕ
  ejected : List Access
  data : Access → List Byte
  pkts : ℕ → ℕ → Option LanePkt
  inst : ℕ → ℕ
  type : ℕ → InstType
  commit : List ℕ
  scheduled : Bool
  blocked : Bool
  owes : Bool

def State.book (s : State) : Book where
  requests := s.requests
  insts := s.insts
  responses := s.responses
  committed := s.committed
  available := s.availableWarpInstBufs
  active := s.numActiveWarpInstBuffers
  dispatch := s.dispatchWarpInstBuf
  ejected := s.ejected
  data := s.data
  pkts := fun b => (s.bufs b).laneRequestPkts
  inst := fun b => (s.bufs b).inst
  type := fun b => (s.bufs b).type
  commit := s.commitInstBuffer
  scheduled := s.commitScheduled
  blocked := s.writebackBlocked
  owes := s.coreOwes

/-- The packet of a lane with the bytes of the response of `a`. -/
def LanePkt.fill (pkt : LanePkt) (a : Access) (data : List Byte) : LanePkt :=
  { pkt with data := (data.drop (pkt.vaddr - a.vaddr)).take pkt.size }

/-- What coalescing gives: the accesses cover the lanes, and those of a load have
the bytes of their lanes. -/
structure Inst.Coalesced (i : Inst) : Prop where
  one : ∀ lane pkt pkt', (lane, pkt) ∈ i.lanes → (lane, pkt') ∈ i.lanes → pkt = pkt'
  covers : i.type ≠ .fence → ∀ lane pkt, (lane, pkt) ∈ i.lanes →
    ∃ a ∈ i.accesses, lane ∈ a.activeLanes
  inRange : i.type = .load → ∀ a ∈ i.accesses, ∀ lane ∈ a.activeLanes, ∀ pkt,
    (lane, pkt) ∈ i.lanes → a.vaddr ≤ pkt.vaddr ∧ (pkt.size ∣ 32 → pkt.size ∣ pkt.vaddr →
      pkt.vaddr + pkt.size ≤ a.vaddr + a.size)

namespace Book

/-- The responses that a lane of an instruction got. -/
def answers (B : Book) (n lane : ℕ) : List Response :=
  B.responses.filter fun r => r.inst == n && r.lane == lane

/-- The response of an access of the lane came back. -/
def Covered (B : Book) (i : Inst) (lane : ℕ) : Prop :=
  ∃ a ∈ i.accesses, lane ∈ a.activeLanes ∧ a ∈ B.ejected

/-- `pkt'` is the packet `pkt` with the bytes of the response of an access. -/
def Filled (B : Book) (i : Inst) (lane : ℕ) (pkt pkt' : LanePkt) : Prop :=
  ∃ a ∈ i.accesses, lane ∈ a.activeLanes ∧ a ∈ B.ejected ∧ pkt' = pkt.fill a (B.data a)

/-- The slot of `pkt` holds `pkt'`. -/
def Pending (B : Book) (i : Inst) (lane : ℕ) (pkt pkt' : LanePkt) : Prop :=
  match i.type with
  | .load => (pkt' = pkt ∧ ¬B.Covered i lane) ∨ B.Filled i lane pkt pkt'
  | .store => pkt' = pkt ∧ ¬B.Covered i lane
  | _ => pkt' = pkt

/-- The lane of `pkt` was answered with `pkt'`. -/
def Answered (B : Book) (i : Inst) (lane : ℕ) (pkt pkt' : LanePkt) : Prop :=
  match i.type with
  | .load => B.Filled i lane pkt pkt'
  | .store => False
  | _ => pkt' = pkt

/-- The slot of a lane of the `n`-th instruction `i`. -/
def Slot (B : Book) (n : ℕ) (i : Inst) (lane : ℕ) : Option LanePkt → Prop
  | some pkt' => B.answers n lane = [] ∧
    ∃ pkt, (lane, pkt) ∈ i.lanes ∧ B.Pending i lane pkt pkt'
  | none => (B.answers n lane = [] ∧ (i.type = .store ∨ ∀ pkt, (lane, pkt) ∉ i.lanes)) ∨
    ∃ pkt pkt', (lane, pkt) ∈ i.lanes ∧ B.answers n lane = [⟨n, lane, pkt'⟩] ∧
      B.Answered i lane pkt pkt'

/-- The packets that the dispatch buffer collects. -/
def collecting (c : Config) (B : Book) : List (ℕ × LanePkt) :=
  match B.dispatch with
  | some b => (List.range c.warpSize).filterMap fun lane => (B.pkts b lane).map (lane, ·)
  | none => []

/-- The buffer holds a dispatched instruction. -/
def InUse (c : Config) (B : Book) (b : ℕ) : Prop :=
  b < c.warpInstBufPoolSize ∧ b ∉ B.available ∧ B.dispatch ≠ some b

variable {B B' : Book} {i : Inst} {n lane : ℕ} {o : Option LanePkt} {pkt pkt' : LanePkt}

/-- The book goes on without this lane: more accesses are ejected, but none of the
lane. -/
structure Extends (B B' : Book) (n : ℕ) (i : Inst) (lane : ℕ) : Prop where
  answers : B'.answers n lane = B.answers n lane
  covered : B'.Covered i lane → B.Covered i lane
  filled : ∀ a ∈ i.accesses, a ∈ B.ejected → a ∈ B'.ejected ∧ B'.data a = B.data a

section

variable (h : Extends B B' n i lane)
include h

theorem Filled.mono (hf : B.Filled i lane pkt pkt') :
    B'.Filled i lane pkt pkt' := by
  obtain ⟨a, ha, hlane, hej, heq⟩ := hf
  obtain ⟨hej', hdata⟩ := h.filled a ha hej
  exact ⟨a, ha, hlane, hej', by rw [hdata]; exact heq⟩

theorem Answered.mono (ha : B.Answered i lane pkt pkt') :
    B'.Answered i lane pkt pkt' := by
  unfold Answered at ha ⊢
  split at ha
  · exact ha.mono h
  · exact ha
  · exact ha

theorem Pending.mono (hp : B.Pending i lane pkt pkt') :
    B'.Pending i lane pkt pkt' := by
  unfold Pending at hp ⊢
  split at hp
  · exact hp.imp (fun hp => ⟨hp.1, fun hc => hp.2 (h.covered hc)⟩) (Filled.mono h)
  · exact ⟨hp.1, fun hc => hp.2 (h.covered hc)⟩
  · exact hp

theorem Slot.mono (hs : B.Slot n i lane o) :
    B'.Slot n i lane o := by
  cases o with
  | some pkt' =>
    obtain ⟨hans, pkt, hpkt, hp⟩ := hs
    exact ⟨h.answers.trans hans, pkt, hpkt, hp.mono h⟩
  | none =>
    rcases hs with ⟨hans, hno⟩ | ⟨pkt, pkt', hpkt, hans, ha⟩
    · exact .inl ⟨h.answers.trans hans, hno⟩
    · exact .inr ⟨pkt, pkt', hpkt, h.answers.trans hans, ha.mono h⟩

end

/-- Nothing that the slots read changed. -/
theorem Extends.of_eq (hr : B'.responses = B.responses) (he : B'.ejected = B.ejected)
    (hd : ∀ a ∈ B.ejected, B'.data a = B.data a) : Extends B B' n i lane where
  answers := by simp only [Book.answers, hr]
  covered := fun ⟨a, ha, hlane, hej⟩ => ⟨a, ha, hlane, he ▸ hej⟩
  filled := fun a _ hej => ⟨he.symm ▸ hej, hd a hej⟩

end Book

/-- The ledger. -/
structure Ledger (c : Config) (B : Book) : Prop where
  count : B.active + B.available.length = c.warpInstBufPoolSize
  empty : ∀ b, b ∈ B.available ∨ c.warpInstBufPoolSize ≤ b → ∀ lane, B.pkts b lane = none
  lanes : ∀ b lane, c.warpSize ≤ lane → B.pkts b lane = none
  requests : B.requests.Perm (B.insts.flatMap Inst.lanes ++ B.collecting c)
  coalesced : ∀ i ∈ B.insts, i.Coalesced
  known : ∀ r ∈ B.responses, r.inst < B.insts.length
  held : ∀ b, B.InUse c b → ∃ i : Inst, B.insts[B.inst b]? = some i ∧ B.type b = i.type ∧
    ∀ lane, B.Slot (B.inst b) i lane (B.pkts b lane)
  retired : ∀ n ∈ B.committed, (∃ i : Inst, B.insts[n]? = some i ∧ ∀ lane, B.Slot n i lane none) ∧
    ∀ b, B.InUse c b → B.inst b ≠ n
  whole : ∀ n < B.insts.length, n ∈ B.committed ∨ ∃ b, B.InUse c b ∧ B.inst b = n
  nodup : B.committed.Nodup

/-- The commit of instructions goes on, or waits for a retry that the core owes. -/
structure Commits (B : Book) : Prop where
  goes : B.commit ≠ [] → B.scheduled = true ∨ B.blocked = true
  waits : B.blocked = true → B.scheduled = false ∧ B.commit ≠ [] ∧ B.owes = true

/-! ## Moves -/

namespace Ledger

variable {c : Config} {B : Book} {b lane : ℕ}

section

variable (h : Ledger c B)
include h

/-- The packets of a buffer that is neither in the pool nor filled stay, when only
other buffers change. -/
theorem held_congr {x : ℕ} (hx : B.InUse c x)
    (hinsts : ∀ (n : ℕ) (i : Inst), B.insts[n]? = some i → B'.insts[n]? = some i)
    (hinst : B'.inst x = B.inst x) (htype : B'.type x = B.type x) (hpkts : B'.pkts x = B.pkts x)
    (hext : ∀ i lane, B.insts[B.inst x]? = some i → Book.Extends B B' (B.inst x) i lane) :
    ∃ i, B'.insts[B'.inst x]? = some i ∧ B'.type x = i.type ∧
      ∀ lane, B'.Slot (B'.inst x) i lane (B'.pkts x lane) := by
  obtain ⟨i, hi, ht, hslot⟩ := h.held x hx
  rw [hinst, htype, hpkts]
  exact ⟨i, hinsts _ _ hi, ht, fun lane => (hslot lane).mono (hext _ lane hi)⟩

theorem retired_congr {n : ℕ} (hn : n ∈ B.committed)
    (hinsts : ∀ (n : ℕ) (i : Inst), B.insts[n]? = some i → B'.insts[n]? = some i)
    (hext : ∀ i lane, B.insts[n]? = some i → Book.Extends B B' n i lane) :
    ∃ i, B'.insts[n]? = some i ∧ ∀ lane, B'.Slot n i lane none := by
  obtain ⟨i, hi, hslot⟩ := (h.retired n hn).1
  exact ⟨i, hinsts _ _ hi, fun lane => (hslot lane).mono (hext _ lane hi)⟩

/-- A buffer of the pool begins to collect packets. -/
theorem take {rest : List ℕ} (hq : B.available = b :: rest)
    (hd : B.dispatch = none) (type : ℕ → InstType) (htype : ∀ x, x ≠ b → type x = B.type x) :
    Ledger c { B with
      available := rest
      active := B.active + 1
      dispatch := some b
      type := type } := by
  have huse : ∀ x, Book.InUse c { B with
      available := rest
      active := B.active + 1
      dispatch := some b
      type := type } x ↔ B.InUse c x := by
    intro x
    unfold Book.InUse
    rw [hq, hd]
    simp only [List.mem_cons]
    constructor
    · rintro ⟨hx, hrest, hne⟩
      exact ⟨hx, fun hmem => hmem.elim (fun he => hne (congrArg some he.symm)) hrest, by simp⟩
    · rintro ⟨hx, hrest, -⟩
      exact ⟨hx, fun hmem => hrest (.inr hmem), fun he => hrest (.inl (Option.some.inj he.symm))⟩
  have hne : ∀ x, B.InUse c x → x ≠ b := fun x hx he => hx.2.1 (by rw [hq, he]; simp)
  refine ⟨?_, fun x hx => ?_, h.lanes, ?_, h.coalesced, h.known, fun x hx => ?_, fun n hn => ?_,
    fun n hn => ?_, h.nodup⟩
  · have := h.count
    rw [hq] at this
    simp only [List.length_cons] at this
    show B.active + 1 + rest.length = _
    omega
  · exact h.empty x (hx.imp (fun hx => by rw [hq]; exact List.mem_cons_of_mem _ hx) id)
  · have hnil : Book.collecting c { B with
        available := rest
        active := B.active + 1
        dispatch := some b
        type := type } = [] := by
      refine List.filterMap_eq_nil_iff.2 fun lane _ => ?_
      rw [h.empty b (.inl (by rw [hq]; simp)) lane]
      rfl
    rw [hnil]
    have := h.requests
    rwa [Book.collecting, hd] at this
  · exact h.held_congr ((huse x).1 hx) (fun _ _ hi => hi) rfl (htype x (hne x ((huse x).1 hx))) rfl
      fun _ _ _ => .of_eq rfl rfl fun _ _ => rfl
  · exact ⟨h.retired_congr hn (fun _ _ hi => hi) fun _ _ _ => .of_eq rfl rfl fun _ _ => rfl,
      fun x hx => (h.retired n hn).2 x ((huse x).1 hx)⟩
  · exact (h.whole n hn).imp id fun ⟨x, hx, hin⟩ => ⟨x, (huse x).2 hx, hin⟩

/-- The dispatch buffer takes a packet. -/
theorem request (pkt : LanePkt) (hd : B.dispatch = some b)
    (hb : b < c.warpInstBufPoolSize ∧ b ∉ B.available) (hlane : lane < c.warpSize)
    (hnone : B.pkts b lane = none) :
    Ledger c { B with
      requests := B.requests ++ [(lane, pkt)]
      pkts := update B.pkts b (update (B.pkts b) lane (some pkt)) } := by
  have hother : ∀ x, x ≠ b → update B.pkts b (update (B.pkts b) lane (some pkt)) x = B.pkts x :=
    fun x hx => update_of_ne hx ..
  refine ⟨h.count, fun x hx => ?_, fun x l hl => ?_, ?_, h.coalesced, h.known, fun x hx => ?_,
    fun n hn => ?_, h.whole, h.nodup⟩
  · have hxb : x ≠ b := by
      rintro rfl
      rcases hx with hx | hx
      · exact hb.2 hx
      · exact absurd hb.1 (Nat.not_lt.2 hx)
    show ∀ lane, update B.pkts b _ x lane = none
    rw [hother x hxb]
    exact h.empty x hx
  · show update B.pkts b (update (B.pkts b) lane (some pkt)) x l = none
    by_cases hxb : x = b
    · subst hxb
      rw [update_self, update_of_ne (by omega)]
      exact h.lanes x l hl
    · rw [hother x hxb]
      exact h.lanes x l hl
  · have hset := WarpInstBuffer.lanePkts_setLane (b := { WarpInstBuffer.empty with
        laneRequestPkts := B.pkts b }) pkt hlane hnone
    have hperm := (h.requests.append_right [(lane, pkt)])
    rw [Book.collecting, hd] at hperm
    rw [Book.collecting, hd]
    simp only [update_self]
    refine hperm.trans ?_
    rw [List.append_assoc]
    exact List.Perm.append_left _ hset.symm
  · exact h.held_congr hx (fun _ _ hi => hi) rfl rfl
      (hother x fun he => hx.2.2 (by rw [he]; exact hd))
      fun _ _ _ => .of_eq rfl rfl fun _ _ => rfl
  · exact ⟨h.retired_congr hn (fun _ _ hi => hi) fun _ _ _ => .of_eq rfl rfl fun _ _ => rfl,
      (h.retired n hn).2⟩

/-- The dispatch buffer becomes an instruction. -/
theorem dispatch (hd : B.dispatch = some b)
    (hb : b < c.warpInstBufPoolSize ∧ b ∉ B.available) (htype : B.type b = i.type)
    (hlanes : i.lanes = B.collecting c) (hcoalesced : i.Coalesced)
    (hnew : ∀ a ∈ i.accesses, a ∉ B.ejected) :
    Ledger c { B with
      dispatch := none
      insts := B.insts ++ [i]
      inst := update B.inst b B.insts.length } := by
  have huse : ∀ x, Book.InUse c { B with
      dispatch := none
      insts := B.insts ++ [i]
      inst := update B.inst b B.insts.length } x ↔ B.InUse c x ∨ x = b := by
    intro x
    unfold Book.InUse
    rw [hd]
    by_cases hx : x = b
    · simp [hx, hb.1, hb.2]
    · simp only [ne_eq, Option.some.injEq, hx, or_false]
      simp [Ne.symm hx]
  have hne : ∀ x, B.InUse c x → x ≠ b := fun x hx he => hx.2.2 (by rw [he]; exact hd)
  have hinst : ∀ x, B.InUse c x → update B.inst b B.insts.length x = B.inst x :=
    fun x hx => update_of_ne (hne x hx) ..
  have hinsts : ∀ (n : ℕ) (j : Inst), B.insts[n]? = some j → (B.insts ++ [i])[n]? = some j := by
    intro n j hj
    rw [List.getElem?_append_left (List.getElem?_eq_some_iff.1 hj).1]
    exact hj
  have hself : (B.insts ++ [i])[B.insts.length]? = some i := by simp
  have hext : ∀ n j lane, Book.Extends B { B with
      dispatch := none
      insts := B.insts ++ [i]
      inst := update B.inst b B.insts.length } n j lane :=
    fun _ _ _ => .of_eq rfl rfl fun _ _ => rfl
  refine ⟨h.count, h.empty, h.lanes, ?_, fun j hj => ?_, fun r hr => ?_, fun x hx => ?_,
    fun n hn => ?_, fun n hn => ?_, h.nodup⟩
  · have hperm := h.requests
    rw [← hlanes] at hperm
    simpa [Book.collecting] using hperm
  · rcases List.mem_append.1 hj with hj | hj
    · exact h.coalesced j hj
    · rw [List.mem_singleton.1 hj]
      exact hcoalesced
  · have := h.known r hr
    show r.inst < (B.insts ++ [i]).length
    simp only [List.length_append, List.length_cons, List.length_nil]
    omega
  · rcases (huse x).1 hx with hx | rfl
    · exact h.held_congr hx hinsts (hinst x hx) rfl rfl fun j lane _ => hext _ j lane
    · refine ⟨i, ?_, htype, fun lane => ?_⟩
      · show (B.insts ++ [i])[update B.inst x B.insts.length x]? = some i
        rw [update_self]
        exact hself
      show Book.Slot _ (update B.inst x B.insts.length x) i lane (B.pkts x lane)
      rw [update_self]
      refine Book.Slot.mono (hext _ i lane) ?_
      have hans : B.answers B.insts.length lane = [] := by
        refine List.filter_eq_nil_iff.2 fun r hr => ?_
        have := h.known r hr
        simp
        omega
      have hmem : ∀ pkt, (lane, pkt) ∈ i.lanes ↔ B.pkts x lane = some pkt := by
        intro pkt
        have hiff : (lane, pkt) ∈ WarpInstBuffer.lanePkts c.warpSize { WarpInstBuffer.empty with
            laneRequestPkts := B.pkts x } ↔ lane < c.warpSize ∧ B.pkts x lane = some pkt :=
          WarpInstBuffer.mem_lanePkts
        rw [hlanes, Book.collecting, hd]
        refine hiff.trans ⟨And.right, fun hp => ⟨?_, hp⟩⟩
        by_contra hlt
        have := h.lanes x lane (by omega)
        rw [hp] at this
        cases this
      cases hp : B.pkts x lane with
      | none =>
        refine .inl ⟨hans, .inr fun pkt hpkt => ?_⟩
        rw [hmem, hp] at hpkt
        cases hpkt
      | some pkt =>
        have hcov : ¬B.Covered i lane := fun ⟨a, ha, _, hej⟩ => hnew a ha hej
        refine ⟨hans, pkt, (hmem pkt).2 hp, ?_⟩
        unfold Book.Pending
        split
        · exact .inl ⟨rfl, hcov⟩
        · exact ⟨rfl, hcov⟩
        · rfl
  · refine ⟨h.retired_congr hn hinsts fun j lane _ => hext _ j lane, fun x hx => ?_⟩
    obtain ⟨j, hj, -⟩ := (h.retired n hn).1
    have hlt := (List.getElem?_eq_some_iff.1 hj).1
    rcases (huse x).1 hx with hx | rfl
    · show update B.inst b B.insts.length x ≠ n
      rw [hinst x hx]
      exact (h.retired n hn).2 x hx
    · show update B.inst x B.insts.length x ≠ n
      rw [update_self]
      omega
  · replace hn : n < (B.insts ++ [i]).length := hn
    rw [List.length_append, List.length_singleton] at hn
    rcases Nat.lt_succ_iff_lt_or_eq.1 hn with hn | rfl
    · exact (h.whole n hn).imp id fun ⟨x, hx, hin⟩ =>
        ⟨x, (huse x).2 (.inl hx), (hinst x hx).trans hin⟩
    · exact .inr ⟨b, (huse b).2 (.inr rfl), update_self ..⟩

/-- The data of an access that is not ejected arrives. -/
theorem answer {data : Access → List Byte}
    (hdata : ∀ a ∈ B.ejected, data a = B.data a) : Ledger c { B with data := data } := by
  have hext : ∀ n j lane, Book.Extends B { B with data := data } n j lane :=
    fun _ _ _ => .of_eq rfl rfl hdata
  exact {
    h with
    held := fun x hx => h.held_congr hx (fun _ _ hi => hi) rfl rfl rfl fun j lane _ => hext _ j lane
    retired := fun n hn =>
      ⟨h.retired_congr hn (fun _ _ hi => hi) fun j lane _ => hext _ j lane, (h.retired n hn).2⟩ }

end

/-- What the response of an access makes of the packet of a lane. -/
def answerLane (type : InstType) (a : Access) (data : List Byte) :
    Option LanePkt → Option LanePkt :=
  match type with
  | .load => Option.map fun pkt => pkt.fill a data
  | .store => fun _ => none
  | _ => id

theorem answerLane_none (type : InstType) (a : Access) (data : List Byte) :
    answerLane type a data none = none := by
  cases type <;> rfl

/-- A lane of the ejected access. -/
theorem slot_finish {n : ℕ} {a : Access} {o : Option LanePkt}
    (hans : B'.answers n lane = B.answers n lane)
    (hfilled : ∀ x ∈ B.ejected, x ∈ B'.ejected ∧ B'.data x = B.data x)
    (ha : a ∈ i.accesses ∧ a ∈ B'.ejected ∧ lane ∈ a.activeLanes) (hdata : B'.data a = B.data a)
    (h : B.Slot n i lane o) : B'.Slot n i lane (answerLane i.type a (B.data a) o) := by
  have hmono {pkt pkt' : LanePkt} (hf : B.Filled i lane pkt pkt') : B'.Filled i lane pkt pkt' := by
    obtain ⟨x, hx, hlane, hej, heq⟩ := hf
    obtain ⟨hej', hd⟩ := hfilled x hej
    exact ⟨x, hx, hlane, hej', by rw [hd]; exact heq⟩
  cases o with
  | none =>
    rw [answerLane_none]
    rcases h with ⟨hnil, hno⟩ | ⟨pkt, pkt', hpkt, hone, hansd⟩
    · exact .inl ⟨hans.trans hnil, hno⟩
    · refine .inr ⟨pkt, pkt', hpkt, hans.trans hone, ?_⟩
      unfold Book.Answered at hansd ⊢
      split at hansd
      · exact hmono hansd
      · exact hansd
      · exact hansd
  | some pkt' =>
    obtain ⟨hnil, pkt, hpkt, hp⟩ := h
    unfold Book.Pending at hp
    split at hp
    · rename_i htype
      rw [htype]
      refine ⟨hans.trans hnil, pkt, hpkt, ?_⟩
      unfold Book.Pending
      rw [htype]
      refine .inr ⟨a, ha.1, ha.2.2, ha.2.1, ?_⟩
      rw [hdata]
      rcases hp with ⟨rfl, -⟩ | ⟨x, -, -, -, rfl⟩
      · rfl
      · rfl
    · rename_i htype
      rw [htype]
      exact .inl ⟨hans.trans hnil, .inl htype⟩
    · rename_i hload hstore
      have hid : answerLane i.type a (B.data a) (some pkt') = some pkt' := by
        cases ht : i.type with
        | load => exact absurd ht hload
        | store => exact absurd ht hstore
        | fence => rfl
        | atomic => rfl
      rw [hid]
      refine ⟨hans.trans hnil, pkt, hpkt, ?_⟩
      unfold Book.Pending
      split
      · rename_i ht
        exact absurd ht hload
      · rename_i ht
        exact absurd ht hstore
      · exact hp

/-- The response of an access goes to its lanes. -/
theorem finish (h : Ledger c B) {a : Access} (pkts : ℕ → ℕ → Option LanePkt)
    (hb : B.InUse c a.buf) (hinst : B.inst a.buf = a.inst)
    (hi : B.insts[a.inst]? = some i) (ha : a ∈ i.accesses)
    (hother : ∀ n j, B.insts[n]? = some j → a ∈ j.accesses → n = a.inst)
    (hinj : ∀ x, B.InUse c x → B.inst x = a.inst → x = a.buf)
    (hpkts : ∀ x, x ≠ a.buf → pkts x = B.pkts x)
    (hself : ∀ lane, pkts a.buf lane = if lane ∈ a.activeLanes then
      answerLane (B.type a.buf) a (B.data a) (B.pkts a.buf lane) else B.pkts a.buf lane) :
    Ledger c { B with
      ejected := B.ejected ++ [a]
      pkts := pkts } := by
  have hext : ∀ n j lane, B.insts[n]? = some j → (lane ∈ a.activeLanes → n ≠ a.inst) →
      Book.Extends B { B with ejected := B.ejected ++ [a], pkts := pkts } n j lane := by
    intro n j lane hj hne
    refine ⟨rfl, ?_, fun x _ hx => ⟨List.mem_append_left _ hx, rfl⟩⟩
    rintro ⟨x, hx, hlane, hej⟩
    rcases List.mem_append.1 hej with hej | hej
    · exact ⟨x, hx, hlane, hej⟩
    · rw [List.mem_singleton.1 hej] at hx hlane
      exact absurd (hother n j hj hx) (hne hlane)
  refine ⟨h.count, fun x hx => ?_, fun x lane hlane => ?_, ?_, h.coalesced, h.known, fun x hx => ?_,
    fun n hn => ?_, h.whole, h.nodup⟩
  · have hne : x ≠ a.buf := by
      rintro rfl
      exact hx.elim hb.2.1 (Nat.not_le.2 hb.1)
    show ∀ lane, pkts x lane = none
    rw [hpkts x hne]
    exact h.empty x hx
  · show pkts x lane = none
    by_cases hx : x = a.buf
    · subst hx
      rw [hself lane, h.lanes _ lane hlane, answerLane_none]
      exact ite_self _
    · rw [hpkts x hx]
      exact h.lanes x lane hlane
  · have hsame : Book.collecting c { B with ejected := B.ejected ++ [a], pkts := pkts }
        = B.collecting c := by
      unfold Book.collecting
      cases hd : B.dispatch with
      | none => rfl
      | some d =>
        have hne : d ≠ a.buf := by
          rintro rfl
          exact hb.2.2 hd
        simp only [hpkts d hne]
    rw [hsame]
    exact h.requests
  · by_cases hxa : x = a.buf
    · subst hxa
      obtain ⟨j, hj, htype, hslot⟩ := h.held a.buf hx
      rw [hinst] at hj
      obtain rfl : i = j := Option.some.inj (hi.symm.trans hj)
      refine ⟨i, by rw [hinst]; exact hi, htype, fun lane => ?_⟩
      show Book.Slot _ (B.inst a.buf) i lane (pkts a.buf lane)
      have hold := hslot lane
      rw [hself lane, hinst, htype]
      rw [hinst] at hold
      split
      · rename_i hlane
        refine slot_finish (B := B) rfl (fun x hx => ⟨List.mem_append_left _ hx, rfl⟩)
          ⟨ha, ?_, hlane⟩ rfl hold
        exact List.mem_append_right _ (List.mem_singleton_self a)
      · rename_i hlane
        exact hold.mono (hext _ i lane hi fun hl => absurd hl hlane)
    · exact h.held_congr hx (fun _ _ hi => hi) rfl rfl (hpkts x hxa) fun j lane hj =>
        hext _ j lane hj fun _ heq => hxa (hinj x hx heq)
  · refine ⟨h.retired_congr hn (fun _ _ hi => hi) fun j lane hj => hext n j lane hj fun _ heq => ?_,
      (h.retired n hn).2⟩
    exact (h.retired n hn).2 a.buf hb (hinst.trans heq.symm)

/-- A lane of the instruction in `b` is answered. -/
theorem respond (h : Ledger c B) (hb : B.InUse c b) {pkt' : LanePkt}
    (hpkt : B.pkts b lane = some pkt') (htype : B.type b ≠ .store)
    (hinj : ∀ x, B.InUse c x → B.inst x = B.inst b → x = b)
    (hdone : ∀ i : Inst, B.insts[B.inst b]? = some i → ∀ a ∈ i.accesses, a ∈ B.ejected) :
    Ledger c { B with
      responses := B.responses ++ [⟨B.inst b, lane, pkt'⟩]
      pkts := update B.pkts b (update (B.pkts b) lane none) } := by
  obtain ⟨i, hi, hitype, hslots⟩ := h.held b hb
  have hans : ∀ n l, (n ≠ B.inst b ∨ l ≠ lane) → Book.answers { B with
      responses := B.responses ++ [⟨B.inst b, lane, pkt'⟩]
      pkts := update B.pkts b (update (B.pkts b) lane none) } n l = B.answers n l := by
    intro n l hne
    unfold Book.answers
    rw [List.filter_append]
    have hnil : [⟨B.inst b, lane, pkt'⟩].filter (fun r : Response => r.inst == n && r.lane == l)
        = [] := by
      refine List.filter_eq_nil_iff.2 fun r hr => ?_
      rw [List.mem_singleton.1 hr]
      simp only [Bool.and_eq_true, beq_iff_eq, not_and]
      intro h1 h2
      exact hne.elim (fun hn => hn h1.symm) fun hl => hl h2.symm
    rw [hnil, List.append_nil]
  have hext : ∀ n j l, (n ≠ B.inst b ∨ l ≠ lane) → Book.Extends B { B with
      responses := B.responses ++ [⟨B.inst b, lane, pkt'⟩]
      pkts := update B.pkts b (update (B.pkts b) lane none) } n j l :=
    fun n j l hne => ⟨hans n l hne, id, fun _ _ hx => ⟨hx, rfl⟩⟩
  have hother : ∀ x, x ≠ b → update B.pkts b (update (B.pkts b) lane none) x
      = B.pkts x := fun x hx => update_of_ne hx ..
  refine ⟨h.count, fun x hx => ?_, fun x l hl => ?_, ?_, h.coalesced, fun r hr => ?_,
    fun x hx => ?_, fun n hn => ?_, h.whole, h.nodup⟩
  · have hne : x ≠ b := by
      rintro rfl
      exact hx.elim hb.2.1 (Nat.not_le.2 hb.1)
    show ∀ l, update B.pkts b _ x l = none
    rw [hother x hne]
    exact h.empty x hx
  · show update B.pkts b (update (B.pkts b) lane none) x l = none
    by_cases hx : x = b
    · subst hx
      rw [update_self]
      by_cases hll : l = lane
      · rw [hll, update_self]
      · rw [update_of_ne hll]
        exact h.lanes x l hl
    · rw [hother x hx]
      exact h.lanes x l hl
  · have hsame : Book.collecting c { B with
        responses := B.responses ++ [⟨B.inst b, lane, pkt'⟩]
        pkts := update B.pkts b (update (B.pkts b) lane none) } = B.collecting c := by
      unfold Book.collecting
      cases hd : B.dispatch with
      | none => rfl
      | some d =>
        have hne : d ≠ b := by
          rintro rfl
          exact hb.2.2 hd
        simp only [hother d hne]
    rw [hsame]
    exact h.requests
  · rcases List.mem_append.1 hr with hr | hr
    · exact h.known r hr
    · rw [List.mem_singleton.1 hr]
      exact (List.getElem?_eq_some_iff.1 hi).1
  · by_cases hxb : x = b
    · subst hxb
      refine ⟨i, hi, hitype, fun l => ?_⟩
      show Book.Slot _ (B.inst x) i l (update B.pkts x (update (B.pkts x) lane none) x l)
      rw [update_self]
      by_cases hl : l = lane
      · subst hl
        rw [update_self]
        have hold := hslots l
        rw [hpkt] at hold
        obtain ⟨hnil, pkt, hmem, hp⟩ := hold
        refine .inr ⟨pkt, pkt', hmem, ?_, ?_⟩
        · unfold Book.answers at hnil ⊢
          rw [List.filter_append, hnil]
          simp
        · -- the response of the access of the lane came back
          have hcovered : i.type ≠ .fence → B.Covered i l := fun hf => by
            obtain ⟨a, ha, hlane⟩ := (h.coalesced i (List.mem_of_getElem? hi)).covers hf l pkt hmem
            exact ⟨a, ha, hlane, hdone i hi a ha⟩
          unfold Book.Pending at hp
          unfold Book.Answered
          split at hp
          · rename_i ht
            exact hp.elim (fun hp => absurd (hcovered (by rw [ht]; simp)) hp.2) id
          · rename_i ht
            exact absurd (hitype.trans ht) htype
          · exact hp
      · rw [update_of_ne hl]
        exact (hslots l).mono (hext _ i l (.inr hl))
    · exact h.held_congr hx (fun _ _ hi => hi) rfl rfl (hother x hxb) fun j l _ =>
        hext _ j l (.inl fun heq => hxb (hinj x hx heq))
  · exact ⟨h.retired_congr hn (fun _ _ hi => hi) fun j l _ =>
      hext n j l (.inl fun heq => (h.retired n hn).2 b hb heq.symm), (h.retired n hn).2⟩

/-- The buffer `b` goes back to the pool. -/
theorem retire (h : Ledger c B) (hb : B.InUse c b) (hnodup : B.available.Nodup)
    (hbound : ∀ x ∈ B.available, x < c.warpInstBufPoolSize)
    (hinj : ∀ x, B.InUse c x → B.inst x = B.inst b → x = b)
    (hempty : ∀ lane, B.pkts b lane = none) (commit : List ℕ) (scheduled : Bool) :
    Ledger c { B with
      committed := B.committed ++ [B.inst b]
      available := B.available ++ [b]
      active := B.active - 1
      commit := commit
      scheduled := scheduled } := by
  have huse : ∀ x, Book.InUse c { B with
      committed := B.committed ++ [B.inst b]
      available := B.available ++ [b]
      active := B.active - 1
      commit := commit
      scheduled := scheduled } x ↔ B.InUse c x ∧ x ≠ b := by
    intro x
    unfold Book.InUse
    simp only [List.mem_append, List.mem_singleton, not_or]
    tauto
  have hlen : B.available.length < c.warpInstBufPoolSize := by
    have hsub : b :: B.available ⊆ List.range c.warpInstBufPoolSize := by
      intro x hx
      rw [List.mem_range]
      rcases List.mem_cons.1 hx with rfl | hx
      · exact hb.1
      · exact hbound x hx
    have hle := (List.subperm_of_subset (List.nodup_cons.2 ⟨hb.2.1, hnodup⟩) hsub).length_le
    rw [List.length_cons, List.length_range] at hle
    omega
  have hext : ∀ n j l, Book.Extends B { B with
      committed := B.committed ++ [B.inst b]
      available := B.available ++ [b]
      active := B.active - 1
      commit := commit
      scheduled := scheduled } n j l := fun _ _ _ => .of_eq rfl rfl fun _ _ => rfl
  obtain ⟨i, hi, hitype, hslots⟩ := h.held b hb
  refine ⟨?_, fun x hx => ?_, h.lanes, h.requests, h.coalesced, h.known, fun x hx => ?_,
    fun n hn => ?_, fun n hn => ?_, ?_⟩
  · have := h.count
    show B.active - 1 + (B.available ++ [b]).length = _
    rw [List.length_append, List.length_singleton]
    omega
  · rcases hx with hx | hx
    · rcases List.mem_append.1 hx with hx | hx
      · exact h.empty x (.inl hx)
      · rw [List.mem_singleton.1 hx]
        exact hempty
    · exact h.empty x (.inr hx)
  · exact h.held_congr ((huse x).1 hx).1 (fun _ _ hi => hi) rfl rfl rfl fun j l _ => hext _ j l
  · rcases List.mem_append.1 hn with hn | hn
    · exact ⟨h.retired_congr hn (fun _ _ hi => hi) fun j l _ => hext _ j l,
        fun x hx => (h.retired n hn).2 x ((huse x).1 hx).1⟩
    · rw [List.mem_singleton.1 hn]
      refine ⟨⟨i, hi, fun l => ?_⟩, fun x hx heq => ?_⟩
      · have hslot := hslots l
        rw [hempty l] at hslot
        exact hslot.mono (hext _ i l)
      · obtain ⟨hx, hne⟩ := (huse x).1 hx
        exact hne (hinj x hx heq)
  · rcases h.whole n hn with hn | ⟨x, hx, hin⟩
    · exact .inl (List.mem_append_left _ hn)
    · by_cases hxb : x = b
      · refine .inl (List.mem_append_right _ ?_)
        rw [← hin, hxb]
        exact List.mem_singleton_self _
      · exact .inr ⟨x, (huse x).2 ⟨hx, hxb⟩, hin⟩
  · refine List.nodup_append.2 ⟨h.nodup, List.nodup_singleton _, fun n hn m hm heq => ?_⟩
    rw [List.mem_singleton.1 hm] at heq
    exact (h.retired n hn).2 b hb heq.symm

/-- The slots of a store are empty when all its accesses are ejected. -/
theorem store_empty (h : Ledger c B) (hb : B.InUse c b) (htype : B.type b = .store)
    (hdone : ∀ i : Inst, B.insts[B.inst b]? = some i → ∀ a ∈ i.accesses, a ∈ B.ejected) (lane : ℕ) :
    B.pkts b lane = none := by
  obtain ⟨i, hi, hitype, hslots⟩ := h.held b hb
  have hstore : i.type = .store := hitype.symm.trans htype
  by_contra hne
  obtain ⟨pkt', hpkt⟩ := Option.ne_none_iff_exists'.1 hne
  have hslot := hslots lane
  rw [hpkt] at hslot
  obtain ⟨-, pkt, hmem, hp⟩ := hslot
  obtain ⟨a, ha, hlane⟩ := (h.coalesced i (List.mem_of_getElem? hi)).covers
    (by rw [hstore]; simp) lane pkt hmem
  unfold Book.Pending at hp
  rw [hstore] at hp
  exact hp.2 ⟨a, ha, hlane, hdone i hi a ha⟩

end Ledger

end Gem5Gpu.GPU.LSQ
