import Gem5Gpu.DRAM.Bursts
import Gem5Gpu.Lib.Index

/-!
# The answers of the DRAM controller

Every read is answered once, with its last burst.  The invariant counts the bursts that a request
has in `readQueue` and `respQueue` (`left`): a request with none has been answered and one with
some has not, and a `BurstHelper` has counted exactly those that are missing (`Accounted`).  A
request is entered into the books when its bursts have been queued, and a burst is crossed out when
it leaves `respQueue`; serving it only moves it from one queue to the other.

The other parts of the invariant are that `isInWriteQueue` mirrors `writeQueue`, that the bursts of
reads fit into the read buffer, that every queued burst is a piece of its request, and that the bus
points to the writes only while there are some.
-/

namespace Gem5Gpu.DRAM.Ctrl

open Gem5Gpu.Lib Gem5Gpu.Mem Function

/-! ## The books -/

/-- The number of bursts of request `i` in a list. -/
def left (l : List Burst) (i : ℕ) : ℕ := (l.map Burst.pkt).count i

variable {l l' news : List Burst} {i n : ℕ} {p : Burst} {a : State × Bool}

theorem left_append : left (l ++ l') i = left l i + left l' i := by
  rw [left, List.map_append, List.count_append]
  rfl

theorem left_cons_self : left (p :: l) p.pkt = left l p.pkt + 1 := List.count_cons_self

theorem left_cons_of_ne (h : p.pkt ≠ i) : left (p :: l) i = left l i := List.count_cons_of_ne h

theorem left_pos (h : p ∈ l) : 0 < left l p.pkt :=
  List.count_pos_iff.2 (List.mem_map_of_mem h)

theorem left_of_forall_eq (h : ∀ p ∈ news, p.pkt = n) : left news n = news.length := by
  have hall : ∀ j ∈ news.map Burst.pkt, n = j := by
    intro j hj
    obtain ⟨p, hp, rfl⟩ := List.mem_map.1 hj
    exact (h p hp).symm
  rw [left, List.count_eq_length.2 hall, List.length_map]

theorem left_eq_zero_iff : left l i = 0 ↔ ∀ p ∈ l, p.pkt ≠ i := by
  rw [left, List.count_eq_zero, List.mem_map]
  exact ⟨fun h p hp hi => h ⟨p, hp, hi⟩, fun h ⟨p, hp, hi⟩ => h p hp hi⟩

/-- What is recorded about the first `n` requests: those with bursts left have not been answered,
and their helpers have counted the others; the rest has been answered once. -/
structure Accounted (n : ℕ) (l : List Burst) (helpers : ℕ → BurstHelper) (responses : List ℕ) :
    Prop where
  answered : ∀ i < n, responses.count i = if left l i = 0 then 1 else 0
  fresh : ∀ i, n ≤ i → left l i = 0 ∧ responses.count i = 0
  counted : ∀ p ∈ l, if p.split then
      (helpers p.pkt).burstsServiced + left l p.pkt = (helpers p.pkt).burstCount
    else left l p.pkt = 1

variable {helpers : ℕ → BurstHelper} {responses : List ℕ} {m k : ℕ} {split : Bool}

theorem Accounted.perm (h : Accounted n l helpers responses) (hl : l'.Perm l) :
    Accounted n l' helpers responses := by
  have hleft : ∀ i, left l' i = left l i := fun i => (hl.map _).count_eq i
  refine ⟨fun i hi => ?_, fun i hi => ?_, fun p hp => ?_⟩
  · rw [hleft, h.answered i hi]
  · rw [hleft]
    exact h.fresh i hi
  · rw [hleft]
    exact h.counted p (hl.mem_iff.1 hp)

/-- How often a request has been answered. -/
theorem Accounted.count_responses (h : Accounted n l helpers responses) (i : ℕ) :
    responses.count i = if i < n ∧ ∀ p ∈ l, p.pkt ≠ i then 1 else 0 := by
  by_cases hi : i < n
  · rw [h.answered i hi]
    simp only [left_eq_zero_iff, hi, true_and]
  · rw [(h.fresh i (by omega)).2, if_neg (by omega)]

theorem Accounted.pkt_lt (h : Accounted n l helpers responses) (hp : p ∈ l) : p.pkt < n := by
  by_contra hge
  have := left_pos hp
  have := (h.fresh p.pkt (by omega)).1
  omega

theorem count_snoc (i j : ℕ) :
    (responses ++ [j]).count i = responses.count i + if j = i then 1 else 0 := by
  rw [List.count_append, List.count_singleton]
  simp

/-- A request that is answered at once. -/
theorem Accounted.answer (h : Accounted n l helpers responses) :
    Accounted (n + 1) l helpers (responses ++ [n]) := by
  obtain ⟨hleft, hcount⟩ := h.fresh n (Nat.le_refl n)
  refine ⟨fun i hi => ?_, fun i hi => ?_, h.counted⟩
  · rw [count_snoc]
    rcases Nat.lt_succ_iff_lt_or_eq.1 hi with hlt | rfl
    · rw [if_neg (by omega), Nat.add_zero, h.answered i hlt]
    · rw [hleft, hcount, if_pos rfl, if_pos rfl]
  · rw [count_snoc, if_neg (by omega)]
    exact h.fresh i (by omega)

/-- A read of `k` bursts of which `m` were found in the write queue. -/
theorem Accounted.accept (h : Accounted n l helpers responses)
    (hnews : ∀ p ∈ news, p.pkt = n ∧ p.split = split) (hsplit : split = decide (1 < k))
    (hk : m + news.length = k) (hsome : news ≠ []) :
    Accounted (n + 1) (l ++ news) (if split then update helpers n ⟨k, m⟩ else helpers)
      responses := by
  obtain ⟨hnone, hcount⟩ := h.fresh n (Nat.le_refl n)
  have hlen : 0 < news.length := List.length_pos_iff.2 hsome
  have hnew : left (l ++ news) n = news.length := by
    rw [left_append, hnone, left_of_forall_eq fun p hp => (hnews p hp).1, Nat.zero_add]
  have hold : ∀ i, i ≠ n → left (l ++ news) i = left l i := by
    intro i hi
    have hzero : left news i = 0 := left_eq_zero_iff.2 fun p hp => (hnews p hp).1 ▸ hi.symm
    rw [left_append, hzero, Nat.add_zero]
  refine ⟨fun i hi => ?_, fun i hi => ?_, fun p hp => ?_⟩
  · rcases Nat.lt_succ_iff_lt_or_eq.1 hi with hlt | rfl
    · rw [hold i (by omega), h.answered i hlt]
    · rw [hnew, hcount, if_neg (by omega)]
  · rw [hold i (by omega)]
    exact h.fresh i (by omega)
  · rcases List.mem_append.1 hp with hp | hp
    · have hlt := h.pkt_lt hp
      have hcounted := h.counted p hp
      rw [hold _ (by omega)]
      cases split with
      | false => exact hcounted
      | true => rwa [if_pos rfl, update_of_ne (by omega)]
    · obtain ⟨hpkt, hps⟩ := hnews p hp
      rw [hpkt, hnew, hps]
      cases split with
      | false =>
        have : ¬1 < k := of_decide_eq_false hsplit.symm
        show news.length = 1
        omega
      | true =>
        rw [if_pos rfl, if_pos rfl, update_self]
        exact hk

/-- A burst of a request with more bursts is done. -/
theorem Accounted.more (h : Accounted n (p :: l) helpers responses) (hsplit : p.split)
    (hmore : (helpers p.pkt).burstsServiced + 1 ≠ (helpers p.pkt).burstCount) :
    Accounted n l (update helpers p.pkt
      ⟨(helpers p.pkt).burstCount, (helpers p.pkt).burstsServiced + 1⟩) responses := by
  have hp := h.counted p List.mem_cons_self
  rw [if_pos hsplit, left_cons_self] at hp
  refine ⟨fun i hi => ?_, fun i hi => ?_, fun q hq => ?_⟩
  · rw [h.answered i hi]
    by_cases hpi : p.pkt = i
    · subst hpi
      rw [left_cons_self, if_neg (by omega), if_neg (by omega)]
    · rw [left_cons_of_ne hpi]
  · have hpi : p.pkt ≠ i := by
      have := h.pkt_lt (p := p) List.mem_cons_self
      omega
    have hfresh := h.fresh i hi
    rwa [left_cons_of_ne hpi] at hfresh
  · have hcounted := h.counted q (List.mem_cons_of_mem _ hq)
    by_cases hpq : p.pkt = q.pkt
    · rw [← hpq, left_cons_self] at hcounted
      rw [← hpq, update_self]
      have := left_pos hq
      rw [← hpq] at this
      split
      · rename_i hq
        rw [if_pos hq] at hcounted
        show (helpers p.pkt).burstsServiced + 1 + _ = (helpers p.pkt).burstCount
        omega
      · rename_i hq
        rw [if_neg hq] at hcounted
        omega
    · rw [left_cons_of_ne hpq] at hcounted
      rwa [update_of_ne (Ne.symm hpq)]

/-- The last burst of a request is done. -/
theorem Accounted.last {helpers' : ℕ → BurstHelper} (h : Accounted n (p :: l) helpers responses)
    (hlast : left l p.pkt = 0) (hother : ∀ i, i ≠ p.pkt → helpers' i = helpers i) :
    Accounted n l helpers' (responses ++ [p.pkt]) := by
  have hlt := h.pkt_lt (p := p) List.mem_cons_self
  refine ⟨fun i hi => ?_, fun i hi => ?_, fun q hq => ?_⟩
  · rw [count_snoc, h.answered i hi]
    by_cases hpi : p.pkt = i
    · subst hpi
      rw [left_cons_self, hlast, if_neg (by omega), if_pos rfl, if_pos rfl]
    · rw [left_cons_of_ne hpi, if_neg hpi, Nat.add_zero]
  · have hpi : p.pkt ≠ i := by omega
    have hfresh := h.fresh i hi
    rw [left_cons_of_ne hpi] at hfresh
    rwa [count_snoc, if_neg hpi, Nat.add_zero]
  · have hpq : p.pkt ≠ q.pkt := by
      intro hpq
      have := left_pos hq
      rw [← hpq] at this
      omega
    have hcounted := h.counted q (List.mem_cons_of_mem _ hq)
    rwa [left_cons_of_ne hpq, ← hother _ (Ne.symm hpq)] at hcounted

/-! ## The invariant -/

variable {c : Config} {s s' : State} {r : Request} {fs : List Fragment} {up : Option Request}
  {choice : Option ℕ} {busy : Bool} {e : Event}

/-- The bursts of reads that are not done. -/
def State.pending (s : State) : List Burst := s.respQueue ++ s.readQueue

/-- The burst is a piece of its request. -/
def Config.Cut (c : Config) (accepted : List Request) (p : Burst) : Prop :=
  ∃ r, accepted[p.pkt]? = some r ∧ (p.addr, p.size) ∈ c.fragments r

theorem Config.Cut.snoc {accepted : List Request} (h : c.Cut accepted p) :
    c.Cut (accepted ++ [r]) p := by
  obtain ⟨r', hr, hmem⟩ := h
  obtain ⟨hlt, _⟩ := List.getElem?_eq_some_iff.1 hr
  exact ⟨r', by rwa [List.getElem?_append_left hlt], hmem⟩

/-- A new piece of the request that has just been accepted. -/
theorem Config.Cut.new {accepted : List Request} (hpkt : p.pkt = accepted.length)
    (hmem : (p.addr, p.size) ∈ c.fragments r) : c.Cut (accepted ++ [r]) p :=
  ⟨r, by rw [hpkt, List.getElem?_concat_length], hmem⟩

structure State.OK (c : Config) (s : State) : Prop where
  writes : Indexes (fun p => c.burstAlign p.addr) s.writeQueue s.isInWriteQueue
  room : s.readQueue.length + s.respQueue.length ≤ c.readBufferSize
  account : Accounted s.accepted.length s.pending s.helpers s.responses
  cut : ∀ p ∈ s.pending ++ s.writeQueue, c.Cut s.accepted p
  busy : s.busState = .readToWrite ∨ s.busState = .write → s.writeQueue ≠ []

theorem State.ok_start : State.OK c {} where
  writes := .nil
  room := Nat.zero_le _
  account :=
    ⟨fun i hi => absurd hi (Nat.not_lt_zero i), fun _ _ => ⟨rfl, rfl⟩, fun _ hp => nomatch hp⟩
  cut := fun _ hp => nomatch hp
  busy := fun h => by cases h <;> contradiction

/-! ## Accepting a request -/

/-- What the loop of `addToReadQueue` adds. -/
theorem addReadBursts_ok {a : State × ℕ} (h : addReadBursts c i split fs s m = .ok a) :
    ∃ news, a.1 = { s with readQueue := s.readQueue ++ news } ∧ a.2 + news.length = m + fs.length ∧
      (∀ p ∈ news, (p.pkt = i ∧ p.split = split) ∧ (p.addr, p.size) ∈ fs) ∧
      (s.readQueue.length + s.respQueue.length ≤ c.readBufferSize →
        (s.readQueue ++ news).length + s.respQueue.length ≤ c.readBufferSize) := by
  induction fs generalizing s m with
  | nil =>
    cases h
    exact ⟨[], by simp, rfl, by simp, by simp⟩
  | cons f fs ih =>
    rw [addReadBursts] at h
    split at h
    · obtain ⟨news, hs, hlen, hnews, hroom⟩ := ih h
      refine ⟨news, hs, ?_, fun p hp => ?_, hroom⟩
      · rw [hlen, List.length_cons]
        omega
      · exact ⟨(hnews p hp).1, List.mem_cons_of_mem _ (hnews p hp).2⟩
    · obtain ⟨_, hfull, h⟩ := bind_eq_ok h
      have hfull := check_eq_ok hfull
      obtain ⟨news, hs, hlen, hnews, hroom⟩ := ih h
      refine ⟨⟨i, f.1, f.2, split⟩ :: news, ?_, ?_, ?_, fun _ => ?_⟩
      · rw [hs, List.append_assoc]
        rfl
      · rw [List.length_cons, List.length_cons]
        omega
      · intro p hp
        rcases List.mem_cons.1 hp with rfl | hp
        · exact ⟨⟨rfl, rfl⟩, List.mem_cons_self⟩
        · exact ⟨(hnews p hp).1, List.mem_cons_of_mem _ (hnews p hp).2⟩
      · have hone : (s.readQueue ++ [(⟨i, f.1, f.2, split⟩ : Burst)]).length + s.respQueue.length
            ≤ c.readBufferSize := by
          have := of_decide_eq_false hfull
          rw [List.length_append, List.length_singleton]
          omega
        rw [List.append_cons]
        exact hroom hone

/-- A read is entered: its bursts, and what is recorded about it. -/
theorem State.OK.enter (hs : s.OK c) {helpers : ℕ → BurstHelper} {responses : List ℕ}
    (hnews : ∀ p ∈ news, p.pkt = s.accepted.length ∧ (p.addr, p.size) ∈ c.fragments r)
    (hroom : (s.readQueue ++ news).length + s.respQueue.length ≤ c.readBufferSize)
    (haccount : Accounted (s.accepted.length + 1) (s.pending ++ news) helpers responses) :
    State.OK c { s with
      accepted := s.accepted ++ [r]
      readQueue := s.readQueue ++ news
      helpers := helpers
      responses := responses } := {
  hs with
  room := hroom
  account := by
    rw [State.pending, List.append_assoc] at haccount
    rw [List.length_append, List.length_singleton]
    exact haccount
  cut := by
    intro p hp
    have hp : p ∈ s.pending ++ s.writeQueue ∨ p ∈ news := by
      simp only [State.pending, List.mem_append] at hp ⊢
      tauto
    rcases hp with hp | hp
    · exact (hs.cut p hp).snoc
    · exact .new (hnews p hp).1 (hnews p hp).2 }

theorem length_fragmentsFrom (addr : UInt64) : (c.fragmentsFrom r n addr).length = n := by
  induction n generalizing addr with
  | zero => rfl
  | succ n ih => rw [Config.fragmentsFrom, List.length_cons, ih]

theorem addToReadQueue_ok (hs : s.OK c) (h : addToReadQueue c s r (c.dramPktCount r) = .ok s') :
    s'.OK c := by
  obtain ⟨_, _, h⟩ := bind_eq_ok h
  obtain ⟨⟨s₁, serviced⟩, hloop, h⟩ := bind_eq_ok h
  obtain ⟨news, hs₁, hlen, hnews, hroom⟩ := addReadBursts_ok hloop
  dsimp only at h hs₁ hlen
  rw [length_fragmentsFrom, Nat.zero_add] at hlen
  subst hs₁
  have hpieces : ∀ p ∈ news, p.pkt = s.accepted.length ∧ (p.addr, p.size) ∈ c.fragments r :=
    fun p hp => ⟨(hnews p hp).1.1, (hnews p hp).2⟩
  have hroom := hroom hs.room
  split at h
  · -- every burst was found in the write queue
    cases h
    obtain rfl : news = [] := List.length_eq_zero_iff.1 (by omega)
    refine hs.enter hpieces hroom ?_
    rw [List.append_nil]
    exact hs.account.answer
  · have hsome : news ≠ [] := by
      rintro rfl
      rw [List.length_nil] at hlen
      omega
    have haccount := hs.account.accept (fun p hp => (hnews p hp).1) rfl hlen hsome
    split at h
    · rename_i hsplit
      cases h
      rw [if_pos hsplit] at haccount
      exact hs.enter hpieces hroom haccount
    · rename_i hsplit
      cases h
      rw [if_neg hsplit] at haccount
      exact hs.enter hpieces hroom haccount

/-- What the loop of `addToWriteQueue` adds. -/
theorem addWriteBursts_ok (h : addWriteBursts c i fs s = .ok s')
    (hs : Indexes (fun p => c.burstAlign p.addr) s.writeQueue s.isInWriteQueue) :
    ∃ news index, s' = { s with writeQueue := s.writeQueue ++ news, isInWriteQueue := index } ∧
      (∀ p ∈ news, p.pkt = i ∧ (p.addr, p.size) ∈ fs) ∧
      Indexes (fun p => c.burstAlign p.addr) (s.writeQueue ++ news) index := by
  induction fs generalizing s with
  | nil =>
    cases h
    refine ⟨[], _, by rw [List.append_nil], by simp, ?_⟩
    rwa [List.append_nil]
  | cons f fs ih =>
    rw [addWriteBursts] at h
    split at h
    · obtain ⟨news, index, hs', hnews, hmirror⟩ := ih h hs
      exact ⟨news, index, hs', fun p hp => ⟨(hnews p hp).1, List.mem_cons_of_mem _ (hnews p hp).2⟩,
        hmirror⟩
    · rename_i hnew
      obtain ⟨_, _, h⟩ := bind_eq_ok h
      obtain ⟨_, _, h⟩ := bind_eq_ok h
      let p : Burst := ⟨i, f.1, f.2, false⟩
      have hnew : c.burstAlign p.addr ∉ s.isInWriteQueue := by simpa using hnew
      have hpush := hs.push (x := p) hnew
      rw [List.insert_of_not_mem hnew] at h
      obtain ⟨news, index, hs', hnews, hmirror⟩ := ih h hpush
      refine ⟨p :: news, index, ?_, ?_, ?_⟩
      · rw [hs', List.append_assoc]
        rfl
      · intro q hq
        rcases List.mem_cons.1 hq with rfl | hq
        · exact ⟨rfl, List.mem_cons_self⟩
        · exact ⟨(hnews q hq).1, List.mem_cons_of_mem _ (hnews q hq).2⟩
      · rw [List.append_cons]
        exact hmirror

theorem addToWriteQueue_ok (hs : s.OK c) (h : addToWriteQueue c s r (c.dramPktCount r) = .ok s') :
    s'.OK c := by
  obtain ⟨s₁, hloop, h⟩ := bind_eq_ok h
  cases h
  obtain ⟨news, index, rfl, hnews, hmirror⟩ := addWriteBursts_ok hloop hs.writes
  refine ⟨hmirror, hs.room, ?_, ?_, ?_⟩
  · show Accounted (s.accepted ++ [r]).length _ _ _
    rw [List.length_append, List.length_singleton]
    exact hs.account.answer
  · intro p hp
    have hp : p ∈ s.pending ++ s.writeQueue ∨ p ∈ news := by
      simp only [accessAndRespond, State.pending, List.mem_append] at hp ⊢
      tauto
    rcases hp with hp | hp
    · exact (hs.cut p hp).snoc
    · exact .new (hnews p hp).1 (hnews p hp).2
  · intro hbus
    have := hs.busy hbus
    show s.writeQueue ++ news ≠ []
    simp [this]

theorem recvTimingReq_ok (hs : s.OK c) (h : recvTimingReq c s r = .ok s') : s'.OK c := by
  unfold recvTimingReq at h
  split at h
  · cases h
    exact hs
  dsimp only at h
  split at h
  · obtain ⟨_, _, h⟩ := bind_eq_ok h
    split at h
    · cases h
      exact ⟨hs.writes, hs.room, hs.account, hs.cut, hs.busy⟩
    · exact addToReadQueue_ok hs h
  split at h
  · obtain ⟨_, _, h⟩ := bind_eq_ok h
    split at h
    · cases h
      exact ⟨hs.writes, hs.room, hs.account, hs.cut, hs.busy⟩
    · exact addToWriteQueue_ok hs h
  · cases h
    have haccount : Accounted (s.accepted.length + 1) (s.pending ++ []) s.helpers
        (s.responses ++ [s.accepted.length]) := by
      rw [List.append_nil]
      exact hs.account.answer
    have hnew : ∀ p ∈ ([] : List Burst), p.pkt = s.accepted.length ∧
        (p.addr, p.size) ∈ c.fragments r := by simp
    have hnone := hs.enter hnew (by simpa using hs.room) haccount
    rw [List.append_nil] at hnone
    exact hnone

theorem sendRetryReq_ok (hs : s.OK c) (h : sendRetryReq c s up = .ok s') : s'.OK c := by
  unfold sendRetryReq at h
  split at h
  · cases h
    exact hs
  · exact recvTimingReq_ok hs h

/-! ## Serving the queues -/

/-- The accounts after a burst has left the response queue. -/
theorem burstDone_accounted (h : Accounted n (p :: l) s.helpers s.responses) :
    Accounted n l (burstDone s p).helpers (burstDone s p).responses := by
  have hcounted := h.counted p List.mem_cons_self
  rw [left_cons_self] at hcounted
  unfold burstDone
  by_cases hsplit : p.split
  · rw [if_pos hsplit] at hcounted ⊢
    dsimp only
    split
    · rename_i hdone
      exact h.last (by omega) fun i hi => update_of_ne hi _ _
    · rename_i hmore
      exact h.more hsplit hmore
  · rw [if_neg hsplit] at hcounted ⊢
    exact h.last (by omega) fun _ _ => rfl

/-- `burstDone` changes the accounts only. -/
theorem burstDone_eq (s : State) (p : Burst) : burstDone s p =
    { s with helpers := (burstDone s p).helpers, responses := (burstDone s p).responses } := by
  unfold burstDone
  split
  · dsimp only
    split <;> rfl
  · rfl

theorem popResponse_ok {rest : List Burst} (hs : s.OK c) (hresp : s.respQueue = p :: rest) :
    (popResponse s p rest).OK c := by
  have haccount := hs.account
  have hroom := hs.room
  have hcut := hs.cut
  rw [State.pending, hresp] at haccount hcut
  rw [hresp, List.length_cons] at hroom
  have hdone : State.OK c { burstDone s p with respQueue := rest } := by
    have hbooks := burstDone_accounted haccount
    rw [burstDone_eq]
    refine ⟨hs.writes, ?_, hbooks, fun q hq => hcut q (List.mem_cons_of_mem _ hq), hs.busy⟩
    show s.readQueue.length + rest.length ≤ _
    omega
  unfold popResponse
  dsimp only
  split
  · exact ⟨hdone.writes, hdone.room, hdone.account, hdone.cut, hdone.busy⟩
  · exact hdone

theorem processRespondEvent_ok (hs : s.OK c) (h : processRespondEvent c s up = .ok s') :
    s'.OK c := by
  unfold processRespondEvent at h
  split at h
  · cases h
    exact hs
  rename_i p rest hresp
  have hpop := popResponse_ok hs hresp
  dsimp only at h
  split at h
  · refine sendRetryReq_ok ?_ h
    exact ⟨hpop.writes, hpop.room, hpop.account, hpop.cut, hpop.busy⟩
  · cases h
    exact hpop

theorem takeNext_eq_some {queue rest : List Burst} (h : takeNext queue choice = some (p, rest)) :
    ∃ i, queue[i]? = some p ∧ rest = queue.eraseIdx i := by
  unfold takeNext at h
  split at h
  · rename_i q rest' hmove
    cases h
    unfold moveToFront at hmove
    split at hmove
    · rename_i q' i hq'
      cases hmove
      exact ⟨i, hq', rfl⟩
    · cases hmove
  · cases h

theorem takeNext_perm {queue rest : List Burst} (h : takeNext queue choice = some (p, rest)) :
    queue.Perm (p :: rest) := by
  obtain ⟨i, hi, rfl⟩ := takeNext_eq_some h
  obtain ⟨hlt, rfl⟩ := List.getElem?_eq_some_iff.1 hi
  exact (List.getElem_cons_eraseIdx_perm hlt).symm

section

variable (hs : s.OK c)
include hs

theorem serveRead_ok (h : serveRead c s choice = .ok a) :
    a.1.OK c := by
  unfold serveRead at h
  split at h
  · split at h
    · rename_i hwrites
      cases h
      refine ⟨hs.writes, hs.room, hs.account, hs.cut, fun _ => ?_⟩
      simp only [Bool.and_eq_true, Bool.not_eq_true', List.isEmpty_eq_false_iff] at hwrites
      exact hwrites.1
    · split at h
      · cases h
        exact ⟨hs.writes, hs.room, hs.account, hs.cut, hs.busy⟩
      · cases h
        exact hs
  · split at h
    · cases h
      exact hs
    · rename_i p rest htake
      obtain ⟨_, _, h⟩ := bind_eq_ok h
      have hperm : ((s.respQueue ++ [p]) ++ rest).Perm s.pending := by
        rw [List.append_assoc]
        exact ((takeNext_perm htake).symm).append_left _
      have hmoved : State.OK c { s with readQueue := rest, respQueue := s.respQueue ++ [p] } := by
        refine ⟨hs.writes, ?_, hs.account.perm hperm, fun q hq => ?_, hs.busy⟩
        · have hlen := hperm.length_eq
          have hroom := hs.room
          simp only [State.pending, List.length_append] at hlen
          show rest.length + (s.respQueue ++ [p]).length ≤ _
          rw [List.length_append]
          omega
        · refine hs.cut q ?_
          have hq : q ∈ (s.respQueue ++ [p]) ++ rest ++ s.writeQueue := hq
          rw [List.mem_append, hperm.mem_iff] at hq
          exact List.mem_append.2 hq
      dsimp only at h
      split at h
      · rename_i hhigh
        cases h
        refine ⟨hmoved.writes, hmoved.room, hmoved.account, hmoved.cut, fun _ hnil => ?_⟩
        have hnil : s.writeQueue = [] := hnil
        rw [hnil] at hhigh
        exact absurd hhigh (Nat.not_lt_zero _)
      · cases h
        exact hmoved

theorem serveWrite_ok (h : serveWrite c s choice = .ok a) :
    a.1.OK c := by
  obtain ⟨_, _, h⟩ := bind_eq_ok h
  split at h
  · cases h
    exact hs
  rename_i p rest htake
  obtain ⟨_, _, h⟩ := bind_eq_ok h
  obtain ⟨i, hi, rfl⟩ := takeNext_eq_some htake
  have hwrites := hs.writes.erase hi
  have hcut : ∀ q ∈ s.pending ++ s.writeQueue.eraseIdx i, c.Cut s.accepted q := by
    intro q hq
    refine hs.cut q ?_
    rw [List.mem_append] at hq ⊢
    exact hq.imp_right List.mem_of_mem_eraseIdx
  dsimp only at h
  split at h
  · cases h
    exact ⟨hwrites, hs.room, hs.account, hcut, fun hbus => by cases hbus <;> contradiction⟩
  · rename_i hstay
    cases h
    refine ⟨hwrites, hs.room, hs.account, hcut, fun _ hnil => hstay ?_⟩
    have hnil : s.writeQueue.eraseIdx i = [] := hnil
    rw [hnil]
    rfl

theorem serve_ok (h : serve c s choice = .ok a) : a.1.OK c := by
  unfold serve at h
  split at h
  · exact serveRead_ok hs h
  · exact serveWrite_ok hs h

theorem turnBus_ok : (turnBus s).OK c := by
  unfold turnBus
  split
  · rename_i hbus
    exact ⟨hs.writes, hs.room, hs.account, hs.cut, fun _ => hs.busy (.inl hbus)⟩
  · exact ⟨hs.writes, hs.room, hs.account, hs.cut, fun hbus => by cases hbus <;> contradiction⟩
  · exact hs

theorem retryWrite_ok (h : retryWrite c s up = .ok s') : s'.OK c := by
  unfold retryWrite at h
  split at h
  · refine sendRetryReq_ok ?_ h
    exact ⟨hs.writes, hs.room, hs.account, hs.cut, hs.busy⟩
  · cases h
    exact hs

theorem processNextReqEvent_ok
    (h : processNextReqEvent c s busy choice up = .ok s') : s'.OK c := by
  unfold processNextReqEvent at h
  split at h
  · cases h
    exact hs
  obtain ⟨⟨s₁, goesOn⟩, hserve, h⟩ := bind_eq_ok h
  have hs₁ : s₁.OK c := serve_ok (turnBus_ok hs) hserve
  dsimp only at h
  split at h
  · exact retryWrite_ok hs₁ h
  · cases h
    exact hs₁

theorem step_keeps_ok (h : step c s e = .ok s') : s'.OK c := by
  cases e with
  | recvTimingReq r => exact recvTimingReq_ok hs h
  | processNextReqEvent busy choice up => exact processNextReqEvent_ok hs h
  | processRespondEvent up => exact processRespondEvent_ok hs h
  | drain | drainResume =>
    cases h
    exact ⟨hs.writes, hs.room, hs.account, hs.cut, hs.busy⟩

end

theorem Reaches.ok (h : Reaches c s) : s.OK c :=
  h.invariant State.ok_start fun _ _ hs _ => post_of_forall fun _ hstep => step_keeps_ok hs hstep

/-! ## Splitting and answering -/

/-- The pieces of a request are not empty, lie in one burst each, and share its bytes out, exactly
for the requests that fit.  In every run each request that was accepted has been answered once,
unless bursts of it are on their way, and then not yet; the write queue has one entry a burst and
`isInWriteQueue` is the set of their addresses; and the read buffer is large enough. -/
theorem splits_and_answers_exactly (c : Config) :
    (∀ r : Request, r.size ≠ 0 → (c.Splits r ↔ c.Fits r)) ∧
      ∀ s, Reaches c s → (∀ p ∈ s.respQueue ++ s.readQueue ++ s.writeQueue,
          ∃ r, s.accepted[p.pkt]? = some r ∧ (p.addr, p.size) ∈ c.fragments r) ∧
        (∀ i, s.responses.count i
          = if i < s.accepted.length ∧ ∀ p ∈ s.respQueue ++ s.readQueue, p.pkt ≠ i then 1 else 0) ∧
        s.writeQueue.Pairwise (fun p q => p.addr.toNat / c.bytes ≠ q.addr.toNat / c.bytes) ∧
        (∀ a, a ∈ s.isInWriteQueue ↔ ∃ p ∈ s.writeQueue, c.burstAlign p.addr = a) ∧
        s.readQueue.length + s.respQueue.length ≤ c.readBufferSize := by
  refine ⟨fun r hsize => Config.splits_iff hsize, fun s h =>
    ⟨h.ok.cut, fun i => ?_, ?_, fun a => h.ok.writes.mem_iff, h.ok.room⟩⟩
  · have hanswers := h.ok.account.count_responses i
    rw [hanswers]
    rfl
  · have hnodup := h.ok.writes.perm.nodup_iff.1 h.ok.writes.nodup
    refine (List.pairwise_map.1 hnodup).imp fun hne heq => hne ?_
    exact c.burstAlign_eq_iff.2 heq

namespace Scenario

def config : Config where
  burstSize := 64
  readBufferSize := 4
  writeBufferSize := 4
  writeHighThreshold := 3
  writeLowThreshold := 1
  minWritesPerSwitch := 1
  burstSize_pow := ⟨6, rfl⟩

/-- A read of eight bytes across a burst boundary. -/
def straddling : Request := { cmd := .readReq, addr := 60, size := 8 }

/-- A write that begins at address 1 and is as long as a size can be. -/
def longWrite : Request := { cmd := .writeReq, addr := 1, size := 0xffffffff }

end Scenario

open Scenario in
theorem straddling_split_and_answered : config.fragments straddling = [(60, 4), (64, 4)] ∧
      (∀ i, (∃ f ∈ config.fragments straddling, f.1.toNat ≤ i ∧ i < f.1.toNat + f.2.toNat) ↔
        60 ≤ i ∧ i < 68) ∧
      ∃ s, Reaches config s ∧ s.respQueue ++ s.readQueue = [] ∧ s.responses.count 0 = 1 := by
  obtain ⟨hsplit, hanswer⟩ := splits_and_answers_exactly config
  obtain ⟨s, hrun, haccepted, hpending⟩ := Post.exists_ok (show
    Post (run (step config) {} [.recvTimingReq straddling, .processNextReqEvent false (some 1) none,
        .processNextReqEvent false (some 0) none, .processRespondEvent none,
        .processRespondEvent none]) (fun _ => False)
      fun s => s.accepted.length = 1 ∧ s.respQueue ++ s.readQueue = [] by decide +kernel)
  have hreach : Reaches config s := Reach.start.of_meets (.of_forall fun _ _ _ => trivial) hrun
  refine ⟨by decide +kernel, ((hsplit straddling (by decide)).2 (by decide +kernel)).covers, s,
    hreach, hpending, ?_⟩
  rw [(hanswer s hreach).2.1 0, haccepted, hpending]
  rfl

open Scenario in
/-- The number of bursts of the long write wraps to zero: it is accepted and answered, and no byte
of it is queued. -/
theorem longWrite_has_no_bursts : longWrite.size ≠ 0 ∧ config.fragments longWrite = [] ∧
      ∃ s, Reaches config s ∧ s.accepted = [longWrite] ∧ s.responses = [0] ∧ s.writeQueue = [] := by
  obtain ⟨s, hrun, hend⟩ := Post.exists_ok (show
    Post (run (step config) {} [.recvTimingReq longWrite]) (fun _ => False)
      fun s => s.accepted = [longWrite] ∧ s.responses = [0] ∧ s.writeQueue = [] by decide +kernel)
  have hreach : Reaches config s := Reach.start.of_meets (.of_forall fun _ _ _ => trivial) hrun
  exact ⟨by decide, by decide +kernel, s, hreach, hend⟩

end Gem5Gpu.DRAM.Ctrl
