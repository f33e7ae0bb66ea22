import Gem5Gpu.GPU.LaneLedger

/-!
# Lane responses

Every handler of the load-store queue is one of the moves of the ledger, or leaves
the book as it is.  `lanes_are_answered_once` is the result for every run.
-/

namespace Gem5Gpu.GPU.LSQ

open Lib Function

variable {s : State} {c : Config}

/-! ## Handlers that leave the book -/

section Same

variable {c : Config} {s : State} {b w now : ℕ}

theorem book_modifyBuf {f : WarpInstBuffer → WarpInstBuffer}
    (hp : (f (s.bufs b)).laneRequestPkts = (s.bufs b).laneRequestPkts)
    (hi : (f (s.bufs b)).inst = (s.bufs b).inst) (ht : (f (s.bufs b)).type = (s.bufs b).type) :
    (s.modifyBuf b f).book = s.book := by
  simp only [State.book, State.modifyBuf, bufs_update_same WarpInstBuffer.laneRequestPkts _ hp,
    bufs_update_same WarpInstBuffer.inst _ hi, bufs_update_same WarpInstBuffer.type _ ht]

theorem finishTranslation_book (a : Access) : (finishTranslation c now a s).book = s.book := by
  have hbuf : (s.modifyBuf a.buf fun b => { b with
      translatedAccesses := b.translatedAccesses ++ [a] }).book = s.book :=
    book_modifyBuf rfl rfl rfl
  unfold finishTranslation
  dsimp only
  split
  · split
    · exact hbuf
    · exact hbuf
  · exact hbuf

theorem parkBlocked_book (c : Config) (now : ℕ) (s : State) (l : List Access) :
    (parkBlocked c now l s).book = s.book := by
  induction l generalizing s with
  | nil => rfl
  | cons a rest ih =>
    rw [parkBlocked]
    split
    · exact ih _
    · rfl

theorem popQueue_book : (popQueue c now w s).book = s.book := by
  unfold popQueue
  dsimp only
  split
  · rfl
  · split
    · rfl
    · obtain ⟨t, ht⟩ := foldl_pushToInjectBuffer c now (s.bufs _).translatedAccesses { s with
          perWarpInstructionQueues := update s.perWarpInstructionQueues w
            (s.perWarpInstructionQueues w).tail }
      rw [ht]
      rfl

theorem sendAccess_book (a : Access) (rest : List Access) :
    (sendAccess c now a rest s).book = s.book := by
  have hbuf : (s.modifyBuf a.buf fun b => { b with
      coalescedAccesses := b.coalescedAccesses.erase a }).book = s.book :=
    book_modifyBuf rfl rfl rfl
  unfold sendAccess
  dsimp only
  split
  · rw [popQueue_book]
    exact hbuf
  · exact hbuf

theorem injectLoop_book (width n : ℕ) : (injectLoop c now width n s).book = s.book := by
  induction width generalizing n s with
  | zero => rfl
  | succ width ih =>
    rw [injectLoop]
    have hpark := parkBlocked_book c now s s.injectBuffer
    generalize parkBlocked c now s.injectBuffer s = s' at hpark
    split
    · exact hpark
    · rename_i a rest hq
      split
      · cases n with
        | zero => exact hpark
        | succ n => exact (ih n).trans ((sendAccess_book a rest).trans hpark)
      · exact hpark

end Same

/-! ## Facts -/

section Facts

variable {c : Config} {place : Access → Place} {stage : ℕ → Stage} {s : State} {b : ℕ}

theorem Inv.inUse_iff (h : Inv c place stage s) : s.book.InUse c b ↔ (stage b).inUse = true := by
  have havailable : b ∈ s.availableWarpInstBufs ↔ stage b = .free ∧ b < c.warpInstBufPoolSize :=
    h.bufs.available.mem_iff
  have hdispatch : s.dispatchWarpInstBuf = some b ↔ stage b = .dispatch := h.bufs.dispatch b
  have hbound := h.bufs.bound b
  show b < _ ∧ b ∉ s.availableWarpInstBufs ∧ s.dispatchWarpInstBuf ≠ some b ↔ _
  rw [havailable, ne_eq, hdispatch]
  cases hst : stage b with
  | free | dispatch => simp [Stage.inUse]
  | queued w | issued | committing => simp [Stage.inUse, hbound (by rw [hst]; simp)]

theorem Inv.inj (h : Inv c place stage s) (hb : (stage b).inUse) :
    ∀ x, s.book.InUse c x → s.book.inst x = s.book.inst b → x = b :=
  fun x hx heq => h.prog.inj x b (h.inUse_iff.1 hx) hb heq

/-- All accesses of an instruction that waits to commit are ejected. -/
theorem Inv.done_of_committing (h : Inv c place stage s) (hb : stage b = .committing) :
    ∀ i : Inst, s.book.insts[s.book.inst b]? = some i → ∀ a ∈ i.accesses, a ∈ s.book.ejected := by
  intro i hi a ha
  obtain ⟨hinst, -⟩ := (h.prog.wf _ i hi).1 a ha
  have hnone : place a ≠ .none := h.prog.dispatched_iff.1 ⟨_, i, hi, ha⟩
  refine h.accs.ejected.mem_iff.2 ?_
  by_contra hdone
  have hlive : (s.bufs a.buf).inst = a.inst := h.prog.live a hnone hdone
  have huse : (stage a.buf).inUse = true := by
    by_contra hno
    refine (h.prog.empty (a := a) (b := a.buf) (fun w hw => hno (by rw [hw]; rfl))
      (fun hw => hno (by rw [hw]; rfl)) rfl).elim hnone hdone
  have hbuf : a.buf = b := h.prog.inj a.buf b huse (by rw [hb]; rfl) (hlive.trans hinst)
  exact (h.prog.empty (a := a) (b := b) (fun w => by rw [hb]; simp) (by rw [hb]; simp)
    hbuf).elim hnone hdone

end Facts

/-! ## Lane requests and dispatch -/

section Requests

variable {c : Config} {place : Access → Place} {stage : ℕ → Stage} {s : State} {b : ℕ}

/-- The commit flags are as before. -/
def SameCommit (B B' : Book) : Prop :=
  B'.commit = B.commit ∧ B'.scheduled = B.scheduled ∧ B'.blocked = B.blocked ∧ B'.owes = B.owes

theorem SameCommit.commits {B B' : Book} (h : SameCommit B B') (hc : Commits B) : Commits B' := by
  obtain ⟨h1, h2, h3, h4⟩ := h
  exact ⟨by rw [h1, h2, h3]; exact hc.goes, by rw [h1, h2, h3, h4]; exact hc.waits⟩

theorem Inv.dispatch_bounds (h : Inv c place stage s) (hd : s.dispatchWarpInstBuf = some b) :
    b < c.warpInstBufPoolSize ∧ b ∉ s.availableWarpInstBufs := by
  have hst : stage b = .dispatch := (h.bufs.dispatch b).1 hd
  refine ⟨h.bufs.bound b (by rw [hst]; simp), fun hmem => ?_⟩
  have hfree := (h.bufs.available.mem_iff.1 hmem).1
  rw [hst] at hfree
  cases hfree

theorem book_setLane (lane : ℕ) (pkt : Option LanePkt) :
    (s.modifyBuf b (·.setLane lane pkt)).book = { s.book with
      pkts := update s.book.pkts b (update (s.book.pkts b) lane pkt) } := by
  simp only [State.book, State.modifyBuf, bufs_update WarpInstBuffer.laneRequestPkts,
    bufs_update_same WarpInstBuffer.inst s.bufs (b := b) (B := (s.bufs b).setLane lane pkt) rfl,
    bufs_update_same WarpInstBuffer.type s.bufs (b := b) (B := (s.bufs b).setLane lane pkt) rfl]
  rfl

theorem addLaneRequest_ledger (h : Sound c s) (hl : Ledger c s.book) {lane : ℕ}
    (hlane : lane < c.warpSize) (now : ℕ) (pkt : LanePkt) :
    Post (addLaneRequest now lane pkt s) (fun _ => True) fun r =>
      Ledger c r.1.book ∧ SameCommit s.book r.1.book := by
  obtain ⟨place, stage, h⟩ := h
  refine Post.check (fun _ => ?_) fun _ => trivial
  split
  · rename_i hd
    split
    · exact ⟨hl, rfl, rfl, rfl, rfl⟩
    · rename_i b rest hq
      refine Post.check (fun hnone => ?_) fun _ => trivial
      have hnodup : (b :: rest).Nodup := hq ▸ h.bufs.available.1
      have hnew := (List.nodup_cons.1 hnodup).1
      have hb : b < c.warpInstBufPoolSize := (h.bufs.available.mem_iff.1 (by
        show b ∈ s.availableWarpInstBufs
        rw [hq]
        exact List.mem_cons_self)).2
      have htake := hl.take hq hd (fun x =>
          ((s.modifyBuf b (·.initializeInstBuffer now pkt)).bufs x).type)
        fun x hx => by simp only [State.modifyBuf, update_of_ne hx]; rfl
      obtain ⟨s₁, hs₁⟩ : ∃ s₁ : State, s₁ = { s.modifyBuf b (·.initializeInstBuffer now pkt) with
        dispatchWarpInstBuf := some b
        availableWarpInstBufs := rest
        numActiveWarpInstBuffers := s.numActiveWarpInstBuffers + 1 } := ⟨_, rfl⟩
      have hbook : s₁.book = { s.book with
          available := rest
          active := s.book.active + 1
          dispatch := some b
          type := fun x => ((s.modifyBuf b (·.initializeInstBuffer now pkt)).bufs x).type } := by
        rw [hs₁]
        simp only [State.book, State.modifyBuf, bufs_update_same WarpInstBuffer.inst s.bufs (b := b)
            (B := (s.bufs b).initializeInstBuffer now pkt) rfl,
          bufs_update_same WarpInstBuffer.laneRequestPkts s.bufs (b := b)
            (B := (s.bufs b).initializeInstBuffer now pkt) rfl]
      rw [← hs₁] at hnone ⊢
      rw [← hbook] at htake
      have hreq := htake.request pkt (by rw [hbook]) (by rw [hbook]; exact ⟨hb, hnew⟩) hlane hnone
      refine ⟨?_, by rw [hs₁]; exact ⟨rfl, rfl, rfl, rfl⟩⟩
      show Ledger c { (s₁.modifyBuf b (·.setLane lane (some pkt))).book with
        requests := s₁.requests ++ [(lane, pkt)] }
      rw [book_setLane]
      exact hreq
  · rename_i b hd
    split
    · refine Post.check (fun hnone => ?_) fun _ => trivial
      have hreq := hl.request pkt hd (h.dispatch_bounds hd) hlane hnone
      refine ⟨?_, rfl, rfl, rfl, rfl⟩
      show Ledger c { (s.modifyBuf b (·.setLane lane (some pkt))).book with
        requests := s.requests ++ [(lane, pkt)] }
      rw [book_setLane]
      exact hreq
    · exact ⟨hl, rfl, rfl, rfl, rfl⟩

theorem Ledger.flags {B : Book} (h : Ledger c B) (commit : List ℕ) (scheduled blocked owes : Bool) :
    Ledger c { B with commit, scheduled, blocked, owes } :=
  { h with }

theorem pushToCommitBuffer_ledger {s' : State} (hl : Ledger c s.book) (hc : Commits s.book)
    (hs : pushToCommitBuffer b s = .ok s') : Ledger c s'.book ∧ Commits s'.book := by
  unfold pushToCommitBuffer at hs
  dsimp only at hs
  split at hs
  · rename_i hidle
    obtain ⟨_, -, hs⟩ := bind_eq_ok hs
    cases hs
    refine ⟨hl.flags _ _ _ _, fun _ => .inl rfl, fun hb => ?_⟩
    simp only [Bool.and_eq_true, Bool.not_eq_true'] at hidle
    exact absurd (hidle.2.symm.trans hb) (by simp)
  · rename_i hbusy
    cases hs
    refine ⟨hl.flags _ _ _ _, fun _ => ?_, fun hb => ?_⟩
    · show s.commitScheduled = true ∨ s.writebackBlocked = true
      revert hbusy
      cases s.commitScheduled <;> cases s.writebackBlocked <;> simp
    · exact ⟨(hc.waits hb).1, by simp [State.book], (hc.waits hb).2.2⟩

theorem clearFenceAtQueueHead_ledger {w : ℕ} {s' : State} (hl : Ledger c s.book)
    (hc : Commits s.book) (hs : clearFenceAtQueueHead w s = .ok s') :
    Ledger c s'.book ∧ Commits s'.book := by
  obtain ⟨b, -, -, -, hs⟩ := clearFenceAtQueueHead_ok hs
  exact pushToCommitBuffer_ledger (s := { s with
    perWarpInstructionQueues := update s.perWarpInstructionQueues w [] }) hl hc hs

theorem coalesced_accesses (B : WarpInstBuffer) (w n b : ℕ) (paddr : ℕ → ℕ) :
    Inst.Coalesced ⟨w, B.type, B.lanePkts c.warpSize, B.accesses c.warpSize n b paddr⟩ where
  one := fun lane pkt pkt' hp hp' => by
    have h := (WarpInstBuffer.mem_lanePkts.1 hp).2
    have h' := (WarpInstBuffer.mem_lanePkts.1 hp').2
    exact Option.some.inj (h.symm.trans h')
  covers := fun _ lane pkt hp => WarpInstBuffer.accesses_cover hp
  inRange := fun ht a ha lane hlane pkt hp => WarpInstBuffer.lane_inRange ht ha hlane hp

theorem coalesced_fence (B : WarpInstBuffer) (w : ℕ) :
    Inst.Coalesced ⟨w, .fence, B.lanePkts c.warpSize, []⟩ where
  one := fun lane pkt pkt' hp hp' => by
    have h := (WarpInstBuffer.mem_lanePkts.1 hp).2
    have h' := (WarpInstBuffer.mem_lanePkts.1 hp').2
    exact Option.some.inj (h.symm.trans h')
  covers := fun hf => absurd rfl hf
  inRange := fun hf => by cases hf

/-- The book after the dispatch buffer became the instruction `i`. -/
theorem book_dispatch {i : Inst} {f : WarpInstBuffer → WarpInstBuffer} (queues : ℕ → List ℕ)
    (translating : List Access) (hp : (f (s.bufs b)).laneRequestPkts = (s.bufs b).laneRequestPkts)
    (hi : (f (s.bufs b)).inst = s.insts.length) (ht : (f (s.bufs b)).type = (s.bufs b).type) :
    State.book { s.modifyBuf b f with
      perWarpInstructionQueues := queues
      dispatchWarpInstBuf := none
      insts := s.insts ++ [i]
      translating := translating } = { s.book with
        dispatch := none
        insts := s.book.insts ++ [i]
        inst := update s.book.inst b s.book.insts.length } := by
  simp only [State.book, State.modifyBuf, bufs_update_same WarpInstBuffer.laneRequestPkts _ hp,
    bufs_update WarpInstBuffer.inst, hi, bufs_update_same WarpInstBuffer.type _ ht]

theorem dispatchWarpInst_ledger (h : Sound c s) (hl : Ledger c s.book) (hc : Commits s.book)
    (paddr : ℕ → ℕ) :
    Post (dispatchWarpInst c paddr s) (fun _ => True) fun s' =>
      Ledger c s'.book ∧ Commits s'.book := by
  obtain ⟨place, stage, h⟩ := h
  refine post_of_forall fun s' hs => ?_
  unfold dispatchWarpInst at hs
  split at hs
  · cases hs
  rename_i b hd
  dsimp only at hs
  have hb := h.dispatch_bounds hd
  have hcollecting : (s.bufs b).lanePkts c.warpSize = s.book.collecting c := by
    unfold Book.collecting
    rw [show s.book.dispatch = some b from hd]
    rfl
  split at hs
  · rename_i hfence
    have htype : (s.bufs b).type = .fence := by
      simpa [WarpInstBuffer.isFence] using hfence
    have hdisp := hl.dispatch (i := ⟨(s.bufs b).warpId, .fence, (s.bufs b).lanePkts c.warpSize, []⟩)
      hd hb htype hcollecting (coalesced_fence _ _) (by simp)
    have hbook := book_dispatch (s := s) (b := b)
      (i := ⟨(s.bufs b).warpId, .fence, (s.bufs b).lanePkts c.warpSize, []⟩)
      (f := fun B => { B with inst := s.insts.length })
      (update s.perWarpInstructionQueues (s.bufs b).warpId
        (s.perWarpInstructionQueues (s.bufs b).warpId ++ [b])) s.translating rfl rfl rfl
    rw [← hbook] at hdisp
    split at hs
    · exact clearFenceAtQueueHead_ledger hdisp ⟨hc.goes, hc.waits⟩ hs
    · cases hs
      exact ⟨hdisp, hc.goes, hc.waits⟩
  · have hnew : ∀ a ∈ (s.bufs b).accesses c.warpSize s.insts.length b paddr, a ∉ s.ejected := by
      intro a ha hej
      have hdone : place a = .done := h.accs.ejected.mem_iff.1 hej
      obtain ⟨j, hj, -⟩ := (h.prog.known a).1 (by rw [hdone]; simp)
      have hlen : a.inst < s.insts.length := (List.getElem?_eq_some_iff.1 hj).1
      have hinst := (mem_accesses ha).1
      omega
    have hdisp := hl.dispatch (i := ⟨(s.bufs b).warpId, (s.bufs b).type,
        (s.bufs b).lanePkts c.warpSize, (s.bufs b).accesses c.warpSize s.insts.length b paddr⟩)
      hd hb rfl hcollecting (coalesced_accesses _ _ _ _ _) hnew
    have hbook := book_dispatch (s := s) (b := b) (i := ⟨(s.bufs b).warpId, (s.bufs b).type,
        (s.bufs b).lanePkts c.warpSize, (s.bufs b).accesses c.warpSize s.insts.length b paddr⟩)
      (f := fun B => { B with
        inst := s.insts.length
        coalescedAccesses := (s.bufs b).accesses c.warpSize s.insts.length b paddr })
      (update s.perWarpInstructionQueues (s.bufs b).warpId
        (s.perWarpInstructionQueues (s.bufs b).warpId ++ [b]))
      (s.translating ++ (s.bufs b).accesses c.warpSize s.insts.length b paddr)
      rfl rfl rfl
    rw [← hbook] at hdisp
    cases hs
    exact ⟨hdisp, hc.goes, hc.waits⟩

end Requests

/-! ## Responses -/

section Responses

variable {c : Config} {place : Access → Place} {stage : ℕ → Stage} {s : State} {a : Access} {b : ℕ}

theorem recvResponsePkt_ledger (h : Sound c s) (hl : Ledger c s.book) (ha : a ∈ s.cache)
    (now : ℕ) (data : List Byte) :
    Post (recvResponsePkt c now a { s with
        cache := s.cache.erase a
        data := update s.data a data }) (fun _ => True) fun s' =>
      Ledger c s'.book ∧ SameCommit s.book s'.book := by
  obtain ⟨place, stage, h⟩ := h
  have hnot : ∀ x ∈ s.ejected, update s.data a data x = s.data x := by
    intro x hx
    refine update_of_ne ?_ ..
    rintro rfl
    have hcache : place x = .cache := h.accs.cache.mem_iff.1 ha
    have hdone : place x = .done := h.accs.ejected.mem_iff.1 hx
    rw [hcache] at hdone
    cases hdone
  have hanswer := hl.answer hnot
  refine Post.check (fun _ => ?_) fun _ => trivial
  dsimp only
  split
  · exact ⟨hanswer, rfl, rfl, rfl, rfl⟩
  · exact Post.check (fun _ => ⟨hanswer, rfl, rfl, rfl, rfl⟩) fun _ => trivial

/-- What the response of an access does to the packets of its buffer. -/
theorem finishAccess_pkts (B : WarpInstBuffer) (a : Access) (data : List Byte) (lane : ℕ) :
    (B.finishAccess a data).1.type = B.type ∧
      (B.finishAccess a data).1.laneRequestPkts lane = if lane ∈ a.activeLanes then
        Ledger.answerLane B.type a data (B.laneRequestPkts lane) else B.laneRequestPkts lane := by
  have hlane (B : WarpInstBuffer) (l : ℕ) : (WarpInstBuffer.finishLane a data B l).type = B.type ∧
        ∀ lane, (WarpInstBuffer.finishLane a data B l).laneRequestPkts lane
          = if lane = l then Ledger.answerLane B.type a data (B.laneRequestPkts lane)
            else B.laneRequestPkts lane := by
    unfold WarpInstBuffer.finishLane Ledger.answerLane
    cases ht : B.type with
    | load =>
      refine ⟨ht, fun lane => ?_⟩
      by_cases hl : lane = l
      · subst hl
        simp only [WarpInstBuffer.setLane, update_self, if_true]
        rfl
      · simp only [WarpInstBuffer.setLane, update_of_ne hl, if_neg hl]
    | store =>
      refine ⟨ht, fun lane => ?_⟩
      by_cases hl : lane = l
      · subst hl
        simp only [WarpInstBuffer.setLane, update_self, if_true]
      · simp only [WarpInstBuffer.setLane, update_of_ne hl, if_neg hl]
    | fence | atomic => exact ⟨ht, fun lane => by simp⟩
  have hidem (type : InstType) (o : Option LanePkt) :
      Ledger.answerLane type a data (Ledger.answerLane type a data o)
        = Ledger.answerLane type a data o := by
    cases type <;> cases o <;> rfl
  have hfold : ∀ (l : List ℕ) (B : WarpInstBuffer),
      (l.foldl (WarpInstBuffer.finishLane a data) B).type = B.type ∧
        (l.foldl (WarpInstBuffer.finishLane a data) B).laneRequestPkts lane = if lane ∈ l then
          Ledger.answerLane B.type a data (B.laneRequestPkts lane) else B.laneRequestPkts lane := by
    intro l
    induction l with
    | nil => exact fun B => ⟨rfl, by simp⟩
    | cons x l ih =>
      intro B
      obtain ⟨htype, hpkts⟩ := ih (WarpInstBuffer.finishLane a data B x)
      obtain ⟨hx, hxp⟩ := hlane B x
      rw [List.foldl_cons]
      refine ⟨htype.trans hx, ?_⟩
      rw [hpkts, hx, hxp lane]
      by_cases hlx : lane = x
      · subst hlx
        simp [hidem]
      · simp [hlx]
  exact hfold a.activeLanes B

theorem ejectAccess_ledger {rest : List Access} (h : Sound c s) (hl : Ledger c s.book)
    (hc : Commits s.book) (hq : s.ejectBuffer = a :: rest) :
    Post (ejectAccess a rest s) (fun _ => True) fun s' =>
      Ledger c s'.book ∧ Commits s'.book := by
  obtain ⟨place, stage, h⟩ := h
  refine post_of_forall fun s' hs => ?_
  have hplace := h.accs.place_eject hq
  have hnone : place a ≠ .none := by rw [hplace]; simp
  have hstage : (stage a.buf).inUse = true := by
    rcases h.prog.sent a (.inr hplace) with hst | hst <;> rw [hst] <;> rfl
  have hinst : (s.bufs a.buf).inst = a.inst := h.prog.live a hnone (by rw [hplace]; simp)
  obtain ⟨i, hi, hmem⟩ := (h.prog.known a).1 hnone
  obtain ⟨s₁, hs₁⟩ : ∃ s₁, s₁ = s.eject a rest := ⟨_, rfl⟩
  unfold State.eject at hs₁
  have hfinish := hl.finish (a := a) (fun x => (s₁.bufs x).laneRequestPkts) (h.inUse_iff.2 hstage)
    hinst hi hmem (fun n j hj ha => ((h.prog.wf n j hj).1 a ha).1.symm)
    (fun x hx heq => h.inj hstage x hx (heq.trans hinst.symm))
    (fun x hx => by rw [hs₁]; simp only [update_of_ne hx]; rfl)
    (fun lane => by
      rw [hs₁]
      simp only [update_self]
      exact (finishAccess_pkts (s.bufs a.buf) a (s.data a) lane).2)
  have hbook : s₁.book = { s.book with
      ejected := s.book.ejected ++ [a]
      pkts := fun x => (s₁.bufs x).laneRequestPkts } := by
    rw [hs₁]
    simp only [State.book, bufs_update_same WarpInstBuffer.inst _
        (finishAccess_same (s.bufs a.buf) a (s.data a)).1,
      bufs_update_same WarpInstBuffer.type _ (finishAccess_pkts (s.bufs a.buf) a (s.data a) 0).1]
  rw [← hbook] at hfinish
  have hc₁ : Commits s₁.book := by
    rw [hbook]
    exact ⟨hc.goes, hc.waits⟩
  unfold ejectAccess at hs
  dsimp only at hs
  rw [← hs₁] at hs
  split at hs
  · obtain ⟨s₂, hpush, hs⟩ := bind_eq_ok hs
    obtain ⟨hl₂, hc₂⟩ := pushToCommitBuffer_ledger hfinish hc₁ hpush
    split at hs
    · cases hs
      exact ⟨hl₂, hc₂⟩
    · split at hs
      · exact clearFenceAtQueueHead_ledger hl₂ hc₂ hs
      · cases hs
        exact ⟨hl₂, hc₂⟩
  · cases hs
    exact ⟨hfinish, hc₁⟩

theorem ejectLoop_ledger (width : ℕ) (h : Sound c s) (hl : Ledger c s.book) (hc : Commits s.book) :
    Post (ejectLoop width s) (fun _ => True) fun s' => Ledger c s'.book ∧ Commits s'.book := by
  induction width generalizing s with
  | zero => exact ⟨hl, hc⟩
  | succ width ih =>
    rw [ejectLoop]
    split
    · exact ⟨hl, hc⟩
    · rename_i a rest hq
      refine Post.bind_eq (fun _ _ => trivial) fun s₁ hs₁ => ?_
      obtain ⟨hl₁, hc₁⟩ := (ejectAccess_ledger h hl hc hq).elim hs₁
      exact ih ((ejectAccess_sound h hq).elim hs₁).1 hl₁ hc₁

end Responses

/-! ## Lane responses -/

section Commit

variable {c : Config} {place : Access → Place} {stage : ℕ → Stage} {s : State} {b : ℕ}

/-- Lanes are answered in order; all of them, unless the core refuses one. -/
theorem respondLanes_ledger (lanes : List ℕ) (n : ℕ) (h : Inv c place stage s)
    (hl : Ledger c s.book) (hb : stage b = .committing) (htype : (s.bufs b).type ≠ .store) :
    Ledger c (respondLanes b lanes n s).1.book ∧
      SameCommit s.book (respondLanes b lanes n s).1.book ∧
      ((respondLanes b lanes n s).2 = true → ∀ lane,
        lane ∈ lanes ∨ (s.bufs b).laneRequestPkts lane = none →
          ((respondLanes b lanes n s).1.bufs b).laneRequestPkts lane = none) := by
  induction lanes generalizing n s with
  | nil => exact ⟨hl, ⟨rfl, rfl, rfl, rfl⟩, fun _ lane hlane => hlane.resolve_left (by simp)⟩
  | cons x lanes ih =>
    rw [respondLanes]
    cases hpkt : (s.bufs b).laneRequestPkts x with
    | none =>
      obtain ⟨hl', hsame, hall⟩ := ih n h hl htype
      refine ⟨hl', hsame, fun hdone lane hlane => hall hdone lane ?_⟩
      rcases hlane with hlane | hlane
      · rcases List.mem_cons.1 hlane with rfl | hlane
        · exact .inr hpkt
        · exact .inl hlane
      · exact .inr hlane
    | some pkt =>
      cases n with
      | zero => exact ⟨hl, ⟨rfl, rfl, rfl, rfl⟩, fun hdone => absurd hdone (by simp)⟩
      | succ n =>
        have hrespond := hl.respond (h.inUse_iff.2 (by rw [hb]; rfl)) hpkt htype
          (h.inj (by rw [hb]; rfl)) (h.done_of_committing hb)
        obtain ⟨s₁, hs₁⟩ : ∃ s₁ : State, s₁ = { s.modifyBuf b (·.setLane x none) with
          responses := s.responses ++ [⟨(s.bufs b).inst, x, pkt⟩] } := ⟨_, rfl⟩
        have hbook : s₁.book = { s.book with
            responses := s.book.responses ++ [⟨s.book.inst b, x, pkt⟩]
            pkts := update s.book.pkts b (update (s.book.pkts b) x none) } := by
          have hset := book_setLane (s := s) (b := b) x none
          rw [hs₁]
          show ({ (s.modifyBuf b (·.setLane x none)).book with
            responses := s.responses ++ [⟨(s.bufs b).inst, x, pkt⟩] } : Book) = _
          rw [hset]
          rfl
        rw [← hbook] at hrespond
        have hinv : Inv c place stage s₁ := by
          rw [hs₁]
          exact { h.setLane b x none with }
        have hself : s₁.bufs b = (s.bufs b).setLane x none := by
          rw [hs₁]
          exact update_self ..
        obtain ⟨hl', hsame, hall⟩ := ih n hinv hrespond (by rw [hself]; exact htype)
        subst hs₁
        refine ⟨hl', ?_, fun hdone lane hlane => hall hdone lane ?_⟩
        · rw [hbook] at hsame
          exact hsame
        · rw [hself]
          by_cases hx : lane = x
          · right
            rw [hx]
            exact update_self ..
          · rcases hlane with hlane | hlane
            · exact .inl ((List.mem_cons.1 hlane).resolve_left hx)
            · right
              show update (s.bufs b).laneRequestPkts x none lane = none
              rwa [update_of_ne hx]

theorem processFlush_ledger (accepted : Bool) (hl : Ledger c s.book) (hc : Commits s.book) :
    Post (processFlush c accepted s) (fun _ => True) fun s' =>
      Ledger c s'.book ∧ Commits s'.book := by
  refine Post.check (fun _ => ?_) fun _ => trivial
  split
  · exact Post.check (fun _ => ⟨hl, hc⟩) fun _ => trivial
  · exact Post.check (fun _ => ⟨hl, hc⟩) fun _ => trivial

/-- The end of a commit: all slots of the buffer are empty, or the core refused. -/
theorem commitResult_ledger {rest : List ℕ} {flush done : Bool} (h : Inv c place stage s)
    (hl : Ledger c s.book) (hq : s.commitInstBuffer = b :: rest)
    (hsched : s.commitScheduled = false) (hblocked : s.writebackBlocked = false)
    (hempty : done = true → ∀ lane, (s.bufs b).laneRequestPkts lane = none) :
    Post (commitResult c flush b rest s done) (fun _ => True) fun s' =>
      Ledger c s'.book ∧ Commits s'.book := by
  unfold commitResult
  split
  · refine Post.check (fun _ => ⟨hl.flags _ _ _ _, fun _ => .inr rfl,
      fun _ => ⟨hsched, ?_, rfl⟩⟩) fun _ => trivial
    show s.commitInstBuffer ≠ []
    rw [hq]
    simp
  · rename_i hdone
    refine Post.check (fun _ => ?_) fun _ => trivial
    have hst : stage b = .committing := h.bufs.commit.mem_iff.1 (by
      show b ∈ s.commitInstBuffer
      rw [hq]
      exact List.mem_cons_self)
    have hretire := hl.retire (h.inUse_iff.2 (by rw [hst]; rfl)) h.bufs.available.1
      (fun x hx => (h.bufs.available.mem_iff.1 hx).2) (h.inj (by rw [hst]; rfl))
      (hempty (by simpa using hdone)) rest (!rest.isEmpty)
    have hcommits : Commits { s.book with
        committed := s.book.committed ++ [s.book.inst b]
        available := s.book.available ++ [b]
        active := s.book.active - 1
        commit := rest
        scheduled := !rest.isEmpty } := by
      refine ⟨fun hne => .inl ?_, fun hb => ?_⟩
      · simpa using hne
      · exact absurd (hblocked.symm.trans hb) (by simp)
    dsimp only
    split
    · exact processFlush_ledger flush hretire hcommits
    · exact ⟨hretire, hcommits⟩

theorem commitWarpInst_ledger (n : ℕ) (flush : Bool) (h : Sound c s) (hl : Ledger c s.book)
    (hsched : s.commitScheduled = false) :
    Post (commitWarpInst c n flush s) (fun _ => True) fun s' =>
      Ledger c s'.book ∧ Commits s'.book := by
  obtain ⟨place, stage, h⟩ := h
  refine Post.check (fun hblocked => ?_) fun _ => trivial
  split
  · trivial
  rename_i b rest hq
  have hst : stage b = .committing := h.bufs.commit.mem_iff.1 (by
    show b ∈ s.commitInstBuffer
    rw [hq]
    exact List.mem_cons_self)
  split
  · rename_i htype
    exact commitResult_ledger h hl hq hsched hblocked fun _ =>
      hl.store_empty (h.inUse_iff.2 (by rw [hst]; rfl)) htype (h.done_of_committing hst)
  · rename_i htype
    obtain ⟨hinv, -, hcommit⟩ := respondLanes_inv (b := b) (List.range c.warpSize) n h
    obtain ⟨hl', hsame, hall⟩ :=
      respondLanes_ledger (b := b) (List.range c.warpSize) n h hl hst htype
    refine commitResult_ledger hinv hl' (hcommit.trans hq) (hsame.2.1.trans hsched)
      (hsame.2.2.1.trans hblocked) fun hdone lane => hall hdone lane ?_
    by_cases hlane : lane < c.warpSize
    · exact .inl (List.mem_range.2 hlane)
    · exact .inr (hl.lanes b lane (by omega))

end Commit

/-! ## Runs -/

theorem initial_ledger (c : Config) :
    Ledger c (State.book (.initial c)) ∧ Commits (State.book (.initial c)) := by
  refine ⟨?_, fun hne => absurd rfl hne, fun hb => by cases hb⟩
  have hidle : ∀ b, ¬Book.InUse c (State.book (.initial c)) b := by
    rintro b ⟨hlt, hno, -⟩
    exact hno (List.mem_range.2 hlt)
  exact {
    count := by simp [State.book, State.initial]
    empty := fun _ _ _ => rfl
    lanes := fun _ _ _ => rfl
    requests := .refl _
    coalesced := fun i hi => by cases hi
    known := fun r hr => by cases hr
    held := fun b hb => absurd hb (hidle b)
    retired := fun n hn => by cases hn
    whole := fun n hn => by cases hn
    nodup := List.nodup_nil }

theorem step_ledger (e : Event) (h : Sound c s) (hl : Ledger c s.book) (hc : Commits s.book) :
    Post (step c s e) (fun _ => True) fun s' => Ledger c s'.book ∧ Commits s'.book := by
  have hfields {s₁ : State} (heq : ∀ place stage, Inv c place stage s → Inv c place stage s₁) :
      Sound c s₁ := by
    obtain ⟨place, stage, h⟩ := h
    exact ⟨place, stage, heq place stage h⟩
  have hsame {s' : State} (h' : Ledger c s'.book ∧ SameCommit s.book s'.book) :
      Ledger c s'.book ∧ Commits s'.book := ⟨h'.1, h'.2.commits hc⟩
  have hbook {s' : State} (heq : s'.book = s.book) : Ledger c s'.book ∧ Commits s'.book := by
    rw [heq]
    exact ⟨hl, hc⟩
  cases e with
  | laneRequest now lane pkt =>
    refine Post.check (fun hlane => ?_) fun _ => trivial
    exact (addLaneRequest_ledger h hl hlane now pkt).bind fun r hr => hsame hr
  | dispatch paddr => exact dispatchWarpInst_ledger h hl hc paddr
  | translated now a =>
    exact Post.check (fun _ => hbook (finishTranslation_book a)) fun _ => trivial
  | inject now n =>
    refine Post.check (fun _ => Post.check (fun _ => ?_) fun _ => trivial) fun _ => trivial
    exact hbook (injectLoop_book (s := { s with injectScheduled := false }) c.injectWidth n)
  | retryInject =>
    exact Post.check (fun _ => Post.check (fun _ => hbook rfl) fun _ => trivial) fun _ => trivial
  | response now a data =>
    refine Post.check (fun ha => ?_) fun _ => trivial
    exact (recvResponsePkt_ledger h hl ha now data).imp fun s' => hsame
  | eject =>
    have hsound : Sound c { s with ejectScheduled := false } := hfields fun _ _ h => { h with }
    refine Post.check (fun _ => Post.check (fun _ => ?_) fun _ => trivial) fun _ => trivial
    exact ejectLoop_ledger c.ejectWidth hsound hl hc
  | commit n flush =>
    have hsound : Sound c { s with commitScheduled := false } := hfields fun _ _ h => { h with }
    exact Post.check (fun _ => commitWarpInst_ledger n flush hsound (hl.flags _ _ _ _) rfl)
      fun _ => trivial
  | retryCommit =>
    refine Post.check (fun _ => Post.check (fun _ => ?_) fun _ => trivial) fun _ => trivial
    refine ⟨hl.flags _ _ _ _, fun hne => .inl ?_, fun hb => by cases hb⟩
    simpa [State.book] using hne
  | flush accepted =>
    show Post (addFlushRequest c accepted s) _ _
    unfold addFlushRequest
    dsimp only
    split
    · exact processFlush_ledger (s := { s with flushing := true }) accepted hl hc
    · exact ⟨hl, hc⟩
  | flushed =>
    exact Post.check (fun _ => Post.check (fun _ => ⟨hl, hc⟩) fun _ => trivial) fun _ => trivial

theorem Reaches.ledger (h : Reaches c s) : Ledger c s.book ∧ Commits s.book := by
  have hall : (Sound c s ∧ Injects s) ∧ Ledger c s.book ∧ Commits s.book :=
    Reach.invariant (I := fun s => (Sound c s ∧ Injects s) ∧ Ledger c s.book ∧ Commits s.book) h
      ⟨initial_sound c, initial_ledger c⟩ fun s e hI _ =>
        ((step_sound e hI.1).and (step_ledger e hI.1.1 hI.2.1 hI.2.2)).mono (fun _ h => h)
          fun _ _ => trivial
  exact hall.2

section Result

variable {c : Config} {B : Book} {n lane : ℕ} {i : Inst}

/-- A response that a lane got is its answer. -/
theorem Book.Slot.of_mem {o : Option LanePkt} {r : Response} (h : B.Slot n i lane o)
    (hr : r ∈ B.answers n lane) : ∃ pkt, (lane, pkt) ∈ i.lanes ∧ B.Answered i lane pkt r.pkt := by
  cases o with
  | some pkt' =>
    rw [h.1] at hr
    cases hr
  | none =>
    rcases h with ⟨hnil, -⟩ | ⟨pkt, pkt', hmem, hone, hans⟩
    · rw [hnil] at hr
      cases hr
    · rw [hone] at hr
      rw [List.mem_singleton.1 hr]
      exact ⟨pkt, hmem, hans⟩

/-- Every lane of a dispatched instruction has a slot. -/
theorem Ledger.slot (h : Ledger c B) (hi : B.insts[n]? = some i) (lane : ℕ) :
    ∃ o, B.Slot n i lane o ∧ (o = none ∨ n ∉ B.committed ∧
      ∃ b, B.InUse c b ∧ B.inst b = n ∧ B.pkts b lane = o) := by
  rcases h.whole n (List.getElem?_eq_some_iff.1 hi).1 with hn | ⟨b, hb, rfl⟩
  · obtain ⟨⟨j, hj, hslot⟩, -⟩ := h.retired n hn
    obtain rfl : i = j := Option.some.inj (hi.symm.trans hj)
    exact ⟨none, hslot lane, .inl rfl⟩
  · obtain ⟨j, hj, -, hslot⟩ := h.held b hb
    obtain rfl : i = j := Option.some.inj (hi.symm.trans hj)
    exact ⟨_, hslot lane, .inr ⟨fun hn => (h.retired _ hn).2 b hb rfl, b, hb, rfl, rfl⟩⟩

theorem Inv.available_empty {place : Access → Place} {stage : ℕ → Stage} {b : ℕ}
    (h : Inv c place stage s) (hb : b ∈ s.availableWarpInstBufs) :
    b < c.warpInstBufPoolSize ∧ (s.bufs b).coalescedAccesses = [] ∧
      (s.bufs b).translatedAccesses = [] := by
  obtain ⟨hfree, hlt⟩ := h.bufs.available.mem_iff.1 hb
  have hempty : ∀ a : Access, a.buf = b → place a = .none ∨ place a = .done := fun a ha =>
    h.prog.empty (fun w => by rw [hfree]; simp) (by rw [hfree]; simp) ha
  refine ⟨hlt, h.accs.coalesced_eq_nil hempty, List.eq_nil_iff_forall_not_mem.2 fun a ha => ?_⟩
  obtain ⟨htrans, hbuf⟩ := ((h.accs.translated b).mem_iff (a := a)).1 ha
  rcases hempty a hbuf with hp | hp <;> rw [hp] at htrans <;> cases htrans

end Result

/-- Every accepted lane packet belongs to one dispatched instruction, or to the one
that is being collected.  A lane of a load, an atomic or a fence gets one response:
none before, while its packet is in the buffer of the instruction, and exactly one
when the instruction is committed; a load gets its bytes.  A store gets none.
Instructions commit in the order in which they were pushed, each once, and as long as
one is left to commit, its event is scheduled or the core owes a retry.  The pool has
every buffer that is not in use, without packets and accesses. -/
theorem lanes_are_answered_once (h : Reaches c s) :
    s.requests.Perm (s.insts.flatMap Inst.lanes ++ s.book.collecting c) ∧
    (∀ n i, s.insts[n]? = some i → i.type ≠ .store →
      ∀ lane pkt, (lane, pkt) ∈ i.lanes → (s.book.answers n lane).length = 1 ∨
        (s.book.answers n lane = [] ∧ n ∉ s.committed ∧
          ∃ b pkt', s.book.InUse c b ∧ (s.bufs b).inst = n ∧
            (s.bufs b).laneRequestPkts lane = some pkt')) ∧
    (∀ r ∈ s.responses, ∃ (i : Inst) (pkt : LanePkt), s.insts[r.inst]? = some i ∧
      i.type ≠ .store ∧ (r.lane, pkt) ∈ i.lanes ∧ (i.type ≠ .load → r.pkt = pkt) ∧
      (i.type = .load → ∃ a ∈ i.accesses, r.lane ∈ a.activeLanes ∧ a ∈ s.ejected ∧
        r.pkt = pkt.fill a (s.data a) ∧ a.vaddr ≤ pkt.vaddr ∧
        (pkt.size ∣ 32 → pkt.size ∣ pkt.vaddr → pkt.vaddr + pkt.size ≤ a.vaddr + a.size))) ∧
    s.committed <+: s.pushed ∧ s.committed.Nodup ∧
    (s.commitInstBuffer ≠ [] →
      s.commitScheduled = true ∨ s.writebackBlocked = true ∧ s.coreOwes = true) ∧
    (∀ n < s.insts.length, n ∉ s.committed → ∃ b, s.book.InUse c b ∧ (s.bufs b).inst = n) ∧
    s.availableWarpInstBufs.Nodup ∧
    (∀ b ∈ s.availableWarpInstBufs, b < c.warpInstBufPoolSize ∧
      (∀ lane, (s.bufs b).laneRequestPkts lane = none) ∧
      (s.bufs b).coalescedAccesses = [] ∧ (s.bufs b).translatedAccesses = []) ∧
    s.numActiveWarpInstBuffers + s.availableWarpInstBufs.length = c.warpInstBufPoolSize := by
  obtain ⟨⟨place, stage, hinv⟩, -⟩ := h.sound
  obtain ⟨hl, hc⟩ := h.ledger
  refine ⟨hl.requests, fun n i hi htype lane pkt hmem => ?_, fun r hr => ?_, ?_, hl.nodup,
    fun hne => (hc.goes hne).imp_right fun hb => ⟨hb, (hc.waits hb).2.2⟩,
    fun n hn hno => (hl.whole n hn).resolve_left hno, hinv.bufs.available.1, fun b hb => ?_,
    hl.count⟩
  · obtain ⟨o, hslot, ho⟩ := hl.slot hi lane
    cases o with
    | some pkt' =>
      obtain ⟨hno, b, hb, hinst, hpkt⟩ := ho.resolve_left (by simp)
      exact .inr ⟨hslot.1, hno, b, pkt', hb, hinst, hpkt⟩
    | none =>
      rcases hslot with ⟨-, hstore | hnone⟩ | ⟨_, pkt', -, hone, -⟩
      · exact absurd hstore htype
      · exact absurd hmem (hnone pkt)
      · exact .inl (by rw [hone]; rfl)
  · obtain ⟨i, hi⟩ : ∃ i, s.insts[r.inst]? = some i :=
      ⟨_, List.getElem?_eq_getElem (hl.known r hr)⟩
    obtain ⟨o, hslot, -⟩ := hl.slot hi r.lane
    obtain ⟨pkt, hmem, hans⟩ := hslot.of_mem (List.mem_filter.2 ⟨hr, by simp⟩)
    have hcoalesced := hl.coalesced i (List.mem_of_getElem? hi)
    unfold Book.Answered at hans
    refine ⟨i, pkt, hi, fun htype => ?_, hmem, fun htype => ?_, fun htype => ?_⟩
    · rw [htype] at hans
      exact hans
    · split at hans
      · rename_i ht
        exact absurd ht htype
      · exact hans.elim
      · exact hans
    · rw [htype] at hans
      obtain ⟨a, ha, hlane, hej, heq⟩ := hans
      exact ⟨a, ha, hlane, hej, heq, hcoalesced.inRange htype a ha r.lane hlane pkt hmem⟩
  · exact ⟨_, hinv.commits.symm⟩
  · obtain ⟨hlt, hcoal, htrans⟩ := hinv.available_empty hb
    exact ⟨hlt, hl.empty b (.inl hb), hcoal, htrans⟩

/-- The core refuses the response of the first load, and takes it later. -/
def refusedOnce : List Event :=
  [.response 4 (twoLoadsAccess 0) [1, 2, 3, 4, 5, 6, 7, 8], .inject 4 1, .eject,
    .commit 0 true, .response 5 (twoLoadsAccess 1) [1, 2, 3, 4, 5, 6, 7, 8], .eject,
    .retryCommit, .commit 1 true, .commit 1 true, .commit 1 true]

theorem refusedOnce_ends :
    Post (run (step oneLane) (.initial oneLane) (twoLoads ++ refusedOnce)) (fun _ => False)
      fun s => s.committed = [0, 1, 2] ∧ s.responses.map (fun r => r.pkt.data)
        = [[1, 2, 3, 4], [5, 6, 7, 8], []] := by
  decide +kernel

theorem refusedOnce_is_answered_once : ∃ s, Reaches oneLane s ∧ s.committed = [0, 1, 2] ∧
      s.responses.map (fun r => r.pkt.data) = [[1, 2, 3, 4], [5, 6, 7, 8], []] ∧
      ∀ (n : ℕ) (i : Inst), s.insts[n]? = some i → i.type ≠ .store →
        ∀ lane pkt, (lane, pkt) ∈ i.lanes → n ∈ s.committed →
          (s.book.answers n lane).length = 1 := by
  obtain ⟨s, hs, hcommitted, hdata⟩ := refusedOnce_ends.exists_ok
  have hreach := reaches_of_run hs
  refine ⟨s, hreach, hcommitted, hdata, fun n i hi htype lane pkt hmem hn => ?_⟩
  rcases (lanes_are_answered_once hreach).2.1 n i hi htype lane pkt hmem with hone | ⟨-, hno, -⟩
  · exact hone
  · exact absurd hn hno

end Gem5Gpu.GPU.LSQ
