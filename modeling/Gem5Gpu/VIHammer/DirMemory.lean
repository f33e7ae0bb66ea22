import Gem5Gpu.VIHammer.DirReplies

/-!
# The memory

The memory reads or writes the block, and the directory takes its answer: the block
goes to the cache that asked for it or into the TBE of a DMA read, or the block has
been written back.
-/

namespace Gem5Gpu.VIHammer


open Lib Directory Function

variable {ι : Type} [DecidableEq ι] {L : ℕ} {q : MemoryMsg ι L} {due owed : ℕ}
  {P : Params} {g g' : Ghost ι L} {a : ι → Party ι L} {s : Sys ι L} {i j k r : ι} {now n : ℕ}
  {mem : Prop} {p : Party ι L} {m : ResponseMsg ι L} {x : Bool} {τ φ : ℕ} {J : Finset ι}
  {σ : ι → Signal ι L} {b b' : Hub ι L} {seen : Bool}

/-! ## Data for a request -/

/-- The parties when the memory's answer goes to `r`. -/
def supplied (a : ι → Party ι L) (r : ι) (m : ResponseMsg ι L) (j : ι) : Party ι L :=
  if j = r then (a r).push m else a j

theorem signal_supplied : (fun j => (supplied a r m j).signal) = fun j => (a j).signal := by
  funext j
  unfold supplied
  split
  · rename_i hj
    subst hj
    rfl
  · rfl

omit [DecidableEq ι] in
/-- A cache that waits for the block has no data yet. -/
theorem Active.no_data (h : Active x τ φ due owed p) (howed : owed = 1) :
    p.view.mode.got = 0 ∧ ∀ m ∈ p.responses, m.isData = false := by
  have hdata := h.data
  have hcount : p.responses.countP (·.isData) = 0 := by omega
  refine ⟨by omega, fun m hm => ?_⟩
  exact Bool.eq_false_iff.2 (Multiset.countP_eq_zero.1 hcount m hm)

omit [DecidableEq ι] in
/-- The block is not from an owner. -/
theorem Active.fromOwner_push (h : Active x τ φ due owed p) (howed : owed = 1)
    (hm : x = true ∨ m.type = .DATA_EXCLUSIVE) : (p.push m).FromOwner x k := by
  obtain ⟨hgot, hdata⟩ := h.no_data howed
  refine ⟨fun hss => ?_, fun m' hm' hx htype => ?_⟩
  · have hss : p.view.mode = .SS := hss
    rw [hss] at hgot
    cases hgot
  · rcases Multiset.mem_cons.1 hm' with rfl | hm'
    · rcases hm with hm | hm
      · rw [hx] at hm
        cases hm
      · rw [hm] at htype
        rcases htype with htype | htype <;> cases htype
    · have hnone := hdata m' hm'
      rcases htype with htype | htype <;>
        simp [ResponseMsg.isData, Directory.isData, htype] at hnone

/-- The block of the memory, as the directory sends it. -/
def memoryMsg (t : CoherenceResponseType) (d : DataBlock L) : ResponseMsg ι L :=
  { type := t, sender := .directory, dataBlk := d, acks := 1, silentAcks := 0 }

/-- Who has the block when the memory's copy is on its way to `r`: `r` is the owner,
unless it asked for a copy of a block that others have copies of. -/
theorem Held.supply (r : ι) (x : Bool) {t : CoherenceResponseType} {excl : Bool} (cur : DataBlock L)
    (hmem : mem) (ht : t = .DATA_EXCLUSIVE ∧ excl = true ∨ t = .DATA) :
    ∃ own' excl', (own' = some r ∧ (x = true ∨ t = .DATA_EXCLUSIVE) ∨
        own' = none ∧ x = false ∧ t = .DATA) ∧ (excl' = true → excl = true) ∧
      (∀ H, Held none excl cur mem r H →
        Held own' excl' cur mem r (bag ((memoryMsg (ι := ι) t cur).holding x) + H)) ∧
      ∀ j, j ≠ r → ∀ H, Held none excl cur mem j H → Held own' excl' cur mem j H := by
  have howned (excl' : Bool) (c : Holding L) (hc : c.owned = true) (hblk : c.blk = cur)
      (hx : c.excl = true → excl' = true) (H : Multiset (Holding L))
      (hH : Held none excl' cur mem r H) : Held (some r) excl' cur mem r (bag (some c) + H) := by
    rw [bag_some, Multiset.singleton_add]
    exact hH.cons_owned (by simp) hblk hc hx fun _ => hmem
  have hothers (excl' : Bool) (j : ι) (hj : j ≠ r) (H : Multiset (Holding L))
      (hH : Held none excl' cur mem j H) : Held (some r) excl' cur mem j H :=
    hH.of_own (by simp [Ne.symm hj])
  rcases ht with ⟨rfl, hexcl⟩ | rfl
  · exact ⟨some r, excl, .inl ⟨rfl, .inr rfl⟩, id, howned excl _ rfl rfl fun _ => hexcl,
      hothers excl⟩
  · cases x with
    | true => exact ⟨some r, excl, .inl ⟨rfl, .inl rfl⟩, id, howned excl _ rfl rfl nofun,
        hothers excl⟩
    | false =>
      refine ⟨none, false, .inr ⟨rfl, rfl, rfl⟩, nofun, fun H hH => ?_, fun j _ H hH =>
        hH.of_shared (by simp)⟩
      show Held none false cur mem r (bag (some _) + H)
      rw [bag_some, Multiset.singleton_add]
      exact (hH.of_shared (by simp)).cons_shared rfl rfl rfl

omit [DecidableEq ι] in
theorem foldl_take_dma (l : List (DMAResponseMsg L)) (b : Hub ι L) :
    (l.map DirSend.dmaResponse).foldl Hub.take b = b := by
  induction l with
  | nil => rfl
  | cons m l ih => exact ih

omit [DecidableEq ι] in
/-- The trigger queue when all answers to a DMA request may have come. -/
theorem foldl_take_completion {t : DirTBE ι L} {b : Hub ι L} (hzero : b.trigger = 0) :
    t.completion.foldl Hub.take b
      = { b with trigger := if t.numPendingMsgs = 0 then {dmaTrigger t} else 0 } := by
  unfold DirTBE.completion
  split
  · show ({ b with trigger := _ ::ₘ b.trigger } : Hub ι L) = _
    rw [hzero]
    rfl
  · rw [← hzero]
    rfl

omit [DecidableEq ι] in
theorem completion_inert {t : DirTBE ι L} : ∀ m ∈ t.completion, m.inert := by
  unfold DirTBE.completion
  split <;> simp [DirSend.inert]

variable [Fintype ι]

/-- The memory answers a request that the directory serves. -/
theorem step_memory_serve (h : Inv g a s) (hP : P.cfg = ⟨false, false⟩)
    (hm : s.holds (.memory q)) (htxn : g.txn = .serve r x τ φ) :
    StepOK P g s (now, .deliverDir (.memory q)) := by
  have hq : q ∈ s.hub.responses := Sys.holds_party h.of hm
  have hglobal := h.dir
  unfold Global at hglobal
  rw [htxn] at hglobal
  obtain ⟨hsignals, htrigger, J, d, hserve, hrJ, hroles⟩ := hglobal
  cases hserve with
  | owned k hown hd hidle | clean hx hown hd hidle hmem =>
    rw [hidle.2] at hq
    exact absurd hq (Multiset.notMem_zero q)
  | fetch t st hd hst hacks hsilent hown hfetch hmem htype =>
    rcases hfetch with ⟨-, hzero⟩ | ⟨hrequests, hresponses⟩
    · rw [hzero] at hq
      exact absurd hq (Multiset.notMem_zero q)
    rw [hresponses] at hq
    obtain rfl := Multiset.mem_singleton.1 hq
    have hmem : s.memory = g.cur := hmem
    have hd : s.dir = ⟨st, none, some t⟩ := hd
    have ht : t.responseType = .DATA_EXCLUSIVE ∧ g.excl = true ∨ t.responseType = .DATA := by
      rcases htype with ⟨-, ht, hexcl⟩ | ⟨-, ht, -⟩ | ⟨-, ht, -⟩
      · exact .inl ⟨ht, hexcl⟩
      · exact .inr ht
      · exact .inr ht
    obtain ⟨own', excl', hown', hexcl', hheldr, hheld⟩ := Held.supply r x g.cur hmem ht
    obtain ⟨st', hst', hdir⟩ : ∃ st' : Directory.State,
        (st = .NO_B_W ∧ st' = .NO_B ∨ st = .O_B_W ∧ st' = .O_B) ∧
        (own' = some r ∧ st' = .NO_B ∨ own' = none ∧ x = false ∧ st' = .O_B) := by
      rcases htype with ⟨hst, hexcl, -⟩ | ⟨hst, hdata, hx⟩ | ⟨hst, hdata, hx⟩
      · refine ⟨.NO_B, .inl ⟨hst, rfl⟩, ?_⟩
        simpa [hexcl] using hown'
      · refine ⟨.NO_B, .inl ⟨hst, rfl⟩, ?_⟩
        simpa [hx] using hown'
      · refine ⟨.O_B, .inr ⟨hst, rfl⟩, ?_⟩
        simpa [hx, hdata] using hown'
    have hrun := memory_data (q := .cache r) (d := g.cur) now hst hst' (by rw [hacks]; decide)
    rw [← hd, hacks, hsilent] at hrun
    let msg : ResponseMsg ι L := memoryMsg t.responseType g.cur
    have hrole : g.role r = .active x τ φ (tally Signal.probed (fun j => (a j).signal) + 0 + 1)
        (0 + 1) := by
      have hr := hroles r
      rw [if_pos rfl, hown] at hr
      exact hr
    have hothers : ∀ j, j ≠ r → g.role j = .idle := fun j hj => by
      have hr := hroles j
      rwa [if_neg hj, if_neg (Finset.notMem_empty j)] at hr
    have hactive := (h.party r).role
    rw [hrole] at hactive
    have hdue : ownerDue own' (fun j => (a j).signal) = 0 := by
      rcases hdir with ⟨rfl, -⟩ | ⟨rfl, -⟩
      · simp [ownerDue, Signal.probed, Party.signal, hactive.probe]
      · rfl
    refine h.deliverDir { g with
        role := update g.role r (.active x τ φ (tally Signal.probed fun j => (a j).signal) 0)
        own := own', excl := excl' } (supplied a r msg) hP hm rfl hrun rfl
      (fun j => ⟨trivial, trivial⟩) (fun j => ?_) rfl rfl rfl (fun j => ?_) ?_
    · by_cases hj : j = r
      · subst hj
        simp [afterDir, supplied, Party.takeDir, Party.dropDir, msg, memoryMsg]
      · simp [afterDir, supplied, Party.takeDir, Party.dropDir, hj]
    · by_cases hj : j = r
      · subst hj
        rw [supplied, if_pos rfl]
        refine (h.party j).supply _ _ hactive ?_ ?_ ?_ (Nat.zero_le _) (update_self ..) ?_
          ?_ ?_ ?_ ?_
        · refine ⟨?_, by simp [msg, memoryMsg], rfl, .inl rfl, .inl rfl, trivial⟩
          rcases ht with ⟨ht, -⟩ | ht
          · exact .inr (.inr (.inl ht))
          · exact .inr (.inl ht)
        · show ((tally Signal.probed (fun j => (a j).signal) + 0 + 1 : ℕ) : ℤ) = _ + 1
          push_cast
          omega
        · rcases ht with ⟨ht, -⟩ | ht <;>
            simp [ResponseMsg.isData, Directory.isData, msg, memoryMsg, ht]
        · have hheld := (h.party j).held
          rw [hrole, hown] at hheld
          exact hheldr _ hheld
        · intro he
          refine ⟨hexcl' he, ?_⟩
          rcases ht with ⟨ht, -⟩ | ht <;> simp [msg, memoryMsg, ht]
        · intro k hk
          rcases hown' with ⟨-, hx⟩ | ⟨hnone, -⟩
          · exact hactive.fromOwner_push rfl hx
          · have hk : own' = some k := hk
            rw [hnone] at hk
            cases hk
        · show g.txn.clears j = false
          rw [htxn]
          cases x <;> simp [Txn.clears]
        · intro b hb
          have hb : g.txn = .dmaRead b := hb
          rw [htxn] at hb
          cases hb
      · rw [supplied, if_neg hj]
        refine (h.party j).passive (.inl (hothers j hj)) (update_of_ne hj ..) ?_ (.inr rfl) id ?_
        · rw [hown]
          exact hheld j hj _
        · intro b hb
          have hb : g.txn = .dmaRead b := hb
          rw [htxn] at hb
          cases hb
    · have hidle : MemIdle ({ s.hub.drop (.memory (.MEMORY_READ (.cache r) g.cur)) with
          dir := ⟨st', none, none⟩ } : Hub ι L) := by
        refine ⟨hrequests, ?_⟩
        show s.hub.responses.erase _ = 0
        rw [hresponses]
        exact erase_singleton _
      unfold Global
      rw [signal_supplied]
      dsimp only
      rw [htxn]
      refine ⟨hsignals, htrigger, ∅, 0, ?_, hrJ, fun j => ?_⟩
      · rcases hdir with ⟨ho, rfl⟩ | ⟨ho, hx, rfl⟩
        · exact .owned r ho (.alone .NO_B (.inl rfl) rfl rfl) hidle
        · exact .clean hx ho rfl hidle hmem
      · rw [hdue]
        by_cases hj : j = r
        · subst hj
          rw [if_pos rfl]
          exact update_self ..
        · rw [if_neg hj, if_neg (Finset.notMem_empty j)]
          exact (update_of_ne hj ..).trans (hothers j hj)

/-! ## Data for a DMA read -/

variable (h : Inv g a s) (hP : P.cfg = ⟨false, false⟩) (hm : s.holds (.memory q) = true)
include h hP hm

/-- The memory answers a DMA read. -/
theorem step_memory_read (htxn : g.txn = .dmaRead seen) :
    StepOK P g s (now, .deliverDir (.memory q)) := by
  have hq : q ∈ s.hub.responses := Sys.holds_party h.of hm
  have hglobal := h.dir
  unfold Global at hglobal
  rw [htxn] at hglobal
  obtain ⟨hsignals, hidle, hseen, t, hread, hsharers, howned, hcount⟩ := hglobal
  cases hread with
  | fetched st hst hd hown hmemory | owner hst hd hmemory =>
    rw [hmemory.2] at hq
    exact absurd hq (Multiset.notMem_zero q)
  | fetch st hst hd hown hmem hfetch hdirty htrigger htype hcalm =>
    rcases hfetch with ⟨-, hzero⟩ | ⟨hrequests, hresponses⟩
    · rw [hzero] at hq
      exact absurd hq (Multiset.notMem_zero q)
    rw [hresponses] at hq
    obtain rfl := Multiset.mem_singleton.1 hq
    have hd : s.dir = ⟨st, none, some t⟩ := hd
    obtain ⟨st', hst', htype'⟩ : ∃ st' : Directory.State,
        (st = .NO_DR_B_W ∧ st' = .NO_DR_B ∨ st = .O_DR_B_W ∧ st' = .O_DR_B) ∧
        (st' = .NO_DR_B ∧ g.excl = true ∨ st' = .O_DR_B) := by
      rcases htype with ⟨hst, hexcl⟩ | hst
      · exact ⟨.NO_DR_B, .inl ⟨hst, rfl⟩, .inl ⟨rfl, hexcl⟩⟩
      · exact ⟨.O_DR_B, .inr ⟨hst, rfl⟩, .inr rfl⟩
    obtain ⟨l, hrun⟩ := memory_data_dma (q := .dma) (d := g.cur) now hst hst' hdirty
    rw [← hd] at hrun
    have hmemory : s.hub.responses.erase (.MEMORY_READ .dma g.cur) = 0 := by
      rw [hresponses]
      exact erase_singleton _
    refine h.absorb g hP hm rfl hrun ?_ rfl rfl rfl (fun j => h.party j) ?_
    · intro m hm
      rcases List.mem_append.1 hm with hm | hm
      · obtain ⟨m, -, rfl⟩ := List.mem_map.1 hm
        rfl
      · exact completion_inert m hm
    · rw [List.foldl_append, foldl_take_dma, foldl_take_completion (by exact htrigger)]
      unfold Global
      rw [htxn]
      exact ⟨hsignals, hidle, hseen, _, .fetched st' rfl rfl hown ⟨hrequests, hmemory⟩ rfl rfl
        htype' hcalm, hsharers, howned, hcount⟩

/-! ## Writes -/

/-- The memory has written the block. -/
theorem step_memory_written (htxn : g.txn = .memoryWrite) :
    StepOK P g s (now, .deliverDir (.memory q)) := by
  have hq : q ∈ s.hub.responses := Sys.holds_party h.of hm
  have hglobal := h.dir
  unfold Global at hglobal
  rw [htxn] at hglobal
  obtain ⟨hquiet, hidle, htrigger, hown, hwrite⟩ := hglobal
  -- the write is done, whatever it was for
  have hdone {d : DataBlock L} (hw : Writing s.hub g.cur d) :
      q = .MEMORY_WB ∧ MemIdle (s.hub.drop (.memory q)) ∧ s.memory = g.cur := by
    rcases hw with ⟨-, hzero⟩ | ⟨hrequests, hresponses, hmem⟩
    · rw [hzero] at hq
      exact absurd hq (Multiset.notMem_zero q)
    · rw [hresponses] at hq
      obtain rfl := Multiset.mem_singleton.1 hq
      refine ⟨rfl, ⟨hrequests, ?_⟩, hmem⟩
      show s.hub.responses.erase _ = 0
      rw [hresponses]
      exact erase_singleton _
  have hstep {d : DataBlock L} (l : DirLine ι L) (sent : List (DirSend ι L))
      (hw : Writing s.hub g.cur d) (hsent : ∀ m ∈ sent, m.inert = true)
      (hrun : doTransition (broadcast now) (.memory q) .Memory_Ack s.dir = .ok ⟨l, sent, true⟩)
      (hhub : ∀ b : Hub ι L, sent.foldl Hub.take b = b)
      (hdir : DirIdle { g with txn := .idle }
        ({ s.hub.drop (.memory q) with dir := l } : Hub ι L)) :
      StepOK P g s (now, .deliverDir (.memory q)) := by
    obtain ⟨rfl, hmemory, -⟩ := hdone hw
    refine h.absorb { g with txn := .idle } hP hm rfl hrun hsent (hhub _) rfl rfl (fun j => ?_) ?_
    · exact (h.party j).settled (.inl (hidle j)) (hquiet j).probe .idle rfl
        (fun b hb => by cases hb)
    · exact ⟨hquiet, hidle, htrigger, hmemory, hdir⟩
  cases hwrite with
  | shared hd hw =>
    have hd : s.dir = ⟨.WB_O_W, none, none⟩ := hd
    refine hstep ⟨.O, none, none⟩ [] hw (by simp) ?_ (fun _ => rfl) ?_
    · rw [hd]
      exact memory_ack now (.inr ⟨rfl, rfl⟩)
    · exact .O rfl hown (hdone hw).2.2
  | exclusive hd hexcl hw =>
    have hd : s.dir = ⟨.WB_E_W, none, none⟩ := hd
    refine hstep ⟨.E, none, none⟩ [] hw (by simp) ?_ (fun _ => rfl) ?_
    · rw [hd]
      exact memory_ack now (.inl ⟨rfl, rfl⟩)
    · exact .E rfl hown hexcl (hdone hw).2.2
  | dma t hst hd hexcl hwritten d hw =>
    have hd : s.dir = ⟨.NO_DW_W, none, some t⟩ := hd
    refine hstep ⟨.E, none, none⟩ [.dmaResponse .ACK] hw (by simp [DirSend.inert]) ?_
      (fun _ => rfl) ?_
    · rw [hd]
      exact memory_ack_dma now hst
    · exact .E rfl hown hexcl (hdone hw).2.2

/-- The directory takes an answer of the memory. -/
theorem step_memory : StepOK P g s (now, .deliverDir (.memory q)) := by
  have hq : q ∈ s.hub.responses := Sys.holds_party h.of hm
  have hbusy (hmemory : MemIdle s.hub) : StepOK P g s (now, .deliverDir (.memory q)) := by
    rw [hmemory.2] at hq
    exact absurd hq (Multiset.notMem_zero q)
  have hglobal := h.dir
  unfold Global at hglobal
  cases htxn : g.txn with rw [htxn] at hglobal
  | idle => exact hbusy hglobal.2.2.2.1
  | serve r x τ φ => exact step_memory_serve h hP hm htxn
  | close r => exact hbusy hglobal.2.2.2.1
  | feed J φ pending => exact hbusy hglobal.2.1
  | dmaRead seen => exact step_memory_read h hP hm htxn
  | dmaWrite => exact hbusy hglobal.2.2.1
  | writeBack i => exact hbusy hglobal.2.2.2.1
  | memoryWrite => exact step_memory_written h hP hm htxn

end Gem5Gpu.VIHammer
