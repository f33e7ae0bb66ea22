import Gem5Gpu.VIHammer.DirSteps

/-!
# The end of a transaction

What the directory does with an unblock message, with the answers to a DMA request,
with an answer of the memory and with its own completion trigger.
-/

namespace Gem5Gpu.VIHammer


open Lib Directory

variable {ι : Type} [DecidableEq ι] {L : ℕ} {e : Event} {P : Params} {g g' : Ghost ι L}
  {a : ι → Party ι L} {s : Sys ι L} {i j k r : ι} {now n : ℕ} {mem : Prop} {p : Party ι L}
  {m : ResponseMsg ι L} {x : Bool} {τ φ : ℕ} {J : Finset ι} {σ : ι → Signal ι L} {b b' : Hub ι L}

/-! ## Messages that no cache gets -/

/-- A message to the memory, to the DMA controller or to the directory itself. -/
def Directory.DirSend.inert : DirSend ι L → Bool
  | .dmaResponse _ | .memory _ | .trigger _ => true
  | .forward _ _ | .response _ _ => false

section Inert

variable {M : DirMessage ι L} {sent : List (DirSend ι L)} (h : ∀ m ∈ sent, m.inert = true)

include h

theorem foldl_takeDir_inert (p : Party ι L) : sent.foldl (Party.takeDir j) p = p := by
  induction sent generalizing p with
  | nil => rfl
  | cons m sent ih =>
    have hm := h m List.mem_cons_self
    rw [List.foldl_cons, ih fun m' hm' => h m' (List.mem_cons_of_mem _ hm')]
    cases m with
    | forward dest m | response dest m => cases hm
    | dmaResponse m | memory q | trigger t => rfl

theorem afterDir_inert : afterDir a M sent j = (a j).dropDir j M := foldl_takeDir_inert h _

omit [DecidableEq ι] in
theorem routed_inert : sent.all DirSend.routed = true := by
  refine List.all_eq_true.2 fun m hm => ?_
  have := h m hm
  cases m with
  | forward dest m | response dest m => cases this
  | dmaResponse m | memory q | trigger t => rfl

theorem rooms_inert (p : Party ι L) : p.RoomsDir j sent := by
  induction sent generalizing p with
  | nil => trivial
  | cons m sent ih =>
    have hm := h m List.mem_cons_self
    refine ⟨?_, ih (fun m' hm' => h m' (List.mem_cons_of_mem _ hm')) _⟩
    cases m with
    | forward dest m | response dest m => cases hm
    | dmaResponse m | memory q | trigger t => trivial

end Inert

/-- The unblock message of a party that the directory does not serve is taken. -/
theorem PartyOK.unblocked (h : PartyOK n g mem i p) (hpassive : (g.role i).Passive)
    (hm : p.unblock = some m) (hnone : m.holding false = none) :
    PartyOK n g mem i { p with unblock := none } := by
  have hhold : ({ p with unblock := none } : Party ι L).holdings false = p.holdings false := by
    simp [Party.holdings, hm, hnone]
  have hheld := h.held
  have hcleared := h.cleared
  have hseen := h.seen
  rw [hpassive.x] at hheld hcleared hseen
  refine .of_rest ?_ (hpassive.fits h.role id (fun _ => rfl) rfl rfl rfl rfl) ?_ h.probe ?_ ?_
  · intro x τ φ due owed hr
    rcases hpassive with hp | hp <;> rw [hp] at hr <;> cases hr
  · rw [hhold]
    exact hheld
  · rw [hhold]
    exact hcleared
  · rw [hhold]
    exact hseen

/-- The signals after an unblock message is taken. -/
theorem signal_dropUnblock (hm : (a i).unblock = some m) (j : ι) :
    ((a j).dropDir j (.unblock i m)).signal
      = { (a j).signal with unblock := if j = i then none else (a j).unblock } := by
  by_cases hj : j = i
  · subst hj
    simp [Party.dropDir, Party.signal]
  · simp [Party.dropDir, Party.signal, hj]

/-- A party without business with the directory, after the end of a transaction. -/
theorem PartyOK.settled (h : PartyOK n g mem j p) (hpassive : (g.role j).Passive)
    (hprobe : p.probe = none) (txn : Txn ι) (hclears : txn.clears j = false)
    (hseen : ∀ b, txn ≠ .dmaRead b) : PartyOK n { g with txn := txn } mem j p :=
  h.passive hpassive rfl id (.inl hprobe) (fun hc => by
      have hc : txn.clears j = true := hc
      rw [hclears] at hc
      cases hc)
    (fun b hb => absurd hb (hseen b))

omit [DecidableEq ι] in
/-- A trigger that is sent when a counter reaches zero. -/
theorem Triggered.take {t : TriggerType} {c : ℤ} (c' : ℤ) (h : Triggered b.trigger c t) (hc : c ≠ 0)
    (t' : TriggerType) (l : DirLine ι L) :
    Triggered ((if c' = 0 then [DirSend.trigger t'] else []).foldl Hub.take
      { b with dir := l }).trigger c' t' := by
  have hzero : b.trigger = 0 := by
    rw [Triggered, if_neg hc] at h
    exact h
  unfold Triggered
  split
  · show t' ::ₘ b.trigger = _
    rw [hzero]
    rfl
  · exact hzero

omit [DecidableEq ι] in
theorem foldl_take_trigger {c : Prop} [Decidable c] (t : TriggerType) (b : Hub ι L) :
    (if c then [DirSend.trigger t] else []).foldl Hub.take b = { b with
        trigger := ((if c then [DirSend.trigger t] else []).foldl Hub.take b).trigger } := by
  split <;> rfl

/-- The owner gives its copy back. -/
theorem Held.give_back {excl : Bool} {cur : DataBlock L} {H : Multiset (Holding L)}
    {c : Holding L} (h : Held (some i) excl cur mem i (H + {c})) (hc : c.owned) :
    Held none excl cur mem i H := by
  have hcount := h.owner
  rw [if_pos rfl, Multiset.countP_add, ← Multiset.cons_zero,
    Multiset.countP_cons_of_pos (p := fun h : Holding L => h.owned = true) 0 hc] at hcount
  have hle : H ≤ H + {c} := Multiset.le_add_right H {c}
  refine ⟨fun k hk => h.blk k (Multiset.mem_of_le hle hk), fun he k hk =>
    h.alone he k (Multiset.mem_of_le hle hk), fun k hk => h.excl k (Multiset.mem_of_le hle hk),
    fun k hk => h.clean k (Multiset.mem_of_le hle hk), ?_⟩
  simpa using hcount

variable [Fintype ι]

/-- A transition of the directory that no cache notices but the sender of the message. -/
theorem Inv.absorb (g' : Ghost ι L) {M : DirMessage ι L} {inp : Input ι L} {l : DirLine ι L}
    {sent : List (DirSend ι L)} (h : Inv g a s) (hP : P.cfg = ⟨false, false⟩)
    (hm : s.holds M) (hev : M.event = (inp, some e))
    (hrun : doTransition (broadcast now) inp e s.dir = .ok ⟨l, sent, true⟩)
    (hsent : ∀ m ∈ sent, m.inert = true)
    (hhub : sent.foldl Hub.take { s.hub.drop M with dir := l } = b)
    (hcur : g'.cur = g.cur) (hw : g'.dmaWritten = g.dmaWritten)
    (hparty : ∀ j, PartyOK (Fintype.card ι) g' (s.memory = g.cur) j ((a j).dropDir j M))
    (hdir : Global g' (fun j => ((a j).dropDir j M).signal) b) :
    StepOK P g s (now, .deliverDir M) :=
  h.deliverDir g' _ hP hm hev hrun (routed_inert hsent) (fun _ => rooms_inert hsent _)
    (fun _ => afterDir_inert hsent) hhub hcur hw hparty hdir

/-! ## Unblock messages -/

/-- The transactions that end with an unblock message. -/
theorem Global.unblocks (h : Global g σ b) (hm : (σ i).unblock = some m) :
    g.txn = .close i ∨ (∃ J φ, g.txn = .feed J φ false) ∨ g.txn = .writeBack i := by
  have hno (hnone : (σ i).unblock = none) (R : Prop) : R := by
    rw [hnone] at hm
    cases hm
  unfold Global at h
  cases htxn : g.txn with rw [htxn] at h
  | idle => exact hno (h.1 i).unblock _
  | serve r x τ φ => exact hno (h.1 i).2.1 _
  | close r =>
    by_cases hi : i = r
    · rw [hi]
      exact .inl rfl
    · exact hno (h.2.1 i hi) _
  | feed J φ pending =>
    obtain ⟨-, hpending⟩ := (h.1 i).2.2.2 m hm
    rw [hpending]
    exact .inr (.inl ⟨J, φ, rfl⟩)
  | dmaRead seen => exact hno (h.1 i).1 _
  | dmaWrite => exact hno (h.1 i).1 _
  | writeBack k =>
    by_cases hi : i = k
    · rw [hi]
      exact .inr (.inr rfl)
    · exact hno (h.1 i hi).unblock _
  | memoryWrite => exact hno (h.1 i).unblock _

/-- The message at the end of a request is taken, and the directory is idle. -/
theorem step_unblock_idle {st : Directory.State} (h : Inv g a s)
    (hP : P.cfg = ⟨false, false⟩) (hm : s.holds (.unblock i m))
    (hpassive : ∀ j, g.role j = .idle)
    (hsignals : ∀ j, (a j).signal.probe = none ∧ (a j).signal.answer = none ∧
      (a j).signal.grant ≠ some .WB_ACK)
    (hothers : ∀ j, j ≠ i → (a j).signal.unblock = none) (htrigger : s.hub.trigger = 0)
    (hmemory : MemIdle s.hub) (hnone : m.holding false = none)
    (hev : unblockEvent m.type = some e)
    (hrun : doTransition (broadcast now) (.unblock m) e s.dir = .ok ⟨⟨st, none, none⟩, [], true⟩)
    (hdir : DirIdle { g with txn := .idle } { s.hub with dir := ⟨st, none, none⟩ }) :
    StepOK P g s (now, .deliverDir (.unblock i m)) := by
  have hunblock : (a i).unblock = some m := Sys.holds_party h.of hm
  refine h.absorb { g with txn := .idle } hP hm (congrArg (Prod.mk _) hev) hrun (by simp)
    rfl rfl rfl (fun j => ?_) ?_
  · have hkeep := (h.party j).settled (.inl (hpassive j)) (hsignals j).1 .idle rfl
      (fun b hb => by cases hb)
    by_cases hj : j = i
    · subst hj
      simp only [Party.dropDir, if_pos]
      exact hkeep.unblocked (.inl (hpassive j)) hunblock hnone
    · simp only [Party.dropDir, if_neg hj]
      exact hkeep
  · refine ⟨fun j => ?_, hpassive, htrigger, hmemory, hdir⟩
    dsimp only
    rw [signal_dropUnblock hunblock]
    obtain ⟨hprobe, hanswer, hgrant⟩ := hsignals j
    refine ⟨hprobe, hanswer, ?_, hgrant⟩
    show (if j = i then none else (a j).unblock) = none
    split
    · rfl
    · rename_i hj
      exact hothers j hj

/-- The owner of a block is not among the caches whose GETS was put aside. -/
theorem Inv.owner_not_waiting (h : Inv g a s) (hown : g.own = some k)
    (hunblock : (a k).unblock = none ∨ ∃ m, (a k).unblock = some m ∧ m.holding false = none) :
    g.role k ≠ .waiting := by
  intro hwaiting
  have hparty := h.party k
  have hrole := hparty.role
  have hheld := hparty.held
  rw [hwaiting] at hrole hheld
  obtain ⟨hrests, -, -, hstarts⟩ := hrole
  have hmode : (a k).view.mode = .IS := by simpa using hstarts.mode
  have hzero : (a k).holdings false = 0 := by
    rw [hrests.holdings]
    rcases hunblock with hu | ⟨m, hu, hm⟩
    · simp [View.holding, hmode, Mode.copy, hu]
    · simp [View.holding, hmode, Mode.copy, hu, hm]
  have hheld : Held g.own g.excl g.cur (s.memory = g.cur) k ((a k).holdings false) := hheld
  rw [hzero] at hheld
  obtain ⟨c, hc, -⟩ := hheld.exists_owned hown
  exact absurd hc (Multiset.notMem_zero c)

section

variable (h : Inv g a s) (hn : 1 < Fintype.card ι) (hP : P.cfg = ⟨false, false⟩)
  (hm : s.holds (.unblock i m) = true) (htxn : g.txn = .close i)
include h hn hP hm htxn

/-- The GETS requests that were put aside go to the owner. -/
theorem step_unblock_merging {t : DirTBE ι L}
    (hst : t.tbeState = .NO_B_S) (hd : s.dir = ⟨.NO_B_S, none, some t⟩)
    (hJ : t.getSRequestors = J) (hne : J.Nonempty)
    (hsignals : ∀ j, (a j).signal.probe = none ∧ (a j).signal.answer = none ∧
      (a j).signal.grant ≠ some .WB_ACK)
    (hothers : ∀ j, j ≠ i → (a j).signal.unblock = none) (htrigger : s.hub.trigger = 0)
    (hmemory : MemIdle s.hub) (hev : unblockEvent m.type = some e)
    (he : e = .UnblockS ∨ e = .UnblockM) (hnone : m.holding false = none)
    (hown : g.own = some k)
    (hto : (if m.type = .UNBLOCKS then m.curOwner else m.sender) = .cache k)
    (hroles : ∀ j, g.role j = if j ∈ J then .waiting else .idle) :
    StepOK P g s (now, .deliverDir (.unblock i m)) := by
  have hunblock : (a i).unblock = some m := Sys.holds_party h.of hm
  have hrun := unblock_merging (r := m) now (one_lt_machineCount hn) hst he
  rw [← hd, hto, hJ] at hrun
  have hpassive : ∀ j, (g.role j).Passive := fun j => by
    rw [hroles j]
    split
    · exact .inr rfl
    · exact .inl rfl
  have hkidle : g.role k = .idle := by
    refine (hpassive k).resolve_right (h.owner_not_waiting hown ?_)
    by_cases hk : k = i
    · subst hk
      exact .inr ⟨m, hunblock, hnone⟩
    · exact .inl (hothers k hk)
  let msg : RequestMsg ι :=
    { type := .MERGED_GETS, requestor := .unset, mergedRequestors := J, forwardRequestTime := now }
  let a' : ι → Party ι L := fun j =>
    if j = k then { (a j).dropDir j (.unblock i m) with probe := some msg }
    else (a j).dropDir j (.unblock i m)
  have hkeep : ∀ j, PartyOK (Fintype.card ι) { g with txn := .feed J now true } (s.memory = g.cur)
      j ((a j).dropDir j (.unblock i m)) := fun j => by
    have hold := (h.party j).settled (hpassive j) (hsignals j).1 (.feed J now true) rfl
      (fun b hb => by cases hb)
    by_cases hj : j = i
    · subst hj
      simp only [Party.dropDir, if_pos]
      exact hold.unblocked (hpassive j) hunblock hnone
    · simp only [Party.dropDir, if_neg hj]
      exact hold
  have hsignal : ∀ j, (a' j).signal = { (a j).signal with
      unblock := none, probe := if j = k then some msg else none } := fun j => by
    have hdrop := signal_dropUnblock hunblock j
    have hnone : (if j = i then none else (a j).unblock) = none := by
      split
      · rfl
      · rename_i hj
        exact hothers j hj
    rw [hnone] at hdrop
    have hprobe : (a j).signal.probe = none := (hsignals j).1
    by_cases hj : j = k
    · simp only [a', if_pos hj]
      show ({ ((a j).dropDir j (.unblock i m)).signal with probe := some msg } : Signal ι L) = _
      rw [hdrop]
    · simp only [a', if_neg hj]
      rw [hdrop, ← hprobe]
  refine h.deliverDir { g with txn := .feed J now true } a' hP hm
    (congrArg (Prod.mk _) hev) hrun rfl (fun j => ?_) (fun j => ?_) rfl rfl rfl (fun j => ?_) ?_
  · have hprobe : ((a j).dropDir j (.unblock i m)).probe = none := by
      have hprobe : (a j).probe = none := (hsignals j).1
      by_cases hj : j = i
      · simp [Party.dropDir, hj, hj ▸ hprobe]
      · simp [Party.dropDir, hj, hprobe]
    simp [Party.RoomsDir, Party.RoomDir, hprobe]
  · by_cases hj : j = k
    · simp [afterDir, Party.takeDir, a', hj, MachineID.caches, msg]
    · simp [afterDir, Party.takeDir, a', hj, MachineID.caches]
  · by_cases hj : j = k
    · subst hj
      simp only [a', if_pos]
      exact (hkeep j).forward hkidle hkidle rfl rfl rfl rfl
    · simp only [a', if_neg hj]
      exact hkeep j
  · have htally : tally (fun ρ => decide (ρ ≠ Role.idle)) g.role = J.card := by
      rw [tally]
      congr 1
      ext j
      simp only [Finset.mem_filter, Finset.mem_univ, true_and, hroles j]
      by_cases hj : j ∈ J <;> simp [hj]
    have hzero : tally Signal.unblocks (fun j => (a' j).signal) = 0 :=
      tally_eq_zero_iff.2 fun j => by
        rw [hsignal j]
        rfl
    refine ⟨fun j => ?_, hmemory, fun _ => hne, ⟨k, hown, hkidle⟩, fun j => ?_, _, rfl, rfl, ?_, ?_⟩
    · dsimp only
      rw [hsignal j]
      refine ⟨(hsignals j).2.1, (hsignals j).2.2, ?_, fun m' hm' => by cases hm'⟩
      show (if j = k then some msg else none) ≠ none ↔ _
      rw [hown]
      by_cases hj : j = k
      · simp [hj]
      · simp [hj, Ne.symm hj]
    · simp only [if_true]
      exact hroles j
    · show ((J.card : ℕ) : ℤ) = _
      rw [htally, hzero]
      simp
    · have hpos : ((J.card : ℕ) : ℤ) ≠ 0 := by
        have := hne.card_pos
        omega
      show Triggered s.hub.trigger ((J.card : ℕ) : ℤ) _
      rw [Triggered, if_neg hpos]
      exact htrigger

/-- The request of a cache is over. -/
theorem step_unblock_close :
    StepOK P g s (now, .deliverDir (.unblock i m)) := by
  have hunblock : (a i).unblock = some m := Sys.holds_party h.of hm
  have hglobal := h.dir
  unfold Global at hglobal
  rw [htxn] at hglobal
  obtain ⟨hsignals, hothers, htrigger, hmemory, m', J, hunblock', hsender, hclose, hroles⟩ :=
    hglobal
  obtain rfl : m' = m := by
    have hunblock' : (a i).unblock = some m' := hunblock'
    rw [hunblock] at hunblock'
    cases hunblock'
    rfl
  cases hclose with
  | clean hown hd htype hmem =>
    have hd : s.dir = ⟨.O_B, none, none⟩ := hd
    have hidle : ∀ j, g.role j = .idle := fun j => by simpa using hroles j
    have hrun := unblockS_clean (ι := ι) (L := L) (r := m') now
    rw [← hd] at hrun
    exact step_unblock_idle h hP hm hidle hsignals hothers htrigger hmemory
      (by simp [ResponseMsg.holding, htype]) (by rw [htype]; rfl) hrun (.O rfl hown hmem)
  | owned hblocked hown =>
    obtain ⟨e, hev, he, hnone, k, hk, hto, hmode⟩ : ∃ e, unblockEvent m'.type = some e ∧
        (e = .UnblockS ∨ e = .UnblockM) ∧ m'.holding false = none ∧ ∃ k, g.own = some k ∧
        (if m'.type = .UNBLOCKS then m'.curOwner else m'.sender) = .cache k ∧
        (e = .UnblockS → m'.type = .UNBLOCKS) := by
      rcases hown with ⟨htype, hown⟩ | ⟨htype, k, hown, hcur⟩
      · exact ⟨.UnblockM, by rw [htype]; rfl, .inr rfl, by simp [ResponseMsg.holding, htype], i,
          hown, by simp [htype, hsender], by simp⟩
      · exact ⟨.UnblockS, by rw [htype]; rfl, .inl rfl, by simp [ResponseMsg.holding, htype], k,
          hown, by simp [htype, hcur], fun _ => htype⟩
    cases hblocked with
    | merging t hst hd hJ hne =>
      exact step_unblock_merging h hn hP hm htxn hst hd hJ hne hsignals hothers htrigger hmemory
        hev he hnone hk hto hroles
    | alone st hst hd hJ =>
      subst hJ
      have hd : s.dir = ⟨st, none, none⟩ := hd
      have hidle : ∀ j, g.role j = .idle := fun j => by simpa using hroles j
      rcases he with rfl | rfl
      · have hrun := unblockS_owned (ι := ι) (L := L) (r := m') now hst
        rw [← hd] at hrun
        exact step_unblock_idle h hP hm hidle hsignals hothers htrigger hmemory hnone hev hrun
          (.owned .NX (.inr (.inl rfl)) rfl k hk)
      · have hrun := unblockM_owned (ι := ι) (L := L) (r := m') now hst
        rw [← hd] at hrun
        exact step_unblock_idle h hP hm hidle hsignals hothers htrigger hmemory hnone hev hrun
          (.owned .NO (.inl rfl) rfl k hk)

end

/-- One of the requests that the owner answered is over. -/
theorem step_unblock_feed (h : Inv g a s) (hP : P.cfg = ⟨false, false⟩)
    (hm : s.holds (.unblock i m)) (htxn : g.txn = .feed J φ false) :
    StepOK P g s (now, .deliverDir (.unblock i m)) := by
  have hunblock : (a i).unblock = some m := Sys.holds_party h.of hm
  have hglobal := h.dir
  unfold Global at hglobal
  rw [htxn] at hglobal
  obtain ⟨hsignals, hmemory, hpending, howner, hroles, t, hst, hd, hcount, htrigger⟩ := hglobal
  obtain ⟨htype, -⟩ := (hsignals i).2.2.2 m hunblock
  have hidle : g.role i = .idle := by
    rcases hroles i with hidle | hactive
    · exact hidle
    · have hrole := (h.party i).role
      rw [hactive] at hrole
      have hnone : (a i).unblock = none := hrole.unblock
      rw [hunblock] at hnone
      cases hnone
  have hrun := unblock_feeding (ι := ι) now hst htype
  have hd : s.dir = ⟨.NO_B_S_W, none, some t⟩ := hd
  rw [← hd] at hrun
  -- one unblock message less
  have hless := tally_of_ne (f := Signal.unblocks) (i := i) (t := fun j => (a j).signal)
    (u := fun j => ((a j).dropDir j (.unblock i m)).signal) (fun j hj => by
      rw [signal_dropUnblock hunblock, if_neg hj]
      rfl)
  have hone : Signal.unblocks (a i).signal = true := by
    simp [Signal.unblocks, Party.signal, hunblock]
  have hnone : Signal.unblocks ((a i).dropDir i (.unblock i m)).signal = false := by
    rw [signal_dropUnblock hunblock, if_pos rfl]
    rfl
  rw [hone, hnone] at hless
  simp only [Bool.toNat_true, Bool.toNat_false] at hless
  have hpos : t.numPendingMsgs ≠ 0 := by omega
  refine h.absorb g hP hm (congrArg (Prod.mk _) (by rw [htype]; rfl)) hrun ?_ rfl rfl rfl
    (fun j => ?_) ?_
  · intro m' hm'
    split at hm'
    · rw [List.mem_singleton.1 hm']
      rfl
    · cases hm'
  · by_cases hj : j = i
    · subst hj
      simp only [Party.dropDir, if_pos]
      exact (h.party j).unblocked (.inl hidle) hunblock (by simp [ResponseMsg.holding, htype])
    · simp only [Party.dropDir, if_neg hj]
      exact h.party j
  · have htrig := htrigger.take (t.numPendingMsgs - 1) hpos .ALL_UNBLOCKS
      ⟨.NO_B_S_W, none, some { t with
        tbeState := .NO_B_S_W, numPendingMsgs := t.numPendingMsgs - 1 }⟩
    unfold Global
    rw [htxn, foldl_take_trigger]
    refine ⟨fun j => ?_, hmemory, hpending, howner, hroles, _, rfl, rfl, ?_, htrig⟩
    · obtain ⟨hanswer, hgrant, hprobe, hunblocks⟩ := hsignals j
      dsimp only
      rw [signal_dropUnblock hunblock]
      refine ⟨hanswer, hgrant, hprobe, fun m' hm' => ?_⟩
      by_cases hj : j = i
      · have hm' : (if j = i then none else (a j).unblock) = some m' := hm'
        rw [if_pos hj] at hm'
        cases hm'
      · have hm' : (if j = i then none else (a j).unblock) = some m' := hm'
        rw [if_neg hj] at hm'
        exact hunblocks m' hm'
    · show t.numPendingMsgs - 1 = _
      omega

/-! ## Write-backs -/

/-- A write-back is taken. -/
theorem step_unblock_back (txn : Txn ι) {l : DirLine ι L} {sent : List (DirSend ι L)}
    {c : Holding L} (h : Inv g a s) (hP : P.cfg = ⟨false, false⟩)
    (hm : s.holds (.unblock i m)) (hidle : ∀ j, g.role j = .idle)
    (hprobe : ∀ j, (a j).signal.probe = none) (hown : g.own = some i)
    (hc : m.holding false = some c) (howned : c.owned)
    (hev : unblockEvent m.type = some e)
    (hrun : doTransition (broadcast now) (.unblock m) e s.dir = .ok ⟨l, sent, true⟩)
    (hsent : ∀ m ∈ sent, m.inert = true) (hclears : ∀ j, txn.clears j = false)
    (hseen : ∀ b, txn ≠ .dmaRead b)
    (hhub : sent.foldl Hub.take { s.hub with dir := l } = b)
    (hdir : Global { g with txn := txn, own := none }
      (fun j => ((a j).dropDir j (.unblock i m)).signal) b) :
    StepOK P g s (now, .deliverDir (.unblock i m)) := by
  have hunblock : (a i).unblock = some m := Sys.holds_party h.of hm
  refine h.absorb { g with txn := txn, own := none } hP hm (congrArg (Prod.mk _) hev) hrun
    hsent hhub rfl rfl (fun j => ?_) hdir
  by_cases hj : j = i
  · subst hj
    simp only [Party.dropDir, if_pos]
    have hrole := (h.party j).role
    have hheld := (h.party j).held
    rw [hidle j] at hrole hheld
    obtain ⟨hrests, hIdle⟩ := hrole
    have hrests' : Rests { a j with unblock := none } := ⟨hrests.trigger, hrests.responses⟩
    have hbefore : (a j).holdings false
        = ({ a j with unblock := none } : Party ι L).holdings false + {c} := by
      rw [hrests.holdings, hrests'.holdings, hunblock]
      simp [hc]
    have hheld : Held g.own g.excl g.cur (s.memory = g.cur) j ((a j).holdings false) := hheld
    rw [hown, hbefore] at hheld
    refine .of_rest (by simp [hidle j]) ?_ (hheld.give_back howned) ?_ ?_ ?_
    · show Role.Fits _ j _ (g.role j)
      rw [hidle j]
      exact ⟨hrests', hIdle⟩
    · intro m' hm'
      have hm' : (a j).signal.probe = some m' := hm'
      rw [hprobe j] at hm'
      cases hm'
    · intro hcl
      have hcl : txn.clears j = true := hcl
      rw [hclears j] at hcl
      cases hcl
    · exact fun b hb => absurd hb (hseen b)
  · simp only [Party.dropDir, if_neg hj]
    refine (h.party j).passive (.inl (hidle j)) rfl (fun hheld => ?_) (.inl (hprobe j)) ?_ ?_
    · refine hheld.of_own ?_
      rw [hown]
      simp [Ne.symm hj]
    · intro hcl
      have hcl : txn.clears j = true := hcl
      rw [hclears j] at hcl
      cases hcl
    · exact fun b hb => absurd hb (hseen b)

theorem step_unblock_writeBack (h : Inv g a s) (hP : P.cfg = ⟨false, false⟩)
    (hm : s.holds (.unblock i m)) (htxn : g.txn = .writeBack i) :
    StepOK P g s (now, .deliverDir (.unblock i m)) := by
  have hunblock : (a i).unblock = some m := Sys.holds_party h.of hm
  have hglobal := h.dir
  unfold Global at hglobal
  rw [htxn] at hglobal
  obtain ⟨hquiet, hidle, htrigger, hmemory, hd, ⟨k, hk⟩, hprobe, hanswer, hcase⟩ := hglobal
  have hd : s.dir = ⟨.WB, none, none⟩ := hd
  obtain ⟨hgrant, hmsg⟩ : (a i).signal.grant ≠ some .WB_ACK ∧
      (m.type = .UNBLOCK ∨ g.own = some i ∧ m.WritesBack) := by
    rcases hcase with ⟨-, hnone⟩ | ⟨hgrant, m', hm', hmsg⟩
    · have hnone : (a i).unblock = none := hnone
      rw [hunblock] at hnone
      cases hnone
    · have hm' : (a i).unblock = some m' := hm'
      rw [hunblock] at hm'
      cases hm'
      exact ⟨hgrant, hmsg⟩
  have hsignals : ∀ j, (a j).signal.probe = none ∧ (a j).signal.answer = none ∧
      (a j).signal.grant ≠ some .WB_ACK := fun j => by
    by_cases hj : j = i
    · subst hj
      exact ⟨hprobe, hanswer, hgrant⟩
    · exact ⟨(hquiet j hj).probe, (hquiet j hj).answer, (hquiet j hj).grant⟩
  have hothers : ∀ j, j ≠ i → (a j).signal.unblock = none := fun j hj => (hquiet j hj).unblock
  have hquiet' : ∀ j, ((a j).dropDir j (.unblock i m)).signal.Quiet := fun j => by
    rw [signal_dropUnblock hunblock]
    refine ⟨(hsignals j).1, (hsignals j).2.1, ?_, (hsignals j).2.2⟩
    show (if j = i then none else (a j).unblock) = none
    split
    · rfl
    · rename_i hj
      exact hothers j hj
  rcases hmsg with htype | ⟨hown, hback⟩
  · have hrun := writeback_none (ι := ι) (L := L) (r := m) now
    rw [← hd] at hrun
    exact step_unblock_idle h hP hm hidle hsignals hothers htrigger hmemory
      (by simp [ResponseMsg.holding, htype]) (by rw [htype]; rfl) hrun
      (.owned .NX (.inr (.inl rfl)) rfl k hk)
  · have hheld := (h.party i).held
    rw [hidle i] at hheld
    have hheld : Held g.own g.excl g.cur (s.memory = g.cur) i ((a i).holdings false) := hheld
    have hmem {c : Holding L} (hc : m.holding false = some c) : c ∈ (a i).holdings false := by
      simp [Party.holdings, hunblock, hc]
    have hstep (txn : Txn ι) {e : Event} {l : DirLine ι L} {sent : List (DirSend ι L)}
        {c : Holding L} {b : Hub ι L} (hc : m.holding false = some c) (howned : c.owned = true)
        (hev : unblockEvent m.type = some e)
        (hrun : doTransition (broadcast now) (.unblock m) e s.dir = .ok ⟨l, sent, true⟩)
        (hsent : ∀ m ∈ sent, m.inert = true) (hclears : ∀ j, txn.clears j = false)
        (hseen : ∀ b, txn ≠ .dmaRead b) (hhub : sent.foldl Hub.take { s.hub with dir := l } = b)
        (hdir : Global { g with txn := txn, own := none }
          (fun j => ((a j).dropDir j (.unblock i m)).signal) b) :=
      step_unblock_back txn h hP hm hidle (fun j => (hsignals j).1) hown hc howned hev hrun hsent
        hclears hseen hhub hdir
    have hwriting {l : DirLine ι L} {d : DataBlock L} (hblk : d = g.cur) :
        Writing (Hub.take { s.hub with dir := l } (.memory (.write d))) g.cur g.cur := by
      refine .inl ⟨?_, hmemory.2⟩
      show _ ::ₘ s.requestToMemory = _
      rw [show s.requestToMemory = 0 from hmemory.1, hblk]
      rfl
    rcases hback with ⟨htype | htype, hdirty⟩ | htype | htype
    · have hc : m.holding false = some ⟨true, false, m.dataBlk, m.dirty⟩ := by
        simp [ResponseMsg.holding, htype]
      have hrun := writeback_clean (ι := ι) now hdirty
      rw [← hd] at hrun
      refine hstep .idle hc rfl (by rw [htype]; rfl) hrun (by simp) (fun _ => rfl)
        (fun b hb => by cases hb) rfl ?_
      exact ⟨hquiet', hidle, htrigger, hmemory, .O rfl rfl (hheld.clean _ (hmem hc) rfl hdirty)⟩
    · have hc : m.holding false = some ⟨true, true, m.dataBlk, m.dirty⟩ := by
        simp [ResponseMsg.holding, htype]
      have hrun := writeback_exclusive_clean (ι := ι) now hdirty
      rw [← hd] at hrun
      refine hstep .idle hc rfl (by rw [htype]; rfl) hrun (by simp) (fun _ => rfl)
        (fun b hb => by cases hb) rfl ?_
      exact ⟨hquiet', hidle, htrigger, hmemory,
        .E rfl rfl (hheld.excl _ (hmem hc) rfl) (hheld.clean _ (hmem hc) rfl hdirty)⟩
    · have hc : m.holding false = some ⟨true, false, m.dataBlk, m.dirty⟩ := by
        simp [ResponseMsg.holding, htype]
      have hrun := writeback_dirty (ι := ι) (r := m) now
      rw [← hd] at hrun
      refine hstep .memoryWrite hc rfl (by rw [htype]; rfl) hrun (by simp [DirSend.inert])
        (fun _ => rfl) (fun b hb => by cases hb) rfl ?_
      exact ⟨hquiet', hidle, htrigger, rfl, .shared rfl (hwriting (hheld.blk _ (hmem hc)))⟩
    · have hc : m.holding false = some ⟨true, true, m.dataBlk, m.dirty⟩ := by
        simp [ResponseMsg.holding, htype]
      have hrun := writeback_exclusive_dirty (ι := ι) (r := m) now
      rw [← hd] at hrun
      refine hstep .memoryWrite hc rfl (by rw [htype]; rfl) hrun (by simp [DirSend.inert])
        (fun _ => rfl) (fun b hb => by cases hb) rfl ?_
      exact ⟨hquiet', hidle, htrigger, rfl,
        .exclusive rfl (hheld.excl _ (hmem hc) rfl) (hwriting (hheld.blk _ (hmem hc)))⟩

theorem step_unblock (h : Inv g a s) (hn : 1 < Fintype.card ι) (hP : P.cfg = ⟨false, false⟩)
    (hm : s.holds (.unblock i m)) : StepOK P g s (now, .deliverDir (.unblock i m)) := by
  have hunblock : (a i).unblock = some m := Sys.holds_party h.of hm
  rcases h.dir.unblocks hunblock with htxn | ⟨J, φ, htxn⟩ | htxn
  · exact step_unblock_close h hn hP hm htxn
  · exact step_unblock_feed h hP hm htxn
  · exact step_unblock_writeBack h hP hm htxn

end Gem5Gpu.VIHammer
