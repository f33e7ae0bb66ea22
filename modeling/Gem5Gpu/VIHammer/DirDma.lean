import Gem5Gpu.VIHammer.DirMemory

/-!
# The end of a DMA request

The directory counts the answers of the caches to a DMA request.  The last one
triggers the end of the request, and so does the last unblock message of the GETS
requests that were answered together.
-/

namespace Gem5Gpu.VIHammer

open Lib Directory

variable {tt : TriggerType}

variable {ι : Type} [DecidableEq ι] [Fintype ι] {L : ℕ} {P : Params} {g g' : Ghost ι L}
  {a : ι → Party ι L} {s : Sys ι L} {i j k r : ι} {now n : ℕ} {mem : Prop} {p : Party ι L}
  {m : ResponseMsg ι L} {x : Bool} {τ φ : ℕ} {J : Finset ι} {σ : ι → Signal ι L} {b b' : Hub ι L}
  {seen : Bool} {t : DirTBE ι L} {st : Directory.State}

/-! ## Answers to a DMA request -/

/-- The answer of a cache that keeps a copy. -/
def ResponseMsg.keeps (m : ResponseMsg ι L) : Bool :=
  m.type = .ACK_SHARED || m.type = .DATA_SHARED

/-- The TBE of a DMA request after an answer. -/
def Directory.DirTBE.hear (t : DirTBE ι L) (m : ResponseMsg ι L) : DirTBE ι L :=
  { t with
    numPendingMsgs := t.numPendingMsgs - 1
    cacheDirty := t.cacheDirty || m.isData
    dataBlk := if m.isData then m.dataBlk else t.dataBlk
    sharers := t.sharers || m.keeps
    owned := t.owned || (m.type = .DATA_SHARED : Bool) }

/-- The directory in `st` takes the answer `m` and sends `sent`. -/
def Hears (now : ℕ) (st : Directory.State) (t : DirTBE ι L) (m : ResponseMsg ι L)
    (sent : List (DirSend ι L)) : Prop :=
  ∃ e, responseEvent m.type = some e ∧
    doTransition (broadcast now) (.response m) e (⟨st, none, some t⟩ : DirLine ι L)
      = .ok ⟨⟨st, none, some { t.hear m with tbeState := st }⟩, sent, true⟩

/-- The directory takes an answer while it waits for the memory. -/
theorem hear_fetch (now : ℕ) (hst : t.tbeState = st) (hstate : st = .NO_DR_B_W ∨ st = .O_DR_B_W)
    (hm : m.type = .ACK ∨ m.type = .ACK_SHARED) (hacks : m.acks = if m.isData then 2 else 1) :
    Hears now st t m [] := by
  have hpos : 0 < m.acks := by rw [hacks]; split <;> decide
  rcases hm with hm | hm
  · refine ⟨.Ack, by rw [hm]; rfl, ?_⟩
    rw [answer_ack_fetch now hst hpos hstate]
    simp [DirTBE.hear, DirTBE.count, ResponseMsg.isData, ResponseMsg.keeps, isData, hm, hacks]
  · refine ⟨.Shared_Ack, by rw [hm]; rfl, ?_⟩
    rw [answer_shared_fetch now hst hpos hstate]
    simp [DirTBE.hear, DirTBE.count, ResponseMsg.isData, ResponseMsg.keeps, isData, hm, hacks]

/-- The directory takes an answer, and may have got all of them. -/
theorem hear (now : ℕ) (hst : t.tbeState = st) (hacks : m.acks = if m.isData then 2 else 1)
    (hm : (st = .NO_DR_B ∨ st = .O_DR_B) ∧ (m.type = .ACK ∨ m.type = .ACK_SHARED) ∨
      st = .NO_DR_B_D ∧ (m.type = .ACK ∨ m.type = .ACK_SHARED ∨ m.type = .DATA_SHARED ∨
        m.type = .DATA_EXCLUSIVE) ∨
      st = .NO_DW_B_W ∧ (m.type = .ACK ∨ m.type = .DATA ∨ m.type = .DATA_EXCLUSIVE)) :
    Hears now st t m (t.hear m).completion := by
  have hpos : 0 < m.acks := by rw [hacks]; split <;> decide
  have hack (h : m.type = .ACK) (hstate : st = .NO_DR_B ∨ st = .O_DR_B ∨ st = .NO_DR_B_D ∨
      st = .NO_DW_B_W) : Hears now st t m (t.hear m).completion := by
    refine ⟨.Ack, by rw [h]; rfl, ?_⟩
    rw [answer_ack now hst hpos hstate]
    simp [DirTBE.hear, DirTBE.count, ResponseMsg.isData, ResponseMsg.keeps, isData, h, hacks]
  have hshared (h : m.type = .ACK_SHARED) (hstate : st = .NO_DR_B ∨ st = .O_DR_B ∨
      st = .NO_DR_B_D) : Hears now st t m (t.hear m).completion := by
    refine ⟨.Shared_Ack, by rw [h]; rfl, ?_⟩
    rw [answer_shared now hst hpos hstate]
    simp [DirTBE.hear, DirTBE.count, ResponseMsg.isData, ResponseMsg.keeps, isData, h, hacks]
  have hdata (h : m.type = .DATA ∨ m.type = .DATA_EXCLUSIVE)
      (hstate : st = .NO_DR_B_D ∨ st = .NO_DW_B_W) : Hears now st t m (t.hear m).completion := by
    rcases h with h | h
    · refine ⟨.Data, by rw [h]; rfl, ?_⟩
      rw [answer_data now hst hpos hstate (.inl rfl)]
      simp [DirTBE.hear, DirTBE.count, ResponseMsg.isData, ResponseMsg.keeps, isData, h]
    · refine ⟨.Exclusive_Data, by rw [h]; rfl, ?_⟩
      rw [answer_data now hst hpos hstate (.inr rfl)]
      simp [DirTBE.hear, DirTBE.count, ResponseMsg.isData, ResponseMsg.keeps, isData, h]
  rcases hm with ⟨hstate, h | h⟩ | ⟨rfl, h | h | h | h⟩ | ⟨rfl, h | h | h⟩
  · exact hack h (hstate.imp_right .inl)
  · exact hshared h (hstate.imp_right .inl)
  · exact hack h (.inr (.inr (.inl rfl)))
  · exact hshared h (.inr (.inr rfl))
  · refine ⟨.Shared_Data, by rw [h]; rfl, ?_⟩
    rw [answer_owner now hst hpos]
    simp [DirTBE.hear, DirTBE.count, ResponseMsg.isData, ResponseMsg.keeps, isData, h]
  · exact hdata (.inr h) (.inl rfl)
  · exact hack h (.inr (.inr (.inr rfl)))
  · exact hdata (.inl h) (.inr rfl)
  · exact hdata (.inr h) (.inr rfl)

section

variable (hm : (a i).answer = some m)
include hm

omit [Fintype ι] in
/-- The signals after an answer is taken. -/
theorem signal_dropAnswer (j : ι) :
    ((a j).dropDir j (.response i m)).signal
      = { (a j).signal with answer := if j = i then none else (a j).answer } := by
  by_cases hj : j = i
  · subst hj
    simp [Party.dropDir, Party.signal]
  · simp [Party.dropDir, Party.signal, hj]

/-- An answer less is on its way. -/
theorem tally_dropAnswer : tally Signal.answers (fun j => (a j).signal)
      = tally Signal.answers (fun j => ((a j).dropDir j (.response i m)).signal) + 1 := by
  have hless := tally_of_ne (f := Signal.answers) (i := i) (t := fun j => (a j).signal)
    (u := fun j => ((a j).dropDir j (.response i m)).signal) (fun j hj => by
      rw [signal_dropAnswer hm, if_neg hj]
      rfl)
  have hone : Signal.answers (a i).signal = true := by simp [Signal.answers, Party.signal, hm]
  have hnone : Signal.answers ((a i).dropDir i (.response i m)).signal = false := by
    rw [signal_dropAnswer hm, if_pos rfl]
    rfl
  rw [hone, hnone] at hless
  simp only [Bool.toNat_true, Bool.toNat_false] at hless
  omega

theorem tally_dropAnswer_probed :
    tally Signal.probed (fun j => ((a j).dropDir j (.response i m)).signal)
      = tally Signal.probed (fun j => (a j).signal) :=
  tally_congr fun j => by
    rw [signal_dropAnswer hm]
    rfl

/-- An answer less is due. -/
theorem count_dropAnswer {c : ℤ} (hc : c = tally Signal.probed (fun j => (a j).signal)
      + tally Signal.answers (fun j => (a j).signal)) :
    c ≠ 0 ∧ c - 1 = tally Signal.probed (fun j => ((a j).dropDir j (.response i m)).signal)
        + tally Signal.answers (fun j => ((a j).dropDir j (.response i m)).signal) := by
  rw [hc, tally_dropAnswer hm, tally_dropAnswer_probed hm]
  push_cast
  omega

omit [Fintype ι] in
/-- The signals of a DMA request without the answer that is taken. -/
theorem signals_dropAnswer {Q Q' : ι → ResponseMsg ι L → Prop}
    (hQ : ∀ j m, Q j m → Q' j m)
    (h : ∀ j, (a j).signal.unblock = none ∧ (a j).signal.grant ≠ some .WB_ACK ∧
      ((a j).signal.probe ≠ none → (a j).signal.answer = none) ∧
      ∀ m, (a j).signal.answer = some m → Q j m) (j : ι) :
    ((a j).dropDir j (.response i m)).signal.unblock = none ∧
      ((a j).dropDir j (.response i m)).signal.grant ≠ some .WB_ACK ∧
      (((a j).dropDir j (.response i m)).signal.probe ≠ none →
        ((a j).dropDir j (.response i m)).signal.answer = none) ∧
      ∀ m', ((a j).dropDir j (.response i m)).signal.answer = some m' → Q' j m' := by
  obtain ⟨hunblock, hgrant, hprobe, hans⟩ := h j
  rw [signal_dropAnswer hm]
  refine ⟨hunblock, hgrant, fun hne => ?_, fun m' hm' => ?_⟩
  · show (if j = i then none else (a j).answer) = none
    split
    · rfl
    · exact hprobe hne
  · have hm' : (if j = i then none else (a j).answer) = some m' := hm'
    split at hm'
    · cases hm'
    · exact hQ j m' (hans m' hm')

end

omit [Fintype ι] in
/-- A cache whose answer to the directory is taken. -/
theorem PartyOK.answered {txn : Txn ι} (h : PartyOK n g mem i p) (hidle : g.role i = .idle)
    (hm : p.answer = some m) (hprobe : txn.probe = g.txn.probe)
    (hclears : txn.clears i = g.txn.clears i)
    (hseen : ∀ b', txn = .dmaRead b' → ∃ b, g.txn = .dmaRead b ∧ (b || m.keeps) = b') :
    PartyOK n { g with txn := txn } mem i { p with answer := none } := by
  have hrole := h.role
  have hheld := h.held
  have hcleared := h.cleared
  have hseen' := h.seen
  rw [hidle] at hrole hheld hcleared hseen'
  refine .of_rest (by simp [hidle]) ?_ hheld ?_ ?_ ?_
  · show Role.Fits _ i _ (g.role i)
    rw [hidle]
    exact ⟨⟨hrole.1.trigger, hrole.1.responses⟩, hrole.2⟩
  · intro m' hm'
    show txn.probe = _
    rw [hprobe]
    exact h.probe m' hm'
  · intro hc
    have hc : txn.clears i = true := hc
    rw [hclears] at hc
    exact hcleared hc
  · intro b' hb' hnone hne
    obtain ⟨b, hb, rfl⟩ := hseen b' hb'
    left
    rcases hseen' b hb hnone hne with rfl | ⟨m', hm', htype⟩
    · rfl
    · rw [hm] at hm'
      cases hm'
      simp [ResponseMsg.keeps, htype]

/-- The directory takes an answer to a DMA request. -/
theorem step_hear {e : Event} {l : DirLine ι L} {sent : List (DirSend ι L)} (txn : Txn ι)
    (h : Inv g a s) (hP : P.cfg = ⟨false, false⟩) (hm : s.holds (.response i m))
    (hidle : ∀ j, g.role j = .idle) (hev : responseEvent m.type = some e)
    (hrun : doTransition (broadcast now) (.response m) e s.dir = .ok ⟨l, sent, true⟩)
    (hsent : ∀ m ∈ sent, m.inert = true) (hprobe : txn.probe = g.txn.probe)
    (hclears : ∀ j, txn.clears j = g.txn.clears j)
    (hseen : ∀ b', txn = .dmaRead b' → ∃ b, g.txn = .dmaRead b ∧ (b || m.keeps) = b')
    (hdir : Global { g with txn := txn } (fun j => ((a j).dropDir j (.response i m)).signal)
      (sent.foldl Hub.take { s.hub with dir := l })) :
    StepOK P g s (now, .deliverDir (.response i m)) := by
  have hanswer : (a i).answer = some m := Sys.holds_party h.of hm
  refine h.absorb { g with txn := txn } hP hm (congrArg (Prod.mk _) hev) hrun hsent rfl rfl rfl
    (fun j => ?_) hdir
  by_cases hj : j = i
  · subst hj
    simp only [Party.dropDir, if_pos]
    exact (h.party j).answered (hidle j) hanswer hprobe (hclears j) hseen
  · simp only [Party.dropDir, if_neg hj]
    refine (h.party j).passive (.inl (hidle j)) rfl id (.inr hprobe) (fun hc => ?_) fun b' hb' => ?_
    · rw [← hclears j]
      exact hc
    · obtain ⟨b, hb, rfl⟩ := hseen b' hb'
      exact ⟨b, hb, fun hb => by simp [hb]⟩

section

variable (h : Inv g a s) (hP : P.cfg = ⟨false, false⟩) (hm : s.holds (.response i m) = true)
include h hP hm

/-- A DMA read is answered. -/
theorem step_response_read (htxn : g.txn = .dmaRead seen) :
    StepOK P g s (now, .deliverDir (.response i m)) := by
  have hanswer : (a i).answer = some m := Sys.holds_party h.of hm
  have hglobal := h.dir
  unfold Global at hglobal
  rw [htxn] at hglobal
  obtain ⟨hsignals, hidle, hseen, t, hread, hsharers, howned, hcount⟩ := hglobal
  have hfits := (hsignals i).2.2.2 m hanswer
  obtain ⟨hpos, hcount'⟩ := count_dropAnswer hanswer hcount
  have hstep {e : Event} {l : DirLine ι L} {sent : List (DirSend ι L)}
      (hev : responseEvent m.type = some e)
      (hrun : doTransition (broadcast now) (.response m) e s.dir = .ok ⟨l, sent, true⟩)
      (hsent : ∀ m ∈ sent, m.inert = true)
      (hread : ∃ t', DirRead { g with txn := .dmaRead (seen || m.keeps) }
        (sent.foldl Hub.take { s.hub with dir := l })
        (fun j => ((a j).dropDir j (.response i m)).signal) t' ∧ t'.sharers = (t.hear m).sharers ∧
        t'.owned = (t.hear m).owned ∧ t'.numPendingMsgs = (t.hear m).numPendingMsgs) :
      StepOK P g s (now, .deliverDir (.response i m)) := by
    obtain ⟨t', hread, hsharers', howned', hcount''⟩ := hread
    refine step_hear (.dmaRead (seen || m.keeps)) h hP hm hidle hev hrun hsent ?_ ?_ ?_ ?_
    · rw [htxn]
      rfl
    · rw [htxn]
      exact fun j => rfl
    · intro b' hb'
      cases hb'
      exact ⟨seen, htxn, rfl⟩
    · refine ⟨signals_dropAnswer hanswer (fun j m hm => ?_) hsignals, hidle, fun he => ?_, t',
        hread, ?_, fun ho => ?_, ?_⟩
      · exact ⟨hm.type, hm.acks, hm.shared, hm.exclusive, hm.calm⟩
      · rcases hfits.calm he with htype | htype <;> simp [ResponseMsg.keeps, htype, hseen he]
      · rw [hsharers']
        simp [DirTBE.hear, hsharers]
      · rw [howned'] at ho
        rcases Bool.or_eq_true_iff.1 ho with ho | ho
        · obtain ⟨hs, hk⟩ := howned ho
          exact ⟨by simp [hs], hk⟩
        · have htype : m.type = .DATA_SHARED := of_decide_eq_true ho
          exact ⟨by simp [ResponseMsg.keeps, htype], i, (hfits.shared htype).2⟩
      · rw [hcount'']
        exact hcount'
  have hcalm' (hcalm : ∀ k m, (a k).signal.answer = some m → m.type ≠ .DATA_EXCLUSIVE) :
      ∀ k m', ((a k).dropDir k (.response i m)).signal.answer = some m' →
        m'.type ≠ .DATA_EXCLUSIVE := fun k m' hm' => by
    rw [signal_dropAnswer hanswer] at hm'
    have hm' : (if k = i then none else (a k).answer) = some m' := hm'
    split at hm'
    · cases hm'
    · exact hcalm k m' hm'
  have hclean (hown : g.own = none)
      (hcalm : ∀ k m, (a k).signal.answer = some m → m.type ≠ .DATA_EXCLUSIVE) :
      m.type = .ACK ∨ m.type = .ACK_SHARED := by
    rcases hfits.type with htype | htype | htype | htype
    · exact .inl htype
    · exact .inr htype
    · have hi := (hfits.shared htype).2
      rw [hown] at hi
      cases hi
    · exact absurd htype (hcalm i m hanswer)
  have hzero {tt : TriggerType} (htrigger : Triggered s.hub.trigger t.numPendingMsgs tt) :
      s.hub.trigger = 0 := by
    rwa [Triggered, if_neg hpos] at htrigger
  cases hread with
  | fetch st hst hd hown hmem hfetch hdirty htrigger htype hcalm =>
    have hd : s.dir = ⟨st, none, some t⟩ := hd
    have hkind := hclean hown hcalm
    obtain ⟨e, hev, hrun⟩ := hear_fetch now hst (htype.imp_left And.left) hkind hfits.acks
    rw [← hd] at hrun
    have hdata : m.isData = false := by
      rcases hkind with hk | hk <;> simp [ResponseMsg.isData, isData, hk]
    refine hstep hev hrun (by simp) ⟨_, .fetch st rfl rfl hown hmem hfetch ?_ htrigger htype
      (hcalm' hcalm), rfl, rfl, rfl⟩
    simp [DirTBE.hear, hdirty, hdata]
  | fetched st hst hd hown hmemory hdata htrigger htype hcalm =>
    have hd : s.dir = ⟨st, none, some t⟩ := hd
    have hkind := hclean hown hcalm
    obtain ⟨e, hev, hrun⟩ := hear now hst hfits.acks (.inl ⟨htype.imp_left And.left, hkind⟩)
    rw [← hd] at hrun
    have hno : m.isData = false := by
      rcases hkind with hk | hk <;> simp [ResponseMsg.isData, isData, hk]
    refine hstep hev hrun completion_inert ?_
    rw [foldl_take_completion (by exact hzero htrigger)]
    refine ⟨_, .fetched st rfl rfl hown hmemory ?_ rfl htype (hcalm' hcalm), rfl, rfl, rfl⟩
    simp [DirTBE.hear, hdata, hno]
  | owner hst hd hmemory htrigger hdata hkept htaken =>
    have hd : s.dir = ⟨.NO_DR_B_D, none, some t⟩ := hd
    obtain ⟨e, hev, hrun⟩ := hear now hst hfits.acks (.inr (.inl ⟨rfl, hfits.type⟩))
    rw [← hd] at hrun
    refine hstep hev hrun completion_inert ?_
    rw [foldl_take_completion (by exact hzero htrigger)]
    refine ⟨_, .owner rfl rfl hmemory rfl ?_ ?_ ?_, rfl, rfl, rfl⟩
    · intro hdirty
      show (if m.isData then m.dataBlk else t.dataBlk) = g.cur
      cases hisData : m.isData with
      | true =>
        rcases hfits.type with htype | htype | htype | htype
        · simp [ResponseMsg.isData, isData, htype] at hisData
        · simp [ResponseMsg.isData, isData, htype] at hisData
        · exact (hfits.shared htype).1
        · exact (hfits.exclusive htype).1
      | false =>
        have hdirty : (t.cacheDirty || m.isData) = true := hdirty
        rw [hisData, Bool.or_false] at hdirty
        exact hdata hdirty
    · intro k hk
      obtain ⟨hclean, hwhere⟩ := hkept k hk
      refine ⟨fun he => ?_, ?_⟩
      · show (t.cacheDirty || m.isData) = false
        rcases hfits.calm he with htype | htype
        · simp [hclean he, ResponseMsg.isData, isData, htype]
        · have hnone : g.own = none := (hfits.exclusive htype).2
          have hk : g.own = some k := hk
          rw [hnone] at hk
          cases hk
      · rw [signal_dropAnswer hanswer]
        rcases hwhere with hprobe | howner | ⟨m', hm', htype⟩
        · exact .inl hprobe
        · exact .inr (.inl (by simp [DirTBE.hear, howner]))
        · by_cases hki : k = i
          · subst hki
            have hm' : (a k).answer = some m' := hm'
            rw [hanswer] at hm'
            cases hm'
            exact .inr (.inl (by simp [DirTBE.hear, htype]))
          · exact .inr (.inr ⟨m', (if_neg hki).trans hm', htype⟩)
    · intro hnone
      obtain ⟨hexcl, hwhere⟩ := htaken hnone
      refine ⟨hexcl, ?_⟩
      rcases hwhere with hdirty | ⟨k, m', hm', htype⟩
      · exact .inl (by simp [DirTBE.hear, hdirty])
      · by_cases hki : k = i
        · subst hki
          have hm' : (a k).answer = some m' := hm'
          rw [hanswer] at hm'
          cases hm'
          exact .inl (by simp [DirTBE.hear, ResponseMsg.isData, isData, htype])
        · refine .inr ⟨k, m', ?_, htype⟩
          rw [signal_dropAnswer hanswer]
          exact (if_neg hki).trans hm'

/-- A DMA write is answered. -/
theorem step_response_write (htxn : g.txn = .dmaWrite) :
    StepOK P g s (now, .deliverDir (.response i m)) := by
  have hanswer : (a i).answer = some m := Sys.holds_party h.of hm
  have hglobal := h.dir
  unfold Global at hglobal
  rw [htxn] at hglobal
  obtain ⟨hsignals, hidle, hmemory, hwritten, hown, t, hst, hd, hsharers, hcount, htrigger⟩ :=
    hglobal
  have hfits := (hsignals i).2.2.2 m hanswer
  have hd : s.dir = ⟨.NO_DW_B_W, none, some t⟩ := hd
  obtain ⟨e, hev, hrun⟩ := hear now hst hfits.acks (.inr (.inr ⟨rfl, hfits.type⟩))
  rw [← hd] at hrun
  obtain ⟨hpos, hcount'⟩ := count_dropAnswer hanswer hcount
  have hzero : s.hub.trigger = 0 := by rwa [Triggered, if_neg hpos] at htrigger
  have hkeeps : m.keeps = false := by
    rcases hfits.type with htype | htype | htype <;> simp [ResponseMsg.keeps, htype]
  have hsharers' : (t.hear m).sharers = false := by simp [DirTBE.hear, hsharers, hkeeps]
  refine step_hear .dmaWrite h hP hm hidle hev hrun completion_inert ?_ ?_ (fun b' hb' => ?_) ?_
  · rw [htxn]
  · rw [htxn]
    exact fun j => rfl
  · cases hb'
  · rw [foldl_take_completion (by exact hzero)]
    refine ⟨signals_dropAnswer hanswer (fun j m hm => hm) hsignals, hidle, hmemory, hwritten,
      fun k hk => ?_, _, rfl, rfl, hsharers', hcount', ?_⟩
    · dsimp only
      rw [signal_dropAnswer hanswer]
      exact hown k hk
    · show _ = if (t.hear m).numPendingMsgs = 0 then _ else _
      rw [dmaTrigger, hsharers']
      rfl

/-- The directory takes an answer of a cache. -/
theorem step_answer : StepOK P g s (now, .deliverDir (.response i m)) := by
  have hanswer : (a i).answer = some m := Sys.holds_party h.of hm
  have hno (hnone : (a i).signal.answer = none) :
      StepOK P g s (now, .deliverDir (.response i m)) := by
    have hnone : (a i).answer = none := hnone
    rw [hanswer] at hnone
    cases hnone
  have hglobal := h.dir
  unfold Global at hglobal
  cases htxn : g.txn with rw [htxn] at hglobal
  | idle => exact hno (hglobal.1 i).answer
  | serve r x τ φ => exact hno (hglobal.1 i).1
  | close r => exact hno (hglobal.1 i).2.1
  | feed J φ pending => exact hno (hglobal.1 i).1
  | dmaRead seen => exact step_response_read h hP hm htxn
  | dmaWrite => exact step_response_write h hP hm htxn
  | writeBack k =>
    obtain ⟨hquiet, -, -, -, -, -, -, hnone, -⟩ := hglobal
    by_cases hi : i = k
    · subst hi
      exact hno hnone
    · exact hno (hquiet i hi).answer
  | memoryWrite => exact hno (hglobal.1 i).answer

end

/-! ## Triggers -/

/-- A trigger is in the queue when nothing is pending. -/
theorem Triggered.of_mem {q : Multiset TriggerType} {c : ℤ} {tt tt' : TriggerType}
    (h : Triggered q c tt) (hm : tt' ∈ q) : c = 0 ∧ tt' = tt ∧ q.erase tt' = 0 := by
  unfold Triggered at h
  split at h
  · rename_i hc
    subst h
    obtain rfl := Multiset.mem_singleton.1 hm
    exact ⟨hc, rfl, erase_singleton _⟩
  · subst h
    exact absurd hm (Multiset.notMem_zero _)

/-- All GETS requests that the owner answered are over. -/
theorem step_trigger_feed {pending : Bool} (h : Inv g a s)
    (hP : P.cfg = ⟨false, false⟩) (hm : s.holds (.trigger tt))
    (htxn : g.txn = .feed J φ pending) : StepOK P g s (now, .deliverDir (.trigger tt)) := by
  have hmem : tt ∈ s.hub.trigger := Sys.holds_party h.of hm
  have hglobal := h.dir
  unfold Global at hglobal
  rw [htxn] at hglobal
  obtain ⟨hsignals, hmemory, hpending, ⟨k, hown, -⟩, hroles, t, hst, hd, hcount, htrigger⟩ :=
    hglobal
  obtain ⟨hzero, rfl, hempty⟩ := htrigger.of_mem hmem
  have hd : s.dir = ⟨.NO_B_S_W, none, some t⟩ := hd
  have hrun : doTransition (broadcast now) (.trigger .ALL_UNBLOCKS) .All_Unblocks s.dir
      = .ok ⟨⟨.NX, none, none⟩, [], true⟩ := by
    rw [hd]
    exact allUnblocks now hst
  have hidle : ∀ j, g.role j = .idle := fun j => by
    have hno := tally_eq_zero_iff.1 (show tally (fun ρ => decide (ρ ≠ Role.idle)) g.role = 0 by
      omega) j
    simpa using hno
  have hunblock : ∀ j, (a j).signal.unblock = none := fun j => by
    have hno := tally_eq_zero_iff.1
      (show tally Signal.unblocks (fun j => (a j).signal) = 0 by omega) j
    simpa [Signal.unblocks] using hno
  have hdone : pending = false := by
    cases hp : pending with
    | false => rfl
    | true =>
      obtain ⟨j, hj⟩ := hpending hp
      have hwait := hroles j
      rw [hp, if_pos rfl, if_pos hj, hidle j] at hwait
      cases hwait
  have hprobe : ∀ j, (a j).signal.probe = none := fun j => by
    by_contra hne
    have hp := ((hsignals j).2.2.1.1 hne).2
    rw [hdone] at hp
    cases hp
  refine h.absorb { g with txn := .idle } hP hm rfl hrun (by simp) rfl rfl rfl (fun j => ?_) ?_
  · exact (h.party j).settled (.inl (hidle j)) (hprobe j) .idle rfl (fun b hb => by cases hb)
  · exact ⟨fun j => ⟨hprobe j, (hsignals j).1, hunblock j, (hsignals j).2.1⟩, hidle, hempty,
      hmemory, .owned .NX (.inr (.inl rfl)) rfl k hown⟩

omit [DecidableEq ι] in
/-- The end of a DMA request: no cache has anything to say. -/
theorem quiet_of_tally
    (hsignals : ∀ j, (a j).signal.unblock = none ∧ (a j).signal.grant ≠ some .WB_ACK)
    (hcount : (0 : ℤ) = tally Signal.probed (fun j => (a j).signal)
      + tally Signal.answers (fun j => (a j).signal)) (j : ι) : (a j).signal.Quiet := by
  have hprobe :=
    tally_eq_zero_iff.1 (show tally Signal.probed (fun j => (a j).signal) = 0 by omega) j
  have hanswer :=
    tally_eq_zero_iff.1 (show tally Signal.answers (fun j => (a j).signal) = 0 by omega) j
  exact ⟨by simpa [Signal.probed] using hprobe, by simpa [Signal.answers] using hanswer,
    (hsignals j).1, (hsignals j).2⟩

/-- The block of a DMA request is written to the memory. -/
theorem step_store {e : Event} {l : DirLine ι L} {d : DataBlock L} (excl : Bool)
    (lm : List (DMAResponseMsg L)) (h : Inv g a s) (hP : P.cfg = ⟨false, false⟩)
    (hm : s.holds (.trigger tt)) (hquiet : ∀ j, (a j).signal.Quiet)
    (hidle : ∀ j, g.role j = .idle) (hempty : s.hub.trigger.erase tt = 0) (hmemory : MemIdle s.hub)
    (hown : g.own = none) (hev : triggerEvent tt = some e)
    (hrun : doTransition (broadcast now) (.trigger tt) e s.dir
      = .ok ⟨l, lm.map .dmaResponse ++ [.memory (.write d)], true⟩)
    (hexcl : excl = g.excl ∨ ∀ j, (a j).holdings false = 0)
    (hdir : ∀ b : Hub ι L, b.dir = l → Writing b g.cur d →
      DirWrite { g with txn := .memoryWrite, excl := excl } b) :
    StepOK P g s (now, .deliverDir (.trigger tt)) := by
  refine h.absorb { g with txn := .memoryWrite, excl := excl } hP hm (congrArg (Prod.mk _) hev) hrun
    ?_ rfl rfl rfl (fun j => ?_) ?_
  · intro m hm
    rcases List.mem_append.1 hm with hm | hm
    · obtain ⟨m, -, rfl⟩ := List.mem_map.1 hm
      rfl
    · rw [List.mem_singleton.1 hm]
      rfl
  · refine (h.party j).passive (.inl (hidle j)) rfl (fun hheld => ?_) (.inl (hquiet j).probe) nofun
      nofun
    rcases hexcl with rfl | hzero
    · exact hheld
    · rw [hzero j, hown]
      exact Held.zero (by simp)
  · rw [List.foldl_append, foldl_take_dma]
    refine ⟨hquiet, hidle, hempty, hown, hdir _ rfl (.inl ⟨?_, hmemory.2⟩)⟩
    show _ ::ₘ s.hub.requests = _
    rw [hmemory.1]
    rfl

variable (h : Inv g a s) (hP : P.cfg = ⟨false, false⟩) (hm : s.holds (.trigger tt) = true)
include h hP hm

/-- All caches have answered a DMA write. -/
theorem step_trigger_write (htxn : g.txn = .dmaWrite) :
    StepOK P g s (now, .deliverDir (.trigger tt)) := by
  have hmem : tt ∈ s.hub.trigger := Sys.holds_party h.of hm
  have hglobal := h.dir
  unfold Global at hglobal
  rw [htxn] at hglobal
  obtain ⟨hsignals, hidle, hmemory, hwritten, hown, t, hst, hd, -, hcount, htrigger⟩ := hglobal
  obtain ⟨hzero, rfl, hempty⟩ := htrigger.of_mem hmem
  have hquiet := quiet_of_tally (fun j => ⟨(hsignals j).1, (hsignals j).2.1⟩)
    (hzero.symm.trans hcount)
  have hnone : g.own = none := by
    cases ho : g.own with
    | none => rfl
    | some k => exact absurd (hquiet k).probe (hown k ho)
  have hd : s.dir = ⟨.NO_DW_B_W, none, some t⟩ := hd
  obtain ⟨d, hrun⟩ := write_done now (.trigger .ALL_ACKS_NO_SHARERS) hst
  rw [← hd] at hrun
  refine step_store true [] h hP hm hquiet hidle hempty hmemory hnone rfl hrun (.inr fun j => ?_) ?_
  · have hcleared := (h.party j).cleared (by rw [htxn]; rfl) (hquiet j).probe
    rwa [hidle j] at hcleared
  · exact fun b hb hw => .dma _ rfl hb rfl hwritten d hw

/-- All caches have answered a DMA read. -/
theorem step_trigger_read (htxn : g.txn = .dmaRead seen) :
    StepOK P g s (now, .deliverDir (.trigger tt)) := by
  have hmem : tt ∈ s.hub.trigger := Sys.holds_party h.of hm
  have hglobal := h.dir
  unfold Global at hglobal
  rw [htxn] at hglobal
  obtain ⟨hsignals, hidle, hseen, t, hread, hsharers, howned, hcount⟩ := hglobal
  -- a copy that no answer told of would be one
  have hgone (hs : seen = false) (hquiet : ∀ j, (a j).signal.Quiet) (j : ι) :
      (a j).holdings false = 0 := by
    by_contra hne
    have hcopy := (h.party j).seen seen htxn (hquiet j).probe (by rw [hidle j]; exact hne)
    rcases hcopy with hs' | ⟨m, hm, -⟩
    · rw [hs] at hs'
      cases hs'
    · rw [show (a j).answer = none from (hquiet j).answer] at hm
      cases hm
  have hfinish {tt' : TriggerType} (htrigger : Triggered s.hub.trigger t.numPendingMsgs tt') :
      tt = tt' ∧ s.hub.trigger.erase tt = 0 ∧ ∀ j, (a j).signal.Quiet := by
    obtain ⟨hzero, rfl, hempty⟩ := htrigger.of_mem hmem
    exact ⟨rfl, hempty, quiet_of_tally (fun j => ⟨(hsignals j).1, (hsignals j).2.1⟩)
      (hzero.symm.trans hcount)⟩
  cases hread with
  | fetch st hst hd hown hmem' hfetch hdirty htrigger =>
    rw [htrigger] at hmem
    exact absurd hmem (Multiset.notMem_zero tt)
  | fetched st hst hd hown hmemory hdata htrigger htype hcalm =>
    obtain ⟨htt, hempty, hquiet⟩ := hfinish htrigger
    have hd : s.dir = ⟨st, none, some t⟩ := hd
    cases seen with
    | false =>
      obtain ⟨lm, hrun⟩ := read_done_exclusive now (.trigger tt) hst (htype.imp And.left .inl)
      rw [← hd, hdata] at hrun
      refine step_store true lm h hP hm hquiet hidle hempty hmemory hown
        (by rw [htt, dmaTrigger, hsharers]; rfl) hrun (.inr (hgone rfl hquiet)) ?_
      exact fun b hb hw => .exclusive hb rfl hw
    | true =>
      have howned' : t.owned = false := by
        cases ho : t.owned with
        | false => rfl
        | true =>
          obtain ⟨-, k, hk⟩ := howned ho
          rw [hown] at hk
          cases hk
      obtain rfl : st = .O_DR_B := by
        rcases htype with ⟨-, hexcl⟩ | hst
        · cases hseen hexcl
        · exact hst
      have hrun := read_done_shared now (.trigger tt) hst
      rw [← hd, hdata] at hrun
      refine step_store g.excl [] h hP hm hquiet hidle hempty hmemory hown
        (by rw [htt, dmaTrigger, hsharers, howned']; rfl) hrun (.inl rfl) ?_
      exact fun b hb hw => .shared hb hw
  | owner hst hd hmemory htrigger hdata hkept htaken =>
    obtain ⟨htt, hempty, hquiet⟩ := hfinish htrigger
    have hd : s.dir = ⟨.NO_DR_B_D, none, some t⟩ := hd
    have hown' {k : ι} (hk : g.own = some k) : t.owned = true := by
      rcases (hkept k hk).2 with hp | ho | ⟨m, hm, -⟩
      · exact absurd (hquiet k).probe hp
      · exact ho
      · rw [(hquiet k).answer] at hm
        cases hm
    cases seen with
    | false =>
      have hown : g.own = none := by
        cases ho : g.own with
        | none => rfl
        | some k => cases (howned (hown' ho)).1
      obtain ⟨hexcl, hdirty⟩ := htaken hown
      have hdirty : t.cacheDirty = true := by
        rcases hdirty with hdirty | ⟨k, m, hm, -⟩
        · exact hdirty
        · rw [(hquiet k).answer] at hm
          cases hm
      obtain ⟨lm, hrun⟩ := read_done_exclusive now (.trigger tt) hst (.inr (.inr ⟨rfl, hdirty⟩))
      rw [← hd, hdata hdirty] at hrun
      refine step_store g.excl lm h hP hm hquiet hidle hempty hmemory hown
        (by rw [htt, dmaTrigger, hsharers]; rfl) hrun (.inl rfl) ?_
      exact fun b hb hw => .exclusive hb hexcl hw
    | true =>
      obtain ⟨k, hk⟩ : ∃ k, g.own = some k := by
        cases ho : g.own with
        | none => cases hseen (htaken ho).1
        | some k => exact ⟨k, rfl⟩
      have hrun := read_done_owner now (.trigger tt) hst
      rw [← hd] at hrun
      have hev : triggerEvent tt = some .All_acks_and_shared_data := by
        rw [htt, dmaTrigger, hsharers, hown' hk]
        rfl
      refine h.absorb { g with txn := .idle } hP hm (congrArg (Prod.mk _) hev) hrun
        (by simp [DirSend.inert]) rfl rfl rfl (fun j => ?_) ?_
      · exact (h.party j).settled (.inl (hidle j)) (hquiet j).probe .idle rfl fun _ h => by cases h
      · exact ⟨hquiet, hidle, hempty, hmemory, .owned .S (.inr (.inr rfl)) rfl k hk⟩

/-- The directory takes its own trigger. -/
theorem step_dirTrigger : StepOK P g s (now, .deliverDir (.trigger tt)) := by
  have hmem : tt ∈ s.hub.trigger := Sys.holds_party h.of hm
  have hno (hzero : s.hub.trigger = 0) : StepOK P g s (now, .deliverDir (.trigger tt)) := by
    rw [hzero] at hmem
    exact absurd hmem (Multiset.notMem_zero tt)
  have hglobal := h.dir
  unfold Global at hglobal
  cases htxn : g.txn with rw [htxn] at hglobal
  | idle => exact hno hglobal.2.2.1
  | serve r x τ φ => exact hno hglobal.2.1
  | close r => exact hno hglobal.2.2.1
  | feed J φ pending => exact step_trigger_feed h hP hm htxn
  | dmaRead seen => exact step_trigger_read h hP hm htxn
  | dmaWrite => exact step_trigger_write h hP hm htxn
  | writeBack k => exact hno hglobal.2.2.1
  | memoryWrite => exact hno hglobal.2.2.1

end Gem5Gpu.VIHammer
