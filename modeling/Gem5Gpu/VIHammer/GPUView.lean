import Gem5Gpu.VIHammer.View

/-!
# A GPU L2 cache seen from outside

The counterpart of the view of a CPU cache.  A GPU L2 cache has one cache memory
and takes the requests of its L1 caches one at a time, so its states are the
sixteen modes.
-/

namespace Gem5Gpu.VIHammer.GPUL2Cache

open Lib Ruby

variable {ι : Type} [DecidableEq ι] {L : ℕ}

/-- The state of a mode. -/
def stateOf : Mode → State
  | .I => .I | .S => .S | .O => .O | .M => .M | .MM => .MM | .IM => .IM | .ISM => .ISM
  | .SM => .SM | .OM => .OM | .IS => .IS | .SS => .SS | .OI => .OI | .MI => .MI
  | .II => .II | .M_W => .M_W | .MM_W => .MM_W

/-- The view of a block. -/
inductive Sees : Line State ι L → View ι L → Prop
  | absent : Sees {} {}
  | rest (e : Entry State L) (m : Mode) (hm : m.resting = true) :
      Sees ⟨some { e with cacheState := stateOf m }, none, none, false⟩ (.rest m e)
  | both (e : Entry State L) (t : TBE State ι L) (m : Mode) (hm : m.getting = true) :
      Sees ⟨some { e with cacheState := stateOf m }, some { t with tbeState := stateOf m },
        none, false⟩ (.ofBoth m e t)
  | tbe (t : TBE State ι L) (m : Mode) (hm : m.leaving = true) :
      Sees ⟨none, some { t with tbeState := stateOf m }, none, false⟩ (.ofTBE m t)

variable {env : Env ι} {l : Line State ι L} {v : View ι L} {m : RequestMsg ι} {r : ResponseMsg ι L}

/-- A transition whose declaration is known. -/
theorem doTransition_row {inp : Input ι L} {e : Event} {t : Transition State Event Action}
    (h : Transition.lookup transitions (l.getState .I) e = some t) :
    doTransition env inp e l = (do
      let c ← runActions (Action.run env inp) t.actions { toLine := l }
      pure { c with
        toLine := c.toLine.setState State.invalid (t.target (l.getState .I)) }) := by
  unfold doTransition
  simp only [h]

omit [DecidableEq ι] in
/-- A view that waits for its block has an entry and a TBE. -/
theorem Sees.eq_both (h : Sees l v) (hv : v.mode.getting) :
    ∃ (e : Entry State L) (t : TBE State ι L) (m : Mode),
      l = ⟨some { e with cacheState := stateOf m }, some { t with tbeState := stateOf m },
        none, false⟩ ∧ v = .ofBoth m e t ∧ m.getting := by
  cases h with
  | absent => cases hv
  | rest e m hm | tbe t m hm => cases m <;> cases hv <;> cases hm
  | both e t m hm => exact ⟨e, t, m, rfl, rfl, hm⟩

omit [DecidableEq ι] in
/-- A view that gives its block up has a TBE alone. -/
theorem Sees.eq_tbe (h : Sees l v) (hv : v.mode.leaving) : ∃ (t : TBE State ι L) (m : Mode),
      l = ⟨none, some { t with tbeState := stateOf m }, none, false⟩ ∧ v = .ofTBE m t ∧
      m.leaving := by
  cases h with
  | absent => cases hv
  | rest e m hm | both e t m hm => cases m <;> cases hv <;> cases hm
  | tbe t m hm => exact ⟨t, m, rfl, rfl, hm⟩

omit [DecidableEq ι] in
/-- A transition that stays in the state leaves the view as it is. -/
theorem Sees.stay (h : Sees l v) : Sees (l.setState State.invalid (l.getState .I)) v := by
  cases h with
  | absent => exact .absent
  | rest e m hm =>
    exact .rest { e with locked := e.locked && !State.invalid (stateOf m) } m hm
  | both e t m hm =>
    exact .both { e with locked := e.locked && !State.invalid (stateOf m) } t m hm
  | tbe t m hm => exact .tbe t m hm

/-- The cache takes a message, sends, and has a view then. -/
def Runs (env : Env ι) (m : Message ι L) (l : Line State ι L) (sent : List (Send ι L))
    (v : View ι L) : Prop :=
  ∃ l', Ctl.receive env m (.gpu l) = .ok ⟨.gpu l', sent, true⟩ ∧ Sees l' v

/-- What a message does to a block: its view changes as `Reacts` says. -/
def ReactsAs (env : Env ι) (m : Message ι L) (l : Line State ι L) (v : View ι L) : Prop :=
  ∃ l' v' sent, Ctl.receive env m (.gpu l) = .ok ⟨.gpu l', sent, true⟩ ∧ Sees l' v' ∧
    Reacts env v m v' sent

/-! ## Forwarded requests -/

theorem receive_probeX (h : Sees l v) (hm : m.type = .GETX) (hv : v.mode.probed)
    (hd : m.directedProbe = false) (hr : m.requestor ≠ .cache env.machineID) :
    Runs env (.forward m) l [.response m.requestor (v.replyX env m)] v.probeX := by
  obtain ⟨type, requestor, merged, directed, it, ft, silent⟩ := m
  subst hm hd
  cases h with
  | absent => exact ⟨_, rfl, .absent⟩
  | rest e m hm =>
    match m, hm with
    | .I, _ | .S, _ | .O, _ | .M, _ | .MM, _ =>
      exact ⟨_, rfl, .rest { e with locked := e.locked && false } .I rfl⟩
  | both e t m hm =>
    match m, hm with
    | .IS, _ => exact ⟨_, rfl, .both e.kept t .IS rfl⟩
    | .IM, _ | .SM, _ =>
      exact ⟨_, rfl, .both e.kept t .IM rfl⟩
    | .OM, _ =>
      exact ⟨_, rfl, .both e.kept
          { t with numPendingMsgs := t.numPendingMsgs + 1 } .IM rfl⟩
  | tbe t m hm =>
    match m, hm with
    | .II, _ => exact ⟨_, rfl, .tbe t .II rfl⟩
    | .OI, _ | .MI, _ =>
      refine ⟨_, ?_, .tbe t .II rfl⟩
      simp only [Ctl.receive, Ctl.gpuEvent, forwardEvent]
      rw [doTransition_row rfl]
      simp only [runActions, Action.run, Input.peekForward, pure_bind,
        Ctx.sendDataFromTBEToCache_eq hr]
      rfl

/-- A forwarded GETS always migrates a modified block. -/
theorem receive_probeS (h : Sees l v) (hm : m.type = .GETS) (hv : v.mode.probed)
    (hd : m.directedProbe = false) (hr : m.requestor ≠ .cache env.machineID)
    (hn : 1 < env.machineCount) :
    Runs env (.forward m) l [.response m.requestor (v.replyS env m true)] (v.probeS true) := by
  obtain ⟨type, requestor, merged, directed, it, ft, silent⟩ := m
  subst hm hd
  simp only [Runs, Ctl.receive, Ctl.gpuEvent, forwardEvent, if_pos hn]
  cases h with
  | absent => exact ⟨_, rfl, .absent⟩
  | rest e m hm =>
    match m, hm with
    | .I, _ | .MM, _ => exact ⟨_, rfl, .rest { e with locked := e.locked && false } .I rfl⟩
    | .S, _ => exact ⟨_, rfl, .rest e.kept .S rfl⟩
    | .O, _ | .M, _ => exact ⟨_, rfl, .rest e.kept .O rfl⟩
  | both e t m hm =>
    match m, hm with
    | .IS, hm | .IM, hm | .SM, hm | .OM, hm => exact ⟨_, rfl, .both e.kept t _ hm⟩
  | tbe t m hm =>
    match m, hm with
    | .II, _ => exact ⟨_, rfl, .tbe t .II rfl⟩
    | .OI, _ | .MI, _ =>
      refine ⟨_, ?_, .tbe t .OI rfl⟩
      rw [doTransition_row rfl]
      simp only [runActions, Action.run, Input.peekForward, pure_bind,
        Ctx.sendDataFromTBEToCache_eq hr]
      rfl

theorem receive_merged (h : Sees l v) (hm : m.type = .MERGED_GETS) (hv : v.mode.supplies) :
    Runs env (.forward m) l [.multicast m.mergedRequestors
      (Ctx.answer env m .DATA_SHARED env.machineCount v.blk v.dirty)] v.share := by
  obtain ⟨type, requestor, merged, directed, it, ft, silent⟩ := m
  subst hm
  cases h with
  | absent => cases hv
  | rest e m hm =>
    match m, hm with
    | .O, _ | .M, _ | .MM, _ =>
      exact ⟨_, rfl, .rest e.kept .O rfl⟩
  | both e t m hm =>
    match m, hm with
    | .OM, _ => exact ⟨_, rfl, .both e.kept t .OM rfl⟩
  | tbe t m hm =>
    match m, hm with
    | .OI, _ | .MI, _ => exact ⟨_, rfl, .tbe t .OI rfl⟩

theorem receive_forward (h : Sees l v) (hn : 1 < env.machineCount)
    (hv : v.ExpectsForward env m) : ReactsAs env (.forward m) l v := by
  simp only [View.ExpectsForward] at hv
  split at hv
  case h_1 hm =>
    obtain ⟨l', hrun, hs⟩ := receive_probeX h hm hv.1 hv.2.1 hv.2.2
    exact ⟨l', _, _, hrun, hs, .probeX hm⟩
  case h_2 hm =>
    obtain ⟨l', hrun, hs⟩ := receive_probeS h hm hv.1 hv.2.1 hv.2.2 hn
    exact ⟨l', _, _, hrun, hs, .probeS true hm⟩
  case h_3 hm =>
    obtain ⟨l', hrun, hs⟩ := receive_merged h hm hv
    exact ⟨l', _, _, hrun, hs, .merged hm⟩
  case h_4 hm =>
    obtain ⟨type, requestor, merged, directed, it, ft, silent⟩ := m
    obtain ⟨t, mode, rfl, rfl, hmode⟩ := h.eq_tbe hv
    subst hm
    match mode, hmode with
    | .OI, _ | .MI, _ | .II, _ => exact ⟨_, _, _, rfl, .absent, .wbAck rfl⟩
  case h_5 hm =>
    obtain ⟨type, requestor, merged, directed, it, ft, silent⟩ := m
    obtain ⟨t, mode, rfl, rfl, -⟩ := h.eq_tbe (by rw [hv]; rfl)
    subst hm
    cases (show mode = .II from hv)
    exact ⟨_, _, _, rfl, .absent, .wbNack rfl⟩
  case h_6 => exact hv.elim

/-! ## Responses -/

omit [DecidableEq ι] in
/-- What the response asserts about the TBE of the view. -/
theorem takes_of_expects {m : Mode} {e : Entry State L} {t : TBE State ι L} {s : State}
    (hv : (View.ofBoth m e t).ExpectsResponse r) :
    TBE.Takes { t with tbeState := s } r :=
  ⟨hv.2.1, hv.2.2.1, hv.2.2.2.1.1, hv.2.2.2.1.2⟩

section

variable (h : Sees l v)
include h

theorem receive_ack (hr : r.type = .ACK) (hv : v.ExpectsResponse r) :
    Runs env (.response r) l (v.count r).completion (v.count r) := by
  obtain ⟨e, t, m, rfl, rfl, hm⟩ := h.eq_both hv.1
  simp only [Runs, Ctl.receive, Ctl.gpuEvent, hr, responseEvent]
  match m, hm with
  | .IM, _ | .ISM, _ | .SM, _ | .OM, _ | .IS, _ | .SS, _ | .M_W, _ | .MM_W, _ =>
    refine ⟨_, ?_, .both e.kept (t.count r) _ rfl⟩
    rw [doTransition_row rfl]
    simp only [runActions, Action.run, Input.peekResponse, pure_bind]
    rw [Ctx.decrementNumberOfMessages_eq rfl (takes_of_expects hv), ok_bind,
      Ctx.checkForCompletion_eq rfl]
    rfl

theorem receive_ackShared (hr : r.type = .ACK_SHARED)
    (hm : v.mode = .IS ∨ v.mode = .SS) (hv : v.ExpectsResponse r) :
    Runs env (.response r) l { v.count r with sharers := true }.completion
      { v.count r with sharers := true } := by
  obtain ⟨e, t, m, rfl, rfl, -⟩ := h.eq_both hv.1
  replace hm : m = .IS ∨ m = .SS := hm
  simp only [Runs, Ctl.receive, Ctl.gpuEvent, hr, responseEvent]
  rcases hm with rfl | rfl
  all_goals
    refine ⟨_, ?_,
      .both e.kept { t.count r with sharers := true } _ rfl⟩
    rw [doTransition_row rfl]
    simp only [runActions, Action.run, Input.peekResponse, pure_bind]
    rw [Ctx.decrementNumberOfMessages_eq rfl (takes_of_expects hv), ok_bind]
    simp only [Ctx.setSharerBit, Ctx.getTBE, Ctx.setTBE, pure_bind]
    rw [Ctx.checkForCompletion_eq rfl]
    rfl

/-- The data of a response is written to the block. -/
theorem receive_data (hr : r.type = .DATA ∨ r.type = .DATA_EXCLUSIVE)
    (hm : v.mode = .IM ∨ v.mode = .IS) (hv : v.ExpectsResponse r) :
    ReactsAs env (.response r) l v := by
  obtain ⟨e, t, m, rfl, rfl, -⟩ := h.eq_both hv.1
  have hwritten := Sees.both (ι := ι) { e.kept with dataBlk := r.dataBlk, dirty := r.dirty }
  rcases hr with hr | hr <;> rcases hm with hm | hm <;> cases (show m = _ from hm)
  on_goal 1 => refine ⟨_, _, _, ?_, hwritten (t.count r) .ISM rfl, .dataIM hr hm⟩
  on_goal 2 => refine ⟨_, _, _, ?_, hwritten { t.count r with curOwner := r.sender } .SS rfl,
    .dataIS hr hm⟩
  on_goal 3 => refine ⟨_, _, _, ?_, .both
    { e.kept with dataBlk := r.dataBlk.copyPartial t.write, dirty := true }
    (t.count r) .MM_W rfl, .exclusiveIM (.store env.machineID t.write) hr hm rfl trivial⟩
  on_goal 4 => refine ⟨_, _, _, ?_, hwritten (t.count r) .M_W rfl, .exclusiveIS hr hm⟩
  all_goals
    simp only [Ctl.receive, Ctl.gpuEvent, hr, responseEvent]
    rw [doTransition_row rfl]
    simp only [runActions, Action.run, Input.peekResponse, pure_bind, Ctx.writeDataToCache,
      Ctx.getEntry, Ctx.setEntry]
    rw [Ctx.decrementNumberOfMessages_eq rfl (takes_of_expects hv), ok_bind,
      Ctx.checkForCompletion_eq rfl]
    rfl

theorem receive_dataSM (hr : r.type = .DATA) (hm : v.mode = .SM)
    (hd : v.blk = r.dataBlk) (hv : v.ExpectsResponse r) :
    ReactsAs env (.response r) l v := by
  obtain ⟨e, t, m, rfl, rfl, -⟩ := h.eq_both hv.1
  cases (show m = .SM from hm)
  refine ⟨_, _, _, ?_, .both { e.kept with dirty := r.dirty || e.dirty }
    (t.count r) .ISM rfl, .dataSM hr hm⟩
  simp only [Ctl.receive, Ctl.gpuEvent, hr, responseEvent]
  rw [doTransition_row rfl]
  simp only [runActions, Action.run, Input.peekResponse, pure_bind]
  rw [Ctx.writeDataToCacheVerify_eq (e := { e with cacheState := .SM }) rfl hd, ok_bind,
    Ctx.decrementNumberOfMessages_eq rfl (takes_of_expects hv), ok_bind,
    Ctx.checkForCompletion_eq rfl, ← hd]
  rfl

theorem receive_sharedIS (hr : r.type = .DATA_SHARED) (hm : v.mode = .IS)
    (hv : v.ExpectsResponse r) : ReactsAs env (.response r) l v := by
  obtain ⟨e, t, m, rfl, rfl, -⟩ := h.eq_both hv.1
  cases (show m = .IS from hm)
  refine ⟨_, _, _, ?_, .both
    { e.kept with dataBlk := r.dataBlk, dirty := r.dirty }
    { t.count r with curOwner := r.sender, sharers := true } .SS rfl, .sharedIS hr hm⟩
  simp only [Ctl.receive, Ctl.gpuEvent, hr, responseEvent]
  rw [doTransition_row rfl]
  simp only [runActions, Action.run, Input.peekResponse, pure_bind, Ctx.writeDataToCache,
    Ctx.getEntry, Ctx.setEntry, Ctx.setSharerBit, Ctx.getTBE, Ctx.setTBE]
  rw [Ctx.decrementNumberOfMessages_eq (t := { t with tbeState := .IS, sharers := true }) rfl
      ⟨hv.2.1, hv.2.2.1, hv.2.2.2.1.1, hv.2.2.2.1.2⟩, ok_bind,
    Ctx.checkForCompletion_eq rfl, ok_bind]
  rfl

theorem receive_response (hv : v.ExpectsResponse r) : ReactsAs env (.response r) l v := by
  have hlast := hv.2.2.2.2
  split at hlast
  case h_1 hr =>
    obtain ⟨l', hrun, hs⟩ := receive_ack h hr hv
    exact ⟨l', _, _, hrun, hs, .ack hr⟩
  case h_2 hr =>
    obtain ⟨l', hrun, hs⟩ := receive_ackShared h hr hlast hv
    exact ⟨l', _, _, hrun, hs, .ackShared hr⟩
  case h_3 hr =>
    rcases hlast with hm | hm | ⟨hm, hd⟩
    · exact receive_data h (.inl hr) (.inr hm) hv
    · exact receive_data h (.inl hr) (.inl hm) hv
    · exact receive_dataSM h hr hm hd hv
  case h_4 hr => exact receive_data h (.inr hr) hlast.symm hv
  case h_5 hr => exact receive_sharedIS h hr hlast hv
  case h_6 => exact hlast.elim

/-! ## Triggers -/

theorem receive_doneStore (hm : v.mode = .ISM ∨ v.mode = .OM)
    (hr : v.lastResponder ≠ .unset ∧ v.lastResponder ≠ .dma) :
    ReactsAs env (.trigger .ALL_ACKS_NO_SHARERS) l v := by
  obtain ⟨e, t, m, rfl, rfl, -⟩ :=
    h.eq_both (by rcases hm with hm | hm <;> rw [hm] <;> rfl)
  refine ⟨_, _, _, ?_, .rest { e.kept with
      dataBlk := e.dataBlk.copyPartial t.write, dirty := true }
    .MM rfl, .doneStore (.store env.machineID t.write) rfl hm rfl trivial⟩
  replace hm : m = .ISM ∨ m = .OM := hm
  replace hr : t.lastResponder ≠ .unset ∧ t.lastResponder ≠ .dma := hr
  rcases hm with rfl | rfl
  all_goals
    simp only [Ctl.receive, Ctl.gpuEvent, triggerEvent]
    rw [doTransition_row rfl]
    simp only [runActions, Action.run, Ctx.getEntry, Ctx.getTBE, check, pure_bind, if_pos hr]
    rfl

theorem receive_trigger {t : TriggerType} (hv : v.ExpectsTrigger t) :
    ReactsAs env (.trigger t) l v := by
  have hS (t : TriggerType) (ht : t = .ALL_ACKS ∨ t = .ALL_ACKS_NO_SHARERS)
      (hm : v.mode = .SS) : ReactsAs env (.trigger t) l v := by
    obtain ⟨e, tbe, m, rfl, rfl, -⟩ := h.eq_both (by rw [hm]; rfl)
    cases (show m = .SS from hm)
    rcases ht with rfl | rfl
    all_goals
      exact ⟨_, _, _, rfl, .rest e.kept .S rfl, .doneS (by simp) rfl⟩
  cases t with
  | ALL_ACKS => exact hS _ (.inl rfl) hv
  | ALL_ACKS_NO_SHARERS =>
    rcases hv with hm | hm | hm | ⟨hm, hr⟩
    · exact hS _ (.inr rfl) hm
    · obtain ⟨e, tbe, m, rfl, rfl, -⟩ := h.eq_both (by rw [hm]; rfl)
      cases (show m = .M_W from hm)
      exact ⟨_, _, _, rfl, .rest e.kept .M rfl, .doneM rfl rfl⟩
    · obtain ⟨e, tbe, m, rfl, rfl, -⟩ := h.eq_both (by rw [hm]; rfl)
      cases (show m = .MM_W from hm)
      exact ⟨_, _, _, rfl, .rest e.kept .MM rfl, .doneMM rfl rfl⟩
    · exact receive_doneStore h hm hr
  | L2_to_L1 | ALL_ACKS_OWNER_EXISTS | ALL_UNBLOCKS => exact hv.elim

/-- A GPU L2 cache has a transition for every message that its view expects. -/
theorem receive_spec {m : Message ι L} (hn : 1 < env.machineCount)
    (hv : v.Expects env m) : ReactsAs env m l v := by
  cases m with
  | trigger t => exact receive_trigger h hv
  | response r => exact receive_response h hv
  | forward m => exact receive_forward h hn hv

end

/-! ## Requests of the L1 caches -/

/-- What a demand does to a block: its view changes as `Serves` says. -/
def ServesAs (env : Env ι) (d : Demand L) (l : Line State ι L) (v : View ι L) : Prop :=
  ∃ l' v' sent b, Ctl.serve env d (.gpu l) = .ok ⟨.gpu l', sent, b⟩ ∧ Sees l' v' ∧
    Serves env v v' sent

theorem serve_get (h : Sees l v) : ServesAs env (.requestL1 .GET) l v := by
  cases h with
  | absent =>
    exact ⟨_, _, _, _, rfl, .both { cacheState := .I, locked := false && true }
      { tbeState := .I, numPendingMsgs := env.machineCount, write := RequestMsgVI.write .GET }
      .IS rfl, .getS _ _ rfl⟩
  | rest e m hm =>
    match m, hm with
    | .I, _ =>
      exact ⟨_, _, _, _, rfl, .both e.kept
        { tbeState := .I, dataBlk := e.dataBlk, dirty := e.dirty
          numPendingMsgs := env.machineCount, write := RequestMsgVI.write .GET } .IS rfl,
        .getS _ _ rfl⟩
    | .S, _ | .O, _ | .M, _ | .MM, _ =>
      exact ⟨_, _, _, _, rfl, Sees.stay (.rest e _ rfl), .load (by simp [View.rest])⟩
  | both e t m hm =>
    match m, hm with
    | .IM, _ | .IS, _ => exact ⟨_, _, _, _, rfl, Sees.stay (.both e t _ rfl), .nothing⟩
    | .ISM, _ | .SM, _ | .OM, _ | .SS, _ | .M_W, _ | .MM_W, _ =>
      exact ⟨_, _, _, _, rfl, Sees.stay (.both e t _ rfl),
        .load (by simp [View.ofBoth, Mode.getting])⟩
  | tbe t m hm =>
    match m, hm with
    | .OI, _ | .MI, _ | .II, _ =>
      exact ⟨_, _, _, _, rfl, Sees.stay (.tbe t _ rfl), .nothing⟩

theorem serve_put (w : Write L) (h : Sees l v) : ServesAs env (.requestL1 (.PUT w)) l v := by
  cases h with
  | absent =>
    exact ⟨_, _, _, _, rfl, .both { cacheState := .I, locked := false && true }
      { tbeState := .I, numPendingMsgs := env.machineCount, write := w } .IM rfl,
      .getX _ _ rfl⟩
  | rest e m hm =>
    have hmiss (m : Mode) (n : ℤ) (hm : m.getting = true) :=
      Sees.both (ι := ι) e.kept
        { tbeState := .I, dataBlk := e.dataBlk, dirty := e.dirty, numPendingMsgs := n
          write := w } m hm
    match m, hm with
    | .I, _ => exact ⟨_, _, _, _, rfl, hmiss .IM env.machineCount rfl, .getX _ _ rfl⟩
    | .S, _ => exact ⟨_, _, _, _, rfl, hmiss .SM env.machineCount rfl, .upgradeS rfl⟩
    | .O, _ =>
      exact ⟨_, _, _, _, rfl, hmiss .OM (env.machineCount + -1) rfl, .upgradeO rfl⟩
    | .M, _ | .MM, _ =>
      exact ⟨_, _, _, _, rfl, .rest { e.kept with
          dataBlk := e.dataBlk.copyPartial w, dirty := true }
        .MM rfl, .store (.store env.machineID w) (by simp [View.rest]) rfl trivial⟩
  | both e t m hm =>
    match m, hm with
    | .IM, _ | .IS, _ | .ISM, _ | .SM, _ | .OM, _ | .SS, _ =>
      exact ⟨_, _, _, _, rfl, Sees.stay (.both e t _ rfl), .nothing⟩
    | .M_W, _ | .MM_W, _ =>
      exact ⟨_, _, _, _, rfl, .both { e.kept with
          dataBlk := e.dataBlk.copyPartial w, dirty := true } t
        .MM_W rfl, .storeEarly (.store env.machineID w) (by simp [View.ofBoth]) rfl trivial⟩
  | tbe t m hm =>
    match m, hm with
    | .OI, _ | .MI, _ | .II, _ =>
      exact ⟨_, _, _, _, rfl, Sees.stay (.tbe t _ rfl), .nothing⟩

theorem serve_makeRoomL2 (h : Sees l v) : ServesAs env .makeRoomL2 l v := by
  cases h with
  | absent => exact ⟨_, _, _, _, rfl, .absent, .nothing⟩
  | rest e m hm =>
    have hleave (m : Mode) (hm : m.leaving) :=
      Sees.tbe (ι := ι) { tbeState := .I, dataBlk := e.dataBlk, dirty := e.dirty } m hm
    match m, hm with
    | .I, _ => exact ⟨_, _, _, _, rfl, .absent, .nothing⟩
    | .S, _ => exact ⟨_, _, _, _, rfl, .absent, .drop rfl⟩
    | .O, _ => exact ⟨_, _, _, _, rfl, hleave .OI rfl, .putO rfl⟩
    | .M, _ => exact ⟨_, _, _, _, rfl, hleave .MI rfl, .putM (.inl rfl)⟩
    | .MM, _ => exact ⟨_, _, _, _, rfl, hleave .MI rfl, .putM (.inr rfl)⟩
  | both e t m hm =>
    match m, hm with
    | .IM, _ | .IS, _ | .ISM, _ | .SM, _ | .OM, _ | .SS, _ | .M_W, _ | .MM_W, _ =>
      exact ⟨_, _, _, _, rfl, Sees.stay (.both e t _ rfl), .nothing⟩
  | tbe t m hm => exact ⟨_, _, _, _, rfl, .tbe t m hm, .nothing⟩

/-- A GPU L2 cache has a transition for every request of an L1 cache. -/
theorem serve_spec (d : Demand L) (h : Sees l v) : ServesAs env d l v := by
  cases d with
  | mandatory | makeRoomL1 => exact ⟨_, _, _, _, rfl, h, .nothing⟩
  | makeRoomL2 => exact serve_makeRoomL2 h
  | requestL1 m =>
    cases m with
    | GET => exact serve_get h
    | PUT w => exact serve_put w h

end Gem5Gpu.VIHammer.GPUL2Cache
