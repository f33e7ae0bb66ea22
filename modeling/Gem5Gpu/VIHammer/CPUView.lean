import Gem5Gpu.VIHammer.View

/-!
# A CPU cache seen from outside

`Sees l v k` relates a block at a CPU cache to its view: the entry and the TBE
are there that the mode asks for, and the sequencer has the request that the TBE
was allocated for.  Each theorem runs the transition of one message or request
in all states that the view allows, and finds what `Reacts` and `Serves` say.
-/

namespace Gem5Gpu.VIHammer.CPUCache


open Lib Ruby

variable {ι : Type} [DecidableEq ι] {L : ℕ} {ev : Event} {e : Entry State L}
  {q : SequencerRequest L}

/-- The state of a block without a TBE. -/
def restState (k : Move) : Mode → State
  | .S => match k with | .settled => .S | .transfer => .ST | .ready => .SR
  | .O => match k with | .settled => .O | .transfer => .OT | .ready => .OR
  | .M => match k with | .settled => .M | .transfer => .MT | .ready => .MR
  | .MM => match k with | .settled => .MM | .transfer => .MMT | .ready => .MMR
  | _ => match k with | .settled => .I | .transfer => .IT | .ready => .IR

/-- The state of a block with a TBE. -/
def stateOf : Mode → State
  | .I => .I | .S => .S | .O => .O | .M => .M | .MM => .MM | .IM => .IM | .ISM => .ISM
  | .SM => .SM | .OM => .OM | .IS => .IS | .SS => .SS | .OI => .OI | .MI => .MI
  | .II => .II | .M_W => .M_W | .MM_W => .MM_W

/-- The sequencer has no request for the block, or one that is still in the
mandatory queue. -/
def SeqIdle (o : Option (SequencerRequest L)) (b : Bool) : Prop :=
  (b = true ∧ ∃ r, o = some r ∧ r.type ≠ .FLUSH) ∨ (b = false ∧ o = none)

/-- The sequencer has the request that the mode waits with. -/
def SeqOK (m : Mode) (o : Option (SequencerRequest L)) (b : Bool) : Prop :=
  match m with
  | .IS => b = false ∧ ∃ r, o = some r ∧ r.type.isWrite = false
  | .IM | .SM | .OM | .ISM =>
    b = false ∧ ∃ r, o = some r ∧ r.type.isWrite = true ∧ r.type ≠ .FLUSH
  | _ => SeqIdle o b

/-- The view of a block. -/
inductive Sees : Line State ι L → View ι L → Move → Prop
  | absent {o b} (seq : SeqIdle o b) : Sees ⟨none, none, o, b⟩ {} .settled
  | rest {o b} (e : Entry State L) (m : Mode) (k : Move) (hm : m.resting = true)
      (hk : k ≠ .settled → e.level ≠ .L2 ∧ b = true) (seq : SeqIdle o b) :
      Sees ⟨some { e with cacheState := restState k m }, none, o, b⟩ (.rest m e) k
  | both {o b} (e : Entry State L) (t : TBE State ι L) (m : Mode) (hm : m.getting = true)
      (hl : e.level ≠ .L2) (seq : SeqOK m o b) :
      Sees ⟨some { e with cacheState := stateOf m }, some { t with tbeState := stateOf m },
        o, b⟩ (.ofBoth m e t) .settled
  | tbe {o b} (t : TBE State ι L) (m : Mode) (hm : m.leaving = true) (seq : SeqIdle o b) :
      Sees ⟨none, some { t with tbeState := stateOf m }, o, b⟩ (.ofTBE m t) .settled

variable {env : Env ι} {l : Line State ι L} {v : View ι L} {k : Move} {m : RequestMsg ι}
  {r : ResponseMsg ι L}

/-- A transition whose declaration is known and does not stall. -/
theorem doTransition_row {inp : Input ι L} {e : Event} {t : Transition State Event Action}
    (h : Transition.lookup transitions (l.getState .I) e = some t) (hz : .z_stall ∉ t.actions) :
    doTransition env inp e l = (do
      let c ← runActions (Action.run env inp) t.actions { toLine := l }
      pure { c with
        toLine := c.toLine.setState State.invalid (t.target (l.getState .I)) }) := by
  unfold doTransition
  simp only [h]
  rw [if_neg hz]

omit [DecidableEq ι] in
/-- A view that waits for its block has an entry and a TBE. -/
theorem Sees.eq_both (h : Sees l v k) (hv : v.mode.getting) :
    ∃ (e : Entry State L) (t : TBE State ι L) (m : Mode) (o : _) (b : _),
      l = ⟨some { e with cacheState := stateOf m }, some { t with tbeState := stateOf m },
        o, b⟩ ∧ v = .ofBoth m e t ∧
      k = .settled ∧ m.getting = true ∧ e.level ≠ .L2 ∧ SeqOK m o b := by
  cases h with
  | absent seq => cases hv
  | rest e m k hm hk seq | tbe t m hm seq => cases m <;> cases hv <;> cases hm
  | both e t m hm hl seq => exact ⟨e, t, m, _, _, rfl, rfl, rfl, hm, hl, seq⟩

omit [DecidableEq ι] in
/-- A view that gives its block up has a TBE alone. -/
theorem Sees.eq_tbe (h : Sees l v k) (hv : v.mode.leaving) :
    ∃ (t : TBE State ι L) (m : Mode) (o : _) (b : _),
      l = ⟨none, some { t with tbeState := stateOf m }, o, b⟩ ∧ v = .ofTBE m t ∧
      m.leaving = true ∧ SeqIdle o b := by
  cases h with
  | absent seq => cases hv
  | rest e m k hm hk seq | both e t m hm hl seq => cases m <;> cases hv <;> cases hm
  | tbe t m hm seq => exact ⟨t, m, _, _, rfl, rfl, hm, seq⟩

omit [DecidableEq ι] in
/-- A transition that stays in the state leaves the view as it is. -/
theorem Sees.stay (h : Sees l v k) : Sees (l.setState State.invalid (l.getState .I)) v k := by
  cases h with
  | absent seq => exact .absent seq
  | rest e m k hm hk seq =>
    exact .rest { e with locked := e.locked && !State.invalid (restState k m) } m k hm hk seq
  | both e t m hm hl seq =>
    exact .both { e with locked := e.locked && !State.invalid (stateOf m) } t m hm hl seq
  | tbe t m hm seq => exact .tbe t m hm seq

/-- The cache takes a message, sends, and has a view then. -/
def Runs (env : Env ι) (m : Message ι L) (l : Line State ι L) (sent : List (Send ι L))
    (v : View ι L) : Prop :=
  ∃ l', Ctl.receive env m (.cpu l) = .ok ⟨.cpu l', sent, true⟩ ∧ Sees l' v .settled

/-! ## Forwarded requests -/

theorem receive_probeX (h : Sees l v .settled) (hm : m.type = .GETX) (hv : v.mode.probed)
    (hd : m.directedProbe = false) (hr : m.requestor ≠ .cache env.machineID) :
    Runs env (.forward m) l [.response m.requestor (v.replyX env m)] v.probeX := by
  obtain ⟨type, requestor, merged, directed, it, ft, silent⟩ := m
  subst hm hd
  cases h with
  | absent seq => exact ⟨_, rfl, .absent seq⟩
  | rest e m k hm hk seq =>
    match m, hm with
    | .I, _ | .S, _ | .O, _ | .M, _ | .MM, _ =>
      exact ⟨_, rfl, .rest { e with locked := e.locked && false } .I .settled rfl (by simp) seq⟩
  | both e t m hm hl seq =>
    match m, hm with
    | .IS, _ => exact ⟨_, rfl, .both e.kept t .IS rfl hl seq⟩
    | .IM, _ | .SM, _ =>
      exact ⟨_, rfl, .both e.kept t .IM rfl hl seq⟩
    | .OM, _ =>
      exact ⟨_, rfl, .both e.kept
          { t with numPendingMsgs := t.numPendingMsgs + 1 } .IM rfl hl seq⟩
  | tbe t m hm seq =>
    match m, hm with
    | .II, _ => exact ⟨_, rfl, .tbe t .II rfl seq⟩
    | .OI, _ | .MI, _ =>
      refine ⟨_, ?_, .tbe t .II rfl seq⟩
      simp only [Ctl.receive, Ctl.cpuEvent, forwardEvent]
      rw [doTransition_row rfl (by decide)]
      simp only [runActions, Action.run, Input.peekForward, pure_bind,
           Ctx.sendDataFromTBEToCache_eq hr]
      rfl

/-- A forwarded GETS, which migrates a modified block unless it was accessed by an
atomic request. -/
theorem receive_probeS (h : Sees l v .settled) (hm : m.type = .GETS)
    (hv : v.mode.probed) (hd : m.directedProbe = false)
    (hr : m.requestor ≠ .cache env.machineID) (hn : 1 < env.machineCount) :
    ∃ mig, Runs env (.forward m) l [.response m.requestor (v.replyS env m mig)]
      (v.probeS mig) := by
  obtain ⟨type, requestor, merged, directed, it, ft, silent⟩ := m
  subst hm hd
  obtain ⟨mig, hev⟩ : ∃ mig : Bool, forwardEvent env l .GETS =
      some (if mig then .Other_GETS else .Other_GETS_No_Mig) := by
    simp only [forwardEvent, if_pos hn]
    cases l.entry.elim false (·.atomicAccessed) && env.noMigAtomic
    · exact ⟨true, rfl⟩
    · exact ⟨false, rfl⟩
  refine ⟨mig, ?_⟩
  simp only [Runs, Ctl.receive, Ctl.cpuEvent, hev]
  clear hev
  cases h with
  | absent seq => cases mig <;> exact ⟨_, rfl, .absent seq⟩
  | rest e m k hm hk seq =>
    match m, hm with
    | .I, _ =>
      cases mig <;> exact
        ⟨_, rfl, .rest { e with locked := e.locked && false } .I .settled rfl (by simp) seq⟩
    | .S, _ =>
      cases mig <;> exact
        ⟨_, rfl, .rest e.kept .S .settled rfl (by simp) seq⟩
    | .O, _ | .M, _ =>
      cases mig <;> exact
        ⟨_, rfl, .rest e.kept .O .settled rfl (by simp) seq⟩
    | .MM, _ =>
      cases mig with
      | false =>
        exact ⟨_, rfl, .rest e.kept .O .settled rfl (by simp) seq⟩
      | true =>
        exact ⟨_, rfl, .rest { e with locked := e.locked && false } .I .settled rfl (by simp) seq⟩
  | both e t m hm hl seq =>
    match m, hm with
    | .IS, hm | .IM, hm | .SM, hm | .OM, hm =>
      cases mig <;> exact ⟨_, rfl, .both e.kept t _ hm hl seq⟩
  | tbe t m hm seq =>
    match m, hm with
    | .II, _ => cases mig <;> exact ⟨_, rfl, .tbe t .II rfl seq⟩
    | .OI, _ | .MI, _ =>
      cases mig
      all_goals
        refine ⟨_, ?_, .tbe t .OI rfl seq⟩
        rw [doTransition_row rfl (by decide)]
        simp only [runActions, Action.run, Input.peekForward, pure_bind,
          Ctx.sendDataFromTBEToCache_eq hr]
        rfl

theorem receive_merged (h : Sees l v .settled) (hm : m.type = .MERGED_GETS)
    (hv : v.mode.supplies) :
    Runs env (.forward m) l [.multicast m.mergedRequestors
      (Ctx.answer env m .DATA_SHARED env.machineCount v.blk v.dirty)] v.share := by
  obtain ⟨type, requestor, merged, directed, it, ft, silent⟩ := m
  subst hm
  cases h with
  | absent seq => cases hv
  | rest e m k hm hk seq =>
    match m, hm with
    | .O, _ | .M, _ | .MM, _ =>
      exact ⟨_, rfl, .rest e.kept .O .settled rfl (by simp) seq⟩
  | both e t m hm hl seq =>
    match m, hm with
    | .OM, _ => exact ⟨_, rfl, .both e.kept t .OM rfl hl seq⟩
  | tbe t m hm seq =>
    match m, hm with
    | .OI, _ | .MI, _ => exact ⟨_, rfl, .tbe t .OI rfl seq⟩

/-- A block that moves between the L1 and L2 caches answers later. -/
theorem receive_moving (h : Sees l v k) (hk : k ≠ .settled)
    (hm : m.type = .GETX ∨ m.type = .GETS ∨ m.type = .MERGED_GETS) (hn : 1 < env.machineCount) :
    Ctl.receive env (.forward m) (.cpu l) = .ok ⟨.cpu l, [], false⟩ := by
  cases h with
  | absent seq | both e t m hm hl seq | tbe t m hm seq => exact absurd rfl hk
  | rest e mode k hmode _ seq =>
    -- the six forwarded events have the same declaration
    have hstall (ev : Event) (hev : ev = .Other_GETX ∨ ev = .Other_GETS ∨
        ev = .Other_GETS_No_Mig ∨ ev = .Merged_GETS) (inp : Input ι L) {o b} :
        doTransition env inp ev ⟨some { e with cacheState := restState k mode }, none, o, b⟩ =
        .ok { toLine := ⟨some { e with cacheState := restState k mode }, none, o, b⟩ } := by
      match mode, hmode, k with
      | .I, _, .transfer | .I, _, .ready | .S, _, .transfer | .S, _, .ready
      | .O, _, .transfer | .O, _, .ready | .M, _, .transfer | .M, _, .ready
      | .MM, _, .transfer | .MM, _, .ready => rcases hev with rfl | rfl | rfl | rfl <;> rfl
    rcases hm with hm | hm | hm
    · simp only [Ctl.receive, Ctl.cpuEvent, hm, forwardEvent]
      rw [hstall _ (by simp)]
      rfl
    · simp only [Ctl.receive, Ctl.cpuEvent, hm, forwardEvent, if_pos hn]
      split
      · rename_i heq
        split at heq <;> cases heq
      · rename_i heq
        rw [hstall]
        · rfl
        · split at heq <;> cases heq <;> simp
    · simp only [Ctl.receive, Ctl.cpuEvent, hm, forwardEvent]
      rw [hstall _ (by simp)]
      rfl

theorem receive_wbAck (h : Sees l v k) (hm : m.type = .WB_ACK) (hv : v.mode.leaving) :
    Runs env (.forward m) l [.unblock (v.putAnswer env)] {} := by
  obtain ⟨type, requestor, merged, directed, it, ft, silent⟩ := m
  subst hm
  obtain ⟨t, mode, o, b, rfl, rfl, hmode, seq⟩ := h.eq_tbe hv
  match mode, hmode with
  | .OI, _ | .MI, _ | .II, _ => exact ⟨_, rfl, .absent seq⟩

theorem receive_wbNack (h : Sees l v k) (hm : m.type = .WB_NACK) (hv : v.mode = .II) :
    Runs env (.forward m) l [] {} := by
  obtain ⟨type, requestor, merged, directed, it, ft, silent⟩ := m
  subst hm
  obtain ⟨t, mode, o, b, rfl, rfl, -, seq⟩ := h.eq_tbe (by rw [hv]; rfl)
  cases (show mode = .II from hv)
  exact ⟨_, rfl, .absent seq⟩

/-! ## Responses -/

section

variable {e : Entry State L} {t : TBE State ι L} {o : Option (SequencerRequest L)} {b : Bool}

theorem run_ack (ht : t.Takes r) : runActions (Action.run env (.response r))
      [.m_decrementNumberOfMessages, .o_checkForCompletion, .n_popResponseQueue]
      { toLine := ⟨some e, some t, o, b⟩ } =
    .ok ⟨⟨some e, some (t.count r), o, b⟩, (t.count r).completion, true⟩ := by
  simp only [runActions, Action.run, Input.peekResponse, pure_bind]
  rw [Ctx.decrementNumberOfMessages_eq rfl ht, ok_bind, Ctx.checkForCompletion_eq rfl]
  rfl

theorem run_ackShared (ht : t.Takes r) : runActions (Action.run env (.response r))
      [.m_decrementNumberOfMessages, .r_setSharerBit, .o_checkForCompletion, .n_popResponseQueue]
      { toLine := ⟨some e, some t, o, b⟩ } =
    .ok ⟨⟨some e, some { t.count r with sharers := true }, o, b⟩,
      { t.count r with sharers := true }.completion, true⟩ := by
  simp only [runActions, Action.run, Input.peekResponse, pure_bind]
  rw [Ctx.decrementNumberOfMessages_eq rfl ht, ok_bind]
  simp only [Ctx.setSharerBit, Ctx.getTBE, Ctx.setTBE, pure_bind]
  rw [Ctx.checkForCompletion_eq rfl]
  rfl

end

omit [DecidableEq ι] in
/-- What the response asserts about the TBE of the view. -/
theorem takes_of_expects {m : Mode} {t : TBE State ι L} {s : State}
    (hv : (View.ofBoth m e t).ExpectsResponse r) :
    TBE.Takes { t with tbeState := s } r :=
  ⟨hv.2.1, hv.2.2.1, hv.2.2.2.1.1, hv.2.2.2.1.2⟩

theorem receive_ack (h : Sees l v k) (hr : r.type = .ACK) (hv : v.ExpectsResponse r) :
    Runs env (.response r) l (v.count r).completion (v.count r) := by
  obtain ⟨e, t, m, o, b, rfl, rfl, -, hm, hl, seq⟩ := h.eq_both hv.1
  simp only [Runs, Ctl.receive, Ctl.cpuEvent, hr, responseEvent]
  match m, hm with
  | .IM, _ | .ISM, _ | .SM, _ | .OM, _ | .IS, _ | .SS, _ | .M_W, _ | .MM_W, _ =>
    refine ⟨_, ?_, .both e.kept (t.count r) _ rfl hl seq⟩
    rw [doTransition_row rfl (by decide)]
    dsimp only
    rw [run_ack (takes_of_expects hv)]
    rfl

theorem receive_ackShared (h : Sees l v k) (hr : r.type = .ACK_SHARED) (hv : v.ExpectsResponse r) :
    Runs env (.response r) l { v.count r with sharers := true }.completion
      { v.count r with sharers := true } := by
  obtain ⟨e, t, m, o, b, rfl, rfl, -, hm, hl, seq⟩ := h.eq_both hv.1
  have hmode : m = .IS ∨ m = .SS := by
    have hlast := hv.2.2.2.2
    rw [hr] at hlast
    exact hlast
  simp only [Runs, Ctl.receive, Ctl.cpuEvent, hr, responseEvent]
  rcases hmode with rfl | rfl
  all_goals
    refine ⟨_, ?_, .both e.kept
      { t.count r with sharers := true } _ rfl hl seq⟩
    rw [doTransition_row rfl (by decide)]
    dsimp only
    rw [run_ackShared (takes_of_expects hv)]
    rfl

omit [DecidableEq ι] in
theorem readCallback_eq {c : Ctx State ι L}
    (ho : c.outstanding = some q) (hq : q.type.isWrite = false) :
    readCallback env c e =
      .ok (({ c with outstanding := none }).report (some (.load env.machineID e.dataBlk))) := by
  simp only [readCallback, ho, check, if_pos hq]
  rfl

omit [DecidableEq ι] in
theorem writeCallback_eq {c : Ctx State ι L}
    {atomic : Bool} (ho : c.outstanding = some q) (hq : q.type.isWrite) :
    writeCallback env c e atomic = .ok ((({ c with outstanding := none }).setEntry { e with
          dataBlk := blockAfter q e.dataBlk
          dirty := true
          locked := lockAfter q.type e
          atomicAccessed := e.atomicAccessed || atomic }).report
        (callbackOf env.machineID q e)) := by
  simp only [writeCallback, ho, check, if_pos hq]
  rfl

omit [DecidableEq ι] in
/-- What a write request shows of itself is what it does to the block. -/
theorem exists_callbackOf (i : ι) (e : Entry State L)
    (hq : q.type.isWrite) (hf : q.type ≠ .FLUSH) :
    ∃ cb, callbackOf i q e = some cb ∧ cb.cache = i ∧ cb.Returns e.dataBlk ∧
      ∀ d, cb.apply d = blockAfter q d := by
  obtain ⟨type, w⟩ := q
  cases type with
  | LD | IFETCH => cases hq
  | FLUSH => exact absurd rfl hf
  | ST | Locked_RMW_Write | Store_Conditional => exact ⟨_, rfl, rfl, trivial, fun _ => rfl⟩
  | RMW_Read | Locked_RMW_Read | Load_Linked => exact ⟨_, rfl, rfl, rfl, fun _ => rfl⟩

/-- What a message does to a block: its view changes as `Reacts` says. -/
def ReactsAs (env : Env ι) (m : Message ι L) (l : Line State ι L) (v : View ι L) : Prop :=
  ∃ l' v' sent, Ctl.receive env m (.cpu l) = .ok ⟨.cpu l', sent, true⟩ ∧
    Sees l' v' .settled ∧ Reacts env v m v' sent

theorem Runs.reacts {m : Message ι L} {v' : View ι L} {sent : List (Send ι L)}
    (h : Runs env m l sent v') (hr : Reacts env v m v' sent) : ReactsAs env m l v :=
  let ⟨l', hrun, hs⟩ := h
  ⟨l', _, _, hrun, hs, hr⟩

section

variable (h : Sees l v k)
include h

theorem receive_dataIM (hr : r.type = .DATA) (hm : v.mode = .IM) (hv : v.ExpectsResponse r) :
    Runs env (.response r) l (v.count r).completion
      { v.count r with mode := .ISM, blk := r.dataBlk, dirty := r.dirty } := by
  obtain ⟨e, t, m, o, b, rfl, rfl, -, -, hl, seq⟩ := h.eq_both hv.1
  cases (show m = .IM from hm)
  simp only [Runs, Ctl.receive, Ctl.cpuEvent, hr, responseEvent]
  refine ⟨_, ?_, .both { e.kept with dataBlk := r.dataBlk, dirty := r.dirty }
    (t.count r) .ISM rfl hl seq⟩
  rw [doTransition_row rfl (by decide)]
  simp only [runActions, Action.run, Input.peekResponse, pure_bind, Ctx.writeDataToCache,
    Ctx.getEntry, Ctx.setEntry]
  rw [Ctx.decrementNumberOfMessages_eq rfl (takes_of_expects hv), ok_bind,
    Ctx.checkForCompletion_eq rfl]
  rfl

theorem receive_dataSM (hr : r.type = .DATA) (hm : v.mode = .SM)
    (hd : v.blk = r.dataBlk) (hv : v.ExpectsResponse r) :
    Runs env (.response r) l (v.count r).completion
      { v.count r with mode := .ISM, dirty := r.dirty || v.dirty } := by
  obtain ⟨e, t, m, o, b, rfl, rfl, -, -, hl, seq⟩ := h.eq_both hv.1
  cases (show m = .SM from hm)
  simp only [Runs, Ctl.receive, Ctl.cpuEvent, hr, responseEvent]
  refine ⟨_, ?_, .both { e.kept with dirty := r.dirty || e.dirty }
    (t.count r) .ISM rfl hl seq⟩
  rw [doTransition_row rfl (by decide)]
  simp only [runActions, Action.run, Input.peekResponse, pure_bind]
  rw [Ctx.writeDataToCacheVerify_eq (e := { e with cacheState := .SM }) rfl hd, ok_bind,
    Ctx.decrementNumberOfMessages_eq rfl (takes_of_expects hv), ok_bind,
    Ctx.checkForCompletion_eq rfl, ← hd]
  rfl

theorem receive_exclusiveIM (hr : r.type = .DATA_EXCLUSIVE)
    (hm : v.mode = .IM) (hv : v.ExpectsResponse r) :
    ∃ cb, cb.cache = env.machineID ∧ cb.Returns r.dataBlk ∧
      Runs env (.response r) l ((v.count r).completion ++ [.callback cb])
        { v.count r with mode := .MM_W, blk := cb.apply r.dataBlk, dirty := true } := by
  obtain ⟨e, t, m, o, b, rfl, rfl, -, -, hl, seq⟩ := h.eq_both hv.1
  cases (show m = .IM from hm)
  obtain ⟨rfl, q, rfl, hq, hf⟩ := seq
  obtain ⟨cb, hcb, hcache, hret, happly⟩ := exists_callbackOf env.machineID
    { e with cacheState := .IM, dataBlk := r.dataBlk, dirty := r.dirty } hq hf
  simp only [Runs, Ctl.receive, Ctl.cpuEvent, hr, responseEvent]
  refine ⟨cb, hcache, hret, ?line, ?run, ?sees⟩
  case sees =>
    rw [happly]
    exact .both { e with
        dataBlk := blockAfter q r.dataBlk
        dirty := true
        locked := lockAfter q.type
          { e with cacheState := .IM, dataBlk := r.dataBlk, dirty := r.dirty } && true
        atomicAccessed := e.atomicAccessed || false }
      (t.count r) .MM_W rfl hl (.inr ⟨rfl, rfl⟩)
  case run =>
    rw [doTransition_row rfl (by decide)]
    simp only [runActions, Action.run, Input.peekResponse, pure_bind, Ctx.writeDataToCache,
      Ctx.getEntry, Ctx.setEntry]
    rw [Ctx.decrementNumberOfMessages_eq rfl (takes_of_expects hv), ok_bind,
      Ctx.checkForCompletion_eq rfl, ok_bind]
    simp only [Ctx.getTBE, Ctx.setTBE, pure_bind]
    rw [writeCallback_eq rfl hq, ok_bind]
    simp only [stateOf, hcb]
    rfl

/-- The data of a load: the block comes to a cache that may have to share it. -/
theorem receive_loaded (hm : v.mode = .IS) (hv : v.ExpectsResponse r)
    (hr : r.type = .DATA ∨ r.type = .DATA_EXCLUSIVE ∨ r.type = .DATA_SHARED) :
    ReactsAs env (.response r) l v := by
  obtain ⟨e, t, m, o, b, rfl, rfl, -, -, hl, seq⟩ := h.eq_both hv.1
  cases (show m = .IS from hm)
  obtain ⟨rfl, q, rfl, hq⟩ := seq
  have hwritten (t' : TBE State ι L) (m : Mode) (hm : m.getting = true) := Sees.both (o := none)
    (b := false) { e.kept with dataBlk := r.dataBlk, dirty := r.dirty } t' m hm hl
  rcases hr with hr | hr | hr
  on_goal 1 => refine ⟨_, _, _, ?_, hwritten { t.count r with curOwner := r.sender } .SS rfl
    (.inr ⟨rfl, rfl⟩), .dataIS hr hm⟩
  on_goal 2 => refine ⟨_, _, _, ?_, hwritten (t.count r) .M_W rfl (.inr ⟨rfl, rfl⟩),
    .exclusiveIS hr hm⟩
  on_goal 3 => refine ⟨_, _, _, ?_,
    hwritten { t.count r with curOwner := r.sender, sharers := true } .SS rfl
      (.inr ⟨rfl, rfl⟩), .sharedIS hr hm⟩
  all_goals
    simp only [Ctl.receive, Ctl.cpuEvent, hr, responseEvent]
    rw [doTransition_row rfl (by decide)]
    simp only [runActions, Action.run, Input.peekResponse, pure_bind, Ctx.writeDataToCache,
      Ctx.getEntry, Ctx.setEntry, Ctx.setSharerBit, Ctx.getTBE, Ctx.setTBE]
  on_goal 3 => rw [Ctx.decrementNumberOfMessages_eq
    (t := { t with tbeState := .IS, sharers := true }) rfl
    ⟨hv.2.1, hv.2.2.1, hv.2.2.2.1.1, hv.2.2.2.1.2⟩]
  on_goal 2 => rw [Ctx.decrementNumberOfMessages_eq rfl (takes_of_expects hv)]
  on_goal 1 => rw [Ctx.decrementNumberOfMessages_eq rfl (takes_of_expects hv)]
  all_goals
    rw [ok_bind, Ctx.checkForCompletion_eq rfl, ok_bind]
    simp only [Ctx.setTBE, pure_bind]
    rw [readCallback_eq rfl hq, ok_bind]
    rfl

/-! ## Triggers -/

theorem receive_doneS {t : TriggerType}
    (ht : t = .ALL_ACKS ∨ t = .ALL_ACKS_NO_SHARERS) (hm : v.mode = .SS) :
    Runs env (.trigger t) l
      [.unblock { type := .UNBLOCKS, sender := .cache env.machineID, curOwner := v.curOwner }]
      { mode := .S, blk := v.blk, dirty := v.dirty } := by
  obtain ⟨e, t, m, o, b, rfl, rfl, -, -, hl, seq⟩ := h.eq_both (by rw [hm]; rfl)
  cases (show m = .SS from hm)
  rcases ht with rfl | rfl
  all_goals
    exact ⟨_, rfl, .rest e.kept .S .settled rfl (by simp) seq⟩

/-- The block is exclusive: `M_W` ends in `M` and `MM_W` in `MM`. -/
theorem receive_doneM (hm : v.mode = .M_W ∨ v.mode = .MM_W) :
    Runs env (.trigger .ALL_ACKS_NO_SHARERS) l
      [.unblock { type := .UNBLOCKM, sender := .cache env.machineID }]
      { mode := if v.mode = .M_W then .M else .MM, blk := v.blk, dirty := v.dirty } := by
  obtain ⟨e, t, m, o, b, rfl, rfl, -, -, hl, seq⟩ :=
    h.eq_both (by rcases hm with hm | hm <;> rw [hm] <;> rfl)
  rcases hm with hm | hm
  · cases (show m = .M_W from hm)
    exact ⟨_, rfl, .rest e.kept .M .settled rfl (by simp) seq⟩
  · cases (show m = .MM_W from hm)
    exact ⟨_, rfl, .rest e.kept .MM .settled rfl (by simp) seq⟩

theorem receive_doneStore (hm : v.mode = .ISM ∨ v.mode = .OM) :
    ∃ cb, cb.cache = env.machineID ∧ cb.Returns v.blk ∧
      Runs env (.trigger .ALL_ACKS_NO_SHARERS) l
        [.callback cb, .unblock { type := .UNBLOCKM, sender := .cache env.machineID }]
        { mode := .MM, blk := cb.apply v.blk, dirty := true } := by
  obtain ⟨e, t, m, o, b, rfl, rfl, -, -, hl, seq⟩ :=
    h.eq_both (by rcases hm with hm | hm <;> rw [hm] <;> rfl)
  replace hm : m = .ISM ∨ m = .OM := hm
  obtain ⟨rfl, q, rfl, hq, hf⟩ : b = false ∧ ∃ q, o = some q ∧ q.type.isWrite = true ∧
      q.type ≠ .FLUSH := by
    rcases hm with rfl | rfl <;> exact seq
  obtain ⟨cb, hcb, hcache, hret, happly⟩ :=
    exists_callbackOf env.machineID { e with cacheState := stateOf m } hq hf
  refine ⟨cb, hcache, hret, ?line, ?run, ?sees⟩
  case sees =>
    show Sees _ { mode := .MM, blk := cb.apply e.dataBlk, dirty := true } _
    rw [happly]
    exact .rest { e with
        dataBlk := blockAfter q e.dataBlk
        dirty := true
        locked := lockAfter q.type { e with cacheState := stateOf m } && true
        atomicAccessed := e.atomicAccessed || false } .MM .settled rfl (by simp)
      (.inr ⟨rfl, rfl⟩)
  case run =>
    rcases hm with rfl | rfl
    all_goals
      simp only [Ctl.receive, Ctl.cpuEvent, triggerEvent]
      rw [doTransition_row rfl (by decide)]
      simp only [runActions, Action.run, Ctx.getEntry, Ctx.getTBE, pure_bind]
      rw [writeCallback_eq rfl hq, ok_bind, hcb]
      rfl

end

/-- A block is in its L1 cache. -/
theorem receive_transfer (h : Sees l v .transfer) :
    ∃ l', Ctl.receive env (.trigger .L2_to_L1) (.cpu l) = .ok ⟨.cpu l', [], true⟩ ∧
      Sees l' v .ready := by
  cases h with
  | rest e m k hm hk seq =>
    obtain ⟨hl, rfl⟩ := hk (by simp)
    have hmoved (b : Bool) := Sees.rest (ι := ι) { e with locked := e.locked && b } m .ready hm
      (fun _ => ⟨hl, rfl⟩) seq
    match m, hm, hmoved with
    | .I, _, h => exact ⟨_, rfl, h false⟩
    | .S, _, h | .O, _, h | .M, _, h | .MM, _, h => exact ⟨_, rfl, h true⟩

/-! ## All messages -/

theorem receive_forward (h : Sees l v .settled) (hn : 1 < env.machineCount)
    (hv : v.ExpectsForward env m) : ReactsAs env (.forward m) l v := by
  simp only [View.ExpectsForward] at hv
  split at hv
  case h_1 hm =>
    exact (receive_probeX h hm hv.1 hv.2.1 hv.2.2).reacts (.probeX hm)
  case h_2 hm =>
    obtain ⟨mig, hrun⟩ := receive_probeS h hm hv.1 hv.2.1 hv.2.2 hn
    exact hrun.reacts (.probeS mig hm)
  case h_3 hm =>
    exact (receive_merged h hm hv).reacts (.merged hm)
  case h_4 hm =>
    exact (receive_wbAck h hm hv).reacts (.wbAck hm)
  case h_5 hm =>
    exact (receive_wbNack h hm hv).reacts (.wbNack hm)
  case h_6 => exact hv.elim

theorem receive_response (h : Sees l v k) (hv : v.ExpectsResponse r) :
    ReactsAs env (.response r) l v := by
  have hlast := hv.2.2.2.2
  split at hlast
  case h_1 hr =>
    exact (receive_ack h hr hv).reacts (.ack hr)
  case h_2 hr =>
    exact (receive_ackShared h hr hv).reacts (.ackShared hr)
  case h_3 hr =>
    rcases hlast with hm | hm | ⟨hm, hd⟩
    · exact receive_loaded h hm hv (.inl hr)
    · exact (receive_dataIM h hr hm hv).reacts (.dataIM hr hm)
    · exact (receive_dataSM h hr hm hd hv).reacts (.dataSM hr hm)
  case h_4 hr =>
    rcases hlast with hm | hm
    · exact receive_loaded h hm hv (.inr (.inl hr))
    · obtain ⟨cb, hcache, hret, hrun⟩ := receive_exclusiveIM h hr hm hv
      exact hrun.reacts (.exclusiveIM cb hr hm hcache hret)
  case h_5 hr => exact receive_loaded h hlast hv (.inr (.inr hr))
  case h_6 => exact hlast.elim

theorem receive_trigger {t : TriggerType} (h : Sees l v k) (hv : v.ExpectsTrigger t) :
    ReactsAs env (.trigger t) l v := by
  cases t with
  | ALL_ACKS =>
    exact (receive_doneS h (.inl rfl) hv).reacts (.doneS (.inl rfl) hv)
  | ALL_ACKS_NO_SHARERS =>
    rcases hv with hm | hm | hm | ⟨hm, -⟩
    · exact (receive_doneS h (.inr rfl) hm).reacts (.doneS (.inr rfl) hm)
    · have hrun : Runs env _ l _ _ := receive_doneM h (.inl hm)
      rw [if_pos hm] at hrun
      exact hrun.reacts (.doneM rfl hm)
    · have hrun : Runs env _ l _ _ := receive_doneM h (.inr hm)
      rw [if_neg (by rw [hm]; decide)] at hrun
      exact hrun.reacts (.doneMM rfl hm)
    · obtain ⟨cb, hcache, hret, hrun⟩ := receive_doneStore h hm
      exact hrun.reacts (.doneStore cb rfl hm hcache hret)
  | L2_to_L1 | ALL_ACKS_OWNER_EXISTS | ALL_UNBLOCKS => exact hv.elim

omit [DecidableEq ι] in
/-- A block that moves has no TBE. -/
theorem Sees.resting (h : Sees l v k) (hk : k ≠ .settled) : v.mode.resting = true := by
  cases h with
  | absent seq => rfl
  | rest e m k hm _ seq =>
    match m, hm with
    | .I, _ | .S, _ | .O, _ | .M, _ | .MM, _ => rfl
  | both e t m hm hl seq | tbe t m hm seq => exact absurd rfl hk

omit [DecidableEq ι] in
/-- A block that moves expects forwarded requests alone. -/
theorem probe_of_resting {m : Message ι L} (hrest : v.mode.resting) (hv : v.Expects env m) :
    ∃ q, m = .forward q ∧ (q.type = .GETX ∨ q.type = .GETS ∨ q.type = .MERGED_GETS) := by
  have hgetting (hm : v.mode.getting = true) : False := by
    rw [Mode.resting_of_getting hm] at hrest
    cases hrest
  have hleaving (hm : v.mode.leaving = true) : False := by
    rw [Mode.resting_of_leaving hm] at hrest
    cases hrest
  cases m with
  | trigger t =>
    refine (hgetting ?_).elim
    cases t with
    | ALL_ACKS => rw [show v.mode = .SS from hv]; rfl
    | ALL_ACKS_NO_SHARERS =>
      rcases hv with hm | hm | hm | ⟨hm | hm, -⟩ <;> rw [hm] <;> rfl
    | L2_to_L1 | ALL_ACKS_OWNER_EXISTS | ALL_UNBLOCKS => exact hv.elim
  | response r => exact (hgetting hv.1).elim
  | forward q =>
    simp only [View.Expects, View.ExpectsForward] at hv
    split at hv
    case h_1 hm => exact ⟨q, rfl, .inl hm⟩
    case h_2 hm => exact ⟨q, rfl, .inr (.inl hm)⟩
    case h_3 hm => exact ⟨q, rfl, .inr (.inr hm)⟩
    case h_4 hm => exact (hleaving hv).elim
    case h_5 hm => exact (hleaving (by rw [hv]; rfl)).elim
    case h_6 => exact hv.elim

/-- A CPU cache has a transition for every message that its view expects.  A
forwarded request waits while the block moves. -/
theorem receive_spec {m : Message ι L} (h : Sees l v k) (hn : 1 < env.machineCount)
    (hv : v.Expects env m) :
    (k = .settled ∧ ReactsAs env m l v) ∨ Ctl.receive env m (.cpu l) = .ok ⟨.cpu l, [], false⟩ := by
  by_cases hk : k = .settled
  · subst hk
    refine .inl ⟨rfl, ?_⟩
    cases m with
    | trigger t => exact receive_trigger h hv
    | response r => exact receive_response h hv
    | forward m => exact receive_forward h hn hv
  · obtain ⟨q, rfl, hq⟩ := probe_of_resting (h.resting hk) hv
    exact .inr (receive_moving h hk hq hn)

/-! ## Requests of the processor -/

/-- What a demand does to a block: it starts to move, or its view changes as
`Serves` says. -/
def ServesAs (env : Env ι) (d : Demand L) (l : Line State ι L) (v : View ι L) (k : Move) :
    Prop :=
  ∃ l' v' k' sent, Ctl.serve env d (.cpu l) = .ok ⟨.cpu l', sent, false⟩ ∧ Sees l' v' k' ∧
    ((k = .settled ∧ k' = .transfer ∧ v' = v ∧ sent = [.trigger .L2_to_L1]) ∨
      ((k' = .transfer ↔ k = .transfer) ∧ Serves env v v' sent))

/-- A demand that has no effect on the view. -/
theorem ServesAs.nothing {d : Demand L} {l' : Line State ι L} (h : Sees l' v k)
    (hs : Ctl.serve env d (.cpu l) = .ok ⟨.cpu l', [], false⟩) : ServesAs env d l v k :=
  ⟨l', v, k, [], hs, h, .inr ⟨Iff.rfl, .nothing⟩⟩

variable (env) in
/-- `L1_to_L2` moves the block to the L2 cache, or waits. -/
theorem doTransition_L1_to_L2 (inp : Input ι L) (h : Sees l v k)
    (hl : Ctl.level l = some .L1D ∨ Ctl.level l = some .L1I) :
    ∃ l', doTransition env inp .L1_to_L2 l = .ok { toLine := l' } ∧ Sees l' v k := by
  cases h with
  | absent seq | tbe t m hm seq => rcases hl with hl | hl <;> cases hl
  | both e t m hm hne seq =>
    match m, hm with
    | .IM, _ | .ISM, _ | .SM, _ | .OM, _ | .IS, _ | .SS, _ | .M_W, _ | .MM_W, _ =>
      exact ⟨_, rfl, Sees.stay (.both e t _ rfl hne seq)⟩
  | rest e m k hm hk seq =>
    cases k with
    | transfer | ready =>
      match m, hm with
      | .I, _ | .S, _ | .O, _ | .M, _ | .MM, _ =>
        exact ⟨_, rfl, Sees.stay (.rest e _ _ rfl hk seq)⟩
    | settled =>
      obtain ⟨s, dirty, blk, level, fromL2, atomic, locked⟩ := e
      have hmoved :=
        Sees.rest (ι := ι) ⟨s, dirty, blk, .L2, false, false, false⟩ m .settled hm (by simp) seq
      rcases hl with hl | hl <;> cases hl
      all_goals
        match m, hm, hmoved with
        | .I, _, h | .S, _, h | .O, _, h | .M, _, h | .MM, _, h => exact ⟨_, rfl, h⟩

theorem serve_makeRoomL1 (h : Sees l v k) : ServesAs env .makeRoomL1 l v k := by
  by_cases hl : Ctl.level l = some .L1D ∨ Ctl.level l = some .L1I
  · obtain ⟨l', hrun, hs⟩ := doTransition_L1_to_L2 env .elsewhere h hl
    refine .nothing hs ?_
    simp only [Ctl.serve, if_pos hl, hrun]
    rfl
  · refine .nothing h ?_
    simp only [Ctl.serve, if_neg hl]
    rfl

theorem serve_makeRoomL2 (h : Sees l v k) : ServesAs env .makeRoomL2 l v k := by
  cases h with
  | absent seq => exact .nothing (.absent seq) rfl
  | tbe t m hm seq => exact .nothing (.tbe t m hm seq) rfl
  | both e t m hm hl seq =>
    refine .nothing (.both e t m hm hl seq) ?_
    simp only [Ctl.serve, Ctl.level, Option.map_some, Option.some.injEq, if_neg hl]
    rfl
  | rest e m k hm hk seq =>
    by_cases hl : e.level = .L2
    · obtain ⟨s, dirty, blk, level, fromL2, atomic, locked⟩ := e
      cases hl
      cases k with
      | transfer | ready => exact absurd rfl (hk (by simp)).1
      | settled =>
        match m, hm with
        | .I, _ => exact .nothing (.absent seq) rfl
        | .S, _ =>
          exact ⟨_, _, _, _, rfl, .absent seq, .inr ⟨Iff.rfl, .drop rfl⟩⟩
        | .O, _ =>
          exact ⟨_, _, _, _, rfl, .tbe { tbeState := .I, dataBlk := blk, dirty := dirty } .OI
            rfl seq, .inr ⟨Iff.rfl, .putO rfl⟩⟩
        | .M, _ =>
          exact ⟨_, _, _, _, rfl, .tbe { tbeState := .I, dataBlk := blk, dirty := dirty } .MI
            rfl seq, .inr ⟨Iff.rfl, .putM (.inl rfl)⟩⟩
        | .MM, _ =>
          exact ⟨_, _, _, _, rfl, .tbe { tbeState := .I, dataBlk := blk, dirty := dirty } .MI
            rfl seq, .inr ⟨Iff.rfl, .putM (.inr rfl)⟩⟩
    · refine .nothing (.rest e m k hm hk seq) ?_
      simp only [Ctl.serve, Ctl.level, Option.map_some, Option.some.injEq, if_neg hl]
      rfl

/-- A request is a read, or presented as a store. -/
theorem request_cases (hf : q.type ≠ .FLUSH) :
    ((requestEvent q.type = .Load ∨ requestEvent q.type = .Ifetch) ∧
      q.type.isWrite = false) ∨ (requestEvent q.type = .Store ∧ q.type.isWrite = true) := by
  obtain ⟨type, w⟩ := q
  cases type <;> simp_all [requestEvent, RubyRequestType.isWrite]

theorem request_event (hf : q.type ≠ .FLUSH) :
    requestEvent q.type = .Load ∨ requestEvent q.type = .Ifetch ∨ requestEvent q.type = .Store := by
  rcases request_cases hf with ⟨h | h, -⟩ | ⟨h, -⟩ <;> simp [h]

section

variable {q : SequencerRequest L}

/-- A request to a block that the cache does not have. -/
theorem mandatory_absent (hf : q.type ≠ .FLUSH) :
    ServesAs env .mandatory (⟨none, none, some q, true⟩ : Line State ι L) {} .settled := by
  obtain ⟨type, w⟩ := q
  have hr (level : Level) (hl : level ≠ .L2) (q : SequencerRequest L)
      (hq : q.type.isWrite = false) :=
    Sees.both (ι := ι) { cacheState := .I, level := level, locked := false && true }
      { tbeState := .I, numPendingMsgs := env.machineCount } .IS rfl hl ⟨rfl, q, rfl, hq⟩
  have hw (q : SequencerRequest L) (hq : q.type.isWrite = true) (hf : q.type ≠ .FLUSH) :=
    Sees.both (ι := ι) { cacheState := .I, level := .L1D, locked := false && true }
      { tbeState := .I, numPendingMsgs := env.machineCount } .IM rfl (by simp)
      ⟨rfl, q, rfl, hq, hf⟩
  cases type with
  | LD =>
    exact ⟨_, _, _, _, rfl, hr .L1D (by decide) ⟨.LD, w⟩ rfl, .inr ⟨Iff.rfl, .getS _ _ rfl⟩⟩
  | IFETCH =>
    exact ⟨_, _, _, _, rfl, hr .L1I (by decide) ⟨.IFETCH, w⟩ rfl, .inr ⟨Iff.rfl, .getS _ _ rfl⟩⟩
  | FLUSH => exact absurd rfl hf
  | ST | RMW_Read | Locked_RMW_Read | Locked_RMW_Write | Load_Linked | Store_Conditional =>
    exact ⟨_, _, _, _, rfl, hw ⟨_, w⟩ rfl hf, .inr ⟨Iff.rfl, .getX _ _ rfl⟩⟩

/-- A request to a block that the cache gives up waits. -/
theorem mandatory_tbe (t : TBE State ι L) {m : Mode} (hm : m.leaving)
    (hf : q.type ≠ .FLUSH) :
    ServesAs env .mandatory ⟨none, some { t with tbeState := stateOf m }, some q, true⟩
      (.ofTBE m t) .settled := by
  have hs : Sees ⟨none, some { t with tbeState := stateOf m }, some q, true⟩ (.ofTBE m t)
      .settled := .tbe t m hm (.inl ⟨rfl, q, rfl, hf⟩)
  refine .nothing hs.stay ?_
  simp only [Ctl.serve, mandatoryEvent]
  rcases request_event hf with hev | hev | hev
  all_goals
    rw [hev]
    match m, hm with
    | .OI, _ | .MI, _ | .II, _ => rfl

variable (env) in
/-- A request to a block in the L2 cache first moves it to an L1 cache. -/
theorem doTransition_L2_to_L1 (e : Entry State L) {m : Mode} (hm : m.resting)
    (hl : e.level = .L2)
    (hev : ev = .Trigger_L2_to_L1D ∨ ev = .Trigger_L2_to_L1I) (hf : q.type ≠ .FLUSH) :
    ∃ l', doTransition env (.mandatory q.type) ev
        (⟨some { e with cacheState := restState .settled m }, none, some q, true⟩ :
          Line State ι L) = .ok { toLine := l', sent := [.trigger .L2_to_L1] } ∧
      Sees l' (.rest m e) .transfer := by
  obtain ⟨s, dirty, blk, level, fromL2, atomic, locked⟩ := e
  cases hl
  have hmoved (level : Level) (hl : level ≠ .L2) :=
    Sees.rest (ι := ι) ⟨s, dirty, blk, level, true, false, false⟩ m .transfer hm
      (fun _ => ⟨hl, rfl⟩) (.inl ⟨rfl, q, rfl, hf⟩)
  rcases hev with rfl | rfl
  all_goals
    match m, hm, hmoved with
    | .I, _, h | .S, _, h | .O, _, h | .M, _, h | .MM, _, h => exact ⟨_, rfl, h _ (by simp)⟩

variable (env) in
/-- A load or an instruction fetch from the L1 cache that holds the block. -/
theorem doTransition_read (e : Entry State L) {m : Mode} (hm : m.resting)
    (hl : e.level ≠ .L2) (hk : k ≠ .transfer) (hev : ev = .Load ∨ ev = .Ifetch)
    (hq : q.type.isWrite = false) :
    ∃ l' v' sent, doTransition env (.mandatory q.type) ev
        (⟨some { e with cacheState := restState k m }, none, some q, true⟩ : Line State ι L) =
        .ok { toLine := l', sent := sent } ∧
      Sees l' v' .settled ∧ Serves env (.rest m e) v' sent := by
  obtain ⟨type, w⟩ := q
  have hhit :=
    Sees.rest (ι := ι) { e.kept with fromL2 := false } m .settled hm
      (by simp) (.inr ⟨rfl, rfl⟩)
  have hmiss :=
    Sees.both (ι := ι) e.kept
      { tbeState := .I, dataBlk := e.dataBlk, dirty := e.dirty
        numPendingMsgs := env.machineCount } .IS rfl hl ⟨rfl, ⟨type, w⟩, rfl, hq⟩
  rcases hev with rfl | rfl <;> cases type <;> cases hq
  all_goals
    match k, m, hm, hhit with
    | .settled, .I, _, _ | .ready, .I, _, _ => exact ⟨_, _, _, rfl, hmiss, .getS _ _ rfl⟩
    | .settled, .S, _, h | .settled, .O, _, h | .settled, .M, _, h | .settled, .MM, _, h
    | .ready, .S, _, h | .ready, .O, _, h | .ready, .M, _, h | .ready, .MM, _, h =>
      exact ⟨_, _, _, rfl, h, .load (by simp [View.rest])⟩

variable (env) in
/-- A store to a block in the L1 data cache. -/
theorem doTransition_store (e : Entry State L) {m : Mode} (hm : m.resting)
    (hl : e.level ≠ .L2) (hk : k ≠ .transfer) (hq : q.type.isWrite) (hf : q.type ≠ .FLUSH) :
    ∃ l' v' sent, doTransition env (.mandatory q.type) .Store
        (⟨some { e with cacheState := restState k m }, none, some q, true⟩ : Line State ι L) =
        .ok { toLine := l', sent := sent } ∧
      Sees l' v' .settled ∧ Serves env (.rest m e) v' sent := by
  have hmiss (m : Mode) (n : ℤ) (hm : m.getting = true) (seq : SeqOK m (some q) false) :=
    Sees.both (ι := ι) e.kept
      { tbeState := .I, dataBlk := e.dataBlk, dirty := e.dirty, numPendingMsgs := n } m hm hl
      seq
  obtain ⟨cb, hcb, hcache, hret, happly⟩ := exists_callbackOf env.machineID
    { e with cacheState := restState k m, fromL2 := false } hq hf
  have hhit :=
    Sees.rest (ι := ι) { e with
        fromL2 := false
        dataBlk := blockAfter q e.dataBlk
        dirty := true
        locked := lockAfter q.type { e with cacheState := restState k m, fromL2 := false } && true
        atomicAccessed := e.atomicAccessed || q.type.isAtomic } .MM .settled rfl
      (by simp) (.inr ⟨rfl, rfl⟩)
  match k, m, hm with
  | .settled, .I, _ | .ready, .I, _ =>
    exact ⟨_, _, _, rfl, hmiss .IM env.machineCount rfl ⟨rfl, q, rfl, hq, hf⟩, .getX _ _ rfl⟩
  | .settled, .S, _ | .ready, .S, _ =>
    exact ⟨_, _, _, rfl, hmiss .SM env.machineCount rfl ⟨rfl, q, rfl, hq, hf⟩, .upgradeS rfl⟩
  | .settled, .O, _ | .ready, .O, _ =>
    exact ⟨_, _, _, rfl, hmiss .OM (env.machineCount + -1) rfl ⟨rfl, q, rfl, hq, hf⟩, .upgradeO rfl⟩
  | .settled, .M, _ | .settled, .MM, _ | .ready, .M, _ | .ready, .MM, _ =>
    refine ⟨?line, { mode := .MM, blk := cb.apply e.dataBlk, dirty := true },
      [.callback cb], ?run, ?sees, .store cb (by simp [View.rest]) hcache hret⟩
    case sees =>
      rw [happly]
      exact hhit
    case run =>
      rw [doTransition_row rfl (by decide)]
      simp only [runActions, Action.run, Input.peekMandatory, Ctx.getEntry, pure_bind]
      rw [writeCallback_eq rfl hq, ok_bind, hcb]
      rfl

variable (env) in
/-- A request to a block on its way to an L1 cache waits. -/
theorem doTransition_transfer (e : Entry State L) {m : Mode} (hm : m.resting)
    (hev : ev = .Load ∨ ev = .Ifetch ∨ ev = .Store) (inp : Input ι L)
    (o : Option (SequencerRequest L)) (b : Bool) :
    doTransition env inp ev
        (⟨some { e with cacheState := restState .transfer m }, none, o, b⟩ : Line State ι L) =
      .ok { toLine := (⟨some { e with cacheState := restState .transfer m }, none, o, b⟩ :
        Line State ι L).setState State.invalid (restState .transfer m) } := by
  rcases hev with rfl | rfl | rfl
  all_goals
    match m, hm with
    | .I, _ | .S, _ | .O, _ | .M, _ | .MM, _ => rfl

variable (env) in
/-- A load of a block whose data is there before the last answer is. -/
theorem doTransition_readEarly (e : Entry State L) (t : TBE State ι L) {m : Mode}
    (hm : m = .SS ∨ m = .M_W ∨ m = .MM_W) (hl : e.level ≠ .L2)
    (hev : ev = .Load ∨ ev = .Ifetch) (hq : q.type.isWrite = false) :
    ∃ l', doTransition env (.mandatory q.type) ev
        ⟨some { e with cacheState := stateOf m }, some { t with tbeState := stateOf m },
          some q, true⟩ =
        .ok { toLine := l', sent := [.callback (.load env.machineID e.dataBlk)] } ∧
      Sees l' (.ofBoth m e t) .settled := by
  obtain ⟨type, w⟩ := q
  have hhit (m : Mode) (hm : m.getting = true) (seq : SeqOK m none false) :=
    Sees.both (ι := ι) { e.kept with fromL2 := false } t m hm hl seq
  rcases hev with rfl | rfl <;> cases type <;> cases hq
  all_goals
    rcases hm with rfl | rfl | rfl
    · exact ⟨_, rfl, hhit .SS rfl (.inr ⟨rfl, rfl⟩)⟩
    · exact ⟨_, rfl, hhit .M_W rfl (.inr ⟨rfl, rfl⟩)⟩
    · exact ⟨_, rfl, hhit .MM_W rfl (.inr ⟨rfl, rfl⟩)⟩

variable (env) in
/-- A store to a block whose data is there before the last answer is. -/
theorem doTransition_storeEarly (e : Entry State L) (t : TBE State ι L) {m : Mode}
    (hm : m = .SS ∨ m = .M_W ∨ m = .MM_W) (hl : e.level ≠ .L2)
    (hq : q.type.isWrite) (hf : q.type ≠ .FLUSH) :
    ∃ l' v' sent, doTransition env (.mandatory q.type) .Store
        ⟨some { e with cacheState := stateOf m }, some { t with tbeState := stateOf m },
          some q, true⟩ = .ok { toLine := l', sent := sent } ∧
      Sees l' v' .settled ∧ Serves env (.ofBoth m e t) v' sent := by
  obtain ⟨cb, hcb, hcache, hret, happly⟩ := exists_callbackOf env.machineID
    { e with cacheState := stateOf m, fromL2 := false } hq hf
  have hhit :=
    Sees.both (ι := ι) { e with
        fromL2 := false
        dataBlk := blockAfter q e.dataBlk
        dirty := true
        locked := lockAfter q.type { e with cacheState := stateOf m, fromL2 := false } && true
        atomicAccessed := e.atomicAccessed || q.type.isAtomic } t .MM_W rfl hl
      (.inr ⟨rfl, rfl⟩)
  rcases hm with rfl | hm
  · exact ⟨_, _, _, rfl, Sees.stay (.both e t .SS rfl hl (.inl ⟨rfl, q, rfl, hf⟩)), .nothing⟩
  refine ⟨?line, { View.ofBoth .MM_W e t with blk := cb.apply e.dataBlk, dirty := true },
    [.callback cb], ?run, ?sees, .storeEarly cb hm hcache hret⟩
  case sees =>
    rw [happly]
    exact hhit
  case run =>
    rcases hm with rfl | rfl
    all_goals
      rw [doTransition_row rfl (by decide)]
      simp only [runActions, Action.run, Input.peekMandatory, Ctx.getEntry, pure_bind]
      rw [writeCallback_eq rfl hq, ok_bind, hcb]
      rfl

end

/-- A transition for the request in the mandatory queue. -/
theorem ServesAs.of_doTransition {l' : Line State ι L}
    {v' : View ι L} {k' : Move} {sent : List (Send ι L)} (hb : l.mandatory)
    (ho : l.outstanding = some q)
    (hrun : doTransition env (.mandatory q.type) (mandatoryEvent q.type l) l =
      .ok { toLine := l', sent := sent }) (hs : Sees l' v' k')
    (h : (k = .settled ∧ k' = .transfer ∧ v' = v ∧ sent = [.trigger .L2_to_L1]) ∨
      ((k' = .transfer ↔ k = .transfer) ∧ Serves env v v' sent)) :
    ServesAs env .mandatory l v k := by
  refine ⟨l', v', k', sent, ?_, hs, h⟩
  simp only [Ctl.serve, hb, ho, hrun]
  rfl

section

variable {q : SequencerRequest L} {e : Entry State L}

omit [DecidableEq ι] in
/-- The event of a request to a block in an L1 cache. -/
theorem mandatoryEvent_L1 (he : l.entry = some e) (hl : e.level ≠ .L2) : mandatoryEvent q.type l =
      if e.level = homeLevel q.type then requestEvent q.type else .L1_to_L2 := by
  simp only [mandatoryEvent, he]
  cases hlev : e.level with
  | L2 => exact absurd hlev hl
  | L1D | L1I => rfl

/-- A request to a block in the other L1 cache. -/
theorem mandatory_elsewhere (h : Sees l v k) (he : l.entry = some e) (hl : e.level ≠ .L2)
    (hb : l.mandatory) (ho : l.outstanding = some q)
    (hhome : e.level ≠ homeLevel q.type) : ServesAs env .mandatory l v k := by
  have hlevel : Ctl.level l = some .L1D ∨ Ctl.level l = some .L1I := by
    rw [Ctl.level, he]
    cases hlev : e.level with
    | L2 => exact absurd hlev hl
    | L1D => exact .inl (congrArg some hlev)
    | L1I => exact .inr (congrArg some hlev)
  obtain ⟨l', hrun, hs⟩ := doTransition_L1_to_L2 env (.mandatory q.type) h hlevel
  have hev := mandatoryEvent_L1 (q := q) he hl
  rw [if_neg hhome] at hev
  rw [← hev] at hrun
  exact .of_doTransition hb ho hrun hs (.inr ⟨Iff.rfl, .nothing⟩)

/-- A request to a block that one of the caches has. -/
theorem mandatory_rest (e : Entry State L) {m : Mode} {k : Move} (hm : m.resting)
    (hk : k ≠ .settled → e.level ≠ .L2 ∧ true = true) (hf : q.type ≠ .FLUSH) :
    ServesAs env .mandatory
      (⟨some { e with cacheState := restState k m }, none, some q, true⟩ : Line State ι L)
      (.rest m e) k := by
  have hs : Sees ⟨some { e with cacheState := restState k m }, none, some q, true⟩
      (.rest m e : View ι L) k := .rest e m k hm hk (.inl ⟨rfl, q, rfl, hf⟩)
  by_cases hl : e.level = .L2
  · -- the block is in the L2 cache
    have hsettled : k = .settled := by
      by_contra h
      exact (hk h).1 hl
    subst hsettled
    have hev : mandatoryEvent q.type (⟨some { e with cacheState := restState .settled m },
          none, some q, true⟩ : Line State ι L) =
        if q.type = .IFETCH then .Trigger_L2_to_L1I else .Trigger_L2_to_L1D := by
      simp only [mandatoryEvent, hl]
    have htrigger : (if q.type = .IFETCH then .Trigger_L2_to_L1I else .Trigger_L2_to_L1D) =
          Event.Trigger_L2_to_L1D ∨
        (if q.type = .IFETCH then .Trigger_L2_to_L1I else .Trigger_L2_to_L1D) =
          Event.Trigger_L2_to_L1I := by
      split <;> simp
    obtain ⟨l', hrun, hs'⟩ := doTransition_L2_to_L1 env e hm hl htrigger hf
    rw [← hev] at hrun
    exact .of_doTransition rfl rfl hrun hs' (.inl ⟨rfl, rfl, rfl, rfl⟩)
  by_cases hhome : e.level = homeLevel q.type
  · have hev := mandatoryEvent_L1 (q := q) (l := ⟨some { e with cacheState := restState k m },
      none, some q, true⟩) (ι := ι) rfl hl
    rw [if_pos hhome] at hev
    by_cases htr : k = .transfer
    · subst htr
      have hrun := doTransition_transfer env e hm (request_event hf) (.mandatory q.type)
        (some q) true
      rw [← hev] at hrun
      exact .of_doTransition rfl rfl hrun hs.stay (.inr ⟨Iff.rfl, .nothing⟩)
    · obtain ⟨l', v', sent, hrun, hs', hserves⟩ :
          ∃ l' v' sent, doTransition env (.mandatory q.type) (requestEvent q.type)
            ⟨some { e with cacheState := restState k m }, none, some q, true⟩ =
              .ok { toLine := l', sent := sent } ∧
            Sees l' v' .settled ∧ Serves env (.rest m e) v' sent := by
        rcases request_cases hf with ⟨h, hq⟩ | ⟨h, hq⟩
        · exact doTransition_read env e hm hl htr h hq
        · rw [h]
          exact doTransition_store env e hm hl htr hq hf
      rw [← hev] at hrun
      exact .of_doTransition rfl rfl hrun hs' (.inr ⟨by simp [htr], hserves⟩)
  · exact mandatory_elsewhere hs rfl hl rfl rfl hhome

/-- A request to a block whose data may be there already. -/
theorem mandatory_both (e : Entry State L) (t : TBE State ι L) {m : Mode}
    (hm : m = .SS ∨ m = .M_W ∨ m = .MM_W) (hl : e.level ≠ .L2) (hf : q.type ≠ .FLUSH) :
    ServesAs env .mandatory
      ⟨some { e with cacheState := stateOf m }, some { t with tbeState := stateOf m },
        some q, true⟩ (.ofBoth m e t) .settled := by
  have hs : Sees ⟨some { e with cacheState := stateOf m },
      some { t with tbeState := stateOf m }, some q, true⟩ (.ofBoth m e t) .settled := by
    rcases hm with rfl | rfl | rfl
    all_goals exact .both e t _ rfl hl (.inl ⟨rfl, q, rfl, hf⟩)
  by_cases hhome : e.level = homeLevel q.type
  · have hev := mandatoryEvent_L1 (q := q) (l := ⟨some { e with cacheState := stateOf m },
      some { t with tbeState := stateOf m }, some q, true⟩) (ι := ι) rfl hl
    rw [if_pos hhome] at hev
    rcases request_cases hf with ⟨h, hq⟩ | ⟨h, hq⟩
    · obtain ⟨l', hrun, hs'⟩ := doTransition_readEarly env e t hm hl h hq
      rw [← hev] at hrun
      refine .of_doTransition rfl rfl hrun hs' (.inr ⟨Iff.rfl, .load ?_⟩)
      rcases hm with rfl | rfl | rfl <;> simp [View.ofBoth, Mode.getting]
    · obtain ⟨l', v', sent, hrun, hs', hserves⟩ := doTransition_storeEarly env e t hm hl hq hf
      rw [← h, ← hev] at hrun
      exact .of_doTransition rfl rfl hrun hs' (.inr ⟨Iff.rfl, hserves⟩)
  · exact mandatory_elsewhere hs rfl hl rfl rfl hhome

end

theorem SeqIdle.request {o : Option (SequencerRequest L)} (h : SeqIdle o true) :
    ∃ q, o = some q ∧ q.type ≠ .FLUSH := by
  rcases h with ⟨-, h⟩ | ⟨h, -⟩
  · exact h
  · cases h

/-- A cache that waits for a block takes a request to it when the data is there. -/
theorem SeqOK.request {m : Mode} {o : Option (SequencerRequest L)} (hm : m.getting)
    (h : SeqOK m o true) :
    (m = .SS ∨ m = .M_W ∨ m = .MM_W) ∧ ∃ q, o = some q ∧ q.type ≠ .FLUSH := by
  match m, hm with
  | .IM, _ | .ISM, _ | .SM, _ | .OM, _ | .IS, _ => cases h.1
  | .SS, _ | .M_W, _ | .MM_W, _ => exact ⟨by simp, SeqIdle.request h⟩

theorem serve_mandatory (h : Sees l v k) : ServesAs env .mandatory l v k := by
  by_cases hb : l.mandatory = true
  case neg =>
    refine .nothing h ?_
    simp only [Ctl.serve, Bool.eq_false_iff.2 hb]
    rfl
  cases h with
  | absent seq =>
    cases hb
    obtain ⟨q, rfl, hf⟩ := seq.request
    exact mandatory_absent hf
  | rest e m k hm hk seq =>
    cases hb
    obtain ⟨q, rfl, hf⟩ := seq.request
    exact mandatory_rest e hm hk hf
  | both e t m hm hl seq =>
    cases hb
    obtain ⟨hm, q, rfl, hf⟩ := SeqOK.request hm seq
    exact mandatory_both e t hm hl hf
  | tbe t m hm seq =>
    cases hb
    obtain ⟨q, rfl, hf⟩ := seq.request
    exact mandatory_tbe t hm hf

/-- A CPU cache has no GPU L1 cache. -/
theorem serve_spec (d : Demand L) (h : Sees l v k) : ServesAs env d l v k := by
  cases d with
  | mandatory => exact serve_mandatory h
  | makeRoomL1 => exact serve_makeRoomL1 h
  | makeRoomL2 => exact serve_makeRoomL2 h
  | requestL1 m => exact .nothing h rfl

omit [DecidableEq ι] in
/-- A new request of the sequencer, if it has none for the block. -/
theorem Sees.accept (h : Sees l v k) (hf : q.type ≠ .FLUSH) :
    ∃ l', Ctl.accept q (.cpu l) = .cpu l' ∧ Sees l' v k := by
  have hidle : SeqIdle (some q) true := .inl ⟨rfl, q, rfl, hf⟩
  by_cases ho : l.outstanding = none
  case neg =>
    obtain ⟨r, hr⟩ := Option.ne_none_iff_exists'.1 ho
    refine ⟨l, ?_, h⟩
    simp only [Ctl.accept, hr]
  refine ⟨{ l with outstanding := some q, mandatory := true }, by simp only [Ctl.accept, ho], ?_⟩
  cases h with
  | absent seq => exact .absent hidle
  | rest e m k hm hk seq => exact .rest e m k hm (fun h => ⟨(hk h).1, rfl⟩) hidle
  | tbe t m hm seq => exact .tbe t m hm hidle
  | both e t m hm hl seq =>
    cases ho
    refine .both e t m hm hl ?_
    match m, hm with
    | .SS, _ | .M_W, _ | .MM_W, _ => exact hidle
    | .IM, _ | .ISM, _ | .SM, _ | .OM, _ | .IS, _ =>
      obtain ⟨-, r, hr, -⟩ := seq
      cases hr

end Gem5Gpu.VIHammer.CPUCache
