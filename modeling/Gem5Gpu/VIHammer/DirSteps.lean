import Gem5Gpu.VIHammer.DirNet

/-!
# Requests to the directory

An idle directory starts to serve a request of a cache, grants or refuses a
write-back, or forwards a request of the DMA controller to all caches.  A busy one
stalls, or puts a GETS aside that can be answered together with others.
-/

namespace Gem5Gpu.VIHammer


open Lib Directory Function

variable {ι : Type} [DecidableEq ι] {L : ℕ} {m : RequestMsg ι}
  {sent : List (DirSend ι L)} {l : DirLine ι L} {e : Event} {b : Hub ι L} {P : Params}
  {g g' : Ghost ι L} {a : ι → Party ι L} {s : Sys ι L} {i j k r : ι} {now n : ℕ} {mem : Prop}
  {p : Party ι L} {x : Bool} {τ φ : ℕ} {J : Finset ι}

/-- A cache that the directory makes a request to. -/
theorem PartyOK.forward (h : PartyOK n g mem j p) (hr : g.role j = .idle)
    (hr' : g'.role j = .idle) (hown : g'.own = g.own) (hexcl : g'.excl = g.excl)
    (hcur : g'.cur = g.cur) (hprobe : g'.txn.probe = some m) :
    PartyOK n g' mem j { p with probe := some m } := by
  have hheld := h.held
  have hrole := h.role
  rw [hr] at hheld hrole
  refine .of_rest (by simp [hr']) ?_ ?_ ?_ ?_ ?_
  · rw [hr']
    exact ⟨⟨hrole.1.trigger, hrole.1.responses⟩, hrole.2⟩
  · rw [hown, hexcl, hcur]
    exact hheld
  · intro m' hm'
    rw [hprobe]
    exact hm'
  · intro _ hnone
    cases hnone
  · intro b _ hnone
    cases hnone

/-- What happens to the roles of the others does not matter. -/
theorem PartyOK.of_role {ρ : ι → Role} (h : PartyOK n g mem j p) (hρ : ρ j = g.role j) :
    PartyOK n { g with role := ρ } mem j p := by
  obtain ⟨hrole, hheld, hcalm, hsource, hprobe, hcleared, hseen⟩ := h
  rw [← hρ] at hrole hheld hsource hcleared hseen
  exact ⟨hrole, hheld, hcalm, hsource, hprobe, hcleared, hseen⟩

/-- What a cache with a request to the directory looks like. -/
theorem PartyOK.requests (h : PartyOK n g mem j p) (hm : p.request = some m) :
    g.role j = .idle ∧ Rests p ∧ p.grant = none ∧ ((∃ x τ, m = getMsg j x τ ∧ p.view.Starts n x) ∨
        m = putMsg j ∧ p.view.mode.leaving = true ∧ p.view.Plain) := by
  have hrole := h.role
  cases hr : g.role j with rw [hr] at hrole
  | waiting =>
    rw [hrole.2.1] at hm
    cases hm
  | active x τ φ due owed =>
    rw [hrole.request] at hm
    cases hm
  | idle =>
    obtain ⟨hrests, hidle⟩ := hrole
    rw [hm] at hidle
    refine ⟨rfl, hrests, ?_⟩
    cases hgrant : p.grant with rw [hgrant] at hidle
    | some t => cases hidle
    | none =>
      refine ⟨rfl, ?_⟩
      cases hidle with
      | get x τ hs => exact .inl ⟨x, τ, rfl, hs⟩
      | put hv hp => exact .inr ⟨rfl, hv, hp⟩

/-- The copies of a cache that has a request to the directory. -/
theorem PartyOK.held_of_rests (h : PartyOK n g mem j p) (hr : g.role j = .idle)
    (hrests : Rests p) (hunblock : p.unblock = none) :
    Held g.own g.excl g.cur mem j (bag p.view.holding) := by
  have hheld := h.held
  rwa [hr, hrests.holdings, hunblock, Option.bind_none, bag_none, add_zero] at hheld

/-- The owner among the caches that ask for a copy is the one that has an owned one. -/
theorem View.Starts.got_eq {v : View ι L} {own : Option ι} {excl : Bool} {cur : DataBlock L}
    (h : v.Starts n x) (hheld : Held own excl cur mem i (bag v.holding)) :
    v.mode.got = if own = some i then 1 else 0 := by
  have howner := hheld.own_iff
  have hmode := h.mode
  have hcopy : v.mode.got = 1 ↔ ∃ c, v.holding = some c ∧ c.owned = true := by
    cases x <;> simp only [Bool.false_eq_true, if_true, if_false] at hmode
    · simp [View.holding, hmode, Mode.copy, Mode.got]
    · rcases hmode with hm | hm | hm <;> simp [View.holding, hm, Mode.copy, Mode.got]
  by_cases hown : own = some i
  · rw [if_pos hown]
    exact hcopy.2 (howner.1 hown)
  · rw [if_neg hown]
    have hne : v.mode.got ≠ 1 := fun hgot => hown (howner.2 (hcopy.1 hgot))
    cases hm : v.mode <;> simp_all [Mode.got]

/-- A request as the directory forwards it. -/
def forwardMsg (i : ι) (x : Bool) (τ φ : ℕ) : RequestMsg ι :=
  { type := getType x, requestor := .cache i, initialRequestTime := τ, forwardRequestTime := φ }

/-- The parties when the directory starts to serve a request of `i`. -/
def serveStart (a : ι → Party ι L) (i : ι) (m : RequestMsg ι) (j : ι) : Party ι L :=
  if j = i then { a i with request := none } else { a j with probe := some m }

/-- The cache whose request is served. -/
theorem PartyOK.start {due owed : ℕ} (h : PartyOK n g mem i p) (hr : g.role i = .idle)
    (hquiet : p.signal.Quiet) (hrests : Rests p) (hstarts : p.view.Starts n x)
    (hactive : Active x τ φ due owed { p with request := none })
    (hr' : g'.role i = .active x τ φ due owed) (hown : g'.own = g.own) (hexcl : g'.excl = g.excl)
    (hcur : g'.cur = g.cur) (htxn : g'.txn = .serve i x τ φ) :
    PartyOK n g' mem i { p with request := none } := by
  have hheld := h.held_of_rests hr hrests hquiet.unblock
  have hzero : ({ p with request := none } : Party ι L).responses = 0 := hrests.responses
  have hprobe : p.probe = none := hquiet.probe
  refine ⟨?_, ?_, ?_, ?_, ?_, ?_, ?_⟩
  · rw [hr']
    exact hactive
  · rw [hr', hown, hexcl, hcur, Role.x, hactive.holdings, hzero]
    simpa using hheld
  · intro _
    refine ⟨hstarts.plain.1, ?_⟩
    rw [hzero]
    simp
  · intro k _
    refine ⟨fun hss => ?_, ?_⟩
    · have hmode := hstarts.mode
      have hss : p.view.mode = .SS := hss
      rw [hss] at hmode
      cases x <;> simp at hmode
    · rw [hzero]
      simp
  · intro m hm
    have hm : p.probe = some m := hm
    rw [hprobe] at hm
    cases hm
  · rw [htxn]
    intro hclears
    cases x <;> simp [Txn.clears] at hclears
  · rw [htxn]
    intro b hb
    cases hb

theorem ownerDue_serveStart (hquiet : ∀ j, ((a j).signal).Quiet)
    (own : Option ι) : ownerDue own (fun j => (serveStart a i m j).signal)
      = if own = none ∨ own = some i then 0 else 1 := by
  cases own with
  | none => simp [ownerDue]
  | some k =>
    by_cases hk : k = i
    · subst hk
      have hprobe : (a k).probe = none := (hquiet k).probe
      simp [ownerDue, serveStart, Party.signal, Signal.probed, hprobe]
    · simp [ownerDue, serveStart, Party.signal, Signal.probed, hk]

omit [DecidableEq ι] in
theorem requestEvent_getMsg : requestEvent (getMsg (ι := ι) i x τ).type
    = some (if x then .GETX else .GETS) := by
  cases x <;> rfl

omit [DecidableEq ι] in
theorem getMsg_inj {x' : Bool} {τ' : ℕ} (h : getMsg i x τ = getMsg i x' τ') : x = x' := by
  have htype : getType x = getType x' := congrArg RequestMsg.type h
  cases x <;> cases x' <;> first | rfl | cases htype

variable [Fintype ι]

/-- A transition of the directory, from what it does to the parties and to the hub. -/
theorem Inv.deliverDir (g' : Ghost ι L) (a' : ι → Party ι L) {m : DirMessage ι L} {inp : Input ι L}
    (h : Inv g a s) (hP : P.cfg = ⟨false, false⟩) (hm : s.holds m)
    (hev : m.event = (inp, some e))
    (hrun : doTransition (broadcast now) inp e s.dir = .ok ⟨l, sent, true⟩)
    (hroute : sent.all DirSend.routed)
    (hroom : ∀ j, ((a j).dropDir j m).RoomsDir j sent) (hafter : ∀ j, afterDir a m sent j = a' j)
    (hhub : sent.foldl Hub.take { s.hub.drop m with dir := l } = b) (hcur : g'.cur = g.cur)
    (hw : g'.dmaWritten = g.dmaWritten)
    (hparty : ∀ j, PartyOK (Fintype.card ι) g' (s.memory = g.cur) j (a' j))
    (hdir : Global g' (fun j => (a' j).signal) b) : StepOK P g s (now, .deliverDir m) := by
  obtain ⟨s', hs, hof, hhub', hout⟩ := deliverDir_spec h.of hP hm hev hrun hroute hroom
  have hof' : ∀ j, (a' j).Of j (s'.node j) := fun j => by
    rw [← hafter j]
    exact hof j
  exact h.of_dir hs hof' (hhub'.trans hhub) hout hcur hw hparty hdir

/-- A message that the directory does not take. -/
theorem Inv.stallDir {m : DirMessage ι L} {inp : Input ι L} (h : Inv g a s)
    (hP : P.cfg = ⟨false, false⟩) (hev : m.event = (inp, some e))
    (hrun : doTransition (broadcast now) inp e s.dir = .ok ⟨s.dir, [], false⟩) :
    StepOK P g s (now, .deliverDir m) := by
  refine StepOK.refl h ?_
  rcases deliverDir_stall hP hev hrun with hs | hs
  · exact hs
  · exact hs

omit [DecidableEq ι] in
theorem one_lt_machineCount (hn : 1 < Fintype.card ι) : 1 < machineCount ι := by
  unfold machineCount
  exact_mod_cast hn

/-! ## A request for a copy -/

/-- The answers that a request waits for when it is forwarded to the others. -/
theorem tally_serveStart (hquiet : ∀ j, ((a j).signal).Quiet) :
    tally Signal.probed (fun j => (serveStart a i m j).signal) = Fintype.card ι - 1 := by
  have hset : (Finset.univ.filter fun j => ((serveStart a i m j).signal).probed = true)
      = Finset.univ.erase i := by
    ext j
    by_cases hj : j = i
    · subst hj
      have hprobe : (a j).probe = none := (hquiet j).probe
      simp [serveStart, Party.signal, Signal.probed, hprobe]
    · simp [serveStart, Party.signal, Signal.probed, hj]
  rw [tally, hset, Finset.card_erase_of_mem (Finset.mem_univ i), Finset.card_univ]

section Get

variable {sent : List (DirSend ι L)} (hsent : sent = [probeOthers now (getMsg i x τ)] ∨
  ∃ q, sent = [.memory q, probeOthers now (getMsg i x τ)])

include hsent

theorem afterDir_get : afterDir a (.request i (getMsg i x τ)) sent j
    = serveStart a i (forwardMsg i x τ now) j := by
  have htype : ¬(getType x = .WB_ACK ∨ getType x = .WB_NACK) := by cases x <;> simp [getType]
  rcases hsent with rfl | ⟨q, rfl⟩ <;> by_cases hj : j = i <;>
    simp [afterDir, serveStart, Party.takeDir, Party.dropDir, probeOthers, getMsg, MachineID.caches,
      forwarded, hj, htype, forwardMsg, broadcast]

theorem rooms_get (hprobe : ((a j).signal).probe = none) :
    ((a j).dropDir j (.request i (getMsg i x τ))).RoomsDir j sent := by
  have htype : ¬(getType x = .WB_ACK ∨ getType x = .WB_NACK) := by cases x <;> simp [getType]
  have hprobe : (a j).probe = none := hprobe
  rcases hsent with rfl | ⟨q, rfl⟩ <;> by_cases hj : j = i <;>
    simp [Party.RoomsDir, Party.RoomDir, Party.takeDir, Party.dropDir, probeOthers, getMsg,
      MachineID.caches, forwarded, hj, htype, hprobe]

end Get

section

variable (h : Inv g a s) (hn : 1 < Fintype.card ι) (hP : P.cfg = ⟨false, false⟩)
  (htxn : g.txn = .idle) (hm : s.holds (.request i (getMsg i x τ)) = true)
include h hn hP htxn hm

/-- An idle directory starts to serve a request. -/
theorem step_get {d : ℕ}
    (he : requestEvent (getMsg (ι := ι) i x τ).type = some e)
    (hrun : doTransition (broadcast now) (.request (getMsg i x τ)) e s.dir = .ok ⟨l, sent, true⟩)
    (hsent : sent = [probeOthers now (getMsg i x τ)] ∨
      ∃ q, sent = [.memory q, probeOthers now (getMsg i x τ)])
    (hhub : sent.foldl Hub.take { s.hub with dir := l } = b) (htrigger : b.trigger = 0)
    (hd : d = if g.own = none then 1 else 0)
    (hdir : ∀ g' : Ghost ι L, g'.own = g.own → g'.excl = g.excl → g'.cur = g.cur →
      DirServe g' b i x ∅ d) :
    StepOK P g s (now, .deliverDir (.request i (getMsg i x τ))) := by
  have hglobal := h.dir
  unfold Global at hglobal
  rw [htxn] at hglobal
  obtain ⟨hquiet, hidle, -, -, -⟩ := hglobal
  have hreq : (a i).request = some (getMsg i x τ) := Sys.holds_party h.of hm
  obtain ⟨-, hrests, hgrant, hkind⟩ := (h.party i).requests hreq
  have hstarts : (a i).view.Starts (Fintype.card ι) x := by
    rcases hkind with ⟨x', τ', hmsg, hstarts⟩ | ⟨hmsg, -⟩
    · obtain rfl : x = x' := getMsg_inj hmsg
      exact hstarts
    · cases x <;> cases hmsg
  have hunblock : (a i).unblock = none := (hquiet i).unblock
  have hheld := (h.party i).held_of_rests (hidle i) hrests hunblock
  have hgot := hstarts.got_eq hheld
  have hactive := hstarts.active (p := { a i with request := none }) τ now hn rfl
    ⟨hrests.trigger, hrests.responses⟩ rfl hgrant (hquiet i).probe hunblock
  have hafter : ∀ j, afterDir a (.request i (getMsg i x τ)) sent j
      = serveStart a i (forwardMsg i x τ now) j := fun j => afterDir_get hsent
  have hroute : sent.all DirSend.routed = true := by rcases hsent with rfl | ⟨q, rfl⟩ <;> rfl
  have hroom : ∀ j, ((a j).dropDir j (.request i (getMsg i x τ))).RoomsDir j sent :=
    fun j => rooms_get hsent (hquiet j).probe
  have hdue : tally Signal.probed (fun j => (serveStart a i (forwardMsg i x τ now) j).signal)
        + ownerDue g.own (fun j => (serveStart a i (forwardMsg i x τ now) j).signal) + d
      = Fintype.card ι - (a i).view.mode.got := by
    rw [tally_serveStart hquiet, ownerDue_serveStart hquiet, hd, hgot]
    by_cases hnone : g.own = none
    · simp [hnone]
      omega
    · by_cases hself : g.own = some i
      · simp [hself]
      · simp [hnone, hself]
        omega
  have howed : ownerDue g.own (fun j => (serveStart a i (forwardMsg i x τ now) j).signal) + d
      = 1 - (a i).view.mode.got := by
    rw [ownerDue_serveStart hquiet, hd, hgot]
    by_cases hnone : g.own = none
    · simp [hnone]
    · by_cases hself : g.own = some i
      · simp [hself]
      · simp [hnone, hself]
  refine h.deliverDir { g with
      txn := .serve i x τ now
      role := fun j => if j = i then .active x τ now (Fintype.card ι - (a i).view.mode.got)
        (1 - (a i).view.mode.got) else .idle } _
    hP hm (congrArg (Prod.mk _) he) hrun hroute hroom hafter hhub rfl rfl (fun j => ?_) ?_
  · by_cases hj : j = i
    · subst hj
      rw [serveStart, if_pos rfl]
      exact (h.party j).start (hidle j) (hquiet j) hrests hstarts hactive (if_pos rfl) rfl rfl rfl
        rfl
    · rw [serveStart, if_neg hj]
      exact (h.party j).forward (hidle j) (if_neg hj) rfl rfl rfl rfl
  · refine ⟨fun j => ?_, htrigger, ∅, d, hdir _ rfl rfl rfl, Finset.notMem_empty i, fun j => ?_⟩
    · obtain ⟨-, hanswer, hunblock, hgrant⟩ := hquiet j
      have hsame : (serveStart a i (forwardMsg i x τ now) j).signal
          = { (a j).signal with probe := (serveStart a i (forwardMsg i x τ now) j).probe } := by
        unfold serveStart
        split
        · rename_i hj
          subst hj
          rfl
        · rfl
      dsimp only
      rw [hsame]
      exact ⟨hanswer, hunblock, hgrant⟩
    · show (if j = i then _ else _) = _
      rw [hdue, howed]
      simp

/-- The directory that starts to serve a request. -/
theorem step_request_get :
    StepOK P g s (now, .deliverDir (.request i (getMsg i x τ))) := by
  have hglobal := h.dir
  unfold Global at hglobal
  rw [htxn] at hglobal
  obtain ⟨-, -, htrigger, ⟨hrequests, hresponses⟩, hdir⟩ := hglobal
  have hcard := one_lt_machineCount hn
  have hget : (if x then Event.GETX else Event.GETS) = .GETX
      ∨ (if x then Event.GETX else Event.GETS) = .GETS := by cases x <;> simp
  have he := requestEvent_getMsg (i := i) (x := x) (τ := τ)
  cases hdir with
  | E hd hown hexcl hmem =>
    obtain ⟨t, hrun, hst, hacks, hsilent, htype⟩ :=
      get_exclusive (L := L) (m := getMsg i x τ) now hcard hget
    have hd : s.dir = ⟨.E, none, none⟩ := hd
    rw [← hd] at hrun
    refine step_get (d := 1) h hn hP htxn hm he hrun (.inr ⟨_, rfl⟩) rfl htrigger
      (by simp [hown]) ?_
    intro g' hown' hexcl' hcur'
    refine .fetch t .NO_B_W rfl hst hacks hsilent (hown'.trans hown) (.inl ⟨?_, hresponses⟩) ?_
      (.inl ⟨rfl, htype, hexcl'.trans hexcl⟩)
    · show _ ::ₘ s.requestToMemory = _
      rw [show s.requestToMemory = 0 from hrequests]
      rfl
    · rw [hcur']
      exact hmem
  | O hd hown hmem =>
    obtain ⟨t, st, hrun, hst, hacks, hsilent, htype, hstate⟩ :=
      get_shared (L := L) (m := getMsg i x τ) now hcard hget
    have hd : s.dir = ⟨.O, none, none⟩ := hd
    rw [← hd] at hrun
    refine step_get (d := 1) h hn hP htxn hm he hrun (.inr ⟨_, rfl⟩) rfl htrigger
      (by simp [hown]) ?_
    intro g' hown' hexcl' hcur'
    refine .fetch t st rfl hst hacks hsilent (hown'.trans hown) (.inl ⟨?_, hresponses⟩) ?_ ?_
    · show _ ::ₘ s.requestToMemory = _
      rw [show s.requestToMemory = 0 from hrequests]
      rfl
    · rw [hcur']
      exact hmem
    · cases x with
      | true => exact .inr (.inl ⟨hstate, htype, rfl⟩)
      | false => exact .inr (.inr ⟨hstate, htype, rfl⟩)
  | owned st hst hd k hown =>
    have hrun := get_owned (L := L) (m := getMsg i x τ) now hcard hst hget
    have hd : s.dir = ⟨st, none, none⟩ := hd
    rw [← hd] at hrun
    refine step_get (d := 0) h hn hP htxn hm he hrun (.inl rfl) rfl htrigger (by simp [hown]) ?_
    intro g' hown' hexcl' hcur'
    exact .owned k (hown'.trans hown) (.alone .NO_B (.inl rfl) rfl rfl) ⟨hrequests, hresponses⟩

end

/-! ## A write-back -/

/-- The parties when a write-back is granted or refused. -/
def putDone (a : ι → Party ι L) (i : ι) (t : CoherenceRequestType) (j : ι) : Party ι L :=
  if j = i then { a i with request := none, grant := some t } else a j

omit [Fintype ι] in
theorem afterDir_put {t : CoherenceRequestType} (ht : t = .WB_ACK ∨ t = .WB_NACK) :
    afterDir (L := L) a (.request i (putMsg i))
      [.forward (putMsg i).requestor.caches { type := t, requestor := (putMsg i).requestor }] j
      = putDone a i t j := by
  by_cases hj : j = i <;>
    simp [afterDir, putDone, Party.takeDir, Party.dropDir, putMsg, MachineID.caches, hj, ht]

omit [Fintype ι] in
theorem rooms_put {t : CoherenceRequestType} (ht : t = .WB_ACK ∨ t = .WB_NACK)
    (hgrant : (a i).grant = none) :
    ((a j).dropDir j (.request i (putMsg i))).RoomsDir j
      [.forward (putMsg i).requestor.caches { type := t, requestor := (putMsg i).requestor }] := by
  by_cases hj : j = i
  · subst hj
    simp [Party.RoomsDir, Party.RoomDir, Party.dropDir, putMsg, MachineID.caches, ht, hgrant,
      grantMsg]
  · simp [Party.RoomsDir, Party.RoomDir, Party.dropDir, putMsg, MachineID.caches, hj]

/-- An idle directory grants or refuses a write-back. -/
theorem step_request_put (h : Inv g a s) (hP : P.cfg = ⟨false, false⟩) (htxn : g.txn = .idle)
    (hm : s.holds (.request i (putMsg i)) = true) :
    StepOK P g s (now, .deliverDir (.request i (putMsg i))) := by
  have hglobal := h.dir
  unfold Global at hglobal
  rw [htxn] at hglobal
  obtain ⟨hquiet, hidle, htrigger, hmemory, hdir⟩ := hglobal
  have hreq : (a i).request = some (putMsg i) := Sys.holds_party h.of hm
  obtain ⟨-, hrests, hgrant, hkind⟩ := (h.party i).requests hreq
  obtain ⟨hleaving, hplain⟩ : (a i).view.mode.leaving = true ∧ (a i).view.Plain := by
    rcases hkind with ⟨x, τ, hmsg, -⟩ | ⟨-, hv⟩
    · cases x <;> cases hmsg
    · exact hv
  have hunblock : (a i).unblock = none := (hquiet i).unblock
  have hheld := (h.party i).held_of_rests (hidle i) hrests hunblock
  -- a cache that is too late has lost its copy
  have hlate (hown : g.own = none) : (a i).view.mode = .II := by
    have hno : ¬∃ c, (a i).view.holding = some c ∧ c.owned = true := fun hex => by
      rw [← hheld.own_iff, hown] at hex
      cases hex
    cases hmode : (a i).view.mode <;> simp_all [View.holding, Mode.copy, Mode.leaving]
  have hrefuse {st : Directory.State} (hst : st = .O ∨ st = .E) (hd : s.dir = ⟨st, none, none⟩)
      (hown : g.own = none) : StepOK P g s (now, .deliverDir (.request i (putMsg i))) := by
    have hrun := put_late (L := L) (m := putMsg i) now hst
    rw [← hd] at hrun
    refine h.deliverDir g _ hP hm rfl hrun rfl (fun j => rooms_put (.inr rfl) hgrant)
      (fun j => afterDir_put (.inr rfl)) rfl rfl rfl (fun j => ?_) ?_
    · unfold putDone
      split
      · rename_i hj
        subst hj
        exact (h.party j).of_idle (hidle j) ⟨hrests.trigger, hrests.responses⟩
          (.nacked (hlate hown) hplain) rfl rfl rfl
      · exact h.party j
    · have hsignal : (fun j => (putDone a i .WB_NACK j).signal) = fun j => (a j).signal := by
        funext j
        unfold putDone
        split
        · rename_i hj
          subst hj
          simp [Party.signal, hgrant]
        · rfl
      rw [hsignal]
      have hhub : ({ s.hub with dir := s.dir } : Hub ι L) = s.hub := rfl
      show Global g _ { s.hub with dir := s.dir }
      rw [hhub]
      exact h.dir
  cases hdir with
  | E hd hown hexcl hmem => exact hrefuse (.inr rfl) hd hown
  | O hd hown hmem => exact hrefuse (.inl rfl) hd hown
  | owned st hst hd k hown =>
    have hrun := put_owned (L := L) (m := putMsg i) now hst
    have hd : s.dir = ⟨st, none, none⟩ := hd
    rw [← hd] at hrun
    refine h.deliverDir { g with txn := .writeBack i } _ hP hm rfl hrun rfl
      (fun j => rooms_put (.inl rfl) hgrant) (fun j => afterDir_put (.inl rfl)) rfl rfl rfl
      (fun j => ?_) ?_
    · have hkeep : PartyOK (Fintype.card ι) { g with txn := .writeBack i } (s.memory = g.cur) j
          (a j) :=
        (h.party j).passive (.inl (hidle j)) rfl id (.inl (hquiet j).probe)
          (fun hc => by cases hc) (fun b hb => by cases hb)
      unfold putDone
      split
      · rename_i hj
        subst hj
        exact hkeep.of_idle (hidle j) ⟨hrests.trigger, hrests.responses⟩
          (.acked hleaving hplain) rfl rfl rfl
      · exact hkeep
    · refine ⟨fun j hj => ?_, hidle, htrigger, hmemory, rfl, ⟨k, hown⟩, ?_, ?_, .inl ⟨?_, ?_⟩⟩
      · simp only [putDone, if_neg hj]
        exact hquiet j
      · simp only [putDone, if_pos]
        exact (hquiet i).probe
      · simp only [putDone, if_pos]
        exact (hquiet i).answer
      · simp [putDone, Party.signal]
      · simp only [putDone, if_pos]
        exact (hquiet i).unblock

/-! ## A busy directory -/

variable {σ : ι → Signal ι L} {b b' : Hub ι L}

omit [DecidableEq ι] [Fintype ι] in
theorem DirBlocked.unique {J' : Finset ι} (h : DirBlocked b J) (h' : DirBlocked b J') : J = J' := by
  cases h with
  | alone st hst hd hJ =>
    cases h' with
    | alone st' hst' hd' hJ' => rw [hJ, hJ']
    | merging t hst' hd' hJ' hne =>
      rw [hd] at hd'
      cases hd'
  | merging t hst hd hJ hne =>
    cases h' with
    | alone st' hst' hd' hJ' =>
      rw [hd] at hd'
      cases hd'
    | merging t' hst' hd' hJ' hne' =>
      rw [hd] at hd'
      cases hd'
      rw [← hJ, ← hJ']

/-- The states of a directory that has put requests aside or can do so. -/
def Directory.State.waits : Directory.State → Bool
  | .NO_B | .NO_B_X | .NO_B_S => true
  | _ => false

omit [DecidableEq ι] [Fintype ι] in
theorem DirBlocked.waits (h : DirBlocked b J) : b.dir.directoryState.waits := by
  cases h with
  | alone st hst hd hJ => rcases hst with rfl | rfl <;> rw [hd] <;> rfl
  | merging t hst hd hJ hne => rw [hd]; rfl

section

variable (h : Global g σ b) (hJ : DirBlocked b J)
include h hJ

/-- A directory that can put requests aside serves a request or waits for its unblock
message. -/
theorem Global.of_blocked :
    (∃ r x τ φ k, g.txn = .serve r x τ φ ∧
      (∀ j, (σ j).answer = none ∧ (σ j).unblock = none ∧ (σ j).grant ≠ some .WB_ACK) ∧
      b.trigger = 0 ∧ g.own = some k ∧ MemIdle b ∧ r ∉ J ∧
      ∀ j, g.role j =
        if j = r then .active x τ φ (tally Signal.probed σ + ownerDue g.own σ + 0)
          (ownerDue g.own σ + 0)
        else if j ∈ J then .waiting else .idle) ∨
    ∃ r m, g.txn = .close r ∧
      (∀ j, (σ j).probe = none ∧ (σ j).answer = none ∧ (σ j).grant ≠ some .WB_ACK) ∧
      (∀ j, j ≠ r → (σ j).unblock = none) ∧ b.trigger = 0 ∧ MemIdle b ∧
      (σ r).unblock = some m ∧ m.sender = .cache r ∧
      (m.type = .UNBLOCKM ∧ g.own = some r ∨
        m.type = .UNBLOCKS ∧ ∃ k, g.own = some k ∧ m.curOwner = .cache k) ∧
      ∀ j, g.role j = if j ∈ J then .waiting else .idle := by
  have hwaits := hJ.waits
  have hno {st : Directory.State} {o : Option (DirTBE ι L)} (hd : b.dir = ⟨st, none, o⟩)
      (hst : st.waits = false) (R : Prop) : R := by
    rw [hd, hst] at hwaits
    cases hwaits
  unfold Global at h
  cases htxn : g.txn with rw [htxn] at h
  | idle =>
    obtain ⟨-, -, -, -, hdir⟩ := h
    cases hdir with
    | E hd | O hd => exact hno hd rfl _
    | owned st hst hd k hown => rcases hst with rfl | rfl | rfl <;> exact hno hd rfl _
  | serve r x τ φ =>
    obtain ⟨hsignals, htrig, J₀, d, hserve, hr, hroles⟩ := h
    cases hserve with
    | clean hx hown hd => exact hno hd rfl _
    | fetch t st hd hst hacks hsilent hown hm hmem htype =>
      rcases htype with ⟨rfl, -⟩ | ⟨rfl, -⟩ | ⟨rfl, -⟩ <;> exact hno hd rfl _
    | owned k hown hblocked hm =>
      obtain rfl := hblocked.unique hJ
      exact .inl ⟨r, x, τ, φ, k, rfl, hsignals, htrig, hown, hm, hr, hroles⟩
  | close r =>
    obtain ⟨hsignals, hothers, htrig, hm, m, J₀, hunblock, hsender, hclose, hroles⟩ := h
    cases hclose with
    | clean hown hd => exact hno hd rfl _
    | owned hblocked hown =>
      obtain rfl := hblocked.unique hJ
      exact .inr ⟨r, m, rfl, hsignals, hothers, htrig, hm, hunblock, hsender, hown, hroles⟩
  | feed J₀ φ pending =>
    obtain ⟨-, -, -, -, -, t, -, hd, -⟩ := h
    exact hno hd rfl _
  | dmaRead seen =>
    obtain ⟨-, -, -, t, hread, -⟩ := h
    cases hread with
    | fetch st hst hd hown hmem hm hdirty htrig htype hcalm
    | fetched st hst hd hown hm hdata htrig htype hcalm =>
      rcases htype with ⟨rfl, -⟩ | rfl <;> exact hno hd rfl _
    | owner hst hd => exact hno hd rfl _
  | dmaWrite =>
    obtain ⟨-, -, -, -, -, t, -, hd, -⟩ := h
    exact hno hd rfl _
  | writeBack i =>
    obtain ⟨-, -, -, -, hd, -⟩ := h
    exact hno hd rfl _
  | memoryWrite =>
    obtain ⟨-, -, -, -, hwrite⟩ := h
    cases hwrite with
    | shared hd | exclusive hd | dma t hst hd => exact hno hd rfl _

/-- The requests that are put aside. -/
theorem Global.waiting (hj : j ∈ J) :
    g.role j = .waiting := by
  rcases h.of_blocked hJ with ⟨r, x, τ, φ, k, -, -, -, -, -, hr, hroles⟩ |
    ⟨r, m, -, -, -, -, -, -, -, -, hroles⟩
  · rw [hroles j, if_neg (fun hjr : j = r => hr (hjr ▸ hj)), if_pos hj]
  · rw [hroles j, if_pos hj]

/-- More requests are put aside. -/
theorem Global.reblock {J' : Finset ι}
    (hJ' : DirBlocked b' J') (hb : b' = { b with dir := b'.dir }) (hsub : J ⊆ J')
    (hidle : ∀ j ∈ J', j ∉ J → g.role j = .idle) :
    Global { g with role := fun j => if j ∈ J' then .waiting else g.role j } σ b' := by
  have htrigger : b'.trigger = b.trigger := by rw [hb]
  have hmemIdle (hm : MemIdle b) : MemIdle b' := by
    rw [hb]
    exact hm
  rcases h.of_blocked hJ with ⟨r, x, τ, φ, k, htxn, hsignals, htrig, hown, hm, hr, hroles⟩ |
    ⟨r, m, htxn, hsignals, hothers, htrig, hm, hunblock, hsender, hown, hroles⟩
  · unfold Global
    dsimp only
    rw [htxn]
    have hr' : r ∉ J' := by
      intro hmem
      have hidle' := hidle r hmem hr
      rw [hroles r, if_pos rfl] at hidle'
      cases hidle'
    refine ⟨hsignals, htrigger.trans htrig, J', 0, .owned k hown hJ' (hmemIdle hm), hr',
      fun j => ?_⟩
    by_cases hj : j = r
    · subst hj
      rw [if_neg hr', hroles j, if_pos rfl, if_pos rfl]
    · by_cases hmem : j ∈ J'
      · rw [if_pos hmem, if_neg hj, if_pos hmem]
      · rw [if_neg hmem, if_neg hj, if_neg hmem, hroles j, if_neg hj,
          if_neg fun hj' => hmem (hsub hj')]
  · unfold Global
    dsimp only
    rw [htxn]
    refine ⟨hsignals, hothers, htrigger.trans htrig, hmemIdle hm, m, J', hunblock, hsender,
      .owned hJ' hown, fun j => ?_⟩
    by_cases hmem : j ∈ J'
    · rw [if_pos hmem, if_pos hmem]
    · rw [if_neg hmem, if_neg hmem, hroles j, if_neg fun hj' => hmem (hsub hj')]

end

/-- A directory that is in the middle of something is blocked or stalls every request. -/
theorem Global.busy (h : Global g σ b) (htxn : g.txn ≠ .idle) :
    (∃ J, DirBlocked b J) ∨ ∃ st o, b.dir = ⟨st, none, o⟩ ∧ st.busy = true ∧
      ∀ t, o = some t → t.tbeState = st := by
  have hbusy {st : Directory.State} {t : DirTBE ι L} (hd : b.dir = ⟨st, none, some t⟩)
      (hst : t.tbeState = st) (hb : st.busy = true) :
      ∃ st o, b.dir = ⟨st, none, o⟩ ∧ st.busy = true ∧ ∀ t, o = some t → t.tbeState = st :=
    ⟨st, some t, hd, hb, fun t' ht' => by
      cases ht'
      exact hst⟩
  have hfree {st : Directory.State} (hd : b.dir = ⟨st, none, none⟩) (hb : st.busy = true) :
      ∃ st o, b.dir = ⟨st, none, o⟩ ∧ st.busy = true ∧ ∀ t, o = some t → t.tbeState = st :=
    ⟨st, none, hd, hb, fun t' ht' => nomatch ht'⟩
  unfold Global at h
  cases htxn' : g.txn with rw [htxn'] at h
  | idle => exact absurd htxn' htxn
  | serve r x τ φ =>
    obtain ⟨-, -, J₀, d, hserve, -⟩ := h
    cases hserve with
    | clean hx hown hd => exact .inr (hfree hd rfl)
    | fetch t st hd hst hacks hsilent hown hm hmem htype =>
      rcases htype with ⟨rfl, -⟩ | ⟨rfl, -⟩ | ⟨rfl, -⟩ <;> exact .inr (hbusy hd hst rfl)
    | owned k hown hblocked hm => exact .inl ⟨_, hblocked⟩
  | close r =>
    obtain ⟨-, -, -, -, m, J₀, -, -, hclose, -⟩ := h
    cases hclose with
    | clean hown hd => exact .inr (hfree hd rfl)
    | owned hblocked hown => exact .inl ⟨_, hblocked⟩
  | feed J₀ φ pending =>
    obtain ⟨-, -, -, -, -, t, hst, hd, -⟩ := h
    exact .inr (hbusy hd hst rfl)
  | dmaRead seen =>
    obtain ⟨-, -, -, t, hread, -⟩ := h
    cases hread with
    | fetch st hst hd hown hmem hm hdirty htrig htype hcalm
    | fetched st hst hd hown hm hdata htrig htype hcalm =>
      rcases htype with ⟨rfl, -⟩ | rfl <;> exact .inr (hbusy hd hst rfl)
    | owner hst hd => exact .inr (hbusy hd hst rfl)
  | dmaWrite =>
    obtain ⟨-, -, -, -, -, t, hst, hd, -⟩ := h
    exact .inr (hbusy hd hst rfl)
  | writeBack i =>
    obtain ⟨-, -, -, -, hd, -⟩ := h
    exact .inr (hfree hd rfl)
  | memoryWrite =>
    obtain ⟨-, -, -, -, hwrite⟩ := h
    cases hwrite with
    | shared hd | exclusive hd => exact .inr (hfree hd rfl)
    | dma t hst hd => exact .inr (hbusy hd hst rfl)

/-- A GETX that waits keeps GETS requests from being put aside. -/
theorem Inv.blockX {e : ℕ × Act ι L} (h : Inv g a s) (hd : s.dir = ⟨.NO_B, none, none⟩)
    (hs : step P s e = .ok { s with dir := ⟨.NO_B_X, none, none⟩ }) : StepOK P g s e := by
  have hblocked : DirBlocked s.hub ∅ := .alone .NO_B (.inl rfl) hd rfl
  have hblocked' : DirBlocked { s.hub with dir := ⟨.NO_B_X, none, none⟩ } ∅ :=
    .alone .NO_B_X (.inr rfl) rfl rfl
  have hglobal := h.dir.reblock hblocked hblocked' rfl (Finset.Subset.refl ∅) (by simp)
  refine ⟨g, a, _, hs, ⟨h.of, h.party, ?_, h.writes⟩, ⟨[], by simp, .inl (.inl ⟨rfl, rfl⟩)⟩, rfl⟩
  simp only [Finset.notMem_empty, if_false] at hglobal
  exact hglobal

/-- The GETS of `i` is put aside. -/
theorem step_merge (h : Inv g a s) (hP : P.cfg = ⟨false, false⟩)
    (hm : s.holds (.request i (getMsg i false τ)) = true) (hJ : DirBlocked s.hub J)
    (hrun : doTransition (broadcast now) (.request (getMsg i false τ)) .GETS s.dir
      = .ok ⟨l, [], true⟩)
    (hJ' : DirBlocked { s.hub with dir := l } (insert i J)) :
    StepOK P g s (now, .deliverDir (.request i (getMsg i false τ))) := by
  have hreq : (a i).request = some (getMsg i false τ) := Sys.holds_party h.of hm
  obtain ⟨hidle, hrests, hgrant, hkind⟩ := (h.party i).requests hreq
  have hstarts : (a i).view.Starts (Fintype.card ι) false := by
    rcases hkind with ⟨x', τ', hmsg, hstarts⟩ | ⟨hmsg, -⟩
    · obtain rfl : false = x' := getMsg_inj hmsg
      exact hstarts
    · cases hmsg
  have hglobal := h.dir.reblock hJ hJ' rfl (Finset.subset_insert i J) (fun j hj hnot => by
    obtain rfl := (Finset.mem_insert.1 hj).resolve_right hnot
    exact hidle)
  -- the requests that were put aside before wait already
  have hwaiting : ∀ j ∈ J, g.role j = .waiting := fun j => h.dir.waiting hJ
  have hrole : (fun j => if j ∈ insert i J then Role.waiting else g.role j)
      = update g.role i .waiting := by
    funext j
    by_cases hj : j = i
    · subst hj
      simp
    · by_cases hmem : j ∈ J
      · simp [hj, hmem, hwaiting j hmem]
      · simp [hj, hmem]
  rw [hrole] at hglobal
  refine h.deliverDir { g with role := update g.role i .waiting }
    (fun j => if j = i then { a i with request := none } else a j) hP hm rfl hrun rfl
    (fun j => trivial) (fun j => ?_) rfl rfl rfl (fun j => ?_) ?_
  · by_cases hj : j = i
    · subst hj
      simp [afterDir, Party.dropDir]
    · simp [afterDir, Party.dropDir, hj]
  · have hold := h.party j
    by_cases hj : j = i
    · subst hj
      rw [if_pos rfl]
      have hheld := hold.held
      have hcleared := hold.cleared
      have hseen := hold.seen
      rw [hidle] at hheld hcleared hseen
      refine .of_rest (by simp) ?_ hheld hold.probe hcleared hseen
      show Role.Fits _ j _ (update g.role j .waiting j)
      rw [update_self]
      exact ⟨⟨hrests.trigger, hrests.responses⟩, rfl, hgrant, hstarts⟩
    · rw [if_neg hj]
      exact hold.of_role (update_of_ne hj _ _)
  · have hsignal : (fun j => (if j = i then { a i with request := none } else a j).signal)
        = fun j => (a j).signal := by
      funext j
      split
      · rename_i hj
        subst hj
        rfl
      · rfl
    rw [hsignal]
    exact hglobal

/-- A request to a directory that is in the middle of something. -/
theorem step_request_busy (h : Inv g a s) (hP : P.cfg = ⟨false, false⟩)
    (htxn : g.txn ≠ .idle) (hm : s.holds (.request i m)) :
    StepOK P g s (now, .deliverDir (.request i m)) := by
  have hreq : (a i).request = some m := Sys.holds_party h.of hm
  obtain ⟨-, -, -, hkind⟩ := (h.party i).requests hreq
  obtain ⟨e, hev, he⟩ : ∃ e, requestEvent m.type = some e ∧ e.ofCache = true := by
    rcases hkind with ⟨x, τ, rfl, -⟩ | ⟨rfl, -⟩
    · exact ⟨_, requestEvent_getMsg, by cases x <;> rfl⟩
    · exact ⟨_, rfl, rfl⟩
  have hstall (hrun : doTransition (broadcast now) (.request m) e s.dir
      = .ok ⟨s.dir, [], false⟩) : StepOK P g s (now, .deliverDir (.request i m)) :=
    h.stallDir hP (congrArg (Prod.mk _) hev) hrun
  rcases h.dir.busy htxn with ⟨J, hJ⟩ | ⟨st, o, hd, hbusy, ho⟩
  · cases hJ with
    | alone st hst hd hJ =>
      have hd : s.dir = ⟨st, none, none⟩ := hd
      rcases hst with rfl | rfl
      · rcases hkind with ⟨x, τ, rfl, -⟩ | ⟨rfl, -⟩
        · cases x with
          | true =>
            have hrun : doTransition (broadcast now) (.request (getMsg i true τ)) .GETX s.dir
                = .ok ⟨⟨.NO_B_X, none, none⟩, [], false⟩ := by
              rw [hd]
              exact getx_blocked
            rcases deliverDir_stall (m := .request i (getMsg i true τ)) hP rfl hrun with hs | hs
            · exact StepOK.refl h hs
            · exact h.blockX hd hs
          | false =>
            have hrun := gets_blocked (L := L) (m := getMsg i false τ) now
            rw [← hd] at hrun
            subst hJ
            refine step_merge h hP hm (.alone .NO_B (.inl rfl) hd rfl) hrun ?_
            exact .merging _ rfl rfl (by simp [getMsg, MachineID.caches]) (by simp)
        · refine hstall ?_
          cases hev
          rw [hd]
          exact stall_blocked (.inl rfl) (.inl rfl) (fun t ht => nomatch ht)
      · refine hstall ?_
        rw [hd]
        exact stall_busy rfl (.inl he) (fun t ht => nomatch ht)
    | merging t hst hd hJ hne =>
      have hd : s.dir = ⟨.NO_B_S, none, some t⟩ := hd
      have ho : ∀ t', some t = some t' → t'.tbeState = .NO_B_S := fun t' ht' => by
        cases ht'
        exact hst
      rcases hkind with ⟨x, τ, rfl, -⟩ | ⟨rfl, -⟩
      · cases x with
        | true =>
          refine hstall ?_
          cases hev
          rw [hd]
          exact stall_blocked (.inr rfl) (.inr (.inr ⟨rfl, rfl⟩)) ho
        | false =>
          have hrun := gets_merging (m := getMsg i false τ) now hst
          rw [← hd] at hrun
          refine step_merge h hP hm (.merging t hst hd hJ hne) hrun ?_
          refine .merging _ rfl rfl ?_ (Finset.insert_nonempty i J)
          show t.getSRequestors ∪ {i} = _
          rw [hJ, Finset.union_comm]
          rfl
      · refine hstall ?_
        cases hev
        rw [hd]
        exact stall_blocked (.inr rfl) (.inl rfl) ho
  · refine hstall ?_
    have hd : s.dir = ⟨st, none, o⟩ := hd
    rw [hd]
    exact stall_busy hbusy (.inl he) ho

theorem step_request (h : Inv g a s) (hn : 1 < Fintype.card ι)
    (hP : P.cfg = ⟨false, false⟩) (hm : s.holds (.request i m)) :
    StepOK P g s (now, .deliverDir (.request i m)) := by
  by_cases htxn : g.txn = .idle
  · obtain ⟨-, -, -, hkind⟩ := (h.party i).requests (Sys.holds_party h.of hm)
    rcases hkind with ⟨x, τ, rfl, -⟩ | ⟨rfl, -⟩
    · exact step_request_get h hn hP htxn hm
    · exact step_request_put h hP htxn hm
  · exact step_request_busy h hP htxn hm

/-! ## A DMA request -/

/-- The parties when a request is forwarded to all of them. -/
def askAll (a : ι → Party ι L) (m : RequestMsg ι) (j : ι) : Party ι L :=
  { a j with probe := some m }

omit [DecidableEq ι] in
theorem tally_askAll (m : RequestMsg ι) :
    tally Signal.probed (fun j => (askAll a m j).signal) = Fintype.card ι := by
  simp [tally, askAll, Party.signal, Signal.probed]

omit [DecidableEq ι] in
theorem tally_answers (hquiet : ∀ j, ((a j).signal).Quiet) (m : RequestMsg ι) :
    tally Signal.answers (fun j => (askAll a m j).signal) = 0 := by
  refine tally_eq_zero_iff.2 fun j => ?_
  have hanswer : (a j).answer = none := (hquiet j).answer
  simp [askAll, Party.signal, Signal.answers, hanswer]

/-- A DMA request to a busy directory waits. -/
theorem step_dma_busy {m : DMARequestMsg L} (h : Inv g a s) (hP : P.cfg = ⟨false, false⟩)
    (htxn : g.txn ≠ .idle) : StepOK P g s (now, .deliverDir (.dma m)) := by
  have he : (dmaEvent m).ofDma = true := by cases m <;> rfl
  refine h.stallDir hP rfl ?_
  rcases h.dir.busy htxn with ⟨J, hJ⟩ | ⟨st, o, hd, hbusy, ho⟩
  · cases hJ with
    | alone st hst hd hJ =>
      have hd : s.dir = ⟨st, none, none⟩ := hd
      rw [hd]
      rcases hst with rfl | rfl
      · exact stall_blocked (.inl rfl) (.inr (.inl he)) (fun t ht => nomatch ht)
      · exact stall_busy rfl (.inr he) (fun t ht => nomatch ht)
    | merging t hst hd hJ hne =>
      have hd : s.dir = ⟨.NO_B_S, none, some t⟩ := hd
      rw [hd]
      refine stall_blocked (.inr rfl) (.inr (.inl he)) fun t' ht' => ?_
      cases ht'
      exact hst
  · have hd : s.dir = ⟨st, none, o⟩ := hd
    rw [hd]
    exact stall_busy hbusy (.inr he) ho

/-- A request of the directory for the DMA controller. -/
def askMsg (x : Bool) : RequestMsg ι := { type := getType x, requestor := .directory }

/-- An idle directory forwards a DMA request to all caches. -/
theorem step_ask (txn : Txn ι) {m : DMARequestMsg L} (h : Inv g a s) (hP : P.cfg = ⟨false, false⟩)
    (htxn : g.txn = .idle) (hm : s.holds (.dma m)) (he : dmaEvent m = e)
    (hrun : doTransition (broadcast now) (.dma m) e s.dir = .ok ⟨l, sent, true⟩)
    (hsent : sent = [.forward Finset.univ (askMsg x)] ∨
      ∃ q, sent = [.memory q, .forward Finset.univ (askMsg x)])
    (hhub : sent.foldl Hub.take { s.hub with dir := l } = b)
    (hprobe : txn.probe = some (askMsg x))
    (hdir : Global { g with txn := txn } (fun j => (askAll a (askMsg x) j).signal) b) :
    StepOK P g s (now, .deliverDir (.dma m)) := by
  have hglobal := h.dir
  unfold Global at hglobal
  rw [htxn] at hglobal
  obtain ⟨hquiet, hidle, -, -, -⟩ := hglobal
  have htype : ¬((askMsg (ι := ι) x).type = .WB_ACK ∨ (askMsg (ι := ι) x).type = .WB_NACK) := by
    cases x <;> simp [askMsg, getType]
  refine h.deliverDir { g with txn := txn } (askAll a (askMsg x)) hP hm
    (congrArg (fun e => (Input.dma m, some e)) he) hrun
    (by rcases hsent with rfl | ⟨q, rfl⟩ <;> rfl) (fun j => ?_) (fun j => ?_) hhub rfl rfl
    (fun j => ?_) hdir
  · have hnone : (a j).probe = none := (hquiet j).probe
    rcases hsent with rfl | ⟨q, rfl⟩ <;>
      simp [Party.RoomsDir, Party.RoomDir, Party.takeDir, Party.dropDir, htype, hnone]
  · rcases hsent with rfl | ⟨q, rfl⟩ <;>
      simp [afterDir, askAll, Party.takeDir, Party.dropDir, htype]
  · exact (h.party j).forward (hidle j) (hidle j) rfl rfl rfl hprobe

variable (h : Inv g a s) (hn : 1 < Fintype.card ι) (hP : P.cfg = ⟨false, false⟩)
include h hn hP

theorem step_dma_read
    (htxn : g.txn = .idle) (hm : s.holds (.dma .READ)) :
    StepOK P g s (now, .deliverDir (.dma .READ)) := by
  have hglobal := h.dir
  unfold Global at hglobal
  rw [htxn] at hglobal
  obtain ⟨hquiet, hidle, htrigger, ⟨hrequests, hresponses⟩, hdir⟩ := hglobal
  have hcard := one_lt_machineCount hn
  have hcount : ((Fintype.card ι : ℕ) : ℤ)
      = tally Signal.probed (fun j => (askAll a (askMsg false) j).signal)
        + tally Signal.answers (fun j => (askAll a (askMsg false) j).signal) := by
    rw [tally_askAll, tally_answers hquiet]
    simp
  have hfetch : ∀ l : DirLine ι L,
      Fetching (Hub.take { s.hub with dir := l } (.memory (.read .dma))) .dma g.cur := fun l => by
    refine .inl ⟨?_, hresponses⟩
    show _ ::ₘ s.requestToMemory = _
    rw [show s.requestToMemory = 0 from hrequests]
    rfl
  have hsignals : ∀ j, ((askAll a (askMsg false) j).signal).unblock = none ∧
      ((askAll a (askMsg false) j).signal).grant ≠ some .WB_ACK ∧
      (((askAll a (askMsg false) j).signal).probe ≠ none →
        ((askAll a (askMsg false) j).signal).answer = none) ∧
      ∀ m, ((askAll a (askMsg false) j).signal).answer = some m →
        m.AnswersRead { g with txn := .dmaRead false } j := fun j => by
    obtain ⟨-, hanswer, hunblock, hgrant⟩ := hquiet j
    refine ⟨hunblock, hgrant, fun _ => hanswer, fun m hm => ?_⟩
    have hm : (a j).answer = some m := hm
    rw [show (a j).answer = none from hanswer] at hm
    cases hm
  have hcalm : ∀ k m, ((askAll a (askMsg false) k).signal).answer = some m →
      m.type ≠ .DATA_EXCLUSIVE := fun k m hm => by
    have hm : (a k).answer = some m := hm
    rw [show (a k).answer = none from (hquiet k).answer] at hm
    cases hm
  have hpend (t : DirTBE ι L) (ht : t.Starts) : t.numPendingMsgs
      = tally Signal.probed (fun j => (askAll a (askMsg false) j).signal)
        + tally Signal.answers (fun j => (askAll a (askMsg false) j).signal) := by
    rw [ht.pending, hcount]
  have howned (t : DirTBE ι L) (ht : t.Starts) :
      t.owned = true → false = true ∧ ∃ k, g.own = some k := by
    rw [ht.owned]
    intro hf
    cases hf
  have hread {st : Directory.State} (hst : st.stable = true) (hd : s.dir = ⟨st, none, none⟩) :=
    hd ▸ dma_read (ι := ι) (L := L) now hcard hst
  cases hdir with
  | E hd hown hexcl hmem =>
    obtain ⟨t, st', l, hrun, hst, hstarts, hcases⟩ := hread rfl hd
    rcases hcases with ⟨-, rfl, rfl⟩ | ⟨hbad, -⟩ | ⟨hbad, -⟩
    · refine step_ask (x := false) (.dmaRead false) h hP htxn hm rfl hrun (.inr ⟨_, rfl⟩) rfl
        rfl ?_
      refine ⟨hsignals, hidle, fun _ => rfl, t, ?_, hstarts.sharers, howned t hstarts,
        hpend t hstarts⟩
      exact .fetch .NO_DR_B_W hst rfl hown hmem (hfetch _) hstarts.dirty htrigger
        (.inl ⟨rfl, hexcl⟩) hcalm
    · cases hbad
    · rcases hbad with hbad | hbad | hbad <;> cases hbad
  | O hd hown hmem =>
    obtain ⟨t, st', l, hrun, hst, hstarts, hcases⟩ := hread rfl hd
    rcases hcases with ⟨hbad, -⟩ | ⟨-, rfl, rfl⟩ | ⟨hbad, -⟩
    · cases hbad
    · refine step_ask (x := false) (.dmaRead false) h hP htxn hm rfl hrun (.inr ⟨_, rfl⟩) rfl
        rfl ?_
      refine ⟨hsignals, hidle, fun _ => rfl, t, ?_, hstarts.sharers, howned t hstarts,
        hpend t hstarts⟩
      exact .fetch .O_DR_B_W hst rfl hown hmem (hfetch _) hstarts.dirty htrigger (.inr rfl) hcalm
    · rcases hbad with hbad | hbad | hbad <;> cases hbad
  | owned st hst hd k hown =>
    obtain ⟨t, st', l, hrun, htbe, hstarts, hcases⟩ :=
      hread (by rcases hst with rfl | rfl | rfl <;> rfl) hd
    rcases hcases with ⟨rfl, -⟩ | ⟨rfl, -⟩ | ⟨-, rfl, rfl⟩
    · rcases hst with hbad | hbad | hbad <;> cases hbad
    · rcases hst with hbad | hbad | hbad <;> cases hbad
    · refine step_ask (x := false) (.dmaRead false) h hP htxn hm rfl hrun (.inl rfl) rfl
        rfl ?_
      refine ⟨hsignals, hidle, fun _ => rfl, t, ?_, hstarts.sharers, howned t hstarts,
        hpend t hstarts⟩
      refine .owner htbe rfl ⟨hrequests, hresponses⟩ ?_ ?_ ?_ ?_
      · have hne : t.numPendingMsgs ≠ 0 := by
          rw [hstarts.pending]
          omega
        rw [Triggered, if_neg hne]
        exact htrigger
      · rw [hstarts.dirty]
        intro hf
        cases hf
      · exact fun k' _ => ⟨fun _ => hstarts.dirty, .inl (by simp [askAll, Party.signal])⟩
      · intro hnone
        have hnone : g.own = none := hnone
        rw [hown] at hnone
        cases hnone

theorem step_dma_write {addr len : ℕ} {d heap : DataBlock L} (htxn : g.txn = .idle)
    (hm : s.holds (.dma (.WRITE addr d len heap)) = true) :
    StepOK P g s (now, .deliverDir (.dma (.WRITE addr d len heap))) := by
  have hglobal := h.dir
  unfold Global at hglobal
  rw [htxn] at hglobal
  obtain ⟨hquiet, hidle, htrigger, hmemory, hdir⟩ := hglobal
  have hwritten : g.dmaWritten = true := by
    have hmem : DMARequestMsg.WRITE addr d len heap ∈ s.dmaRequestToDir := Sys.holds_party h.of hm
    exact (h.writes _ hmem).resolve_left (by simp)
  obtain ⟨st, hst, hd⟩ : ∃ st : Directory.State, st.stable = true ∧ s.dir = ⟨st, none, none⟩ := by
    cases hdir with
    | E hd => exact ⟨.E, rfl, hd⟩
    | O hd => exact ⟨.O, rfl, hd⟩
    | owned st hst hd => exact ⟨st, by rcases hst with rfl | rfl | rfl <;> rfl, hd⟩
  obtain ⟨t, hrun, htbe, hstarts⟩ :=
    dma_write (ι := ι) now (one_lt_machineCount hn) hst addr d len heap
  rw [← hd] at hrun
  refine step_ask (x := true) .dmaWrite h hP htxn hm rfl hrun (.inl rfl) rfl rfl ?_
  have hcount : t.numPendingMsgs = tally Signal.probed (fun j => (askAll a (askMsg true) j).signal)
        + tally Signal.answers (fun j => (askAll a (askMsg true) j).signal) := by
    rw [hstarts.pending, tally_askAll, tally_answers hquiet]
    simp
  refine ⟨fun j => ?_, hidle, hmemory, hwritten, fun k _ => by simp [askAll, Party.signal], t, htbe,
    rfl, hstarts.sharers, hcount, ?_⟩
  · obtain ⟨-, hanswer, hunblock, hgrant⟩ := hquiet j
    refine ⟨hunblock, hgrant, fun _ => hanswer, fun m hm => ?_⟩
    have hm : (a j).answer = some m := hm
    rw [show (a j).answer = none from hanswer] at hm
    cases hm
  · have hne : t.numPendingMsgs ≠ 0 := by
      rw [hstarts.pending]
      omega
    rw [Triggered, if_neg hne]
    exact htrigger

theorem step_dma {m : DMARequestMsg L} (hm : s.holds (.dma m)) :
    StepOK P g s (now, .deliverDir (.dma m)) := by
  by_cases htxn : g.txn = .idle
  · cases m with
    | READ => exact step_dma_read h hn hP htxn hm
    | WRITE addr d len heap => exact step_dma_write h hn hP htxn hm
  · exact step_dma_busy h hP htxn

end Gem5Gpu.VIHammer
