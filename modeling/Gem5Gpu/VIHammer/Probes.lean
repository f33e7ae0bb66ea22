import Gem5Gpu.VIHammer.Completion

/-!
# Forwarded requests

A cache that the directory does not serve answers every request that is forwarded
to it.  `Outcome` is what that does to its copy: it has none of its own to give
(`ack`), it gives its copy away (`give`), or it keeps it and sends another one
(`share`).  An answer of the owner counts twice, once for the owner and once for
the memory.
-/

namespace Gem5Gpu.VIHammer


open Lib Directory Function

variable {ι : Type} {L : ℕ} {p : Party ι L} {n : ℕ} {mem : Prop} {ρ : Role}

/-- What a forwarded GETX (`x`) or GETS does to the copy of a cache, and its
answer `r`. -/
inductive Outcome (x : Bool) (v v' : View ι L) (r : ResponseMsg ι L) : Prop
  | ack (hold : v'.holding = if x then none else v.holding)
      (owned : ∀ c, v.holding = some c → c.owned = false) (acks : r.acks = 1)
      (type : r.type = .ACK ∧ (x = false → v.holding = none) ∨
        r.type = .ACK_SHARED ∧ x = false ∧ v.holding ≠ none)
  | give (c : Holding L) (hc : v.holding = some c) (owned : c.owned = true)
      (hold : v'.holding = none) (acks : r.acks = 2)
      (msg : r.holding x = some c ∨ x = true ∧ r.holding x = some { c with excl := false })
      (type : r.type = .DATA ∧ x = true ∨ r.type = .DATA_EXCLUSIVE ∧ c.excl = true)
  | share (hx : x = false) (c : Holding L) (hc : v.holding = some c) (owned : c.owned = true)
      (hold : v'.holding = some { c with excl := false }) (acks : r.acks = 2)
      (blk : r.dataBlk = c.blk) (type : r.type = .DATA_SHARED)

/-- The answer to the forwarded request `m`. -/
structure ResponseMsg.Answers (i : ι) (m : RequestMsg ι) (r : ResponseMsg ι L) : Prop where
  sender : r.sender = .cache i
  silent : r.silentAcks = m.silentAcks
  initial : r.initialRequestTime = m.initialRequestTime
  forward : r.forwardRequestTime = m.forwardRequestTime

section Views

variable {n : ℕ} {j : ι} {v : View ι L} {q : Option (RequestMsg ι)}
  {t : Option CoherenceRequestType}

theorem Idle.probeX (h : Idle n j v q t) : Idle n j v.probeX q t := by
  have hleaving (hm : v.mode.leaving = true) (hp : v.Plain) :
      v.probeX.mode.leaving = true ∧ v.probeX.Plain := by
    cases hv : v.mode <;> rw [hv] at hm <;> cases hm <;> rw [View.probeX, hv]
    · exact ⟨rfl, hp⟩
    · exact ⟨rfl, hp⟩
    · exact ⟨by rw [hv]; rfl, hp⟩
  cases h with
  | rest hm hp =>
    cases hv : v.mode <;> rw [hv] at hm <;> cases hm <;> rw [View.probeX, hv]
    · exact .rest (by rw [hv]; rfl) hp
    all_goals exact .rest rfl ⟨rfl, rfl, rfl⟩
  | get x τ hs =>
    refine .get x τ ?_
    obtain ⟨hmode, hneed, hplain⟩ := hs
    cases x with
    | false =>
      rw [if_neg (by simp)] at hmode
      rw [View.probeX, hmode]
      exact ⟨hmode, hneed, hplain⟩
    | true =>
      rw [if_pos rfl] at hmode
      rcases hmode with hm | hm | hm <;> rw [hm] at hneed <;> rw [View.probeX, hm]
      · exact ⟨.inl hm, by rw [hneed, hm], hplain⟩
      · exact ⟨.inl rfl, hneed, hplain⟩
      · refine ⟨.inl rfl, ?_, hplain⟩
        show v.need + 1 = _
        rw [hneed]
        simp
  | put hm hp => exact .put (hleaving hm hp).1 (hleaving hm hp).2
  | acked hm hp => exact .acked (hleaving hm hp).1 (hleaving hm hp).2
  | nacked hm hp =>
    rw [View.probeX, hm]
    exact .nacked hm hp

theorem Idle.share (h : Idle n j v q t) : Idle n j v.share q t := by
  have hleaving (hm : v.mode.leaving = true) (hp : v.Plain) :
      v.share.mode.leaving = true ∧ v.share.Plain := by
    cases hv : v.mode <;> rw [hv] at hm <;> cases hm <;> rw [View.share, hv]
    · exact ⟨by rw [hv]; rfl, hp⟩
    · exact ⟨rfl, hp⟩
    · exact ⟨by rw [hv]; rfl, hp⟩
  cases h with
  | rest hm hp =>
    cases hv : v.mode <;> rw [hv] at hm <;> cases hm <;> rw [View.share, hv]
    · exact .rest (by rw [hv]; rfl) hp
    · exact .rest (by rw [hv]; rfl) hp
    · exact .rest (by rw [hv]; rfl) hp
    · exact .rest rfl hp
    · exact .rest rfl hp
  | get x τ hs =>
    refine .get x τ ?_
    have hmode := hs.mode
    cases x with
    | false =>
      rw [if_neg (by simp)] at hmode
      rw [View.share, hmode]
      exact hs
    | true =>
      rw [if_pos rfl] at hmode
      rcases hmode with hm | hm | hm <;> rw [View.share, hm] <;> exact hs
  | put hm hp => exact .put (hleaving hm hp).1 (hleaving hm hp).2
  | acked hm hp => exact .acked (hleaving hm hp).1 (hleaving hm hp).2
  | nacked hm hp =>
    rw [View.share, hm]
    exact .nacked hm hp

theorem Idle.probeS (h : Idle n j v q t) (mig : Bool) : Idle n j (v.probeS mig) q t := by
  rw [View.probeS]
  split
  case isFalse => exact h.share
  case isTrue hm =>
    obtain ⟨rfl, rfl⟩ := h.resting (by rw [hm.2]; rfl)
    exact .rest rfl ⟨rfl, rfl, rfl⟩

variable (env : Env ι) (m : RequestMsg ι)

theorem View.outcome_probeX (hp : v.mode.probed) :
    Outcome true v v.probeX (v.replyX env m) := by
  cases hv : v.mode with
  | ISM | SS | M_W | MM_W =>
    rw [hv] at hp
    cases hp
  | I | IM | IS | II | S | SM =>
    refine .ack ?_ ?_ ?_ (.inl ⟨?_, by simp⟩) <;>
      simp [holding, probeX, replyX, hv, Mode.copy, Ctx.answer]
  | O | OM | OI =>
    refine .give ⟨true, false, v.blk, v.dirty⟩ ?_ rfl ?_ ?_ (.inl ?_) (.inl ⟨?_, rfl⟩) <;>
      simp [holding, probeX, replyX, hv, Mode.copy, Ctx.answer, ResponseMsg.holding]
  | MI =>
    refine .give ⟨true, true, v.blk, v.dirty⟩ ?_ rfl ?_ ?_ (.inr ⟨rfl, ?_⟩) (.inl ⟨?_, rfl⟩) <;>
      simp [holding, probeX, replyX, hv, Mode.copy, Ctx.answer, ResponseMsg.holding]
  | M | MM =>
    refine .give ⟨true, true, v.blk, v.dirty⟩ ?_ rfl ?_ ?_ (.inl ?_) (.inr ⟨?_, rfl⟩) <;>
      simp [holding, probeX, replyX, hv, Mode.copy, Ctx.answer, ResponseMsg.holding]

theorem View.outcome_probeS (mig : Bool) (hp : v.mode.probed) :
    Outcome false v (v.probeS mig) (v.replyS env m mig) := by
  cases hv : v.mode with
  | ISM | SS | M_W | MM_W =>
    rw [hv] at hp
    cases hp
  | I | IM | IS | II =>
    refine .ack ?_ ?_ ?_ (.inl ⟨?_, ?_⟩) <;>
      simp [holding, probeS, share, replyS, hv, Mode.copy, Ctx.answer]
  | S | SM =>
    refine .ack ?_ ?_ ?_ (.inr ⟨?_, rfl, ?_⟩) <;>
      simp [holding, probeS, share, replyS, hv, Mode.copy, Ctx.answer]
  | O | OM | OI =>
    refine .share rfl ⟨true, false, v.blk, v.dirty⟩ ?_ rfl ?_ ?_ ?_ ?_ <;>
      simp [holding, probeS, share, replyS, hv, Mode.copy, Ctx.answer]
  | M | MI =>
    refine .share rfl ⟨true, true, v.blk, v.dirty⟩ ?_ rfl ?_ ?_ ?_ ?_ <;>
      simp [holding, probeS, share, replyS, hv, Mode.copy, Ctx.answer]
  | MM =>
    cases mig with
    | true =>
      refine .give ⟨true, true, v.blk, v.dirty⟩ ?_ rfl ?_ ?_ (.inl ?_) (.inr ⟨?_, rfl⟩) <;>
        simp [holding, probeS, replyS, hv, Mode.copy, Ctx.answer, ResponseMsg.holding]
    | false =>
      refine .share rfl ⟨true, true, v.blk, v.dirty⟩ ?_ rfl ?_ ?_ ?_ ?_ <;>
        simp [holding, probeS, share, replyS, hv, Mode.copy, Ctx.answer]

end Views

/-- A forwarded request changes nothing about the role of a cache that the
directory does not serve. -/
theorem Role.Passive.fits {j : ι} {p p' : Party ι L} (hρ : ρ.Passive) (h : ρ.Fits n j p)
    (hidle : Idle n j p.view p.request p.grant → Idle n j p'.view p'.request p'.grant)
    (hstarts : p.view.mode = .IS → p'.view = p.view) (htrigger : p'.trigger = p.trigger)
    (hresponses : p'.responses = p.responses) (hrequest : p'.request = p.request)
    (hgrant : p'.grant = p.grant) : ρ.Fits n j p' := by
  rcases hρ with rfl | rfl
  · exact ⟨⟨htrigger.trans h.1.trigger, hresponses.trans h.1.responses⟩, hidle h.2⟩
  · obtain ⟨hrests, hreq, hg, hs⟩ := h
    have hmode := hs.mode
    rw [if_neg (by simp)] at hmode
    refine ⟨⟨htrigger.trans hrests.trigger, hresponses.trans hrests.responses⟩,
      hrequest.trans hreq, hgrant.trans hg, ?_⟩
    rw [hstarts hmode]
    exact hs

/-- A cache that the directory does not serve answers a forwarded request. -/
theorem Role.Passive.probed {j : ι} (hρ : ρ.Passive)
    (h : ρ.Fits n j p) : p.view.mode.probed := by
  rcases hρ with rfl | rfl
  · exact h.2.probed
  · have hmode := h.2.2.2.mode
    rw [if_neg (by simp)] at hmode
    rw [hmode]
    rfl

/-- What a forwarded request does. -/
theorem react_probe {j : ι} {x : Bool} {m : RequestMsg ι} {env : Env ι} {v' : View ι L}
    {sent : List (Send ι L)} (hρ : ρ.Passive) (h : ρ.Fits n j p) (hj : env.machineID = j)
    (hx : m.type = getType x) (hr : Reacts env p.view (.forward m) v' sent) :
    ∃ r, sent = [.response m.requestor r] ∧ r.Answers j m ∧ Outcome x p.view v' r ∧
      ∀ o, ρ.Fits n j { p with view := v', probe := none, answer := o } := by
  have hprobed := hρ.probed h
  cases hr with
  | probeX ht =>
    have hxt : x := by
      cases x
      · rw [ht] at hx
        cases hx
      · rfl
    subst hxt
    refine ⟨_, rfl, ?_, ?_, fun o => hρ.fits h Idle.probeX ?_ rfl rfl rfl rfl⟩
    · cases hv : p.view.mode <;> rw [View.replyX, hv] <;> exact ⟨congrArg _ hj, rfl, rfl, rfl⟩
    · exact View.outcome_probeX env m hprobed
    · intro hv
      show p.view.probeX = p.view
      rw [View.probeX, hv]
  | probeS mig ht =>
    have hxf : x = false := by
      cases x
      · rfl
      · rw [ht] at hx
        cases hx
    subst hxf
    refine ⟨_, rfl, ?_, ?_, fun o => hρ.fits h (Idle.probeS · mig) ?_ rfl rfl rfl rfl⟩
    · cases hv : p.view.mode <;> rw [View.replyS, hv] <;> exact ⟨congrArg _ hj, rfl, rfl, rfl⟩
    · exact View.outcome_probeS env m mig hprobed
    · intro hv
      show p.view.probeS mig = p.view
      rw [View.probeS, if_neg (by simp [hv]), View.share, hv]
  | merged ht | wbAck ht | wbNack ht =>
    rw [ht] at hx
    cases x <;> cases hx

/-! ## Requests of another cache -/

section Serve

variable [DecidableEq ι] {P : Params} {g g' : Ghost ι L} {a : ι → Party ι L} {s : Sys ι L}
  {i k : ι} {now : ℕ} {x : Bool} {τ φ : ℕ} {r : ResponseMsg ι L}

/-- A party that has answered a forwarded request. -/
def Party.answered (p : Party ι L) (v : View ι L) : Party ι L :=
  { p with view := v, probe := none }

/-- A response is on its way to a party. -/
def Party.push (p : Party ι L) (r : ResponseMsg ι L) : Party ι L :=
  { p with responses := r ::ₘ p.responses }

/-- The parties after an answer to another cache. -/
theorem after_answer (hne : i ≠ k) (p : Party ι L) (r : ResponseMsg ι L) (j : ι) :
    after a i p [.response (.cache k) r] j =
      if j = i then p else if j = k then (a k).push r else a j := by
  rw [after, List.foldl_cons, List.foldl_nil]
  by_cases hi : j = i
  · subst hi
    rw [if_pos rfl, if_pos rfl, Party.take, if_neg hne]
  · rw [if_neg hi, if_neg hi, Party.take]
    by_cases hk : j = k
    · subst hk
      rfl
    · rw [if_neg hk, if_neg hk]

/-- The copies of a party that the directory does not serve. -/
theorem PartyOK.holdings_passive (h : PartyOK n g mem i (a i))
    (hpassive : (g.role i).Passive) (hunblock : (a i).unblock = none) :
    (a i).responses = 0 ∧ ∀ x, (a i).holdings x = bag (a i).view.holding := by
  have hresp : (a i).responses = 0 := by
    have hr := h.role
    rcases hpassive with hp | hp <;> rw [hp] at hr <;> exact hr.1.responses
  refine ⟨hresp, fun x => ?_⟩
  simp [Party.holdings, hresp, hunblock]

/-- The owner is the cache with an owned copy. -/
theorem Held.own_iff {own : Option ι} {excl : Bool} {cur : DataBlock L}
    {o : Option (Holding L)} (h : Held own excl cur mem i (bag o)) :
    own = some i ↔ ∃ c, o = some c ∧ c.owned := by
  constructor
  · intro ho
    obtain ⟨c, hc, howned⟩ := h.exists_owned ho
    exact ⟨c, mem_bag.1 hc, howned⟩
  · rintro ⟨c, rfl, howned⟩
    exact h.own_eq (Multiset.mem_singleton_self c) howned

/-- A cache with an owned copy is the owner, and no other cache is. -/
theorem Held.owns {own : Option ι} {excl : Bool} {cur : DataBlock L} {o : Option (Holding L)}
    {c : Holding L} (h : Held own excl cur mem i (bag o)) (hc : o = some c) (howned : c.owned) :
    own = some i ∧ Held own excl cur mem i {c} ∧ ∀ {j}, j ≠ i → own ≠ some j := by
  have ho : own = some i := h.own_iff.2 ⟨c, hc, howned⟩
  refine ⟨ho, by rwa [hc] at h, fun hj => ?_⟩
  rw [ho]
  exact fun heq => hj (Option.some.inj heq).symm

/-- The owner shares its copy. -/
theorem Held.share {own : Option ι} {excl : Bool} {cur : DataBlock L}
    {c : Holding L} (h : Held own excl cur mem i {c}) (ho : c.owned) :
    Held own false cur mem i {{ c with excl := false }} := by
  have hc := Multiset.mem_singleton_self c
  rw [h.own_eq hc ho]
  exact .singleton (h.blk c hc) ho (fun he => nomatch he) (h.clean c hc ho)

omit [DecidableEq ι] in
/-- A response without data does not change where the data is from. -/
theorem Party.FromOwner.push {o : ι} (h : p.FromOwner x o)
    (hr : x = false → r.type = .DATA ∨ r.type = .DATA_SHARED → r.sender = .cache o) :
    (p.push r).FromOwner x o := by
  refine ⟨h.1, fun m hm hx ht => ?_⟩
  rcases Multiset.mem_cons.1 hm with rfl | hm
  · exact hr hx ht
  · exact h.2 m hm hx ht

omit [DecidableEq ι] in
/-- A party without a copy has no data from an owner. -/
theorem Party.FromOwner.of_zero {o : ι} (h : p.holdings false = 0) :
    p.FromOwner false o := by
  have hnone (c : Holding L) (hc : c ∈ p.holdings false) : False := by
    rw [h] at hc
    exact Multiset.notMem_zero c hc
  refine ⟨fun hs => ?_, fun m hm _ ht => ?_⟩
  · exact (hnone ⟨false, false, p.view.blk, p.view.dirty⟩
      (Party.mem_holdings_view (by rw [View.holding, hs]; rfl))).elim
  · refine (hnone ⟨false, false, m.dataBlk, m.dirty⟩ (Party.mem_holdings_response hm ?_)).elim
    rw [ResponseMsg.holding]
    rcases ht with ht | ht <;> rw [ht]

/-- A cache that the directory does not serve stays in order when it has answered. -/
theorem PartyOK.of_answered {v : View ι L} {mem' : Prop} (h : PartyOK n g mem i (a i))
    (hpassive : (g.role i).Passive) (hunblock : (a i).unblock = none)
    (hrole : g'.role i = g.role i) (hfits : (g.role i).Fits n i ((a i).answered v))
    (hheld : Held g'.own g'.excl g'.cur mem' i (bag v.holding))
    (hclear : g'.txn.clears i = true → v.holding = none) (hseen : ∀ b, g'.txn ≠ .dmaRead b) :
    PartyOK n g' mem' i ((a i).answered v) := by
  have hresp := (h.holdings_passive hpassive hunblock).1
  have hH : ((a i).answered v).holdings false = bag v.holding := by
    simp [Party.holdings, Party.answered, hresp, hunblock]
  refine .of_rest ?_ ?_ ?_ (fun m hm => by cases hm) ?_ fun b hb => absurd hb (hseen b)
  · intro x τ φ due owed hρ
    rw [hrole] at hρ
    rcases hpassive with hp | hp <;> rw [hp] at hρ <;> cases hρ
  · rw [hrole]
    exact hfits
  · rw [hH]
    exact hheld
  · intro hc _
    rw [hH, hclear hc]
    rfl

/-- A response is sent to a cache that waits for it. -/
theorem PartyOK.supply (due' owed' : ℕ) {due owed : ℕ} {mem' : Prop} (h : PartyOK n g mem k p)
    (hA : Active x τ φ due owed p) (hr : r.Fits x τ φ)
    (hdue : (due : ℤ) = due' + r.acks) (howed : owed = owed' + r.isData.toNat)
    (hle : owed' ≤ due') (hrole : g'.role k = .active x τ φ due' owed')
    (hheld : Held g'.own g'.excl g'.cur mem' k (bag (r.holding x) + p.holdings x))
    (hcalm : g'.excl = true → g.excl = true ∧ r.type ≠ .ACK_SHARED)
    (hsource : ∀ o, g'.own = some o → (p.push r).FromOwner x o)
    (hclears : g'.txn.clears k = false) (hseen : ∀ b, g'.txn ≠ .dmaRead b) :
    PartyOK n g' mem' k (p.push r) := by
  refine ⟨?_, ?_, fun he => ?_, ?_, fun m hm => ?_, ?_, fun b hb => absurd hb (hseen b)⟩
  · rw [hrole]
    exact hA.push due' owed' hr hdue howed hle
  · rw [hrole]
    show Held _ _ _ _ _ ((p.push r).holdings x)
    rw [Party.push, Party.holdings_push]
    exact hheld
  · obtain ⟨he', hne⟩ := hcalm he
    obtain ⟨hsharers, hresp⟩ := h.calm he'
    refine ⟨hsharers, fun m hm => ?_⟩
    rcases Multiset.mem_cons.1 hm with rfl | hm
    · exact hne
    · exact hresp m hm
  · rw [hrole]
    exact hsource
  · have hnone := hA.probe
    rw [show p.probe = some m from hm] at hnone
    cases hnone
  · rw [hclears]
    intro hc
    cases hc

/-- A response to other caches is no signal to the directory. -/
theorem after_signal {m : Send ι L} (p : Party ι L)
    (hm : (∃ k, m = .response (.cache k) r) ∨ ∃ J, m = .multicast J r) :
    (fun j => (after a i p [m] j).signal) = update (fun j => (a j).signal) i p.signal := by
  funext j
  have htake (q : Party ι L) : (q.take i j m).signal = q.signal := by
    rcases hm with ⟨k, rfl⟩ | ⟨J, rfl⟩ <;> rw [Party.take] <;> split <;> rfl
  rw [after, List.foldl_cons, List.foldl_nil, htake, update_apply]
  split <;> rfl

/-- An answer does not change what the directory does. -/
theorem DirServe.answered {b : Hub ι L} {J : Finset ι} {d : ℕ} (h : DirServe g b k x J d)
    (hcur : g'.cur = g.cur) (hkeep : g.own ≠ some i → g'.own = g.own ∧ g'.excl = g.excl)
    (hmove : g.own = some i → ∃ o, g'.own = some o) : DirServe g' b k x J d := by
  cases h with
  | owned o hown hd hm =>
    by_cases ho : g.own = some i
    · obtain ⟨o', ho'⟩ := hmove ho
      exact .owned o' ho' hd hm
    · exact .owned o ((hkeep ho).1.trans hown) hd hm
  | clean hx hown hd hm mem =>
    have ho' := (hkeep (by rw [hown]; simp)).1
    exact .clean hx (ho'.trans hown) hd hm (mem.trans hcur.symm)
  | fetch t st hd hst acks silent hown hm mem type =>
    obtain ⟨ho', he'⟩ := hkeep (by rw [hown]; simp)
    rw [← hcur] at hm mem
    refine .fetch t st hd hst acks silent (ho'.trans hown) hm mem ?_
    rw [he']
    exact type

variable [Fintype ι]

/-- A cache that a request is forwarded to is not the one that is served. -/
theorem Inv.serve_passive (h : Inv g a s) (htxn : g.txn = .serve k x τ φ)
    (hp : (a i).probe ≠ none) :
    i ≠ k ∧ (g.role i).Passive ∧ (a i).unblock = none := by
  have hdir := h.dir
  unfold Global at hdir
  rw [htxn] at hdir
  obtain ⟨hq, -, J, d, -, -, hroles⟩ := hdir
  have hne : i ≠ k := by
    rintro rfl
    have hA := (h.party i).role
    rw [hroles i, if_pos rfl] at hA
    exact hp hA.probe
  refine ⟨hne, ?_, (hq i).2.1⟩
  rw [hroles i, if_neg hne]
  split
  · exact .inr rfl
  · exact .inl rfl

/-- One answer less is due, and two less when the owner has answered. -/
theorem answered_counts {σ σ' : ι → Signal ι L} {own own' : Option ι}
    (hi : (σ i).probed) (hi' : (σ' i).probed = false) (hne : ∀ j, j ≠ i → σ' j = σ j)
    (hkeep : own ≠ some i → own' = own)
    (hmove : own = some i → ∃ o, own' = some o ∧ (σ' o).probed = false) :
    tally Signal.probed σ = tally Signal.probed σ' + 1 ∧
      ownerDue own σ = ownerDue own' σ' + if own = some i then 1 else 0 := by
  constructor
  · have hstep := tally_of_ne (f := Signal.probed) (i := i) (t := σ) (u := σ')
      (fun j hj => by rw [hne j hj])
    rw [hi', hi] at hstep
    exact hstep.symm
  · by_cases ho : own = some i
    · obtain ⟨o, ho', hnone⟩ := hmove ho
      rw [ho, ho', if_pos rfl]
      show (σ i).probed.toNat = (σ' o).probed.toNat + 1
      rw [hi, hnone]
      rfl
    · rw [if_neg ho, hkeep ho]
      cases hown : own with
      | none => rfl
      | some o =>
        have hoi : o ≠ i := fun heq => ho (by rw [hown, heq])
        exact congrArg (fun ρ => Bool.toNat (Signal.probed ρ)) (hne o hoi).symm

/-- A cache answers the request of `k`. -/
theorem serve_answer (own : Option ι) (excl : Bool) {v : View ι L}
    {node : ι → Node ι L} {e : ℕ × Act ι L} (h : Inv g a s)
    (htxn : g.txn = .serve k x τ φ) (hprobe : (a i).probe ≠ none)
    (hs : step P s e = .ok (s.moved node [.response (.cache k) r]))
    (hof : ∀ j, (after a i ((a i).answered v) [.response (.cache k) r] j).Of j (node j))
    (hfits : (g.role i).Fits (Fintype.card ι) i ((a i).answered v))
    (hr : r.Fits x τ φ) (hacks : r.acks = if g.own = some i then 2 else 1)
    (hdata : r.isData = decide (g.own = some i))
    (hkeep : g.own ≠ some i → own = g.own ∧ excl = g.excl)
    (hmove : g.own = some i → own = some i ∨ own = some k)
    (hheld : Held own excl g.cur (s.memory = g.cur) i (bag v.holding))
    (hclear : x = true → v.holding = none)
    (hheldk : Held own excl g.cur (s.memory = g.cur) k (bag (r.holding x) + (a k).holdings x))
    (hcalm : excl = true → g.excl = true ∧ r.type ≠ .ACK_SHARED)
    (hsource : ∀ o, own = some o → ((a k).push r).FromOwner x o)
    (hothers : ∀ j, j ≠ i → j ≠ k → ∀ H, Held g.own g.excl g.cur (s.memory = g.cur) j H →
      Held own excl g.cur (s.memory = g.cur) j H) : StepOK P g s e := by
  obtain ⟨hne, hpassive, hunblock⟩ := h.serve_passive htxn hprobe
  have hdir := h.dir
  unfold Global at hdir
  rw [htxn] at hdir
  obtain ⟨hq, htrigger, J, d, hd, hkJ, hroles⟩ := hdir
  have hk := hroles k
  rw [if_pos rfl] at hk
  have hpartyk := h.party k
  have hA := hpartyk.role
  rw [hk] at hA
  obtain ⟨σ, hσ⟩ : ∃ σ : ι → Signal ι L, σ = fun j => (a j).signal := ⟨_, rfl⟩
  rw [← hσ] at hq hroles hk hA
  have hprobed : (σ i).probed = true := by
    rw [hσ]
    exact Option.isSome_iff_ne_none.2 hprobe
  obtain ⟨σ', hσ', hσi, hσne⟩ : ∃ σ', σ' = update σ i ((a i).answered v).signal ∧
      σ' i = ((a i).answered v).signal ∧ ∀ j, j ≠ i → σ' j = σ j :=
    ⟨_, rfl, update_self .., fun j hj => update_of_ne hj ..⟩
  have hnone : (σ' i).probed = false := by
    rw [hσi]
    rfl
  have hmove' (ho : g.own = some i) : ∃ o, own = some o ∧ (σ' o).probed = false := by
    rcases hmove ho with ho' | ho'
    · exact ⟨i, ho', hnone⟩
    · refine ⟨k, ho', Signal.probed_eq_false.2 ?_⟩
      rw [hσne k hne.symm, hσ]
      exact hA.probe
  obtain ⟨htally, howner⟩ :=
    answered_counts hprobed hnone hσne (fun ho => (hkeep ho).1) hmove'
  obtain ⟨g', htxn', hrolek, hrole, hown', hexcl', hcur', hw'⟩ : ∃ g' : Ghost ι L,
      g'.txn = .serve k x τ φ ∧
      g'.role k = .active x τ φ (tally Signal.probed σ' + ownerDue own σ' + d)
        (ownerDue own σ' + d) ∧
      (∀ j, j ≠ k → g'.role j = g.role j) ∧ g'.own = own ∧ g'.excl = excl ∧
      g'.cur = g.cur ∧ g'.dmaWritten = g.dmaWritten :=
    ⟨⟨.serve k x τ φ, update g.role k _, own, excl, g.cur, g.dmaWritten⟩, rfl,
      update_self .., fun j hj => update_of_ne hj .., rfl, rfl, rfl, rfl⟩
  refine ⟨g', _, _, hs, ⟨hof, ?_, ?_, ?_⟩, ⟨_, rfl, .inl (.inl ⟨rfl, hcur'⟩)⟩, ?_⟩
  · intro j
    rw [after_answer hne]
    by_cases hji : j = i
    · -- the cache that answers
      subst hji
      rw [if_pos rfl]
      refine (h.party j).of_answered hpassive hunblock (hrole j hne) hfits ?_ ?_ ?_
      · rw [hown', hexcl', hcur']
        exact hheld
      · intro hc
        rw [htxn'] at hc
        refine hclear ?_
        cases x
        · cases hc
        · rfl
      · rw [htxn']
        exact fun b hb => by cases hb
    · rw [if_neg hji]
      by_cases hjk : j = k
      · -- the cache that is answered
        subst hjk
        rw [if_pos rfl]
        refine hpartyk.supply _ _ hA hr ?_ ?_ ?_ hrolek ?_ ?_ ?_ ?_ ?_
        · rw [htally, howner, hacks]
          split <;> push_cast <;> omega
        · rw [howner, hdata]
          by_cases ho : g.own = some i
          · simp [ho]
            omega
          · simp [ho]
        · omega
        · rw [hown', hexcl', hcur']
          exact hheldk
        · rw [hexcl']
          exact hcalm
        · rw [hown']
          exact hsource
        · rw [htxn']
          cases x <;> simp [Txn.clears]
        · rw [htxn']
          exact fun b hb => by cases hb
      · rw [if_neg hjk]
        have hp : (g.role j).Passive := by
          rw [hroles j, if_neg hjk]
          split
          · exact .inr rfl
          · exact .inl rfl
        refine (h.party j).passive hp (hrole j hjk) ?_ (.inr ?_) ?_ ?_
        · rw [hown', hexcl', hcur']
          exact hothers j hji hjk _
        · rw [htxn, htxn']
        · rw [htxn, htxn']
          exact id
        · intro b hb
          rw [htxn'] at hb
          cases hb
  · rw [after_signal _ (.inl ⟨k, rfl⟩), ← hσ, ← hσ']
    unfold Global
    rw [htxn', hown']
    refine ⟨?_, htrigger, J, d, ?_, hkJ, ?_⟩
    · intro j
      by_cases hji : j = i
      · subst hji
        have hqj := hq j
        rw [hσ] at hqj
        rw [hσi]
        exact hqj
      · rw [hσne j hji]
        exact hq j
    · refine hd.answered (i := i) hcur' (fun ho => ?_) fun ho => ?_
      · rw [hown', hexcl']
        exact hkeep ho
      · rw [hown']
        exact (hmove' ho).imp fun _ => And.left
    · intro j
      by_cases hjk : j = k
      · subst hjk
        rw [if_pos rfl, hrolek]
      · rw [hrole j hjk, hroles j, if_neg hjk, if_neg hjk]
  · rw [hw']
    exact h.writes
  · exact hw'

variable (now) in
/-- A cache that the directory does not serve takes a forwarded request. -/
theorem Inv.deliver_probe {m : RequestMsg ι} (h : Inv g a s) (hn : 1 < Fintype.card ι)
    (hpassive : (g.role i).Passive) (hunblock : (a i).unblock = none)
    (hp : (a i).probe = some m) (hm : (s.node i).holds (.forward m)) (hmt : m.type = getType x)
    (hdirected : m.directedProbe = false) (hreq : m.requestor ≠ .cache i) :
    StepOK P g s (now, .deliver i (.forward m)) ∨ ∃ v r, r.Answers i m ∧
      Outcome x (a i).view v r ∧
      Held g.own g.excl g.cur (s.memory = g.cur) i (bag (a i).view.holding) ∧
      (∀ o, (g.role i).Fits (Fintype.card ι) i { (a i).answered v with answer := o }) ∧
      (((a i).answered v).Rooms i [.response m.requestor r] → ∃ node,
        step P s (now, .deliver i (.forward m)) = .ok (s.moved node [.response m.requestor r]) ∧
        ∀ j, (after a i ((a i).answered v) [.response m.requestor r] j).Of j (node j)) := by
  have hparty := h.party i
  have hexpects : (a i).view.ExpectsForward (P.env now i) m := by
    have hprobed := hpassive.probed hparty.role
    rw [View.ExpectsForward, hmt]
    cases x
    · exact ⟨hprobed, hdirected, hreq⟩
    · exact ⟨hprobed, hdirected, hreq⟩
  rcases deliver_spec (P := P) now h.of hn hm hexpects with
    hs | ⟨v', sent, hr, -, hspec⟩
  · exact .inl (.refl h hs)
  obtain ⟨r, rfl, hans, hout, hfits⟩ := react_probe hpassive hparty.role rfl hmt hr
  have hdrop : { (a i).drop (.forward m) with view := v' } = (a i).answered v' := by
    rw [Party.drop, if_pos hp]
    rfl
  rw [hdrop] at hspec
  have hheld := hparty.held
  rw [(hparty.holdings_passive hpassive hunblock).2] at hheld
  exact .inr ⟨v', r, hans, hout, hheld, hfits, hspec⟩

theorem step_probe_serve (h : Inv g a s) (hn : 1 < Fintype.card ι) (htxn : g.txn = .serve k x τ φ)
    {m : RequestMsg ι} (hp : (a i).probe = some m) (hm : (s.node i).holds (.forward m)) :
    StepOK P g s (now, .deliver i (.forward m)) := by
  have hprobe : (a i).probe ≠ none := by
    rw [hp]
    exact Option.some_ne_none m
  obtain ⟨hne, hpassive, hunblock⟩ := h.serve_passive htxn hprobe
  have hmsg := (h.party i).probe m hp
  rw [htxn] at hmsg
  obtain ⟨hmt, hreq, hsilent, hdirected, hτ, hφ⟩ : m.type = getType x ∧
      m.requestor = .cache k ∧ m.silentAcks = 0 ∧ m.directedProbe = false ∧
      m.initialRequestTime = τ ∧ m.forwardRequestTime = φ := by
    rw [← Option.some.inj hmsg]
    exact ⟨rfl, rfl, rfl, rfl, rfl, rfl⟩
  have hcache : m.requestor ≠ .cache i := by
    rw [hreq]
    exact fun heq => hne (MachineID.cache.inj heq).symm
  rcases h.deliver_probe (P := P) now hn hpassive hunblock hp hm hmt hdirected hcache with
    hok | ⟨v', r, hans, hout, hheld, hfits, hspec⟩
  · exact hok
  rw [hreq] at hspec
  obtain ⟨node, hs, hof⟩ := hspec ⟨trivial, trivial⟩
  have hfits : (g.role i).Fits (Fintype.card ι) i ((a i).answered v') := hfits (a i).answer
  have hrfits (hacks : 0 < r.acks) (ht : r.type = .ACK ∨ r.type = .DATA ∨
      r.type = .DATA_EXCLUSIVE ∨ x = false ∧ (r.type = .ACK_SHARED ∨ r.type = .DATA_SHARED)) :
      r.Fits x τ φ := by
    refine ⟨ht, hacks, hans.silent.trans hsilent, .inr (hans.initial.trans hτ),
      .inr (hans.forward.trans hφ), ?_⟩
    rw [hans.sender]
    trivial
  have hpartyk := h.party k
  obtain ⟨due, owed, hrolek⟩ : ∃ due owed, g.role k = .active x τ φ due owed := by
    have hdir := h.dir
    unfold Global at hdir
    rw [htxn] at hdir
    obtain ⟨-, -, J, d, -, -, hroles⟩ := hdir
    exact ⟨_, _, by rw [hroles k, if_pos rfl]⟩
  have hheldk := hpartyk.held
  have hsourcek := hpartyk.source
  have hA := hpartyk.role
  rw [hrolek] at hheldk hsourcek hA
  cases hout with
  | ack hold howned hacks htype =>
    have ho : g.own ≠ some i := by
      intro ho
      obtain ⟨c, hc, hco⟩ := hheld.own_iff.1 ho
      rw [howned c hc] at hco
      cases hco
    have hholding : r.holding x = none := by
      rw [ResponseMsg.holding]
      rcases htype with ⟨ht, -⟩ | ⟨ht, -⟩ <;> rw [ht]
    refine serve_answer g.own g.excl h htxn hprobe hs hof hfits
      (hrfits ?_ ?_) ?_ ?_ (fun _ => ⟨rfl, rfl⟩) (fun h => absurd h ho) ?_ ?_ ?_ ?_ ?_ ?_
    · rw [hacks]
      exact Int.one_pos
    · exact htype.imp And.left fun ht => .inr (.inr ⟨ht.2.1, .inl ht.1⟩)
    · rw [hacks, if_neg ho]
    · rw [decide_eq_false ho, ResponseMsg.isData]
      rcases htype with ⟨ht, -⟩ | ⟨ht, -⟩ <;> rw [ht] <;> rfl
    · rw [hold]
      cases x
      · exact hheld
      · exact .zero ho
    · rintro rfl
      exact hold
    · rw [hholding, bag_none, zero_add]
      exact hheldk
    · refine fun he => ⟨he, fun ht => ?_⟩
      rcases htype with ⟨ht', -⟩ | ⟨-, -, hne⟩
      · rw [ht] at ht'
        cases ht'
      · obtain ⟨c, hc⟩ := Option.ne_none_iff_exists'.1 hne
        have hco := hheld.alone he c (mem_bag.2 hc)
        rw [howned c hc] at hco
        cases hco
    · refine fun o ho => (hsourcek o ho).push fun _ ht => ?_
      rcases htype with ⟨ht', -⟩ | ⟨ht', -⟩ <;> rw [ht'] at ht <;>
        rcases ht with ht | ht <;> cases ht
    · exact fun j _ _ H => id
  | give c hc howned hold hacks hmsg htype =>
    obtain ⟨ho, hheld, hik⟩ := hheld.owns hc howned
    have hmem := Multiset.mem_singleton_self c
    refine serve_answer (some k) g.excl h htxn hprobe hs hof hfits
      (hrfits ?_ ?_) ?_ ?_ (fun h => absurd ho h) (fun _ => .inr rfl) ?_ (fun _ => hold) ?_ ?_ ?_ ?_
    · rw [hacks]
      decide
    · exact htype.elim (fun ht => .inr (.inl ht.1)) fun ht => .inr (.inr (.inl ht.1))
    · rw [hacks, if_pos ho]
    · rw [decide_eq_true ho, ResponseMsg.isData]
      rcases htype with ⟨ht, -⟩ | ⟨ht, -⟩ <;> rw [ht] <;> rfl
    · rw [hold]
      exact .zero fun heq => hne (Option.some.inj heq).symm
    · rcases hmsg with hmsg | ⟨-, hmsg⟩
      · rw [hmsg]
        exact hheldk.cons_owned (hik hne.symm) (hheld.blk c hmem) howned (hheld.excl c hmem)
          (hheld.clean c hmem howned)
      · rw [hmsg]
        exact hheldk.cons_owned (hik hne.symm) (hheld.blk c hmem) howned (fun he => by cases he)
          (hheld.clean c hmem howned)
    · refine fun he => ⟨he, fun ht => ?_⟩
      rcases htype with ⟨ht', -⟩ | ⟨ht', -⟩ <;> rw [ht] at ht' <;> cases ht'
    · intro o heq
      cases heq
      cases x with
      | true =>
        refine ⟨fun hs => ?_, fun m _ hx => by cases hx⟩
        have hmode := hA.mode
        rw [show (a k).view.mode = .SS from hs] at hmode
        cases hmode
      | false =>
        -- the copy was exclusive, so the requestor has nothing
        rcases htype with ⟨-, hx⟩ | ⟨ht, hce⟩
        · cases hx
        · refine (Party.FromOwner.of_zero ?_).push fun _ ht' => ?_
          · exact hheldk.eq_zero (hheld.excl c hmem hce) (hik hne.symm)
          · rw [ht] at ht'
            rcases ht' with ht' | ht' <;> cases ht'
    · intro j hji hjk H hH
      refine hH.of_own ⟨fun heq => ?_, fun heq => absurd heq (hik hji)⟩
      exact absurd (Option.some.inj heq).symm hjk
  | share hx c hc howned hold hacks hblk htype =>
    subst hx
    obtain ⟨ho, hheld, hik⟩ := hheld.owns hc howned
    have hmem := Multiset.mem_singleton_self c
    have hholding : r.holding false = some ⟨false, false, r.dataBlk, r.dirty⟩ := by
      rw [ResponseMsg.holding, htype]
    refine serve_answer g.own false h htxn hprobe hs hof hfits
      (hrfits ?_ ?_) ?_ ?_ (fun h => absurd ho h) (fun _ => .inl ho) ?_ (fun hx => by cases hx)
      ?_ (fun he => by cases he) ?_ ?_
    · rw [hacks]
      decide
    · exact .inr (.inr (.inr ⟨rfl, .inr htype⟩))
    · rw [hacks, if_pos ho]
    · rw [decide_eq_true ho, ResponseMsg.isData, htype]
      rfl
    · rw [hold]
      exact hheld.share howned
    · rw [hholding]
      exact (hheldk.of_shared (hik hne.symm)).cons_shared (hblk.trans (hheld.blk c hmem)) rfl rfl
    · refine fun o heq => (hsourcek o heq).push fun _ _ => ?_
      rw [ho] at heq
      cases heq
      exact hans.sender
    · exact fun j hji _ H hH => hH.of_shared (hik hji)

end Serve

end Gem5Gpu.VIHammer
