import Gem5Gpu.VIHammer.Invariant

/-!
# Responses and completion

What a party does with a response to its request and with its completion trigger,
as far as it concerns the party alone.  `expects_response` and `expects_trigger`
say that there is a transition, and `react_response` and `react_trigger` that the
party stays in order.
-/

namespace Gem5Gpu.VIHammer

open Lib Directory

variable {ι : Type} [DecidableEq ι] {L : ℕ}

/-- The loads and stores of a transition: none, or one that acts on the current
block.  Only an exclusive owner stores. -/
def Performs (g g' : Ghost ι L) (l : List (Callback ι L)) : Prop :=
  l = [] ∧ g'.cur = g.cur ∨
  ∃ cb, l = [cb] ∧ cb.Returns g.cur ∧ g'.cur = cb.apply g.cur ∧
    (cb = .load cb.cache g.cur ∨ g'.excl = true ∧ g'.own = some cb.cache)

section Completion

variable (i : ι) (v : View ι L)

omit [DecidableEq ι] in
theorem View.completion_eq : v.completion = (v.trigger.map Send.trigger).toList := by
  simp only [completion, trigger]
  split <;> rfl

theorem take_completion {p : Party ι L} (hp : p.trigger = none) :
    v.completion.foldl (Party.take i i) p = { p with trigger := v.trigger } := by
  obtain ⟨view, move, request, grant, probe, trigger, responses, unblock, answer⟩ := p
  subst hp
  rw [View.completion_eq]
  cases v.trigger with
  | none => rfl
  | some t => simp [Party.take]

/-- The completion trigger and the loads and stores of a transition. -/
theorem take_completion_append {p : Party ι L} (hp : p.trigger = none) (l : List (Callback ι L)) :
    p.Rooms i (v.completion ++ l.map Send.callback) ∧
    (v.completion ++ l.map Send.callback).foldl (Party.take i i) p =
      { p with trigger := v.trigger } ∧
    Sys.callbacks (v.completion ++ l.map Send.callback) = l := by
  have hrooms (p : Party ι L) : p.Rooms i (l.map Send.callback) := by
    induction l with
    | nil => trivial
    | cons cb l ih => exact ⟨trivial, ih⟩
  have htake (p : Party ι L) : (l.map Send.callback).foldl (Party.take i i) p = p := by
    clear hrooms
    induction l with
    | nil => rfl
    | cons cb l ih => exact ih
  have hcbs : Sys.callbacks (l.map (Send.callback (ι := ι))) = l := by
    simp [Sys.callbacks, List.filterMap_map]
  refine ⟨?_, ?_, ?_⟩
  · rw [View.completion_eq]
    cases v.trigger with
    | none => exact hrooms p
    | some t => exact ⟨hp, hrooms _⟩
  · rw [List.foldl_append, take_completion i v hp, htake]
  · rw [View.completion_eq]
    cases v.trigger with
    | none => exact hcbs
    | some t => exact hcbs

end Completion

variable {n : ℕ} {g : Ghost ι L} {mem : Prop} {j : ι} {p : Party ι L} {x : Bool}
  {τ φ due owed : ℕ} {m : ResponseMsg ι L} {env : Env ι} {v' : View ι L}

/-- The view `v'` of a cache that counted the response `m`. -/
structure View.Counts (m : ResponseMsg ι L) (v v' : View ι L) : Prop where
  need : v'.need = v.need - m.acks
  last : v'.lastResponder = m.sender
  initial : v'.initialRequestTime =
    if m.initialRequestTime = 0 then v.initialRequestTime else m.initialRequestTime
  forward : v'.forwardRequestTime =
    if m.forwardRequestTime = 0 then v.forwardRequestTime else m.forwardRequestTime

omit [DecidableEq ι] in
/-- A response is counted. -/
theorem Active.answer (h : Active x τ φ due owed p) (hm : m ∈ p.responses)
    (hcounts : p.view.Counts m v') (hfits : v'.mode.fits x)
    (hgot : v'.mode.got = p.view.mode.got + m.isData.toNat) (hsharers : x → v'.sharers = false)
    {R : Multiset (ResponseMsg ι L)} (hR : p.responses = m ::ₘ R) :
    Active x τ φ due owed { p with view := v', responses := R, trigger := v'.trigger } := by
  have hm' := h.fits m hm
  have hbal := h.need
  have hdata := h.data
  have hneed := hcounts.need
  rw [hR] at hbal hdata
  rw [Multiset.map_cons, Multiset.sum_cons] at hbal
  rw [Multiset.countP_cons] at hdata
  refine ⟨hfits, ?_, ?_, h.owed, ?_, hsharers, .inl ?_, ?_, ?_, rfl, h.request, h.grant,
    h.probe, h.unblock⟩
  · show v'.need = (R.map (·.acks)).sum + due
    omega
  · show v'.mode.got + R.countP (·.isData) + owed = 1
    cases hd : m.isData <;> simp [hd] at hgot hdata <;> omega
  · intro k hk
    exact h.fits k (by rw [hR]; exact Multiset.mem_cons_of_mem hk)
  · show v'.lastResponder.Answers
    rw [hcounts.last]
    exact hm'.sender
  · show v'.initialRequestTime = 0 ∨ v'.initialRequestTime = τ
    rw [hcounts.initial]
    split
    · exact h.initial
    · exact hm'.initial
  · show v'.forwardRequestTime = 0 ∨ v'.forwardRequestTime = φ
    rw [hcounts.forward]
    split
    · exact h.forward
    · exact hm'.forward

namespace PartyOK

/-- A party that is not active is calm and has no data from the owner. -/
theorem of_rest {p' : Party ι L} (hrole : ∀ x τ φ due owed, g.role j ≠ .active x τ φ due owed)
    (hfits : (g.role j).Fits n j p') (held : Held g.own g.excl g.cur mem j (p'.holdings false))
    (hprobe : ∀ m, p'.probe = some m → g.txn.probe = some m)
    (hcleared : g.txn.clears j → p'.probe = none → p'.holdings false = 0)
    (hseen : ∀ b, g.txn = .dmaRead b → p'.probe = none → p'.holdings false ≠ 0 →
      b ∨ ∃ m, p'.answer = some m ∧ (m.type = .ACK_SHARED ∨ m.type = .DATA_SHARED)) :
    PartyOK n g mem j p' := by
  have hrest : Rests p' ∧ p'.view.sharers = false ∧ p'.view.mode ≠ .SS := by
    cases hr : g.role j with
    | active x τ φ due owed => exact absurd hr (hrole x τ φ due owed)
    | idle =>
      rw [hr] at hfits
      refine ⟨hfits.1, hfits.2.plain.1, fun hs => ?_⟩
      have hprobed := hfits.2.probed
      rw [hs] at hprobed
      cases hprobed
    | waiting =>
      rw [hr] at hfits
      obtain ⟨hrests, -, -, hs⟩ := hfits
      refine ⟨hrests, hs.plain.1, fun hss => ?_⟩
      have hmode := hs.mode
      rw [hss] at hmode
      simp at hmode
  have hx : (g.role j).x = false := by
    cases hr : g.role j with
    | active x τ φ due owed => exact absurd hr (hrole x τ φ due owed)
    | idle => rfl
    | waiting => rfl
  obtain ⟨hrests, hsharers, hSS⟩ := hrest
  refine ⟨hfits, by rwa [hx], fun _ => ⟨hsharers, ?_⟩, fun k _ => ⟨fun hs => absurd hs hSS, ?_⟩,
    hprobe, by rwa [hx], by rwa [hx]⟩
  · rw [hrests.responses]
    simp
  · rw [hrests.responses]
    simp

end PartyOK

/-! ## Responses -/

/-- What is known of an active party. -/
theorem PartyOK.active (h : PartyOK n g mem j p) (hrole : g.role j = .active x τ φ due owed) :
    Active x τ φ due owed p ∧ Held g.own g.excl g.cur mem j (p.holdings x) := by
  have hA := h.role
  have hheld := h.held
  rw [hrole] at hA hheld
  exact ⟨hA, hheld⟩

/-- A party that expects a response has a transition for it. -/
theorem expects_response (h : PartyOK n g mem j p)
    (hrole : g.role j = .active x τ φ due owed) (hm : m ∈ p.responses) :
    p.view.ExpectsResponse m := by
  obtain ⟨hA, hheld⟩ := h.active hrole
  have hfits := hA.fits m hm
  refine ⟨Mode.getting_of_fits hA.mode, hfits.acks.le, hfits.silent, ⟨?_, ?_⟩, ?_⟩
  · have h1 := hA.initial
    have h2 := hfits.initial
    omega
  · have h1 := hA.forward
    have h2 := hfits.forward
    omega
  -- a party with the block gets no data, and an exclusive block has no sharers
  have hdata (hd : m.isData) : p.view.mode.got = 0 := by
    have hcount : 0 < p.responses.countP (·.isData) :=
      Multiset.countP_pos.2 ⟨m, hm, hd⟩
    have hdata := hA.data
    omega
  rcases hfits.type with ht | ht | ht | ⟨rfl, ht | ht⟩
  · rw [ht]
    trivial
  · rw [ht]
    rcases Mode.of_got_zero hA.mode (hdata (by rw [ResponseMsg.isData, ht]; rfl)) with
      ⟨-, hv⟩ | ⟨-, hv | hv⟩
    · exact .inl hv
    · exact .inr (.inl hv)
    · -- the copy of `SM` and the data are both the current block
      have hcopy : p.view.holding = some ⟨false, false, p.view.blk, p.view.dirty⟩ := by
        rw [View.holding, hv]
        rfl
      have hblk := hheld.blk _ (Party.mem_holdings_view hcopy)
      have hmsg : m.holding x = some ⟨x, false, m.dataBlk, m.dirty⟩ := by
        rw [ResponseMsg.holding, ht]
      exact .inr (.inr ⟨hv, hblk.trans (hheld.blk _ (Party.mem_holdings_response hm hmsg)).symm⟩)
  · rw [ht]
    have hmsg : m.holding x = some ⟨true, true, m.dataBlk, m.dirty⟩ := by
      rw [ResponseMsg.holding, ht]
    have hexcl : g.excl := hheld.excl _ (Party.mem_holdings_response hm hmsg) rfl
    rcases Mode.of_got_zero hA.mode (hdata (by rw [ResponseMsg.isData, ht]; rfl)) with
      ⟨-, hv⟩ | ⟨-, hv | hv⟩
    · exact .inl hv
    · exact .inr hv
    · have hcopy : p.view.holding = some ⟨false, false, p.view.blk, p.view.dirty⟩ := by
        rw [View.holding, hv]
        rfl
      cases hheld.alone hexcl _ (Party.mem_holdings_view hcopy)
  · rw [ht]
    have hnot (hv : p.view.mode = .M_W ∨ p.view.mode = .MM_W) : False := by
      have hcopy : p.view.holding = some ⟨true, true, p.view.blk, p.view.dirty⟩ := by
        rw [View.holding]
        rcases hv with hv | hv <;> rw [hv] <;> rfl
      exact (h.calm (hheld.excl _ (Party.mem_holdings_view hcopy) rfl)).2 m hm ht
    have hmode := hA.mode
    cases hv : p.view.mode <;> rw [hv] at hmode hnot <;> simp_all [Mode.fits]
  · rw [ht]
    rcases Mode.of_got_zero hA.mode (hdata (by rw [ResponseMsg.isData, ht]; rfl)) with
      ⟨-, hv⟩ | ⟨hx, -⟩
    · exact hv
    · cases hx

omit [DecidableEq ι] in
/-- The copies of an active party. -/
theorem Active.holdings (h : Active x τ φ due owed p) :
    p.holdings x = bag p.view.holding + p.responses.filterMap (·.holding x) := by
  simp [Party.holdings, h.unblock]

/-- A response is counted, and its data becomes the copy of the cache. -/
theorem PartyOK.answer (h : PartyOK n g mem j p) (hrole : g.role j = .active x τ φ due owed)
    {R : Multiset (ResponseMsg ι L)} (hR : p.responses = m ::ₘ R)
    (hcounts : p.view.Counts m v') (hfits : v'.mode.fits x)
    (hgot : v'.mode.got = p.view.mode.got + m.isData.toNat)
    (hsharers : x ∨ g.excl → v'.sharers = false) {cur' : DataBlock L} {mem' : Prop}
    (hheld : Held g.own g.excl cur' mem' j (bag v'.holding + R.filterMap (·.holding x)))
    (hzero : p.holdings x = 0 → bag v'.holding + R.filterMap (·.holding x) = 0)
    (hSS : v'.mode = .SS → ∀ k, g.own = some k → v'.curOwner = .cache k) :
    PartyOK n { g with cur := cur' } mem' j
      { p with view := v', responses := R, trigger := v'.trigger } := by
  have hx : (g.role j).x = x := by rw [hrole]; rfl
  obtain ⟨hA, -⟩ := h.active hrole
  have hm : m ∈ p.responses := by
    rw [hR]
    exact Multiset.mem_cons_self m R
  have hA' := hA.answer hm hcounts hfits hgot (fun hx => hsharers (.inl hx)) hR
  refine ⟨?_, ?_, ?_, ?_, ?_, ?_, ?_⟩
  · show (g.role j).Fits n j _
    rw [hrole]
    exact hA'
  · show Held _ _ _ _ _ (Party.holdings (g.role j).x _)
    rw [hx, hA'.holdings]
    exact hheld
  · intro he
    refine ⟨hsharers (.inr he), fun k hk => (h.calm he).2 k ?_⟩
    rw [hR]
    exact Multiset.mem_cons_of_mem hk
  · intro k hk
    refine ⟨fun hmd => hSS hmd k hk, fun r hr => (h.source k hk).2 r ?_⟩
    rw [hR]
    exact Multiset.mem_cons_of_mem hr
  · exact h.probe
  · intro hc _
    have hold := h.cleared hc hA.probe
    show Party.holdings (g.role j).x _ = 0
    rw [hx] at hold ⊢
    rw [hA'.holdings]
    exact hzero hold
  · intro b hb _ hne
    refine h.seen b hb hA.probe fun hold => hne ?_
    show Party.holdings (g.role j).x _ = 0
    rw [hx] at hold ⊢
    rw [hA'.holdings]
    exact hzero hold

/-- What a party does with a response: nothing but the view changes, and a store is
performed by the exclusive owner alone. -/
def Settles (n : ℕ) (g : Ghost ι L) (mem : Prop) (j : ι) (p' : Party ι L)
    (l : List (Callback ι L)) : Prop :=
  (∃ cur', Performs g { g with cur := cur' } l ∧ (cur' = g.cur ∧ PartyOK n g mem j p' ∨
      g.own = some j ∧ g.excl = true ∧ ∀ mem', PartyOK n { g with cur := cur' } mem' j p'))

/-- A party that is `q` after a transition takes what it sends itself, and settles. -/
def Reacted (n : ℕ) (g : Ghost ι L) (mem : Prop) (j : ι) (p q : Party ι L)
    (sent : List (Send ι L)) : Prop :=
  ∃ p', q.Rooms j sent ∧ sent.foldl (Party.take j j) q = p' ∧ p'.signal = p.signal ∧
    Settles n g mem j p' (Sys.callbacks sent)

/-- The trigger that completes the counted responses goes to the party itself. -/
theorem Reacted.finish {R : Multiset (ResponseMsg ι L)} {sent : List (Send ι L)}
    (hnone : p.trigger = none) (v : View ι L) (l : List (Callback ι L)) (hneed : v.need = v'.need)
    (hsh : v.sharers = v'.sharers) (hl : sent = v.completion ++ l.map Send.callback)
    (hset : Settles n g mem j { p with view := v', responses := R, trigger := v'.trigger } l) :
    Reacted n g mem j p { p with view := v', responses := R } sent := by
  obtain ⟨hrooms, htake, hcbs⟩ := take_completion_append j v
    (p := { p with view := v', responses := R }) hnone l
  have htrigger : v.trigger = v'.trigger := by
    rw [View.trigger, View.trigger, hneed, hsh]
  rw [htrigger] at htake
  subst hl
  refine ⟨_, hrooms, htake, rfl, ?_⟩
  rw [hcbs]
  exact hset

omit [DecidableEq ι] in
/-- The copies of an active party with a response on its way. -/
theorem Active.holdings_cons (h : Active x τ φ due owed p) {R : Multiset (ResponseMsg ι L)}
    (hR : p.responses = m ::ₘ R) : p.holdings x =
      bag p.view.holding + (bag (m.holding x) + R.filterMap (·.holding x)) := by
  rw [h.holdings, hR, Multiset.filterMap_cons]
  cases m.holding x <;> simp

/-- A response that leaves the copies as they are. -/
theorem PartyOK.keep (h : PartyOK n g mem j p) (hrole : g.role j = .active x τ φ due owed)
    {R : Multiset (ResponseMsg ι L)} (hR : p.responses = m ::ₘ R)
    (hcounts : p.view.Counts m v') (hfits : v'.mode.fits x)
    (hgot : v'.mode.got = p.view.mode.got + m.isData.toNat)
    (hsharers : x ∨ g.excl → v'.sharers = false)
    (hcopy : bag p.view.holding + bag (m.holding x) = bag v'.holding)
    (hSS : v'.mode = .SS → ∀ k, g.own = some k → v'.curOwner = .cache k) :
    PartyOK n g mem j { p with view := v', responses := R, trigger := v'.trigger } := by
  obtain ⟨hA, hheld⟩ := h.active hrole
  have hsame : bag v'.holding + R.filterMap (·.holding x) = p.holdings x := by
    rw [← hcopy, hA.holdings_cons hR, add_assoc]
  refine h.answer hrole hR hcounts hfits hgot hsharers ?_ ?_ hSS
  · rwa [hsame]
  · rw [hsame]
    exact id

/-- A party stays in order when it takes a response. -/
theorem react_response {sent : List (Send ι L)} (h : PartyOK n g mem j p)
    (hrole : g.role j = .active x τ φ due owed) (hm : m ∈ p.responses)
    (hj : env.machineID = j) (hr : Reacts env p.view (.response m) v' sent) :
    Reacted n g mem j p { p.drop (.response m) with view := v' } sent := by
  have hx : (g.role j).x = x := by rw [hrole]; rfl
  obtain ⟨hA, hheld⟩ := h.active hrole
  have hfits {md : Mode} (hv : p.view.mode = md) : md.fits x := hv ▸ hA.mode
  have hnone : p.trigger = none := by
    rw [hA.trigger, View.trigger, if_neg (hA.need_pos hm).ne']
  obtain ⟨R, hR⟩ := Multiset.exists_cons_of_mem hm
  have hdrop (v : View ι L) : { p.drop (.response m) with view := v } =
      { p with view := v, responses := R } := by
    simp [Party.drop, hR]
  have hold := hA.holdings_cons hR
  rw [hdrop]
  have hcalm : x ∨ g.excl → p.view.sharers = false := by
    rintro (hx | he)
    · exact hA.sharers hx
    · exact (h.calm he).1
  have hload (d : DataBlock L) (hd : d = g.cur) :
      Performs g { g with cur := g.cur } [.load env.machineID d] :=
    .inr ⟨_, rfl, hd, rfl, .inl (by rw [hd]; rfl)⟩
  -- the data of a response is the current block
  have hblk (c : Holding L) (hc : m.holding x = some c) : c.blk = g.cur :=
    hheld.blk c (Party.mem_holdings_response hm hc)
  cases hr with
  | ack ht =>
    have hnd : m.isData = false := by rw [ResponseMsg.isData, ht]; rfl
    have hnh : m.holding x = none := by rw [ResponseMsg.holding, ht]
    refine .finish hnone _ [] rfl rfl (List.append_nil _).symm
      ⟨g.cur, .inl ⟨rfl, rfl⟩, .inl ⟨rfl, ?_⟩⟩
    refine h.keep hrole hR ⟨rfl, rfl, rfl, rfl⟩ hA.mode ?_ hcalm ?_
      fun hmd k hk => (h.source k hk).1 hmd
    · rw [hnd]
      rfl
    · rw [hnh]
      exact add_zero _
  | ackShared ht =>
    have hnd : m.isData = false := by rw [ResponseMsg.isData, ht]; rfl
    have hnh : m.holding x = none := by rw [ResponseMsg.holding, ht]
    refine .finish hnone _ [] rfl rfl (List.append_nil _).symm
      ⟨g.cur, .inl ⟨rfl, rfl⟩, .inl ⟨rfl, ?_⟩⟩
    refine h.keep hrole hR ⟨rfl, rfl, rfl, rfl⟩ hA.mode ?_ ?_ ?_
      fun hmd k hk => (h.source k hk).1 hmd
    · rw [hnd]
      rfl
    · rintro (hx | he)
      · have htype := (hA.fits m hm).type
        rw [ht, hx] at htype
        simp at htype
      · exact absurd ht ((h.calm he).2 m hm)
    · rw [hnh]
      exact add_zero _
  | dataIS ht hv =>
    obtain rfl : x = false := by simpa [Mode.fits] using hfits hv
    have hmh : m.holding false = some ⟨false, false, m.dataBlk, m.dirty⟩ := by
      rw [ResponseMsg.holding, ht]
    refine .finish hnone _ [.load env.machineID m.dataBlk] rfl rfl rfl
      ⟨g.cur, hload _ (hblk _ hmh), .inl ⟨rfl, ?_⟩⟩
    refine h.keep hrole hR ⟨rfl, rfl, rfl, rfl⟩ rfl ?_ hcalm ?_
      fun _ k hk => (h.source k hk).2 m hm hx (.inl ht)
    · rw [ResponseMsg.isData, ht, hv]
      rfl
    · rw [hmh, View.holding, hv]
      rfl
  | sharedIS ht hv =>
    obtain rfl : x = false := by simpa [Mode.fits] using hfits hv
    have hmh : m.holding false = some ⟨false, false, m.dataBlk, m.dirty⟩ := by
      rw [ResponseMsg.holding, ht]
    refine .finish hnone { p.view.count m with sharers := true } [.load env.machineID m.dataBlk]
      rfl rfl rfl ⟨g.cur, hload _ (hblk _ hmh), .inl ⟨rfl, ?_⟩⟩
    refine h.keep hrole hR ⟨rfl, rfl, rfl, rfl⟩ rfl ?_ ?_ ?_
      fun _ k hk => (h.source k hk).2 m hm hx (.inr ht)
    · rw [ResponseMsg.isData, ht, hv]
      rfl
    · rintro (hx | he)
      · cases hx
      · cases hheld.alone he _ (Party.mem_holdings_response hm hmh)
    · rw [hmh, View.holding, hv]
      rfl
  | exclusiveIS ht hv =>
    obtain rfl : x = false := by simpa [Mode.fits] using hfits hv
    have hmh : m.holding false = some ⟨true, true, m.dataBlk, m.dirty⟩ := by
      rw [ResponseMsg.holding, ht]
    refine .finish hnone _ [.load env.machineID m.dataBlk] rfl rfl rfl
      ⟨g.cur, hload _ (hblk _ hmh), .inl ⟨rfl, ?_⟩⟩
    refine h.keep hrole hR ⟨rfl, rfl, rfl, rfl⟩ rfl ?_ hcalm ?_
      fun hmd => by cases hmd
    · rw [ResponseMsg.isData, ht, hv]
      rfl
    · rw [hmh, View.holding, hv]
      rfl
  | dataIM ht hv =>
    obtain rfl : x := by simpa [Mode.fits] using hfits hv
    refine .finish hnone _ [] rfl rfl (List.append_nil _).symm
      ⟨g.cur, .inl ⟨rfl, rfl⟩, .inl ⟨rfl, ?_⟩⟩
    refine h.keep hrole hR ⟨rfl, rfl, rfl, rfl⟩ rfl ?_ hcalm ?_
      fun hmd => by cases hmd
    · rw [ResponseMsg.isData, ht, hv]
      rfl
    · rw [ResponseMsg.holding, ht, View.holding, hv]
      rfl
  | exclusiveIM cb ht hv hcache hret =>
    have hmh : m.holding x = some ⟨true, true, m.dataBlk, m.dirty⟩ := by
      rw [ResponseMsg.holding, ht]
    have hmem := Party.mem_holdings_response hm hmh
    have hcur : m.dataBlk = g.cur := hheld.blk _ hmem
    have hexcl : g.excl := hheld.excl _ hmem rfl
    have hown : g.own = some j := hheld.own_eq hmem rfl
    have hzero : R.filterMap (·.holding x) = 0 := by
      obtain ⟨c, hc, -⟩ := hheld.eq_singleton hexcl hown
      have hcard := congrArg Multiset.card (hold.symm.trans hc)
      rw [hmh, View.holding, hv] at hcard
      simpa [Mode.copy] using hcard
    refine .finish hnone _ [cb] rfl rfl rfl ⟨cb.apply g.cur, ?_, .inr ⟨hown, hexcl, fun mem' => ?_⟩⟩
    · rw [hcur] at hret
      refine .inr ⟨cb, rfl, hret, rfl, .inr ⟨hexcl, ?_⟩⟩
      rw [hcache, hj]
      exact hown
    · refine h.answer hrole hR ⟨rfl, rfl, rfl, rfl⟩ rfl ?_ (by exact hcalm) ?_ ?_
        fun hmd => by cases hmd
      · rw [ResponseMsg.isData, ht, hv]
        rfl
      · rw [hzero, hown]
        exact .singleton (by rw [hcur]) rfl (fun _ => hexcl) (fun hd => by cases hd)
      · intro h0
        rw [h0] at hmem
        exact absurd hmem (Multiset.notMem_zero _)
  | dataSM ht hv =>
    obtain rfl : x := by simpa [Mode.fits] using hfits hv
    have hmh : m.holding true = some ⟨true, false, m.dataBlk, m.dirty⟩ := by
      rw [ResponseMsg.holding, ht]
    have hvh : p.view.holding = some ⟨false, false, p.view.blk, p.view.dirty⟩ := by
      rw [View.holding, hv]
      rfl
    rw [hmh, hvh] at hold
    have hmem := Party.mem_holdings_response hm hmh
    refine .finish hnone _ [] rfl rfl (List.append_nil _).symm
      ⟨g.cur, .inl ⟨rfl, rfl⟩, .inl ⟨rfl, ?_⟩⟩
    refine h.answer hrole hR ⟨rfl, rfl, rfl, rfl⟩ rfl ?_ (by exact hcalm) ?_ ?_
      fun hmd => by cases hmd
    · rw [ResponseMsg.isData, ht, hv]
      rfl
    · rw [hold] at hheld
      exact hheld.merge rfl rfl p.view.dirty
    · intro h0
      rw [h0] at hmem
      exact absurd hmem (Multiset.notMem_zero _)

/-! ## Completion -/

/-- A completion trigger is there when everything has arrived, and has a
transition. -/
theorem expects_trigger {t : TriggerType} (h : PartyOK n g mem j p)
    (hrole : g.role j = .active x τ φ due owed) (ht : p.trigger = some t) :
    p.view.need = 0 ∧ p.view.ExpectsTrigger t := by
  obtain ⟨hA, hheld⟩ := h.active hrole
  have htrigger := hA.trigger
  rw [ht, View.trigger] at htrigger
  split at htrigger
  case isFalse => cases htrigger
  case isTrue hneed =>
  refine ⟨hneed, ?_⟩
  have hlone (hv : p.view.mode = .M_W ∨ p.view.mode = .MM_W) : p.view.sharers = false := by
    have hcopy : p.view.holding = some ⟨true, true, p.view.blk, p.view.dirty⟩ := by
      rw [View.holding]
      rcases hv with hv | hv <;> rw [hv] <;> rfl
    exact (h.calm (hheld.excl _ (Party.mem_holdings_view hcopy) rfl)).1
  have hlast : p.view.lastResponder ≠ .unset ∧ p.view.lastResponder ≠ .dma := by
    rcases hA.last with hl | ⟨-, hl⟩
    · constructor <;> intro heq <;> rw [heq] at hl <;> exact hl
    · omega
  obtain ⟨-, -, -, hgot⟩ := hA.done hneed
  rcases Mode.of_got_one hA.mode hgot with ⟨hxf, hv | hv⟩ | ⟨hxt, hv | hv⟩ | hv
  · cases hs : p.view.sharers <;> rw [hs] at htrigger <;> cases htrigger
    · exact .inl hv
    · exact hv
  · rw [hlone (.inl hv)] at htrigger
    cases htrigger
    exact .inr (.inl hv)
  · rw [hA.sharers hxt] at htrigger
    cases htrigger
    exact .inr (.inr (.inr ⟨.inr hv, hlast⟩))
  · rw [hA.sharers hxt] at htrigger
    cases htrigger
    exact .inr (.inr (.inr ⟨.inl hv, hlast⟩))
  · rw [hlone (.inr hv)] at htrigger
    cases htrigger
    exact .inr (.inr (.inl hv))

/-- What a party does with its completion trigger: it unblocks the directory, and
the copy stays the same or a store is performed on it. -/
inductive Completes (j : ι) (v v' : View ι L) :
    ResponseMsg ι L → List (Callback ι L) → Prop
  | shared (hv : v.mode = .SS) (hold : v'.holding = v.holding) :
      Completes j v v' { type := .UNBLOCKS, sender := .cache j, curOwner := v.curOwner } []
  | exclusive (hv : v.mode = .M_W ∨ v.mode = .MM_W) (hold : v'.holding = v.holding) :
      Completes j v v' { type := .UNBLOCKM, sender := .cache j } []
  | store (cb : Callback ι L) (hv : v.mode = .ISM ∨ v.mode = .OM)
      (hold : v.holding = some ⟨true, false, v.blk, v.dirty⟩)
      (hold' : v'.holding = some ⟨true, true, cb.apply v.blk, true⟩)
      (hcache : cb.cache = j) (hret : cb.Returns v.blk) :
      Completes j v v' { type := .UNBLOCKM, sender := .cache j } [cb]

omit [DecidableEq ι] in
theorem react_trigger {t : TriggerType} {v : View ι L} {sent : List (Send ι L)}
    (hj : env.machineID = j) (hr : Reacts env v (.trigger t) v' sent) :
    v'.mode.resting ∧ v'.Plain ∧ ∃ m l,
      sent = l.map Send.callback ++ [.unblock m] ∧ Completes j v v' m l := by
  subst hj
  cases hr with
  | doneS ht hv =>
    exact ⟨rfl, ⟨rfl, rfl, rfl⟩, _, [], rfl,
      .shared hv (by rw [View.holding, View.holding, hv]; rfl)⟩
  | doneM ht hv =>
    exact ⟨rfl, ⟨rfl, rfl, rfl⟩, _, [], rfl,
      .exclusive (.inl hv) (by rw [View.holding, View.holding, hv]; rfl)⟩
  | doneMM ht hv =>
    exact ⟨rfl, ⟨rfl, rfl, rfl⟩, _, [], rfl,
      .exclusive (.inr hv) (by rw [View.holding, View.holding, hv]; rfl)⟩
  | doneStore cb ht hv hcache hret =>
    refine ⟨rfl, ⟨rfl, rfl, rfl⟩, _, [cb], rfl, .store cb hv ?_ rfl hcache hret⟩
    rw [View.holding]
    rcases hv with hv | hv <;> rw [hv] <;> rfl

end Gem5Gpu.VIHammer
