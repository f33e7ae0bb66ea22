import Gem5Gpu.VIHammer.Demands

/-!
# The end of a request

When everything that a cache waits for has arrived, its completion trigger fires,
a pending store is performed, and an unblock message is sent to the directory.
-/

namespace Gem5Gpu.VIHammer

open Lib Directory Function

variable {ι : Type} [DecidableEq ι] [Fintype ι] {L : ℕ} {P : Params} {g : Ghost ι L}
  {a : ι → Party ι L} {s : Sys ι L} {i : ι} {now : ℕ}

omit [DecidableEq ι] [Fintype ι] in
/-- The loads and stores of a transition and the unblock message after them. -/
theorem take_unblock [DecidableEq ι] {q : Party ι L} (hq : q.unblock = none)
    (l : List (Callback ι L)) (m : ResponseMsg ι L) :
    q.Rooms i (l.map Send.callback ++ [Send.unblock m]) ∧
    (l.map Send.callback ++ [Send.unblock m]).foldl (Party.take i i) q =
      { q with unblock := some m } ∧
    Sys.callbacks (l.map Send.callback ++ [Send.unblock m]) = l := by
  refine ⟨?_, ?_, ?_⟩
  · induction l with
    | nil => exact ⟨hq, trivial⟩
    | cons cb l ih => exact ⟨trivial, ih⟩
  · induction l with
    | nil => simp [Party.take]
    | cons cb l ih => exact ih
  · simp [Sys.callbacks, List.filterMap_map]

/-- A role with a completion trigger is active. -/
theorem Inv.active_of_trigger (h : Inv g a s) {t : TriggerType}
    (ht : (a i).trigger = some t) : ∃ x τ φ due owed, g.role i = .active x τ φ due owed := by
  have hrole := (h.party i).role
  cases hr : g.role i with
  | active x τ φ due owed => exact ⟨x, τ, φ, due, owed, rfl⟩
  | idle | waiting =>
    rw [hr] at hrole
    rw [hrole.1.trigger] at ht
    cases ht

omit [Fintype ι] in
/-- A party whose request is served. -/
theorem PartyOK.complete {n : ℕ} {mem' : Prop} {p : Party ι L} {v' : View ι L}
    {m : ResponseMsg ι L} {g' : Ghost ι L} {x : Bool} {τ φ due owed : ℕ}
    (hA : Active x τ φ due owed p) (hneed : p.view.need = 0) (hm : m.holding false = none)
    (hv : v'.mode.resting) (hplain : v'.Plain) (hrole : g'.role i = .idle)
    (hheld : Held g'.own g'.excl g'.cur mem' i (bag v'.holding))
    (htxn : g'.txn.clears i = false) (hseen : ∀ b, g'.txn ≠ .dmaRead b) :
    PartyOK n g' mem' i { p with view := v', trigger := none, unblock := some m } := by
  obtain ⟨hresp, -⟩ := hA.done hneed
  have hH : ({ p with view := v', trigger := none, unblock := some m } :
      Party ι L).holdings false = bag v'.holding := by
    simp [Party.holdings, hresp, hm]
  refine .of_rest (by simp [hrole]) ?_ ?_ ?_ ?_ ?_
  · rw [hrole]
    refine ⟨⟨rfl, hresp⟩, ?_⟩
    show Idle _ _ v' p.request p.grant
    rw [hA.request, hA.grant]
    exact .rest hv hplain
  · rw [hH]
    exact hheld
  · intro k hk
    have hnone := hA.probe
    rw [show p.probe = some k from hk] at hnone
    cases hnone
  · intro hc
    rw [htxn] at hc
    cases hc
  · intro b hb
    exact absurd hb (hseen b)

omit [DecidableEq ι] [Fintype ι] in
/-- An unblock message carries no data. -/
theorem Completes.holding {j : ι} {v v' : View ι L} {m : ResponseMsg ι L}
    {l : List (Callback ι L)} (h : Completes j v v' m l) : m.holding false = none := by
  cases h <;> rfl

/-- The request of the cache `i`, which then has the view `v'`, sends the unblock message `m` and
performs `l`, ends with the system in order. -/
def Completed (g : Ghost ι L) (a : ι → Party ι L) (s : Sys ι L) (i : ι) (v' : View ι L)
    (m : ResponseMsg ι L) (l : List (Callback ι L)) : Prop :=
  ∃ g', Performs g g' l ∧ g'.dmaWritten = g.dmaWritten ∧
    PartyOK (Fintype.card ι) g' (s.memory = g'.cur) i
      { a i with view := v', trigger := none, unblock := some m } ∧
    (∀ j, j ≠ i → PartyOK (Fintype.card ι) g' (s.memory = g'.cur) j (a j)) ∧
    Global g' (update (fun j => (a j).signal) i
      { (a i).signal with unblock := some m }) s.hub

omit [Fintype ι] in
/-- A party for which everything has arrived has only the copy in its cache. -/
theorem PartyOK.held_view {n : ℕ} {mem : Prop} {p : Party ι L} {x : Bool} {τ φ due owed : ℕ}
    (h : PartyOK n g mem i p) (hrole : g.role i = .active x τ φ due owed)
    (hneed : p.view.need = 0) : Held g.own g.excl g.cur mem i (bag p.view.holding) := by
  obtain ⟨hA, hheld⟩ := h.active hrole
  rw [hA.holdings, (hA.done hneed).1] at hheld
  simpa using hheld

section Complete

variable {x : Bool} {τ φ due owed : ℕ} {v' : View ι L} {m : ResponseMsg ι L}
  {l : List (Callback ι L)} {q : Party ι L} {node : ι → Node ι L} {t : TriggerType}

/-- The request that the directory serves is complete. -/
theorem complete_serve (h : Inv g a s) (htxn : g.txn = .serve i x τ φ)
    (hrole : g.role i = .active x τ φ due owed) (hneed : (a i).view.need = 0)
    (hv : v'.mode.resting) (hplain : v'.Plain) (hc : Completes i (a i).view v' m l) :
    Completed g a s i v' m l := by
  have hparty := h.party i
  obtain ⟨hA, -⟩ := hparty.active hrole
  obtain ⟨-, hdue, -⟩ := hA.done hneed
  have hdir := h.dir
  unfold Global at hdir
  rw [htxn] at hdir
  obtain ⟨hq, htrigger, J, d, hd, hiJ, hroles⟩ := hdir
  have hi := hroles i
  rw [if_pos rfl, hrole, Role.active.injEq] at hi
  obtain ⟨-, -, -, hdue', -⟩ := hi
  obtain rfl : d = 0 := by omega
  have hprobes (j : ι) : (a j).probe = none := by
    have hzero : tally Signal.probed (fun j => (a j).signal) = 0 := by omega
    exact Signal.probed_eq_false.1 (tally_eq_zero_iff.1 hzero j)
  have hpassive (j : ι) (hj : j ≠ i) : (g.role j).Passive := by
    rw [hroles j, if_neg hj]
    split
    · exact .inr rfl
    · exact .inl rfl
  have hheld := hparty.held_view hrole hneed
  have hmemory : MemIdle s.hub := by
    cases hd with
    | owned k own hd hm | clean hx own hd hm mem => exact hm
  have hglobal (e : Bool) (c : DataBlock L) (hclose : ∀ g' : Ghost ι L,
      g'.own = g.own → g'.cur = c → DirClose g' s.hub i m J) (hsender : m.sender = .cache i) :
      Global { g with
          txn := .close i, role := update g.role i .idle, excl := e, cur := c }
        (update (fun j => (a j).signal) i { (a i).signal with unblock := some m })
        s.hub := by
    refine ⟨?_, ?_, htrigger, hmemory, m, J, ?_, hsender, hclose _ rfl rfl, ?_⟩
    · intro j
      by_cases hj : j = i
      · subst hj
        rw [update_self]
        exact ⟨hprobes j, (hq j).1, (hq j).2.2⟩
      · rw [update_of_ne hj]
        exact ⟨hprobes j, (hq j).1, (hq j).2.2⟩
    · intro j hj
      rw [update_of_ne hj]
      exact (hq j).2.1
    · rw [update_self]
    · intro j
      by_cases hj : j = i
      · subst hj
        rw [if_neg hiJ]
        exact update_self ..
      · rw [← (hroles j).trans (if_neg hj)]
        exact update_of_ne hj ..
  -- the copy stays the same
  have hsame (hc : Completes i (a i).view v' m []) (hl : l = [])
      (hold : v'.holding = (a i).view.holding)
      (hclose : ∀ g' : Ghost ι L, g'.own = g.own → g'.cur = g.cur → DirClose g' s.hub i m J)
      (hsender : m.sender = .cache i) : Completed g a s i v' m l := by
    refine ⟨{ g with
        txn := .close i, role := update g.role i .idle, excl := g.excl, cur := g.cur },
      .inl ⟨hl, rfl⟩, rfl, ?_, ?_, hglobal _ _ hclose hsender⟩
    · refine .complete hA hneed hc.holding hv hplain (update_self ..) ?_ rfl (by simp)
      rw [hold]
      exact hheld
    · intro j hj
      exact (h.party j).passive (hpassive j hj) (update_of_ne hj ..) id
        (.inl (hprobes j)) (by simp [Txn.clears]) (by simp)
  -- an owned copy makes the cache the owner
  have howner (c : Holding L) (hc : (a i).view.holding = some c) (ho : c.owned = true) :
      g.own = some i := by
    refine hheld.own_eq (h := c) ?_ ho
    rw [hc]
    exact Multiset.mem_singleton_self c
  have hblocked (ho : g.own = some i) : DirBlocked s.hub J := by
    cases hd with
    | owned k own hd hm => exact hd
    | clean hx own hd hm mem =>
      rw [ho] at own
      cases own
  cases hc with
  | shared hvm hold =>
    refine hsame (.shared hvm hold) rfl hold ?_ rfl
    intro g' ho hcur
    cases hd with
    | owned k own hd hm =>
      exact .owned hd (.inr ⟨rfl, k, ho.trans own, (hparty.source k own).1 hvm⟩)
    | clean hx own hd hm mem => exact .clean (ho.trans own) hd rfl (mem.trans hcur.symm)
  | exclusive hvm hold =>
    have hcopy : (a i).view.holding = some ⟨true, true, (a i).view.blk, (a i).view.dirty⟩ := by
      rw [View.holding]
      rcases hvm with hvm | hvm <;> rw [hvm] <;> rfl
    have hown := howner _ hcopy rfl
    exact hsame (.exclusive hvm hold) rfl hold
      (fun g' ho _ => .owned (hblocked hown) (.inl ⟨rfl, ho.trans hown⟩)) rfl
  | store cb hvm hold hold' hcache hret =>
    have hx : x = true := by
      have hmode := hA.mode
      rcases hvm with hvm | hvm <;> rw [hvm] at hmode <;> exact hmode
    have hown := howner _ hold rfl
    have hcur : (a i).view.blk = g.cur := by
      refine hheld.blk ⟨true, false, (a i).view.blk, (a i).view.dirty⟩ ?_
      rw [hold]
      exact Multiset.mem_singleton_self _
    rw [hcur] at hret hold'
    refine ⟨{ g with
        txn := .close i, role := update g.role i .idle, excl := true
        cur := cb.apply g.cur },
      .inr ⟨cb, rfl, hret, rfl, .inr ⟨rfl, ?_⟩⟩, rfl, ?_, ?_, hglobal _ _ ?_ rfl⟩
    · rw [hcache]
      exact hown
    · refine .complete hA hneed rfl hv hplain (update_self ..) ?_ rfl (by simp)
      rw [hold', hown]
      exact .singleton rfl rfl (fun _ => rfl) (fun hd => by cases hd)
    · -- the other caches have answered, so they have no copy
      intro j hj
      have hclears : g.txn.clears j = true := by
        rw [htxn, hx]
        simpa [Txn.clears] using hj
      refine (h.party j).passive (hpassive j hj) (update_of_ne hj ..) ?_
        (.inl (hprobes j)) (by simp [Txn.clears]) (by simp)
      intro _
      have hzero := (h.party j).cleared hclears (hprobes j)
      rw [(hpassive j hj).x] at hzero
      rw [hzero, hown]
      exact .zero fun heq => hj (Option.some.inj heq).symm
    · exact fun g' ho _ => .owned (hblocked hown) (.inl ⟨rfl, ho.trans hown⟩)

/-- A GETS request that the owner answered is complete. -/
theorem complete_feed {J : Finset ι} (h : Inv g a s) (htxn : g.txn = .feed J φ false)
    (hrole : g.role i = .active false τ φ due owed) (hneed : (a i).view.need = 0)
    (hv : v'.mode.resting) (hplain : v'.Plain) (hc : Completes i (a i).view v' m l) :
    Completed g a s i v' m l := by
  have hparty := h.party i
  obtain ⟨hA, -⟩ := hparty.active hrole
  obtain ⟨-, -, -, hgot⟩ := hA.done hneed
  have hdir := h.dir
  unfold Global at hdir
  rw [htxn] at hdir
  obtain ⟨hq, hmemory, hJ, ⟨k, hown, hidle⟩, hroles, tbe, hst, hd, hcount, htrigger⟩ := hdir
  have hheld := hparty.held_view hrole hneed
  -- the owner is another cache
  have hSS : (a i).view.mode = .SS := by
    have hnot (hcopy : (a i).view.mode.copy = some (true, true)) : False := by
      have ho : g.own = some i := by
        refine hheld.own_eq (h := ⟨true, true, (a i).view.blk, (a i).view.dirty⟩) ?_ rfl
        rw [View.holding, hcopy]
        exact Multiset.mem_singleton_self _
      rw [hown] at ho
      cases ho
      rw [hidle] at hrole
      cases hrole
    rcases Mode.of_got_one hA.mode hgot with ⟨-, hm | hm⟩ | ⟨hx, -⟩ | hm
    · exact hm
    · exact (hnot (by rw [hm]; rfl)).elim
    · cases hx
    · exact (hnot (by rw [hm]; rfl)).elim
  cases hc with
  | exclusive hvm | store cb hvm =>
    rw [hSS] at hvm
    rcases hvm with hvm | hvm <;> cases hvm
  | shared _ hold =>
  refine ⟨{ g with txn := .feed J φ false, role := update g.role i .idle },
    .inl ⟨rfl, rfl⟩, rfl, ?_, ?_, ?_⟩
  · refine .complete hA hneed rfl hv hplain (update_self ..) ?_ rfl (by simp)
    rw [hold]
    exact hheld
  · intro j hj
    have hsame : update g.role i .idle j = g.role j := update_of_ne hj ..
    obtain ⟨h1, h2, h3, h4, h5, h6, h7⟩ := h.party j
    rw [← hsame] at h1 h2 h4 h6 h7
    rw [htxn] at h5 h6 h7
    exact ⟨h1, h2, h3, h4, h5, h6, h7⟩
  · refine ⟨?_, hmemory, hJ, ⟨k, hown, ?_⟩, ?_, tbe, hst, hd, ?_, htrigger⟩
    · intro j
      by_cases hj : j = i
      · subst hj
        rw [update_self]
        obtain ⟨h1, h2, h3, -⟩ := hq j
        refine ⟨h1, h2, h3, fun m' hm' => ?_⟩
        cases hm'
        exact ⟨rfl, rfl⟩
      · rw [update_of_ne hj]
        exact hq j
    · by_cases hk : k = i
      · rw [hk]
        exact update_self ..
      · exact (update_of_ne hk ..).trans hidle
    · intro j
      by_cases hj : j = i
      · rw [hj]
        exact .inl (update_self ..)
      · have hsame : update g.role i .idle j = g.role j := update_of_ne hj ..
        have hrj := hroles j
        rw [← hsame] at hrj
        exact hrj
    · rw [hcount]
      have hrolecount : tally (fun ρ => decide (ρ ≠ Role.idle)) (update g.role i .idle) +
          1 = tally (fun ρ => decide (ρ ≠ Role.idle)) g.role := by
        have hstep := tally_of_ne (f := fun ρ => decide (ρ ≠ Role.idle)) (i := i)
          (t := g.role) (u := update g.role i .idle)
          (fun j hj => by rw [update_of_ne hj])
        rw [update_self, hrole] at hstep
        exact hstep
      have hunblocks (m : ResponseMsg ι L) : tally Signal.unblocks (update
          (fun j => (a j).signal) i { (a i).signal with unblock := some m }) =
          tally Signal.unblocks (fun j => (a j).signal) + 1 := by
        have hstep := tally_of_ne (f := Signal.unblocks) (i := i) (t := fun j => (a j).signal)
          (u := update (fun j => (a j).signal) i { (a i).signal with unblock := some m })
          (fun j hj => by rw [update_of_ne hj])
        have hnone : (a i).signal.unblocks = false := by
          rw [Signal.unblocks, Party.signal, hA.unblock]
          rfl
        rw [update_self, hnone] at hstep
        exact hstep
      rw [hunblocks, ← hrolecount]
      push_cast
      omega

end Complete

theorem step_trigger (h : Inv g a s) (hn : 1 < Fintype.card ι) {t : TriggerType}
    (hm : (s.node i).holds (.trigger t)) :
    StepOK P g s (now, .deliver i (.trigger t)) := by
  rcases (h.of i).mem hm with ht | ⟨rfl, hk⟩
  case inr => exact step_transfer h hk
  case inl =>
  obtain ⟨x, τ, φ, due, owed, hrole⟩ := h.active_of_trigger ht
  obtain ⟨hneed, hexpects⟩ := expects_trigger (h.party i) hrole ht
  rcases deliver_spec (P := P) now h.of hn hm hexpects with
    hs | ⟨v', sent, hr, -, hspec⟩
  · exact .refl h hs
  · obtain ⟨hv, hplain, m, l, rfl, hc⟩ := react_trigger (j := i) rfl hr
    have hunblock : (a i).unblock = none := by
      have hA := (h.party i).role
      rw [hrole] at hA
      exact hA.unblock
    obtain ⟨hrooms, htake, hcbs⟩ := take_unblock (i := i)
      (q := { (a i).drop (.trigger t) with view := v' }) hunblock l m
    obtain ⟨node, hs, hof⟩ := hspec hrooms
    have hprivate : ∀ k ∈ l.map Send.callback ++ [Send.unblock m], Send.isPrivate k := by
      intro k hk
      rcases List.mem_append.1 hk with hk | hk
      · obtain ⟨cb, -, rfl⟩ := List.mem_map.1 hk
        rfl
      · rw [List.mem_singleton.1 hk]
        rfl
    have hcomplete : Completed g a s i v' m l := by
      rcases h.dir.active hrole with htxn | ⟨rfl, rfl, J, htxn⟩
      · exact complete_serve h htxn hrole hneed hv hplain hc
      · exact complete_feed h htxn hrole hneed hv hplain hc
    obtain ⟨g', hperf, hw, hparty, hothers, hdir⟩ := hcomplete
    rw [← hcbs] at hperf
    exact h.of_private hs hof hprivate htake hperf hw hparty hothers hdir

end Gem5Gpu.VIHammer
