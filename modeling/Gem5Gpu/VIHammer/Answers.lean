import Gem5Gpu.VIHammer.Probes

/-!
# Answers to the directory

A cache answers the requests that the directory makes for the DMA controller, the
GETS requests that were put aside while it waited for its block, and the grant of
its write-back.
-/

namespace Gem5Gpu.VIHammer


open Lib Directory Function

variable {ι : Type} [DecidableEq ι] [Fintype ι] {L : ℕ} {v : View ι L} {m : RequestMsg ι}
  {P : Params} {g : Ghost ι L} {a : ι → Party ι L} {s : Sys ι L} {i : ι} {now : ℕ}

/-- A party that has answered the directory. -/
def Party.replied (p : Party ι L) (v : View ι L) (r : ResponseMsg ι L) : Party ι L :=
  { p with view := v, probe := none, answer := some r }

omit [DecidableEq ι] [Fintype ι] in
theorem Party.replied_holdings {p : Party ι L} (hresp : p.responses = 0)
    (hunblock : p.unblock = none) (v : View ι L) (r : ResponseMsg ι L) (x : Bool) :
    (p.replied v r).holdings x = bag v.holding := by
  simp [Party.holdings, Party.replied, hresp, hunblock]

/-- A forwarded request becomes an answer. -/
theorem answer_counts {σ : ι → Signal ι L} {r : ResponseMsg ι L}
    (hprobe : (a i).probe ≠ none) (hanswer : (a i).answer = none)
    (hi : σ i = ((a i).replied v r).signal) (hne : ∀ j, j ≠ i → σ j = (a j).signal) :
    tally Signal.probed σ + tally Signal.answers σ = tally Signal.probed (fun j => (a j).signal) +
        tally Signal.answers (fun j => (a j).signal) := by
  have hprobes := tally_of_ne (f := Signal.probed) (i := i)
    (t := fun j => (a j).signal) (u := σ) (fun j hj => by rw [hne j hj])
  have hanswers := tally_of_ne (f := Signal.answers) (i := i)
    (t := fun j => (a j).signal) (u := σ) (fun j hj => by rw [hne j hj])
  have h1 : (a i).signal.probed = true := Option.isSome_iff_ne_none.2 hprobe
  have h2 : (a i).signal.answers = false := by
    rw [Signal.answers, Party.signal, hanswer]
    rfl
  have h3 : (σ i).probed = false := by
    rw [hi]
    rfl
  have h4 : (σ i).answers = true := by
    rw [hi]
    rfl
  rw [h1, h3] at hprobes
  rw [h2, h4] at hanswers
  simp only [Bool.toNat_true, Bool.toNat_false] at hprobes hanswers
  omega

variable (now) in
/-- A cache takes a forwarded request of the directory. -/
theorem deliver_dma {x : Bool} (h : Inv g a s) (hn : 1 < Fintype.card ι) (hrole : g.role i = .idle)
    (hp : (a i).probe = some m) (hm : (s.node i).holds (.forward m))
    (hanswer : (a i).answer = none) (hunblock : (a i).unblock = none)
    (hmsg : m = { type := getType x, requestor := .directory }) :
    StepOK P g s (now, .deliver i (.forward m)) ∨
    ∃ v r node,
      step P s (now, .deliver i (.forward m)) = .ok (s.moved node [.response .directory r]) ∧
      (∀ j, (after a i ((a i).answered v) [.response .directory r] j).Of j (node j)) ∧
      (g.role i).Fits (Fintype.card ι) i ((a i).replied v r) ∧
      Outcome x (a i).view v r ∧
      Held g.own g.excl g.cur (s.memory = g.cur) i (bag (a i).view.holding) ∧
      ∀ v r, ((a i).replied v r).holdings false = bag v.holding := by
  have hpassive : (g.role i).Passive := .inl hrole
  obtain ⟨hmt, hreq, hdirected⟩ : m.type = getType x ∧ m.requestor = .directory ∧
      m.directedProbe = false := by
    rw [hmsg]
    exact ⟨rfl, rfl, rfl⟩
  have hcache : m.requestor ≠ .cache i := by
    rw [hreq]
    exact fun heq => nomatch heq
  rcases h.deliver_probe (P := P) now hn hpassive hunblock hp hm hmt hdirected hcache with
    hok | ⟨v', r, hans, hout, hheld, hfits, hspec⟩
  · exact .inl hok
  rw [hreq] at hspec
  obtain ⟨node, hs, hof⟩ := hspec ⟨hanswer, trivial⟩
  have hresp := ((h.party i).holdings_passive hpassive hunblock).1
  exact .inr ⟨v', r, node, hs, hof, hfits (some r), hout, hheld,
    fun v r => Party.replied_holdings hresp hunblock v r false⟩

/-! ## DMA reads -/

/-- A cache answers a DMA read. -/
theorem read_answer (own : Option ι) (excl : Bool) {b : Bool} {r : ResponseMsg ι L}
    {node : ι → Node ι L} {e : ℕ × Act ι L} (h : Inv g a s) (htxn : g.txn = .dmaRead b)
    (hprobe : (a i).probe ≠ none)
    (hs : step P s e = .ok (s.moved node [.response .directory r]))
    (hof : ∀ j, (after a i ((a i).answered v) [.response .directory r] j).Of j (node j))
    (hfits : (g.role i).Fits (Fintype.card ι) i ((a i).replied v r))
    (hH : ((a i).replied v r).holdings false = bag v.holding)
    (hans : ∀ g' : Ghost ι L, g'.own = own → g'.excl = excl → g'.cur = g.cur → r.AnswersRead g' i)
    (hkeep : g.own ≠ some i → own = g.own ∧ excl = g.excl ∧ r.type ≠ .DATA_EXCLUSIVE)
    (hmove : g.own = some i → own = some i ∧ excl = false ∧ r.type = .DATA_SHARED ∨
      own = none ∧ excl = true ∧ g.excl = true ∧ r.type = .DATA_EXCLUSIVE)
    (hheld : Held own excl g.cur (s.memory = g.cur) i (bag v.holding))
    (hcopy : v.holding ≠ none → r.type = .ACK_SHARED ∨ r.type = .DATA_SHARED)
    (hothers : ∀ j, j ≠ i → ∀ H, Held g.own g.excl g.cur (s.memory = g.cur) j H →
      Held own excl g.cur (s.memory = g.cur) j H) : StepOK P g s e := by
  have hdir := h.dir
  unfold Global at hdir
  rw [htxn] at hdir
  obtain ⟨hq, hroles, hseen, t, hread, hsharers, howned, hcount⟩ := hdir
  have hexcl : excl = true → g.excl = true := by
    intro he
    by_cases ho : g.own = some i
    · rcases hmove ho with ⟨-, he', -⟩ | ⟨-, -, he', -⟩
      · rw [he'] at he
        cases he
      · exact he'
    · rw [← (hkeep ho).2.1]
      exact he
  have hanswer : (a i).answer = none := (hq i).2.2.1 hprobe
  obtain ⟨σ', hσ, hσi, hσne⟩ : ∃ σ' : ι → Signal ι L,
      σ' = update (fun j => (a j).signal) i ((a i).replied v r).signal ∧
      σ' i = ((a i).replied v r).signal ∧ ∀ j, j ≠ i → σ' j = (a j).signal :=
    ⟨_, rfl, update_self .., fun j hj => update_of_ne hj ..⟩
  refine h.of_private (G := { g with txn := .dmaRead b, own := own, excl := excl })
    (r := (a i).replied v r) hs hof (by simp [Send.isPrivate]) ?_ (.inl ⟨rfl, rfl⟩) rfl ?_ ?_ ?_
  · simp [Party.take, Party.replied, Party.answered]
  · refine .of_rest (by simp [hroles i]) hfits ?_ (fun _ h => by cases h) (fun h => by cases h) ?_
    · rw [hH]
      exact hheld
    · intro b' _ _ hne
      refine .inr ⟨r, rfl, hcopy fun hnone => hne ?_⟩
      rw [hH, hnone]
      rfl
  · intro j hj
    refine (h.party j).passive (.inl (hroles j)) rfl (hothers j hj _) (.inr ?_)
      (fun h => by cases h) ?_
    · rw [htxn]
    · exact fun b' hb' => ⟨b, htxn, fun hb => by cases hb'; exact hb⟩
  · rw [← hσ]
    refine ⟨?_, hroles, fun he => hseen (hexcl he), t, ?_, hsharers, ?_, ?_⟩
    · intro j
      by_cases hj : j = i
      · subst hj
        rw [hσi]
        obtain ⟨h1, h2, -, -⟩ := hq j
        refine ⟨h1, h2, fun hp => absurd rfl hp, fun m hm => ?_⟩
        cases hm
        exact hans _ rfl rfl rfl
      · rw [hσne j hj]
        obtain ⟨h1, h2, h3, h4⟩ := hq j
        refine ⟨h1, h2, h3, fun m hm => ?_⟩
        obtain ⟨htype, hacks, hshared, hexclusive, hcalm⟩ := h4 m hm
        refine ⟨htype, hacks, ?_, ?_, ?_⟩
        · intro ht
          obtain ⟨hblk, ho⟩ := hshared ht
          have hoi : g.own ≠ some i := by
            rw [ho]
            exact fun heq => hj (Option.some.inj heq)
          exact ⟨hblk, (hkeep hoi).1.trans ho⟩
        · intro ht
          obtain ⟨hblk, ho⟩ := hexclusive ht
          have hoi : g.own ≠ some i := by
            rw [ho]
            exact fun heq => by cases heq
          exact ⟨hblk, (hkeep hoi).1.trans ho⟩
        · exact fun he => hcalm (hexcl he)
    · -- where the data comes from
      have hcalm (ht : r.type ≠ .DATA_EXCLUSIVE)
          (h : ∀ k m, ((fun j => (a j).signal) k).answer = some m → m.type ≠ .DATA_EXCLUSIVE) :
          ∀ k m, (σ' k).answer = some m → m.type ≠ .DATA_EXCLUSIVE := by
        intro k m hm
        by_cases hk : k = i
        · subst hk
          rw [hσi] at hm
          cases hm
          exact ht
        · rw [hσne k hk] at hm
          exact h k m hm
      cases hread with
      | fetch st hst hd hown mem hm dirty trigger type calm =>
        obtain ⟨ho', he', ht⟩ := hkeep (by rw [hown]; simp)
        refine .fetch st hst hd (ho'.trans hown) mem hm dirty trigger ?_ (hcalm ht calm)
        rw [he']
        exact type
      | fetched st hst hd hown hm data trigger type calm =>
        obtain ⟨ho', he', ht⟩ := hkeep (by rw [hown]; simp)
        refine .fetched st hst hd (ho'.trans hown) hm data trigger ?_ (hcalm ht calm)
        rw [he']
        exact type
      | owner hst hd hm trigger data kept taken =>
        refine .owner hst hd hm trigger data ?_ ?_
        · intro k (hk : own = some k)
          by_cases ho : g.own = some i
          · rcases hmove ho with ⟨ho', he', ht⟩ | ⟨ho', -⟩
            · rw [ho'] at hk
              cases hk
              refine ⟨fun he => ?_, .inr (.inr ⟨r, ?_, ht⟩)⟩
              · rw [he'] at he
                cases he
              · rw [hσi]
                rfl
            · rw [ho'] at hk
              cases hk
          · rw [(hkeep ho).1] at hk
            rw [(hkeep ho).2.1]
            have hki : k ≠ i := by
              rintro rfl
              exact ho hk
            rw [hσne k hki]
            exact kept k hk
        · intro (hk : own = none)
          by_cases ho : g.own = some i
          · rcases hmove ho with ⟨ho', -⟩ | ⟨-, he', -, ht⟩
            · rw [ho'] at hk
              cases hk
            · refine ⟨he', .inr ⟨i, r, ?_, ht⟩⟩
              rw [hσi]
              rfl
          · rw [(hkeep ho).1] at hk
            rw [(hkeep ho).2.1]
            obtain ⟨he, hcase⟩ := taken hk
            refine ⟨he, hcase.imp_right ?_⟩
            rintro ⟨k, m, hm, ht⟩
            have hki : k ≠ i := by
              rintro rfl
              rw [show ((fun j => (a j).signal) k).answer = none from hanswer] at hm
              cases hm
            refine ⟨k, m, ?_, ht⟩
            rw [hσne k hki]
            exact hm
    · intro hto
      obtain ⟨hb, k, hk⟩ := howned hto
      refine ⟨hb, ?_⟩
      by_cases ho : g.own = some i
      · rcases hmove ho with ⟨ho', -⟩ | ⟨-, -, he, -⟩
        · exact ⟨i, ho'⟩
        · rw [hseen he] at hb
          cases hb
      · exact ⟨k, (hkeep ho).1.trans hk⟩
    · rw [hcount]
      exact_mod_cast (answer_counts hprobe hanswer hσi hσne).symm

theorem step_probe_read {b : Bool} (h : Inv g a s) (hn : 1 < Fintype.card ι)
    (htxn : g.txn = .dmaRead b) (hp : (a i).probe = some m)
    (hm : (s.node i).holds (.forward m)) :
    StepOK P g s (now, .deliver i (.forward m)) := by
  have hprobe : (a i).probe ≠ none := by
    rw [hp]
    exact Option.some_ne_none m
  have hmsg := (h.party i).probe m hp
  rw [htxn] at hmsg
  have hdir := h.dir
  unfold Global at hdir
  rw [htxn] at hdir
  obtain ⟨hq, hroles, -⟩ := hdir
  rcases deliver_dma (P := P) now (x := false) h hn (hroles i) hp hm
    ((hq i).2.2.1 hprobe) (hq i).1 (Option.some.inj hmsg).symm with
    hok | ⟨v, r, node, hs, hof, hfits, hout, hheld, hH⟩
  · exact hok
  cases hout with
  | ack hold howned hacks htype =>
    have ho : g.own ≠ some i := by
      intro ho
      obtain ⟨c, hc, hco⟩ := hheld.own_iff.1 ho
      rw [howned c hc] at hco
      cases hco
    rw [if_neg (by simp)] at hold
    have htype' : r.type = .ACK ∨ r.type = .ACK_SHARED := htype.imp And.left And.left
    refine read_answer g.own g.excl h htxn hprobe hs hof hfits (hH v r) ?_
      (fun _ => ⟨rfl, rfl, fun ht => ?_⟩) (fun h => absurd h ho) ?_ ?_ (fun j _ H => id)
    · intro g' _ he _
      refine ⟨htype'.imp_right .inl, ?_, fun ht => ?_, fun ht => ?_, fun hx => ?_⟩
      · rw [hacks, ResponseMsg.isData]
        rcases htype' with ht | ht <;> rw [ht] <;> rfl
      · rcases htype' with ht' | ht' <;> rw [ht] at ht' <;> cases ht'
      · rcases htype' with ht' | ht' <;> rw [ht] at ht' <;> cases ht'
      · rw [he] at hx
        rcases htype with ⟨ht, -⟩ | ⟨-, -, hne⟩
        · exact .inl ht
        · obtain ⟨c, hc⟩ := Option.ne_none_iff_exists'.1 hne
          have hco := hheld.alone hx c (mem_bag.2 hc)
          rw [howned c hc] at hco
          cases hco
    · rcases htype' with ht' | ht' <;> rw [ht] at ht' <;> cases ht'
    · rw [hold]
      exact hheld
    · intro hne
      rw [hold] at hne
      rcases htype with ⟨-, hnone⟩ | ⟨ht, -⟩
      · exact absurd (hnone rfl) hne
      · exact .inl ht
  | give c hc howned hold hacks hmsg htype =>
    have ho : g.own = some i := hheld.own_iff.2 ⟨c, hc, howned⟩
    rw [hc] at hheld
    have hmem := Multiset.mem_singleton_self c
    obtain ⟨ht, hce⟩ : r.type = .DATA_EXCLUSIVE ∧ c.excl = true :=
      htype.resolve_left fun hx => by cases hx.2
    have hexcl : g.excl = true := hheld.excl c hmem hce
    have hblk : r.dataBlk = g.cur := by
      rw [← hheld.blk c hmem]
      rw [ResponseMsg.holding, ht] at hmsg
      rcases hmsg with hmsg | ⟨hx, -⟩
      · exact congrArg Holding.blk (Option.some.inj hmsg)
      · cases hx
    refine read_answer none true h htxn hprobe hs hof hfits (hH v r) ?_
      (fun h => absurd ho h) (fun _ => .inr ⟨rfl, rfl, hexcl, ht⟩) ?_
      (fun hne => absurd hold hne) ?_
    · intro g' hown' _ hcur'
      refine ⟨.inr (.inr (.inr ht)), ?_, fun ht' => ?_, fun _ => ?_, fun _ => .inr ht⟩
      · rw [hacks, ResponseMsg.isData, ht]
        rfl
      · rw [ht] at ht'
        cases ht'
      · exact ⟨hblk.trans hcur'.symm, hown'⟩
    · rw [hold]
      exact .zero (by simp)
    · intro j hj H hH
      rw [hexcl] at hH
      refine hH.of_own ⟨(fun heq => by cases heq), fun heq => ?_⟩
      rw [ho] at heq
      exact absurd (Option.some.inj heq).symm hj
  | share _ c hc howned hold hacks hblk htype =>
    have ho : g.own = some i := hheld.own_iff.2 ⟨c, hc, howned⟩
    rw [hc] at hheld
    have hmem := Multiset.mem_singleton_self c
    refine read_answer g.own false h htxn hprobe hs hof hfits (hH v r) ?_
      (fun h => absurd ho h) (fun _ => .inl ⟨ho, rfl, htype⟩) ?_ (fun _ => .inr htype) ?_
    · intro g' hown' hexcl' hcur'
      refine ⟨.inr (.inr (.inl htype)), ?_, fun _ => ?_, fun ht' => ?_, fun he => ?_⟩
      · rw [hacks, ResponseMsg.isData, htype]
        rfl
      · exact ⟨hblk.trans ((hheld.blk c hmem).trans hcur'.symm), hown'.trans ho⟩
      · rw [htype] at ht'
        cases ht'
      · rw [hexcl'] at he
        cases he
    · rw [hold]
      exact hheld.share howned
    · intro j hj H hH
      refine hH.of_shared ?_
      rw [ho]
      exact fun heq => hj (Option.some.inj heq).symm

/-! ## DMA writes -/

theorem step_probe_write (h : Inv g a s) (hn : 1 < Fintype.card ι) (htxn : g.txn = .dmaWrite)
    (hp : (a i).probe = some m) (hm : (s.node i).holds (.forward m)) :
    StepOK P g s (now, .deliver i (.forward m)) := by
  have hprobe : (a i).probe ≠ none := by
    rw [hp]
    exact Option.some_ne_none m
  have hmsg := (h.party i).probe m hp
  rw [htxn] at hmsg
  have hdir := h.dir
  unfold Global at hdir
  rw [htxn] at hdir
  obtain ⟨hq, hroles, hmemory, hwritten, howner, t, hst, hd, hsharers, hcount, htrigger⟩ := hdir
  have hanswer : (a i).answer = none := (hq i).2.2.1 hprobe
  rcases deliver_dma (P := P) now (x := true) h hn (hroles i) hp hm hanswer (hq i).1
    (Option.some.inj hmsg).symm with hok | ⟨v, r, node, hs, hof, hfits, hout, hheld, hH⟩
  · exact hok
  -- the copy is gone, and if it was the owner's, there is no owner
  have hnone : v.holding = none := by
    cases hout with
    | ack hold | give c hc howned hold => exact hold
    | share hx => cases hx
  have hans : r.AnswersWrite := by
    cases hout with
    | ack hold howned hacks htype =>
      have ht : r.type = .ACK := by
        rcases htype with ⟨ht, -⟩ | ⟨-, hx, -⟩
        · exact ht
        · cases hx
      refine ⟨.inl ht, ?_⟩
      rw [hacks, ResponseMsg.isData, ht]
      rfl
    | give c hc howned hold hacks hmsg htype =>
      refine ⟨.inr (htype.imp And.left And.left), ?_⟩
      rw [hacks, ResponseMsg.isData]
      rcases htype with ⟨ht, -⟩ | ⟨ht, -⟩ <;> rw [ht] <;> rfl
    | share hx => cases hx
  obtain ⟨own, hkeep, hmove⟩ : ∃ own, (g.own ≠ some i → own = g.own) ∧
      (g.own = some i → own = none) := by
    by_cases ho : g.own = some i
    · exact ⟨none, absurd ho, fun _ => rfl⟩
    · exact ⟨g.own, fun _ => rfl, fun heq => absurd heq ho⟩
  have hlost : ∀ k, own = some k → g.own = some k ∧ k ≠ i := by
    intro k hk
    by_cases ho : g.own = some i
    · rw [hmove ho] at hk
      cases hk
    · rw [hkeep ho] at hk
      exact ⟨hk, fun heq => ho (by rw [hk, heq])⟩
  obtain ⟨σ', hσ, hσi, hσne⟩ : ∃ σ',
      σ' = update (fun j => (a j).signal) i ((a i).replied v r).signal ∧
      σ' i = ((a i).replied v r).signal ∧ ∀ j, j ≠ i → σ' j = (a j).signal :=
    ⟨_, rfl, update_self .., fun j hj => update_of_ne hj ..⟩
  refine h.of_private (G := { g with txn := .dmaWrite, own := own }) (r := (a i).replied v r) hs hof
    (by simp [Send.isPrivate]) ?_ (.inl ⟨rfl, rfl⟩) rfl ?_ ?_ ?_
  · simp [Party.take, Party.replied, Party.answered]
  · refine .of_rest (by simp [hroles i]) hfits ?_ (fun _ h => by cases h) ?_ fun _ h => by cases h
    · rw [hH, hnone]
      exact .zero fun hk => (hlost i hk).2 rfl
    · intro _ _
      rw [hH, hnone]
      rfl
  · intro j hj
    refine (h.party j).passive (.inl (hroles j)) rfl (fun hheld => hheld.of_own ?_) (.inr ?_) ?_
      fun _ h => by cases h
    · refine ⟨fun hk => (hlost j hk).1, fun hk => (hkeep ?_).trans hk⟩
      rw [hk]
      exact fun heq => hj (Option.some.inj heq)
    · rw [htxn]
    · rw [htxn]
      exact id
  · rw [← hσ]
    refine ⟨?_, hroles, hmemory, hwritten, ?_, t, hst, hd, hsharers, ?_, htrigger⟩
    · intro j
      by_cases hj : j = i
      · subst hj
        rw [hσi]
        obtain ⟨h1, h2, -, -⟩ := hq j
        refine ⟨h1, h2, absurd rfl, fun m hm => ?_⟩
        cases hm
        exact hans
      · rw [hσne j hj]
        exact hq j
    · intro k hk
      obtain ⟨hk, hki⟩ := hlost k hk
      rw [hσne k hki]
      exact howner k hk
    · rw [hcount]
      exact_mod_cast (answer_counts hprobe hanswer hσi hσne).symm

/-! ## GETS requests that were put aside -/

omit [DecidableEq ι] [Fintype ι] in
/-- An owner can share its copy. -/
theorem View.holding_share {c : Holding L} (hp : v.mode.probed)
    (hc : v.holding = some c) (ho : c.owned) :
    v.mode.supplies = true ∧ v.share.holding = some { c with excl := false } ∧ c.blk = v.blk := by
  rw [View.holding, Option.map_eq_some_iff] at hc
  obtain ⟨d, hd, rfl⟩ := hc
  cases hv : v.mode with
  | ISM | SS | M_W | MM_W =>
    rw [hv] at hp
    cases hp
  | I | S | IM | SM | IS | II =>
    rw [hv] at hd
    cases hd <;> cases ho
  | O | OM | OI | M | MM | MI =>
    rw [hv] at hd
    cases hd
    refine ⟨rfl, ?_, rfl⟩
    simp [View.share, View.holding, hv, Mode.copy]

omit [Fintype ι] in
/-- The parties after an answer to the caches in `J`. -/
theorem after_multicast {J : Finset ι} (hi : i ∉ J) (p : Party ι L) (r : ResponseMsg ι L)
    (j : ι) : after a i p [.multicast J r] j =
      if j = i then p else if j ∈ J then (a j).push r else a j := by
  rw [after, List.foldl_cons, List.foldl_nil]
  by_cases hji : j = i
  · subst hji
    rw [if_pos rfl, if_pos rfl, Party.take, if_neg hi]
  · rw [if_neg hji, if_neg hji, Party.take]
    rfl

/-- The owner has not answered the GETS requests of the caches in `J`. -/
theorem Inv.feed_probed {J : Finset ι} {φ : ℕ} {pending : Bool} (h : Inv g a s)
    (htxn : g.txn = .feed J φ pending) (hprobe : (a i).probe ≠ none) :
    pending = true ∧ g.own = some i ∧ g.role i = .idle ∧ i ∉ J ∧
      (∀ j, g.role j = if j ∈ J then .waiting else .idle) ∧ (∀ j, (a j).unblock = none) ∧
      ∀ j, j ≠ i → (a j).probe = none := by
  have hdir := h.dir
  unfold Global at hdir
  rw [htxn] at hdir
  obtain ⟨hq, -, -, ⟨k, hown, hidle⟩, hroles, -⟩ := hdir
  obtain ⟨ho, rfl⟩ := (hq i).2.2.1.1 hprobe
  obtain rfl : k = i := by
    rw [ho] at hown
    exact (Option.some.inj hown).symm
  simp only [if_true] at hroles
  refine ⟨rfl, ho, hidle, fun hmem => ?_, hroles, fun j => ?_, fun j hj => ?_⟩
  · have hr := hroles k
    rw [if_pos hmem, hidle] at hr
    cases hr
  · cases hu : (a j).unblock with
    | none => rfl
    | some m => cases ((hq j).2.2.2 m hu).2
  · by_contra hne
    have heq := ((hq j).2.2.1.1 hne).1
    rw [ho] at heq
    exact hj (Option.some.inj heq).symm

theorem step_probe_feed {J : Finset ι} {φ : ℕ} {pending : Bool} (h : Inv g a s)
    (hn : 1 < Fintype.card ι) (htxn : g.txn = .feed J φ pending)
    (hp : (a i).probe = some m) (hm : (s.node i).holds (.forward m)) :
    StepOK P g s (now, .deliver i (.forward m)) := by
  have hprobe : (a i).probe ≠ none := by
    rw [hp]
    exact Option.some_ne_none m
  obtain ⟨rfl, ho, hidle, hiJ, hroles, hunblock, hnone⟩ := h.feed_probed htxn hprobe
  have hdir := h.dir
  unfold Global at hdir
  rw [htxn] at hdir
  obtain ⟨hq, hmemory, hJ, -, -, t, hst, hd, hcount, htrigger⟩ := hdir
  have hparty := h.party i
  have hmsg := hparty.probe m hp
  rw [htxn] at hmsg
  obtain ⟨hmt, hmerged, hsilent, hτ, hφ⟩ : m.type = .MERGED_GETS ∧ m.mergedRequestors = J ∧
      m.silentAcks = 0 ∧ m.initialRequestTime = 0 ∧ m.forwardRequestTime = φ := by
    rw [← Option.some.inj hmsg]
    exact ⟨rfl, rfl, rfl, rfl, rfl⟩
  have hpassive : (g.role i).Passive := .inl hidle
  obtain ⟨hresp, hH⟩ := hparty.holdings_passive hpassive (hunblock i)
  have hheld := hparty.held
  rw [hH] at hheld
  obtain ⟨c, hc, howned⟩ := hheld.own_iff.1 ho
  obtain ⟨-, hheld, hother⟩ := hheld.owns hc howned
  obtain ⟨hsupplies, hshare, hblk⟩ :=
    View.holding_share (hpassive.probed hparty.role) hc howned
  have hexpects : (a i).view.ExpectsForward (P.env now i) m := by
    rw [View.ExpectsForward, hmt]
    exact hsupplies
  rcases deliver_spec (P := P) now h.of hn hm hexpects with
    hs | ⟨v', sent, hr, -, hspec⟩
  · exact .refl h hs
  obtain ⟨r, rfl, rfl, hrt, hracks, hrblk, hrfits, hsender⟩ : ∃ r : ResponseMsg ι L,
      sent = [.multicast m.mergedRequestors r] ∧ v' = (a i).view.share ∧
      r.type = .DATA_SHARED ∧ r.acks = Fintype.card ι ∧ r.dataBlk = g.cur ∧
      r.Fits false 0 φ ∧ r.sender = .cache i := by
    have hcard : (0 : ℤ) < Fintype.card ι := by omega
    cases hr with
    | merged _ =>
      refine ⟨_, rfl, rfl, rfl, rfl, ?_, ?_, rfl⟩
      · exact hblk.symm.trans (hheld.blk c (Multiset.mem_singleton_self c))
      · exact ⟨.inr (.inr (.inr ⟨rfl, .inr rfl⟩)), hcard, hsilent, .inl hτ, .inr hφ, trivial⟩
    | probeX ht | probeS mig ht | wbAck ht | wbNack ht => rw [hmt] at ht; cases ht
  have hdrop : { (a i).drop (.forward m) with view := (a i).view.share } =
      (a i).answered (a i).view.share := by
    rw [Party.drop, if_pos hp]
    rfl
  rw [hdrop, hmerged] at hspec
  obtain ⟨node, hs, hof⟩ := hspec ⟨trivial, trivial⟩
  have hrhold : r.holding false = some ⟨false, false, r.dataBlk, r.dirty⟩ := by
    rw [ResponseMsg.holding, hrt]
  obtain ⟨g', htxn', hroleJ, hrole, hown', hexcl', hcur', hw'⟩ : ∃ g' : Ghost ι L,
      g'.txn = .feed J φ false ∧ (∀ j, j ∈ J → g'.role j = .active false 0 φ 0 0) ∧
      (∀ j, j ∉ J → g'.role j = .idle) ∧ g'.own = g.own ∧ g'.excl = false ∧
      g'.cur = g.cur ∧ g'.dmaWritten = g.dmaWritten :=
    ⟨⟨.feed J φ false, fun j => if j ∈ J then .active false 0 φ 0 0 else .idle, g.own, false,
      g.cur, g.dmaWritten⟩, rfl, fun j hj => if_pos hj, fun j hj => if_neg hj, rfl, rfl, rfl,
      rfl⟩
  refine ⟨g', _, _, hs, ⟨hof, ?_, ?_, ?_⟩, ⟨_, rfl, .inl (.inl ⟨rfl, hcur'⟩)⟩, ?_⟩
  · intro j
    rw [after_multicast hiJ]
    by_cases hji : j = i
    · -- the owner
      subst hji
      rw [if_pos rfl]
      refine hparty.of_answered hpassive (hunblock j) ((hrole j hiJ).trans hidle.symm) ?_ ?_ ?_ ?_
      · have hrole := hparty.role
        rw [hidle] at hrole ⊢
        exact ⟨⟨hrole.1.trigger, hrole.1.responses⟩, hrole.2.share⟩
      · rw [hown', hexcl', hcur', hshare]
        exact hheld.share howned
      · rw [htxn']
        exact fun hc => by cases hc
      · rw [htxn']
        exact fun b hb => by cases hb
    · rw [if_neg hji]
      by_cases hj : j ∈ J
      · -- a cache that waits
        rw [if_pos hj]
        have hw : g.role j = .waiting := (hroles j).trans (if_pos hj)
        obtain ⟨hrolej, hheldj, -, hsourcej, -, -, -⟩ := h.party j
        rw [hw] at hrolej hheldj hsourcej
        obtain ⟨hrests, hreq, hgrant, hstarts⟩ := hrolej
        have hmode := hstarts.mode
        rw [if_neg (by simp)] at hmode
        have hA := hstarts.active 0 φ hn rfl hrests hreq hgrant (hnone j hji) (hunblock j)
        rw [hmode] at hA
        refine (h.party j).supply 0 0 hA hrfits ?_ ?_ le_rfl (hroleJ j hj) ?_ ?_ ?_ ?_ ?_
        · rw [hracks]
          simp [Mode.got]
        · simp [Mode.got, ResponseMsg.isData, hrt, isData]
        · rw [hown', hexcl', hcur', hrhold]
          exact (hheldj.of_shared (hother hji)).cons_shared hrblk rfl rfl
        · rw [hexcl']
          exact fun he => by cases he
        · rw [hown']
          refine fun o heq => (hsourcej o heq).push fun _ _ => ?_
          rw [ho] at heq
          cases heq
          exact hsender
        · rw [htxn']
          rfl
        · rw [htxn']
          exact fun b hb => by cases hb
      · rw [if_neg hj]
        have hi : g.role j = .idle := (hroles j).trans (if_neg hj)
        refine (h.party j).passive (.inl hi) ((hrole j hj).trans hi.symm) ?_
          (.inl (hnone j hji)) ?_ ?_
        · rw [hown', hexcl', hcur']
          exact fun hheld => hheld.of_shared (hother hji)
        · rw [htxn']
          exact fun hc => by cases hc
        · rw [htxn']
          exact fun b hb => by cases hb
  · have hsignal : update (fun j => (a j).signal) i ((a i).answered (a i).view.share).signal =
        fun j => { (a j).signal with probe := none } := by
      funext j
      rw [update_apply]
      split
      · rename_i hj
        subst hj
        rfl
      · rename_i hj
        rw [← show (a j).signal.probe = none from hnone j hj]
    rw [after_signal _ (.inr ⟨J, rfl⟩), hsignal]
    unfold Global
    rw [htxn']
    refine ⟨?_, hmemory, fun _ => hJ rfl, ⟨i, hown'.trans ho, hrole i hiJ⟩, ?_, t, hst, hd, ?_,
      htrigger⟩
    · intro j
      obtain ⟨h1, h2, -, -⟩ := hq j
      refine ⟨h1, h2, ⟨fun hne => absurd rfl hne, fun hf => by cases hf.2⟩, fun m hm => ?_⟩
      rw [show (a j).signal.unblock = none from hunblock j] at hm
      cases hm
    · intro j
      by_cases hj : j ∈ J
      · exact .inr (hroleJ j hj)
      · exact .inl (hrole j hj)
    · rw [hcount]
      have hsame : tally (fun ρ => decide (ρ ≠ Role.idle)) g'.role =
          tally (fun ρ => decide (ρ ≠ Role.idle)) g.role := by
        refine tally_congr fun j => ?_
        rw [hroles j]
        by_cases hj : j ∈ J
        · rw [hroleJ j hj, if_pos hj]
          rfl
        · rw [hrole j hj, if_neg hj]
      rw [hsame]
      rfl
  · rw [hw']
    exact h.writes
  · exact hw'

/-! ## Write-backs -/

omit [DecidableEq ι] [Fintype ι] in
/-- A cache whose write-back is granted or refused. -/
theorem Idle.granted {n : ℕ} {j : ι} {q : Option (RequestMsg ι)} {o : Option CoherenceRequestType}
    {t : CoherenceRequestType} (h : Idle n j v q o) (ho : o = some t) :
    q = none ∧ (t = .WB_ACK ∧ v.mode.leaving = true ∨ t = .WB_NACK ∧ v.mode = .II) := by
  cases h with
  | rest | get | put => cases ho
  | acked hm _ =>
    cases ho
    exact ⟨rfl, .inl ⟨rfl, hm⟩⟩
  | nacked hm _ =>
    cases ho
    exact ⟨rfl, .inr ⟨rfl, hm⟩⟩

/-- A write-back is granted to the cache that the directory waits for. -/
theorem Global.granted {σ : ι → Signal ι L} {b : Hub ι L} (h : Global g σ b)
    (hi : (σ i).grant = some .WB_ACK) : g.txn = .writeBack i := by
  have hquiet (hq : (σ i).Quiet) (R : Prop) : R := absurd hi hq.grant
  unfold Global at h
  cases htxn : g.txn with rw [htxn] at h
  | idle => exact hquiet (h.1 i) _
  | serve => exact absurd hi (h.1 i).2.2
  | close => exact absurd hi (h.1 i).2.2
  | feed => exact absurd hi (h.1 i).2.1
  | dmaRead => exact absurd hi (h.1 i).2.1
  | dmaWrite => exact absurd hi (h.1 i).2.1
  | memoryWrite => exact hquiet (h.1 i) _
  | writeBack k =>
    by_cases hk : i = k
    · rw [hk]
    · exact hquiet (h.1 i hk) _

omit [DecidableEq ι] [Fintype ι] in
/-- A write-back carries the copy of the cache. -/
theorem View.holding_putAnswer (hv : v.mode.leaving) (env : Env ι) :
    (v.putAnswer env).holding false = v.holding ∧ ((v.putAnswer env).type = .UNBLOCK ∨
        (∃ c, v.holding = some c ∧ c.owned = true) ∧ (v.putAnswer env).WritesBack) := by
  obtain ⟨mode, blk, dirty, need, sharers, last, owner, τ, φ⟩ := v
  cases mode <;> cases hv <;> cases dirty <;>
    simp [putAnswer, holding, ResponseMsg.holding, Mode.copy, ResponseMsg.WritesBack]

theorem step_grant {t : CoherenceRequestType} (h : Inv g a s) (hn : 1 < Fintype.card ι)
    (hg : (a i).grant = some t) (hp : (a i).probe ≠ some (grantMsg i t))
    (hm : (s.node i).holds (.forward (grantMsg i t))) :
    StepOK P g s (now, .deliver i (.forward (grantMsg i t))) := by
  have hparty := h.party i
  have hrole : g.role i = .idle := by
    have hr := hparty.role
    cases hr' : g.role i with
    | idle => rfl
    | waiting =>
      rw [hr'] at hr
      rw [hr.2.2.1] at hg
      cases hg
    | active x τ φ due owed =>
      rw [hr'] at hr
      rw [hr.grant] at hg
      cases hg
  have hfits := hparty.role
  rw [hrole] at hfits
  obtain ⟨hrests, hidle⟩ := hfits
  obtain ⟨hreq, hcase⟩ := hidle.granted hg
  have hexpects : (a i).view.ExpectsForward (P.env now i) (grantMsg i t) := by
    rcases hcase with ⟨rfl, hv⟩ | ⟨rfl, hv⟩ <;> exact hv
  rcases deliver_spec (P := P) now h.of hn hm hexpects with
    hs | ⟨v', sent, hr, -, hspec⟩
  · exact .refl h hs
  have hdrop (v : View ι L) : { (a i).drop (.forward (grantMsg i t)) with view := v } =
      { a i with view := v, grant := none } := by
    rw [Party.drop, if_neg hp]
  rw [hdrop] at hspec
  rcases hcase with ⟨rfl, hv⟩ | ⟨rfl, hv⟩
  · obtain ⟨rfl, rfl⟩ : v' = {} ∧ sent = [.unblock ((a i).view.putAnswer (P.env now i))] := by
      cases hr with
      | wbAck _ => exact ⟨rfl, rfl⟩
      | probeX ht | probeS mig ht | merged ht | wbNack ht => cases ht
    have hdir := h.dir
    have htxn := hdir.granted (i := i) (by rw [Party.signal, hg]; rfl)
    unfold Global at hdir
    rw [htxn] at hdir
    obtain ⟨hq, hroles, htrigger, hmemory, hd, hown, hprobe, hanswer, hstate⟩ := hdir
    obtain ⟨-, hunblock⟩ : (a i).signal.grant = some .WB_ACK ∧ (a i).unblock = none := by
      refine hstate.resolve_right fun hne => hne.1 ?_
      show (a i).grant.filter _ = _
      rw [hg]
      rfl
    obtain ⟨node, hs, hof⟩ := hspec ⟨hunblock, trivial⟩
    obtain ⟨hhold, htype⟩ := View.holding_putAnswer hv (P.env now i)
    have hH := hrests.holdings false
    rw [hunblock, Option.bind_none, bag_none, add_zero] at hH
    have hheld := hparty.held
    rw [hrole] at hheld
    change Held _ _ _ _ _ ((a i).holdings false) at hheld
    rw [hH] at hheld
    generalize (a i).view.putAnswer (P.env now i) = r at *
    refine h.of_private (G := g) (r := { a i with view := {}, grant := none, unblock := some r })
      hs hof (by simp [Send.isPrivate]) (by simp [Party.take]) (.inl ⟨rfl, rfl⟩) rfl ?_
      (fun j _ => h.party j) ?_
    · refine hparty.of_idle hrole ⟨hrests.trigger, hrests.responses⟩ ?_ ?_ rfl rfl
      · show Idle _ _ _ (a i).request none
        rw [hreq]
        exact .rest rfl ⟨rfl, rfl, rfl⟩
      · rw [hH]
        simp [Party.holdings, hrests.responses, hhold, View.holding, Mode.copy]
    · unfold Global
      rw [htxn]
      refine ⟨?_, hroles, htrigger, hmemory, hd, hown, ?_, ?_, .inr ⟨?_, r, ?_, ?_⟩⟩
      · intro j hj
        rw [update_of_ne hj]
        exact hq j hj
      · rw [update_self]
        exact hprobe
      · rw [update_self]
        exact hanswer
      · rw [update_self]
        exact fun heq => by cases heq
      · rw [update_self]
        rfl
      · exact htype.imp_right fun hw => ⟨hheld.own_iff.2 hw.1, hw.2⟩
  · obtain ⟨rfl, rfl⟩ : v' = {} ∧ sent = [] := by
      cases hr with
      | wbNack _ => exact ⟨rfl, rfl⟩
      | probeX ht | probeS mig ht | merged ht | wbAck ht => cases ht
    obtain ⟨node, hs, hof⟩ := hspec trivial
    refine h.settles (r := { a i with view := {}, grant := none }) hs hof (by simp) rfl ?_
      ⟨g.cur, .inl ⟨rfl, rfl⟩, .inl ⟨rfl, ?_⟩⟩
    · rw [Party.signal, Party.signal, hg]
      rfl
    · refine hparty.of_idle hrole ⟨hrests.trigger, hrests.responses⟩ ?_ ?_ rfl rfl
      · show Idle _ _ _ (a i).request none
        rw [hreq]
        exact .rest rfl ⟨rfl, rfl, rfl⟩
      · simp [Party.holdings, View.holding, Mode.copy, hv]

/-- Every message to a cache is taken, or waits. -/
theorem step_deliver (h : Inv g a s) (hn : 1 < Fintype.card ι) (m : Message ι L) :
    StepOK P g s (now, .deliver i m) := by
  by_cases hm : (s.node i).holds m = true
  case neg =>
    refine .refl h ?_
    simp [step, hm]
    rfl
  case pos =>
  cases m with
  | trigger t => exact step_trigger h hn hm
  | response r => exact step_response h hn hm
  | forward m =>
    by_cases hp : (a i).probe = some m
    · have hprobe := (h.party i).probe m hp
      cases htxn : g.txn with
      | serve k x τ φ => exact step_probe_serve h hn htxn hp hm
      | feed J φ pending => exact step_probe_feed h hn htxn hp hm
      | dmaRead b => exact step_probe_read h hn htxn hp hm
      | dmaWrite => exact step_probe_write h hn htxn hp hm
      | idle | close | writeBack | memoryWrite =>
        rw [htxn] at hprobe
        cases hprobe
    · obtain ⟨t, hg, rfl⟩ := ((h.of i).mem hm).resolve_left hp
      exact step_grant h hn hg hp hm

end Gem5Gpu.VIHammer
