import Gem5Gpu.VIHammer.NodeSteps

/-!
# Requests from the processor side

Loads and stores that hit, requests for a copy, replacements, and blocks that move
between the caches of a CPU.  None of them concerns another cache.
-/

namespace Gem5Gpu.VIHammer


open Lib Directory

variable {ι : Type} [DecidableEq ι] {L : ℕ} {P : Params} {g : Ghost ι L}
  {a : ι → Party ι L} {s : Sys ι L} {i : ι} {now : ℕ}

section Demand

variable {n : ℕ} {mem : Prop} {j : ι} {p : Party ι L} {env : Env ι} {v v' : View ι L}

omit [DecidableEq ι] in
/-- A party without a TBE has no business with the directory. -/
theorem Idle.resting {q : Option (RequestMsg ι)} {t : Option CoherenceRequestType}
    (h : Idle n j v q t) (hv : v.mode.resting) : q = none ∧ t = none := by
  have hleaving (hm : v.mode.leaving = true) : q = none ∧ t = none := by
    rw [Mode.resting_of_leaving hm] at hv
    cases hv
  cases h with
  | rest _ _ => exact ⟨rfl, rfl⟩
  | get x τ hs =>
    have hmode := hs.mode
    cases x <;> simp_all [Mode.resting]
    rcases hmode with hm | hm | hm <;> rw [hm] at hv <;> cases hv
  | put hm | acked hm => exact hleaving hm
  | nacked hm _ => exact hleaving (by rw [hm]; rfl)

theorem PartyOK.resting (h : PartyOK n g mem j p) (hv : p.view.mode.resting) :
    g.role j = .idle ∧ Rests p ∧ p.view.Plain ∧ p.request = none ∧ p.grant = none := by
  have hrole := h.role
  cases hr : g.role j with
  | idle =>
    rw [hr] at hrole
    exact ⟨rfl, hrole.1, hrole.2.plain, hrole.2.resting hv⟩
  | waiting =>
    rw [hr] at hrole
    have hmode := hrole.2.2.2.mode
    rw [if_neg (by simp)] at hmode
    rw [hmode] at hv
    cases hv
  | active x τ φ due owed =>
    rw [hr] at hrole
    rw [Mode.resting_of_getting (Mode.getting_of_fits hrole.mode)] at hv
    cases hv

/-- Where the block is in a CPU cache does not matter. -/
theorem PartyOK.of_move (h : PartyOK n g mem j p) (k : Move) :
    PartyOK n g mem j { p with move := k } := by
  refine ⟨?_, h.held, h.calm, h.source, h.probe, h.cleared, h.seen⟩
  have hrole := h.role
  cases hr : g.role j with
  | idle | waiting =>
    rw [hr] at hrole
    exact ⟨⟨hrole.1.trigger, hrole.1.responses⟩, hrole.2⟩
  | active x τ φ due owed =>
    rw [hr] at hrole
    exact { hrole with }

omit [DecidableEq ι] in
/-- The copies of a party that no responses are on their way to. -/
theorem Rests.holdings (h : Rests p) (x : Bool) :
    p.holdings x = bag p.view.holding + bag (p.unblock.bind (·.holding x)) := by
  simp [Party.holdings, h.responses]

/-- An idle party whose copy stays the same. -/
theorem PartyOK.of_idle {p' : Party ι L} (h : PartyOK n g mem j p) (hr : g.role j = .idle)
    (hrests : Rests p') (hidle : Idle n j p'.view p'.request p'.grant)
    (hold : p'.holdings false = p.holdings false) (hprobe : p'.probe = p.probe)
    (hanswer : p'.answer = p.answer) : PartyOK n g mem j p' := by
  have hheld := h.held
  have hcleared := h.cleared
  have hseen := h.seen
  rw [hr] at hheld hcleared hseen
  refine .of_rest (by simp [hr]) ?_ ?_ ?_ ?_ ?_
  · rw [hr]
    exact ⟨hrests, hidle⟩
  · rw [hold]
    exact hheld
  · rw [hprobe]
    exact h.probe
  · rw [hprobe, hold]
    exact hcleared
  · rw [hprobe, hold, hanswer]
    exact hseen

/-- The exclusive owner performs a store. -/
theorem PartyOK.of_store {r : Party ι L} {c : Holding L} (h : PartyOK n g mem j p)
    (hc : p.view.holding = some c) (hexcl : c.excl) (hown : c.owned) {d : DataBlock L}
    (hc' : r.view.holding = some ⟨true, true, d, true⟩) (hresponses : r.responses = p.responses)
    (hunblock : r.unblock = p.unblock) (hprobe : r.probe = p.probe) (hanswer : r.answer = p.answer)
    (hsharers : r.view.sharers = p.view.sharers) (hfits : (g.role j).Fits n j r) :
    g.own = some j ∧ g.excl = true ∧ ∀ mem', PartyOK n { g with cur := d } mem' j r := by
  have hmem := Party.mem_holdings_view (x := (g.role j).x) hc
  have he : g.excl = true := h.held.excl c hmem hexcl
  have ho : g.own = some j := h.held.own_eq hmem hown
  obtain ⟨c', hH, -⟩ := h.held.eq_singleton he ho
  have hne : p.holdings (g.role j).x ≠ 0 := by
    rw [hH]
    exact Multiset.singleton_ne_zero c'
  -- nothing but the copy in the cache
  have hrest : p.responses.filterMap (·.holding (g.role j).x) +
      bag (p.unblock.bind (·.holding (g.role j).x)) = 0 := by
    have hcard := congrArg Multiset.card hH
    rw [Party.holdings, hc, bag_some, add_assoc, Multiset.card_add, Multiset.card_singleton,
      Multiset.card_singleton] at hcard
    exact Multiset.card_eq_zero.1 (by omega)
  have hH' : r.holdings (g.role j).x = {⟨true, true, d, true⟩} := by
    rw [Party.holdings, hc', hresponses, hunblock, add_assoc, hrest]
    rfl
  have hSS : r.view.mode ≠ .SS := by
    intro hs
    rw [View.holding, hs] at hc'
    cases hc'
  refine ⟨ho, he, fun mem' => ⟨hfits, ?_, ?_, ?_, ?_, ?_, ?_⟩⟩
  · show Held g.own _ _ _ _ (r.holdings (g.role j).x)
    rw [hH', ho]
    exact .singleton rfl rfl (fun _ => he) (fun hd => by cases hd)
  · intro _
    rw [hsharers, hresponses]
    exact h.calm he
  · intro k hk
    refine ⟨fun hs => absurd hs hSS, ?_⟩
    rw [hresponses]
    exact (h.source k hk).2
  · rw [hprobe]
    exact h.probe
  · intro hcl hp
    rw [hprobe] at hp
    exact absurd (h.cleared hcl hp) hne
  · intro b hb hp _
    rw [hprobe] at hp
    rw [hanswer]
    exact h.seen b hb hp hne

theorem Settles.nothing (h : PartyOK n g mem j p) : Settles n g mem j p [] :=
  ⟨g.cur, .inl ⟨rfl, rfl⟩, .inl ⟨rfl, h⟩⟩

/-- A request is sent, and the copy stays. -/
theorem PartyOK.asks (h : PartyOK n g mem j p) (k : Move) {q : RequestMsg ι}
    (hv : p.view.mode.resting) (hold : v'.holding = p.view.holding)
    (hidle : Idle n j v' (some q) none) :
    Reacted n g mem j p { p with view := v', move := k } [.request q] := by
  obtain ⟨hrole, hrests, -, hreq, hgrant⟩ := h.resting hv
  refine ⟨{ p with view := v', move := k, request := some q }, ⟨hreq, trivial⟩, ?_, rfl,
    .nothing ?_⟩
  · simp [Party.take]
  · refine h.of_idle hrole ⟨hrests.trigger, hrests.responses⟩ ?_ ?_ rfl rfl
    · show Idle _ _ v' (some q) p.grant
      rw [hgrant]
      exact hidle
    · simp [Party.holdings, hold]

omit [DecidableEq ι] in
theorem View.holding_of_copy {c : Bool × Bool} (hc : v.mode.copy = some c) :
    v.holding = some ⟨c.1, c.2, v.blk, v.dirty⟩ := by
  rw [View.holding, hc]
  rfl

/-- A load returns the current block. -/
theorem PartyOK.loads (h : PartyOK n g mem j p) (k : Move) {c : Bool × Bool}
    (hc : p.view.mode.copy = some c) :
    Settles n g mem j { p with move := k } [.load j p.view.blk] := by
  have hcur : p.view.blk = g.cur :=
    h.held.blk _ (Party.mem_holdings_view (View.holding_of_copy hc))
  refine ⟨g.cur, .inr ⟨_, rfl, hcur, rfl, .inl ?_⟩, .inl ⟨rfl, h.of_move k⟩⟩
  rw [hcur]
  rfl

/-- The exclusive owner performs a store on its copy. -/
theorem PartyOK.stores (h : PartyOK n g mem j p) (k : Move) {cb : Callback ι L} {md : Mode}
    (hc : p.view.mode.copy = some (true, true)) (hc' : md.copy = some (true, true))
    (hcache : cb.cache = j) (hret : cb.Returns p.view.blk)
    (hfits : (g.role j).Fits n j { p with
      view := { p.view with mode := md, blk := cb.apply p.view.blk, dirty := true }, move := k }) :
    Settles n g mem j { p with
      view := { p.view with mode := md, blk := cb.apply p.view.blk, dirty := true }
      move := k } [cb] := by
  have hcopy := View.holding_of_copy hc
  have hcur : p.view.blk = g.cur := h.held.blk _ (Party.mem_holdings_view hcopy)
  obtain ⟨ho, he, hparty⟩ := h.of_store (r := { p with
      view := { p.view with mode := md, blk := cb.apply p.view.blk, dirty := true }, move := k })
    hcopy rfl rfl (d := cb.apply p.view.blk) (by simp only [View.holding, hc', Option.map_some])
    rfl rfl rfl rfl rfl hfits
  rw [hcur] at hret
  refine ⟨cb.apply g.cur, .inr ⟨cb, rfl, hret, rfl, .inr ⟨he, ?_⟩⟩, .inr ⟨ho, he, ?_⟩⟩
  · rw [hcache]
    exact ho
  · rw [← hcur]
    exact hparty

/-- A party stays in order when it takes a request from its processor side. -/
theorem react_demand {sent : List (Send ι L)} (h : PartyOK n g mem j p) (k : Move)
    (hj : env.machineID = j) (hn : env.machineCount = n) (hr : Serves env p.view v' sent) :
    Reacted n g mem j p { p with view := v', move := k } sent := by
  subst hj hn
  cases hr with
  | nothing => exact ⟨_, trivial, rfl, rfl, .nothing (h.of_move k)⟩
  | load hv =>
    refine ⟨_, ⟨trivial, trivial⟩, rfl, rfl, ?_⟩
    have hsome : ∃ c, p.view.mode.copy = some c := by
      rcases hv with hv | hv | hv | hv | ⟨hg, h1, h2⟩
      · exact ⟨_, by rw [hv]; rfl⟩
      · exact ⟨_, by rw [hv]; rfl⟩
      · exact ⟨_, by rw [hv]; rfl⟩
      · exact ⟨_, by rw [hv]; rfl⟩
      · cases hm : p.view.mode <;> rw [hm] at hg h1 h2 <;> simp_all [Mode.getting, Mode.copy]
    obtain ⟨c, hc⟩ := hsome
    exact h.loads k hc
  | store cb hv hcache hret =>
    refine ⟨_, ⟨trivial, trivial⟩, rfl, rfl, ?_⟩
    have hrest : p.view.mode.resting = true := by
      rcases hv with hv | hv <;> rw [hv] <;> rfl
    obtain ⟨hrole, hrests, hplain, hreq, hgrant⟩ := h.resting hrest
    refine h.stores k ?_ rfl hcache hret ?_
    · rcases hv with hv | hv <;> rw [hv] <;> rfl
    · rw [hrole]
      refine ⟨⟨hrests.trigger, hrests.responses⟩, ?_⟩
      show Idle _ _ _ p.request p.grant
      rw [hreq, hgrant]
      exact .rest rfl hplain
  | storeEarly cb hv hcache hret =>
    refine ⟨_, ⟨trivial, trivial⟩, rfl, rfl, ?_⟩
    refine h.stores k ?_ rfl hcache hret ?_
    · rcases hv with hv | hv <;> rw [hv] <;> rfl
    · have hrole := h.role
      have hprobed : p.view.mode.probed = false := by
        rcases hv with hv | hv <;> rw [hv] <;> rfl
      cases hr : g.role env.machineID with
      | idle =>
        rw [hr] at hrole
        rw [hrole.2.probed] at hprobed
        cases hprobed
      | waiting =>
        rw [hr] at hrole
        have hmode := hrole.2.2.2.mode
        rw [if_neg (by simp)] at hmode
        rw [hmode] at hprobed
        cases hprobed
      | active x τ φ due owed =>
        rw [hr] at hrole
        have hgot : p.view.mode.got = 1 := by
          rcases hv with hv | hv <;> rw [hv] <;> rfl
        have hdata := hrole.data
        rw [hgot] at hdata
        refine { hrole with mode := rfl, data := hdata, last := ?_ }
        exact hrole.last.imp_right fun hl => ⟨by simp, hl.2⟩
  | getS d dirty hv =>
    exact h.asks k (by rw [hv]; rfl) (by rw [View.holding, View.holding, hv]; rfl)
      (.get false env.curCycle ⟨rfl, rfl, rfl, rfl, rfl⟩)
  | getX d dirty hv =>
    exact h.asks k (by rw [hv]; rfl) (by rw [View.holding, View.holding, hv]; rfl)
      (.get true env.curCycle ⟨.inl rfl, rfl, rfl, rfl, rfl⟩)
  | upgradeS hv =>
    obtain ⟨-, -, hplain, -⟩ := h.resting (by rw [hv]; rfl)
    exact h.asks k (by rw [hv]; rfl) (by rw [View.holding, View.holding, hv]; rfl)
      (.get true env.curCycle ⟨.inr (.inl rfl), rfl, hplain⟩)
  | upgradeO hv =>
    obtain ⟨-, -, hplain, -⟩ := h.resting (by rw [hv]; rfl)
    exact h.asks k (by rw [hv]; rfl) (by rw [View.holding, View.holding, hv]; rfl)
      (.get true env.curCycle ⟨.inr (.inr rfl), rfl, hplain⟩)
  | putO hv =>
    obtain ⟨-, -, hplain, -⟩ := h.resting (by rw [hv]; rfl)
    exact h.asks k (by rw [hv]; rfl) (by rw [View.holding, View.holding, hv]; rfl) (.put rfl hplain)
  | putM hv =>
    have hrest : p.view.mode.resting = true := by
      rcases hv with hv | hv <;> rw [hv] <;> rfl
    obtain ⟨-, -, hplain, -⟩ := h.resting hrest
    refine h.asks k hrest ?_ (.put rfl hplain)
    rw [View.holding, View.holding]
    rcases hv with hv | hv <;> rw [hv] <;> rfl
  | drop hv =>
    obtain ⟨hrole, hrests, -, hreq, hgrant⟩ := h.resting (by rw [hv]; rfl)
    refine ⟨_, trivial, rfl, rfl, .nothing ?_⟩
    have hH : p.holdings false =
        ⟨false, false, p.view.blk, p.view.dirty⟩ ::ₘ bag (p.unblock.bind (·.holding false)) := by
      rw [hrests.holdings, View.holding, hv]
      rfl
    have hH' : ({ p with view := {}, move := k } : Party ι L).holdings false =
        bag (p.unblock.bind (·.holding false)) := by
      simp [Party.holdings, hrests.responses, View.holding, Mode.copy]
    have hheld := h.held
    have hcleared := h.cleared
    have hseen := h.seen
    rw [hrole] at hheld hcleared hseen
    change Held _ _ _ _ _ (p.holdings false) at hheld
    refine .of_rest (by simp [hrole]) ?_ ?_ h.probe ?_ ?_
    · rw [hrole]
      refine ⟨⟨hrests.trigger, hrests.responses⟩, ?_⟩
      show Idle _ _ _ p.request p.grant
      rw [hreq, hgrant]
      exact .rest rfl ⟨rfl, rfl, rfl⟩
    · rw [List.foldl_nil, hH']
      rw [hH] at hheld
      refine hheld.of_le (Multiset.le_cons_self _ _) ?_
      rw [← hheld.owner, Multiset.countP_cons_of_neg]
      simp
    · intro hcl hp
      have hzero := hcleared hcl hp
      change p.holdings false = 0 at hzero
      rw [hH] at hzero
      exact absurd hzero (Multiset.cons_ne_zero)
    · intro b hb hp _
      refine hseen b hb hp ?_
      show p.holdings false ≠ 0
      rw [hH]
      exact Multiset.cons_ne_zero

omit [DecidableEq ι] in
/-- What a cache does for its processor side concerns it alone. -/
theorem Serves.isPrivate {sent : List (Send ι L)} (hr : Serves env v v' sent) :
    ∀ m ∈ sent, Send.isPrivate m := by
  cases hr <;> simp [Send.isPrivate]

end Demand

variable [Fintype ι]

theorem step_demand (h : Inv g a s) (d : Demand L) : StepOK P g s (now, .demand i d) := by
  rcases demand_spec (P := P) (i := i) now d h.of with
    ⟨node, hs, hof⟩ | ⟨v', k', sent, hr, -, hspec⟩
  · exact h.settles hs hof (by simp) rfl rfl
      ⟨g.cur, .inl ⟨rfl, rfl⟩, .inl ⟨rfl, (h.party i).of_move .transfer⟩⟩
  · obtain ⟨p', hrooms, hp, hsignal, hset⟩ := react_demand (h.party i) k' rfl rfl hr
    obtain ⟨node, hs, hof⟩ := hspec hrooms
    exact h.settles hs hof hr.isPrivate hp hsignal hset

/-- A block that moves between the caches of a CPU arrives. -/
theorem step_transfer (h : Inv g a s) (hk : (a i).move = .transfer) :
    StepOK P g s (now, .deliver i (.trigger .L2_to_L1)) := by
  have hrest := (h.of i).sees.resting (by rw [hk]; simp)
  obtain ⟨-, hrests, -⟩ := (h.party i).resting hrest
  obtain ⟨node, hs, hof⟩ := transfer_spec (P := P) now h.of hk hrests.trigger
  exact h.settles hs hof (by simp) rfl rfl
    ⟨g.cur, .inl ⟨rfl, rfl⟩, .inl ⟨rfl, (h.party i).of_move .ready⟩⟩

end Gem5Gpu.VIHammer
