import Gem5Gpu.VIHammer.Responses

/-!
# Steps of the caches

Every step of a cache keeps the invariant.  A step that concerns one cache alone
is one of `Settles`; the end of a request and the answer to a forwarded request
change what the directory waits for as well.
-/

namespace Gem5Gpu.VIHammer


open Lib Directory Function

variable {ι : Type} [DecidableEq ι] [Fintype ι] {L : ℕ} {l : List (Send ι L)} {m : ResponseMsg ι L}
  {e : ℕ × Act ι L} {p : Party ι L}

/-- How the current block and the history change with a step.  A DMA write sets the
current block. -/
structure Evolves (g g' : Ghost ι L) (s s' : Sys ι L) : Prop where
  history : ∃ l, s'.history = s.history ++ l ∧ (Performs g g' l ∨ l = [] ∧ g'.dmaWritten = true)
  written : g'.dmaWritten = g.dmaWritten

/-- A step has no fault and keeps the invariant. -/
def StepOK (P : Params) (g : Ghost ι L) (s : Sys ι L) (e : ℕ × Act ι L) : Prop :=
  ∃ g' a' s', step P s e = .ok s' ∧ Inv g' a' s' ∧ Evolves g g' s s'

variable {P : Params} {g : Ghost ι L} {a : ι → Party ι L} {s : Sys ι L} {i : ι} {now : ℕ}

/-- A step that changes nothing. -/
theorem StepOK.refl (h : Inv g a s) (hs : step P s e = .ok s) :
    StepOK P g s e :=
  ⟨g, a, s, hs, h, ⟨[], (List.append_nil _).symm, .inl (.inl ⟨rfl, rfl⟩)⟩, rfl⟩

/-- A message that the cache sends to itself, to the directory or to the outside. -/
def Send.isPrivate : Send ι L → Bool
  | .response (.cache _) _ | .multicast _ _ => false
  | _ => true

omit [Fintype ι] in
/-- A transition that concerns one cache alone. -/
theorem after_private (hl : ∀ m ∈ l, Send.isPrivate m) :
    after a i p l = update a i (l.foldl (Party.take i i) p) := by
  funext j
  rw [after]
  by_cases hj : j = i
  · subst hj
    rw [if_pos rfl, update_self]
  · rw [if_neg hj, update_of_ne hj]
    induction l with
    | nil => rfl
    | cons m l ih =>
      have hm : (a j).take i j m = a j := by
        have hpriv := hl m List.mem_cons_self
        cases m with
        | response dest m =>
          cases dest with
          | cache k => cases hpriv
          | directory => exact if_neg hj
          | dma | unset => rfl
        | multicast dest m => cases hpriv
        | callback c => rfl
        | request m | unblock m | trigger t => exact if_neg hj
      rw [List.foldl_cons, hm]
      exact ih fun k hk => hl k (List.mem_cons_of_mem m hk)

/-! ## Stores -/

omit [Fintype ι] in
/-- A store of the exclusive owner does not concern the other caches. -/
theorem PartyOK.store {n : ℕ} {mem : Prop} {j : ι}
    (h : PartyOK n g mem j p) (hexcl : g.excl) (hown : g.own ≠ some j)
    (c : DataBlock L) (mem' : Prop) : PartyOK n { g with cur := c } mem' j p := by
  refine ⟨h.role, ?_, h.calm, h.source, h.probe, h.cleared, h.seen⟩
  show Held g.own g.excl c mem' j (p.holdings (g.role j).x)
  rw [h.held.eq_zero hexcl hown]
  exact .zero hown

/-- A store of the exclusive owner does not concern the directory. -/
theorem Global.store {σ : ι → Signal ι L} {b : Hub ι L} (h : Global g σ b)
    (hexcl : g.excl) {k : ι} (hown : g.own = some k) (c : DataBlock L) :
    Global { g with cur := c } σ b := by
  obtain ⟨txn, role, own, excl, cur, written⟩ := g
  subst hexcl hown
  cases txn with
  | idle =>
    obtain ⟨hq, hr, ht, hm, hd⟩ := h
    refine ⟨hq, hr, ht, hm, ?_⟩
    cases hd with
    | E hd ho | O hd ho => cases ho
    | owned st hst hd k ho => exact .owned st hst hd k ho
  | serve r x τ φ =>
    obtain ⟨hq, ht, J, d, hd, hJ, hr⟩ := h
    refine ⟨hq, ht, J, d, ?_, hJ, hr⟩
    cases hd with
    | owned k ho hd hm => exact .owned k ho hd hm
    | clean hx ho | fetch t st hd hst ha hs ho => cases ho
  | close r =>
    obtain ⟨hq, hu, ht, hm, m, J, hur, hsender, hd, hr⟩ := h
    refine ⟨hq, hu, ht, hm, m, J, hur, hsender, ?_, hr⟩
    cases hd with
    | owned hd ho => exact .owned hd ho
    | clean ho => cases ho
  | feed J φ pending | dmaWrite | writeBack i => exact h
  | dmaRead seen =>
    obtain ⟨hq, hr, hseen, t, hd, hsh, howned, hn⟩ := h
    refine ⟨?_, hr, hseen, t, ?_, hsh, howned, hn⟩
    · intro j
      obtain ⟨hu, hg, hp, hans⟩ := hq j
      refine ⟨hu, hg, hp, fun m hm => ?_⟩
      have hm := hans m hm
      refine ⟨hm.type, hm.acks, ?_, ?_, hm.calm⟩
      · intro hs
        rcases hm.calm rfl with hc | hc <;> rw [hs] at hc <;> cases hc
      · intro he
        cases (hm.exclusive he).2
    · cases hd with
      | fetch st hst hd ho | fetched st hst hd ho => cases ho
      | owner hst hd hm ht hdata hkept htaken =>
        refine .owner hst hd hm ht ?_ hkept fun ho => by cases ho
        intro hdirty
        rw [(hkept k rfl).1 rfl] at hdirty
        cases hdirty
  | memoryWrite => cases h.2.2.2.1

/-- A step that concerns one cache alone. -/
theorem Inv.settles {q r : Party ι L} {node : ι → Node ι L}
    (h : Inv g a s) (hs : step P s e = .ok (s.moved node l))
    (hof : ∀ j, (after a i q l j).Of j (node j)) (hl : ∀ m ∈ l, Send.isPrivate m = true)
    (hp : l.foldl (Party.take i i) q = r) (hsignal : r.signal = (a i).signal)
    (hset : Settles (Fintype.card ι) g (s.memory = g.cur) i r (Sys.callbacks l)) :
    StepOK P g s e := by
  rw [after_private hl, hp] at hof
  have hsignals : (fun j => (update a i r j).signal) = fun j => (a j).signal := by
    funext j
    by_cases hj : j = i
    · subst hj
      rw [update_self, hsignal]
    · rw [update_of_ne hj]
  obtain ⟨cur', hperf, hcase⟩ := hset
  refine ⟨{ g with cur := cur' }, update a i r, _, hs, ⟨hof, ?_, ?_, h.writes⟩,
    ⟨_, rfl, .inl hperf⟩, rfl⟩
  · intro j
    rcases hcase with ⟨rfl, hparty⟩ | ⟨hown, hexcl, hparty⟩
    · by_cases hj : j = i
      · subst hj
        rw [update_self]
        exact hparty
      · rw [update_of_ne hj]
        exact h.party j
    · by_cases hj : j = i
      · subst hj
        rw [update_self]
        exact hparty _
      · rw [update_of_ne hj]
        refine (h.party j).store hexcl ?_ _ _
        rw [hown]
        exact fun heq => hj (Option.some.inj heq).symm
  · show Global _ (fun j => (update a i r j).signal) s.hub
    rw [hsignals]
    rcases hcase with ⟨rfl, -⟩ | ⟨hown, hexcl, -⟩
    · exact h.dir
    · exact h.dir.store hexcl hown cur'

/-! ## The other caches -/

/-- A role that the directory does not serve. -/
def Role.Passive (ρ : Role) : Prop := ρ = .idle ∨ ρ = .waiting

theorem Role.Passive.x {ρ : Role} (h : ρ.Passive) : ρ.x = false := by
  rcases h with rfl | rfl <;> rfl

omit [Fintype ι] in
/-- A party that the directory does not serve, next to a step of another one. -/
theorem PartyOK.passive {n : ℕ} {mem mem' : Prop} {j : ι} {g' : Ghost ι L}
    (h : PartyOK n g mem j p) (hpassive : (g.role j).Passive) (hrole : g'.role j = g.role j)
    (hheld : Held g.own g.excl g.cur mem j (p.holdings false) →
      Held g'.own g'.excl g'.cur mem' j (p.holdings false))
    (hprobe : p.probe = none ∨ g'.txn.probe = g.txn.probe)
    (hclears : g'.txn.clears j = true → g.txn.clears j = true)
    (hseen : ∀ b, g'.txn = .dmaRead b → ∃ b', g.txn = .dmaRead b' ∧ (b' = true → b = true)) :
    PartyOK n g' mem' j p := by
  have hx := hpassive.x
  have hheld' := h.held
  have hcleared' := h.cleared
  have hseen' := h.seen
  rw [hx] at hheld' hcleared' hseen'
  refine .of_rest ?_ ?_ (hheld hheld') ?_ ?_ ?_
  · intro x τ φ due owed hr
    rw [hrole] at hr
    rcases hpassive with hp | hp <;> rw [hp] at hr <;> cases hr
  · rw [hrole]
    exact h.role
  · intro m hm
    rcases hprobe with hp | hp
    · rw [hp] at hm
      cases hm
    · rw [hp]
      exact h.probe m hm
  · exact fun hc => hcleared' (hclears hc)
  · intro b hb hp hne
    obtain ⟨b', hb', himp⟩ := hseen b hb
    exact (hseen' b' hb' hp hne).imp_left himp

/-- The transactions in which a party is active. -/
theorem Global.active {σ : ι → Signal ι L} {b : Hub ι L} (h : Global g σ b) {x : Bool}
    {τ φ due owed : ℕ} (hr : g.role i = .active x τ φ due owed) :
    g.txn = .serve i x τ φ ∨ x = false ∧ τ = 0 ∧ ∃ J, g.txn = .feed J φ false := by
  have hidle (hi : ∀ j, g.role j = .idle) (R : Prop) : R := by
    rw [hi i] at hr
    cases hr
  unfold Global at h
  cases htxn : g.txn with rw [htxn] at h
  | idle => exact hidle h.2.1 _
  | serve r x' τ' φ' =>
    obtain ⟨-, -, J, d, -, -, hroles⟩ := h
    rw [hroles i] at hr
    split at hr
    case isTrue hi =>
      subst hi
      cases hr
      exact .inl rfl
    case isFalse =>
      split at hr <;> cases hr
  | close r =>
    obtain ⟨-, -, -, -, m, J, -, -, -, hroles⟩ := h
    rw [hroles i] at hr
    split at hr <;> cases hr
  | feed J φ' pending =>
    obtain ⟨-, -, -, -, hroles, -⟩ := h
    have hi := hroles i
    cases pending with
    | true =>
      rw [if_pos rfl, hr] at hi
      split at hi <;> cases hi
    | false =>
      rw [if_neg (by simp), hr] at hi
      rcases hi with hi | hi
      · cases hi
      · cases hi
        exact .inr ⟨rfl, rfl, J, rfl⟩
  | dmaRead seen => exact hidle h.2.1 _
  | dmaWrite => exact hidle h.2.1 _
  | writeBack k => exact hidle h.2.1 _
  | memoryWrite => exact hidle h.2.1 _

/-- A step after which one cache is `p'` and nothing else has changed but what the
observer knows. -/
theorem Inv.of_private {q r : Party ι L} {node : ι → Node ι L} {G : Ghost ι L} (h : Inv g a s)
    (hs : step P s e = .ok (s.moved node l)) (hof : ∀ j, (after a i q l j).Of j (node j))
    (hl : ∀ m ∈ l, Send.isPrivate m = true) (hp : l.foldl (Party.take i i) q = r)
    (hperf : Performs g G (Sys.callbacks l)) (hw : G.dmaWritten = g.dmaWritten)
    (hparty : PartyOK (Fintype.card ι) G (s.memory = G.cur) i r)
    (hothers : ∀ j, j ≠ i → PartyOK (Fintype.card ι) G (s.memory = G.cur) j (a j))
    (hdir : Global G (update (fun j => (a j).signal) i r.signal) s.hub) :
    StepOK P g s e := by
  rw [after_private hl, hp] at hof
  refine ⟨G, update a i r, _, hs, ⟨hof, ?_, ?_, ?_⟩, ⟨_, rfl, .inl hperf⟩, ?_⟩
  · intro j
    by_cases hj : j = i
    · subst hj
      rw [update_self]
      exact hparty
    · rw [update_of_ne hj]
      exact hothers j hj
  · have hsignals : (fun j => (update a i r j).signal) =
        update (fun j => (a j).signal) i r.signal := by
      funext j
      by_cases hj : j = i
      · subst hj
        rw [update_self, update_self]
      · rw [update_of_ne hj, update_of_ne hj]
    rw [hsignals]
    exact hdir
  · rw [hw]
    exact h.writes
  · exact hw

/-! ## Responses -/

omit [DecidableEq ι] [Fintype ι] in
/-- The completion trigger and the loads and stores of a transition concern one
cache alone. -/
theorem Reacts.response_private {env : Env ι} {v v' : View ι L}
    (hr : Reacts env v (.response m) v' l) :
    ∀ k ∈ l, Send.isPrivate k = true := by
  have hcompletion (v : View ι L) : ∀ k ∈ v.completion, Send.isPrivate k = true := by
    intro k hk
    rw [View.completion] at hk
    split at hk
    · rw [List.mem_singleton.1 hk]
      rfl
    · cases hk
  have happend (v : View ι L) (cb : Callback ι L) :
      ∀ k ∈ v.completion ++ [.callback cb], Send.isPrivate k = true := by
    intro k hk
    rcases List.mem_append.1 hk with hk | hk
    · exact hcompletion v k hk
    · rw [List.mem_singleton.1 hk]
      rfl
  cases hr with
  | ack | ackShared | dataIM | dataSM => exact hcompletion _
  | dataIS | sharedIS | exclusiveIS | exclusiveIM => exact happend _ _

/-- A role that has responses on their way is active. -/
theorem Inv.active_of_response (h : Inv g a s)
    (hm : m ∈ (a i).responses) : ∃ x τ φ due owed, g.role i = .active x τ φ due owed := by
  have hrole := (h.party i).role
  cases hr : g.role i with
  | active x τ φ due owed => exact ⟨x, τ, φ, due, owed, rfl⟩
  | idle | waiting =>
    rw [hr] at hrole
    rw [hrole.1.responses] at hm
    exact absurd hm (Multiset.notMem_zero m)

theorem step_response (h : Inv g a s) (hn : 1 < Fintype.card ι)
    (hm : (s.node i).holds (.response m)) :
    StepOK P g s (now, .deliver i (.response m)) := by
  have hmem : m ∈ (a i).responses := (h.of i).mem hm
  obtain ⟨x, τ, φ, due, owed, hrole⟩ := h.active_of_response hmem
  have hexpects : (a i).view.Expects (P.env now i) (.response m) :=
    expects_response (h.party i) hrole hmem
  rcases deliver_spec _ h.of hn hm hexpects with hs | ⟨v', sent, hr, -, hspec⟩
  · exact .refl h hs
  · obtain ⟨p', hrooms, hp, hsignal, hset⟩ := react_response (h.party i) hrole hmem rfl hr
    obtain ⟨node, hs, hof⟩ := hspec hrooms
    exact h.settles hs hof hr.response_private hp hsignal hset

end Gem5Gpu.VIHammer
