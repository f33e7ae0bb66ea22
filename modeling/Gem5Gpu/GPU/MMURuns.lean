import Gem5Gpu.GPU.MMUPlaces
import Gem5Gpu.Lib.Table

/-!
# Runs of the MMU

`Inv` puts the pieces together: where the requests are, which walkers are active, what
is in the kernel, and which translations the second-level TLB holds.  A translation in
the TLB is that of the page table, because the page table changes only at the page of
the fault in the kernel, and such a page has an outstanding walk and is not in the TLB.

Each function of the model keeps the invariant, and none of its assertions fails.
`State.work` bounds the number of events until every miss is answered: every event
except a new miss uses up some of it.

The result is `misses_are_answered_once`.  It asks that no walk ends with an old entry of
its walker where the page table has another one: a walker that has seen a page read-only
faults again after the kernel has made the page writable (`stale_entry_faults_again`).
-/

namespace Gem5Gpu.GPU.MMU

open Lib Function

variable {table : PageTable} {now : ℕ} {walkers : ℕ → Walker} {pending : List Request} {cur : ℤ}
  {e : PageEntry}

/-- A walker is active exactly while it has a walk, and no walk waits while a walker is
free. -/
structure Walkers (c : Config) (now : ℕ) (walkers : ℕ → Walker) (cur : ℤ)
    (pending : List Request) : Prop where
  active : ∀ i, (walkers i).active = true ↔
    (walkers i).event.isSome = true ∨ (walkers i).walking.isSome = true
  single : ∀ i, (walkers i).event.isSome = true → (walkers i).walking = none
  inRange : ∀ i, (walkers i).active = true → i < c.pagewalkers
  count : cur = tableSum c.pagewalkers (fun w => w.active.toNat) walkers
  full : pending ≠ [] → ∀ i < c.pagewalkers, (walkers i).active = true
  ticks : ∀ i, ∀ x ∈ (walkers i).event, 0 < x.2
  late : ∀ i, (walkers i).walking.isSome = true → 0 < now

/-- The fields that belong to page faults. -/
structure Faults where
  status : FaultStatus
  info : Option Request
  timeout : Option ℕ
  inFault : ℕ
  pending : List Request
  raised : List Request
  handled : List Request

def State.faults (s : State) : Faults where
  status := s.outstandingFaultStatus
  info := s.outstandingFaultInfo
  timeout := s.faultTimeout
  inFault := s.inFault
  pending := s.pendingFaults
  raised := s.raised
  handled := s.handled

/-- The request whose fault is in the kernel. -/
def Faults.kernel (F : Faults) : Option Request :=
  if F.status = .inKernel then F.info else none

theorem State.kernel_eq_none {s : State} (hs : s.outstandingFaultStatus ≠ .inKernel) :
    s.faults.kernel = none := if_neg hs

theorem State.kernel_eq_info {s : State} (hs : s.outstandingFaultStatus = .inKernel) :
    s.faults.kernel = s.outstandingFaultInfo := if_pos hs

/-- The registers and the timeout agree with the status of the fault. -/
structure Kernel (spot : Request → Spot) (now : ℕ) (table : PageTable) (F : Faults) : Prop where
  idle : F.status = .none → F.pending = [] ∧ F.inFault = 0 ∧ F.timeout = none
  inKernel : F.status = .inKernel → F.info.isSome = true ∧ (F.inFault = 1 ∨ F.inFault = 2) ∧
    ∃ t, F.timeout = some t ∧ now < t
  retrying : F.status = .retrying → F.inFault = 2 ∧ F.timeout = none ∧
    ∃ r, F.info = some r ∧ (spot r).walks = true ∧ (table.walk r).isSome = true
  log : F.raised = F.handled ++ F.kernel.toList

/-- The answer is the entry of the page, with the offset of the address. -/
def Answer.Right (a : Answer) : Prop :=
  ∃ e, a.mapping = some e ∧ a.ppBase = e.frame * pageBytes ∧
    a.paddr = e.frame * pageBytes + a.request.offset

/-- The translations held agree with the page table, and so did the answers. -/
structure Translations (now : ℕ) (tlb : Option TLBMemory) (table : PageTable)
    (outstanding : ℕ → List Request) (answers : List Answer) : Prop where
  fresh : ∀ t ∈ tlb, t.Fresh now
  maps : ∀ t ∈ tlb, ∀ vp pp, t.Maps vp pp → outstanding vp = [] ∧
    ∃ e, table vp = some e ∧ pp = e.frame * pageBytes
  right : ∀ a ∈ answers, a.Right

structure Inv (c : Config) (kind : Request → Kind) (spot : Request → Spot)
    (taken hand : Option Request) (s : State) : Prop where
  lists : Lists kind taken s.startMisses s.outstandingWalks (s.answers.map Answer.request) s.misses
  spots : Spots spot hand s.pendingWalks s.walkers s.pendingFaults s.faults.kernel
  link : ∀ r, kind r = .front ↔ spot r ≠ .none
  walkers : Walkers c s.now s.walkers s.curOutstandingWalks s.pendingWalks
  kernel : Kernel spot s.now s.pageTable s.faults
  translations : Translations s.now s.tlb s.pageTable s.outstandingWalks s.answers
  known : ∀ r, kind r ≠ .none → r.origTLB.isSome = true ∧ r.prefetch = false ∧ r.id < s.created
  buffer : s.prefetchBuffer = []

/-- Some kinds and spots satisfy the invariant. -/
def Sound (c : Config) (s : State) : Prop := ∃ kind spot, Inv c kind spot none none s

section Work

/-- The events that a walker has ahead of it, at most. -/
def Walker.work (w : Walker) : ℕ :=
  if w.event.isSome then 7 else if w.walking.isSome then 6 else 0

/-- A retried walk has five events less ahead of it than a first one. -/
def State.faultWork (s : State) : ℕ :=
  match s.outstandingFaultStatus with
  | .none => 5
  | .inKernel =>
    8 + (if s.inFault = 1 then 1 else 0) +
      if (s.outstandingFaultInfo.bind s.pageTable.walk).isSome then 0 else 1
  | .retrying => 0

def State.work (c : Config) (s : State) : ℕ :=
  8 * s.startMisses.length + 7 * s.pendingWalks.length +
    tableSum c.pagewalkers Walker.work s.walkers + 5 * s.pendingFaults.length + s.faultWork

theorem State.faultWork_le (s : State) : s.faultWork ≤ 10 := by
  unfold faultWork
  split
  · omega
  · split <;> split <;> omega
  · omega

end Work

section Facts

variable {c : Config} {kind : Request → Kind} {spot : Request → Spot} {taken hand : Option Request}
  {s : State} {r t : Request} {i : ℕ}

theorem initial_inv (c : Config) (table : PageTable) :
    Inv c (fun _ => .none) (fun _ => .none) none none (.initial c table) where
  lists := .initial
  spots := .initial
  link := by simp
  walkers := {
    active := by simp [State.initial]
    single := by simp [State.initial]
    inRange := by simp [State.initial]
    count := by simp [State.initial, tableSum]
    full := by simp [State.initial]
    ticks := by simp [State.initial]
    late := by simp [State.initial] }
  kernel := {
    idle := fun _ => ⟨rfl, rfl, rfl⟩
    inKernel := fun h => by cases h
    retrying := fun h => by cases h
    log := rfl }
  translations := {
    fresh := fun t ht => by
      unfold State.initial at ht
      dsimp only at ht
      split at ht
      · cases ht
      · cases ht
        exact TLBMemory.new_fresh (by omega) 0
    maps := fun t ht vp pp hmaps => by
      unfold State.initial at ht
      dsimp only at ht
      split at ht
      · cases ht
      · cases ht
        exact absurd hmaps (TLBMemory.not_maps_new _ _)
    right := by simp [State.initial] }
  known := by simp
  buffer := rfl

/-- Two front requests of one page are the same. -/
theorem Inv.front_unique (h : Inv c kind spot taken hand s) (hr : spot r ≠ .none)
    (ht : spot t ≠ .none) (hp : r.vpBase = t.vpBase) : r = t := by
  have hheadr := (h.lists.front r).1 ((h.link r).2 hr)
  have hheadt := (h.lists.front t).1 ((h.link t).2 ht)
  rw [hp, hheadt] at hheadr
  exact (Option.some.inj hheadr).symm

theorem Inv.front_ne_nil (h : Inv c kind spot taken hand s) (hr : spot r ≠ .none) :
    s.outstandingWalks r.vpBase ≠ [] := by
  intro hnil
  have hhead := (h.lists.front r).1 ((h.link r).2 hr)
  rw [hnil] at hhead
  cases hhead

theorem clockEdge_gt (c : Config) (now : ℕ) {cycles : ℕ} (hc : 0 < cycles) :
    now < c.clockEdge now cycles := by
  have hpos := c.clockPeriod_pos
  have hdiv := Nat.lt_div_mul_add hpos (a := now + c.clockPeriod - 1)
  have hmul : c.clockPeriod ≤ cycles * c.clockPeriod := Nat.le_mul_of_pos_left _ hc
  unfold Config.clockEdge
  rw [Nat.add_mul]
  omega

/-- The page of an address, from a physical address that a walk found. -/
theorem page_of_paddr (frame vaddr : ℕ) :
    frame * pageBytes + vaddr % pageBytes - (frame * pageBytes + vaddr % pageBytes) % pageBytes =
      frame * pageBytes := by
  rw [Nat.mul_add_mod', Nat.mod_mod]
  exact Nat.add_sub_cancel ..

/-- A request that neither was nor becomes a front request has no spot. -/
theorem link_keep {k : Kind} (h : ∀ r, kind r = .front ↔ spot r ≠ .none) (hr : kind r ≠ .front)
    (hk : k ≠ .front) : ∀ t, update kind r k t = .front ↔ spot t ≠ .none :=
  (forall_update_iff kind fun t k => k = .front ↔ spot t ≠ .none).2
    ⟨by simp [← h r, hr, hk], fun t _ => h t⟩

/-- A front request changes its spot. -/
theorem link_move {p : Spot} (h : ∀ r, kind r = .front ↔ spot r ≠ .none) (hr : spot r ≠ .none)
    (hp : p ≠ .none) : ∀ t, kind t = .front ↔ update spot r p t ≠ .none :=
  (forall_update_iff spot fun t p => kind t = .front ↔ p ≠ .none).2
    ⟨by simp [h r, hr, hp], fun t _ => h t⟩

theorem known_keep {created : ℕ} {k : Kind}
    (h : ∀ r, kind r ≠ .none → r.origTLB.isSome ∧ r.prefetch = false ∧ r.id < created)
    (hr : kind r ≠ .none) : ∀ t, update kind r k t ≠ .none →
      t.origTLB.isSome ∧ t.prefetch = false ∧ t.id < created :=
  (forall_update_iff kind fun _ k => k ≠ .none → _).2 ⟨fun _ => h r hr, fun t _ => h t⟩

/-- What the kernel knows of the spots is that the retried request has a walk. -/
theorem Kernel.of_walks {spot' : Request → Spot} {F : Faults} (h : Kernel spot now table F)
    (hw : ∀ r, F.status = .retrying → F.info = some r → (spot r).walks →
      (spot' r).walks) : Kernel spot' now table F := {
  h with
  retrying := fun hs => by
    obtain ⟨hreg, htime, r, hr, hwalks, htable⟩ := h.retrying hs
    exact ⟨hreg, htime, r, hr, hw r hs hr hwalks, htable⟩ }

/-- A request goes from one spot of a walk to another. -/
theorem Kernel.move {p : Spot} {F : Faults} (h : Kernel spot now table F) (hp : p.walks) :
    Kernel (update spot r p) now table F :=
  h.of_walks ((forall_update_iff spot fun t p => F.status = .retrying → F.info = some t →
    (spot t).walks → p.walks).2 ⟨fun _ _ _ => hp, fun _ _ _ _ hw => hw⟩)

/-- Time passes. -/
theorem Inv.wait (h : Inv c kind spot taken hand s) (htime : s.now ≤ now)
    (hin : ∀ t ∈ s.faultTimeout, now < t) : Inv c kind spot taken hand { s with now := now } := {
  h with
  walkers := { h.walkers with
    late := fun i hi => Nat.lt_of_lt_of_le (h.walkers.late i hi) htime }
  kernel := { h.kernel with
    inKernel := fun hs => by
      obtain ⟨hinfo, hreg, t, ht, _⟩ := h.kernel.inKernel hs
      exact ⟨hinfo, hreg, t, ht, hin t ht⟩ }
  translations := { h.translations with
    fresh := fun t ht => (h.translations.fresh t ht).mono htime } }

end Facts

section Lookup

variable {s : State} {vp : ℕ}

/-- What a lookup finds in the second-level TLB is the entry of the page. -/
theorem lookupL2_spec (setMru : Bool)
    (h : Translations s.now s.tlb s.pageTable s.outstandingWalks s.answers) :
    Post (lookupL2 vp setMru s) (fun _ => False) fun x =>
      ∃ tlb, x.2 = { s with tlb := tlb } ∧
        Translations s.now tlb s.pageTable s.outstandingWalks s.answers ∧
        (∀ pp, x.1 = some pp → ∃ e, s.pageTable vp = some e ∧ pp = e.frame * pageBytes) ∧
        (x.1 = none → ∀ t ∈ tlb, ∀ pp, ¬t.Maps vp pp) := by
  unfold lookupL2
  split
  · rename_i hnone
    refine ⟨none, by rw [← hnone], ?_, by simp, by simp⟩
    rw [← hnone]
    exact h
  · rename_i t ht
    refine (TLBMemory.lookup_spec (h.fresh t ht)).bind fun found hfound => ?_
    obtain ⟨found, t'⟩ := found
    obtain ⟨hfresh, hmaps, hhit, hmiss⟩ := hfound
    dsimp only at hfresh hmaps hhit hmiss ⊢
    refine ⟨some t', rfl, ⟨?_, ?_, h.right⟩, fun pp hpp => ?_, fun hnone => ?_⟩
    · intro t₁ ht₁
      cases ht₁
      exact hfresh
    · intro t₁ ht₁ vp' pp' h'
      cases ht₁
      exact h.maps t ht vp' pp' (hmaps vp' pp' h')
    · exact (h.maps t ht vp pp (hhit pp hpp)).2
    · intro t₁ ht₁ pp h'
      cases ht₁
      exact (hmiss hnone).2 pp (hmaps vp pp h')

/-- The entry of a page goes to the second-level TLB, and the requests of the page
leave. -/
theorem insertL2_spec (h : Translations s.now s.tlb s.pageTable s.outstandingWalks s.answers)
    (hnow : 0 < s.now) (he : s.pageTable vp = some e) :
    Post (insertL2 vp (e.frame * pageBytes) s) (fun _ => False) fun s' =>
      ∃ tlb, s' = { s with tlb := tlb } ∧
        Translations s.now tlb s.pageTable (update s.outstandingWalks vp []) s.answers := by
  have hnil (vp' : ℕ) (hempty : s.outstandingWalks vp' = []) :
      update s.outstandingWalks vp [] vp' = [] := by
    by_cases hvp : vp' = vp
    · rw [hvp, update_self]
    · rwa [update_of_ne hvp]
  unfold insertL2
  split
  · rename_i hnone
    refine ⟨none, by rw [← hnone], ⟨by simp, by simp, h.right⟩⟩
  · rename_i t ht
    refine (TLBMemory.insert_spec (h.fresh t ht) hnow).bind fun t' hinsert => ?_
    obtain ⟨hfresh, hmaps⟩ := hinsert
    refine ⟨some t', rfl, ⟨?_, ?_, h.right⟩⟩
    · intro t₁ ht₁
      cases ht₁
      exact hfresh
    · intro t₁ ht₁ vp' pp' h'
      cases ht₁
      rcases hmaps vp' pp' h' with hold | ⟨rfl, rfl⟩
      · obtain ⟨hempty, hentry⟩ := h.maps t ht vp' pp' hold
        exact ⟨hnil vp' hempty, hentry⟩
      · exact ⟨update_self .., e, he, rfl⟩

end Lookup

section Walks

variable {c : Config} {kind : Request → Kind} {spot : Request → Spot} {taken hand : Option Request}
  {s : State} {r : Request} {i : ℕ}

/-- The state after the free walker `i` got the walk of `r`. -/
def State.withWalk (s : State) (i : ℕ) (r : Request) (tick : ℕ) : State :=
  { s.setWalker i ⟨true, some (r, tick), (s.walkers i).walking, (s.walkers i).entry⟩ with
    curOutstandingWalks := s.curOutstandingWalks + 1 }

/-- The walk that a free walker gets is scheduled for the next cycle. -/
theorem getFreeWalker_spec (c : Config) (s : State) :
    (getFreeWalker c s = none ∧ ∀ i < c.pagewalkers, (s.walkers i).active = true) ∨
      ∃ i < c.pagewalkers, (s.walkers i).active = false ∧ ∃ s₁, getFreeWalker c s = some (i, s₁) ∧
          ((s.walkers i).event = none → ∀ r,
            schedulePagewalk c i r s₁ = .ok (s.withWalk i r (c.clockEdge s.now 1))) := by
  unfold getFreeWalker
  cases hfind : (List.range c.pagewalkers).find? fun i => !(s.walkers i).active with
  | none =>
    refine .inl ⟨rfl, fun i hi => ?_⟩
    have := List.find?_eq_none.1 hfind i (List.mem_range.2 hi)
    simpa using this
  | some i =>
    have hi := List.mem_range.1 (List.mem_of_find?_eq_some hfind)
    have hfree : (s.walkers i).active = false := by simpa using List.find?_some hfind
    refine .inr ⟨i, hi, hfree, _, rfl, fun hevent r => ?_⟩
    unfold schedulePagewalk State.setWalker
    simp only [update_self]
    rw [check_bind trivial, check_bind (by rw [hevent]; rfl), update_idem]
    rfl

theorem Walkers.free_event
    (h : Walkers c now walkers cur pending) (hi : (walkers i).active = false) :
    (walkers i).event = none ∧ (walkers i).walking = none := by
  have hactive := (h.active i).not.1 (by simp [hi])
  rw [not_or] at hactive
  exact ⟨by simpa using hactive.1, by simpa using hactive.2⟩

/-- A walker changes what it has. -/
theorem Walkers.set {w : Walker} {cur' : ℤ} {pending' : List Request}
    (h : Walkers c now walkers cur pending) (hi : i < c.pagewalkers)
    (hactive : w.active = true ↔ w.event.isSome = true ∨ w.walking.isSome = true)
    (hsingle : w.event.isSome = true → w.walking = none) (hticks : ∀ x ∈ w.event, 0 < x.2)
    (hlate : w.walking.isSome = true → 0 < now)
    (hcur : cur' = cur + w.active.toNat - (walkers i).active.toNat)
    (hfull : pending' ≠ [] → w.active = true ∧
      ∀ j < c.pagewalkers, j ≠ i → (walkers j).active = true) :
    Walkers c now (update walkers i w) cur' pending' where
  active := (forall_update_iff walkers fun _ w =>
    w.active = true ↔ w.event.isSome = true ∨ w.walking.isSome = true).2
      ⟨hactive, fun j _ => h.active j⟩
  single := (forall_update_iff walkers fun _ w => w.event.isSome → w.walking = none).2
    ⟨hsingle, fun j _ => h.single j⟩
  inRange := (forall_update_iff walkers fun j w => w.active → j < c.pagewalkers).2
    ⟨fun _ => hi, fun j _ => h.inRange j⟩
  count := by
    have hsum := tableSum_update (w := fun w : Walker => w.active.toNat) (f := walkers) hi w
    have hcount := h.count
    omega
  full := fun hne => (forall_update_iff walkers fun j w => j < c.pagewalkers → w.active).2
    ⟨fun _ => (hfull hne).1, fun j hji hj => (hfull hne).2 j hj hji⟩
  ticks := (forall_update_iff walkers fun _ w => ∀ x ∈ w.event, 0 < x.2).2
    ⟨hticks, fun j _ => h.ticks j⟩
  late := (forall_update_iff walkers fun _ w => w.walking.isSome → 0 < now).2
    ⟨hlate, fun j _ => h.late j⟩

/-- A free walker gets a walk. -/
theorem Walkers.give {tick : ℕ} {pending' : List Request}
    (h : Walkers c now walkers cur pending) (hi : i < c.pagewalkers)
    (hfree : (walkers i).active = false) (htick : 0 < tick)
    (hfull : pending' ≠ [] → ∀ j < c.pagewalkers, j ≠ i → (walkers j).active) :
    Walkers c now (update walkers i ⟨true, some (r, tick), (walkers i).walking, (walkers i).entry⟩)
      (cur + 1) pending' := by
  have hwalking := (h.free_event hfree).2
  refine h.set hi (by simp) (by simp [hwalking]) ?_ (by simp [hwalking]) (by simp [hfree])
    fun hne => ⟨rfl, hfull hne⟩
  intro x hx
  cases hx
  exact htick

/-- The request in the hand gets a walk, or waits for one. -/
theorem Inv.giveWalk (h : Inv c kind spot taken (some r) s) (hi : i < c.pagewalkers)
    (hfree : (s.walkers i).active = false) :
    Inv c kind (update spot r (.scheduled i)) taken none (s.withWalk i r (c.clockEdge s.now 1)) := {
  h with
  spots := h.spots.schedule (h.walkers.free_event hfree).1 rfl rfl
  link := link_move h.link (by simp [h.spots.spot_hand]) (by simp)
  walkers := h.walkers.give hi hfree
    (Nat.lt_of_le_of_lt (Nat.zero_le _) (clockEdge_gt c s.now (by decide))) fun hne => by
      have := h.walkers.full hne i hi
      rw [hfree] at this
      cases this
  kernel := h.kernel.move rfl }

theorem Inv.queueWalk (h : Inv c kind spot taken (some r) s)
    (hfull : ∀ i < c.pagewalkers, (s.walkers i).active) :
    Inv c kind (update spot r .queued) taken none
      { s with pendingWalks := s.pendingWalks ++ [r] } := {
  h with
  spots := h.spots.queue
  link := link_move h.link (by simp [h.spots.spot_hand]) (by simp)
  walkers := { h.walkers with full := fun _ => hfull }
  kernel := h.kernel.move rfl }

theorem work_withWalk {tick : ℕ} (hi : i < c.pagewalkers) (hevent : (s.walkers i).event = none)
    (hwalking : (s.walkers i).walking = none) :
    (s.withWalk i r tick).work c = s.work c + 7 := by
  have hsum := tableSum_update (w := Walker.work) (f := s.walkers) hi
    ⟨true, some (r, tick), (s.walkers i).walking, (s.walkers i).entry⟩
  have hold : (s.walkers i).work = 0 := by simp [Walker.work, hevent, hwalking]
  have hnew : Walker.work ⟨true, some (r, tick), (s.walkers i).walking, (s.walkers i).entry⟩ = 7 :=
    rfl
  rw [hold, hnew] at hsum
  show 8 * s.startMisses.length + 7 * s.pendingWalks.length +
    tableSum c.pagewalkers Walker.work (update s.walkers i _) +
      5 * s.pendingFaults.length + s.faultWork = _
  unfold State.work
  omega

theorem work_pendingWalks (c : Config) (s : State) {t : Request} {rest : List Request}
    (hq : s.pendingWalks = t :: rest) :
    State.work c { s with pendingWalks := rest } + 7 = s.work c := by
  show 8 * s.startMisses.length + 7 * rest.length +
    tableSum c.pagewalkers Walker.work s.walkers + 5 * s.pendingFaults.length + s.faultWork + 7 = _
  unfold State.work
  rw [hq, List.length_cons]
  omega

theorem work_queueWalk (c : Config) (s : State) (r : Request) :
    State.work c { s with pendingWalks := s.pendingWalks ++ [r] } = s.work c + 7 := by
  show 8 * s.startMisses.length + 7 * (s.pendingWalks ++ [r]).length +
    tableSum c.pagewalkers Walker.work s.walkers + 5 * s.pendingFaults.length + s.faultWork = _
  unfold State.work
  rw [List.length_append, List.length_singleton]
  omega

end Walks

section Misses

variable {c : Config} {kind : Request → Kind} {spot : Request → Spot} {taken hand : Option Request}
  {s : State} {r : Request}

theorem beginTLBMiss_sound (tlb vaddr : ℕ) (mode : Mode) (h : Sound c s) :
    Sound c (beginTLBMiss c tlb vaddr mode s) := by
  obtain ⟨kind, spot, h⟩ := h
  obtain ⟨r, hr⟩ : ∃ r : Request, r =
    ⟨s.created, some tlb, vaddr, mode, c.clockEdge s.now c.latency, false⟩ := ⟨_, rfl⟩
  have hnew : kind r = .none := by
    by_contra hk
    have hlt := (h.known r hk).2.2
    rw [hr] at hlt
    exact Nat.lt_irrefl _ hlt
  refine ⟨update kind r .start, spot, ?_⟩
  unfold beginTLBMiss
  rw [← hr]
  exact {
    h with
    lists := h.lists.begin hnew
    link := link_keep h.link (by simp [hnew]) (by simp)
    known := fun t ht => by
      by_cases hne : t = r
      · rw [hne, hr]
        exact ⟨rfl, rfl, Nat.lt_succ_self _⟩
      · rw [update_of_ne hne] at ht
        obtain ⟨htlb, hpre, hid⟩ := h.known t ht
        exact ⟨htlb, hpre, Nat.lt_succ_of_lt hid⟩ }

theorem answer_eq (h : r.origTLB.isSome) (ppBase paddr : ℕ) :
    answer r ppBase paddr s = .ok { s with
      answers := s.answers ++ [⟨r, paddr, ppBase, s.pageTable r.vpBase⟩] } := by
  unfold answer
  rw [check_bind h]

theorem Translations.answer {tlb : Option TLBMemory}
    {outstanding : ℕ → List Request} {answers : List Answer} {a : Answer}
    (h : Translations now tlb table outstanding answers) (ha : a.Right) :
    Translations now tlb table outstanding (answers ++ [a]) := {
  h with
  right := fun b hb => by
    rcases List.mem_append.1 hb with hb | hb
    · exact h.right b hb
    · rw [List.mem_singleton.1 hb]
      exact ha }

theorem Inv.known_taken (h : Inv c kind spot (some r) hand s) :
    r.origTLB.isSome ∧ r.prefetch = false ∧ r.id < s.created :=
  h.known r (by simp [h.lists.kind_taken])

/-- The second-level TLB has the page. -/
theorem Inv.hit (h : Inv c kind spot (some r) none s) (he : s.pageTable r.vpBase = some e) :
    Inv c (update kind r .done) spot none none { s with
      answers := s.answers ++
        [⟨r, e.frame * pageBytes + r.offset, e.frame * pageBytes, s.pageTable r.vpBase⟩] } := {
  h with
  lists := by
    rw [List.map_append]
    exact h.lists.hit
  link := link_keep h.link (by simp [h.lists.kind_taken]) (by simp)
  translations := h.translations.answer ⟨e, he, rfl, rfl⟩
  known := known_keep h.known (by simp [h.lists.kind_taken]) }

/-- A page that the TLB does not hold gets a request. -/
theorem Translations.push {tlb : Option TLBMemory} {outstanding : ℕ → List Request}
    {answers : List Answer} {p : ℕ} {walks : List Request}
    (h : Translations now tlb table outstanding answers) (hmiss : ∀ t ∈ tlb, ∀ pp, ¬t.Maps p pp) :
    Translations now tlb table (update outstanding p walks) answers := {
  h with
  maps := fun t ht vp pp hmaps => by
    have hne : vp ≠ p := by
      rintro rfl
      exact hmiss t ht pp hmaps
    rw [update_of_ne hne]
    exact h.maps t ht vp pp hmaps }

theorem Inv.follow (h : Inv c kind spot (some r) hand s)
    (hmiss : ∀ t ∈ s.tlb, ∀ pp, ¬t.Maps r.vpBase pp) (hbusy : s.outstandingWalks r.vpBase ≠ []) :
    Inv c (update kind r .behind) spot none hand { s with
      outstandingWalks := update s.outstandingWalks r.vpBase
        (s.outstandingWalks r.vpBase ++ [r]) } := {
  h with
  lists := h.lists.follow hbusy
  link := link_keep h.link (by simp [h.lists.kind_taken]) (by simp)
  translations := h.translations.push hmiss
  known := known_keep h.known (by simp [h.lists.kind_taken]) }

theorem Inv.lead (h : Inv c kind spot (some r) none s)
    (hmiss : ∀ t ∈ s.tlb, ∀ pp, ¬t.Maps r.vpBase pp) (hidle : s.outstandingWalks r.vpBase = []) :
    Inv c (update kind r .front) (update spot r .hand) none (some r) { s with
      outstandingWalks := update s.outstandingWalks r.vpBase
        (s.outstandingWalks r.vpBase ++ [r]) } := by
  have hspot : spot r = .none := by
    by_contra hne
    have hfront := (h.link r).2 hne
    rw [h.lists.kind_taken] at hfront
    cases hfront
  exact {
    h with
    lists := h.lists.lead hidle
    spots := h.spots.enter hspot
    link := fun t => by
      by_cases ht : t = r
      · subst ht
        simp
      · rw [update_of_ne ht, update_of_ne ht]
        exact h.link t
    kernel := h.kernel.move rfl
    translations := h.translations.push hmiss
    known := known_keep h.known (by simp [h.lists.kind_taken]) }

theorem tryPrefetch_eq (hpf : c.prefetchBufferSize = 0) (vp : ℕ) (s : State) :
    tryPrefetch c vp s = .ok s := if_pos hpf

theorem requestWalk_sound (hpf : c.prefetchBufferSize = 0) (h : Inv c kind spot (some r) none s)
    (hmiss : ∀ t ∈ s.tlb, ∀ pp, ¬t.Maps r.vpBase pp) :
    Post (requestWalk c r s) (fun _ => False) fun s' =>
      Sound c s' ∧ s'.work c ≤ s.work c + 7 := by
  obtain ⟨s₁, hs₁⟩ : ∃ s₁ : State, s₁ = { s with
    outstandingWalks := update s.outstandingWalks r.vpBase
      (s.outstandingWalks r.vpBase ++ [r]) } := ⟨_, rfl⟩
  have hwork : s₁.work c = s.work c := by rw [hs₁]; rfl
  unfold requestWalk
  dsimp only
  rw [← hs₁, ← hwork]
  refine Post.ite (fun hone => ?_) fun hone => ?_
  · have hidle : s.outstandingWalks r.vpBase = [] := by
      rw [List.length_append, List.length_singleton] at hone
      exact List.length_eq_zero_iff.1 (by omega)
    have hlead := h.lead hmiss hidle
    rw [← hs₁] at hlead
    rcases getFreeWalker_spec c s₁ with ⟨hnone, hfull⟩ | ⟨i, hi, hfree, s₂, hsome, hsched⟩
    · have hqueue := hlead.queueWalk hfull
      have hle := Nat.le_of_eq (work_queueWalk c s₁ r)
      rw [hnone]
      rw [hs₁] at hqueue hle ⊢
      exact ⟨⟨_, _, hqueue⟩, hle⟩
    · obtain ⟨hevent, hwalking⟩ := hlead.walkers.free_event hfree
      rw [hsome]
      dsimp only
      rw [hsched hevent r, ok_bind, tryPrefetch_eq hpf]
      exact ⟨⟨_, _, hlead.giveWalk hi hfree⟩, Nat.le_of_eq (work_withWalk hi hevent hwalking)⟩
  · have hbusy : s.outstandingWalks r.vpBase ≠ [] := fun hnil => hone (by simp [hnil])
    have hfollow := h.follow hmiss hbusy
    rw [← hs₁] at hfollow
    exact ⟨⟨_, _, hfollow⟩, Nat.le_add_right _ _⟩

theorem handleTLBMiss_sound {rest : List Request} (hpf : c.prefetchBufferSize = 0) (h : Sound c s)
    (hq : s.startMisses = r :: rest) :
    Post (handleTLBMiss c s) (fun _ => False) fun s' => Sound c s' ∧ s'.work c < s.work c := by
  obtain ⟨kind, spot, h⟩ := h
  obtain ⟨s₁, hs₁⟩ : ∃ s₁ : State, s₁ = { s with startMisses := rest } := ⟨_, rfl⟩
  have hlists := h.lists
  rw [hq] at hlists
  have htaken : Inv c (update kind r .taken) spot (some r) none s₁ := by
    rw [hs₁]
    exact {
      h with
      lists := hlists.pop
      link := link_keep h.link (by simp [hlists.kind_start]) (by simp)
      known := known_keep h.known (by simp [hlists.kind_start]) }
  have hwork : s₁.work c + 8 = s.work c := by
    rw [hs₁]
    simp only [State.work, hq, List.length_cons]
    show 8 * rest.length + 7 * s.pendingWalks.length +
      tableSum c.pagewalkers Walker.work s.walkers +
      5 * s.pendingFaults.length + s.faultWork + 8 = _
    omega
  unfold handleTLBMiss
  rw [hq]
  dsimp only
  rw [← hs₁]
  refine (lookupL2_spec _ htaken.translations).bind fun x hx => ?_
  obtain ⟨found, s₂⟩ := x
  obtain ⟨tlb, hs₂, htrans, hhit, hmiss⟩ := hx
  dsimp only at hs₂ hhit hmiss ⊢
  have htaken₂ : Inv c (update kind r .taken) spot (some r) none s₂ := by
    rw [hs₂]
    exact { htaken with translations := htrans }
  have hwork₂ : s₂.work c = s₁.work c := by rw [hs₂]; rfl
  cases found with
  | some pp =>
    obtain ⟨e, he, rfl⟩ := hhit pp rfl
    have he₂ : s₂.pageTable r.vpBase = some e := by rw [hs₂]; exact he
    dsimp only
    rw [answer_eq htaken₂.known_taken.1]
    refine ⟨⟨_, _, htaken₂.hit he₂⟩, ?_⟩
    show s₂.work c < s.work c
    omega
  | none =>
    have hbuffer : s₂.prefetchBuffer = [] := htaken₂.buffer
    unfold missL2
    rw [hbuffer]
    dsimp only [List.find?_nil]
    have hmiss₂ : ∀ t ∈ s₂.tlb, ∀ pp, ¬t.Maps r.vpBase pp := by
      rw [hs₂]
      exact hmiss rfl
    refine (requestWalk_sound hpf htaken₂ hmiss₂).imp fun s' hs' => ⟨hs'.1, ?_⟩
    have hle := hs'.2
    omega

end Misses

section EndOfWalk

variable {c : Config} {kind : Request → Kind} {spot : Request → Spot} {taken hand : Option Request}
  {s : State} {r t : Request} {i : ℕ}

/-- A scheduled walk begins. -/
theorem startPagewalk_sound {tick : ℕ} (h : Sound c s)
    (hevent : (s.walkers i).event = some (r, tick)) (hlate : tick ≤ s.now) :
    Post (startPagewalk c i s) (fun _ => False) fun s' => Sound c s' ∧ s'.work c < s.work c := by
  obtain ⟨kind, spot, h⟩ := h
  have hidle := h.walkers.single i (by rw [hevent]; rfl)
  have hactive := (h.walkers.active i).2 (.inl (by rw [hevent]; rfl))
  have hi := h.walkers.inRange i hactive
  obtain ⟨w, hw⟩ : ∃ w : Walker, w = { s.walkers i with event := none, walking := some r } :=
    ⟨_, rfl⟩
  have hwactive : w.active = (s.walkers i).active := by rw [hw]
  have hwevent : w.event = none := by rw [hw]
  have hwwalking : w.walking = some r := by rw [hw]
  unfold startPagewalk
  rw [hevent]
  dsimp only
  rw [← hw, check_bind]
  · refine ⟨⟨kind, update spot r (.walking i), ?_⟩, ?_⟩
    · exact {
        h with
        spots := h.spots.startWalk hevent hidle hwevent hwwalking
        link := link_move h.link (by simp [h.spots.spot_scheduled hevent]) (by simp)
        walkers := h.walkers.set hi (by simp [hwactive, hactive, hwwalking]) (by simp [hwevent])
          (by simp [hwevent])
          (fun _ => Nat.lt_of_lt_of_le (h.walkers.ticks i (r, tick) hevent) hlate)
          (by simp [State.setWalker, hwactive])
          fun hne => ⟨hwactive.trans hactive, fun j hj _ => h.walkers.full hne j hj⟩
        kernel := h.kernel.move rfl }
    · have hsum := tableSum_update (w := Walker.work) (f := s.walkers) hi w
      have hold : (s.walkers i).work = 7 := by simp [Walker.work, hevent]
      have hnew : w.work = 6 := by simp [Walker.work, hwevent, hwwalking]
      rw [hold, hnew] at hsum
      show 8 * s.startMisses.length + 7 * s.pendingWalks.length +
        tableSum c.pagewalkers Walker.work (update s.walkers i w) +
          5 * s.pendingFaults.length + s.faultWork < _
      unfold State.work
      omega
  · -- The request is scheduled, so no walker translates it.
    rw [List.all_eq_true]
    intro j _
    refine decide_eq_true fun hj => ?_
    have hspot := h.spots.spot_walking hj
    rw [h.spots.spot_scheduled hevent] at hspot
    cases hspot

/-- The state after the walk of the walker `i` ended, which then holds `entry`. -/
def State.freed (s : State) (i : ℕ) (entry : Option (ℕ × PageEntry)) : State :=
  { s.setWalker i ⟨false, (s.walkers i).event, none, entry⟩ with
    curOutstandingWalks := s.curOutstandingWalks - 1 }

theorem setWalkerFree_eq (hactive : (s.walkers i).active) (entry : Option (ℕ × PageEntry)) :
    ∃ s₁, setWalkerFree i s = .ok s₁ ∧
      s₁.setWalker i ⟨(s₁.walkers i).active, (s₁.walkers i).event, none, entry⟩ =
        s.freed i entry := by
  unfold setWalkerFree
  rw [check_bind hactive]
  refine ⟨_, rfl, ?_⟩
  unfold State.freed State.setWalker
  simp only [update_self, update_idem]

/-- The freed walker takes the first pending walk, if there is one. -/
theorem startPendingWalk_sound (h : Inv c kind spot none none s)
    (hwalking : (s.walkers i).walking = some r) (entry : Option (ℕ × PageEntry)) :
    Post (startPendingWalk c (s.freed i entry)) (fun _ => False) fun s' =>
      (∃ spot, Inv c kind spot none (some r) s') ∧ s'.work c + 6 = s.work c ∧
        s'.pageTable = s.pageTable ∧ s'.now = s.now := by
  have hactive := (h.walkers.active i).2 (.inr (by rw [hwalking]; rfl))
  have hi := h.walkers.inRange i hactive
  have hevent : (s.walkers i).event = none := by
    cases hev : (s.walkers i).event with
    | none => rfl
    | some x =>
      have := h.walkers.single i (by rw [hev]; rfl)
      rw [hwalking] at this
      cases this
  have hspots := h.spots.endWalk (w := ⟨false, (s.walkers i).event, none, entry⟩) hwalking rfl rfl
  have hfreed :
      Walkers c s.now (s.freed i entry).walkers (s.freed i entry).curOutstandingWalks [] :=
    h.walkers.set hi (by simp [hevent]) (by simp [hevent]) (by simp [hevent]) (by simp)
      (by simp [State.freed, hactive]) fun hne => absurd rfl hne
  have hsum := tableSum_update (w := Walker.work) (f := s.walkers) hi
    ⟨false, (s.walkers i).event, none, entry⟩
  have hold : (s.walkers i).work = 6 := by simp [Walker.work, hevent, hwalking]
  have hnew : Walker.work ⟨false, (s.walkers i).event, none, entry⟩ = 0 := by
    simp [Walker.work, hevent]
  rw [hold, hnew] at hsum
  have hwork : (s.freed i entry).work c + 6 = s.work c := by
    show 8 * s.startMisses.length + 7 * s.pendingWalks.length +
      tableSum c.pagewalkers Walker.work (update s.walkers i _) +
        5 * s.pendingFaults.length + s.faultWork + 6 = _
    unfold State.work
    omega
  have hlink := link_move (p := .hand) h.link (r := r) (by simp [h.spots.spot_walking hwalking])
    (by simp)
  have hkernel : Kernel (update spot r .hand) s.now s.pageTable s.faults :=
    h.kernel.move rfl
  have hpending : (s.freed i entry).pendingWalks = s.pendingWalks := rfl
  unfold startPendingWalk
  rw [hpending]
  cases hq : s.pendingWalks with
  | nil =>
    refine ⟨⟨update spot r .hand, ?_⟩, hwork, rfl, rfl⟩
    exact {
      h with
      spots := hspots
      link := hlink
      walkers := by
        rw [hpending, hq]
        exact hfreed
      kernel := hkernel }
  | cons t rest =>
    dsimp only
    -- All other walkers are active, so the freed one is the walker found.
    have hother : ∀ j < c.pagewalkers, j ≠ i → (s.walkers j).active = true := fun j hj _ =>
      h.walkers.full (by simp [hq]) j hj
    rcases getFreeWalker_spec c (s.freed i entry) with
      ⟨_, hfull⟩ | ⟨j, hj, hfree, s₂, hsome, hsched⟩
    · have hself := hfull i hi
      simp [State.freed, State.setWalker] at hself
    · have hji : j = i := by
        by_contra hne
        have hact := hother j hj hne
        simp only [State.freed, State.setWalker, update_of_ne hne] at hfree
        rw [hact] at hfree
        cases hfree
      subst hji
      obtain ⟨hevent', hwalking'⟩ := hfreed.free_event hfree
      have hspots' := h.spots
      rw [hq] at hspots hspots'
      rw [hsome]
      dsimp only
      rw [hsched hevent' t, ok_bind]
      refine ⟨⟨update (update spot r .hand) t (.scheduled j), ?_⟩, ?_, rfl, rfl⟩
      · exact {
          h with
          spots := hspots.unqueue hevent' rfl rfl
          link := link_move hlink (by simp [hspots.spot_queued]) (by simp)
          walkers := hfreed.give hj hfree
            (Nat.lt_of_le_of_lt (Nat.zero_le _) (clockEdge_gt c s.now (by decide)))
            fun _ k hk hne => by
              rw [show (s.freed j entry).walkers k = s.walkers k from update_of_ne hne ..]
              exact hother k hk hne
          kernel := hkernel.move rfl }
      · have hgive : ((s.freed j entry).withWalk j t (c.clockEdge (s.freed j entry).now 1)).work c =
            (s.freed j entry).work c + 7 := work_withWalk hj hevent' hwalking'
        have hunqueue := work_pendingWalks c
          ((s.freed j entry).withWalk j t (c.clockEdge (s.freed j entry).now 1)) hq
        omega

/-- The state after the fault of `r` was raised. -/
def State.raise (c : Config) (s : State) (r : Request) : State :=
  { s with
    outstandingFaultStatus := .inKernel
    outstandingFaultInfo := some r
    inFault := 1
    faultAddr := r.vaddr
    faultWrite := r.mode = .write
    faultTimeout := some (c.clockEdge s.now faultTimeoutCycles)
    raised := s.raised ++ [r] }

theorem takePageFault_eq (hidle : s.outstandingFaultStatus = .none) (hreg : s.inFault = 0)
    (htime : s.faultTimeout = none) : takePageFault c r s = .ok (s.raise c r) := by
  unfold takePageFault
  rw [if_neg (by simp [hidle])]
  unfold raisePageFaultInterrupt
  dsimp only
  rw [check_bind rfl, check_bind hreg, check_bind (by rw [htime]; rfl)]
  rfl

theorem handlePageFault_eq (hfs : c.fullSystem) (hpre : r.prefetch = false) :
    handlePageFault c r s = takePageFault c r s := by
  unfold handlePageFault
  rw [check_bind hfs, if_neg (by simp [hpre])]

theorem work_raise (hidle : s.outstandingFaultStatus = .none) :
    (s.raise c r).work c ≤ s.work c + 5 := by
  have hle := State.faultWork_le (s.raise c r)
  have hnone : s.faultWork = 5 := by
    unfold State.faultWork
    rw [hidle]
  show 8 * s.startMisses.length + 7 * s.pendingWalks.length +
    tableSum c.pagewalkers Walker.work s.walkers + 5 * s.pendingFaults.length +
      (s.raise c r).faultWork ≤ _
  unfold State.work
  omega

/-- The registers after a fault was raised. -/
theorem Kernel.raise {spot' : Request → Spot}
    (h : Kernel spot s.now s.pageTable s.faults) (hidle : s.outstandingFaultStatus = .none) :
    Kernel spot' s.now s.pageTable { (s.raise c r).faults with pending := pending } where
  idle := fun hs => by cases hs
  inKernel := fun _ => ⟨rfl, .inl rfl, _, rfl, clockEdge_gt c s.now (by decide)⟩
  retrying := fun hs => by cases hs
  log := by
    have hlog := h.log
    have hkernel : s.faults.kernel = none := State.kernel_eq_none (by simp [hidle])
    rw [hkernel] at hlog
    show s.raised ++ [r] = s.handled ++ [r]
    rw [show s.raised = s.handled ++ [] from hlog, List.append_nil]

/-- The request in the hand has a fault. -/
theorem handlePageFault_sound (hfs : c.fullSystem) (h : Inv c kind spot none (some r) s)
    (hother : s.outstandingFaultStatus = .retrying → s.outstandingFaultInfo ≠ some r) :
    Post (handlePageFault c r s) (fun _ => False) fun s' =>
      Sound c s' ∧ s'.work c ≤ s.work c + 5 := by
  have hspot := h.spots.spot_hand
  have hkind := (h.link r).2 (by simp [hspot])
  rw [handlePageFault_eq hfs (h.known r (by simp [hkind])).2.1]
  by_cases hidle : s.outstandingFaultStatus = .none
  · obtain ⟨_, hreg, htime⟩ := h.kernel.idle hidle
    have hnone : s.faults.kernel = none := State.kernel_eq_none (by simp [hidle])
    have hspots := h.spots
    rw [hnone] at hspots
    rw [takePageFault_eq hidle hreg htime]
    refine ⟨⟨kind, update spot r .kernel, ?_⟩, work_raise hidle⟩
    exact {
      h with
      spots := hspots.raise
      link := link_move h.link (by simp [hspot]) (by simp)
      kernel := h.kernel.raise hidle }
  · unfold takePageFault
    rw [if_pos hidle]
    refine ⟨⟨kind, update spot r .faultQueue, ?_⟩, ?_⟩
    · exact {
        h with
        spots := h.spots.defer
        link := link_move h.link (by simp [hspot]) (by simp)
        kernel := {
          idle := fun hs => absurd hs hidle
          inKernel := h.kernel.inKernel
          retrying := fun hs => by
            obtain ⟨hreg, htime, r', hr', hwalks, htable⟩ := h.kernel.retrying hs
            refine ⟨hreg, htime, r', hr', ?_, htable⟩
            have hne : r' ≠ r := by
              rintro rfl
              exact hother hs hr'
            rwa [update_of_ne hne]
          log := h.kernel.log } }
    · show 8 * s.startMisses.length + 7 * s.pendingWalks.length +
        tableSum c.pagewalkers Walker.work s.walkers + 5 * (s.pendingFaults ++ [r]).length +
          s.faultWork ≤ _
      unfold State.work
      rw [List.length_append, List.length_singleton]
      omega

/-- The state after the retry of the outstanding fault succeeded. -/
theorem Inv.endRetry (h : Inv c kind spot taken hand s) (hs : s.outstandingFaultStatus = .retrying)
    (hq : s.pendingFaults = []) :
    Inv c kind spot taken hand { s with outstandingFaultStatus := .none, inFault := 0 } := {
  h with
  spots := by
    have hspots := h.spots
    have hnone : s.faults.kernel = none := State.kernel_eq_none (by simp [hs])
    rw [hnone] at hspots
    exact hspots
  kernel := {
    idle := fun _ => ⟨hq, rfl, (h.kernel.retrying hs).2.1⟩
    inKernel := fun hs' => by cases hs'
    retrying := fun hs' => by cases hs'
    log := by
      have hnone : s.faults.kernel = none := State.kernel_eq_none (by simp [hs])
      have hlog := h.kernel.log
      rw [hnone] at hlog
      exact hlog } }

/-- The next fault goes to the kernel. -/
def raisePending (c : Config) (s : State) : Except Fault State :=
  match s.pendingFaults with
  | [] => .ok s
  | t :: _ => do
    let s ← handlePageFault c t s
    .ok { s with pendingFaults := s.pendingFaults.tail }

/-- The walk of the retried request cannot fault, and the next fault is raised. -/
theorem finishRetry_sound (hfs : c.fullSystem) (h : Inv c kind spot none (some r) s) :
    Post (finishRetry c r (s.pageTable.walk r) s) (fun _ => False) fun s' =>
      (∃ spot, Inv c kind spot none (some r) s') ∧
      (s'.outstandingFaultStatus = .retrying → s'.outstandingFaultInfo ≠ some r) ∧
      s'.pageTable = s.pageTable ∧ s'.now = s.now ∧
      s'.work c ≤ s.work c + 5 ∧ (s.pageTable.walk r = none → s' = s) := by
  unfold finishRetry
  refine Post.ite (fun hretry => ?_) fun hretry => ?_
  · obtain ⟨hs, hvaddr⟩ := hretry
    obtain ⟨hreg, htime, r', hr', hwalks, htable⟩ := h.kernel.retrying hs
    -- The address tells the outstanding request, since its page has one walk.
    have heq : r' = r := by
      have hinfo : s.outstandingFaultInfo = some r' := hr'
      rw [hinfo] at hvaddr
      have hv : r'.vaddr = r.vaddr := Option.some.inj hvaddr
      refine h.front_unique ?_ (by simp [h.spots.spot_hand]) (by simp [Request.vpBase, hv])
      intro hnone
      rw [hnone] at hwalks
      cases hwalks
    subst heq
    obtain ⟨paddr, hpaddr⟩ := Option.isSome_iff_exists.1 htable
    have hwork : s.faultWork = 0 := by
      unfold State.faultWork
      rw [hs]
    have hnone : s.faults.kernel = none := State.kernel_eq_none (by simp [hs])
    have hlog := h.kernel.log
    rw [hnone] at hlog
    obtain ⟨s₁, hs₁⟩ : ∃ s₁, s₁ =
      { s with outstandingFaultStatus := .none, inFault := 0 } := ⟨_, rfl⟩
    have hidle : s₁.outstandingFaultStatus = .none := by rw [hs₁]
    have hpending : s₁.pendingFaults = s.pendingFaults := by rw [hs₁]
    have htable₁ : s₁.pageTable = s.pageTable := by rw [hs₁]
    have hnow₁ : s₁.now = s.now := by rw [hs₁]
    have hwork₁ : s₁.work c = s.work c + 5 := by
      rw [hs₁]
      show 8 * s.startMisses.length + 7 * s.pendingWalks.length +
        tableSum c.pagewalkers Walker.work s.walkers + 5 * s.pendingFaults.length + 5 = _
      unfold State.work
      omega
    rw [hpaddr]
    show Post (raisePending c { s with outstandingFaultStatus := .none, inFault := 0 }) _ _
    rw [← hs₁]
    unfold raisePending
    cases hq : s₁.pendingFaults with
    | nil =>
      have hend := h.endRetry hs (hpending ▸ hq)
      rw [← hs₁] at hend
      refine ⟨⟨spot, hend⟩, fun hs' => ?_, htable₁, hnow₁, Nat.le_of_eq hwork₁, by simp⟩
      rw [hidle] at hs'
      cases hs'
    | cons t rest =>
      have hspots := h.spots
      rw [← hpending, hq, hnone] at hspots
      have hspot := hspots.spot_faultQueue
      have hkind := (h.link t).2 (by simp [hspot])
      have hle := work_raise (c := c) (r := t) hidle
      dsimp only
      rw [handlePageFault_eq hfs (h.known t (by simp [hkind])).2.1,
        takePageFault_eq hidle (by rw [hs₁]) (by rw [hs₁]; exact htime), ok_bind]
      have htail : (s₁.raise c t).pendingFaults.tail = rest := by
        show s₁.pendingFaults.tail = rest
        rw [hq]
        rfl
      rw [htail]
      refine ⟨⟨update spot t .kernel, ?_⟩, fun hs' => (by cases hs'), htable₁, hnow₁, ?_, by simp⟩
      · rw [hs₁]
        exact {
          h with
          spots := hspots.raiseNext
          link := link_move h.link (by simp [hspot]) (by simp)
          kernel := {
            idle := fun hs' => by cases hs'
            inKernel := fun _ => ⟨rfl, .inl rfl, _, rfl, clockEdge_gt c s.now (by decide)⟩
            retrying := fun hs' => by cases hs'
            log := by
              show s.raised ++ [t] = s.handled ++ [t]
              rw [show s.raised = s.handled ++ [] from hlog, List.append_nil] } }
      · have hunqueue : State.work c { s₁.raise c t with pendingFaults := rest } + 5 =
            (s₁.raise c t).work c := by
          show 8 * s₁.startMisses.length + 7 * s₁.pendingWalks.length +
            tableSum c.pagewalkers Walker.work s₁.walkers + 5 * rest.length +
              (s₁.raise c t).faultWork + 5 = 8 * s₁.startMisses.length +
            7 * s₁.pendingWalks.length + tableSum c.pagewalkers Walker.work s₁.walkers +
              5 * s₁.pendingFaults.length + (s₁.raise c t).faultWork
          rw [hq, List.length_cons]
          omega
        show State.work c { s₁.raise c t with pendingFaults := rest } ≤ _
        omega
  · refine ⟨⟨spot, h⟩, fun hs hr => hretry ⟨hs, by rw [hr]; rfl⟩, rfl, rfl, Nat.le_add_right _ _,
      fun _ => rfl⟩

/-- The loop over the requests behind the walked one answers them all. -/
theorem finishQueued_eq (pp : ℕ) (walks : List Request) (s : State)
    (h : ∀ t ∈ walks, (t.prefetch = false ∧ t ≠ r) ∧ t.origTLB.isSome) :
    finishQueued r pp walks s = .ok { s with
      answers := s.answers ++
        walks.map fun t => ⟨t, pp + t.offset, pp, s.pageTable t.vpBase⟩ } := by
  induction walks generalizing s with
  | nil => simp [finishQueued]
  | cons t walks ih =>
    obtain ⟨hqueued, htlb⟩ := h t List.mem_cons_self
    unfold finishQueued
    rw [check_bind hqueued, answer_eq htlb, ok_bind,
      ih _ fun t' ht' => h t' (List.mem_cons_of_mem _ ht')]
    simp

/-- A walk that found the entry of the page answers all requests of the page. -/
theorem finalizeTranslation_sound {paddr : ℕ} (h : Inv c kind spot none (some r) s)
    (hother : s.outstandingFaultStatus = .retrying → s.outstandingFaultInfo ≠ some r)
    (hnow : 0 < s.now) (hwalk : s.pageTable.walk r = some paddr) :
    Post (finalizeTranslation c r paddr s) (fun _ => False) fun s' =>
      Sound c s' ∧ s'.work c = s.work c := by
  obtain ⟨e, he, hpaddr⟩ : ∃ e, s.pageTable r.vpBase = some e ∧
      e.frame * pageBytes + r.offset = paddr := by
    unfold PageTable.walk Request.translate at hwalk
    split at hwalk
    · rename_i e he
      split at hwalk
      · exact ⟨e, he, Option.some.inj hwalk⟩
      · cases hwalk
    · cases hwalk
  have hpp : paddr - paddr % pageBytes = e.frame * pageBytes := by
    rw [← hpaddr]
    exact page_of_paddr e.frame r.vaddr
  have hspot := h.spots.spot_hand
  have hfront := (h.link r).2 (by simp [hspot])
  have hhead := (h.lists.front r).1 hfront
  obtain ⟨walks, hwalks⟩ : ∃ walks, s.outstandingWalks r.vpBase = r :: walks := by
    cases hl : s.outstandingWalks r.vpBase with
    | nil =>
      rw [hl] at hhead
      cases hhead
    | cons x xs =>
      rw [hl] at hhead
      cases hhead
      exact ⟨xs, rfl⟩
  have hpages := h.lists.pages r.vpBase
  rw [hwalks] at hpages
  have hmem (t : Request) (ht : t ∈ r :: walks) : kind t ≠ .none ∧ t.vpBase = r.vpBase := by
    obtain ⟨hwaits, hvp⟩ := hpages.mem_iff.1 ht
    refine ⟨fun hk => ?_, hvp⟩
    rw [hk] at hwaits
    cases hwaits
  have hrknown := h.known r (hmem r List.mem_cons_self).1
  have hqueued : ∀ t ∈ walks, (t.prefetch = false ∧ t ≠ r) ∧ t.origTLB.isSome = true := by
    intro t ht
    obtain ⟨htlb, hpre, _⟩ := h.known t (hmem t (List.mem_cons_of_mem _ ht)).1
    refine ⟨⟨hpre, ?_⟩, htlb⟩
    rintro rfl
    exact (List.nodup_cons.1 hpages.1).1 ht
  unfold finalizeTranslation
  dsimp only
  rw [hwalks, hpp]
  dsimp only
  rw [check_bind rfl, if_neg (by simp [hrknown.2.1])]
  refine (insertL2_spec h.translations hnow he).bind fun s₁ hs₁ => ?_
  obtain ⟨tlb, rfl, htrans⟩ := hs₁
  rw [answer_eq hrknown.1, ok_bind, finishQueued_eq _ _ _ hqueued, ok_bind]
  refine ⟨⟨Lists.finished kind (r :: walks), update spot r .none, ?_⟩, rfl⟩
  exact {
    h with
    lists := by
      have hlists := h.lists.finish r.vpBase
      rw [hwalks] at hlists
      simpa [Function.comp_def] using hlists
    spots := h.spots.drop
    link := fun t => by
      unfold Lists.finished
      by_cases htr : t = r
      · subst htr
        simp
      · rw [update_of_ne htr, ← h.link t]
        split
        · rename_i ht
          -- A request behind the front one is not at the front.
          have hne : kind t ≠ .front := by
            intro hk
            have hheadt := (h.lists.front t).1 hk
            rw [(hmem t ht).2, hwalks] at hheadt
            exact htr (Option.some.inj hheadt).symm
          simp [hne]
        · rfl
    kernel := h.kernel.of_walks fun t hs ht hw => by
      have hne : t ≠ r := by
        rintro rfl
        exact hother hs ht
      rwa [update_of_ne hne]
    translations := {
      fresh := htrans.fresh
      maps := htrans.maps
      right := by
        intro a ha
        rcases List.mem_append.1 ha with ha | ha
        · rcases List.mem_append.1 ha with ha | ha
          · exact htrans.right a ha
          · rw [List.mem_singleton.1 ha]
            exact ⟨e, he, rfl, hpaddr.symm⟩
        · obtain ⟨t, ht, rfl⟩ := List.mem_map.1 ha
          refine ⟨e, ?_, rfl, rfl⟩
          show s.pageTable t.vpBase = some e
          rw [(hmem t (List.mem_cons_of_mem _ ht)).2]
          exact he }
    known := fun t ht => by
      refine h.known t fun hk => ht ?_
      unfold Lists.finished
      split
      · rename_i hin
        exact absurd hk (hmem t hin).1
      · exact hk }

theorem finishWalk_sound (hfs : c.fullSystem) (h : Sound c s)
    (hwalking : (s.walkers i).walking = some r)
    (hcurrent : r.translate ((s.walkers i).find s.pageTable r.vpBase) = s.pageTable.walk r) :
    Post (finishWalk c i s) (fun _ => False) fun s' => Sound c s' ∧ s'.work c < s.work c := by
  obtain ⟨kind, spot, h⟩ := h
  have hactive := (h.walkers.active i).2 (.inr (by rw [hwalking]; rfl))
  have hnow := h.walkers.late i (by rw [hwalking]; rfl)
  unfold finishWalk
  rw [hwalking]
  dsimp only
  rw [hcurrent]
  generalize Option.or _ (s.walkers i).entry = entry
  obtain ⟨s₀, hs₀, hfreed⟩ := setWalkerFree_eq hactive entry
  rw [hs₀, ok_bind, hfreed]
  refine (startPendingWalk_sound h hwalking entry).bind fun s₁ hs₁ => ?_
  obtain ⟨⟨spot₁, h₁⟩, hwork₁, htable₁, hnow₁⟩ := hs₁
  rw [← htable₁]
  refine (finishRetry_sound hfs h₁).bind fun s₂ hs₂ => ?_
  obtain ⟨⟨spot₂, h₂⟩, hother, htable₂, hnow₂, hwork₂, hsame⟩ := hs₂
  cases hwalk : s₁.pageTable.walk r with
  | some paddr =>
    dsimp only
    refine (finalizeTranslation_sound h₂ hother (by omega) (htable₂ ▸ hwalk)).imp fun s' hs' => ?_
    obtain ⟨hsound, hwork⟩ := hs'
    exact ⟨hsound, by omega⟩
  | none =>
    dsimp only
    have hs₂ := hsame hwalk
    refine (handlePageFault_sound hfs h₂ hother).imp fun s' hs' => ?_
    obtain ⟨hsound, hwork⟩ := hs'
    rw [hs₂] at hwork
    exact ⟨hsound, by omega⟩

end EndOfWalk

section KernelSteps

variable {c : Config} {s : State} {r : Request}

theorem takeFault_sound (h : Sound c s) (hreg : s.inFault = 1) :
    Post (takeFault s) (fun _ => False) fun s' => Sound c s' ∧ s'.work c < s.work c := by
  obtain ⟨kind, spot, h⟩ := h
  have hs : s.outstandingFaultStatus = .inKernel := by
    cases hst : s.outstandingFaultStatus with
    | none =>
      have hzero : s.inFault = 0 := (h.kernel.idle hst).2.1
      omega
    | inKernel => rfl
    | retrying =>
      have htwo : s.inFault = 2 := (h.kernel.retrying hst).1
      omega
  unfold takeFault
  rw [check_bind hreg]
  refine ⟨⟨kind, spot, ?_⟩, ?_⟩
  · exact { h with
      kernel := {
        idle := fun hs' => absurd (hs.symm.trans hs') (by simp)
        inKernel := fun _ => by
          obtain ⟨hinfo, _, htime⟩ := h.kernel.inKernel hs
          exact ⟨hinfo, .inr rfl, htime⟩
        retrying := fun hs' => absurd (hs.symm.trans hs') (by simp)
        log := h.kernel.log } }
  · simp [State.work, State.faultWork, hs, hreg]

theorem mapPage_sound (h : Sound c s) (hs : s.outstandingFaultStatus = .inKernel)
    (hr : s.outstandingFaultInfo = some r) (hfault : s.pageTable.walk r = none)
    (hallows : e.allows r.mode) :
    Post (mapPage e s) (fun _ => False) fun s' => Sound c s' ∧ s'.work c < s.work c := by
  obtain ⟨kind, spot, h⟩ := h
  have hkernel := (State.kernel_eq_info hs).trans hr
  have hspots := h.spots
  rw [hkernel] at hspots
  have hbusy := h.front_ne_nil (r := r) (by simp [hspots.spot_kernel])
  have hnew : PageTable.walk (update s.pageTable r.vpBase (some e)) r =
      some (e.frame * pageBytes + r.offset) := by
    unfold PageTable.walk
    rw [update_self]
    exact if_pos hallows
  have hmap : mapPage e s = .ok { s with
      pageTable := update s.pageTable r.vpBase (some e) } := by
    unfold mapPage
    split
    · rename_i hnone
      rw [hr] at hnone
      cases hnone
    · rename_i r' hr'
      rw [hr] at hr'
      cases hr'
      rfl
  rw [hmap]
  refine ⟨⟨kind, spot, ?_⟩, ?_⟩
  · exact { h with
      kernel := {
        idle := h.kernel.idle
        inKernel := h.kernel.inKernel
        retrying := fun hs' => absurd (hs.symm.trans hs') (by simp)
        log := h.kernel.log }
      translations := {
        fresh := h.translations.fresh
        maps := fun t ht vp pp hmaps => by
          -- The page of the fault has a request, so the TLB does not hold it.
          obtain ⟨hempty, hentry⟩ := h.translations.maps t ht vp pp hmaps
          have hne : vp ≠ r.vpBase := by
            rintro rfl
            exact hbusy hempty
          show s.outstandingWalks vp = [] ∧
            ∃ e', update s.pageTable r.vpBase (some e) vp = some e' ∧ _
          rw [update_of_ne hne]
          exact ⟨hempty, hentry⟩
        right := h.translations.right } }
  · simp only [State.work, State.faultWork, hs, hr, Option.bind_some, hnew, hfault]
    simp

/-- The walk is repeated now, or waits for a walker. -/
def retryWalk (c : Config) (r : Request) (s : State) : Except Fault State :=
  match getFreeWalker c s with
  | none => .ok { s with pendingWalks := s.pendingWalks ++ [r] }
  | some (i, s) => schedulePagewalk c i r s

theorem handleFinishPageFault_sound (h : Sound c s) (hs : s.outstandingFaultStatus = .inKernel)
    (hreg : s.inFault = 2) (hr : s.outstandingFaultInfo = some r)
    (hmapped : (s.pageTable.walk r).isSome) :
    Post (handleFinishPageFault c r.vaddr s) (fun _ => False) fun s' =>
      Sound c s' ∧ s'.work c < s.work c := by
  obtain ⟨kind, spot, h⟩ := h
  have hkernel := (State.kernel_eq_info hs).trans hr
  have hspots := h.spots
  rw [hkernel] at hspots
  have hlog := h.kernel.log
  rw [hkernel] at hlog
  obtain ⟨_, _, tick, htime, _⟩ := h.kernel.inKernel hs
  have htimeout : s.faultTimeout = some tick := htime
  obtain ⟨s₁, hs₁⟩ : ∃ s₁ : State, s₁ = { s with
    faultTimeout := none
    outstandingFaultStatus := .retrying
    handled := s.handled ++ [r] } := ⟨_, rfl⟩
  have hhand : Inv c kind (update spot r .hand) none (some r) s₁ := by
    rw [hs₁]
    exact {
      h with
      spots := hspots.retry
      link := link_move h.link (by simp [hspots.spot_kernel]) (by simp)
      kernel := {
        idle := fun hs' => by cases hs'
        inKernel := fun hs' => by cases hs'
        retrying := fun _ => ⟨hreg, rfl, r, hr, by rw [update_self]; rfl, hmapped⟩
        log := by
          show s.raised = (s.handled ++ [r]) ++ []
          rw [List.append_nil]
          exact hlog } }
  have hwork : s₁.work c + 8 = s.work c := by
    rw [hs₁]
    simp only [State.work, State.faultWork, hs, hreg, hr, Option.bind_some, hmapped]
    simp
  have hstart : handleFinishPageFault c r.vaddr s = retryWalk c r s₁ := by
    unfold handleFinishPageFault
    rw [check_bind (by rw [htimeout]; rfl)]
    dsimp only
    rw [check_bind (by simp [hs]), check_bind hreg]
    split
    · rename_i hnone
      rw [hr] at hnone
      cases hnone
    · rename_i r' hr'
      rw [hr] at hr'
      cases hr'
      rewrite [if_neg (by simp), if_neg (by simp [hs]), hs₁]
      rfl
  rw [hstart, retryWalk]
  rcases getFreeWalker_spec c s₁ with ⟨hnone, hfull⟩ | ⟨i, hi, hfree, s₂, hsome, hsched⟩
  · rw [hnone]
    have heq := work_queueWalk c s₁ r
    exact ⟨⟨_, _, hhand.queueWalk hfull⟩, by omega⟩
  · obtain ⟨hevent, hwalking⟩ := hhand.walkers.free_event hfree
    rw [hsome]
    dsimp only
    rw [hsched hevent r]
    have heq : (s₁.withWalk i r (c.clockEdge s₁.now 1)).work c = s₁.work c + 7 :=
      work_withWalk hi hevent hwalking
    exact ⟨⟨_, _, hhand.giveWalk hi hfree⟩, by omega⟩

end KernelSteps

section Runs

variable {c : Config} {s : State} {r : Request}

def Act.isMiss : Act → Bool
  | .beginTLBMiss _ _ _ => true
  | _ => false

/-- A walk ends with what the page table gives.  An entry that its walker has held from
before gives the same. -/
def Current (s : State) : Act → Prop
  | .finishWalk i => ∀ r ∈ (s.walkers i).walking,
      r.translate ((s.walkers i).find s.pageTable r.vpBase) = s.pageTable.walk r
  | _ => True

/-- The states of the runs of an MMU in a system with a page table. -/
def Reaches (c : Config) (table : PageTable) (s : State) : Prop :=
  Reach (step c) (fun s e => Allowed s e ∧ Current s e.act) (.initial c table) s

/-- A step of the MMU or of the kernel fails no assertion, and uses up work unless it is
a new miss. -/
theorem step_sound (hfs : c.fullSystem) (hpf : c.prefetchBufferSize = 0) {e : Event}
    (h : Sound c s) (ha : Allowed s e) (hcurrent : Current s e.act) :
    Post (step c s e) (fun _ => False) fun s' =>
      Sound c s' ∧ (e.act.isMiss = false → s'.work c < s.work c) := by
  obtain ⟨now, a⟩ := e
  have hwait : Sound c { s with now := now } := by
    obtain ⟨kind, spot, h⟩ := h
    exact ⟨kind, spot, h.wait ha.time ha.inTime⟩
  have henabled := ha.enabled
  have hall {x : Except Fault State} (hx : Post x (fun _ => False) fun s' =>
        Sound c s' ∧ s'.work c < State.work c { s with now := now }) :
      Post x (fun _ => False) fun s' =>
        Sound c s' ∧ (a.isMiss = false → s'.work c < s.work c) :=
    hx.imp fun s' hs' => ⟨hs'.1, fun _ => hs'.2⟩
  cases a with
  | beginTLBMiss tlb vaddr mode =>
    exact ⟨beginTLBMiss_sound tlb vaddr mode hwait, by simp [Act.isMiss]⟩
  | handleTLBMiss =>
    obtain ⟨r, hr, _⟩ := henabled
    obtain ⟨rest, hq⟩ := List.head?_eq_some_iff.1 hr
    exact hall (handleTLBMiss_sound hpf hwait hq)
  | startPagewalk i =>
    obtain ⟨⟨r, tick⟩, hevent, hlate⟩ := henabled
    exact hall (startPagewalk_sound hwait hevent hlate)
  | finishWalk i =>
    obtain ⟨r, hr⟩ := Option.isSome_iff_exists.1 henabled
    exact hall (finishWalk_sound hfs hwait hr (hcurrent r hr))
  | takeFault => exact hall (takeFault_sound hwait henabled)
  | mapPage entry =>
    obtain ⟨hs, _, r, hr, hfault, hallows⟩ := henabled
    exact hall (mapPage_sound hwait hs hr hfault hallows)
  | finishPageFault cr2 =>
    obtain ⟨hs, hreg, r, hr, hmapped, rfl⟩ := henabled
    exact hall (handleFinishPageFault_sound hwait hs hreg hr hmapped)

theorem Reaches.sound (hfs : c.fullSystem)
    (hpf : c.prefetchBufferSize = 0) (h : Reaches c table s) : Sound c s :=
  Reach.invariant h ⟨_, _, initial_inv c table⟩ fun _ _ hs ha =>
    (step_sound hfs hpf hs ha.1 ha.2).mono (fun _ hs' => hs'.1) fun _ => False.elim

/-- Nothing happens any more unless there is a new miss. -/
def State.Idle (s : State) : Prop := ∀ e : Event, e.act.isMiss = false → ¬Allowed s e

/-- The requests of a walker. -/
def Walker.requests (w : Walker) : List Request :=
  (w.event.map Prod.fst).toList ++ w.walking.toList

/-- The walks in progress. -/
def State.inProgress (c : Config) (s : State) : List Request :=
  (List.range c.pagewalkers).flatMap fun i => (s.walkers i).requests

/-- How often a request waits or is answered. -/
def State.occurrences (s : State) (r : Request) : ℕ :=
  s.startMisses.count r + (s.outstandingWalks r.vpBase).count r +
    (s.answers.map Answer.request).count r

section Reading

variable {kind : Request → Kind} {spot : Request → Spot}

variable (h : Inv c kind spot none none s)
include h

theorem Inv.occurrences_eq (hr : r ∈ s.misses) : s.occurrences r = 1 := by
  have hstart : s.startMisses.count r = if kind r = .start then 1 else 0 :=
    Holds.count_eq h.lists.start r
  have hpage : (s.outstandingWalks r.vpBase).count r =
      if (kind r).waits ∧ r.vpBase = r.vpBase then 1 else 0 :=
    Holds.count_eq (h.lists.pages r.vpBase) r
  have hdone : (s.answers.map Answer.request).count r = if kind r = .done then 1 else 0 :=
    Holds.count_eq h.lists.answered r
  have hkind := h.lists.misses.mem_iff.1 hr
  have htaken : kind r ≠ .taken := fun hk => by
    have := (h.lists.taken r).2 hk
    cases this
  unfold State.occurrences
  rw [hstart, hpage, hdone]
  cases hk : kind r with
  | none => exact absurd hk hkind
  | taken => exact absurd hk htaken
  | start | behind | front | done => simp [Kind.waits]

theorem Inv.mem_requests {i : ℕ} :
    r ∈ (s.walkers i).requests ↔ spot r = .scheduled i ∨ spot r = .walking i := by
  unfold Walker.requests
  rw [List.mem_append, Option.mem_toList, Option.mem_toList, h.spots.scheduled i r,
    h.spots.walking i r]

/-- A walker has one walk if it is active, and none otherwise. -/
theorem Inv.length_requests (i : ℕ) :
    (s.walkers i).requests.length = (s.walkers i).active.toNat := by
  have hactive := h.walkers.active i
  have hsingle := h.walkers.single i
  unfold Walker.requests
  cases hev : (s.walkers i).event with
  | none =>
    rw [hev] at hactive
    cases hw : (s.walkers i).walking with
    | none | some r => simp [hw] at hactive; simp [hactive]
  | some x =>
    rw [hev] at hactive hsingle
    rw [hsingle rfl]
    simp at hactive
    simp [hactive]

theorem Inv.nodup_walks : ((s.pendingWalks ++ s.inProgress c).map Request.vpBase).Nodup := by
  have hspot (r : Request) (hr : r ∈ s.pendingWalks ++ s.inProgress c) : spot r ≠ .none := by
    intro hnone
    rcases List.mem_append.1 hr with hr | hr
    · have := h.spots.pending.mem_iff.1 hr
      rw [hnone] at this
      cases this
    · obtain ⟨i, _, hi⟩ := List.mem_flatMap.1 hr
      rcases h.mem_requests.1 hi with hi | hi <;> rw [hnone] at hi <;> cases hi
  refine List.Nodup.map_on (fun r hr t ht hp => h.front_unique (hspot r hr) (hspot t ht) hp) ?_
  refine h.spots.pending.1.append ?_ fun r hr hr' => ?_
  · refine List.nodup_flatMap.2 ⟨fun i _ => ?_, ?_⟩
    · have hlen := h.length_requests i
      have hle := Bool.toNat_le (s.walkers i).active
      match hl : (s.walkers i).requests with
      | [] => exact List.nodup_nil
      | [r] => exact List.nodup_singleton r
      | _ :: _ :: _ =>
        rw [hl] at hlen
        simp only [List.length_cons] at hlen
        omega
    · refine List.Pairwise.imp_of_mem ?_ List.nodup_range
      intro i j _ _ hij r hi hj
      rcases h.mem_requests.1 hi with hi | hi <;> rcases h.mem_requests.1 hj with hj | hj <;>
        rw [hi] at hj <;> simp at hj
      · exact hij hj
      · exact hij hj
  · obtain ⟨i, _, hi⟩ := List.mem_flatMap.1 hr'
    have hq := h.spots.pending.mem_iff.1 hr
    rcases h.mem_requests.1 hi with hi | hi <;> rw [hi] at hq <;> cases hq

theorem Inv.count_inProgress : s.curOutstandingWalks = (s.inProgress c).length := by
  rw [h.walkers.count]
  have hsum (n : ℕ) : tableSum n (fun w => w.active.toNat) s.walkers =
      ((List.range n).flatMap fun i => (s.walkers i).requests).length := by
    induction n with
    | zero => rfl
    | succ n ih =>
      rw [List.range_succ, List.flatMap_append, List.length_append, ← ih, List.flatMap_singleton,
        h.length_requests n]
      exact Finset.sum_range_succ _ n
  exact_mod_cast hsum c.pagewalkers

/-- When nothing happens any more, no request waits. -/
theorem Inv.idle (hidle : s.Idle) :
    s.startMisses = [] ∧ s.pendingFaults = [] ∧ ∀ p, s.outstandingWalks p = [] := by
  -- The kernel can always go on with its fault.
  have hnotKernel : s.outstandingFaultStatus ≠ .inKernel := by
    intro hs
    obtain ⟨hinfo, hreg, t, ht, hlt⟩ := h.kernel.inKernel hs
    obtain ⟨r, hr⟩ := Option.isSome_iff_exists.1 hinfo
    have hin (a : Act) (ha : s.enabled s.now a) : Allowed s ⟨s.now, a⟩ := by
      refine ⟨Nat.le_refl _, fun t' ht' => ?_, ha⟩
      have : s.faultTimeout = some t := ht
      rw [this] at ht'
      cases ht'
      exact hlt
    rcases hreg with hreg | hreg
    · exact hidle ⟨s.now, .takeFault⟩ rfl (hin _ hreg)
    · cases hwalk : s.pageTable.walk r with
      | none =>
        exact hidle ⟨s.now, .mapPage ⟨0, fun _ => true⟩⟩ rfl (hin _ ⟨hs, hreg, r, hr, hwalk, rfl⟩)
      | some paddr =>
        exact hidle ⟨s.now, .finishPageFault r.vaddr⟩ rfl
          (hin _ ⟨hs, hreg, r, hr, by rw [hwalk]; rfl, rfl⟩)
  have hnoTimeout : s.faultTimeout = none := by
    cases hs : s.outstandingFaultStatus with
    | none => exact (h.kernel.idle hs).2.2
    | inKernel => exact absurd hs hnotKernel
    | retrying => exact (h.kernel.retrying hs).2.1
  -- Without a fault in the kernel, the events of the object fire in time.
  have hin (now : ℕ) (a : Act) (hnow : s.now ≤ now) (ha : s.enabled now a) : Allowed s ⟨now, a⟩ :=
    ⟨hnow, by simp [hnoTimeout], ha⟩
  have hstart : s.startMisses = [] := by
    cases hq : s.startMisses with
    | nil => rfl
    | cons r rest =>
      exact absurd (hin (max s.now r.startTick) .handleTLBMiss (Nat.le_max_left ..)
        ⟨r, by rw [hq]; rfl, Nat.le_max_right ..⟩) (hidle _ rfl)
  have hfree (i : ℕ) : (s.walkers i).event = none ∧ (s.walkers i).walking = none := by
    constructor
    · cases hev : (s.walkers i).event with
      | none => rfl
      | some x =>
        exact absurd (hin (max s.now x.2) (.startPagewalk i) (Nat.le_max_left ..)
          ⟨x, hev, Nat.le_max_right ..⟩) (hidle _ rfl)
    · cases hw : (s.walkers i).walking with
      | none => rfl
      | some r =>
        exact absurd (hin s.now (.finishWalk i) (Nat.le_refl _)
          (show (s.walkers i).walking.isSome = true by rw [hw]; rfl)) (hidle _ rfl)
  have hpending : s.pendingWalks = [] := by
    by_contra hne
    have hactive := (h.walkers.active 0).1 (h.walkers.full hne 0 c.pagewalkers_pos)
    simp [hfree 0] at hactive
  have hnoWalk (r : Request) : (spot r).walks = false := by
    cases hsp : spot r with
    | none | kernel | faultQueue => rfl
    | hand =>
      have := (h.spots.hand r).2 hsp
      cases this
    | queued =>
      have := h.spots.pending.mem_iff.2 hsp
      rw [hpending] at this
      cases this
    | scheduled i =>
      have := (h.spots.scheduled i r).2 hsp
      rw [(hfree i).1] at this
      cases this
    | walking i =>
      have := (h.spots.walking i r).2 hsp
      rw [(hfree i).2] at this
      cases this
  have hstatus : s.outstandingFaultStatus = .none := by
    cases hs : s.outstandingFaultStatus with
    | none => rfl
    | inKernel => exact absurd hs hnotKernel
    | retrying =>
      obtain ⟨_, _, r, _, hwalks, _⟩ := h.kernel.retrying hs
      rw [hnoWalk r] at hwalks
      cases hwalks
  have hfaults : s.pendingFaults = [] := (h.kernel.idle hstatus).1
  refine ⟨hstart, hfaults, fun p => ?_⟩
  cases hl : s.outstandingWalks p with
  | nil => rfl
  | cons r walks =>
    have hvp : r.vpBase = p :=
      ((h.lists.pages p).mem_iff.1 (by rw [hl]; exact List.mem_cons_self)).2
    have hfront := (h.lists.front r).2 (by rw [hvp, hl]; rfl)
    have hsp := (h.link r).1 hfront
    have hwalks := hnoWalk r
    cases hspr : spot r with
    | none => exact absurd hspr hsp
    | kernel =>
      have := (h.spots.kernel r).2 hspr
      rw [State.kernel_eq_none hnotKernel] at this
      cases this
    | faultQueue =>
      have := h.spots.faults.mem_iff.2 hspr
      rw [hfaults] at this
      cases this
    | hand | queued | scheduled i | walking i => rw [hspr] at hwalks; cases hwalks

end Reading

/-- In a run whose walks end with what the page table gives, every miss waits or is answered,
and never twice; the answers are those of the page table.  A page has at most one walk that
is pending or in progress, the flags and the counter of the walkers are exact, and at most
one fault is in the kernel.  No assertion fails.  Without new misses the run ends after at
most `work` events, and then every miss is answered and no fault is pending. -/
theorem misses_are_answered_once (hfs : c.fullSystem = true)
    (hpf : c.prefetchBufferSize = 0) (h : Reaches c table s) :
    (∀ r ∈ s.misses, s.occurrences r = 1) ∧
    (∀ a ∈ s.answers, a.request ∈ s.misses ∧ a.Right) ∧
    ((s.pendingWalks ++ s.inProgress c).map Request.vpBase).Nodup ∧
    (∀ i, (s.walkers i).active = true ↔ (s.walkers i).requests ≠ []) ∧
    s.curOutstandingWalks = (s.inProgress c).length ∧
    s.raised = s.handled ++ s.faults.kernel.toList ∧
    (∀ e, Allowed s e → Current s e.act → ∃ s', step c s e = .ok s') ∧
    (∀ es s', Meets (step c) (fun s e => (Allowed s e ∧ Current s e.act) ∧ e.act.isMiss = false)
        s es →
      run (step c) s es = .ok s' → es.length ≤ s.work c) ∧
    (s.Idle → s.pendingFaults = [] ∧
      ∀ r ∈ s.misses, (s.answers.map Answer.request).count r = 1) := by
  have hsound := h.sound hfs hpf
  obtain ⟨kind, spot, hinv⟩ := hsound
  refine ⟨fun r hr => hinv.occurrences_eq hr, fun a ha => ⟨?_, hinv.translations.right a ha⟩,
    hinv.nodup_walks, fun i => ?_, hinv.count_inProgress, hinv.kernel.log, fun e ha hc => ?_,
    fun es s' hmeets hrun => ?_, fun hidle => ?_⟩
  · have hdone := hinv.lists.answered.mem_iff.1 (List.mem_map_of_mem ha)
    exact hinv.lists.misses.mem_iff.2 (by simp [hdone])
  · have hlen := hinv.length_requests i
    cases hact : (s.walkers i).active with
    | false =>
      rw [hact] at hlen
      simp [List.length_eq_zero_iff.1 hlen]
    | true =>
      rw [hact] at hlen
      refine ⟨fun _ hnil => ?_, fun _ => rfl⟩
      rw [hnil] at hlen
      cases hlen
  · obtain ⟨s', hs', _⟩ := (step_sound hfs hpf ⟨kind, spot, hinv⟩ ha hc).exists_ok
    exact ⟨s', hs'⟩
  · have hle := Meets.length_le (I := Sound c) (s := s) ⟨kind, spot, hinv⟩
      (fun s e hs ha => (step_sound hfs hpf hs ha.1.1 ha.1.2).mono
        (fun s' hs' => ⟨hs'.1, hs'.2 ha.2⟩) fun _ => False.elim) hmeets hrun
    omega
  · obtain ⟨hstart, hfaults, hpages⟩ := hinv.idle hidle
    refine ⟨hfaults, fun r hr => ?_⟩
    have hocc := hinv.occurrences_eq hr
    unfold State.occurrences at hocc
    rw [hstart, hpages] at hocc
    simpa using hocc

end Runs

section Example

instance (s : State) (now : ℕ) : (a : Act) → Decidable (s.enabled now a)
  | .beginTLBMiss _ _ _ => .isTrue trivial
  | .handleTLBMiss => inferInstanceAs (Decidable (∃ r ∈ s.startMisses.head?, r.startTick ≤ now))
  | .startPagewalk i => inferInstanceAs (Decidable (∃ x ∈ (s.walkers i).event, x.2 ≤ now))
  | .finishWalk i => inferInstanceAs (Decidable ((s.walkers i).walking.isSome = true))
  | .takeFault => inferInstanceAs (Decidable (s.inFault = 1))
  | .mapPage e => inferInstanceAs (Decidable (s.outstandingFaultStatus = .inKernel ∧ s.inFault = 2 ∧
      ∃ r ∈ s.outstandingFaultInfo, s.pageTable.walk r = none ∧ e.allows r.mode = true))
  | .finishPageFault cr2 =>
    inferInstanceAs (Decidable (s.outstandingFaultStatus = .inKernel ∧ s.inFault = 2 ∧
      ∃ r ∈ s.outstandingFaultInfo, (s.pageTable.walk r).isSome = true ∧ cr2 = r.vaddr))

instance (s : State) (e : Event) : Decidable (Allowed s e) :=
  decidable_of_iff (s.now ≤ e.now ∧ (∀ t ∈ s.faultTimeout, e.now < t) ∧ s.enabled e.now e.act)
    ⟨fun h => ⟨h.1, h.2.1, h.2.2⟩, fun h => ⟨h.time, h.inTime, h.enabled⟩⟩

instance (s : State) : (a : Act) → Decidable (Current s a)
  | .finishWalk i => inferInstanceAs (Decidable (∀ r ∈ (s.walkers i).walking, _))
  | .beginTLBMiss _ _ _ | .handleTLBMiss | .startPagewalk _ | .takeFault | .mapPage _
  | .finishPageFault _ => .isTrue trivial

/-- One page walker and a second-level TLB of two entries. -/
def oneWalker : Config where
  fullSystem := true
  clockPeriod := 1
  latency := 1
  pagewalkers := 1
  l2TlbEntries := 2
  l2TlbAssoc := 1
  prefetchBufferSize := 0
  clockPeriod_pos := by decide
  pagewalkers_pos := by decide
  assoc_dvd := by decide

/-- Only the page at zero is mapped. -/
def onePage : PageTable := fun vp => if vp = 0 then some ⟨7, fun _ => true⟩ else none

/-- Two misses of a page that is not mapped, and one of the page at zero. -/
def faultedPage : List Event :=
  [⟨0, .beginTLBMiss 0 4100 .write⟩, ⟨0, .beginTLBMiss 1 4104 .read⟩, ⟨0, .beginTLBMiss 0 8 .read⟩,
    ⟨1, .handleTLBMiss⟩, ⟨1, .handleTLBMiss⟩, ⟨1, .handleTLBMiss⟩,
    ⟨2, .startPagewalk 0⟩, ⟨3, .finishWalk 0⟩, ⟨4, .startPagewalk 0⟩, ⟨5, .finishWalk 0⟩,
    ⟨6, .takeFault⟩, ⟨7, .mapPage ⟨9, fun _ => true⟩⟩, ⟨8, .finishPageFault 4100⟩,
    ⟨9, .startPagewalk 0⟩, ⟨10, .finishWalk 0⟩]

theorem faultedPage_ends :
    Post (run (step oneWalker) (.initial oneWalker onePage) faultedPage) (fun _ => False) fun s =>
      Meets (step oneWalker) (fun s e => Allowed s e ∧ Current s e.act)
        (.initial oneWalker onePage) faultedPage ∧ s.misses.length = 3 ∧
      s.answers.map Answer.paddr = [7 * 4096 + 8, 9 * 4096 + 4, 9 * 4096 + 8] := by
  decide +kernel

/-- The fault of the first page is taken while the other page is answered. -/
theorem faultedPage_is_answered : ∃ s, Reaches oneWalker onePage s ∧ s.misses.length = 3 ∧
      s.answers.map Answer.paddr = [7 * 4096 + 8, 9 * 4096 + 4, 9 * 4096 + 8] ∧
      (∀ r ∈ s.misses, s.occurrences r = 1) ∧ ∀ a ∈ s.answers, a.Right := by
  obtain ⟨s, hrun, hmeets, hlen, hanswers⟩ := faultedPage_ends.exists_ok
  have hreach : Reaches oneWalker onePage s := Reach.of_meets .start hmeets hrun
  have h := misses_are_answered_once rfl rfl hreach
  exact ⟨s, hreach, hlen, hanswers, h.1, fun a ha => (h.2.1 a ha).2⟩

/-- The page at zero may be read. -/
def readOnlyPage : PageTable := fun vp => if vp = 0 then some ⟨7, fun m => m == .read⟩ else none

/-- A write of the page faults, and the kernel makes the page writable. -/
def protectedPage : List Event :=
  [⟨0, .beginTLBMiss 0 8 .write⟩, ⟨1, .handleTLBMiss⟩, ⟨2, .startPagewalk 0⟩, ⟨3, .finishWalk 0⟩,
    ⟨4, .takeFault⟩, ⟨5, .mapPage ⟨7, fun _ => true⟩⟩, ⟨6, .finishPageFault 8⟩,
    ⟨7, .startPagewalk 0⟩]

theorem protectedPage_ends :
    Post (run (step oneWalker) (.initial oneWalker readOnlyPage) protectedPage) (fun _ => False)
      fun s => Meets (step oneWalker) Allowed (.initial oneWalker readOnlyPage) protectedPage ∧
        Allowed s ⟨7, .finishWalk 0⟩ ∧ s.misses.all (fun r => (s.pageTable.walk r).isSome) ∧
        Post (step oneWalker s ⟨7, .finishWalk 0⟩) (· = .panicRefault) (fun _ => False) := by
  decide +kernel

/-- The walker still holds the entry of the first walk, so the access that the page table
allows faults again. -/
theorem stale_entry_faults_again : ∃ s, Reach (step oneWalker) Allowed
      (.initial oneWalker readOnlyPage) s ∧ Allowed s ⟨7, .finishWalk 0⟩ ∧
      (∀ r ∈ s.misses, (s.pageTable.walk r).isSome = true) ∧
      step oneWalker s ⟨7, .finishWalk 0⟩ = .error .panicRefault := by
  obtain ⟨s, hrun, hmeets, hallowed, hmapped, hfault⟩ := protectedPage_ends.exists_ok
  exact ⟨s, Reach.of_meets .start hmeets hrun, hallowed, List.all_eq_true.1 hmapped,
    hfault.eq_error⟩

end Example

end Gem5Gpu.GPU.MMU
