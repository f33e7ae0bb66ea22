import Gem5Gpu.GPU.LSQPlaces

/-!
# Instructions in the load-store queue

A buffer of the pool is free, being filled, in the queue of its warp, issued (all
its accesses are in the cache hierarchy), or waiting to commit; `Bufs` says that
the containers of buffers agree with these stages.

`Prog` relates the stages of the buffers to the places of the accesses.  The
accesses that were not sent belong to queued instructions, and those in the inject
buffer or parked belong to the instruction at the head.  The queue of a warp is in
program order, and an instruction that left it is older than all that are in it.
From this follow the order in which the cache takes the accesses
(`Prog.accepted`) and that an older access is ejected when a fence leaves the
queue (`Prog.fences`).
-/

namespace Gem5Gpu.GPU.LSQ

open Lib Function

inductive Stage
  | free
  | dispatch
  | queued (w : ℕ)
  | issued
  | committing
deriving DecidableEq, Repr

/-- The buffer holds a dispatched instruction. -/
def Stage.inUse : Stage → Bool
  | .free => false
  | .dispatch => false
  | _ => true

/-! ## The pool -/

/-- The containers of buffers. -/
structure Pool where
  available : List ℕ
  dispatch : Option ℕ
  queues : ℕ → List ℕ
  commit : List ℕ

def State.pool (s : State) : Pool where
  available := s.availableWarpInstBufs
  dispatch := s.dispatchWarpInstBuf
  queues := s.perWarpInstructionQueues
  commit := s.commitInstBuffer

/-- Each container holds the buffers of its stage. -/
structure Bufs (size : ℕ) (stage : ℕ → Stage) (Q : Pool) : Prop where
  available : Holds stage (fun b st => st = .free ∧ b < size) Q.available
  dispatch : ∀ b, Q.dispatch = some b ↔ stage b = .dispatch
  queue : ∀ w, Holds stage (fun _ st => st = .queued w) (Q.queues w)
  commit : Holds stage (fun _ st => st = .committing) Q.commit
  bound : ∀ b, stage b ≠ .free → b < size

namespace Bufs

variable {size : ℕ} {stage : ℕ → Stage} {Q : Pool} {b w : ℕ} {rest : List ℕ}

theorem initial (c : Config) :
    Bufs c.warpInstBufPoolSize (fun _ => .free) (State.pool (.initial c)) where
  available := ⟨List.nodup_range, fun b => by simp [State.pool, State.initial]⟩
  dispatch := fun b => by simp [State.pool, State.initial]
  queue := fun w => ⟨List.nodup_nil, fun b => by simp [State.pool, State.initial]⟩
  commit := ⟨List.nodup_nil, fun b => by simp [State.pool, State.initial]⟩
  bound := fun b hb => absurd rfl hb

variable (h : Bufs size stage Q)
include h

theorem mem_queue : b ∈ Q.queues w ↔ stage b = .queued w :=
  (h.queue w).mem_iff

/-- The bound after a buffer of the pool changed its stage. -/
theorem bound_update (hb : b < size) (st : Stage) : ∀ x, update stage b st x ≠ .free → x < size :=
  (forall_update_iff stage fun x st => st ≠ .free → x < size).2 ⟨fun _ => hb, fun x _ => h.bound x⟩

theorem lt_of_stage {st : Stage} (hb : stage b = st) (hst : st ≠ .free) : b < size :=
  h.bound b (hb ▸ hst)

theorem stage_head (hq : Q.queues w = b :: rest) : stage b = .queued w :=
  h.mem_queue.1 (by rw [hq]; exact List.mem_cons_self)

theorem take (hq : Q.available = b :: rest) (hd : Q.dispatch = none) :
    Bufs size (update stage b .dispatch) { Q with available := rest, dispatch := some b } := by
  have havail := h.available
  rw [hq] at havail
  obtain ⟨hfree, hlt⟩ := havail.mem_iff.1 List.mem_cons_self
  refine ⟨havail.leaveFront (by simp), fun x => ?_, fun w => (h.queue w).keep (by simp [hfree]),
    h.commit.keep (by simp [hfree]), h.bound_update hlt _⟩
  by_cases hx : x = b
  · subst hx
    simp
  · have hne := (h.dispatch x).not.1 (by simp [hd])
    simp [update_of_ne hx, hne, Ne.symm hx]

theorem enqueue (hd : Q.dispatch = some b) (w : ℕ) : Bufs size (update stage b (.queued w))
      { Q with dispatch := none, queues := update Q.queues w (Q.queues w ++ [b]) } := by
  have hb := (h.dispatch b).1 hd
  refine ⟨h.available.keep (by simp [hb]), fun x => ?_, fun v => ?_, h.commit.keep (by simp [hb]),
    h.bound_update (h.lt_of_stage hb (by simp)) _⟩
  · by_cases hx : x = b
    · subst hx
      simp
    · have hne : stage x ≠ .dispatch := fun hx' => by
        have := (h.dispatch x).2 hx'
        rw [hd] at this
        exact hx (Option.some.inj this).symm
      simp [update_of_ne hx, hne]
  · by_cases hv : v = w
    · subst hv
      simp only [update_self]
      exact (h.queue v).enter (by simp [hb]) rfl
    · simp only [update_of_ne hv]
      exact (h.queue v).keep (by simp [hb, Ne.symm hv])

/-- The buffer at the head of a queue leaves it. -/
theorem dequeue (hq : Q.queues w = b :: rest) {st : Stage} (hst : st = .issued) :
    Bufs size (update stage b st) { Q with queues := update Q.queues w rest } := by
  have hb := h.stage_head hq
  have hqueue := h.queue w
  rw [hq] at hqueue
  subst hst
  refine ⟨h.available.keep (by simp [hb]), fun x => ?_, fun v => ?_, h.commit.keep (by simp [hb]),
    h.bound_update (h.lt_of_stage hb (by simp)) _⟩
  · by_cases hx : x = b
    · subst hx
      simp [h.dispatch, hb]
    · simp [h.dispatch, update_of_ne hx]
  · by_cases hv : v = w
    · subst hv
      simp only [update_self]
      exact hqueue.leaveFront (by simp)
    · simp only [update_of_ne hv]
      exact (h.queue v).keep (by simp [hb, Ne.symm hv])

theorem push (hb : stage b = .issued) :
    Bufs size (update stage b .committing) { Q with commit := Q.commit ++ [b] } := by
  refine ⟨h.available.keep (by simp [hb]), fun x => ?_, fun v => (h.queue v).keep (by simp [hb]),
    h.commit.enter (by simp [hb]) rfl, h.bound_update (h.lt_of_stage hb (by simp)) _⟩
  by_cases hx : x = b
  · subst hx
    simp [h.dispatch, hb]
  · simp [h.dispatch, update_of_ne hx]

theorem recycle (hq : Q.commit = b :: rest) : Bufs size (update stage b .free)
      { Q with commit := rest, available := Q.available ++ [b] } := by
  have hcommit := h.commit
  rw [hq] at hcommit
  have hb := hcommit.mem_iff.1 List.mem_cons_self
  have hlt := h.lt_of_stage hb (by simp)
  refine ⟨h.available.enter (by simp [hb]) ⟨rfl, hlt⟩, fun x => ?_,
    fun v => (h.queue v).keep (by simp [hb]), hcommit.leaveFront (by simp), h.bound_update hlt _⟩
  by_cases hx : x = b
  · subst hx
    simp [h.dispatch, hb]
  · simp [h.dispatch, update_of_ne hx]

end Bufs

section Queues

variable {queues : ℕ → List ℕ} {inst : ℕ → ℕ} {b v w x : ℕ}

theorem mem_enqueue : x ∈ update queues w (queues w ++ [b]) v ↔ x ∈ queues v ∨ x = b ∧ v = w := by
  by_cases hv : v = w
  · subst hv
    simp
  · rw [update_of_ne hv]
    simp [hv]

/-- The head of a queue with an instruction stays. -/
theorem head?_enqueue (hx : x ∈ queues v) :
    (update queues w (queues w ++ [b]) v).head? = (queues v).head? := by
  by_cases hv : v = w
  · subst hv
    rw [update_self, List.head?_append_of_ne_nil _ (List.ne_nil_of_mem hx)]
  · rw [update_of_ne hv]

/-- An instruction of a program with one more instruction. -/
theorem getElem?_push {insts : List Inst} {i j : Inst} {n : ℕ}
    (h : (insts ++ [i])[n]? = some j) :
    insts[n]? = some j ∧ n < insts.length ∨ n = insts.length ∧ j = i := by
  rcases lt_trichotomy n insts.length with hlt | rfl | hgt
  · rw [List.getElem?_append_left hlt] at h
    exact .inl ⟨h, hlt⟩
  · simp at h
    exact .inr ⟨rfl, h.symm⟩
  · rw [List.getElem?_eq_none (by simp; omega)] at h
    cases h

/-- A queue in program order stays so when a younger instruction enters. -/
theorem pairwise_enqueue (h : (queues v).Pairwise fun x y => inst x < inst y)
    (hb : ∀ x ∈ queues v, inst x < inst b) :
    (update queues w (queues w ++ [b]) v).Pairwise fun x y => inst x < inst y := by
  by_cases hv : v = w
  · subst hv
    rw [update_self, List.pairwise_append]
    refine ⟨h, List.pairwise_singleton _ _, fun x hx y hy => ?_⟩
    rw [List.mem_singleton.1 hy]
    exact hb x hx
  · rwa [update_of_ne hv]

/-- The buffers in use have different instructions when `b` gets the youngest one. -/
theorem eq_of_inst_eq {P : ℕ → Prop} {y : ℕ}
    (hinj : x ≠ b → y ≠ b → P x → P y → inst x = inst y → x = y)
    (hb : ∀ z, z ≠ b → P z → inst z < inst b) (hx : P x) (hy : P y)
    (heq : inst x = inst y) : x = y := by
  by_cases hxb : x = b
  · by_contra hne
    have hlt := hb y (fun hyb => hne (hxb.trans hyb.symm)) hy
    rw [← heq, hxb] at hlt
    omega
  · by_cases hyb : y = b
    · have hlt := hb x hxb hx
      rw [heq, hyb] at hlt
      omega
    · exact hinj hxb hyb hx hy heq

/-- The head of a queue leaves it, and is in no other one. -/
theorem mem_dequeue {rest : List ℕ} (hq : queues w = b :: rest) (hrest : b ∉ rest)
    (hb : ∀ v, b ∈ queues v → v = w) : x ∈ update queues w rest v ↔ x ∈ queues v ∧ x ≠ b := by
  by_cases hv : v = w
  · subst hv
    rw [update_self, hq, List.mem_cons]
    refine ⟨fun hx => ⟨.inr hx, fun heq => hrest (heq ▸ hx)⟩, fun hx => hx.1.resolve_left hx.2⟩
  · rw [update_of_ne hv]
    exact ⟨fun hx => ⟨hx, fun heq => hv (hb v (heq ▸ hx))⟩, And.left⟩

end Queues

/-! ## The program -/

/-- What program order reads of a state. -/
structure Program where
  insts : List Inst
  queues : ℕ → List ℕ
  inst : ℕ → ℕ
  fence : ℕ → Bool
  outstanding : ℕ → ℕ
  cache : List Access
  eject : List Access
  accepted : List Access
  pushed : List ℕ

def State.program (s : State) : Program where
  insts := s.insts
  queues := s.perWarpInstructionQueues
  inst := fun b => (s.bufs b).inst
  fence := fun b => (s.bufs b).isFence
  outstanding := s.perWarpOutstandingAccesses
  cache := s.cache
  eject := s.ejectBuffer
  accepted := s.accepted
  pushed := s.pushed

/-- The instructions, the stages of their buffers and the places of their accesses
agree. -/
structure Prog (place : Access → Place) (stage : ℕ → Stage) (R : Program) : Prop where
  wf : ∀ (n : ℕ) (i : Inst), R.insts[n]? = some i →
    (∀ a ∈ i.accesses, a.inst = n ∧ a.warp = i.warp) ∧ (i.type = .fence → i.accesses = [])
  known : ∀ a, place a ≠ .none ↔ ∃ i : Inst, R.insts[a.inst]? = some i ∧ a ∈ i.accesses
  live : ∀ a, place a ≠ .none → place a ≠ .done → R.inst a.buf = a.inst
  held : ∀ b, (stage b).inUse = true → ∃ i : Inst, R.insts[R.inst b]? = some i ∧
    (R.fence b = true ↔ i.type = .fence) ∧ ∀ w, stage b = .queued w → i.warp = w
  inj : ∀ b b', (stage b).inUse = true → (stage b').inUse = true → R.inst b = R.inst b' → b = b'
  mem_queue : ∀ b w, b ∈ R.queues w ↔ stage b = .queued w
  unsent : ∀ a, (place a).unsent = true → stage a.buf = .queued a.warp
  sent : ∀ a, place a = .cache ∨ place a = .eject →
    stage a.buf = .queued a.warp ∨ stage a.buf = .issued
  head : ∀ a, (place a).isTranslated = true → place a ≠ .behind →
    stage a.buf = .queued a.warp → (R.queues a.warp).head? = some a.buf
  behind : ∀ a, place a = .behind → (R.queues a.warp).head? ≠ some a.buf
  order : ∀ w, (R.queues w).Pairwise fun b b' => R.inst b < R.inst b'
  older : ∀ (n : ℕ) (i : Inst), R.insts[n]? = some i →
    (∃ b ∈ R.queues i.warp, R.inst b = n) ∨ ∀ b ∈ R.queues i.warp, n < R.inst b
  count : ∀ w, R.outstanding w = R.cache.countP (·.warp = w) + R.eject.countP (·.warp = w)
  fences : ∀ (n : ℕ) (i : Inst), R.insts[n]? = some i → i.type = .fence →
    (∀ b ∈ R.queues i.warp, R.inst b ≠ n) →
    ∀ a, a.inst < n → a.warp = i.warp → place a ≠ .none → place a = .done
  accepted : ∀ a l l', R.accepted = l ++ a :: l' →
    ∀ b, b.inst < a.inst → b.warp = a.warp → place b ≠ .none → b ∈ l
  pushed : ∀ n ∈ R.pushed, n < R.insts.length ∧ ∀ w, ∀ b ∈ R.queues w, R.inst b ≠ n

/-- A queued instruction that has accesses has one that is not sent. -/
def Full (place : Access → Place) (stage : ℕ → Stage) (R : Program) : Prop :=
  ∀ b w, stage b = .queued w → ∀ a, a.inst = R.inst b → place a ≠ .none →
    ∃ a', (place a').unsent = true ∧ a'.buf = b

/-- A fence at the head of a queue waits for an access. -/
def FencesWait (R : Program) : Prop :=
  ∀ w b, (R.queues w).head? = some b → R.fence b = true → 0 < R.outstanding w

namespace Prog

variable {place : Access → Place} {stage : ℕ → Stage} {R : Program} {a : Access} {b w : ℕ}

theorem initial (c : Config) :
    Prog (fun _ => .none) (fun _ => .free) (State.program (.initial c)) := by
  constructor <;> simp [State.program, State.initial, Stage.inUse, Place.unsent]

/-- The access is in the load-store queue or in the cache hierarchy. -/
theorem live_of_unsent (ha : (place a).unsent) : place a ≠ .none ∧ place a ≠ .done := by
  constructor <;> (intro hp; simp [hp, Place.unsent] at ha)

theorem live_of_sent (ha : place a = .cache ∨ place a = .eject) :
    place a ≠ .none ∧ place a ≠ .done := by
  rcases ha with ha | ha <;> simp [ha]

theorem live_of_translated (ha : (place a).isTranslated) :
    place a ≠ .none ∧ place a ≠ .done := by
  constructor <;> (intro hp; simp [hp, Place.isTranslated] at ha)

theorem inUse_update {st : Stage} (hb : st.inUse = (stage b).inUse) :
    ∀ x, (update stage b st x).inUse = (stage x).inUse :=
  (forall_update_iff stage fun x st => st.inUse = (stage x).inUse).2 ⟨hb, fun _ _ => rfl⟩

section

variable (h : Prog place stage R)
include h

/-- The number of an instruction in use. -/
theorem inst_lt (hb : (stage b).inUse) : R.inst b < R.insts.length := by
  obtain ⟨i, hi, -⟩ := h.held b hb
  exact (List.getElem?_eq_some_iff.1 hi).1

theorem warp_eq (ha : place a ≠ .none) :
    ∃ i, R.insts[a.inst]? = some i ∧ a ∈ i.accesses ∧ i.warp = a.warp := by
  obtain ⟨i, hi, hmem⟩ := (h.known a).1 ha
  exact ⟨i, hi, hmem, ((h.wf _ i hi).1 a hmem).2.symm⟩

/-- An access that is not sent is in the queue of its warp. -/
theorem queued_of_unsent (ha : (place a).unsent) :
    a.buf ∈ R.queues a.warp ∧ R.inst a.buf = a.inst := by
  obtain ⟨hnone, hdone⟩ := live_of_unsent ha
  exact ⟨(h.mem_queue _ _).2 (h.unsent a ha), h.live a hnone hdone⟩

/-- An access of an older instruction than the head is sent. -/
theorem sent_of_lt_head {f : ℕ} (hf : (R.queues w).head? = some f)
    (hw : a.warp = w) (hlt : a.inst < R.inst f) :
    (place a).unsent = false := by
  rw [← Bool.not_eq_true]
  intro hun
  obtain ⟨hmem, hinst⟩ := h.queued_of_unsent hun
  rw [hw] at hmem
  have horder := h.order w
  cases hq : R.queues w with
  | nil =>
    rw [hq] at hmem
    cases hmem
  | cons x rest =>
    rw [hq] at hf hmem horder
    obtain rfl : x = f := Option.some.inj hf
    rcases List.mem_cons.1 hmem with heq | hmem
    · rw [← heq] at hlt
      omega
    · have := List.rel_of_pairwise_cons horder hmem
      omega

/-! ### Moves of accesses -/

/-- An access changes its place. -/
theorem move {q : Place} (hnone : q = .none ↔ place a = .none) (hdone : place a = .done → q = .done)
    (hunsent : q.unsent → stage a.buf = .queued a.warp)
    (hsent : q = .cache ∨ q = .eject → stage a.buf = .queued a.warp ∨ stage a.buf = .issued)
    (hhead : q.isTranslated → q ≠ .behind → stage a.buf = .queued a.warp →
      (R.queues a.warp).head? = some a.buf)
    (hbehind : q = .behind → (R.queues a.warp).head? ≠ some a.buf) :
    Prog (update place a q) stage R := by
  have hnone' : ∀ x, update place a q x ≠ .none ↔ place x ≠ .none :=
    (forall_update_iff place fun x q => q ≠ .none ↔ place x ≠ .none).2
      ⟨hnone.not, fun _ _ => Iff.rfl⟩
  have hdone' : ∀ x, place x = .done → update place a q x = .done :=
    (forall_update_iff place fun x q => place x = .done → q = .done).2 ⟨hdone, fun _ _ => id⟩
  exact {
    h with
    known := fun x => (hnone' x).trans (h.known x)
    live := fun x hx hx' => h.live x ((hnone' x).1 hx) fun hd => hx' (hdone' x hd)
    unsent := (forall_update_iff place fun x q => q.unsent → stage x.buf = .queued x.warp).2
      ⟨hunsent, fun x _ => h.unsent x⟩
    sent := (forall_update_iff place fun x q => q = .cache ∨ q = .eject →
      stage x.buf = .queued x.warp ∨ stage x.buf = .issued).2 ⟨hsent, fun x _ => h.sent x⟩
    head := (forall_update_iff place fun x q => q.isTranslated → q ≠ .behind →
      stage x.buf = .queued x.warp → (R.queues x.warp).head? = some x.buf).2
        ⟨hhead, fun x _ => h.head x⟩
    behind := (forall_update_iff place fun x q => q = .behind →
      (R.queues x.warp).head? ≠ some x.buf).2 ⟨hbehind, fun x _ => h.behind x⟩
    fences := fun n i hi hf hq x hlt hw hx =>
      hdone' x (h.fences n i hi hf hq x hlt hw ((hnone' x).1 hx))
    accepted := fun x l l' hl y hlt hw hy => h.accepted x l l' hl y hlt hw ((hnone' y).1 hy) }

/-- An access that is not sent changes its place. -/
theorem shift {p : Place} (ha : (place a).unsent)
    (hp : p.unsent) (hbehind : p = .behind → (R.queues a.warp).head? ≠ some a.buf)
    (hhead : p = .inject ∨ p = .blocked → (R.queues a.warp).head? = some a.buf) :
    Prog (update place a p) stage R := by
  refine h.move ?_ ?_ (fun _ => h.unsent a ha) ?_ (fun hq hne _ => hhead ?_) hbehind
  · constructor <;> (intro hq; simp [hq, Place.unsent] at ha hp)
  · intro hq
    simp [hq, Place.unsent] at ha
  · rintro (hq | hq) <;> simp [hq, Place.unsent] at hp
  · cases p <;> simp_all [Place.unsent, Place.isTranslated]

/-- The cache takes an access of the instruction at the head. -/
theorem send (ha : place a = .inject) (hsent : ∀ x, x ∈ R.accepted ↔ (place x).isSent) :
    Prog (update place a .cache) stage { R with
      outstanding := update R.outstanding a.warp (R.outstanding a.warp + 1)
      cache := R.cache ++ [a]
      accepted := R.accepted ++ [a] } := by
  have hqueued : stage a.buf = .queued a.warp := h.unsent a (by rw [ha]; rfl)
  have hhead : (R.queues a.warp).head? = some a.buf := h.head a (by rw [ha]; rfl) (by simp [ha])
    hqueued
  have hplace : Prog (update place a .cache) stage R := h.move (by simp [ha]) (by simp [ha])
    (fun _ => hqueued) (fun _ => .inl hqueued) (fun _ _ _ => hhead) (by simp)
  exact {
    hplace with
    count := fun v => by
      have hv := h.count v
      by_cases hav : a.warp = v
      · subst hav
        simp only [update_self, List.countP_append, List.countP_singleton, decide_true, if_true]
        omega
      · simp only [update_of_ne (Ne.symm hav), List.countP_append,
          List.countP_singleton, hav, decide_false, Bool.false_eq_true, if_false]
        omega
    accepted := fun x l l' hl y hlt hw hy => by
      replace hl : R.accepted ++ [a] = l ++ x :: l' := hl
      -- either the new access is the last one of the log, or `x` was there before
      rcases List.eq_nil_or_concat l' with rfl | ⟨l₀, z, rfl⟩
      · have hinj := List.append_inj' hl rfl
        obtain ⟨rfl, hxa⟩ := hinj
        obtain rfl : a = x := by simpa using hxa
        rw [update_of_ne (by rintro rfl; omega)] at hy
        have hun := h.sent_of_lt_head hhead hw (by
          rwa [h.live a (by simp [ha]) (by simp [ha])])
        cases hp : place y <;> simp_all [Place.unsent, Place.isSent]
      · rw [List.concat_eq_append, ← List.cons_append, ← List.append_assoc] at hl
        exact hplace.accepted x l l₀ (List.append_inj' hl rfl).1 y hlt hw hy }

/-- The cache answers. -/
theorem respond (ha : place a = .cache) (hmem : a ∈ R.cache) :
    Prog (update place a .eject) stage { R with
      cache := R.cache.erase a
      eject := R.eject ++ [a] } := by
  have hplace : Prog (update place a .eject) stage R :=
    h.move (by simp [ha]) (by simp [ha]) (by simp [Place.unsent]) (fun _ => h.sent a (.inl ha))
      (fun _ _ => h.head a (by simp [ha, Place.isTranslated]) (by simp [ha])) (by simp)
  refine { hplace with count := fun v => ?_ }
  have hv := h.count v
  have hperm := (List.perm_cons_erase hmem).countP_eq (fun x : Access => decide (x.warp = v))
  rw [List.countP_cons] at hperm
  simp only [List.countP_append, List.countP_singleton]
  omega

/-- A response is ejected. -/
theorem finish (ha : place a = .eject) {rest : List Access} (hq : R.eject = a :: rest) :
    Prog (update place a .done) stage { R with
      outstanding := update R.outstanding a.warp (R.outstanding a.warp - 1)
      eject := rest } := by
  have hplace : Prog (update place a .done) stage R := h.move (by simp [ha]) (by simp)
    (by simp [Place.unsent]) (by simp) (by simp [Place.isTranslated]) (by simp)
  exact {
    hplace with
    count := fun v => by
      have hv := h.count v
      rw [hq, List.countP_cons] at hv
      by_cases hav : a.warp = v
      · subst hav
        simp only [decide_true, if_true] at hv
        simp only [update_self]
        omega
      · simp only [hav, decide_false, Bool.false_eq_true, if_false] at hv
        simp only [update_of_ne (Ne.symm hav)]
        omega }

end

/-! ### Moves of instructions -/

/-- The places after the instruction in `next` came to the head. -/
def promoted (place : Access → Place) (next : Option ℕ) (a : Access) : Place :=
  if place a = .behind ∧ some a.buf = next then .inject else place a

theorem promoted_iff {next : Option ℕ} {P : Place → Prop} (hP : P .behind ↔ P .inject) :
    P (promoted place next a) ↔ P (place a) := by
  unfold promoted
  split
  · rename_i hcond
    rw [hcond.1, hP]
  · rfl

theorem of_promoted {next : Option ℕ} (ha : promoted place next a ≠ place a) :
    place a = .behind ∧ promoted place next a = .inject ∧ next = some a.buf := by
  unfold promoted at ha ⊢
  split at ha
  · rename_i hcond
    rw [if_pos hcond]
    exact ⟨hcond.1, rfl, hcond.2.symm⟩
  · exact absurd rfl ha

variable (h : Prog place stage R)
include h

/-- The instruction at the head leaves the queue, and the next one may inject. -/
theorem leave {rest : List ℕ} {st : Stage} (hq : R.queues w = b :: rest)
    (hst : st = .issued ∨ st = .committing)
    (hsent : ∀ a, a.buf = b → (place a).unsent = false ∧
      (place a = .cache ∨ place a = .eject → st = .issued))
    (hfence : R.fence b → ∀ x, place x ≠ .none → x.warp = w → x.inst < R.inst b → place x = .done) :
    Prog (promoted place rest.head?) (update stage b st) { R with
      queues := update R.queues w rest } := by
  have hb : stage b = .queued w := (h.mem_queue b w).1 (by rw [hq]; exact List.mem_cons_self)
  obtain ⟨i₀, hi₀, hf₀, hw₀⟩ := h.held b (by rw [hb]; rfl)
  have hleft : ∀ v, st ≠ .queued v := by
    rcases hst with rfl | rfl <;> simp
  have horder := h.order w
  rw [hq] at horder
  have hnotin : b ∉ rest := fun hmem =>
    absurd (List.rel_of_pairwise_cons horder hmem) (Nat.lt_irrefl _)
  have huse : ∀ x, (update stage b st x).inUse = (stage x).inUse :=
    inUse_update (by rw [hb]; rcases hst with rfl | rfl <;> rfl)
  have hmem {v x : ℕ} : x ∈ update R.queues w rest v ↔ x ∈ R.queues v ∧ x ≠ b := by
    refine mem_dequeue hq hnotin fun v hv => ?_
    rw [h.mem_queue, hb] at hv
    exact (Stage.queued.inj hv).symm
  have hnone : ∀ x, promoted place rest.head? x ≠ .none ↔ place x ≠ .none := fun x =>
    promoted_iff (P := fun q => q ≠ .none) (by simp)
  have hdone : ∀ x, promoted place rest.head? x = .done ↔ place x = .done := fun x =>
    promoted_iff (P := fun q => q = .done) (by simp)
  exact {
    h with
    known := fun x => (hnone x).trans (h.known x)
    live := fun x hx hx' => h.live x ((hnone x).1 hx) ((hdone x).not.1 hx')
    held := fun x hx => by
      rw [huse] at hx
      obtain ⟨i, hi, hf, hw⟩ := h.held x hx
      refine ⟨i, hi, hf, fun v hv => hw v ?_⟩
      by_cases hxb : x = b
      · subst hxb
        rw [update_self] at hv
        exact absurd hv (hleft v)
      · rwa [update_of_ne hxb] at hv
    inj := fun x y hx hy => h.inj x y (huse x ▸ hx) (huse y ▸ hy)
    mem_queue := fun x v => by
      show x ∈ update R.queues w rest v ↔ _
      rw [hmem, h.mem_queue]
      by_cases hxb : x = b
      · subst hxb
        simp [hleft v]
      · simp [hxb]
    unsent := fun x hx => by
      rw [promoted_iff (P := fun q => q.unsent) (by simp [Place.unsent])] at hx
      rw [update_of_ne fun heq => by simp [(hsent x heq).1] at hx]
      exact h.unsent x hx
    sent := fun x hx => by
      rw [promoted_iff (P := fun q => q = .cache ∨ q = .eject) (by simp)] at hx
      by_cases hxb : x.buf = b
      · right
        rw [hxb, update_self]
        exact (hsent x hxb).2 hx
      · rw [update_of_ne hxb]
        exact h.sent x hx
    head := fun x hx hx' hstage => by
      have hxb : x.buf ≠ b := fun heq => by
        rw [heq, update_self] at hstage
        exact hleft _ hstage
      rw [update_of_ne hxb] at hstage
      by_cases hmoved : promoted place rest.head? x = place x
      · rw [hmoved] at hx hx'
        have hold := h.head x hx hx' hstage
        by_cases hw : x.warp = w
        · rw [hw, hq] at hold
          exact absurd (Option.some.inj hold).symm hxb
        · simp only [update_of_ne hw]
          exact hold
      · -- an access that is promoted was behind the head of this queue
        obtain ⟨-, -, hhead⟩ := of_promoted hmoved
        have hold : x.buf ∈ R.queues w := by
          rw [hq]
          exact List.mem_cons_of_mem _ (List.mem_of_mem_head? hhead)
        rw [h.mem_queue, hstage] at hold
        simp only [Stage.queued.inj hold, update_self]
        exact hhead
    behind := fun x hx => by
      have hmoved : promoted place rest.head? x = place x := by
        by_contra hne
        rw [(of_promoted hne).2.1] at hx
        cases hx
      rw [hmoved] at hx
      by_cases hw : x.warp = w
      · rw [hw]
        simp only [update_self]
        intro hhead
        unfold promoted at hmoved
        rw [if_pos ⟨hx, hhead.symm⟩, hx] at hmoved
        cases hmoved
      · simp only [update_of_ne hw]
        exact h.behind x hx
    order := fun v => by
      by_cases hv : v = w
      · subst hv
        simp only [update_self]
        exact (List.pairwise_cons.1 horder).2
      · simp only [update_of_ne hv]
        exact h.order v
    older := fun n i hi => by
      by_cases hv : i.warp = w
      · simp only [hv, update_self]
        have hold := h.older n i hi
        rw [hv, hq] at hold
        rcases hold with ⟨x, hx, hxn⟩ | hlt
        · rcases List.mem_cons.1 hx with rfl | hx
          · right
            exact fun y hy => hxn ▸ List.rel_of_pairwise_cons horder hy
          · exact .inl ⟨x, hx, hxn⟩
        · exact .inr fun y hy => hlt y (List.mem_cons_of_mem _ hy)
      · simp only [update_of_ne hv]
        exact h.older n i hi
    fences := fun n i hi hf hn x hlt hw hx => by
      replace hx := (hnone x).1 hx
      refine (hdone x).2 ?_
      by_cases hnb : n = R.inst b
      · -- the instruction that leaves the queue is the fence
        subst hnb
        rw [hi₀] at hi
        obtain rfl := Option.some.inj hi
        exact hfence (hf₀.2 hf) x hx (hw.trans (hw₀ w hb)) hlt
      · refine h.fences n i hi hf (fun y hy => ?_) x hlt hw hx
        by_cases hyb : y = b
        · exact hyb ▸ Ne.symm hnb
        · exact hn y (hmem.2 ⟨hy, hyb⟩)
    accepted := fun x l l' hl y hlt hw hy => h.accepted x l l' hl y hlt hw ((hnone y).1 hy)
    pushed := fun n hn =>
      ⟨(h.pushed n hn).1, fun v y hy => (h.pushed n hn).2 v y (hmem.1 hy).1⟩ }

/-- The instruction at the head is in the cache hierarchy. -/
theorem issue {rest : List ℕ} (hq : R.queues w = b :: rest)
    (hfence : R.fence b = false) (hsent : ∀ a, a.buf = b → (place a).unsent = false) :
    Prog (promoted place rest.head?) (update stage b .issued) { R with
      queues := update R.queues w rest } :=
  h.leave hq (.inl rfl) (fun a ha => ⟨hsent a ha, fun _ => rfl⟩) (by simp [hfence])

/-- An instruction that is in use and in no queue goes to the log of the commit buffer. -/
theorem log (hb : (stage b).inUse) (hqueued : ∀ v, stage b ≠ .queued v) :
    Prog place stage { R with pushed := R.pushed ++ [R.inst b] } := {
  h with
  pushed := fun n hn => by
    rcases List.mem_append.1 hn with hn | hn
    · exact h.pushed n hn
    · rw [List.mem_singleton.1 hn]
      refine ⟨h.inst_lt hb, fun v x hx heq => ?_⟩
      have hx' := (h.mem_queue x v).1 hx
      have hxb := h.inj x b (by rw [hx']; rfl) hb heq
      exact hqueued v (hxb ▸ hx') }

/-- A buffer without accesses moves to the commit buffer. -/
theorem push (hb : stage b = .issued)
    (hempty : ∀ a, a.buf = b → place a = .none ∨ place a = .done) :
    Prog place (update stage b .committing) { R with
      pushed := R.pushed ++ [R.inst b] } := by
  have huse : ∀ x, (update stage b .committing x).inUse = (stage x).inUse :=
    inUse_update (by rw [hb]; rfl)
  have hqueued : ∀ x v, update stage b .committing x = .queued v ↔ stage x = .queued v := by
    intro x v
    by_cases hx : x = b
    · subst hx
      simp [hb]
    · rw [update_of_ne hx]
  have hbuf : ∀ x, place x ≠ .none ∧ place x ≠ .done → x.buf ≠ b := fun x hx heq =>
    (hempty x heq).elim hx.1 hx.2
  have hstage : Prog place (update stage b .committing) R := { h with
    held := fun x hx => by
      obtain ⟨i, hi, hf, hw⟩ := h.held x (huse x ▸ hx)
      exact ⟨i, hi, hf, fun v hv => hw v ((hqueued x v).1 hv)⟩
    inj := fun x y hx hy => h.inj x y (huse x ▸ hx) (huse y ▸ hy)
    mem_queue := fun x v => (h.mem_queue x v).trans (hqueued x v).symm
    unsent := fun x hx => (hqueued _ _).2 (h.unsent x hx)
    sent := fun x hx => by
      rw [update_of_ne (hbuf x (live_of_sent hx))]
      exact h.sent x hx
    head := fun x hx hx' hs => h.head x hx hx' ((hqueued _ _).1 hs) }
  exact hstage.log (by rw [update_self]; rfl) (by simp)

/-- When the warp of a fence at the head has no outstanding access, every older
access is ejected. -/
theorem done_of_idle (hcache : ∀ x, x ∈ R.cache ↔ place x = .cache)
    (heject : ∀ x, x ∈ R.eject ↔ place x = .eject) (hq : (R.queues w).head? = some b)
    (hzero : R.outstanding w = 0) {x : Access} (hx : place x ≠ .none) (hw : x.warp = w)
    (hlt : x.inst < R.inst b) : place x = .done := by
  have hun := h.sent_of_lt_head hq hw hlt
  have hcount := h.count w
  have hno : ∀ l : List Access, l.countP (fun y => decide (y.warp = w)) = 0 → x ∉ l := by
    intro l hl hmem
    have := List.countP_eq_zero.1 hl x hmem
    simp [hw] at this
  cases hp : place x <;> simp_all [Place.unsent]

/-- A fence leaves the queue. -/
theorem clear (hq : R.queues w = [b]) (hfence : R.fence b)
    (hdone : ∀ x, place x ≠ .none → x.warp = w → x.inst < R.inst b → place x = .done) :
    Prog place (update stage b .committing) { R with
      queues := update R.queues w []
      pushed := R.pushed ++ [R.inst b] } := by
  have hb : stage b = .queued w := (h.mem_queue b w).1 (by rw [hq]; exact List.mem_cons_self)
  obtain ⟨i, hi, hf, -⟩ := h.held b (by rw [hb]; rfl)
  -- a fence has no accesses
  have hempty : ∀ x, x.buf = b → place x = .none ∨ place x = .done := by
    intro x hx
    by_contra hlive
    rw [not_or] at hlive
    obtain ⟨i', hi', hmem⟩ := (h.known x).1 hlive.1
    rw [← h.live x hlive.1 hlive.2, hx, hi] at hi'
    obtain rfl := Option.some.inj hi'
    rw [(h.wf _ i hi).2 (hf.1 hfence)] at hmem
    cases hmem
  have hleave := h.leave hq (.inr rfl) (fun x hx => ?_) fun _ => hdone
  · have hsame : promoted place ([] : List ℕ).head? = place := by
      funext x
      simp [promoted]
    rw [hsame] at hleave
    exact hleave.log (by rw [update_self]; rfl) (by simp)
  · rcases hempty x hx with hp | hp <;> simp [hp, Place.unsent]

/-- A buffer is taken from the pool, or goes back to it. -/
theorem turn {st : Stage} (hst : st = .free ∨ st = .dispatch) (hqueued : ∀ w, stage b ≠ .queued w)
    (hempty : ∀ a, a.buf = b → place a = .none ∨ place a = .done) {fence : ℕ → Bool}
    (hfence : ∀ x, x ≠ b → fence x = R.fence x) :
    Prog place (update stage b st) { R with fence := fence } := by
  have hnot : (update stage b st b).inUse = false := by
    rw [update_self]
    rcases hst with rfl | rfl <;> rfl
  have hself : ∀ w, update stage b st b ≠ .queued w := by
    intro w hw
    rw [hw] at hnot
    cases hnot
  have hbuf : ∀ x, place x ≠ .none ∧ place x ≠ .done → x.buf ≠ b := fun x hx heq =>
    (hempty x heq).elim hx.1 hx.2
  have huse : ∀ x, (update stage b st x).inUse → x ≠ b := by
    rintro x hx rfl
    rw [hnot] at hx
    cases hx
  exact { h with
    held := fun x hx => by
      have hxb := huse x hx
      rw [update_of_ne hxb] at hx ⊢
      simp only [hfence x hxb]
      exact h.held x hx
    inj := fun x y hx hy => by
      have hxb := huse x hx
      have hyb := huse y hy
      rw [update_of_ne hxb] at hx
      rw [update_of_ne hyb] at hy
      exact h.inj x y hx hy
    mem_queue := fun x v => by
      by_cases hxb : x = b
      · subst hxb
        rw [h.mem_queue]
        exact ⟨fun hx => absurd hx (hqueued v), fun hx => absurd hx (hself v)⟩
      · rw [update_of_ne hxb]
        exact h.mem_queue x v
    unsent := fun x hx => by
      rw [update_of_ne (hbuf x (live_of_unsent hx))]
      exact h.unsent x hx
    sent := fun x hx => by
      rw [update_of_ne (hbuf x (live_of_sent hx))]
      exact h.sent x hx
    head := fun x hx hx' hs => by
      have hxb := hbuf x (live_of_translated hx)
      rw [update_of_ne hxb] at hs
      exact h.head x hx hx' hs }

/-- A new instruction at the end of the queue of its warp. -/
theorem dispatch (hb : stage b = .dispatch)
    (hempty : ∀ a, a.buf = b → place a = .none ∨ place a = .done) {i : Inst}
    (hwarp : i.warp = w) (hacc : ∀ a ∈ i.accesses, a.inst = R.insts.length ∧ a.warp = w ∧ a.buf = b)
    (htype : i.type = .fence → i.accesses = []) (hfence : R.fence b = true ↔ i.type = .fence)
    {inst : ℕ → ℕ} (hself : inst b = R.insts.length) (hother : ∀ x, x ≠ b → inst x = R.inst x)
    (hsent : ∀ x ∈ R.accepted, place x ≠ .none) :
    Prog (Accs.moved place i.accesses .translating) (update stage b (.queued w)) { R with
      insts := R.insts ++ [i]
      queues := update R.queues w (R.queues w ++ [b])
      inst := inst } := by
  have hnew : ∀ a ∈ i.accesses, place a = .none := by
    intro a ha
    by_contra hp
    obtain ⟨j, hj, -⟩ := (h.known a).1 hp
    rw [(hacc a ha).1] at hj
    simp at hj
  have hold : ∀ x, x ∉ i.accesses → Accs.moved place i.accesses .translating x = place x :=
    fun x hx => if_neg hx
  have htr : ∀ x ∈ i.accesses, Accs.moved place i.accesses .translating x = .translating :=
    fun x hx => if_pos hx
  have hbuf : ∀ x, place x ≠ .none ∧ place x ≠ .done → x.buf ≠ b := fun x hx heq =>
    (hempty x heq).elim hx.1 hx.2
  have hgetold : ∀ (n : ℕ) (j : Inst), R.insts[n]? = some j → (R.insts ++ [i])[n]? = some j := by
    intro n j hj
    rw [List.getElem?_append_left (List.getElem?_eq_some_iff.1 hj).1]
    exact hj
  have hqb : ∀ v, b ∉ R.queues v := by
    intro v hv
    have := (h.mem_queue b v).1 hv
    rw [hb] at this
    cases this
  have hinq : ∀ v x, x ∈ R.queues v → inst x = R.inst x ∧ R.inst x < R.insts.length := by
    intro v x hx
    have hxb : x ≠ b := fun heq => hqb v (heq ▸ hx)
    refine ⟨hother x hxb, h.inst_lt ?_⟩
    rw [(h.mem_queue x v).1 hx]
    rfl
  have hplace {P : Place → Prop} (x : Access)
      (hx : P (Accs.moved place i.accesses .translating x)) (hP : ¬P .translating) :
      x ∉ i.accesses ∧ P (place x) := by
    by_cases hmem : x ∈ i.accesses
    · rw [htr x hmem] at hx
      exact absurd hx hP
    · rw [hold x hmem] at hx
      exact ⟨hmem, hx⟩
  exact {
    wf := fun n j hj => by
      rcases getElem?_push hj with ⟨hj, -⟩ | ⟨rfl, rfl⟩
      · exact h.wf n j hj
      · exact ⟨fun a ha => ⟨(hacc a ha).1, (hacc a ha).2.1.trans hwarp.symm⟩, htype⟩
    known := fun x => by
      by_cases hx : x ∈ i.accesses
      · rw [htr x hx]
        refine ⟨fun _ => ⟨i, ?_, hx⟩, fun _ => by simp⟩
        rw [(hacc x hx).1]
        simp
      · rw [hold x hx, h.known]
        constructor
        · rintro ⟨j, hj, hmem⟩
          exact ⟨j, hgetold _ _ hj, hmem⟩
        · rintro ⟨j, hj, hmem⟩
          rcases getElem?_push hj with ⟨hj, -⟩ | ⟨-, rfl⟩
          · exact ⟨j, hj, hmem⟩
          · exact absurd hmem hx
    live := fun x hx hx' => by
      by_cases hmem : x ∈ i.accesses
      · show inst x.buf = x.inst
        rw [(hacc x hmem).2.2, hself, (hacc x hmem).1]
      · rw [hold x hmem] at hx hx'
        show inst x.buf = x.inst
        rw [hother _ (hbuf x ⟨hx, hx'⟩)]
        exact h.live x hx hx'
    held := fun x hx => by
      by_cases hxb : x = b
      · subst hxb
        refine ⟨i, ?_, hfence, fun v hv => ?_⟩
        · show (R.insts ++ [i])[inst x]? = some i
          rw [hself]
          simp
        · rw [update_self] at hv
          rw [hwarp]
          exact Stage.queued.inj hv
      · rw [update_of_ne hxb] at hx ⊢
        obtain ⟨j, hj, hf, hw⟩ := h.held x hx
        refine ⟨j, ?_, hf, hw⟩
        show (R.insts ++ [i])[inst x]? = some j
        rw [hother x hxb]
        exact hgetold _ _ hj
    inj := fun x y hx hy heq => by
      replace heq : inst x = inst y := heq
      refine eq_of_inst_eq (P := fun z => (update stage b (.queued w) z).inUse) (b := b)
        (fun hxb hyb hx hy heq => ?_) (fun z hz hu => ?_) hx hy heq
      · rw [update_of_ne hxb] at hx
        rw [update_of_ne hyb] at hy
        rw [hother x hxb, hother y hyb] at heq
        exact h.inj x y hx hy heq
      · rw [update_of_ne hz] at hu
        rw [hother z hz, hself]
        exact h.inst_lt hu
    mem_queue := fun x v => by
      rw [mem_enqueue]
      by_cases hxb : x = b
      · subst hxb
        rw [update_self]
        constructor
        · rintro (hx | ⟨-, rfl⟩)
          · exact absurd hx (hqb v)
          · rfl
        · intro hx
          exact .inr ⟨rfl, (Stage.queued.inj hx).symm⟩
      · rw [update_of_ne hxb, ← h.mem_queue]
        simp [hxb]
    unsent := fun x hx => by
      by_cases hmem : x ∈ i.accesses
      · rw [(hacc x hmem).2.2, update_self, (hacc x hmem).2.1]
      · rw [hold x hmem] at hx
        rw [update_of_ne (hbuf x (live_of_unsent hx))]
        exact h.unsent x hx
    sent := fun x hx => by
      obtain ⟨-, hx⟩ := hplace (P := fun q => q = .cache ∨ q = .eject) x hx (by simp)
      rw [update_of_ne (hbuf x (live_of_sent hx))]
      exact h.sent x hx
    head := fun x hx hx' hs => by
      obtain ⟨-, hx, hx'⟩ := hplace (P := fun q => q.isTranslated = true ∧ q ≠ .behind) x
        ⟨hx, hx'⟩ (by simp [Place.isTranslated])
      have hxb := hbuf x (live_of_translated hx)
      rw [update_of_ne hxb] at hs
      show (update R.queues w (R.queues w ++ [b]) x.warp).head? = _
      rw [head?_enqueue ((h.mem_queue _ _).2 hs)]
      exact h.head x hx hx' hs
    behind := fun x hx => by
      obtain ⟨-, hx⟩ := hplace (P := fun q => q = .behind) x hx (by simp)
      have hs := h.unsent x (by rw [hx]; rfl)
      show (update R.queues w (R.queues w ++ [b]) x.warp).head? ≠ _
      rw [head?_enqueue ((h.mem_queue _ _).2 hs)]
      exact h.behind x hx
    order := fun v => by
      show (update R.queues w (R.queues w ++ [b]) v).Pairwise fun x y => inst x < inst y
      refine pairwise_enqueue ((h.order v).imp_of_mem fun hx hy hxy => ?_) fun x hx => ?_
      · rw [(hinq v _ hx).1, (hinq v _ hy).1]
        exact hxy
      · rw [hself, (hinq v x hx).1]
        exact (hinq v x hx).2
    older := fun n j hj => by
      show (∃ x ∈ update R.queues w (R.queues w ++ [b]) j.warp, inst x = n) ∨
        ∀ x ∈ update R.queues w (R.queues w ++ [b]) j.warp, n < inst x
      rcases getElem?_push hj with ⟨hj, hlt⟩ | ⟨rfl, rfl⟩
      · rcases h.older n j hj with ⟨x, hx, hxn⟩ | hall
        · exact .inl ⟨x, mem_enqueue.2 (.inl hx), (hinq _ x hx).1.trans hxn⟩
        · right
          intro x hx
          rcases mem_enqueue.1 hx with hx | ⟨rfl, -⟩
          · rw [(hinq _ x hx).1]
            exact hall x hx
          · rwa [hself]
      · exact .inl ⟨b, mem_enqueue.2 (.inr ⟨rfl, hwarp⟩), hself⟩
    count := h.count
    fences := fun n j hj hf hn x hlt hw hx => by
      replace hn : ∀ y ∈ update R.queues w (R.queues w ++ [b]) j.warp, inst y ≠ n := hn
      rcases getElem?_push hj with ⟨hj, hlen⟩ | ⟨rfl, rfl⟩
      · have hmem : x ∉ i.accesses := fun hmem => by
          have := (hacc x hmem).1
          omega
        rw [hold x hmem] at hx ⊢
        refine h.fences n j hj hf (fun y hy => ?_) x hlt hw hx
        rw [← (hinq _ y hy).1]
        exact hn y (mem_enqueue.2 (.inl hy))
      · exact absurd hself (hn b (mem_enqueue.2 (.inr ⟨rfl, hwarp⟩)))
    accepted := fun x l l' hl y hlt hw hy => by
      by_cases hmem : y ∈ i.accesses
      · -- an access that was accepted belongs to an instruction that is there already
        have hx : x ∈ R.accepted := by
          rw [show R.accepted = l ++ x :: l' from hl]
          simp
        obtain ⟨j, hj, -⟩ := (h.known x).1 (hsent x hx)
        have hlen := (List.getElem?_eq_some_iff.1 hj).1
        have := (hacc y hmem).1
        omega
      · rw [hold y hmem] at hy
        exact h.accepted x l l' hl y hlt hw hy
    pushed := fun n hn => by
      obtain ⟨hlt, hq⟩ := h.pushed n hn
      refine ⟨?_, fun v x hx => ?_⟩
      · show n < (R.insts ++ [i]).length
        rw [List.length_append]
        omega
      · show inst x ≠ n
        rcases mem_enqueue.1 hx with hx | ⟨rfl, -⟩
        · rw [(hinq v x hx).1]
          exact hq v x hx
        · rw [hself]
          omega }

end Prog

end Gem5Gpu.GPU.LSQ
