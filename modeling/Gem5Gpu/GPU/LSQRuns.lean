import Gem5Gpu.GPU.LSQProgram

/-!
# Runs of the load-store queue

`Inv` puts the pieces together: the places of the accesses, the stages of the
buffers, program order, and the order per line.  Each function of the model keeps
it, and the results follow for every run.

* `accesses_in_program_order`: the cache takes the accesses of a warp in program
  order, a fence commits after all older accesses of its warp are ejected, and a
  fence at the head of a queue has an access to wait for.
* `accesses_are_conserved`: every access is in exactly one place, at most one
  access per line is outstanding, every access is sent once, in the order in which
  the accesses of a line entered the inject buffer, and injection does not stop
  while there is something to inject.
-/

namespace Gem5Gpu.GPU.LSQ

open Lib Function

variable {rest : List ℕ} {R : Program} {s' : State}

variable {s s' : State} {c : Config}

variable {s : State}

/-- What holds also in the middle of a handler, when an instruction may have to
leave its queue. -/
structure Core (c : Config) (place : Access → Place) (stage : ℕ → Stage) (s : State) : Prop where
  accs : Accs c place s.boxes
  bufs : Bufs c.warpInstBufPoolSize stage s.pool
  prog : Prog place stage s.program
  serial : Serial c.line s.entered s.accepted s.injectBuffer s.blockedAccesses s.blockedLineAddrs
  exclusive : Exclusive c.line s.cache s.blockedLineAddrs
  commits : s.pushed = s.committed ++ s.commitInstBuffer.map fun b => (s.bufs b).inst

/-- The invariant. -/
structure Inv (c : Config) (place : Access → Place) (stage : ℕ → Stage) (s : State) : Prop
    extends Core c place stage s where
  full : Full place stage s.program
  waits : FencesWait s.program

/-- Injection goes on, or waits for a retry that the cache owes. -/
def Injects (s : State) : Prop :=
  (s.injectBuffer ≠ [] → s.injectScheduled = true ∨ s.mshrsFull = true) ∧
    (s.mshrsFull = true → s.cacheOwes = true)

/-- What lane requests and the commit side do not change. -/
def State.injection (s : State) : List Access × Bool × Bool × Bool :=
  (s.injectBuffer, s.injectScheduled, s.mshrsFull, s.cacheOwes)

abbrev SameInjection (s s' : State) : Prop := s'.injection = s.injection

theorem SameInjection.injects {s s' : State} (h : SameInjection s s') (hi : Injects s) :
    Injects s' := by
  simp only [SameInjection, State.injection, Prod.mk.injEq] at h
  obtain ⟨hinject, hscheduled, hfull, howes⟩ := h
  unfold Injects
  rw [hinject, hscheduled, hfull, howes]
  exact hi

/-- Some places and stages satisfy the invariant. -/
def Sound (c : Config) (s : State) : Prop := ∃ place stage, Inv c place stage s

section Views

variable {s : State} {b : ℕ} {f : WarpInstBuffer → WarpInstBuffer}

/-- A field of the buffers after one of them changed. -/
theorem bufs_update {α : Type} (g : WarpInstBuffer → α) (bufs : ℕ → WarpInstBuffer)
    (B : WarpInstBuffer) :
    (fun x => g (update bufs b B x)) = update (fun x => g (bufs x)) b (g B) :=
  Function.comp_update g bufs b B

theorem bufs_update_same {α : Type} (g : WarpInstBuffer → α) (bufs : ℕ → WarpInstBuffer)
    {B : WarpInstBuffer} (h : g B = g (bufs b)) :
    (fun x => g (update bufs b B x)) = fun x => g (bufs x) := by
  rw [bufs_update, h]
  exact update_eq_self b fun x => g (bufs x)

theorem boxes_modifyBuf (hc : (f (s.bufs b)).coalescedAccesses = (s.bufs b).coalescedAccesses)
    (ht : (f (s.bufs b)).translatedAccesses = (s.bufs b).translatedAccesses) :
    (s.modifyBuf b f).boxes = s.boxes := by
  simp only [State.boxes, State.modifyBuf, bufs_update_same WarpInstBuffer.coalescedAccesses _ hc,
    bufs_update_same WarpInstBuffer.translatedAccesses _ ht]

theorem program_modifyBuf (hi : (f (s.bufs b)).inst = (s.bufs b).inst)
    (ht : (f (s.bufs b)).type = (s.bufs b).type) : (s.modifyBuf b f).program = s.program := by
  simp only [State.program, State.modifyBuf, bufs_update_same WarpInstBuffer.inst _ hi,
    bufs_update_same WarpInstBuffer.isFence _ (b := b)
      (show (f (s.bufs b)).isFence = (s.bufs b).isFence by rw [WarpInstBuffer.isFence, ht]; rfl)]

end Views

section Facts

variable {c : Config} {place : Access → Place} {stage : ℕ → Stage} {s : State} {a : Access}
  {b w : ℕ}

/-- A buffer that is neither queued nor issued has no accesses. -/
theorem Prog.empty (h : Prog place stage R) (hq : ∀ w, stage b ≠ .queued w)
    (hi : stage b ≠ .issued) (ha : a.buf = b) : place a = .none ∨ place a = .done := by
  have hun := h.unsent a
  have hsent := h.sent a
  rw [ha] at hun hsent
  cases hp : place a with
  | none => exact .inl rfl
  | done => exact .inr rfl
  | translating | behind | inject | blocked => exact absurd (hun (by rw [hp]; rfl)) (hq _)
  | cache => exact ((hsent (.inl hp)).elim (hq _) hi).elim
  | eject => exact ((hsent (.inr hp)).elim (hq _) hi).elim

theorem Accs.empty {B : Boxes} (h : Accs c place B) (hc : B.coalesced b = [])
    (ht : B.translated b = []) (ha : a.buf = b) : place a = .none ∨ place a = .done := by
  have hun := (h.coalesced b).mem_iff (a := a)
  have htr := (h.translated b).mem_iff (a := a)
  rw [hc] at hun
  rw [ht] at htr
  cases hp : place a <;> simp_all [Place.unsent, Place.isTranslated]

theorem Accs.coalesced_eq_nil {B : Boxes} (h : Accs c place B)
    (he : ∀ a : Access, a.buf = b → place a = .none ∨ place a = .done) :
    B.coalesced b = [] := by
  refine List.eq_nil_iff_forall_not_mem.2 fun a ha => ?_
  obtain ⟨hun, hbuf⟩ := (h.coalesced b).mem_iff.1 ha
  rcases he a hbuf with hp | hp <;> simp [hp, Place.unsent] at hun

/-- An instruction that has an access is not a fence. -/
theorem Prog.not_fence (h : Prog place stage R) (hnone : place a ≠ .none)
    (hdone : place a ≠ .done) (hb : (stage a.buf).inUse) : R.fence a.buf = false := by
  obtain ⟨i, hi, hmem⟩ := (h.known a).1 hnone
  obtain ⟨j, hj, hfence, -⟩ := h.held a.buf hb
  rw [h.live a hnone hdone] at hj
  obtain rfl : i = j := Option.some.inj (hi.symm.trans hj)
  by_contra hf
  have hnil := (h.wf _ _ hi).2 (hfence.1 (by simpa using hf))
  rw [hnil] at hmem
  cases hmem

/-- An access changes its place and stays unsent, or stays sent. -/
theorem Full.update {p : Place} (h : Full place stage R) (ha : place a ≠ .none)
    (hp : p.unsent = (place a).unsent) : Full (Function.update place a p) stage R := by
  intro x v hx y hy hne
  have hne' : place y ≠ .none := by
    by_cases hya : y = a
    · rwa [hya]
    · rwa [Function.update_of_ne hya] at hne
  obtain ⟨z, hz, hbuf⟩ := h x v hx y hy hne'
  refine ⟨z, ?_, hbuf⟩
  by_cases hza : z = a
  · rw [hza, Function.update_self, hp, ← hza]
    exact hz
  · rwa [Function.update_of_ne hza]

theorem stage_of_update {st : Stage} {x : ℕ} (hst : ∀ v, st ≠ .queued v)
    (hx : update stage b st x = .queued w) : stage x = .queued w := by
  by_cases hxb : x = b
  · rw [hxb, update_self] at hx
    exact absurd hx (hst w)
  · rwa [update_of_ne hxb] at hx

/-- A buffer leaves the queues. -/
theorem Full.leave {st : Stage} (h : Full place stage R)
    (hst : ∀ v, st ≠ .queued v) : Full place (Function.update stage b st) R :=
  fun x v hx => h x v (stage_of_update hst hx)

end Facts

/-! ## Lane requests -/

section Lanes

variable {c : Config} {place : Access → Place} {stage : ℕ → Stage} {s : State}

theorem Inv.setLane (h : Inv c place stage s) (b lane : ℕ) (pkt : Option LanePkt) :
    Inv c place stage (s.modifyBuf b (·.setLane lane pkt)) := by
  have hboxes : (s.modifyBuf b (·.setLane lane pkt)).boxes = s.boxes := boxes_modifyBuf rfl rfl
  have hprogram : (s.modifyBuf b (·.setLane lane pkt)).program = s.program :=
    program_modifyBuf rfl rfl
  exact {
    h with
    accs := hboxes ▸ h.accs
    prog := hprogram ▸ h.prog
    full := hprogram ▸ h.full
    waits := hprogram ▸ h.waits
    commits := by
      rw [show (fun x => ((s.modifyBuf b (·.setLane lane pkt)).bufs x).inst)
        = fun x => (s.bufs x).inst from bufs_update_same WarpInstBuffer.inst _ rfl]
      exact h.commits }

/-- A buffer of the pool begins to collect an instruction. -/
theorem Inv.take (h : Inv c place stage s) {b n now : ℕ} {pkt : LanePkt}
    (hq : s.availableWarpInstBufs = b :: rest) (hd : s.dispatchWarpInstBuf = none) :
    Inv c place (update stage b .dispatch) { s.modifyBuf b (·.initializeInstBuffer now pkt) with
        dispatchWarpInstBuf := some b
        availableWarpInstBufs := rest
        numActiveWarpInstBuffers := n } := by
  have hfree : stage b = .free :=
    (h.bufs.available.mem_iff.1 (by
      show b ∈ s.availableWarpInstBufs
      rw [hq]
      exact List.mem_cons_self)).1
  have hqueued : ∀ w, stage b ≠ .queued w := fun w => by rw [hfree]; simp
  have hinst : (fun x => ((s.modifyBuf b (·.initializeInstBuffer now pkt)).bufs x).inst)
      = fun x => (s.bufs x).inst := bufs_update_same WarpInstBuffer.inst _ rfl
  have hboxes : (s.modifyBuf b (·.initializeInstBuffer now pkt)).boxes = s.boxes :=
    boxes_modifyBuf rfl rfl
  have hfence : ∀ x, x ≠ b →
      ((s.modifyBuf b (·.initializeInstBuffer now pkt)).bufs x).isFence = (s.bufs x).isFence := by
    intro x hx
    simp only [State.modifyBuf, update_of_ne hx]
  have hprogram : (s.modifyBuf b (·.initializeInstBuffer now pkt)).program = { s.program with
      fence := fun x => ((s.modifyBuf b (·.initializeInstBuffer now pkt)).bufs x).isFence } := by
    simp only [State.program, hinst]
    rfl
  exact {
    h with
    accs := hboxes ▸ h.accs
    bufs := h.bufs.take hq hd
    prog := by
      show Prog place _ (s.modifyBuf b (·.initializeInstBuffer now pkt)).program
      rw [hprogram]
      exact h.prog.turn (.inr rfl) hqueued
        (fun a ha => h.prog.empty hqueued (by rw [hfree]; simp) ha) hfence
    full := by
      show Full place _ (s.modifyBuf b (·.initializeInstBuffer now pkt)).program
      rw [hprogram]
      exact h.full.leave (by simp)
    waits := by
      show FencesWait (s.modifyBuf b (·.initializeInstBuffer now pkt)).program
      rw [hprogram]
      intro w x hx hf
      have hxb : x ≠ b := by
        rintro rfl
        exact hqueued w (h.bufs.mem_queue.1 (List.mem_of_mem_head? hx))
      exact h.waits w x hx ((hfence x hxb).symm.trans hf)
    commits := by
      show s.pushed = s.committed ++ s.commitInstBuffer.map
        fun x => ((s.modifyBuf b (·.initializeInstBuffer now pkt)).bufs x).inst
      rw [hinst]
      exact h.commits }

theorem addLaneRequest_sound (h : Sound c s) (now lane : ℕ) (pkt : LanePkt) :
    Post (addLaneRequest now lane pkt s) (fun _ => True) fun r =>
      Sound c r.1 ∧ SameInjection s r.1 := by
  obtain ⟨place, stage, h⟩ := h
  refine Post.check (fun _ => ?_) fun _ => trivial
  split
  · rename_i hd
    split
    · exact ⟨⟨place, stage, h⟩, rfl⟩
    · rename_i b rest hq
      exact Post.check (fun _ => ⟨⟨_, _, { (h.take hq hd).setLane b lane _ with }⟩, rfl⟩)
        fun _ => trivial
  · split
    · exact Post.check (fun _ => ⟨⟨_, _, { h.setLane _ lane _ with }⟩, rfl⟩)
        fun _ => trivial
    · exact ⟨⟨place, stage, h⟩, rfl⟩

end Lanes

/-! ## Commit -/

section Commit

variable {c : Config} {place : Access → Place} {stage : ℕ → Stage} {s : State} {b w : ℕ}

theorem pushToCommitBuffer_ok (h : pushToCommitBuffer b s = .ok s') : ∃ k, s' = { s with
      commitInstBuffer := s.commitInstBuffer ++ [b]
      pushed := s.pushed ++ [(s.bufs b).inst]
      commitScheduled := k } := by
  unfold pushToCommitBuffer at h
  dsimp only at h
  split at h
  · obtain ⟨_, -, h⟩ := bind_eq_ok h
    cases h
    exact ⟨_, rfl⟩
  · cases h
    exact ⟨_, rfl⟩

/-- A complete instruction moves to the commit buffer. -/
theorem Core.push (h : Core c place stage s) (hb : stage b = .issued)
    (hempty : ∀ a : Access, a.buf = b → place a = .none ∨ place a = .done)
    (hs : pushToCommitBuffer b s = .ok s') :
    Core c place (update stage b .committing) s' := by
  obtain ⟨k, rfl⟩ := pushToCommitBuffer_ok hs
  exact {
    h with
    bufs := h.bufs.push hb
    prog := h.prog.push hb hempty
    commits := by
      show s.pushed ++ [(s.bufs b).inst]
        = s.committed ++ (s.commitInstBuffer ++ [b]).map fun x => (s.bufs x).inst
      rw [List.map_append, ← List.append_assoc, ← h.commits]
      rfl }

theorem clearFenceAtQueueHead_ok (h : clearFenceAtQueueHead w s = .ok s') :
    ∃ b, s.perWarpInstructionQueues w = [b] ∧ (s.bufs b).isFence ∧
      s.perWarpOutstandingAccesses w = 0 ∧
      pushToCommitBuffer b { s with
        perWarpInstructionQueues := update s.perWarpInstructionQueues w [] } = .ok s' := by
  unfold clearFenceAtQueueHead at h
  obtain ⟨_, hzero, h⟩ := bind_eq_ok h
  have hz := check_eq_ok hzero
  split at h
  · cases h
  · rename_i b rest hq
    obtain ⟨_, hfence, h⟩ := bind_eq_ok h
    obtain ⟨_, hrest, h⟩ := bind_eq_ok h
    obtain rfl := check_eq_ok hrest
    exact ⟨b, hq, check_eq_ok hfence, hz, h⟩

/-- A fence leaves the queue of its warp when nothing of the warp is outstanding. -/
theorem Core.clear (h : Core c place stage s) (hfull : Full place stage s.program)
    (hwaits : ∀ v x, v ≠ w → (s.perWarpInstructionQueues v).head? = some x →
      (s.bufs x).isFence = true → 0 < s.perWarpOutstandingAccesses v)
    (hs : clearFenceAtQueueHead w s = .ok s') : Sound c s' ∧ SameInjection s s' := by
  obtain ⟨b, hq, hfence, hzero, hs⟩ := clearFenceAtQueueHead_ok hs
  obtain ⟨k, rfl⟩ := pushToCommitBuffer_ok hs
  have hqueue : s.pool.queues w = [b] := hq
  refine ⟨⟨place, update stage b .committing, ?_⟩, rfl⟩
  have hissued := h.bufs.dequeue hqueue rfl
  exact {
    h with
    bufs := by
      have hpush := hissued.push (b := b) (update_self ..)
      rwa [update_idem] at hpush
    prog := h.prog.clear hq hfence fun x hx hw hlt =>
      h.prog.done_of_idle (fun y => h.accs.cache.mem_iff) (fun y => h.accs.eject.mem_iff)
        (b := b) (by show (s.perWarpInstructionQueues w).head? = _; rw [hq]; rfl) hzero hx hw hlt
    full := hfull.leave (by simp)
    waits := by
      intro v x hx hf
      by_cases hv : v = w
      · subst hv
        replace hx : (update s.perWarpInstructionQueues v [] v).head? = some x := hx
        rw [update_self] at hx
        cases hx
      · refine hwaits v x hv ?_ hf
        replace hx : (update s.perWarpInstructionQueues w [] v).head? = some x := hx
        rwa [update_of_ne hv] at hx
    commits := by
      show s.pushed ++ [(s.bufs b).inst]
        = s.committed ++ (s.commitInstBuffer ++ [b]).map fun x => (s.bufs x).inst
      rw [List.map_append, ← List.append_assoc, ← h.commits]
      rfl }

end Commit

/-! ## Dispatch -/

section Dispatch

variable {c : Config} {place : Access → Place} {stage : ℕ → Stage} {s : State} {b w : ℕ}

theorem mem_accesses {B : WarpInstBuffer} {n k : ℕ} {paddr : ℕ → ℕ} {a : Access}
    (ha : a ∈ B.accesses k n b paddr) : a.inst = n ∧ a.warp = B.warpId ∧ a.buf = b := by
  obtain ⟨i, hi, rfl⟩ := List.mem_mapIdx.1 ha
  exact ⟨rfl, rfl, rfl⟩

theorem nodup_accesses (B : WarpInstBuffer) (n k : ℕ) (paddr : ℕ → ℕ) :
    (B.accesses k n b paddr).Nodup := by
  refine List.pairwise_iff_getElem.2 fun i j hi hj hij heq => ?_
  have hidx := congrArg Access.idx heq
  simp only [WarpInstBuffer.accesses, WarpInstBuffer.accessesOf, List.getElem_mapIdx] at hidx
  omega

/-- A new instruction leaves every queued instruction with an access to send. -/
theorem Full.dispatch (h : Prog place stage R) (hfull : Full place stage R)
    {i : Inst} (hacc : ∀ a ∈ i.accesses, a.inst = R.insts.length ∧ a.buf = b)
    {inst : ℕ → ℕ} (hself : inst b = R.insts.length) (hother : ∀ x, x ≠ b → inst x = R.inst x)
    (hnew : ∀ a ∈ i.accesses, place a = .none) :
    Full (Accs.moved place i.accesses .translating) (Function.update stage b (.queued w)) { R with
      insts := R.insts ++ [i]
      queues := Function.update R.queues w (R.queues w ++ [b])
      inst := inst } := by
  intro x v hx a hinst ha
  replace hinst : a.inst = inst x := hinst
  by_cases hmem : a ∈ i.accesses
  · -- the access itself is not sent
    refine ⟨a, by rw [Accs.moved, if_pos hmem]; rfl, ?_⟩
    by_contra hne
    have hxb : x ≠ b := fun heq => hne (heq ▸ (hacc a hmem).2)
    rw [Function.update_of_ne hxb] at hx
    have hlt := h.inst_lt (b := x) (by rw [hx]; rfl)
    rw [hother x hxb, (hacc a hmem).1] at hinst
    omega
  · rw [Accs.moved, if_neg hmem] at ha
    obtain ⟨j, hj, -⟩ := (h.known a).1 ha
    have hlen := (List.getElem?_eq_some_iff.1 hj).1
    have hxb : x ≠ b := by
      rintro rfl
      rw [hself] at hinst
      omega
    rw [Function.update_of_ne hxb] at hx
    rw [hother x hxb] at hinst
    obtain ⟨y, hy, hbuf⟩ := hfull x v hx a hinst ha
    refine ⟨y, ?_, hbuf⟩
    rw [Accs.moved, if_neg fun hmem => by rw [hnew y hmem] at hy; cases hy]
    exact hy

/-- The head of a queue after a new instruction: the old head, or the new one. -/
theorem head_append {q : ℕ → List ℕ} {v x : ℕ} (hx : (update q w (q w ++ [b]) v).head? = some x) :
    (q v).head? = some x ∨ (x = b ∧ v = w ∧ q w = []) := by
  by_cases hv : v = w
  · subst hv
    rw [update_self] at hx
    cases hq : q v with
    | nil =>
      rw [hq] at hx
      exact .inr ⟨(Option.some.inj hx).symm, rfl, rfl⟩
    | cons y rest =>
      rw [hq] at hx
      exact .inl hx
  · rw [update_of_ne hv] at hx
    exact .inl hx

/-- The state after a load, a store or an atomic is dispatched. -/
theorem Inv.dispatchInst (h : Inv c place stage s) (hd : s.dispatchWarpInstBuf = some b)
    {i : Inst} (hwarp : i.warp = w) (hfence : (s.bufs b).isFence = true ↔ i.type = .fence)
    (htype : i.type = .fence → i.accesses = []) (hnd : i.accesses.Nodup)
    (hacc : ∀ a ∈ i.accesses, a.inst = s.insts.length ∧ a.warp = w ∧ a.buf = b)
    (hs' : s' = { s.modifyBuf b (fun B => { B with
        inst := s.insts.length, coalescedAccesses := i.accesses }) with
      perWarpInstructionQueues :=
        update s.perWarpInstructionQueues w (s.perWarpInstructionQueues w ++ [b])
      dispatchWarpInstBuf := none
      insts := s.insts ++ [i]
      translating := s.translating ++ i.accesses }) :
    ∃ place' stage', Core c place' stage' s' ∧ Full place' stage' s'.program ∧
      ∀ v x, (s'.perWarpInstructionQueues v).head? = some x → (s'.bufs x).isFence = true →
        0 < s'.perWarpOutstandingAccesses v ∨ (x = b ∧ v = w) := by
  have hb : stage b = .dispatch := (h.bufs.dispatch b).1 hd
  have hqueued : ∀ w, stage b ≠ .queued w := fun w => by rw [hb]; simp
  have hempty : ∀ a : Access, a.buf = b → place a = .none ∨ place a = .done := fun a ha =>
    h.prog.empty hqueued (by rw [hb]; simp) ha
  have hnew : ∀ a ∈ i.accesses, place a = .none := by
    intro a ha
    by_contra hp
    obtain ⟨j, hj, -⟩ := (h.prog.known a).1 hp
    have hlen := (List.getElem?_eq_some_iff.1 hj).1
    have hinst := (hacc a ha).1
    replace hlen : a.inst < s.insts.length := hlen
    omega
  have hinst : (fun x => (s'.bufs x).inst)
      = update (fun x => (s.bufs x).inst) b s.insts.length := by
    rw [hs']
    exact bufs_update WarpInstBuffer.inst s.bufs _
  have hfences : (fun x => (s'.bufs x).isFence) = fun x => (s.bufs x).isFence := by
    rw [hs']
    exact bufs_update_same WarpInstBuffer.isFence _ rfl
  have hboxes : s'.boxes = { s.boxes with
      translating := s.boxes.translating ++ i.accesses
      coalesced := update s.boxes.coalesced b i.accesses } := by
    rw [hs']
    simp only [State.boxes, State.modifyBuf, bufs_update WarpInstBuffer.coalescedAccesses,
      bufs_update_same WarpInstBuffer.translatedAccesses s.bufs (b := b)
        (B := { s.bufs b with inst := s.insts.length, coalescedAccesses := i.accesses }) rfl]
  have hprogram : s'.program = { s.program with
      insts := s.program.insts ++ [i]
      queues := update s.program.queues w (s.program.queues w ++ [b])
      inst := update s.program.inst b s.insts.length } := by
    simp only [State.program, hinst, hfences]
    rw [hs']
    rfl
  have hself : update s.program.inst b s.insts.length b = s.program.insts.length :=
    update_self ..
  have hother : ∀ x, x ≠ b → update s.program.inst b s.insts.length x
      = s.program.inst x := fun x hx => update_of_ne hx ..
  refine ⟨Accs.moved place i.accesses .translating, update stage b (.queued w), ?_, ?_, ?_⟩
  · refine ⟨?_, ?_, ?_, ?_, ?_, ?_⟩
    · rw [hboxes]
      exact h.accs.dispatch hnd (fun a ha => ⟨hnew a ha, (hacc a ha).2.2⟩)
        (h.accs.coalesced_eq_nil hempty)
    · rw [hs']
      exact h.bufs.enqueue hd w
    · rw [hprogram]
      exact h.prog.dispatch hb hempty hwarp hacc htype hfence hself hother fun x hx hp => by
        have := (h.accs.accepted.mem_iff (a := x)).1 hx
        rw [hp] at this
        cases this
    · rw [hs']
      exact h.serial
    · rw [hs']
      exact h.exclusive
    · rw [hinst]
      have hmap : s.commitInstBuffer.map (update (fun x => (s.bufs x).inst) b s.insts.length)
          = s.commitInstBuffer.map fun x => (s.bufs x).inst := by
        refine List.map_congr_left fun x hx => update_of_ne ?_ ..
        rintro rfl
        rw [h.bufs.commit.mem_iff.1 hx] at hb
        cases hb
      rw [show s'.commitInstBuffer = s.commitInstBuffer by rw [hs']; rfl, hmap,
        show s'.pushed = s.pushed by rw [hs']; rfl,
        show s'.committed = s.committed by rw [hs']; rfl]
      exact h.commits
  · rw [hprogram]
    exact Full.dispatch h.prog h.full (fun a ha => ⟨(hacc a ha).1, (hacc a ha).2.2⟩) hself hother
      hnew
  · intro v x hx hf
    have hf' : (s.bufs x).isFence = true := (congrFun hfences x).symm.trans hf
    rw [show s'.perWarpInstructionQueues = update s.perWarpInstructionQueues w
      (s.perWarpInstructionQueues w ++ [b]) by rw [hs']] at hx
    rw [show s'.perWarpOutstandingAccesses = s.perWarpOutstandingAccesses by rw [hs']; rfl]
    rcases head_append hx with hx | ⟨hxb, hv, -⟩
    · exact .inl (h.waits v x hx hf')
    · exact .inr ⟨hxb, hv⟩

theorem dispatchWarpInst_sound (h : Sound c s) (paddr : ℕ → ℕ) :
    Post (dispatchWarpInst c paddr s) (fun _ => True) fun s' =>
      Sound c s' ∧ SameInjection s s' := by
  obtain ⟨place, stage, h⟩ := h
  refine post_of_forall fun s' hs => ?_
  unfold dispatchWarpInst at hs
  split at hs
  · cases hs
  rename_i b hd
  dsimp only at hs
  by_cases hfence : (s.bufs b).isFence = true
  · rw [if_pos hfence] at hs
    have hb : stage b = .dispatch := (h.bufs.dispatch b).1 hd
    have hnil : (s.bufs b).coalescedAccesses = [] := h.accs.coalesced_eq_nil fun a ha =>
      h.prog.empty (fun w => by rw [hb]; simp) (by rw [hb]; simp) ha
    obtain ⟨s₁, hs₁⟩ : ∃ s₁ : State, s₁ = { s.modifyBuf b (fun B => { B with
        inst := s.insts.length, coalescedAccesses := [] }) with
      perWarpInstructionQueues := update s.perWarpInstructionQueues (s.bufs b).warpId
        (s.perWarpInstructionQueues (s.bufs b).warpId ++ [b])
      dispatchWarpInstBuf := none
      insts := s.insts ++ [⟨(s.bufs b).warpId, .fence, (s.bufs b).lanePkts c.warpSize, []⟩]
      translating := s.translating ++ [] } := ⟨_, rfl⟩
    obtain ⟨place', stage', hcore, hfull, hwaits⟩ :=
      h.dispatchInst hd (i := ⟨(s.bufs b).warpId, .fence, (s.bufs b).lanePkts c.warpSize, []⟩) rfl
        (by simp [hfence]) (fun _ => rfl) List.nodup_nil (by simp) hs₁
    have hsame : SameInjection s s₁ := by
      rw [hs₁]
      rfl
    have heq : s₁ = { s.modifyBuf b (fun B => { B with inst := s.insts.length }) with
        perWarpInstructionQueues := update s.perWarpInstructionQueues (s.bufs b).warpId
          (s.perWarpInstructionQueues (s.bufs b).warpId ++ [b])
        dispatchWarpInstBuf := none
        insts := s.insts ++
          [⟨(s.bufs b).warpId, .fence, (s.bufs b).lanePkts c.warpSize, []⟩] } := by
      rw [hs₁, List.append_nil]
      simp only [State.modifyBuf]
      rw [← hnil]
    by_cases hclear : s₁.perWarpOutstandingAccesses (s.bufs b).warpId = 0 ∧
        (s₁.perWarpInstructionQueues (s.bufs b).warpId).head? = some b
    · replace hs : clearFenceAtQueueHead (s.bufs b).warpId s₁ = .ok s' := by
        rw [heq] at hclear ⊢
        exact (if_pos hclear).symm.trans hs
      obtain ⟨hsound, hsame'⟩ := hcore.clear hfull
        (fun v x hv hx hf => (hwaits v x hx hf).resolve_right fun hxb => hv hxb.2) hs
      exact ⟨hsound, hsame'.trans hsame⟩
    · replace hs : s' = s₁ := by
        rw [heq] at hclear ⊢
        exact (Except.ok.inj ((if_neg hclear).symm.trans hs)).symm
      subst hs
      refine ⟨⟨place', stage', hcore, hfull, fun v x hx hf => ?_⟩, hsame⟩
      rcases hwaits v x hx hf with hpos | ⟨rfl, rfl⟩
      · exact hpos
      · exact Nat.pos_of_ne_zero fun hzero => hclear ⟨hzero, hx⟩
  · rw [if_neg hfence] at hs
    have hs' := Except.ok.inj hs
    have htype : (s.bufs b).type ≠ .fence := by simpa [WarpInstBuffer.isFence] using hfence
    obtain ⟨place', stage', hcore, hfull, hwaits⟩ :=
      h.dispatchInst hd (i := ⟨(s.bufs b).warpId, (s.bufs b).type, (s.bufs b).lanePkts c.warpSize,
          (s.bufs b).accesses c.warpSize s.insts.length b paddr⟩) rfl (by simp [hfence, htype])
        (fun hf => absurd hf htype) (nodup_accesses _ _ _ _) (fun a ha => mem_accesses ha) hs'.symm
    refine ⟨⟨place', stage', hcore, hfull, fun v x hx hf => ?_⟩, ?_⟩
    · rcases hwaits v x hx hf with hpos | ⟨rfl, -⟩
      · exact hpos
      · have hsame : (s'.bufs x).isFence = (s.bufs x).isFence := by
          rw [← hs']
          simp only [State.modifyBuf, update_self]
          rfl
        exact absurd (hsame.symm.trans hf) hfence
    · rw [← hs']
      rfl

end Dispatch

/-! ## Translation and injection -/

section Inject

variable {c : Config} {place : Access → Place} {stage : ℕ → Stage} {s : State} {a : Access}
  {b w now : ℕ}

/-- A translation ends. -/
theorem finishTranslation_sound (now : ℕ) (h : Sound c s) (ha : a ∈ s.translating) :
    Sound c (finishTranslation c now a s) ∧
      (Injects s → Injects (finishTranslation c now a s)) := by
  obtain ⟨place, stage, h⟩ := h
  have hplace : place a = .translating := h.accs.translating.mem_iff.1 ha
  obtain ⟨s₁, hs₁⟩ : ∃ s₁ : State, s₁ = { s.modifyBuf a.buf (fun b => { b with
      translatedAccesses := b.translatedAccesses ++ [a] }) with
    translating := s.translating.erase a } := ⟨_, rfl⟩
  have hboxes : s₁.boxes = { s.boxes with
      translating := s.boxes.translating.erase a
      translated := update s.boxes.translated a.buf (s.boxes.translated a.buf ++ [a]) } := by
    rw [hs₁]
    simp only [State.boxes, State.modifyBuf, bufs_update WarpInstBuffer.translatedAccesses,
      bufs_update_same WarpInstBuffer.coalescedAccesses s.bufs (b := a.buf)
        (B := { s.bufs a.buf with
          translatedAccesses := (s.bufs a.buf).translatedAccesses ++ [a] }) rfl]
  have hprogram : s₁.program = s.program := by
    rw [hs₁]
    exact program_modifyBuf (s := s) (b := a.buf)
      (f := fun b => { b with translatedAccesses := b.translatedAccesses ++ [a] }) rfl rfl
  have hinst : (fun x => (s₁.bufs x).inst) = fun x => (s.bufs x).inst :=
    congrArg Program.inst hprogram
  have haccs := h.accs.translate hplace
  have hcommits : s₁.pushed =
      s₁.committed ++ s₁.commitInstBuffer.map fun x => (s₁.bufs x).inst := by
    rw [hinst, hs₁]
    exact h.commits
  have hfull {p : Place} (hp : p.unsent = true) : Full (update place a p) stage s.program :=
    h.full.update (by rw [hplace]; simp) (by rw [hp, hplace]; rfl)
  have hfields : s₁.perWarpInstructionQueues = s.perWarpInstructionQueues ∧
      s₁.injectBuffer = s.injectBuffer ∧ s₁.mshrsFull = s.mshrsFull ∧
      s₁.cacheOwes = s.cacheOwes := by
    rw [hs₁]
    exact ⟨rfl, rfl, rfl, rfl⟩
  obtain ⟨hqueues, hbuffer, hmshr, howes⟩ := hfields
  have hserial : Serial c.line s₁.entered s₁.accepted s₁.injectBuffer s₁.blockedAccesses
      s₁.blockedLineAddrs := by
    rw [hs₁]
    exact h.serial
  have hexclusive : Exclusive c.line s₁.cache s₁.blockedLineAddrs := by
    rw [hs₁]
    exact h.exclusive
  have hbufs : Bufs c.warpInstBufPoolSize stage s₁.pool := by
    rw [hs₁]
    exact h.bufs
  unfold finishTranslation
  rw [← hs₁]
  dsimp only
  by_cases hhead : (s₁.perWarpInstructionQueues a.warp).head? = some a.buf
  · rw [if_pos hhead]
    rw [hqueues] at hhead
    -- the access goes to the inject buffer at once
    have hinv : ∀ k, Inv c (update place a .inject) stage
        { pushToInjectBuffer c now s₁ a with injectScheduled := k } := by
      intro k
      have hmove := haccs.promote (List.nodup_singleton a)
        (fun x hx => by rw [List.mem_singleton.1 hx, update_self])
      have hplaces : Accs.moved (update place a .behind) [a] .inject = update place a .inject := by
        funext x
        by_cases hx : x = a
        · simp [Accs.moved, hx]
        · simp [Accs.moved, hx]
      rw [hplaces] at hmove
      exact {
        accs := by
          show Accs c _ { s₁.boxes with inject := s₁.injectBuffer ++ [a] }
          rw [hboxes, hbuffer]
          exact hmove
        bufs := hbufs
        prog := by
          show Prog _ stage s₁.program
          rw [hprogram]
          exact h.prog.shift (by rw [hplace]; rfl) rfl (by simp) fun _ => hhead
        full := by
          show Full _ stage s₁.program
          rw [hprogram]
          exact hfull rfl
        waits := by
          show FencesWait s₁.program
          rw [hprogram]
          exact h.waits
        serial := hserial.enter a
        exclusive := hexclusive
        commits := hcommits }
    have hsame : (pushToInjectBuffer c now s₁ a).injectScheduled = s₁.injectScheduled ∧
        (pushToInjectBuffer c now s₁ a).mshrsFull = s₁.mshrsFull := ⟨rfl, rfl⟩
    split
    · refine ⟨⟨_, _, hinv true⟩, fun hinj => ⟨fun _ => .inl rfl, fun hwait => ?_⟩⟩
      exact howes.trans (hinj.2 (hmshr.symm.trans hwait))
    · rename_i hsched'
      refine ⟨⟨_, _, hinv _⟩, fun hinj => ⟨fun _ => ?_, fun hwait =>
        howes.trans (hinj.2 (hmshr.symm.trans hwait))⟩⟩
      simp only [hsame.1, hsame.2, Bool.and_eq_true, Bool.not_eq_true', not_and,
        Bool.not_eq_false] at hsched' ⊢
      cases hcase : s₁.injectScheduled with
      | true => exact .inl rfl
      | false => exact .inr (hsched' hcase)
  · rw [if_neg hhead]
    rw [hqueues] at hhead
    refine ⟨⟨update place a .behind, stage, ?_⟩, ?_⟩
    · exact {
        accs := hboxes ▸ haccs
        bufs := hbufs
        prog := by
          rw [hprogram]
          exact h.prog.shift (by rw [hplace]; rfl) rfl (fun _ => hhead) (by simp)
        full := by
          rw [hprogram]
          exact hfull rfl
        waits := hprogram ▸ h.waits
        serial := hserial
        exclusive := hexclusive
        commits := hcommits }
    · exact SameInjection.injects (by rw [hs₁]; rfl)

/-- The accesses at the front that wait for their line are parked.  What is then at
the front and due has a free line. -/
theorem parkBlocked_sound {l : List Access} (now : ℕ) (h : Sound c s) (hl : s.injectBuffer = l) :
    Sound c (parkBlocked c now l s) ∧ ∀ a rest, (parkBlocked c now l s).injectBuffer = a :: rest →
        (parkBlocked c now l s).nextAllowedInject ≤ now →
        (parkBlocked c now l s).injectTime a ≤ now →
        (parkBlocked c now l s).blockedLineAddrs (c.line a) = false := by
  induction l generalizing s with
  | nil =>
    refine ⟨h, fun a rest hq => ?_⟩
    rw [parkBlocked, hl] at hq
    cases hq
  | cons a rest ih =>
    rw [parkBlocked]
    split
    · rename_i hcond
      refine ih ?_ rfl
      obtain ⟨place, stage, h⟩ := h
      have hplace := h.accs.place_inject hl
      have hserial := h.serial
      rw [hl] at hserial
      refine ⟨update place a .blocked, stage, ?_⟩
      exact {
        h with
        accs := h.accs.park hl
        prog := h.prog.shift (by rw [hplace]; rfl) rfl (by simp) fun _ =>
          h.prog.head a (by rw [hplace]; rfl) (by rw [hplace]; simp)
            (h.prog.unsent a (by rw [hplace]; rfl))
        full := h.full.update (by rw [hplace]; simp) (by rw [hplace]; rfl)
        serial := hserial.park hcond.2.2 }
    · rename_i hcond
      refine ⟨h, fun a' rest' hq hnext htime => ?_⟩
      rw [hl] at hq
      obtain ⟨rfl, rfl⟩ := List.cons.inj hq
      by_contra hb
      exact hcond ⟨hnext, htime, by simpa [Config.line] using hb⟩

theorem foldl_pushToInjectBuffer (c : Config) (now : ℕ) (l : List Access) (s : State) :
    ∃ t, l.foldl (pushToInjectBuffer c now) s = { s with
      injectTime := t
      injectBuffer := s.injectBuffer ++ l
      entered := s.entered ++ l } := by
  induction l generalizing s with
  | nil => exact ⟨s.injectTime, by simp⟩
  | cons a l ih =>
    obtain ⟨t, ht⟩ := ih (pushToInjectBuffer c now s a)
    exact ⟨t, by rw [List.foldl_cons, ht]; simp [pushToInjectBuffer]⟩

section

variable (h : Core c place stage s)
include h

/-- When an instruction comes to the head, its translated accesses are exactly
those that wait behind the head. -/
theorem Core.promoted_eq {next : ℕ}
    (hq : s.perWarpInstructionQueues w = b :: next :: rest) :
    (∀ a ∈ (s.bufs next).translatedAccesses, place a = .behind) ∧ Prog.promoted place (some next)
        = Accs.moved place (s.bufs next).translatedAccesses .inject := by
  have hmem (a : Access) : a ∈ (s.bufs next).translatedAccesses ↔
      (place a).isTranslated = true ∧ a.buf = next := (h.accs.translated next).mem_iff
  have hstage : stage next = .queued w := h.bufs.mem_queue.1 (by
    show next ∈ s.perWarpInstructionQueues w
    rw [hq]
    simp)
  have hne : b ≠ next := by
    have hnodup : (s.perWarpInstructionQueues w).Nodup := (h.bufs.queue w).1
    rw [hq] at hnodup
    rintro rfl
    simp at hnodup
  have hbehind : ∀ a ∈ (s.bufs next).translatedAccesses, place a = .behind := by
    intro a ha
    obtain ⟨htrans, hbuf⟩ := (hmem a).1 ha
    by_contra hp
    have hwarp : stage a.buf = .queued a.warp := by
      cases hpl : place a with
      | none | translating | done => rw [hpl] at htrans; cases htrans
      | behind => exact absurd hpl hp
      | inject | blocked => exact h.prog.unsent a (by rw [hpl]; rfl)
      | cache =>
        refine (h.prog.sent a (.inl hpl)).resolve_right fun hi => ?_
        rw [hbuf, hstage] at hi
        cases hi
      | eject =>
        refine (h.prog.sent a (.inr hpl)).resolve_right fun hi => ?_
        rw [hbuf, hstage] at hi
        cases hi
    have hhead := h.prog.head a htrans hp hwarp
    rw [hbuf, hstage] at hwarp
    obtain rfl : w = a.warp := Stage.queued.inj hwarp
    replace hhead : (s.perWarpInstructionQueues a.warp).head? = some a.buf := hhead
    rw [hq, hbuf] at hhead
    exact hne (Option.some.inj hhead)
  refine ⟨hbehind, funext fun a => ?_⟩
  unfold Prog.promoted Accs.moved
  by_cases ha : a ∈ (s.bufs next).translatedAccesses
  · rw [if_pos ha, if_pos ⟨hbehind a ha, by rw [((hmem a).1 ha).2]⟩]
  · rw [if_neg ha, if_neg]
    rintro ⟨hp, hbuf⟩
    exact ha ((hmem a).2 ⟨by rw [hp]; rfl, Option.some.inj hbuf⟩)

/-- A fence has no accesses. -/
theorem Core.fence_translated (hb : (stage b).inUse)
    (hf : (s.bufs b).isFence) : (s.bufs b).translatedAccesses = [] := by
  refine List.eq_nil_iff_forall_not_mem.2 fun a ha => ?_
  obtain ⟨htrans, hbuf⟩ := ((h.accs.translated b).mem_iff (a := a)).1 ha
  have hne : place a ≠ .none ∧ place a ≠ .done := by
    constructor
    · intro hp
      rw [hp] at htrans
      cases htrans
    · intro hp
      rw [hp] at htrans
      cases htrans
  have hfence := h.prog.not_fence hne.1 hne.2 (by rw [hbuf]; exact hb)
  rw [hbuf] at hfence
  exact absurd (hf.symm.trans hfence) (by simp)

/-- What `popQueue` does to the state. -/
theorem Core.popQueue_eq (now : ℕ)
    (hq : s.perWarpInstructionQueues w = b :: rest) :
    ∃ t accs, (∀ a ∈ accs, place a = .behind) ∧ accs.Nodup ∧
      Prog.promoted place rest.head? = Accs.moved place accs .inject ∧
      popQueue c now w s = { s with
        perWarpInstructionQueues := update s.perWarpInstructionQueues w rest
        injectTime := t
        injectBuffer := s.injectBuffer ++ accs
        entered := s.entered ++ accs } := by
  unfold popQueue
  rw [hq]
  cases rest with
  | nil =>
    refine ⟨s.injectTime, [], by simp, List.nodup_nil, ?_, by simp⟩
    funext a
    simp [Prog.promoted, Accs.moved]
  | cons next rest =>
    obtain ⟨hbehind, hpromoted⟩ := h.promoted_eq hq
    have hstage : stage next = .queued w := h.bufs.mem_queue.1 (by
      show next ∈ s.perWarpInstructionQueues w
      rw [hq]
      simp)
    simp only [List.tail_cons]
    split
    · rename_i hf
      refine ⟨s.injectTime, (s.bufs next).translatedAccesses, hbehind,
        (h.accs.translated next).1, hpromoted, ?_⟩
      rw [h.fence_translated (by rw [hstage]; rfl) hf]
      simp
    · obtain ⟨t, ht⟩ := foldl_pushToInjectBuffer c now (s.bufs next).translatedAccesses { s with
          perWarpInstructionQueues :=
            update s.perWarpInstructionQueues w (next :: rest) }
      exact ⟨t, (s.bufs next).translatedAccesses, hbehind, (h.accs.translated next).1,
        hpromoted, ht⟩

/-- All accesses of the instruction at the head are sent. -/
theorem Core.popQueue
    (hq : s.perWarpInstructionQueues w = b :: rest) (hfence : (s.bufs b).isFence = false)
    (hsent : ∀ a : Access, a.buf = b → (place a).unsent = false)
    (hfull : ∀ x v, x ≠ b → stage x = .queued v → ∀ a : Access, a.inst = (s.bufs x).inst →
      place a ≠ .none → ∃ a', (place a').unsent = true ∧ a'.buf = x)
    (hwaits : FencesWait s.program) (hpos : 0 < s.perWarpOutstandingAccesses w) :
    Sound c (popQueue c now w s) := by
  obtain ⟨t, accs, hbehind, hnodup, hpromoted, heq⟩ := h.popQueue_eq now hq
  rw [heq]
  refine ⟨Accs.moved place accs .inject, update stage b .issued, ?_⟩
  exact {
    h with
    accs := h.accs.promote hnodup hbehind
    bufs := h.bufs.dequeue hq rfl
    prog := hpromoted ▸ h.prog.issue hq hfence hsent
    serial := h.serial.enterAll accs
    full := by
      intro x v hx a hinst ha
      have hxb : x ≠ b := by
        rintro rfl
        rw [update_self] at hx
        cases hx
      rw [update_of_ne hxb] at hx
      have hmoved (y : Access) : (Accs.moved place accs .inject y).unsent = (place y).unsent := by
        unfold Accs.moved
        split
        · rename_i hy
          rw [hbehind y hy]
          rfl
        · rfl
      have hne : place a ≠ .none := by
        intro hp
        refine ha ?_
        rw [Accs.moved, if_neg fun hmem => ?_, hp]
        rw [hbehind a hmem] at hp
        cases hp
      obtain ⟨y, hy, hbuf⟩ := hfull x v hxb hx a hinst hne
      exact ⟨y, (hmoved y).trans hy, hbuf⟩
    waits := by
      intro v x hx hf
      by_cases hv : v = w
      · rw [hv]
        exact hpos
      · replace hx : (update s.perWarpInstructionQueues w rest v).head? = some x := hx
        rw [update_of_ne hv] at hx
        exact hwaits v x hx hf }

end

/-- The cache takes the access at the front. -/
theorem Inv.sendAccess (h : Inv c place stage s) {rest : List Access}
    (hq : s.injectBuffer = a :: rest) (hfree : s.blockedLineAddrs (c.line a) = false) :
    Sound c (sendAccess c now a rest s) := by
  have hplace := h.accs.place_inject hq
  have hunsent : (place a).unsent = true := by rw [hplace]; rfl
  have hstage := h.prog.unsent a hunsent
  have hhead : (s.perWarpInstructionQueues a.warp).head? = some a.buf :=
    h.prog.head a (by rw [hplace]; rfl) (by rw [hplace]; simp) hstage
  have hserial := h.serial
  rw [hq] at hserial
  obtain ⟨s₁, hs₁⟩ : ∃ s₁ : State, s₁ = { s.modifyBuf a.buf (fun b => { b with
      coalescedAccesses := b.coalescedAccesses.erase a }) with
    blockedLineAddrs := update s.blockedLineAddrs (c.addrToLine a.paddr) true
    nextAllowedInject := if a.isWrite then now + a.size / c.sublineBytes
      else s.nextAllowedInject
    injectBuffer := rest
    perWarpOutstandingAccesses := update s.perWarpOutstandingAccesses a.warp
      (s.perWarpOutstandingAccesses a.warp + 1)
    cache := s.cache ++ [a]
    accepted := s.accepted ++ [a] } := ⟨_, rfl⟩
  have hinst : (fun x => (s₁.bufs x).inst) = fun x => (s.bufs x).inst := by
    rw [hs₁]
    exact bufs_update_same WarpInstBuffer.inst _ rfl
  have hfences : (fun x => (s₁.bufs x).isFence) = fun x => (s.bufs x).isFence := by
    rw [hs₁]
    exact bufs_update_same WarpInstBuffer.isFence _ rfl
  have hboxes : s₁.boxes = { s.boxes with
      inject := rest
      cache := s.boxes.cache ++ [a]
      accepted := s.boxes.accepted ++ [a]
      coalesced := update s.boxes.coalesced a.buf ((s.boxes.coalesced a.buf).erase a) } := by
    rw [hs₁]
    simp only [State.boxes, State.modifyBuf, bufs_update WarpInstBuffer.coalescedAccesses,
      bufs_update_same WarpInstBuffer.translatedAccesses s.bufs (b := a.buf)
        (B := { s.bufs a.buf with
          coalescedAccesses := (s.bufs a.buf).coalescedAccesses.erase a }) rfl]
  have hprogram : s₁.program = { s.program with
      outstanding := update s.program.outstanding a.warp (s.program.outstanding a.warp + 1)
      cache := s.program.cache ++ [a]
      accepted := s.program.accepted ++ [a] } := by
    simp only [State.program, hinst, hfences]
    rw [hs₁]
    rfl
  have hcore : Core c (update place a .cache) stage s₁ := by
    refine ⟨?_, ?_, ?_, ?_, ?_, ?_⟩
    · rw [hboxes]
      exact h.accs.send hq
    · rw [hs₁]
      exact h.bufs
    · rw [hprogram]
      exact h.prog.send hplace fun x => h.accs.accepted.mem_iff
    · rw [hs₁]
      exact hserial.send hfree
    · rw [hs₁]
      exact h.exclusive.send hfree
    · rw [hinst, hs₁]
      exact h.commits
  have hfull : ∀ x v, x ≠ a.buf → stage x = .queued v → ∀ y : Access, y.inst = (s₁.bufs x).inst →
      update place a .cache y ≠ .none →
      ∃ z, (update place a .cache z).unsent = true ∧ z.buf = x := by
    intro x v hxb hx y hy hne
    rw [show (s₁.bufs x).inst = (s.bufs x).inst from congrFun hinst x] at hy
    have hne' : place y ≠ .none := by
      by_cases hya : y = a
      · rw [hya, hplace]
        simp
      · rwa [update_of_ne hya] at hne
    obtain ⟨z, hz, hbuf⟩ := h.full x v hx y hy hne'
    refine ⟨z, ?_, hbuf⟩
    rwa [update_of_ne fun hza => hxb (by rw [← hbuf, hza])]
  have hout : s₁.perWarpOutstandingAccesses = update s.perWarpOutstandingAccesses a.warp
      (s.perWarpOutstandingAccesses a.warp + 1) := by rw [hs₁]
  have hqueues : s₁.perWarpInstructionQueues = s.perWarpInstructionQueues := by rw [hs₁]; rfl
  have hwaits : FencesWait s₁.program := by
    rw [hprogram]
    intro v x hx hf
    have hpos := h.waits v x hx hf
    show 0 < update s.program.outstanding a.warp (s.program.outstanding a.warp + 1) v
    by_cases hv : v = a.warp
    · rw [hv, update_self]
      exact Nat.succ_pos _
    · rwa [update_of_ne hv]
  unfold LSQ.sendAccess
  rw [← hs₁]
  dsimp only
  split
  · rename_i hnil
    obtain ⟨queue, hqueue⟩ : ∃ queue, s.perWarpInstructionQueues a.warp = a.buf :: queue := by
      cases hl : s.perWarpInstructionQueues a.warp with
      | nil =>
        rw [hl] at hhead
        cases hhead
      | cons x queue =>
        rw [hl] at hhead
        exact ⟨queue, by rw [Option.some.inj hhead]⟩
    refine hcore.popQueue (hqueues ▸ hqueue) ?_ (fun y hy => ?_) hfull hwaits ?_
    · rw [show (s₁.bufs a.buf).isFence = (s.bufs a.buf).isFence from congrFun hfences a.buf]
      exact h.prog.not_fence (by rw [hplace]; simp) (by rw [hplace]; simp) (by rw [hstage]; rfl)
    · by_contra hun
      have hmem : y ∈ (s₁.bufs a.buf).coalescedAccesses :=
        (hcore.accs.coalesced a.buf).mem_iff.2 ⟨by simpa using hun, hy⟩
      rw [List.isEmpty_iff.1 hnil] at hmem
      cases hmem
    · rw [hout, update_self]
      exact Nat.succ_pos _
  · rename_i hcons
    refine ⟨_, _, hcore, fun x v hx y hy hne => ?_, hwaits⟩
    by_cases hxb : x = a.buf
    · subst hxb
      obtain ⟨z, hz⟩ : ∃ z, z ∈ (s₁.bufs a.buf).coalescedAccesses :=
        List.exists_mem_of_ne_nil _ fun hnil => hcons (by rw [hnil]; rfl)
      exact ⟨z, (hcore.accs.coalesced a.buf).mem_iff.1 hz⟩
    · exact hfull x v hxb hx y hy hne

theorem parkBlocked_full (l : List Access) : (parkBlocked c now l s).mshrsFull = s.mshrsFull := by
  induction l generalizing s with
  | nil => rfl
  | cons a rest ih =>
    rw [parkBlocked]
    split
    · exact ih
    · rfl

theorem sendAccess_full (a : Access) (rest : List Access) :
    (sendAccess c now a rest s).mshrsFull = s.mshrsFull := by
  have hpush : ∀ (l : List Access) (s : State),
      (l.foldl (pushToInjectBuffer c now) s).mshrsFull = s.mshrsFull := by
    intro l
    induction l with
    | nil => exact fun _ => rfl
    | cons a l ih => exact fun s => ih _
  unfold sendAccess popQueue
  dsimp only
  split
  · split
    · rfl
    · split
      · rfl
      · exact hpush _ _
  · rfl

theorem injectLoop_sound (h : Sound c s) (hopen : s.mshrsFull = false) (width n : ℕ) :
    Sound c (injectLoop c now width n s) ∧ Injects (injectLoop c now width n s) := by
  induction width generalizing n s with
  | zero =>
    obtain ⟨place, stage, h⟩ := h
    refine ⟨⟨place, stage, { h with }⟩, fun hne => .inl ?_, fun hwait => ?_⟩
    · rw [injectLoop] at hne ⊢
      simpa using hne
    · exact absurd (hopen.symm.trans hwait) (by simp)
  | succ width ih =>
    rw [injectLoop]
    obtain ⟨hsound, hfree⟩ := parkBlocked_sound now h rfl
    have hopen' : (parkBlocked c now s.injectBuffer s).mshrsFull = false :=
      (parkBlocked_full s.injectBuffer).trans hopen
    generalize parkBlocked c now s.injectBuffer s = s' at hsound hfree hopen'
    have hwaits : s'.mshrsFull = true → s'.cacheOwes = true := fun hwait =>
      absurd (hopen'.symm.trans hwait) (by simp)
    obtain ⟨place, stage, h⟩ := hsound
    split
    · rename_i hq
      exact ⟨⟨place, stage, h⟩, fun hne => absurd hq hne, hwaits⟩
    · rename_i a rest hq
      split
      · rename_i hdue
        cases n with
        | zero => exact ⟨⟨place, stage, { h with }⟩, fun _ => .inr rfl, fun _ => rfl⟩
        | succ n =>
          exact ih (h.sendAccess hq (hfree a rest hq hdue.1 hdue.2))
            ((sendAccess_full a rest).trans hopen') n
      · exact ⟨⟨place, stage, { h with }⟩, fun _ => .inl rfl, hwaits⟩

theorem injectCacheAccesses_sound (h : Sound c s) (n : ℕ) :
    Post (injectCacheAccesses c now n s) (fun _ => True) fun s' => Sound c s' ∧ Injects s' :=
  Post.check (fun hopen => injectLoop_sound h hopen.1 c.injectWidth n) fun _ => trivial

theorem scheduleRetryInject_sound (h : Sound c s) :
    Post (scheduleRetryInject s) (fun _ => True) fun s' => Sound c s' ∧ Injects s' := by
  obtain ⟨place, stage, h⟩ := h
  exact Post.check (fun _ => ⟨⟨place, stage, { h with }⟩, fun _ => .inl rfl,
    fun hwait => by cases hwait⟩) fun _ => trivial

end Inject

/-! ## Responses -/

section Responses

variable {c : Config} {place : Access → Place} {stage : ℕ → Stage} {s : State} {a : Access}
  {b w now : ℕ}

theorem recvResponsePkt_sound (h : Sound c s) (ha : a ∈ s.cache) (data : Access → List Byte) :
    Post (recvResponsePkt c now a { s with cache := s.cache.erase a, data := data })
      (fun _ => True) fun s' => Sound c s' ∧ (Injects s → Injects s') := by
  obtain ⟨place, stage, h⟩ := h
  have hplace : place a = .cache := h.accs.cache.mem_iff.1 ha
  have haccs := h.accs.respond hplace
  have hprog := h.prog.respond hplace ha
  have hfull : Full (update place a .eject) stage s.program :=
    h.full.update (by rw [hplace]; simp) (by rw [hplace]; rfl)
  unfold recvResponsePkt
  refine Post.check (fun hbusy => ?_) fun _ => trivial
  dsimp only
  split
  · rename_i hnil
    refine ⟨⟨update place a .eject, stage, ?_⟩, SameInjection.injects rfl⟩
    exact {
      h with
      accs := haccs
      prog := hprog
      serial := h.serial.release hbusy hnil
      exclusive := h.exclusive.release ha
      full := hfull }
  · rename_i next rest hcons
    refine Post.check (fun _ => ?_) fun _ => trivial
    have hline : c.line next = c.line a := (haccs.place_blocked hcons).2
    have hblocked : update place a .eject next = .blocked := (haccs.place_blocked hcons).1
    have hcons' : s.blockedAccesses (c.line next) = next :: rest := by
      rw [hline]
      exact hcons
    have hunpark := haccs.unpark hcons'
    rw [hline] at hunpark
    refine ⟨⟨update (update place a .eject) next .inject, stage, ?_⟩, ?_⟩
    · exact {
        h with
        accs := hunpark
        prog := hprog.shift (by rw [hblocked]; rfl) rfl (by simp) fun _ =>
          hprog.head next (by rw [hblocked]; rfl) (by rw [hblocked]; simp)
            (hprog.unsent next (by rw [hblocked]; rfl))
        serial := h.serial.unpark hbusy hcons hline
        exclusive := h.exclusive.release ha
        full := hfull.update (by rw [hblocked]; simp) (by rw [hblocked]; rfl) }
    · refine fun hinj => ⟨fun _ => ?_, hinj.2⟩
      cases hm : s.mshrsFull with
      | true => exact .inr rfl
      | false => exact .inl (by simp)

/-- What the response of an access leaves of its buffer. -/
theorem finishAccess_same (B : WarpInstBuffer) (a : Access) (data : List Byte) :
    (B.finishAccess a data).1.inst = B.inst ∧ (B.finishAccess a data).1.isFence = B.isFence ∧
      (B.finishAccess a data).1.coalescedAccesses = B.coalescedAccesses ∧
      (B.finishAccess a data).1.translatedAccesses = B.translatedAccesses.erase a ∧
      (B.finishAccess a data).2
        = (B.coalescedAccesses.isEmpty && (B.translatedAccesses.erase a).isEmpty) := by
  have hlane (B : WarpInstBuffer) (lane : ℕ) : ∃ pkts, WarpInstBuffer.finishLane a data B lane
      = { B with laneRequestPkts := pkts } := by
    unfold WarpInstBuffer.finishLane
    split
    · exact ⟨_, rfl⟩
    · exact ⟨_, rfl⟩
    · exact ⟨B.laneRequestPkts, rfl⟩
  have hfold : ∀ (l : List ℕ) (B : WarpInstBuffer), ∃ pkts,
      l.foldl (WarpInstBuffer.finishLane a data) B = { B with laneRequestPkts := pkts } := by
    intro l
    induction l with
    | nil => exact fun B => ⟨B.laneRequestPkts, rfl⟩
    | cons lane l ih =>
      intro B
      obtain ⟨pkts, hpkts⟩ := hlane B lane
      obtain ⟨pkts', hpkts'⟩ := ih (WarpInstBuffer.finishLane a data B lane)
      exact ⟨pkts', by rw [List.foldl_cons, hpkts', hpkts]⟩
  obtain ⟨pkts, hpkts⟩ := hfold a.activeLanes B
  unfold WarpInstBuffer.finishAccess
  rw [hpkts]
  exact ⟨rfl, rfl, rfl, rfl, rfl⟩

/-- The state after the response at the front is ejected, before its instruction is
looked at. -/
def State.eject (s : State) (a : Access) (rest : List Access) : State :=
  { s with
    bufs := update s.bufs a.buf ((s.bufs a.buf).finishAccess a (s.data a)).1
    perWarpOutstandingAccesses := update s.perWarpOutstandingAccesses a.warp
      (s.perWarpOutstandingAccesses a.warp - 1)
    ejectBuffer := rest
    ejected := s.ejected ++ [a] }

theorem Inv.eject {rest : List Access} (h : Inv c place stage s) (hq : s.ejectBuffer = a :: rest)
    {s₁ : State} (hs₁ : s₁ = s.eject a rest) :
    Core c (update place a .done) stage s₁ ∧ Full (update place a .done) stage s₁.program ∧
      (∀ v x, v ≠ a.warp → (s₁.perWarpInstructionQueues v).head? = some x →
        (s₁.bufs x).isFence = true → 0 < s₁.perWarpOutstandingAccesses v) ∧
      (∀ x, (s₁.bufs x).isFence = (s.bufs x).isFence) ∧
      ((s.bufs a.buf).finishAccess a (s.data a)).2 = ((s₁.bufs a.buf).coalescedAccesses.isEmpty &&
        (s₁.bufs a.buf).translatedAccesses.isEmpty) := by
  unfold State.eject at hs₁
  have hplace := h.accs.place_eject hq
  obtain ⟨hinst', hfence', hcoal', htrans', hcomplete⟩ :=
    finishAccess_same (s.bufs a.buf) a (s.data a)
  have hinst : (fun x => (s₁.bufs x).inst) = fun x => (s.bufs x).inst := by
    rw [hs₁]
    exact bufs_update_same WarpInstBuffer.inst _ hinst'
  have hfences : (fun x => (s₁.bufs x).isFence) = fun x => (s.bufs x).isFence := by
    rw [hs₁]
    exact bufs_update_same WarpInstBuffer.isFence _ hfence'
  have hboxes : s₁.boxes = { s.boxes with
      eject := rest
      ejected := s.boxes.ejected ++ [a]
      translated := update s.boxes.translated a.buf ((s.boxes.translated a.buf).erase a) } := by
    rw [hs₁]
    simp only [State.boxes, bufs_update_same WarpInstBuffer.coalescedAccesses _ hcoal',
      bufs_update WarpInstBuffer.translatedAccesses, htrans']
  have hprogram : s₁.program = { s.program with
      outstanding := update s.program.outstanding a.warp (s.program.outstanding a.warp - 1)
      eject := rest } := by
    simp only [State.program, hinst, hfences]
    rw [hs₁]
  refine ⟨⟨?_, ?_, ?_, ?_, ?_, ?_⟩, ?_, ?_, congrFun hfences, ?_⟩
  · rw [hboxes]
    exact h.accs.finish hq
  · rw [hs₁]
    exact h.bufs
  · rw [hprogram]
    exact h.prog.finish hplace hq
  · rw [hs₁]
    exact h.serial
  · rw [hs₁]
    exact h.exclusive
  · rw [hinst, hs₁]
    exact h.commits
  · rw [hprogram]
    exact h.full.update (by rw [hplace]; simp) (by rw [hplace]; rfl)
  · intro v x hv hx hf
    have hpos := h.waits v x (by rw [hs₁] at hx; exact hx) ((congrFun hfences x).symm.trans hf)
    rw [hs₁]
    show 0 < update s.perWarpOutstandingAccesses a.warp _ v
    rwa [update_of_ne hv]
  · rw [hs₁]
    simp only [update_self]
    rw [hcomplete, hcoal', htrans']

/-- An instruction that has sent an access and is not complete keeps its warp
waiting: an access of it is outstanding, or it is still at the head of the queue. -/
theorem Core.waits_of_live {place' : Access → Place} (h : Prog place stage s.program)
    (ha : place a = .eject) {s₁ : State} (h₁ : Core c place' stage s₁) {f : ℕ}
    (hf : (s.perWarpInstructionQueues a.warp).head? = some f) (hfence : (s.bufs f).isFence)
    {x : Access} (hx : place' x = place x) (hnone : place x ≠ .none) (hdone : place x ≠ .done)
    (hbuf : x.buf = a.buf) : 0 < s₁.perWarpOutstandingAccesses a.warp := by
  have hne : place a ≠ .none ∧ place a ≠ .done := by rw [ha]; simp
  have hwarp : x.warp = a.warp := by
    obtain ⟨i, hi, -, hwi⟩ := h.warp_eq hnone
    obtain ⟨j, hj, -, hwj⟩ := h.warp_eq hne.1
    rw [← h.live x hnone hdone, hbuf, h.live a hne.1 hne.2, hj] at hi
    obtain rfl := Option.some.inj hi
    rw [← hwi, hwj]
  by_cases hunsent : (place x).unsent = true
  · -- then the instruction is at the head, and not a fence
    have hstage : stage a.buf = .queued a.warp := by
      have := h.unsent x hunsent
      rwa [hbuf, hwarp] at this
    have hhead : (s.perWarpInstructionQueues a.warp).head? = some a.buf :=
      h.head a (by rw [ha]; rfl) (by rw [ha]; simp) hstage
    obtain rfl : f = a.buf := Option.some.inj (hf.symm.trans hhead)
    have hnf : (s.bufs a.buf).isFence = false :=
      h.not_fence hne.1 hne.2 (by rw [hstage]; rfl)
    exact absurd (hfence.symm.trans hnf) (by simp)
  · have hcount : s₁.perWarpOutstandingAccesses a.warp
        = s₁.cache.countP (·.warp = a.warp) + s₁.ejectBuffer.countP (·.warp = a.warp) :=
      h₁.prog.count a.warp
    rw [hcount]
    rcases hp : place x with _ | _ | _ | _ | _ | _ | _ | _
    all_goals first
      | exact absurd hp hnone
      | exact absurd hp hdone
      | exact absurd (by rw [hp]; rfl) hunsent
      | skip
    · have hmem : x ∈ s₁.cache := h₁.accs.cache.mem_iff.2 (hx.trans hp)
      have hpos : 0 < s₁.cache.countP (·.warp = a.warp) :=
        List.countP_pos_iff.2 ⟨x, hmem, by simpa using hwarp⟩
      omega
    · have hmem : x ∈ s₁.ejectBuffer := h₁.accs.eject.mem_iff.2 (hx.trans hp)
      have hpos : 0 < s₁.ejectBuffer.countP (·.warp = a.warp) :=
        List.countP_pos_iff.2 ⟨x, hmem, by simpa using hwarp⟩
      omega

theorem ejectAccess_sound {rest : List Access} (h : Sound c s) (hq : s.ejectBuffer = a :: rest) :
    Post (ejectAccess a rest s) (fun _ => True) fun s' => Sound c s' ∧ SameInjection s s' := by
  obtain ⟨place, stage, h⟩ := h
  refine post_of_forall fun s' hs => ?_
  have hplace := h.accs.place_eject hq
  obtain ⟨s₁, hs₁⟩ : ∃ s₁, s₁ = s.eject a rest := ⟨_, rfl⟩
  obtain ⟨hcore, hfull, hwaits, hfences, hcomplete⟩ := h.eject hq hs₁
  unfold State.eject at hs₁
  have hqueues : s₁.perWarpInstructionQueues = s.perWarpInstructionQueues := by rw [hs₁]
  have hsame : SameInjection s s₁ := by
    rw [hs₁]
    rfl
  unfold ejectAccess at hs
  dsimp only at hs
  rw [← hs₁] at hs
  split at hs
  · -- the instruction is complete, so all its accesses were sent
    rename_i hnil
    rw [hcomplete, Bool.and_eq_true, List.isEmpty_iff, List.isEmpty_iff] at hnil
    have hempty : ∀ x : Access, x.buf = a.buf → update place a .done x = .none ∨
        update place a .done x = .done := fun x hx => hcore.accs.empty hnil.1 hnil.2 hx
    have hissued : stage a.buf = .issued := by
      refine (h.prog.sent a (.inr hplace)).resolve_left fun hst => ?_
      obtain ⟨z, hz, hbuf⟩ := h.full a.buf a.warp hst a
        (h.prog.live a (by rw [hplace]; simp) (by rw [hplace]; simp)).symm (by rw [hplace]; simp)
      have hza : z ≠ a := by
        rintro rfl
        rw [hplace] at hz
        cases hz
      rcases hempty z hbuf with hp | hp <;>
        rw [update_of_ne hza] at hp <;> rw [hp] at hz <;> cases hz
    obtain ⟨s₂, hpush, hs⟩ := bind_eq_ok hs
    have hcore₂ := hcore.push hissued hempty hpush
    obtain ⟨k, hs₂⟩ := pushToCommitBuffer_ok hpush
    have hfull₂ : Full (update place a .done) (update stage a.buf .committing)
        s₂.program := by
      rw [hs₂]
      exact Full.leave (R := s₁.program) hfull (by simp)
    have hwaits₂ : ∀ v x, v ≠ a.warp → (s₂.perWarpInstructionQueues v).head? = some x →
        (s₂.bufs x).isFence = true → 0 < s₂.perWarpOutstandingAccesses v := by
      rw [hs₂]
      exact hwaits
    have hsame₂ : SameInjection s s₂ := by
      rw [hs₂]
      exact hsame
    have hhead : s' = s₂ → (∀ f, (s₂.perWarpInstructionQueues a.warp).head? = some f →
        (s₂.bufs f).isFence = true → 0 < s₂.perWarpOutstandingAccesses a.warp) →
        Sound c s' ∧ SameInjection s s' := by
      rintro rfl hw
      refine ⟨⟨_, _, hcore₂, hfull₂, fun v x hx hf => ?_⟩, hsame₂⟩
      by_cases hv : v = a.warp
      · subst hv
        exact hw x hx hf
      · exact hwaits₂ v x hv hx hf
    split at hs
    · rename_i hnone
      exact hhead (Except.ok.inj hs).symm fun f hf => by rw [hnone] at hf; cases hf
    · rename_i f queue hqueue
      split at hs
      · obtain ⟨hsound, hsame'⟩ := hcore₂.clear hfull₂ hwaits₂ hs
        exact ⟨hsound, hsame'.trans hsame₂⟩
      · rename_i hcond
        refine hhead (Except.ok.inj hs).symm fun x hx hf => ?_
        rw [hqueue] at hx
        obtain rfl : f = x := Option.some.inj hx
        exact Nat.pos_of_ne_zero fun hzero => hcond ⟨hzero, hf⟩
  · rename_i hcons
    rw [hcomplete, Bool.and_eq_true, List.isEmpty_iff, List.isEmpty_iff] at hcons
    obtain rfl : s₁ = s' := Except.ok.inj hs
    refine ⟨⟨_, _, hcore, hfull, fun v f hf hfence => ?_⟩, hsame⟩
    by_cases hv : v = a.warp
    · subst hv
      -- an access of the instruction is left
      obtain ⟨x, hlive, hbuf⟩ : ∃ x : Access, (update place a .done x ≠ .none ∧
          update place a .done x ≠ .done) ∧ x.buf = a.buf := by
        by_contra hno
        refine hcons ⟨hcore.accs.coalesced_eq_nil fun x hx => ?_,
          List.eq_nil_iff_forall_not_mem.2 fun x hx => ?_⟩
        · by_contra hp
          exact hno ⟨x, not_or.1 hp, hx⟩
        · obtain ⟨htrans, hxb⟩ := ((hcore.accs.translated a.buf).mem_iff (a := x)).1 hx
          refine hno ⟨x, ⟨fun hp => ?_, fun hp => ?_⟩, hxb⟩
          · rw [hp] at htrans
            cases htrans
          · rw [hp] at htrans
            cases htrans
      have hxa : x ≠ a := by
        rintro rfl
        exact hlive.2 (update_self ..)
      have hsamePlace : update place a .done x = place x := update_of_ne hxa ..
      rw [hsamePlace] at hlive
      exact Core.waits_of_live h.prog hplace hcore (hqueues ▸ hf)
        ((hfences f).symm.trans hfence) hsamePlace hlive.1 hlive.2 hbuf
    · exact hwaits v f hv hf hfence

theorem ejectLoop_sound (width : ℕ) (h : Sound c s) :
    Post (ejectLoop width s) (fun _ => True) fun s' => Sound c s' ∧ SameInjection s s' := by
  induction width generalizing s with
  | zero =>
    obtain ⟨place, stage, h⟩ := h
    exact ⟨⟨place, stage, { h with }⟩, rfl⟩
  | succ width ih =>
    rw [ejectLoop]
    split
    · exact ⟨h, rfl⟩
    · rename_i a rest hq
      refine (ejectAccess_sound h hq).bind fun s₁ h₁ => ?_
      exact (ih h₁.1).imp fun s' h' => ⟨h'.1, h'.2.trans h₁.2⟩

theorem ejectAccessResponses_sound (h : Sound c s) :
    Post (ejectAccessResponses c s) (fun _ => True) fun s' => Sound c s' ∧ SameInjection s s' :=
  Post.check (fun _ => ejectLoop_sound c.ejectWidth h) fun _ => trivial

end Responses

/-! ## Commit of an instruction and flush -/

section Recycle

variable {c : Config} {place : Access → Place} {stage : ℕ → Stage} {s : State} {b : ℕ}

/-- What the answers of the lanes of a buffer leave unchanged. -/
theorem respondLanes_inv (lanes : List ℕ) (n : ℕ) (h : Inv c place stage s) :
    Inv c place stage (respondLanes b lanes n s).1 ∧ SameInjection s (respondLanes b lanes n s).1 ∧
      (respondLanes b lanes n s).1.commitInstBuffer = s.commitInstBuffer := by
  induction lanes generalizing n s with
  | nil => exact ⟨h, rfl, rfl⟩
  | cons lane lanes ih =>
    rw [respondLanes]
    cases hpkt : (s.bufs b).laneRequestPkts lane with
    | none => exact ih n h
    | some pkt =>
      cases n with
      | zero => exact ⟨h, rfl, rfl⟩
      | succ n =>
        obtain ⟨hinv, hsame, hcommit⟩ := ih n (s := { s.modifyBuf b (·.setLane lane none) with
          responses := s.responses ++ [⟨(s.bufs b).inst, lane, pkt⟩] })
          { h.setLane b lane none with }
        exact ⟨hinv, hsame, hcommit⟩

/-- The buffer at the front of the commit buffer goes back to the pool. -/
theorem Inv.recycle (h : Inv c place stage s) (hq : s.commitInstBuffer = b :: rest)
    (k : Bool) (n : ℕ) :
    Inv c place (update stage b .free) { s with
      commitInstBuffer := rest
      commitScheduled := k
      committed := s.committed ++ [(s.bufs b).inst]
      numActiveWarpInstBuffers := n
      availableWarpInstBufs := s.availableWarpInstBufs ++ [b] } := by
  have hb : stage b = .committing := h.bufs.commit.mem_iff.1 (by
    show b ∈ s.commitInstBuffer
    rw [hq]
    exact List.mem_cons_self)
  have hqueued : ∀ w, stage b ≠ .queued w := fun w => by rw [hb]; simp
  exact {
    h with
    bufs := h.bufs.recycle hq
    prog := h.prog.turn (.inl rfl) hqueued
      (fun a ha => h.prog.empty hqueued (by rw [hb]; simp) ha) fun _ _ => rfl
    commits := by
      have hcommits := h.commits
      rw [hq] at hcommits
      simpa using hcommits
    full := h.full.leave (by simp) }

theorem finalizeFlush_sound (h : Sound c s) :
    Post (finalizeFlush s) (fun _ => True) fun s' => Sound c s' ∧ SameInjection s s' := by
  obtain ⟨place, stage, h⟩ := h
  exact Post.check (fun _ => ⟨⟨place, stage, { h with }⟩, rfl⟩) fun _ => trivial

theorem processFlush_sound (accepted : Bool) (h : Sound c s) :
    Post (processFlush c accepted s) (fun _ => True) fun s' =>
      Sound c s' ∧ SameInjection s s' := by
  refine Post.check (fun _ => ?_) fun _ => trivial
  split
  · obtain ⟨place, stage, h⟩ := h
    exact Post.check (fun _ => ⟨⟨place, stage, { h with }⟩, rfl⟩) fun _ => trivial
  · exact finalizeFlush_sound h

theorem addFlushRequest_sound (accepted : Bool) (h : Sound c s) :
    Post (addFlushRequest c accepted s) (fun _ => True) fun s' =>
      Sound c s' ∧ SameInjection s s' := by
  obtain ⟨place, stage, h⟩ := h
  have hflushing : Sound c { s with flushing := true } := ⟨place, stage, { h with }⟩
  unfold addFlushRequest
  dsimp only
  split
  · exact (processFlush_sound accepted hflushing).imp fun s' h' => h'
  · exact ⟨hflushing, rfl⟩

theorem commitWarpInst_sound (n : ℕ) (flush : Bool) (h : Sound c s) :
    Post (commitWarpInst c n flush s) (fun _ => True) fun s' =>
      Sound c s' ∧ SameInjection s s' := by
  obtain ⟨place, stage, h⟩ := h
  refine Post.check (fun _ => ?_) fun _ => trivial
  split
  · trivial
  rename_i b rest hq
  have htail (s₁ : State) (done : Bool) (hinv : Inv c place stage s₁) (hsame : SameInjection s s₁)
      (hcommit : s₁.commitInstBuffer = s.commitInstBuffer) :
      Post (commitResult c flush b rest s₁ done) (fun _ => True) fun s' =>
        Sound c s' ∧ SameInjection s s' := by
    rw [← hcommit] at hq
    unfold commitResult
    split
    · exact Post.check (fun _ => ⟨⟨place, stage, { hinv with }⟩, hsame⟩) fun _ => trivial
    · refine Post.check (fun _ => ?_) fun _ => trivial
      have hrecycled := hinv.recycle hq (!rest.isEmpty) (s₁.numActiveWarpInstBuffers - 1)
      dsimp only
      split
      · exact (processFlush_sound flush ⟨_, _, hrecycled⟩).imp fun s' h' =>
          ⟨h'.1, h'.2.trans hsame⟩
      · exact ⟨⟨_, _, hrecycled⟩, hsame⟩
  obtain ⟨hinv, hsame, hcommit⟩ := respondLanes_inv (b := b) (List.range c.warpSize) n h
  split
  · exact htail s true h rfl rfl
  · exact htail _ _ hinv hsame hcommit

theorem retryCommitWarpInst_sound (h : Sound c s) :
    Post (retryCommitWarpInst s) (fun _ => True) fun s' => Sound c s' ∧ SameInjection s s' := by
  obtain ⟨place, stage, h⟩ := h
  exact Post.check (fun _ => ⟨⟨place, stage, { h with }⟩, rfl⟩) fun _ => trivial

end Recycle

/-! ## Runs -/

/-- The states that some run reaches. -/
def Reaches (c : Config) (s : State) : Prop :=
  Reach (step c) (fun _ _ => True) (.initial c) s

theorem initial_sound (c : Config) : Sound c (.initial c) ∧ Injects (.initial c) := by
  refine ⟨⟨fun _ => .none, fun _ => .free, ?_⟩, absurd rfl, fun hwait => by cases hwait⟩
  exact {
    accs := Accs.initial
    bufs := Bufs.initial c
    prog := Prog.initial c
    serial := Serial.nil
    exclusive := fun _ => rfl
    commits := rfl
    full := fun b w hb => by cases hb
    waits := fun w b hb => by cases hb }

/-- One event keeps the invariant. -/
theorem step_sound (e : Event) (h : Sound c s ∧ Injects s) :
    Post (step c s e) (fun _ => True) fun s' => Sound c s' ∧ Injects s' := by
  obtain ⟨h, hinj⟩ := h
  have hsame {s₁ s' : State} (h₁ : Injects s₁) (h' : Sound c s' ∧ SameInjection s₁ s') :
      Sound c s' ∧ Injects s' := ⟨h'.1, h'.2.injects h₁⟩
  have hfields {s₁ : State} (heq : ∀ place stage, Inv c place stage s → Inv c place stage s₁) :
      Sound c s₁ := by
    obtain ⟨place, stage, h⟩ := h
    exact ⟨place, stage, heq place stage h⟩
  cases e with
  | laneRequest now lane pkt =>
    refine Post.check (fun _ => ?_) fun _ => trivial
    exact (addLaneRequest_sound h now lane pkt).bind fun r hr =>
      hsame hinj hr
  | dispatch paddr => exact (dispatchWarpInst_sound h paddr).imp fun s' => hsame hinj
  | translated now a =>
    refine Post.check (fun ha => ?_) fun _ => trivial
    obtain ⟨hsound, hinj'⟩ := finishTranslation_sound now h ha
    exact ⟨hsound, hinj' hinj⟩
  | inject now n =>
    have hsound : Sound c { s with injectScheduled := false } := hfields fun _ _ h => { h with }
    exact Post.check (fun _ => injectCacheAccesses_sound hsound n) fun _ => trivial
  | retryInject =>
    have hsound : Sound c { s with cacheOwes := false } := hfields fun _ _ h => { h with }
    exact Post.check (fun _ => scheduleRetryInject_sound hsound) fun _ => trivial
  | response now a data =>
    refine Post.check (fun ha => ?_) fun _ => trivial
    exact (recvResponsePkt_sound h ha _).imp fun s' h' => ⟨h'.1, h'.2 hinj⟩
  | eject =>
    have hsound : Sound c { s with ejectScheduled := false } := hfields fun _ _ h => { h with }
    exact Post.check (fun _ => (ejectAccessResponses_sound hsound).imp fun s' => hsame hinj)
      fun _ => trivial
  | commit n flush =>
    have hsound : Sound c { s with commitScheduled := false } := hfields fun _ _ h => { h with }
    exact Post.check (fun _ => (commitWarpInst_sound n flush hsound).imp fun s' => hsame hinj)
      fun _ => trivial
  | retryCommit =>
    have hsound : Sound c { s with coreOwes := false } := hfields fun _ _ h => { h with }
    exact Post.check (fun _ => (retryCommitWarpInst_sound hsound).imp fun s' =>
      hsame hinj) fun _ => trivial
  | flush accepted => exact (addFlushRequest_sound accepted h).imp fun s' => hsame hinj
  | flushed =>
    have hsound : Sound c { s with flushSent := false } := hfields fun _ _ h => { h with }
    exact Post.check (fun _ => (finalizeFlush_sound hsound).imp fun s' => hsame hinj)
      fun _ => trivial

theorem Reaches.sound (h : Reaches c s) : Sound c s ∧ Injects s :=
  Reach.invariant (I := fun s => Sound c s ∧ Injects s) h (initial_sound c)
    fun _ e hI _ => step_sound e hI

/-- The access belongs to a dispatched instruction. -/
def State.Dispatched (s : State) (a : Access) : Prop :=
  ∃ (n : ℕ) (i : Inst), s.insts[n]? = some i ∧ a ∈ i.accesses

theorem Prog.dispatched_iff {place : Access → Place} {stage : ℕ → Stage} {a : Access}
    (h : Prog place stage s.program) : s.Dispatched a ↔ place a ≠ .none := by
  rw [h.known a]
  refine ⟨?_, fun ⟨i, hi, ha⟩ => ⟨a.inst, i, hi, ha⟩⟩
  rintro ⟨n, i, hi, ha⟩
  exact ⟨i, ((h.wf n i hi).1 a ha).1 ▸ hi, ha⟩

/-! ### Program order -/

/-- The cache takes the accesses of a warp in program order, a fence commits only
after every older access of its warp is ejected, and a fence at the head of a queue
has an access to wait for. -/
theorem accesses_in_program_order (h : Reaches c s) :
    (∀ a l l', s.accepted = l ++ a :: l' → ∀ (n : ℕ) (i : Inst), s.insts[n]? = some i →
      i.warp = a.warp → n < a.inst → ∀ b ∈ i.accesses, b ∈ l) ∧
    (∀ n ∈ s.committed, ∀ i : Inst, s.insts[n]? = some i → i.type = .fence →
      ∀ m < n, ∀ j : Inst, s.insts[m]? = some j → j.warp = i.warp →
        ∀ b ∈ j.accesses, b ∈ s.ejected) ∧
    ∀ w b, (s.perWarpInstructionQueues w).head? = some b → (s.bufs b).isFence = true →
      0 < s.perWarpOutstandingAccesses w := by
  obtain ⟨⟨place, stage, hinv⟩, -⟩ := h.sound
  have hknown (m : ℕ) (j : Inst) (hj : s.insts[m]? = some j) (b : Access) (hb : b ∈ j.accesses) :
      place b ≠ .none := hinv.prog.dispatched_iff.1 ⟨m, j, hj, hb⟩
  refine ⟨fun a l l' hl n i hi hw hn b hb => ?_, fun n hn i hi hf m hm j hj hw b hb => ?_,
    hinv.waits⟩
  · obtain ⟨hinst, hwarp⟩ := (hinv.prog.wf n i hi).1 b hb
    exact hinv.prog.accepted a l l' hl b (hinst ▸ hn) (hwarp.trans hw) (hknown n i hi b hb)
  · have hpushed : n ∈ s.pushed := by
      rw [hinv.commits]
      exact List.mem_append_left _ hn
    obtain ⟨hinst, hwarp⟩ := (hinv.prog.wf m j hj).1 b hb
    have hdone : place b = .done := hinv.prog.fences n i hi hf
      ((hinv.prog.pushed n hpushed).2 i.warp) b (hinst ▸ hm) (hwarp.trans hw) (hknown m j hj b hb)
    exact hinv.accs.ejected.mem_iff.2 hdone

/-- One lane and three buffers. -/
def oneLane : Config where
  warpSize := 1
  warpInstBufPoolSize := 3
  injectWidth := 2
  ejectWidth := 1
  l1TagAccessCycles := 0
  sublineBytes := 32
  cacheLineAddrMaskBits := 7
  forwardFlush := false

/-- The access of the `n`-th load of `twoLoads`. -/
def twoLoadsAccess (n : ℕ) : Access :=
  ⟨n, 0, n, 0, [0], false, 0, 0, 32⟩

/-- Two loads and a fence of one warp.  The second translation ends first, and the
second access waits for the line. -/
def twoLoads : List Event :=
  [.laneRequest 0 0 ⟨0, .load, 0, 0, 4, []⟩, .dispatch fun _ => 0,
    .laneRequest 1 0 ⟨1, .load, 0, 4, 4, []⟩, .dispatch fun _ => 0,
    .laneRequest 2 0 ⟨2, .fence, 0, 0, 0, []⟩, .dispatch fun _ => 0,
    .translated 3 (twoLoadsAccess 1), .translated 3 (twoLoadsAccess 0), .inject 3 2]

def twoLoadsAnswers : List Event :=
  [.response 4 (twoLoadsAccess 0) [1, 2, 3, 4, 5, 6, 7, 8], .inject 4 1, .eject,
    .response 5 (twoLoadsAccess 1) [1, 2, 3, 4, 5, 6, 7, 8], .eject,
    .commit 1 true, .commit 1 true, .commit 1 true]

theorem twoLoads_ends :
    Post (run (step oneLane) (.initial oneLane) (twoLoads ++ twoLoadsAnswers)) (fun _ => False)
      fun s => s.committed = [0, 1, 2] ∧ (s.insts.map Inst.type)[2]? = some .fence := by
  decide +kernel

theorem reaches_of_run {es : List Event} (h : run (step c) (.initial c) es = .ok s) : Reaches c s :=
  Reach.of_meets .start (Meets.of_forall fun _ _ _ => trivial) h

theorem twoLoads_fence_commits_last : ∃ s, Reaches oneLane s ∧ s.committed = [0, 1, 2] ∧
      ∀ i : Inst, s.insts[2]? = some i → i.type = .fence → ∀ m < 2, ∀ j : Inst,
        s.insts[m]? = some j → j.warp = i.warp → ∀ b ∈ j.accesses, b ∈ s.ejected := by
  obtain ⟨s, hs, hcommitted, -⟩ := twoLoads_ends.exists_ok
  have hreach := reaches_of_run hs
  exact ⟨s, hreach, hcommitted, (accesses_in_program_order hreach).2.1 2 (by simp [hcommitted])⟩

/-! ### Conservation -/

/-- How often the access is translated behind the head of the queue of its warp. -/
def State.behind (s : State) (a : Access) : ℕ :=
  if a.buf ∈ (s.perWarpInstructionQueues a.warp).tail then
    (s.bufs a.buf).translatedAccesses.count a
  else 0

/-- How often the access is in one of the places from its translation to its
ejection. -/
def State.occurrences (c : Config) (s : State) (a : Access) : ℕ :=
  s.translating.count a + s.behind a + s.injectBuffer.count a +
    (s.blockedAccesses (c.line a)).count a + s.cache.count a + s.ejectBuffer.count a

section Conservation

variable {c : Config} {place : Access → Place} {stage : ℕ → Stage} {s : State} {a : Access}

/-- An access waits behind the head exactly if it is translated and its instruction
is in the queue, but not at the head. -/
theorem Inv.behind_eq (h : Inv c place stage s) (a : Access) :
    s.behind a = if place a = .behind then 1 else 0 := by
  have hnodup : (s.perWarpInstructionQueues a.warp).Nodup := (h.bufs.queue a.warp).1
  have hmem : a.buf ∈ s.perWarpInstructionQueues a.warp ↔ stage a.buf = .queued a.warp :=
    h.bufs.mem_queue
  have htrans : (s.bufs a.buf).translatedAccesses.count a
      = if (place a).isTranslated = true ∧ a.buf = a.buf then 1 else 0 :=
    Holds.count_eq (h.accs.translated a.buf) a
  have hhead := h.prog.head a
  have hbehind := h.prog.behind a
  have hunsent := h.prog.unsent a
  replace hhead : (place a).isTranslated = true → place a ≠ .behind →
      stage a.buf = .queued a.warp → (s.perWarpInstructionQueues a.warp).head? = some a.buf := hhead
  replace hbehind : place a = .behind →
      (s.perWarpInstructionQueues a.warp).head? ≠ some a.buf := hbehind
  unfold State.behind
  cases hq : s.perWarpInstructionQueues a.warp with
  | nil =>
    rw [hq] at hmem
    rw [if_neg (by simp), if_neg]
    intro hp
    exact absurd (hmem.2 (hunsent (by rw [hp]; rfl))) (by simp)
  | cons f rest =>
    rw [hq] at hmem hnodup hhead hbehind
    rw [List.tail_cons]
    by_cases hp : place a = .behind
    · have hin := hmem.2 (hunsent (by rw [hp]; rfl))
      have hne : f ≠ a.buf := fun heq => hbehind hp (by rw [heq]; rfl)
      rw [if_pos hp, if_pos ((List.mem_cons.1 hin).resolve_left fun heq => hne heq.symm), htrans,
        if_pos ⟨by rw [hp]; rfl, rfl⟩]
    · rw [if_neg hp]
      split
      · rename_i htail
        rw [htrans, if_neg]
        rintro ⟨ht, -⟩
        have hfirst := hhead ht hp (hmem.1 (List.mem_cons_of_mem _ htail))
        rw [← Option.some.inj hfirst] at htail
        exact (List.nodup_cons.1 hnodup).1 htail
      · rfl

/-- An access in the inject buffer or parked is there once. -/
theorem Inv.waiting_count (h : Inv c place stage s) (a : Access) :
    s.injectBuffer.count a = (if place a = .inject then 1 else 0) ∧
      (s.blockedAccesses (c.line a)).count a = if place a = .blocked then 1 else 0 := by
  refine ⟨Holds.count_eq h.accs.inject a, (Holds.count_eq (h.accs.blocked (c.line a)) a).trans ?_⟩
  simp

/-- A dispatched access is in one place until it is ejected. -/
theorem Inv.occurrences_eq (h : Inv c place stage s) (a : Access) :
    s.occurrences c a = if place a = .none ∨ place a = .done then 0 else 1 := by
  have htranslating : s.translating.count a = if place a = .translating then 1 else 0 :=
    Holds.count_eq h.accs.translating a
  obtain ⟨hinject, hblocked⟩ := h.waiting_count a
  have hcache : s.cache.count a = if place a = .cache then 1 else 0 :=
    Holds.count_eq h.accs.cache a
  have heject : s.ejectBuffer.count a = if place a = .eject then 1 else 0 :=
    Holds.count_eq h.accs.eject a
  unfold State.occurrences
  rw [htranslating, h.behind_eq, hinject, hblocked, hcache, heject]
  cases place a <;> simp

/-- Each access enters the inject buffer once. -/
theorem Inv.nodup_entered (h : Inv c place stage s) : s.entered.Nodup := by
  refine List.nodup_iff_count_le_one.2 fun a => ?_
  have horder := congrArg (List.count a) (h.serial.order (c.line a))
  have hcount {l : List Access} : (ofKey c.line (c.line a) l).count a = l.count a :=
    List.count_filter (by simp)
  have haccepted : s.accepted.count a = if (place a).isSent = true then 1 else 0 :=
    Holds.count_eq h.accs.accepted a
  obtain ⟨hinject, hblocked⟩ := h.waiting_count a
  rw [List.count_append, (pending_perm ..).count_eq, List.count_append, hcount, hcount, hcount,
    haccepted, hinject, hblocked] at horder
  rw [horder]
  cases place a <;> simp [Place.isSent]

end Conservation

/-- Every dispatched access is in exactly one place until it is ejected, and only
dispatched ones are; at most one access per line is at the cache, and the blocked
lines are those; an access is sent once, in the order in which the accesses of its
line entered the inject buffer; and injection goes on, or the cache owes a retry. -/
theorem accesses_are_conserved (h : Reaches c s) :
    (∀ a, s.Dispatched a → s.occurrences c a = if a ∈ s.ejected then 0 else 1) ∧
    (∀ a, s.occurrences c a ≠ 0 ∨ a ∈ s.ejected → s.Dispatched a) ∧
    (∀ l, ∀ a ∈ s.blockedAccesses l, c.line a = l) ∧
    (∀ l, (ofKey c.line l s.cache).length = if s.blockedLineAddrs l then 1 else 0) ∧
    s.accepted.Nodup ∧
    (∀ a, a ∈ s.accepted ↔ a ∈ s.cache ∨ a ∈ s.ejectBuffer ∨ a ∈ s.ejected) ∧
    s.entered.Nodup ∧
    (∀ l, ofKey c.line l s.accepted <+: ofKey c.line l s.entered) ∧
    (s.injectBuffer ≠ [] →
      s.injectScheduled = true ∨ s.mshrsFull = true ∧ s.cacheOwes = true) ∧
    ∀ l, s.blockedAccesses l ≠ [] →
      s.blockedLineAddrs l = true ∨ ∃ a ∈ s.injectBuffer, c.line a = l := by
  obtain ⟨⟨place, stage, hinv⟩, hinjects⟩ := h.sound
  refine ⟨fun a ha => ?_, fun a ha => ?_, fun l a ha => ?_, fun l => ?_, hinv.accs.accepted.1,
    fun a => ?_, hinv.nodup_entered, hinv.serial.isPrefix, fun hne =>
    (hinjects.1 hne).imp_right fun hfull => ⟨hfull, hinjects.2 hfull⟩, fun l hl => ?_⟩
  · have hejected : a ∈ s.ejected ↔ place a = .done := hinv.accs.ejected.mem_iff
    rw [hinv.occurrences_eq]
    exact if_congr (by simp [hinv.prog.dispatched_iff.1 ha, hejected]) rfl rfl
  · refine hinv.prog.dispatched_iff.2 fun hnone => ?_
    have hejected : a ∈ s.ejected ↔ place a = .done := hinv.accs.ejected.mem_iff
    rw [hinv.occurrences_eq, hejected, hnone] at ha
    simp at ha
  · exact ((hinv.accs.blocked l).mem_iff.1 ha).2
  · rw [hinv.exclusive l]
    cases s.blockedLineAddrs l <;> rfl
  · have haccepted : a ∈ s.accepted ↔ (place a).isSent = true := hinv.accs.accepted.mem_iff
    have hcache : a ∈ s.cache ↔ place a = .cache := hinv.accs.cache.mem_iff
    have heject : a ∈ s.ejectBuffer ↔ place a = .eject := hinv.accs.eject.mem_iff
    have hejected : a ∈ s.ejected ↔ place a = .done := hinv.accs.ejected.mem_iff
    rw [haccepted, hcache, heject, hejected]
    cases place a <;> simp [Place.isSent]
  · by_contra hno
    rw [not_or, Bool.not_eq_true] at hno
    refine hl (hinv.serial.free l hno.1 (List.filter_eq_nil_iff.2 fun a ha hline => hno.2 ?_))
    exact ⟨a, ha, by simpa using hline⟩

theorem twoLoads_waits : Post (run (step oneLane) (.initial oneLane) twoLoads) (fun _ => False)
      fun s => s.cache = [twoLoadsAccess 0] ∧ s.blockedAccesses 0 = [twoLoadsAccess 1] := by
  decide +kernel

theorem twoLoads_are_conserved : ∃ s, Reaches oneLane s ∧ s.cache = [twoLoadsAccess 0] ∧
      s.blockedAccesses 0 = [twoLoadsAccess 1] ∧
      (∀ a, s.Dispatched a → s.occurrences oneLane a = if a ∈ s.ejected then 0 else 1) ∧
      ∀ l, (ofKey oneLane.line l s.cache).length = if s.blockedLineAddrs l then 1 else 0 := by
  obtain ⟨s, hs, hcache, hblocked⟩ := twoLoads_waits.exists_ok
  have hreach := reaches_of_run hs
  obtain ⟨hone, -, -, hline, -⟩ := accesses_are_conserved hreach
  exact ⟨s, hreach, hcache, hblocked, hone, hline⟩

/-- A buffer is free or commits only after its accesses are ejected. -/
theorem buffers_outlive_accesses (es : List Event) :
    Post (run (step c) (.initial c) es) (fun _ => True) fun s => ∀ a, s.Dispatched a →
      a.buf ∈ s.availableWarpInstBufs ∨ a.buf ∈ s.commitInstBuffer → a ∈ s.ejected := by
  refine post_of_forall fun s hs a ha hb => ?_
  obtain ⟨⟨place, stage, hinv⟩, -⟩ := (reaches_of_run hs).sound
  have hstage : stage a.buf = .free ∨ stage a.buf = .committing :=
    hb.imp (fun hb => (hinv.bufs.available.mem_iff.1 hb).1) hinv.bufs.commit.mem_iff.1
  have hplace : place a = .none ∨ place a = .done := by
    apply hinv.prog.empty (b := a.buf) <;> grind
  exact hinv.accs.ejected.mem_iff.2 (hplace.resolve_left (hinv.prog.dispatched_iff.1 ha))

end Gem5Gpu.GPU.LSQ
