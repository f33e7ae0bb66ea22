import Gem5Gpu.VIHammer.Answers
import Gem5Gpu.VIHammer.DirView

/-!
# What the directory takes and sends

`deliverDir_spec` says what a transition of the directory does to the parties and
to the `Hub`: the message that it takes is gone, and what it sends is there.
`Inv.of_dir` turns this into a step of the invariant.
-/

namespace Gem5Gpu.VIHammer

open Lib Directory

variable {ι : Type} [DecidableEq ι] {L : ℕ}

/-! ## Parties -/

namespace Party

/-- What the party `j` gets of a message of the directory. -/
def takeDir (j : ι) (p : Party ι L) : DirSend ι L → Party ι L
  | .forward dest m =>
    if j ∈ dest then
      if m.type = .WB_ACK ∨ m.type = .WB_NACK then { p with grant := some m.type }
      else { p with probe := some m }
    else p
  | .response (.cache k) m => if j = k then p.push m else p
  | _ => p

/-- There is room for a message of the directory. -/
def RoomDir (j : ι) (p : Party ι L) : DirSend ι L → Prop
  | .forward dest m =>
    j ∈ dest →
      if m.type = .WB_ACK ∨ m.type = .WB_NACK then p.grant = none ∧ m = grantMsg j m.type
      else p.probe = none
  | _ => True

/-- There is room for all messages of a transition of the directory. -/
def RoomsDir (j : ι) : Party ι L → List (DirSend ι L) → Prop
  | _, [] => True
  | p, m :: l => p.RoomDir j m ∧ RoomsDir j (p.takeDir j m) l

/-- The directory takes a message of the party `j`. -/
def dropDir (j : ι) (p : Party ι L) : DirMessage ι L → Party ι L
  | .unblock i _ => if j = i then { p with unblock := none } else p
  | .response i _ => if j = i then { p with answer := none } else p
  | .request i _ => if j = i then { p with request := none } else p
  | _ => p

namespace Of

variable {j : ι} {p : Party ι L} {nd : Node ι L}

theorem takeDir {m : DirSend ι L} (h : p.Of j nd) (hroom : p.RoomDir j m) :
    (p.takeDir j m).Of j (nd.takeDir j m) := by
  obtain ⟨hs, ht, hr, hf, hq, hu, ha⟩ := h
  cases m with
  | dmaResponse m | memory r | trigger t => exact ⟨hs, ht, hr, hf, hq, hu, ha⟩
  | response dest m =>
    cases dest with
    | directory | dma | unset => exact ⟨hs, ht, hr, hf, hq, hu, ha⟩
    | cache k =>
      by_cases hj : j = k
      · simp only [Party.takeDir, Node.takeDir, if_pos hj]
        exact ⟨hs, ht, congrArg _ hr, hf, hq, hu, ha⟩
      · simp only [Party.takeDir, Node.takeDir, if_neg hj]
        exact ⟨hs, ht, hr, hf, hq, hu, ha⟩
  | forward dest m =>
    by_cases hj : j ∈ dest
    · have hroom := hroom hj
      by_cases hm : m.type = .WB_ACK ∨ m.type = .WB_NACK
      · rw [if_pos hm] at hroom
        obtain ⟨hgrant, hmsg⟩ := hroom
        simp only [Party.takeDir, Node.takeDir, if_pos hj, if_pos hm]
        refine ⟨hs, ht, hr, ?_, hq, hu, ha⟩
        rw [hf, hgrant]
        show m ::ₘ (bag p.probe + 0) = bag p.probe + {grantMsg j m.type}
        rw [← hmsg, add_zero, Multiset.add_comm, Multiset.singleton_add]
      · rw [if_neg hm] at hroom
        simp only [Party.takeDir, Node.takeDir, if_pos hj, if_neg hm]
        refine ⟨hs, ht, hr, ?_, hq, hu, ha⟩
        rw [hf, hroom]
        simp [Multiset.singleton_add]
    · simp only [Party.takeDir, Node.takeDir, if_neg hj]
      exact ⟨hs, ht, hr, hf, hq, hu, ha⟩

theorem takesDir {l : List (DirSend ι L)} (h : p.Of j nd) (hroom : p.RoomsDir j l) :
    (l.foldl (Party.takeDir j) p).Of j (l.foldl (Node.takeDir j) nd) := by
  induction l generalizing p nd with
  | nil => exact h
  | cons m l ih => exact ih (h.takeDir hroom.1) hroom.2

end Of

end Party

/-- The message that a party has for the directory. -/
theorem Sys.holds_party {s : Sys ι L} {a : ι → Party ι L} {m : DirMessage ι L}
    (hof : ∀ j, (a j).Of j (s.node j)) (hm : s.holds m) :
    match m with
    | .trigger t => t ∈ s.dirTriggerQueue
    | .unblock i m => (a i).unblock = some m
    | .response i m => (a i).answer = some m
    | .memory m => m ∈ s.responseFromMemory
    | .request i m => (a i).request = some m
    | .dma m => m ∈ s.dmaRequestToDir := by
  cases m with
  | trigger t | memory m | dma m => exact of_decide_eq_true hm
  | unblock i m => simpa [(hof i).unblock] using of_decide_eq_true hm
  | response i m => simpa [(hof i).answer] using of_decide_eq_true hm
  | request i m => simpa [(hof i).request] using of_decide_eq_true hm

theorem Party.Of.dropDir {s : Sys ι L} {a : ι → Party ι L} {m : DirMessage ι L}
    (hof : ∀ j, (a j).Of j (s.node j)) (hm : s.holds m) (j : ι) :
    ((a j).dropDir j m).Of j ((s.drop m).node j) := by
  have hmem := Sys.holds_party hof hm
  have h := hof j
  obtain ⟨hs, ht, hr, hf, hq, hu, ha⟩ := id h
  cases m with
  | trigger t | memory m | dma m => exact h
  | unblock i m =>
    simp only [Sys.drop, Sys.modify_node, Party.dropDir]
    by_cases hj : j = i
    · subst hj
      rw [if_pos rfl, if_pos rfl]
      refine ⟨hs, ht, hr, hf, hq, ?_, ha⟩
      show (s.node j).unblockFromCache.erase m = 0
      rw [hu, hmem]
      exact erase_singleton m
    · rw [if_neg hj, if_neg hj]
      exact h
  | response i m =>
    simp only [Sys.drop, Sys.modify_node, Party.dropDir]
    by_cases hj : j = i
    · subst hj
      rw [if_pos rfl, if_pos rfl]
      refine ⟨hs, ht, hr, hf, hq, hu, ?_⟩
      show (s.node j).responseFromCache.erase m = 0
      rw [ha, hmem]
      exact erase_singleton m
    · rw [if_neg hj, if_neg hj]
      exact h
  | request i m =>
    simp only [Sys.drop, Sys.modify_node, Party.dropDir]
    by_cases hj : j = i
    · subst hj
      rw [if_pos rfl, if_pos rfl]
      refine ⟨hs, ht, hr, hf, ?_, hu, ha⟩
      show (s.node j).requestFromCache.erase m = 0
      rw [hq, hmem]
      exact erase_singleton m
    · rw [if_neg hj, if_neg hj]
      exact h

/-! ## The hub -/

namespace Hub

/-- What the hub gets of a message of the directory. -/
def take (b : Hub ι L) : DirSend ι L → Hub ι L
  | .memory r => { b with requests := r ::ₘ b.requests }
  | .trigger t => { b with trigger := t ::ₘ b.trigger }
  | _ => b

/-- The directory takes a message. -/
def drop (b : Hub ι L) : DirMessage ι L → Hub ι L
  | .trigger t => { b with trigger := b.trigger.erase t }
  | .memory m => { b with responses := b.responses.erase m }
  | _ => b

end Hub

namespace Sys

variable (s : Sys ι L)

theorem hub_drop (m : DirMessage ι L) : (s.drop m).hub = s.hub.drop m := by
  cases m <;> rfl

theorem hub_sendDir (m : DirSend ι L) : (s.sendDir m).hub = s.hub.take m := by
  cases m with
  | response dest m => cases dest <;> rfl
  | _ => rfl

/-- What a transition of the directory leaves as it is. -/
structure SameOutside (s s' : Sys ι L) : Prop where
  memory : s'.memory = s.memory
  history : s'.history = s.history
  dma : ∀ m ∈ s'.dmaRequestToDir, m ∈ s.dmaRequestToDir

omit [DecidableEq ι] in
theorem SameOutside.trans {s s' s'' : Sys ι L} (h : SameOutside s s')
    (h' : SameOutside s' s'') : SameOutside s s'' :=
  ⟨h'.memory.trans h.memory, h'.history.trans h.history, fun m hm => h.dma m (h'.dma m hm)⟩

theorem sameOutside_drop (m : DirMessage ι L) : s.SameOutside (s.drop m) := by
  cases m with
  | dma m => exact ⟨rfl, rfl, fun k hk => Multiset.mem_of_mem_erase hk⟩
  | _ => exact ⟨rfl, rfl, fun k hk => hk⟩

theorem sameOutside_sendDir (m : DirSend ι L) : s.SameOutside (s.sendDir m) := by
  cases m with
  | response dest m => cases dest <;> exact ⟨rfl, rfl, fun k hk => hk⟩
  | _ => exact ⟨rfl, rfl, fun k hk => hk⟩

/-- The hub after a transition of the directory. -/
theorem settleDir_rest (c : DirCtx ι L) :
    (s.settleDir c).hub = c.sent.foldl Hub.take { s.hub with dir := c.toDirLine } ∧
      s.SameOutside (s.settleDir c) := by
  have hfold (l : List (DirSend ι L)) (s : Sys ι L) :
      (l.foldl sendDir s).hub = l.foldl Hub.take s.hub ∧ s.SameOutside (l.foldl sendDir s) := by
    induction l generalizing s with
    | nil => exact ⟨rfl, rfl, rfl, fun m hm => hm⟩
    | cons m l ih =>
      obtain ⟨h1, h2⟩ := ih (s.sendDir m)
      rw [hub_sendDir] at h1
      exact ⟨h1, (s.sameOutside_sendDir m).trans h2⟩
  obtain ⟨h1, h2⟩ := hfold c.sent { s with dir := c.toDirLine }
  exact ⟨h1, h2.memory, h2.history, h2.dma⟩

end Sys

/-! ## Steps -/

section Steps

variable [Fintype ι] {P : Params} {g : Ghost ι L} {a : ι → Party ι L} {s : Sys ι L}
  {now : ℕ} {m : DirMessage ι L} {inp : Input ι L} {e : Event} {l : DirLine ι L}
  {sent : List (DirSend ι L)}

/-- The parties after a transition of the directory that takes `m` and sends
`sent`. -/
def afterDir (a : ι → Party ι L) (m : DirMessage ι L) (sent : List (DirSend ι L)) (j : ι) :
    Party ι L :=
  sent.foldl (Party.takeDir j) ((a j).dropDir j m)

/-- The directory takes a message. -/
theorem deliverDir_spec (hof : ∀ j, (a j).Of j (s.node j)) (hP : P.cfg = ⟨false, false⟩)
    (hm : s.holds m) (hev : m.event = (inp, some e))
    (hrun : doTransition (broadcast now) inp e s.dir = .ok ⟨l, sent, true⟩)
    (hroute : sent.all DirSend.routed)
    (hroom : ∀ j, ((a j).dropDir j m).RoomsDir j sent) :
    ∃ s', step P s (now, .deliverDir m) = .ok s' ∧ (∀ j, (afterDir a m sent j).Of j (s'.node j)) ∧
      s'.hub = sent.foldl Hub.take { s.hub.drop m with dir := l } ∧ s.SameOutside s' := by
  refine ⟨(s.drop m).settleDir ⟨l, sent, true⟩, ?_, fun j => ?_, ?_, ?_⟩
  · simp only [step, hm, if_true, hev, hP]
    rw [show (⟨⟨false, false⟩, now⟩ : DirEnv) = broadcast now from rfl, hrun, ok_bind,
      check_bind hroute]
    rfl
  · rw [Sys.settleDir_node]
    exact (Party.Of.dropDir hof hm j).takesDir (hroom j)
  · rw [((s.drop m).settleDir_rest _).1, Sys.hub_drop]
  · exact (s.sameOutside_drop m).trans ((s.drop m).settleDir_rest _).2

/-- A message waits. -/
theorem deliverDir_stall (hP : P.cfg = ⟨false, false⟩) (hev : m.event = (inp, some e))
    (hrun : doTransition (broadcast now) inp e s.dir = .ok ⟨l, [], false⟩) :
    step P s (now, .deliverDir m) = .ok s ∨
      step P s (now, .deliverDir m) = .ok { s with dir := l } := by
  by_cases hm : s.holds m
  · right
    simp only [step, hm, if_true, hev, hP]
    rw [show (⟨⟨false, false⟩, now⟩ : DirEnv) = broadcast now from rfl, hrun]
    rfl
  · left
    simp only [step, if_neg hm]
    rfl

/-- A transition of the directory keeps the invariant. -/
theorem Inv.of_dir {g' : Ghost ι L} {e : ℕ × Act ι L} {s' : Sys ι L} {a' : ι → Party ι L}
    {b : Hub ι L} (h : Inv g a s)
    (hs : step P s e = .ok s') (hof : ∀ j, (a' j).Of j (s'.node j)) (hhub : s'.hub = b)
    (hout : s.SameOutside s') (hcur : g'.cur = g.cur) (hw : g'.dmaWritten = g.dmaWritten)
    (hparty : ∀ j, PartyOK (Fintype.card ι) g' (s.memory = g.cur) j (a' j))
    (hdir : Global g' (fun j => (a' j).signal) b) : StepOK P g s e := by
  refine ⟨g', a', s', hs, ⟨hof, ?_, ?_, ?_⟩, ⟨[], ?_, .inl (.inl ⟨rfl, hcur⟩)⟩, ?_⟩
  · rw [hcur, hout.memory]
    exact hparty
  · rw [hhub]
    exact hdir
  · rw [hw]
    exact fun m hm => h.writes m (hout.dma m hm)
  · rw [hout.history, List.append_nil]
  · exact hw

end Steps

end Gem5Gpu.VIHammer
