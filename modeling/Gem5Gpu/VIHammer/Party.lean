import Gem5Gpu.Lib.Bag
import Gem5Gpu.VIHammer.Caches
import Mathlib.Algebra.BigOperators.Group.Multiset.Basic

/-!
# A cache with the messages that concern it

A `Party` is a cache as the protocol sees it: its view, and what is on its way to
it and from it.  All of its queues but one never hold more than one message, so
they are options here; the responses to its request are a multiset.  `Party.Of`
relates a party to a node of the system, and `Of.take` and `Of.takeDir` say that
the network keeps the relation.
-/

namespace Gem5Gpu.VIHammer

open Lib

variable {ι : Type} {L : ℕ} {m : Message ι L} {nd : Node ι L}

/-- A cache with the messages that concern it. -/
structure Party (ι : Type) (L : ℕ) where
  view : View ι L := {}
  move : Move := .settled
  /-- A request that the directory has not taken. -/
  request : Option (RequestMsg ι) := none
  /-- A `WB_ACK` or `WB_NACK` on its way to the cache. -/
  grant : Option CoherenceRequestType := none
  /-- A forwarded request on its way to the cache. -/
  probe : Option (RequestMsg ι) := none
  /-- The completion trigger. -/
  trigger : Option TriggerType := none
  responses : Multiset (ResponseMsg ι L) := 0
  unblock : Option (ResponseMsg ι L) := none
  /-- An answer on its way to the directory. -/
  answer : Option (ResponseMsg ι L) := none

/-- The message that grants or refuses a write-back. -/
def grantMsg (j : ι) (t : CoherenceRequestType) : RequestMsg ι :=
  { type := t, requestor := .cache j }

/-- The trigger of a block that moves between the caches of a CPU. -/
def Move.trigger : Move → Option TriggerType
  | .transfer => some .L2_to_L1
  | _ => none

/-- The node `nd` of the cache `j` is the party `p`. -/
structure Party.Of (j : ι) (p : Party ι L) (nd : Node ι L) : Prop where
  sees : nd.ctl.Sees p.view p.move
  trigger : nd.triggerQueue = bag p.trigger + bag p.move.trigger
  responses : nd.responseToCache = p.responses
  forward : nd.forwardToCache = bag p.probe + bag (p.grant.map (grantMsg j))
  request : nd.requestFromCache = bag p.request
  unblock : nd.unblockFromCache = bag p.unblock
  answer : nd.responseFromCache = bag p.answer

/-! ## What a message does to the nodes -/

variable [DecidableEq ι]

/-- What the node `j` gets of a message of the cache `i`. -/
def Node.take (i j : ι) (nd : Node ι L) : Send ι L → Node ι L
  | .request m =>
    if j = i then { nd with requestFromCache := m ::ₘ nd.requestFromCache } else nd
  | .response (.cache k) m =>
    if j = k then { nd with responseToCache := m ::ₘ nd.responseToCache } else nd
  | .response .directory m =>
    if j = i then { nd with responseFromCache := m ::ₘ nd.responseFromCache } else nd
  | .response .dma _ | .response .unset _ => nd
  | .multicast dest m =>
    if j ∈ dest then { nd with responseToCache := m ::ₘ nd.responseToCache } else nd
  | .unblock m =>
    if j = i then { nd with unblockFromCache := m ::ₘ nd.unblockFromCache } else nd
  | .trigger t => if j = i then { nd with triggerQueue := t ::ₘ nd.triggerQueue } else nd
  | .callback _ => nd

/-- What the node `j` gets of a message of the directory. -/
def Node.takeDir (j : ι) (nd : Node ι L) : Directory.DirSend ι L → Node ι L
  | .forward dest m =>
    if j ∈ dest then { nd with forwardToCache := m ::ₘ nd.forwardToCache } else nd
  | .response (.cache k) m =>
    if j = k then { nd with responseToCache := m ::ₘ nd.responseToCache } else nd
  | .response .directory _ | .response .dma _ | .response .unset _ => nd
  | .dmaResponse _ | .memory _ | .trigger _ => nd

namespace Sys

variable (s : Sys ι L) (i j : ι)

theorem modify_node (f : Node ι L → Node ι L) :
    (s.modify i f).node j = if j = i then f (s.node i) else s.node j := by
  by_cases h : j = i
  · subst h
    simp [modify]
  · simp [modify, h]

theorem send_node (m : Send ι L) : (s.send i m).node j = (s.node j).take i j m := by
  cases m with
  | request m | unblock m | trigger t =>
    rw [send, modify_node, Node.take]
    split <;> simp_all
  | multicast dest m | callback c => rfl
  | response dest m =>
    cases dest with
    | cache k | directory =>
      rw [send, modify_node, Node.take]
      split <;> simp_all
    | dma | unset => rfl

theorem sendDir_node (m : Directory.DirSend ι L) :
    (s.sendDir m).node j = (s.node j).takeDir j m := by
  cases m with
  | forward dest m | dmaResponse m | memory r | trigger t => rfl
  | response dest m =>
    cases dest with
    | cache k =>
      rw [sendDir, modify_node, Node.takeDir]
      split <;> simp_all
    | directory | dma | unset => rfl

/-- The nodes after a transition of the cache `i`. -/
theorem settle_node (o : Output ι L) : (s.settle i o).node j = o.sent.foldl (Node.take i j)
      (if j = i then { s.node i with ctl := o.ctl } else s.node j) := by
  have hfold (l : List (Send ι L)) (s : Sys ι L) :
      (l.foldl (send i) s).node j = l.foldl (Node.take i j) (s.node j) := by
    induction l generalizing s with
    | nil => rfl
    | cons m l ih => rw [List.foldl_cons, ih, send_node, List.foldl_cons]
  rw [settle, hfold, modify_node]

/-- The nodes after a transition of the directory. -/
theorem settleDir_node (c : Directory.DirCtx ι L) :
    (s.settleDir c).node j = c.sent.foldl (Node.takeDir j) (s.node j) := by
  have hfold (l : List (Directory.DirSend ι L)) (s : Sys ι L) :
      (l.foldl sendDir s).node j = l.foldl (Node.takeDir j) (s.node j) := by
    induction l generalizing s with
    | nil => rfl
    | cons m l ih => rw [List.foldl_cons, ih, sendDir_node, List.foldl_cons]
  exact hfold c.sent _

/-- The loads and stores among the messages of a cache. -/
def callbacks (l : List (Send ι L)) : List (Callback ι L) :=
  l.filterMap fun m => match m with | .callback c => some c | _ => none

/-- A transition of a cache does not concern the directory and the memory. -/
theorem settle_rest (o : Output ι L) : s.settle i o = { s with
      node := (s.settle i o).node, history := s.history ++ callbacks o.sent } := by
  have hfold (l : List (Send ι L)) (s : Sys ι L) : l.foldl (send i) s = { s with
        node := (l.foldl (send i) s).node, history := s.history ++ callbacks l } := by
    induction l generalizing s with
    | nil => simp [callbacks]
    | cons m l ih =>
      rw [List.foldl_cons, ih]
      cases m with
      | response dest m => cases dest <;> rfl
      | callback c => simp [send, callbacks]
      | _ => rfl
  exact hfold o.sent _

end Sys

/-! ## What a message does to the parties -/

/-- What the party `j` gets of a message of the cache `i`. -/
def Party.take (i j : ι) (p : Party ι L) : Send ι L → Party ι L
  | .request m => if j = i then { p with request := some m } else p
  | .response (.cache k) m =>
    if j = k then { p with responses := m ::ₘ p.responses } else p
  | .response .directory m => if j = i then { p with answer := some m } else p
  | .response .dma _ | .response .unset _ => p
  | .multicast dest m =>
    if j ∈ dest then { p with responses := m ::ₘ p.responses } else p
  | .unblock m => if j = i then { p with unblock := some m } else p
  | .trigger t => if j = i then { p with trigger := some t } else p
  | .callback _ => p

/-- There is room for a message of the cache itself. -/
def Party.Room (p : Party ι L) : Send ι L → Prop
  | .request _ => p.request = none
  | .response .directory _ => p.answer = none
  | .unblock _ => p.unblock = none
  | .trigger _ => p.trigger = none
  | .response .dma _ | .response .unset _ => False
  | _ => True

theorem Party.Of.take {i j : ι} {p : Party ι L} {m : Send ι L}
    (h : p.Of j nd) (hroom : j = i → p.Room m) : (p.take i j m).Of j (nd.take i j m) := by
  obtain ⟨hs, ht, hr, hf, hq, hu, ha⟩ := id h
  cases m with
  | callback c => exact h
  | multicast dest m =>
    by_cases hj : j ∈ dest
    · simp only [Party.take, Node.take, if_pos hj]
      exact ⟨hs, ht, congrArg _ hr, hf, hq, hu, ha⟩
    · simp only [Party.take, Node.take, if_neg hj]
      exact h
  | request m =>
    by_cases hj : j = i
    · simp only [Party.take, Node.take, if_pos hj]
      refine ⟨hs, ht, hr, hf, ?_, hu, ha⟩
      rw [hq, show p.request = none from hroom hj]
      rfl
    · simp only [Party.take, Node.take, if_neg hj]
      exact h
  | unblock m =>
    by_cases hj : j = i
    · simp only [Party.take, Node.take, if_pos hj]
      refine ⟨hs, ht, hr, hf, hq, ?_, ha⟩
      rw [hu, show p.unblock = none from hroom hj]
      rfl
    · simp only [Party.take, Node.take, if_neg hj]
      exact h
  | trigger t =>
    by_cases hj : j = i
    · simp only [Party.take, Node.take, if_pos hj]
      refine ⟨hs, ?_, hr, hf, hq, hu, ha⟩
      rw [ht, show p.trigger = none from hroom hj]
      simp
    · simp only [Party.take, Node.take, if_neg hj]
      exact h
  | response dest m =>
    cases dest with
    | dma | unset => exact h
    | cache k =>
      by_cases hj : j = k
      · simp only [Party.take, Node.take, if_pos hj]
        exact ⟨hs, ht, congrArg _ hr, hf, hq, hu, ha⟩
      · simp only [Party.take, Node.take, if_neg hj]
        exact h
    | directory =>
      by_cases hj : j = i
      · simp only [Party.take, Node.take, if_pos hj]
        refine ⟨hs, ht, hr, hf, hq, hu, ?_⟩
        rw [ha, show p.answer = none from hroom hj]
        rfl
      · simp only [Party.take, Node.take, if_neg hj]
        exact h

/-- There is room for all messages of a transition. -/
def Party.Rooms (i : ι) : Party ι L → List (Send ι L) → Prop
  | _, [] => True
  | p, m :: l => p.Room m ∧ Party.Rooms i (p.take i i m) l

theorem Party.Rooms.routed {i : ι} {p : Party ι L} {l : List (Send ι L)} (h : p.Rooms i l) :
    l.all Send.routed = true := by
  induction l generalizing p with
  | nil => rfl
  | cons m l ih =>
    rw [List.all_cons, ih h.2, Bool.and_true]
    have hroom := h.1
    cases m with
    | response dest m => cases dest <;> first | rfl | exact hroom.elim
    | _ => rfl

theorem Party.Of.takes {i j : ι} {p : Party ι L} {l : List (Send ι L)}
    (h : p.Of j nd) (hroom : j = i → p.Rooms i l) :
    (l.foldl (Party.take i j) p).Of j (l.foldl (Node.take i j) nd) := by
  induction l generalizing p nd with
  | nil => exact h
  | cons m l ih =>
    refine ih (h.take fun hj => (hroom hj).1) ?_
    intro hj
    have hrest := (hroom hj).2
    rwa [hj]

/-- The parties after a transition of the cache `i`, which becomes `p` and sends
`l`. -/
def after (a : ι → Party ι L) (i : ι) (p : Party ι L) (l : List (Send ι L)) (j : ι) :
    Party ι L :=
  l.foldl (Party.take i j) (if j = i then p else a j)

/-- A message leaves the queue of a party. -/
def Party.drop (p : Party ι L) : Message ι L → Party ι L
  | .trigger _ => { p with trigger := none }
  | .response r => { p with responses := p.responses.erase r }
  | .forward m =>
    if p.probe = some m then { p with probe := none } else { p with grant := none }

/-- A message that a node holds is one of those of its party. -/
theorem Party.Of.mem {j : ι} {p : Party ι L} (h : p.Of j nd) (hm : nd.holds m) :
    match m with
    | .trigger t => p.trigger = some t ∨ t = .L2_to_L1 ∧ p.move = .transfer
    | .response r => r ∈ p.responses
    | .forward m => p.probe = some m ∨ ∃ t, p.grant = some t ∧ m = grantMsg j t := by
  cases m with
  | trigger t =>
    rw [Node.holds, decide_eq_true_iff, h.trigger, Multiset.mem_add, mem_bag, mem_bag] at hm
    refine hm.imp_right fun ht => ?_
    cases hk : p.move <;> rw [hk] at ht <;> cases ht
    exact ⟨rfl, rfl⟩
  | response r =>
    rw [Node.holds, decide_eq_true_iff, h.responses] at hm
    exact hm
  | forward m =>
    rw [Node.holds, decide_eq_true_iff, h.forward, Multiset.mem_add, mem_bag, mem_bag] at hm
    refine hm.imp_right fun ht => ?_
    obtain ⟨t, hg, rfl⟩ := Option.map_eq_some_iff.1 ht
    exact ⟨t, hg, rfl⟩

/-- A cache that takes a message and changes its view. -/
theorem Party.Of.receive {j : ι} {p : Party ι L} {c : Ctl ι L} {v : View ι L} (h : p.Of j nd)
    (hm : nd.holds m) (hk : p.move = .settled) (hs : c.Sees v .settled) :
    { p.drop m with view := v }.Of j { nd.drop m with ctl := c } := by
  have hmem := h.mem hm
  obtain ⟨view, move, request, grant, probe, trigger, responses, unblock, answer⟩ := p
  obtain ⟨-, ht, hr, hf, hq, hu, ha⟩ := h
  subst hk
  cases m with
  | trigger t =>
    have htrigger : trigger = some t := by
      rcases hmem with ht | ⟨-, hk⟩
      · exact ht
      · cases hk
    subst htrigger
    refine ⟨hs, ?_, hr, hf, hq, hu, ha⟩
    show nd.triggerQueue.erase t = _
    rw [ht]
    simp [Party.drop]
  | response r => exact ⟨hs, ht, congrArg (·.erase r) hr, hf, hq, hu, ha⟩
  | forward q =>
    by_cases hp : probe = some q
    · subst hp
      simp only [Party.drop, if_pos]
      refine ⟨hs, ht, hr, ?_, hq, hu, ha⟩
      show nd.forwardToCache.erase q = _
      rw [hf]
      simp
    · obtain ⟨t, rfl, rfl⟩ := hmem.resolve_left hp
      simp only [Party.drop, if_neg hp]
      refine ⟨hs, ht, hr, ?_, hq, hu, ha⟩
      show nd.forwardToCache.erase (grantMsg j t) = _
      rw [hf]
      simp

section Steps

variable [Fintype ι] {P : Params} {s : Sys ι L} {a : ι → Party ι L} {i : ι} (now : ℕ)

/-- The state after a transition of a cache. -/
def Sys.moved (s : Sys ι L) (node : ι → Node ι L) (l : List (Send ι L)) : Sys ι L :=
  { s with node := node, history := s.history ++ Sys.callbacks l }

/-- A message that the view expects is taken, or waits. -/
theorem deliver_spec (hof : ∀ j, (a j).Of j (s.node j)) (hn : 1 < Fintype.card ι)
    (hm : (s.node i).holds m) (hv : (a i).view.Expects (P.env now i) m) :
    step P s (now, .deliver i m) = .ok s ∨
    ∃ v' sent, Reacts (P.env now i) (a i).view m v' sent ∧ (a i).move = .settled ∧
      ({ (a i).drop m with view := v' }.Rooms i sent →
        ∃ node, step P s (now, .deliver i m) = .ok (s.moved node sent) ∧
          ∀ j, (after a i { (a i).drop m with view := v' } sent j).Of j (node j)) := by
  simp only [step, hm, if_true]
  rcases Ctl.receive_spec (P.env now i) (hof i).sees hn hv with
    ⟨c, v', sent, hrun, hs, hk, hr⟩ | hrun
  · refine .inr ⟨v', sent, hr, hk, fun hroom => ?_⟩
    rw [hrun, ok_bind, check_bind hroom.routed]
    refine ⟨_, congrArg Except.ok (Sys.settle_rest _ _ _), fun j => ?_⟩
    rw [Sys.settle_node]
    refine Party.Of.takes ?_ ?_
    · by_cases hj : j = i
      · subst hj
        rw [if_pos rfl, if_pos rfl, if_pos rfl, Sys.modify_node, if_pos rfl]
        exact (hof j).receive hm hk hs
      · rw [if_neg hj, if_neg hj, if_pos rfl, Sys.modify_node, if_neg hj]
        exact hof j
    · intro hj
      rwa [if_pos hj]
  · left
    rw [hrun]
    show Except.ok (s.modify i fun nd => { nd with ctl := (s.node i).ctl }) = _
    simp [Sys.modify]

/-- A block has arrived in an L1 cache. -/
theorem transfer_spec (hof : ∀ j, (a j).Of j (s.node j)) (hk : (a i).move = .transfer)
    (ht : (a i).trigger = none) :
    ∃ node, step P s (now, .deliver i (.trigger .L2_to_L1)) = .ok (s.moved node []) ∧
      ∀ j, (after a i { a i with move := .ready } [] j).Of j (node j) := by
  have hqueue : (s.node i).triggerQueue = {.L2_to_L1} := by
    rw [(hof i).trigger, hk, ht]
    simp [Move.trigger]
  have hm : (s.node i).holds (.trigger .L2_to_L1) = true := by
    rw [Node.holds, hqueue]
    simp
  obtain ⟨c, hrun, hs⟩ := Ctl.receive_transfer (P.env now i) (hk ▸ (hof i).sees)
  simp only [step, hm, if_true]
  rw [hrun]
  refine ⟨_, congrArg Except.ok (Sys.settle_rest _ _ _), fun j => ?_⟩
  rw [Sys.settle_node]
  by_cases hj : j = i
  · subst hj
    obtain ⟨-, -, hr, hf, hq, hu, ha⟩ := hof j
    simp only [after, List.foldl_nil, if_true, Sys.modify_node]
    refine ⟨hs, ?_, hr, hf, hq, hu, ha⟩
    show (s.node j).triggerQueue.erase .L2_to_L1 = _
    rw [hqueue, ht]
    simp [Move.trigger]
  · simp only [after, List.foldl_nil, if_neg hj, if_true, Sys.modify_node]
    exact hof j

/-- A request from the processor side is taken: the block starts to move, or its
view changes. -/
theorem demand_spec (d : Demand L) (hof : ∀ j, (a j).Of j (s.node j)) :
    (∃ node, step P s (now, .demand i d) = .ok (s.moved node []) ∧
      ∀ j, (after a i { a i with move := .transfer } [] j).Of j (node j)) ∨
    ∃ v' k' sent, Serves (P.env now i) (a i).view v' sent ∧ k'.trigger = (a i).move.trigger ∧
      ({ a i with view := v', move := k' }.Rooms i sent →
        ∃ node, step P s (now, .demand i d) = .ok (s.moved node sent) ∧
          ∀ j, (after a i { a i with view := v', move := k' } sent j).Of j (node j)) := by
  obtain ⟨c, v', k', sent, b, hrun, hs, hcase⟩ :=
    Ctl.serve_spec (P.env now i) d (hof i).sees
  simp only [step, hrun]
  obtain ⟨-, ht, hr, hf, hq, hu, ha⟩ := hof i
  rcases hcase with ⟨hk, rfl, rfl, rfl⟩ | ⟨hk, hserves⟩
  · refine .inl ⟨_, congrArg Except.ok (Sys.settle_rest _ _ _), fun j => ?_⟩
    rw [Sys.settle_node]
    by_cases hj : j = i
    · subst hj
      simp only [after, List.foldl_nil, List.foldl_cons, if_true, Node.take]
      refine ⟨hs, ?_, hr, hf, hq, hu, ha⟩
      show .L2_to_L1 ::ₘ (s.node j).triggerQueue = _
      rw [ht, hk]
      simp [Move.trigger, Multiset.add_comm, Multiset.singleton_add]
    · simp only [after, List.foldl_nil, List.foldl_cons, if_neg hj, Node.take]
      exact hof j
  · have htrigger : k'.trigger = (a i).move.trigger := by
      cases hk' : k' <;> cases hk0 : (a i).move <;> simp_all [Move.trigger]
    refine .inr ⟨v', k', sent, hserves, htrigger, fun hroom => ?_⟩
    rw [ok_bind, check_bind hroom.routed]
    refine ⟨_, congrArg Except.ok (Sys.settle_rest _ _ _), fun j => ?_⟩
    rw [Sys.settle_node]
    refine Party.Of.takes ?_ ?_
    · by_cases hj : j = i
      · subst hj
        rw [if_pos rfl, if_pos rfl]
        exact ⟨hs, by rw [ht, htrigger], hr, hf, hq, hu, ha⟩
      · rw [if_neg hj, if_neg hj]
        exact hof j
    · intro hj
      rwa [if_pos hj]

end Steps

end Gem5Gpu.VIHammer
