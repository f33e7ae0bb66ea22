import Gem5Gpu.Lib.Machine
import Gem5Gpu.Ruby.Slicc

/-!
# Stalled messages of a Ruby controller

`stall_and_wait` takes the message at the head of an input port off its heap and
keeps it in a list of the message buffer, under an address.  The controller keeps
a record of the ports with such messages for each address, `m_waiting_buffers`.
`wakeUpBuffers` puts the messages of an address back on the heaps of the ports
that are ranked below the port it is called from, and then forgets the record of
all ports.  `wakeUpAllBuffers` does so for all addresses and ports.

The controller here runs any transition table.  A message at the head of a port
may give any event of that port at any address, so the choice that the code of
an `in_port` makes from the tags and the victims of a cache is left open.

`Disciplined` is the property of a table that keeps a stalled message from being
forgotten.  The invariant it carries has two halves: `Recorded`, the record names
the port of every stalled message, and `Parked`, a message is stalled only under an
address whose block is in a transient state.
-/

namespace Gem5Gpu.Ruby

open Lib Function

/-- What an action does to the input ports. -/
inductive PortOp
  | keep
  | dequeue
  /-- `stall_and_wait` -/
  | stall
  /-- `wakeUpBuffers(address)` -/
  | wakeUp
  /-- `wakeUpAllBuffers()` -/
  | wakeUpAll
  deriving DecidableEq

/-- A machine, as its controller sees it. -/
structure Machine (S E A : Type) where
  transitions : List (Transition S E A)
  /-- The rank of the port that gives an event. -/
  rank : E → ℕ
  op : A → PortOp
  /-- The stable states of the protocol. -/
  stable : S → Bool
  start : S

structure MessageBuffer (Addr Msg : Type) where
  /-- `m_prio_heap`, in the order in which the messages come up -/
  prioHeap : List Msg
  /-- `m_stall_msg_map`: each stalled message with its address -/
  stallMsgMap : List (Addr × Msg)

inductive StallFault
  /-- The port has no message, or the event is not one of this port. -/
  | notReady
  | invalidTransition
  /-- The assertion of `reanalyzeMessages`. -/
  | nothingStalled
  deriving DecidableEq

variable {S E A Addr Msg : Type} [DecidableEq Addr] {o : PortOp}

namespace MessageBuffer

def enqueue (b : MessageBuffer Addr Msg) (m : Msg) : MessageBuffer Addr Msg :=
  { b with prioHeap := b.prioHeap ++ [m] }

def dequeue (b : MessageBuffer Addr Msg) : MessageBuffer Addr Msg :=
  { b with prioHeap := b.prioHeap.tail }

/-- The heap with the message at position `i` at its head. -/
def bringUp (b : MessageBuffer Addr Msg) (i : ℕ) (m : Msg) : MessageBuffer Addr Msg :=
  { b with prioHeap := m :: b.prioHeap.eraseIdx i }

/-- `stallMessage`: the message at the head goes to the list of `a`. -/
def stallMessage (b : MessageBuffer Addr Msg) (a : Addr) : MessageBuffer Addr Msg where
  prioHeap := b.prioHeap.tail
  stallMsgMap := b.stallMsgMap ++ (b.prioHeap.head?.map (a, ·)).toList

/-- The messages stalled under an address. -/
def stalled (b : MessageBuffer Addr Msg) (a : Addr) : List Msg :=
  (b.stallMsgMap.filter (·.1 = a)).map (·.2)

/-- `reanalyzeMessages`: the messages of `a` go back on the heap. -/
def reanalyzeMessages (b : MessageBuffer Addr Msg) (a : Addr) :
    Except StallFault (MessageBuffer Addr Msg) := do
  check (b.stalled a ≠ []) .nothingStalled
  pure { prioHeap := b.prioHeap ++ b.stalled a
         stallMsgMap := b.stallMsgMap.filter (·.1 ≠ a) }

def reanalyzeAllMessages (b : MessageBuffer Addr Msg) : MessageBuffer Addr Msg where
  prioHeap := b.prioHeap ++ b.stallMsgMap.map (·.2)
  stallMsgMap := []

end MessageBuffer

/-- A controller: the state of each block, the message buffer of each port, by
rank, and `m_waiting_buffers` as the pairs of an address and a rank. -/
structure Controller (S Addr Msg : Type) where
  state : Addr → S
  buffers : ℕ → MessageBuffer Addr Msg
  waitingBuffers : List (Addr × ℕ)

namespace Controller

variable (c : Controller S Addr Msg)

def setBuffer (p : ℕ) (b : MessageBuffer Addr Msg) : Controller S Addr Msg :=
  { c with buffers := update c.buffers p b }

/-- `stallBuffer` and `stallMessage`, called for the port of rank `p`. -/
def stall (p : ℕ) (a : Addr) : Controller S Addr Msg :=
  { c.setBuffer p ((c.buffers p).stallMessage a) with
    waitingBuffers := (a, p) :: c.waitingBuffers }

/-- The loop of `wakeUpBuffers`, over the ranks below `p`. -/
def wakeUpBelow (a : Addr) : ℕ → (ℕ → MessageBuffer Addr Msg) →
    Except StallFault (ℕ → MessageBuffer Addr Msg)
  | 0, bs => pure bs
  | r + 1, bs => do
    if (a, r) ∈ c.waitingBuffers then
      let b ← (bs r).reanalyzeMessages a
      wakeUpBelow a r (update bs r b)
    else
      wakeUpBelow a r bs

/-- `wakeUpBuffers`, called from the port of rank `p`. -/
def wakeUpBuffers (p : ℕ) (a : Addr) : Except StallFault (Controller S Addr Msg) := do
  let bs ← c.wakeUpBelow a p c.buffers
  pure { c with
         buffers := bs
         waitingBuffers := c.waitingBuffers.filter (·.1 ≠ a) }

def wakeUpAllBuffers : Controller S Addr Msg :=
  { c with
    buffers := fun r =>
      if r ∈ c.waitingBuffers.map (·.2) then (c.buffers r).reanalyzeAllMessages
      else c.buffers r
    waitingBuffers := [] }

/-- One action of a transition at `a`, triggered from the port of rank `p`. -/
def runOp (p : ℕ) (a : Addr) : PortOp → Except StallFault (Controller S Addr Msg)
  | .keep => pure c
  | .dequeue => pure (c.setBuffer p (c.buffers p).dequeue)
  | .stall => pure (c.stall p a)
  | .wakeUp => c.wakeUpBuffers p a
  | .wakeUpAll => pure c.wakeUpAllBuffers

def runOps (p : ℕ) (a : Addr) : List PortOp → Controller S Addr Msg →
    Except StallFault (Controller S Addr Msg)
  | [], c => pure c
  | o :: os, c => do
    let c ← c.runOp p a o
    runOps p a os c

end Controller

/-- What happens at a controller. -/
inductive PortEvent (E Addr Msg : Type)
  /-- A message arrives at a port. -/
  | enqueue (p : ℕ) (m : Msg)
  /-- The message at position `i` comes to the head of the port of `e`, and gives
  `e` at `a`. -/
  | trigger (e : E) (i : ℕ) (a : Addr)

section Tables

variable [DecidableEq S] [DecidableEq E]

/-- `doTransition`, with the ports that it reads and the ports that it wakes. -/
def Machine.trigger (M : Machine S E A) (c : Controller S Addr Msg) (e : E) (i : ℕ)
    (a : Addr) : Except StallFault (Controller S Addr Msg) := do
  let some m := (c.buffers (M.rank e)).prioHeap[i]? | throw .notReady
  let some t := Transition.lookup M.transitions (c.state a) e | throw .invalidTransition
  let c ← Controller.runOps (M.rank e) a (t.actions.map M.op)
    (c.setBuffer (M.rank e) ((c.buffers (M.rank e)).bringUp i m))
  pure { c with state := update c.state a (t.target (c.state a)) }

def Machine.step (M : Machine S E A) (c : Controller S Addr Msg) :
    PortEvent E Addr Msg → Except StallFault (Controller S Addr Msg)
  | .enqueue p m => pure (c.setBuffer p ((c.buffers p).enqueue m))
  | .trigger e i a => M.trigger c e i a

def Machine.init (M : Machine S E A) : Controller S Addr Msg where
  state := fun _ => M.start
  buffers := fun _ => ⟨[], []⟩
  waitingBuffers := []

/-- The states of all runs of a controller. -/
def Machine.Reaches (M : Machine S E A) (c : Controller S Addr Msg) : Prop :=
  Reach M.step (fun _ _ => True) M.init c

/-! ## Tables that keep their stalled messages -/

/-- What a transition for `e` in `s` has to keep to, when the ports of rank at
most `k` are the ones that stall.  A transition that stalls leaves the block in
a transient state and wakes nothing.  One that settles the block wakes the ports
that wait for it.  `wakeUpBuffers` is called from a port above the ones that
stall, and `wakeUpAllBuffers` is the last action. -/
structure Machine.Keeps (M : Machine S E A) (k : ℕ) (t : Transition S E A) (s : S)
    (e : E) : Prop where
  stall : .stall ∈ t.actions.map M.op →
    M.rank e ≤ k ∧ M.stable (t.target s) = false ∧ .wakeUp ∉ t.actions.map M.op ∧
      .wakeUpAll ∉ t.actions.map M.op
  wakeUp : .wakeUp ∈ t.actions.map M.op → k < M.rank e
  wakeUpAll : .wakeUpAll ∉ (t.actions.map M.op).dropLast
  settle : M.stable s = false → M.stable (t.target s) = true →
    .wakeUp ∈ t.actions.map M.op ∨ .wakeUpAll ∈ t.actions.map M.op

instance (M : Machine S E A) (k : ℕ) (t : Transition S E A) (s : S) (e : E) :
    Decidable (M.Keeps k t s e) :=
  decidable_of_iff ((.stall ∈ t.actions.map M.op → M.rank e ≤ k ∧ M.stable (t.target s) = false ∧
          .wakeUp ∉ t.actions.map M.op ∧ .wakeUpAll ∉ t.actions.map M.op) ∧
      (.wakeUp ∈ t.actions.map M.op → k < M.rank e) ∧
      .wakeUpAll ∉ (t.actions.map M.op).dropLast ∧
      (M.stable s = false → M.stable (t.target s) = true →
        .wakeUp ∈ t.actions.map M.op ∨ .wakeUpAll ∈ t.actions.map M.op))
    ⟨fun h => ⟨h.1, h.2.1, h.2.2.1, h.2.2.2⟩, fun h => ⟨h.stall, h.wakeUp, h.wakeUpAll, h.settle⟩⟩

def Machine.Disciplined (M : Machine S E A) (k : ℕ) : Prop :=
  ∀ t ∈ M.transitions, ∀ s ∈ t.states, ∀ e ∈ t.events, M.Keeps k t s e

instance (M : Machine S E A) (k : ℕ) : Decidable (M.Disciplined k) :=
  inferInstanceAs (Decidable (∀ t ∈ M.transitions, ∀ s ∈ t.states, ∀ e ∈ t.events, M.Keeps k t s e))

end Tables

/-! ## What the operations do to the stalled messages -/

namespace MessageBuffer

variable {b b' : MessageBuffer Addr Msg} {a a' : Addr} {m : Msg}

theorem mem_stalled : m ∈ b.stalled a ↔ (a, m) ∈ b.stallMsgMap := by
  simp [stalled]

theorem mem_reanalyzeAllMessages (h : m ∈ b.stalled a) : m ∈ b.reanalyzeAllMessages.prioHeap := by
  rw [mem_stalled] at h
  exact List.mem_append_right _ (List.mem_map_of_mem h)

theorem stalled_stallMessage_of_ne (h : a' ≠ a) : (b.stallMessage a).stalled a' = b.stalled a' := by
  cases hm : b.prioHeap.head? with
  | none => simp [stallMessage, stalled, hm]
  | some m => simp [stallMessage, stalled, hm, Ne.symm h]

theorem stalled_subset_stallMessage (a : Addr) : b.stalled a' ⊆ (b.stallMessage a).stalled a' := by
  intro m hm
  rw [mem_stalled] at hm ⊢
  exact List.mem_append_left _ hm

theorem reanalyzeMessages_ok (h : b.reanalyzeMessages a = .ok b') :
    b' = { prioHeap := b.prioHeap ++ b.stalled a
           stallMsgMap := b.stallMsgMap.filter (·.1 ≠ a) } := by
  obtain ⟨-, -, h⟩ := bind_eq_ok h
  cases h
  rfl

theorem reanalyzeMessages_stalled (h : b.reanalyzeMessages a = .ok b') :
    b'.stalled a' = if a' = a then [] else b.stalled a' := by
  rw [reanalyzeMessages_ok h]
  simp only [stalled, List.filter_filter]
  by_cases ha : a' = a
  · subst ha
    simp
  · rw [if_neg ha]
    congr 2
    funext x
    simp only [decide_eq_true_eq, ne_eq, Bool.and_eq_left_iff_imp, decide_not,
      Bool.not_eq_eq_eq_not, Bool.not_true, decide_eq_false_iff_not]
    rintro rfl
    exact ha

end MessageBuffer

namespace Controller

variable {c c' : Controller S Addr Msg} {p k r : ℕ} {a a' : Addr} {x : Msg}

/-- The record names the port of every stalled message. -/
def Recorded (k : ℕ) (c : Controller S Addr Msg) : Prop :=
  ∀ r a, (c.buffers r).stalled a ≠ [] → (a, r) ∈ c.waitingBuffers ∧ r ≤ k

omit [DecidableEq Addr] in
@[simp] theorem setBuffer_self (b : MessageBuffer Addr Msg) :
    (c.setBuffer p b).buffers p = b := update_self ..

omit [DecidableEq Addr] in
theorem setBuffer_of_ne (b : MessageBuffer Addr Msg) (h : r ≠ p) :
    (c.setBuffer p b).buffers r = c.buffers r := update_of_ne h ..

/-- A buffer that keeps its stalled messages changes none of them. -/
theorem setBuffer_stalled {b : MessageBuffer Addr Msg}
    (h : ∀ a, b.stalled a = (c.buffers p).stalled a) (r : ℕ) (a : Addr) :
    ((c.setBuffer p b).buffers r).stalled a = (c.buffers r).stalled a := by
  by_cases hr : r = p
  · subst hr
    rw [setBuffer_self, h]
  · rw [setBuffer_of_ne b hr]

theorem enqueue_stalled (c : Controller S Addr Msg) (p : ℕ) (m : Msg) (r : ℕ) (a : Addr) :
    ((c.setBuffer p ((c.buffers p).enqueue m)).buffers r).stalled a = (c.buffers r).stalled a :=
  setBuffer_stalled (b := (c.buffers p).enqueue m) (fun _ => rfl) r a

theorem bringUp_stalled (c : Controller S Addr Msg) (p i : ℕ) (m : Msg) (r : ℕ) (a : Addr) :
    ((c.setBuffer p ((c.buffers p).bringUp i m)).buffers r).stalled a = (c.buffers r).stalled a :=
  setBuffer_stalled (b := (c.buffers p).bringUp i m) (fun _ => rfl) r a

theorem dequeue_stalled (r : ℕ) (a : Addr) :
    ((c.setBuffer p (c.buffers p).dequeue).buffers r).stalled a = (c.buffers r).stalled a :=
  setBuffer_stalled (b := (c.buffers p).dequeue) (fun _ => rfl) r a

/-- The loop of `wakeUpBuffers` empties the lists of `a` below `p` that the
record names, and touches nothing else. -/
theorem wakeUpBelow_ok {bs bs' : ℕ → MessageBuffer Addr Msg}
    (h : c.wakeUpBelow a p bs = .ok bs') (r : ℕ) :
    (∀ a', (bs' r).stalled a' =
      if a' = a ∧ r < p ∧ (a, r) ∈ c.waitingBuffers then [] else (bs r).stalled a') ∧
    (∀ x ∈ (bs r).prioHeap, x ∈ (bs' r).prioHeap) ∧
    (∀ x ∈ (bs r).stalled a, x ∈ (bs' r).stalled a ∨ x ∈ (bs' r).prioHeap ∧ r < p) := by
  -- one rank at a time, from the top
  induction p generalizing bs with
  | zero =>
    cases h
    simp +contextual
  | succ q ih =>
    rw [wakeUpBelow] at h
    split at h
    · next hq =>
      obtain ⟨b, hb, h⟩ := bind_eq_ok h
      obtain ⟨hst, hheap, hx⟩ := ih h
      by_cases hr : r = q
      · subst hr
        have hb' := MessageBuffer.reanalyzeMessages_ok hb
        simp only [update_self] at hst hheap hx
        refine ⟨fun a' => ?_, fun x hx => hheap x ?_, fun x hx => .inr ⟨hheap x ?_, by omega⟩⟩
        · rw [hst, MessageBuffer.reanalyzeMessages_stalled hb]
          by_cases ha : a' = a
          · simp [ha, hq]
          · simp [ha]
        · rw [hb']
          exact List.mem_append_left _ hx
        · rw [hb']
          exact List.mem_append_right _ hx
      · simp only [update_of_ne hr] at hst hheap hx
        refine ⟨fun a' => ?_, hheap, fun x hx' => (hx x hx').imp_right fun h => ⟨h.1, by omega⟩⟩
        have hlt : r < q ↔ r < q + 1 := by omega
        simp only [hst, hlt]
    · next hq =>
      obtain ⟨hst, hheap, hx⟩ := ih h
      refine ⟨fun a' => ?_, hheap, fun x hx' => (hx x hx').imp_right fun h => ⟨h.1, by omega⟩⟩
      rw [hst]
      by_cases hr : r = q
      · subst hr
        simp [hq]
      · have hlt : r < q ↔ r < q + 1 := by omega
        simp only [hlt]

theorem wakeUpBuffers_ok (h : c.wakeUpBuffers p a = .ok c') :
    ∃ bs, c.wakeUpBelow a p c.buffers = .ok bs ∧
      c' = { c with buffers := bs
                    waitingBuffers := c.waitingBuffers.filter (·.1 ≠ a) } := by
  obtain ⟨bs, hbs, h⟩ := bind_eq_ok h
  cases h
  exact ⟨bs, hbs, rfl⟩

/-- From above the ports that stall, `wakeUpBuffers` empties the lists of its
address and leaves the others alone. -/
theorem wakeUpBuffers_stalled (hc : c.Recorded k) (hp : k < p)
    (h : c.wakeUpBuffers p a = .ok c') (r : ℕ) (a' : Addr) :
    (c'.buffers r).stalled a' = if a' = a then [] else (c.buffers r).stalled a' := by
  obtain ⟨bs, hbs, rfl⟩ := wakeUpBuffers_ok h
  show (bs r).stalled a' = _
  rw [(wakeUpBelow_ok hbs r).1]
  by_cases ha : a' = a
  · subst ha
    rw [if_pos rfl]
    by_cases hnil : (c.buffers r).stalled a' = []
    · rw [hnil, ite_self]
    · obtain ⟨hmem, hr⟩ := hc r a' hnil
      rw [if_pos ⟨rfl, by omega, hmem⟩]
  · rw [if_neg ha, if_neg fun h => ha h.1]

theorem wakeUpAllBuffers_stalled (hc : c.Recorded k) (r : ℕ) (a : Addr) :
    (c.wakeUpAllBuffers.buffers r).stalled a = [] := by
  show (if _ then _ else _ : MessageBuffer Addr Msg).stalled a = []
  split
  · rfl
  · next hr =>
    by_contra hnil
    exact hr (List.mem_map.2 ⟨_, (hc r a hnil).1, rfl⟩)

/-- What one action needs of its port. -/
structure Allowed (k p : ℕ) (o : PortOp) : Prop where
  stall : o = .stall → p ≤ k
  wakeUp : o = .wakeUp → k < p

theorem runOp_state (h : c.runOp p a o = .ok c') : c'.state = c.state := by
  cases o with
  | wakeUp =>
    obtain ⟨bs, -, rfl⟩ := wakeUpBuffers_ok h
    rfl
  | _ =>
    cases h
    rfl

section

variable (hc : c.Recorded k) (ho : Allowed k p o) (h : c.runOp p a o = .ok c')
include hc ho h

theorem runOp_recorded : c'.Recorded k := by
  intro r a' hne
  cases o with
  | keep =>
    cases h
    exact hc r a' hne
  | dequeue =>
    cases h
    rw [dequeue_stalled] at hne
    exact hc r a' hne
  | stall =>
    cases h
    by_cases ha : a' = a ∧ r = p
    · obtain ⟨rfl, rfl⟩ := ha
      exact ⟨List.mem_cons_self, ho.stall rfl⟩
    · have hsame : ((c.setBuffer p ((c.buffers p).stallMessage a)).buffers r).stalled a' =
          (c.buffers r).stalled a' := by
        by_cases hr : r = p
        · subst hr
          rw [setBuffer_self]
          exact MessageBuffer.stalled_stallMessage_of_ne fun h => ha ⟨h, rfl⟩
        · rw [setBuffer_of_ne _ hr]
      obtain ⟨hmem, hr⟩ := hc r a' (hsame ▸ hne)
      exact ⟨List.mem_cons_of_mem _ hmem, hr⟩
  | wakeUp =>
    rw [wakeUpBuffers_stalled hc (ho.wakeUp rfl) h] at hne
    obtain ⟨bs, -, rfl⟩ := wakeUpBuffers_ok h
    split at hne
    · exact absurd rfl hne
    · next ha =>
      obtain ⟨hmem, hr⟩ := hc r a' hne
      exact ⟨List.mem_filter.2 ⟨hmem, by simpa using ha⟩, hr⟩
  | wakeUpAll =>
    cases h
    exact absurd (wakeUpAllBuffers_stalled hc r a') hne

/-- Only a stall adds to the stalled messages, and only to those of its own
address. -/
theorem runOp_stalled (hstall : o = .stall → a' ≠ a)
    (hnil : (c.buffers r).stalled a' = []) : (c'.buffers r).stalled a' = [] := by
  cases o with
  | keep =>
    cases h
    exact hnil
  | dequeue =>
    cases h
    rwa [dequeue_stalled]
  | stall =>
    cases h
    show ((c.setBuffer p _).buffers r).stalled a' = []
    by_cases hr : r = p
    · subst hr
      rw [setBuffer_self, MessageBuffer.stalled_stallMessage_of_ne (hstall rfl), hnil]
    · rwa [setBuffer_of_ne _ hr]
  | wakeUp =>
    rw [wakeUpBuffers_stalled hc (ho.wakeUp rfl) h, hnil, ite_self]
  | wakeUpAll =>
    cases h
    exact wakeUpAllBuffers_stalled hc r a'

/-- A wake-up leaves nothing stalled under its address. -/
theorem runOp_wakes (hwake : o = .wakeUp ∨ o = .wakeUpAll) (r : ℕ) :
    (c'.buffers r).stalled a = [] := by
  rcases hwake with rfl | rfl
  · rw [wakeUpBuffers_stalled hc (ho.wakeUp rfl) h, if_pos rfl]
  · cases h
    exact wakeUpAllBuffers_stalled hc r a

/-- A stalled message stays stalled or is back on the heap of its port. -/
theorem runOp_keeps (hx : x ∈ (c.buffers r).stalled a') :
    x ∈ (c'.buffers r).stalled a' ∨ x ∈ (c'.buffers r).prioHeap ∧ (o = .wakeUpAll ∨ r ≠ p) := by
  cases o with
  | keep =>
    cases h
    exact .inl hx
  | dequeue =>
    cases h
    exact .inl (by rwa [dequeue_stalled])
  | stall =>
    cases h
    refine .inl ?_
    show x ∈ ((c.setBuffer p _).buffers r).stalled a'
    by_cases hr : r = p
    · subst hr
      rw [setBuffer_self]
      exact MessageBuffer.stalled_subset_stallMessage a hx
    · rwa [setBuffer_of_ne _ hr]
  | wakeUp =>
    have hst := wakeUpBuffers_stalled hc (ho.wakeUp rfl) h r a'
    obtain ⟨bs, hbs, rfl⟩ := wakeUpBuffers_ok h
    by_cases ha : a' = a
    · subst ha
      rcases (wakeUpBelow_ok hbs r).2.2 x hx with hx | ⟨hx, hr⟩
      · exact .inl hx
      · exact .inr ⟨hx, .inr (by omega)⟩
    · rw [if_neg ha] at hst
      exact .inl (hst ▸ hx)
  | wakeUpAll =>
    cases h
    refine .inr ⟨?_, .inl rfl⟩
    have hmem := (hc r a' (List.ne_nil_of_mem hx)).1
    show x ∈ (if _ then _ else _ : MessageBuffer Addr Msg).prioHeap
    rw [if_pos (List.mem_map.2 ⟨_, hmem, rfl⟩)]
    exact MessageBuffer.mem_reanalyzeAllMessages hx

end

/-- Only the port of the transition loses a message from its heap. -/
theorem runOp_heap (h : c.runOp p a o = .ok c')
    (hx : x ∈ (c.buffers r).prioHeap) (ho : o = .dequeue ∨ o = .stall → r ≠ p) :
    x ∈ (c'.buffers r).prioHeap := by
  cases o with
  | keep =>
    cases h
    exact hx
  | dequeue =>
    cases h
    rwa [setBuffer_of_ne _ (ho (.inl rfl))]
  | stall =>
    cases h
    show x ∈ ((c.setBuffer p _).buffers r).prioHeap
    rwa [setBuffer_of_ne _ (ho (.inr rfl))]
  | wakeUp =>
    obtain ⟨bs, hbs, rfl⟩ := wakeUpBuffers_ok h
    exact (wakeUpBelow_ok hbs r).2.1 x hx
  | wakeUpAll =>
    cases h
    show x ∈ (if _ then _ else _ : MessageBuffer Addr Msg).prioHeap
    split
    · exact List.mem_append_left _ hx
    · exact hx

/-! ## Whole transitions -/

variable {os : List PortOp}

theorem runOps_state (h : runOps p a os c = .ok c') : c'.state = c.state := by
  induction os generalizing c with
  | nil =>
    cases h
    rfl
  | cons o os ih =>
    obtain ⟨c₁, ho, h⟩ := bind_eq_ok h
    rw [ih h, runOp_state ho]

variable (hc : c.Recorded k) (hos : ∀ o ∈ os, Allowed k p o) (h : runOps p a os c = .ok c')
include hc hos h

theorem runOps_recorded : c'.Recorded k := by
  induction os generalizing c with
  | nil =>
    cases h
    exact hc
  | cons o os ih =>
    obtain ⟨c₁, ho, h⟩ := bind_eq_ok h
    rw [List.forall_mem_cons] at hos
    exact ih (runOp_recorded hc hos.1 ho) hos.2 h

theorem runOps_stalled (hstall : .stall ∈ os → a' ≠ a)
    (hnil : (c.buffers r).stalled a' = []) : (c'.buffers r).stalled a' = [] := by
  induction os generalizing c with
  | nil =>
    cases h
    exact hnil
  | cons o os ih =>
    obtain ⟨c₁, ho, h⟩ := bind_eq_ok h
    rw [List.forall_mem_cons] at hos
    refine ih (runOp_recorded hc hos.1 ho) hos.2 h (fun hm => hstall (.tail _ hm)) ?_
    exact runOp_stalled hc hos.1 ho (fun h => hstall (h ▸ .head _)) hnil

/-- A list of actions that wakes the address and stalls nothing leaves nothing
stalled under it. -/
theorem runOps_wakes (hstall : .stall ∉ os)
    (hwake : .wakeUp ∈ os ∨ .wakeUpAll ∈ os) (r : ℕ) :
    (c'.buffers r).stalled a = [] := by
  induction os generalizing c with
  | nil => simp at hwake
  | cons o os ih =>
    obtain ⟨c₁, ho, h⟩ := bind_eq_ok h
    rw [List.forall_mem_cons] at hos
    have hc₁ := runOp_recorded hc hos.1 ho
    have hrest : .stall ∉ os := fun hm => hstall (.tail _ hm)
    by_cases hw : o = .wakeUp ∨ o = .wakeUpAll
    · -- the first wake-up empties the lists, and nothing is stalled after it
      refine runOps_stalled hc₁ hos.2 h (fun hm => absurd hm hrest) ?_
      exact runOp_wakes hc hos.1 ho hw r
    · refine ih hc₁ hos.2 h hrest ?_
      simp only [List.mem_cons] at hwake
      grind

/-- A message that was stalled is stalled or on the heap of its port. -/
theorem runOps_keeps (hlast : .wakeUpAll ∉ os.dropLast)
    (hx : x ∈ (c.buffers r).stalled a' ∨ x ∈ (c.buffers r).prioHeap ∧ r ≠ p) :
    x ∈ (c'.buffers r).stalled a' ∨ x ∈ (c'.buffers r).prioHeap := by
  induction os generalizing c with
  | nil =>
    cases h
    exact hx.imp_right And.left
  | cons o os ih =>
    obtain ⟨c₁, ho, h⟩ := bind_eq_ok h
    rw [List.forall_mem_cons] at hos
    have hc₁ := runOp_recorded hc hos.1 ho
    have hx₁ : x ∈ (c₁.buffers r).stalled a' ∨
        x ∈ (c₁.buffers r).prioHeap ∧ (o = .wakeUpAll ∨ r ≠ p) := by
      rcases hx with hx | ⟨hx, hr⟩
      · exact runOp_keeps hc hos.1 ho hx
      · exact .inr ⟨runOp_heap ho hx fun _ => hr, .inr hr⟩
    cases os with
    | nil =>
      cases h
      exact hx₁.imp_right And.left
    | cons o' os' =>
      rw [List.dropLast_cons_cons, List.mem_cons, not_or] at hlast
      refine ih hc₁ hos.2 h hlast.2 (hx₁.imp_right fun hx => ⟨hx.1, ?_⟩)
      exact hx.2.resolve_left (Ne.symm hlast.1)

end Controller

/-! ## Runs -/

namespace Machine

variable [DecidableEq S] [DecidableEq E] {M : Machine S E A} {k : ℕ} {c c' : Controller S Addr Msg}

/-- A message is stalled only under the address of a block in a transient
state. -/
def Parked (M : Machine S E A) (c : Controller S Addr Msg) : Prop :=
  ∀ r a, (c.buffers r).stalled a ≠ [] → M.stable (c.state a) = false

/-- The transition that a message triggered, and the actions it ran. -/
theorem trigger_ok {e : E} {i : ℕ} {a : Addr} (h : M.trigger c e i a = .ok c') :
    ∃ m t c₁, (c.buffers (M.rank e)).prioHeap[i]? = some m ∧
      Transition.lookup M.transitions (c.state a) e = some t ∧
      Controller.runOps (M.rank e) a (t.actions.map M.op)
        (c.setBuffer (M.rank e) ((c.buffers (M.rank e)).bringUp i m)) = .ok c₁ ∧
      c' = { c₁ with state := update c₁.state a (t.target (c₁.state a)) } := by
  unfold trigger at h
  cases hm : (c.buffers (M.rank e)).prioHeap[i]? with
  | none =>
    simp only [hm] at h
    cases h
  | some m =>
    cases ht : Transition.lookup M.transitions (c.state a) e with
    | none =>
      simp only [hm, ht] at h
      cases h
    | some t =>
      simp only [hm, ht] at h
      obtain ⟨c₁, hops, h⟩ := bind_eq_ok h
      cases h
      exact ⟨m, t, c₁, rfl, rfl, hops, rfl⟩

omit [DecidableEq S] [DecidableEq E] in
theorem Keeps.allowed {t : Transition S E A} {s : S} {e : E} (h : M.Keeps k t s e) :
    ∀ o ∈ t.actions.map M.op, Controller.Allowed k (M.rank e) o := by
  intro o ho
  refine ⟨?_, ?_⟩
  · rintro rfl
    exact (h.stall ho).1
  · rintro rfl
    exact h.wakeUp ho

theorem Disciplined.keeps (hM : M.Disciplined k) {t : Transition S E A} {s : S} {e : E}
    (h : Transition.lookup M.transitions s e = some t) : M.Keeps k t s e :=
  let ⟨hmem, hs, he⟩ := Transition.lookup_mem h
  hM t hmem s hs e he

/-- One step of a controller with a disciplined table. -/
theorem Disciplined.step (hM : M.Disciplined k) (hrec : c.Recorded k)
    (hpark : M.Parked c) {ev : PortEvent E Addr Msg} (h : M.step c ev = .ok c') :
    c'.Recorded k ∧ M.Parked c' := by
  cases ev with
  | enqueue p m =>
    cases h
    have hst := Controller.enqueue_stalled c p m
    refine ⟨fun r a hne => hrec r a ?_, fun r a hne => hpark r a ?_⟩
    · rwa [hst] at hne
    · rwa [hst] at hne
  | trigger e i a =>
    obtain ⟨m, t, c₁, -, ht, hops, rfl⟩ := trigger_ok h
    have hkeep := hM.keeps ht
    -- bringing the message to the head changes no stalled message
    have hst := Controller.bringUp_stalled c (M.rank e) i m
    have hrec₀ : (c.setBuffer (M.rank e) ((c.buffers (M.rank e)).bringUp i m)).Recorded k :=
      fun r a hne => hrec r a (by rwa [hst] at hne)
    have hstate : c₁.state = c.state := (Controller.runOps_state hops).trans rfl
    have hrec₁ := Controller.runOps_recorded hrec₀ hkeep.allowed hops
    refine ⟨hrec₁, fun r a' hne => ?_⟩
    replace hne : (c₁.buffers r).stalled a' ≠ [] := hne
    show M.stable (update c₁.state a _ a') = false
    by_cases ha : a' = a
    · subst ha
      rw [update_self, hstate]
      by_contra hstable
      rw [Bool.not_eq_false] at hstable
      have hstall : .stall ∉ t.actions.map M.op := fun hm => by
        have := (hkeep.stall hm).2.1
        rw [hstable] at this
        cases this
      by_cases hs : M.stable (c.state a')
      · -- nothing was stalled under a stable block, and nothing is now
        refine hne (Controller.runOps_stalled hrec₀ hkeep.allowed hops
          (fun hm => absurd hm hstall) ?_)
        rw [hst]
        by_contra hnil
        rw [hpark r a' hnil] at hs
        cases hs
      · have hwake := hkeep.settle (by simpa using hs) hstable
        exact hne (Controller.runOps_wakes hrec₀ hkeep.allowed hops hstall hwake r)
    · rw [update_of_ne ha, hstate]
      refine hpark r a' fun hnil => hne ?_
      exact Controller.runOps_stalled hrec₀ hkeep.allowed hops (fun _ => ha) (by rwa [hst])

/-- In every state of every run. -/
theorem Disciplined.reaches (hM : M.Disciplined k) (h : M.Reaches c) :
    c.Recorded k ∧ M.Parked c := by
  refine h.invariant (I := fun c => c.Recorded k ∧ M.Parked c)
    ⟨fun r a hne => absurd rfl hne, fun r a hne => absurd rfl hne⟩ fun s ev hs _ => ?_
  exact post_of_forall fun s' hs' => hM.step hs.1 hs.2 hs'

/-- A step keeps every stalled message, stalled or back on the heap. -/
theorem Disciplined.keeps_stalled (hM : M.Disciplined k) (hrec : c.Recorded k)
    {ev : PortEvent E Addr Msg} (h : M.step c ev = .ok c') {r : ℕ} {a : Addr} {x : Msg}
    (hx : x ∈ (c.buffers r).stalled a) :
    x ∈ (c'.buffers r).stalled a ∨ x ∈ (c'.buffers r).prioHeap := by
  cases ev with
  | enqueue p m =>
    cases h
    exact .inl (by rwa [Controller.enqueue_stalled])
  | trigger e i b =>
    obtain ⟨m, t, c₁, -, ht, hops, rfl⟩ := trigger_ok h
    have hkeep := hM.keeps ht
    have hst := Controller.bringUp_stalled c (M.rank e) i m
    have hrec₀ : (c.setBuffer (M.rank e) ((c.buffers (M.rank e)).bringUp i m)).Recorded k :=
      fun r a hne => hrec r a (by rwa [hst] at hne)
    have hkept := Controller.runOps_keeps hrec₀ hkeep.allowed hops hkeep.wakeUpAll
      (.inl (by rwa [hst]))
    exact hkept

/-- No message is stranded: in every state reached, a message is stalled only
under the address of a block in a transient state and with its port on record,
and a step that settles the block has put the message back on the heap. -/
def NeverStrands (M : Machine S E A) (Addr Msg : Type) [DecidableEq Addr] : Prop :=
  ∀ c : Controller S Addr Msg, M.Reaches c → (∀ r a, (c.buffers r).stalled a ≠ [] →
      M.stable (c.state a) = false ∧ (a, r) ∈ c.waitingBuffers) ∧
    ∀ ev c', M.step c ev = .ok c' → ∀ r a, ∀ x ∈ (c.buffers r).stalled a,
      M.stable (c'.state a) = true → x ∈ (c'.buffers r).prioHeap

theorem Disciplined.neverStrands (hM : M.Disciplined k) : M.NeverStrands Addr Msg := by
  intro c hc
  obtain ⟨hrec, hpark⟩ := hM.reaches hc
  refine ⟨fun r a hne => ⟨hpark r a hne, (hrec r a hne).1⟩, ?_⟩
  intro ev c' hstep r a x hx hstable
  refine (hM.keeps_stalled hrec hstep hx).resolve_left fun hx' => ?_
  have hbusy := (hM.step hrec hpark hstep).2 r a (List.ne_nil_of_mem hx')
  rw [hstable] at hbusy
  cases hbusy

end Machine

end Gem5Gpu.Ruby
