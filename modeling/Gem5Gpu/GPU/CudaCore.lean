import Gem5Gpu.Lib.Machine
import Mathlib.Data.List.Range

/-!
# The instruction fetches of a shader core

A fetch of `CudaCore` is ready when its translation has finished.  The core sends it
through the instruction port; when the port refuses a packet, the packet is kept in
`retryInstPkts`, and all later ones are queued behind it until the port calls
`handleRetry`.  That call sends the front of the list, and if packets are left it
sends the next one too.

The result of that second send is not looked at.  If the port refuses it, the port
owes another retry and all is well (`fetches_are_sent_once`).  If the port takes it,
the packet stays in the list, the core waits for a retry that nobody owes, and the
fetches behind it are left there (`second_send_is_forgotten`).

The packets are numbered in the order in which they become ready.  The port is a
counter of the retries that it owes and a log of the packets that it took.
-/

namespace Gem5Gpu.GPU.CudaCore

open Lib

inductive Fault
  /-- The port owes no retry. -/
  | disabled
  | assertNotStalled
  | assertStalled
  | assertRetryPkts
  | panicRetry
deriving DecidableEq

structure State where
  stallOnICacheRetry : Bool
  retryInstPkts : List ℕ
  -- outside of the core
  /-- The number of packets so far. -/
  ready : ℕ
  accepted : List ℕ
  lastRefused : Bool
  owedRetries : ℕ
deriving DecidableEq

def State.initial : State where
  stallOnICacheRetry := false
  retryInstPkts := []
  ready := 0
  accepted := []
  lastRefused := false
  owedRetries := 0

/-- `instPort.sendTimingReq`, with the answer of the port. -/
def sendTimingReq (pkt : ℕ) (taken : Bool) (s : State) : State :=
  if taken then { s with accepted := s.accepted ++ [pkt], lastRefused := false }
  else { s with lastRefused := true, owedRetries := s.owedRetries + 1 }

/-- The front of an empty list is not a packet, so it is not the one that was sent. -/
def sendInstAccess (pkt : ℕ) (taken : Bool) (s : State) : Except Fault State := do
  check (s.stallOnICacheRetry = false) .assertNotStalled
  let s := sendTimingReq pkt taken s
  if taken then return s
  else
    return { s with
      stallOnICacheRetry := true
      retryInstPkts := if s.retryInstPkts.head? = some pkt then s.retryInstPkts
        else s.retryInstPkts ++ [pkt] }

/-- A new packet, after a translation without a fault. -/
def finishTranslation (taken : Bool) (s : State) : Except Fault State :=
  let pkt := s.ready
  let s := { s with ready := s.ready + 1 }
  if s.stallOnICacheRetry then .ok { s with retryInstPkts := s.retryInstPkts ++ [pkt] }
  else sendInstAccess pkt taken s

/-- `first` and `second` are the answers of the port to the two sends. -/
def handleRetry (first second : Bool) (s : State) : Except Fault State := do
  check (s.stallOnICacheRetry = true) .assertStalled
  match s.retryInstPkts with
  | [] => .error .assertRetryPkts
  | pkt :: _ =>
    check (first = true) .panicRetry
    let s := sendTimingReq pkt first s
    let rest := s.retryInstPkts.filter (· ≠ pkt)
    let s := { s with retryInstPkts := rest, stallOnICacheRetry := !rest.isEmpty }
    match rest with
    | [] => return s
    | next :: _ => return sendTimingReq next second s

inductive Event
  | finishTranslation (taken : Bool)
  /-- The port calls `handleRetry`, and takes the first packet that it is sent. -/
  | retry (second : Bool)
deriving DecidableEq

def step (s : State) : Event → Except Fault State
  | .finishTranslation taken => finishTranslation taken s
  | .retry second => do
    check (0 < s.owedRetries) .disabled
    handleRetry true second { s with owedRetries := s.owedRetries - 1 }

/-- The port took the packets once each and in order, and the list has the others.
The core waits exactly if the port owes it a retry. -/
structure SentOnce (s : State) : Prop where
  sent : s.accepted ++ s.retryInstPkts = List.range s.ready
  refused : s.stallOnICacheRetry = s.lastRefused
  waits : s.stallOnICacheRetry = !s.retryInstPkts.isEmpty
  owed : s.owedRetries = s.stallOnICacheRetry.toNat

/-- The port refuses the second packet that a retry sends. -/
def RefusesSecond (s : State) : Event → Prop
  | .finishTranslation _ => True
  | .retry second => 2 ≤ s.retryInstPkts.length → second = false

instance (s : State) : (e : Event) → Decidable (RefusesSecond s e)
  | .finishTranslation _ => .isTrue trivial
  | .retry second => inferInstanceAs (Decidable (_ → second = false))

variable {s : State}

/-- A new packet is sent, or it is the last one of the list. -/
theorem SentOnce.finishTranslation (h : SentOnce s) (taken : Bool) :
    Post (finishTranslation taken s) (fun _ => False) SentOnce := by
  obtain ⟨stall, list, ready, accepted, refused, owed⟩ := s
  obtain ⟨hsent, hrefused, hwaits, howed⟩ := h
  dsimp only at hsent hrefused hwaits howed
  subst hrefused howed
  have hnew : accepted ++ list ++ [ready] = List.range (ready + 1) := by
    rw [hsent, List.range_succ]
  cases stall with
  | true =>
    refine ⟨?_, rfl, ?_, rfl⟩
    · rw [← hnew, List.append_assoc]
    · simp
  | false =>
    -- nothing is queued, so the packet is next
    obtain rfl : list = [] := by simpa using hwaits
    rw [List.append_nil] at hnew
    cases taken with
    | true => exact ⟨by simpa [sendTimingReq] using hnew, rfl, rfl, rfl⟩
    | false => exact ⟨hnew, rfl, rfl, rfl⟩

/-- A retry takes the front of the list, and leaves the core waiting for another one
if the list is not empty. -/
theorem SentOnce.handleRetry {second : Bool} (h : SentOnce s) (howes : 0 < s.owedRetries)
    (hsecond : 2 ≤ s.retryInstPkts.length → second = false) :
    Post (handleRetry true second { s with owedRetries := s.owedRetries - 1 }) (fun _ => False)
      SentOnce := by
  obtain ⟨stall, list, ready, accepted, refused, owed⟩ := s
  obtain ⟨hsent, hrefused, hwaits, howed⟩ := h
  dsimp only at hsent hrefused hwaits howed howes hsecond
  subst hrefused howed
  obtain rfl : stall = true := by
    cases stall with
    | true => rfl
    | false => cases howes
  obtain ⟨pkt, rest, rfl⟩ : ∃ pkt rest, list = pkt :: rest := by
    cases list with
    | nil => cases hwaits
    | cons pkt rest => exact ⟨pkt, rest, rfl⟩
  -- the packets are different, so only the front leaves the list
  have hrest : (pkt :: rest).filter (· ≠ pkt) = rest := by
    have hnodup : (pkt :: rest).Nodup :=
      (List.nodup_append.1 (hsent ▸ List.nodup_range)).2.1
    rw [List.filter_cons_of_neg (by simp), List.filter_eq_self]
    intro x hx
    simpa using fun heq : x = pkt => (List.nodup_cons.1 hnodup).1 (heq ▸ hx)
  have hmoved : accepted ++ [pkt] ++ rest = List.range ready := by
    rw [← hsent, List.append_assoc, List.singleton_append]
  simp only [CudaCore.handleRetry, check_bind, sendTimingReq, if_true, hrest]
  cases rest with
  | nil => exact ⟨hmoved, rfl, rfl, rfl⟩
  | cons next rest =>
    obtain rfl := hsecond (by simp)
    exact ⟨hmoved, rfl, rfl, rfl⟩

/-- One event: if the port can do it, no assertion fails. -/
theorem step_sent_once (h : SentOnce s) (e : Event) (hok : RefusesSecond s e) :
    Post (step s e) (· = .disabled) SentOnce := by
  cases e with
  | finishTranslation taken =>
    exact (h.finishTranslation taken).mono (fun _ hs => hs) fun _ hf => hf.elim
  | retry second =>
    refine Post.check (fun howes => ?_) fun _ => rfl
    exact (h.handleRetry howes hok).mono (fun _ hs => hs) fun _ hf => hf.elim

/-- As long as the port refuses the second packet of a retry, every packet is taken
exactly once and in the order in which it became ready, the list has the packets that
were not taken, the core is stalled iff the last send was refused, a retry is owed to
it as long as a packet waits, and no assertion fails. -/
theorem fetches_are_sent_once (h : Reach step RefusesSecond .initial s) :
    s.accepted ++ s.retryInstPkts = List.range s.ready ∧
      (s.stallOnICacheRetry = true ↔ s.lastRefused = true) ∧
      (s.retryInstPkts ≠ [] → s.stallOnICacheRetry = true ∧ s.owedRetries = 1) ∧
      ∀ e f, RefusesSecond s e → step s e = .error f → f = .disabled := by
  have hs : SentOnce s := h.invariant ⟨rfl, rfl, rfl, rfl⟩ fun _ e hs hok =>
    (step_sent_once hs e hok).mono (fun _ h => h) fun _ _ => trivial
  refine ⟨hs.sent, by rw [hs.refused], fun hne => ?_, fun e f hok hf => ?_⟩
  · have hstall : s.stallOnICacheRetry = true := by
      rw [hs.waits]
      simpa using hne
    exact ⟨hstall, by rw [hs.owed, hstall]; rfl⟩
  · exact (step_sent_once hs e hok).elim_error hf

/-- The first packet is refused, and two more become ready before the retry. -/
def queuedAtRetry (second : Bool) : List Event :=
  [.finishTranslation false, .finishTranslation true, .finishTranslation true, .retry second]

theorem refused_second_is_kept : ∃ s, run step .initial (queuedAtRetry false) = .ok s ∧
      s.accepted = [0] ∧ s.retryInstPkts = [1, 2] ∧ s.owedRetries = 1 := by
  obtain ⟨s, hs⟩ : ∃ s, run step .initial (queuedAtRetry false) = .ok s := ⟨_, rfl⟩
  have hreach : Reach step RefusesSecond .initial s := .of_meets .start (by decide) hs
  have hacc : s.accepted = [0] := by
    cases hs
    rfl
  have hready : s.ready = 3 := by
    cases hs
    rfl
  obtain ⟨hsent, -, howed, -⟩ := fetches_are_sent_once hreach
  have hlist : s.retryInstPkts = [1, 2] := by
    rw [hacc, hready] at hsent
    exact List.append_cancel_left hsent
  exact ⟨s, hs, hacc, hlist, (howed (by rw [hlist]; simp)).2⟩

/-- The port takes the second packet of the retry.  The packet stays in the list, and
the core waits for a retry that the port does not owe. -/
theorem second_send_is_forgotten :
    ∃ s, run step .initial (queuedAtRetry true) = .ok s ∧ s.accepted = [0, 1] ∧
      s.retryInstPkts = [1, 2] ∧ s.stallOnICacheRetry = true ∧ s.lastRefused = false ∧
      s.owedRetries = 0 :=
  ⟨_, rfl, by decide⟩

end Gem5Gpu.GPU.CudaCore
