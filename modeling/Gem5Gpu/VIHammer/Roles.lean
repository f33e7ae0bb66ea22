import Gem5Gpu.VIHammer.Party
import Mathlib.Algebra.Order.BigOperators.Group.Multiset

/-!
# The parts that a cache can play

A cache is `idle` towards the directory, `waiting` when its GETS was put aside to
be answered together with others, or `active` when the directory serves its
request.  `Idle`, `Waiting` and `Active` say what a party in that role looks like.

An active party has a balance to keep.  `Active.need` says that `NumPendingMsgs`
is the sum of the acks on their way to it and of those that are still `due`, and
`Active.data` that the block reaches it exactly once: it has it, or it is on its
way, or it is still `owed`.
-/

namespace Gem5Gpu.VIHammer

open Lib

variable {ι : Type} {L : ℕ} {x : Bool} {m : Mode}

inductive Role
  | idle
  | waiting
  /-- The directory serves a GETX (`x`) or a GETS that was issued at `τ` and
  forwarded at `φ`. -/
  | active (x : Bool) (τ φ due owed : ℕ)
  deriving DecidableEq

/-- The type of a request for a copy. -/
def getType (x : Bool) : CoherenceRequestType := if x then .GETX else .GETS

/-- A request of the cache `j` for a copy. -/
def getMsg (j : ι) (x : Bool) (τ : ℕ) : RequestMsg ι :=
  { type := getType x, requestor := .cache j, initialRequestTime := τ }

/-- A request of the cache `j` to give its copy up. -/
def putMsg (j : ι) : RequestMsg ι := { type := .PUT, requestor := .cache j }

namespace View

/-- A view without a TBE. -/
def Plain (v : View ι L) : Prop :=
  v.sharers = false ∧ v.initialRequestTime = 0 ∧ v.forwardRequestTime = 0

/-- A view whose request has not been served. -/
structure Starts (n : ℕ) (x : Bool) (v : View ι L) : Prop where
  mode : if x then v.mode = .IM ∨ v.mode = .SM ∨ v.mode = .OM else v.mode = .IS
  need : v.need = if v.mode = .OM then (n : ℤ) - 1 else n
  plain : v.Plain

end View

/-- A party that the directory has no business with. -/
inductive Idle (n : ℕ) (j : ι) :
    View ι L → Option (RequestMsg ι) → Option CoherenceRequestType → Prop
  | rest {v} : v.mode.resting = true → v.Plain → Idle n j v none none
  | get {v} (x : Bool) (τ : ℕ) : v.Starts n x → Idle n j v (some (getMsg j x τ)) none
  | put {v} : v.mode.leaving = true → v.Plain → Idle n j v (some (putMsg j)) none
  | acked {v} : v.mode.leaving = true → v.Plain → Idle n j v none (some .WB_ACK)
  | nacked {v} : v.mode = .II → v.Plain → Idle n j v none (some .WB_NACK)

namespace Idle

variable {n : ℕ} {j : ι} {v : View ι L} {q : Option (RequestMsg ι)}
  {t : Option CoherenceRequestType}

theorem plain (h : Idle n j v q t) : v.Plain := by
  cases h with
  | rest _ hp | put _ hp | acked _ hp | nacked _ hp => exact hp
  | get x τ hs => exact hs.plain

/-- An idle party answers forwarded requests. -/
theorem probed (h : Idle n j v q t) : v.mode.probed := by
  cases h with
  | rest hm | put hm | acked hm => cases hv : v.mode <;> rw [hv] at hm <;> cases hm <;> rfl
  | get x τ hs =>
    have hmode := hs.mode
    cases x
    · rw [if_neg (by simp)] at hmode
      rw [hmode]
      rfl
    · rw [if_pos rfl] at hmode
      rcases hmode with hm | hm | hm <;> rw [hm] <;> rfl
  | nacked hm _ => rw [hm]; rfl

end Idle

/-- Someone who can answer a request. -/
def MachineID.Answers : MachineID ι → Prop
  | .directory | .cache _ => True
  | .dma | .unset => False

/-- A response to a request that was issued at `τ` and forwarded at `φ`. -/
structure ResponseMsg.Fits (x : Bool) (τ φ : ℕ) (m : ResponseMsg ι L) : Prop where
  type : m.type = .ACK ∨ m.type = .DATA ∨ m.type = .DATA_EXCLUSIVE ∨
    x = false ∧ (m.type = .ACK_SHARED ∨ m.type = .DATA_SHARED)
  acks : 0 < m.acks
  silent : m.silentAcks = 0
  initial : m.initialRequestTime = 0 ∨ m.initialRequestTime = τ
  forward : m.forwardRequestTime = 0 ∨ m.forwardRequestTime = φ
  sender : m.sender.Answers

/-- A response with data. -/
def ResponseMsg.isData (m : ResponseMsg ι L) : Bool := Directory.isData m.type

/-- The modes of an active party with the block. -/
def Mode.got : Mode → ℕ
  | .ISM | .OM | .SS | .M_W | .MM_W => 1
  | _ => 0

/-- The modes of an active party. -/
def Mode.fits (x : Bool) : Mode → Bool
  | .IS | .SS | .M_W => !x
  | .IM | .SM | .OM | .ISM => x
  | .MM_W => true
  | _ => false

/-- An active party without the block. -/
theorem Mode.of_got_zero (hf : m.fits x) (hg : m.got = 0) :
    x = false ∧ m = .IS ∨ x ∧ (m = .IM ∨ m = .SM) := by
  cases m <;> cases x <;> simp_all [fits, got]

/-- An active party with the block. -/
theorem Mode.of_got_one (hf : m.fits x) (hg : m.got = 1) :
    x = false ∧ (m = .SS ∨ m = .M_W) ∨ x ∧ (m = .OM ∨ m = .ISM) ∨ m = .MM_W := by
  cases m <;> cases x <;> simp_all [fits, got]

theorem Mode.getting_of_fits (hf : m.fits x) : m.getting := by
  cases m <;> cases x <;> simp_all [fits, getting]

/-- The completion trigger of a view. -/
def View.trigger (v : View ι L) : Option TriggerType :=
  if v.need = 0 then some (if v.sharers then .ALL_ACKS else .ALL_ACKS_NO_SHARERS) else none

/-- A party that the directory serves. -/
structure Active (x : Bool) (τ φ due owed : ℕ) (p : Party ι L) : Prop where
  mode : p.view.mode.fits x = true
  need : p.view.need = (p.responses.map (·.acks)).sum + due
  data : p.view.mode.got + p.responses.countP (·.isData = true) + owed = 1
  owed : owed ≤ due
  fits : ∀ m ∈ p.responses, m.Fits x τ φ
  sharers : x = true → p.view.sharers = false
  last : p.view.lastResponder.Answers ∨ p.view.mode ≠ .ISM ∧ 0 < p.view.need
  initial : p.view.initialRequestTime = 0 ∨ p.view.initialRequestTime = τ
  forward : p.view.forwardRequestTime = 0 ∨ p.view.forwardRequestTime = φ
  trigger : p.trigger = p.view.trigger
  request : p.request = none
  grant : p.grant = none
  probe : p.probe = none
  unblock : p.unblock = none

/-- A party with no completion trigger and no responses on their way. -/
structure Rests (p : Party ι L) : Prop where
  trigger : p.trigger = none
  responses : p.responses = 0

/-- What a party in a role looks like. -/
def Role.Fits (n : ℕ) (j : ι) (p : Party ι L) : Role → Prop
  | .idle => Rests p ∧ Idle n j p.view p.request p.grant
  | .waiting => Rests p ∧ p.request = none ∧ p.grant = none ∧ p.view.Starts n false
  | .active x τ φ due owed => Active x τ φ due owed p

/-! ## Balances -/

/-- Acks are never negative. -/
theorem acks_nonneg {τ φ : ℕ} {R : Multiset (ResponseMsg ι L)}
    (h : ∀ m ∈ R, m.Fits x τ φ) : 0 ≤ (R.map (·.acks)).sum := by
  refine Multiset.sum_nonneg fun k hk => ?_
  obtain ⟨m, hm, rfl⟩ := Multiset.mem_map.1 hk
  exact (h m hm).acks.le

namespace Active

variable {x : Bool} {τ φ due owed : ℕ} {p : Party ι L} {m : ResponseMsg ι L}

/-- A response on its way is one that the cache still waits for. -/
theorem need_pos (h : Active x τ φ due owed p) (hm : m ∈ p.responses) : 0 < p.view.need := by
  obtain ⟨R, hR⟩ := Multiset.exists_cons_of_mem hm
  have hneed := h.need
  have hfits := h.fits
  rw [hR] at hneed hfits
  rw [Multiset.map_cons, Multiset.sum_cons] at hneed
  have hpos := (hfits m (Multiset.mem_cons_self m R)).acks
  have hrest := acks_nonneg fun k hk => hfits k (Multiset.mem_cons_of_mem hk)
  omega

/-- A cache that waits for nothing has got everything. -/
theorem done (h : Active x τ φ due owed p) (hneed : p.view.need = 0) :
    p.responses = 0 ∧ due = 0 ∧ owed = 0 ∧ p.view.mode.got = 1 := by
  have hresp : p.responses = 0 := by
    by_contra hne
    obtain ⟨m, hm⟩ := Multiset.exists_mem_of_ne_zero hne
    exact absurd hneed (h.need_pos hm).ne'
  have hn := h.need
  have hd := h.data
  have ho := h.owed
  rw [hresp] at hn hd
  simp only [Multiset.map_zero, Multiset.sum_zero, Multiset.countP_zero] at hn hd
  refine ⟨hresp, ?_, ?_, ?_⟩ <;> omega

/-- An answer is sent: what was due is on its way. -/
theorem push (due' owed' : ℕ) (h : Active x τ φ due owed p) (hm : m.Fits x τ φ)
    (hdue : (due : ℤ) = due' + m.acks) (howed : owed = owed' + m.isData.toNat)
    (hle : owed' ≤ due') :
    Active x τ φ due' owed' { p with responses := m ::ₘ p.responses } := by
  refine { h with need := ?_, data := ?_, owed := hle, fits := ?_ }
  · have hneed := h.need
    simp only [Multiset.map_cons, Multiset.sum_cons]
    omega
  · have hdata := h.data
    show _ + Multiset.countP _ (m ::ₘ p.responses) + _ = _
    rw [Multiset.countP_cons]
    cases hd : m.isData <;> simp [hd] at howed ⊢ <;> omega
  · intro k hk
    rcases Multiset.mem_cons.1 hk with rfl | hk
    · exact hm
    · exact h.fits k hk

end Active

/-- A request that the directory starts to serve. -/
theorem View.Starts.active {n : ℕ} {v : View ι L} {p : Party ι L} (τ φ : ℕ) (h : v.Starts n x)
    (hn : 1 < n) (hv : p.view = v) (hrest : Rests p) (hrequest : p.request = none)
    (hgrant : p.grant = none) (hprobe : p.probe = none) (hunblock : p.unblock = none) :
    Active x τ φ (n - v.mode.got) (1 - v.mode.got) p := by
  subst hv
  obtain ⟨hmode, hneed, hsharers, hinitial, hforward⟩ := h
  have hpos : 0 < p.view.need := by
    rw [hneed]
    split <;> omega
  have hfits : p.view.mode.fits x := by
    cases x <;> simp only [Bool.false_eq_true, if_true, if_false] at hmode
    · rw [hmode]
      rfl
    · rcases hmode with hm | hm | hm <;> rw [hm] <;> rfl
  have hgot : p.view.mode.got = if p.view.mode = .OM then 1 else 0 := by
    cases x <;> simp only [Bool.false_eq_true, if_true, if_false] at hmode
    · rw [hmode]
      rfl
    · rcases hmode with hm | hm | hm <;> rw [hm] <;> rfl
  refine ⟨hfits, ?_, ?_, ?_, ?_, fun _ => hsharers, .inr ⟨?_, hpos⟩, .inl hinitial,
    .inl hforward, ?_, hrequest, hgrant, hprobe, hunblock⟩
  · rw [hrest.responses, hneed, hgot]
    split
    · simp
      omega
    · simp
  · rw [hrest.responses, hgot]
    split <;> simp
  · omega
  · simp [hrest.responses]
  · intro hm
    cases x <;> simp_all
  · rw [hrest.trigger, View.trigger, if_neg hpos.ne']

end Gem5Gpu.VIHammer
