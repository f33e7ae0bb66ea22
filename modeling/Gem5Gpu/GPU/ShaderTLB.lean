import Gem5Gpu.Lib.Fallible
import Mathlib.Data.List.Basic
import Mathlib.Algebra.Group.Nat.Defs

/-!
# The memory of a TLB

`TLBMemory` is the set-associative memory of `shader_tlb.hh`.  A virtual page has
one row, which the source calls a way, and the row has `sets` entries.  A lookup
that finds the page makes its entry the most recent one; an insertion takes a free
entry, or the entry that was used least recently.

`Maps t vp pp` says that the memory holds the translation from `vp` to `pp`, and
`Fresh` is what the assertions of the two functions need: an entry in use was used
at a tick after zero and not after now.  `lookup_spec` and `insert_spec` say what
the functions do to the translations held.
-/

namespace Gem5Gpu.GPU.MMU

open Lib Function

variable {row : List GPUTlbEntry}

/-- The assertions and panics of the TLB memory and of the MMU. -/
inductive Fault
  /-- The environment cannot do this now. -/
  | disabled
  | assertMruTick
  | assertTlbEntry
  | assertPrefetchAligned
  | assertPrefetchVictim
  | assertPrefetchSize
  | assertActive
  | assertWalkEvent
  | assertPageWalker
  | assertFront
  | assertQueued
  | assertFaultInfo
  | assertInKernel
  | assertInFault
  | assertTimeout
  | assertOutstanding
  /-- A null walker, TLB or request is used. -/
  | nullPointer
  | panicSE
  | panicRefault
  | panicNoTimeout
  | panicInFault
deriving DecidableEq, Repr

/-- `TheISA::PageBytes`. -/
def pageBytes : ℕ := 2 ^ 12

structure GPUTlbEntry where
  vpBase : ℕ := 0
  ppBase : ℕ := 0
  free : Bool := true
  mruTick : ℕ := 0
deriving DecidableEq, Repr, Inhabited

structure TLBMemory where
  sets : ℕ
  ways : ℕ
  entries : ℕ → List GPUTlbEntry

namespace TLBMemory

/-- The constructor.  Associativity zero means fully associative. -/
def new (numEntries associativity : ℕ) : TLBMemory :=
  let sets := if associativity = 0 then numEntries else associativity
  { sets, ways := numEntries / sets, entries := fun _ => List.replicate sets {} }

variable (t : TLBMemory)

def way (vpBase : ℕ) : ℕ := vpBase / pageBytes % t.ways

/-- The row of `vpBase` is replaced. -/
def setRow (vpBase : ℕ) (row : List GPUTlbEntry) : TLBMemory :=
  { t with entries := update t.entries (t.way vpBase) row }

/-- The loop of `lookup`: the entry of the page, and the row after the lookup. -/
def lookupRow (vpBase now : ℕ) (setMru : Bool) :
    List GPUTlbEntry → Option (GPUTlbEntry × List GPUTlbEntry)
  | [] => none
  | e :: row =>
    if e.vpBase = vpBase ∧ e.free = false then
      some (e, (if setMru then { e with mruTick := now } else e) :: row)
    else
      (lookupRow vpBase now setMru row).map fun found => (found.1, e :: found.2)

def lookup (vpBase now : ℕ) (setMru : Bool) : Except Fault (Option ℕ × TLBMemory) :=
  match lookupRow vpBase now setMru (t.entries (t.way vpBase)) with
  | none => .ok (none, t)
  | some (e, row) => do
    check (0 < e.mruTick) .assertMruTick
    .ok (some e.ppBase, t.setRow vpBase row)

/-- The loop of `insert`: the first free entry, or the last of the entries whose
tick is the least. -/
def victim : List GPUTlbEntry → ℕ → ℕ → Option ℕ → Option ℕ
  | [], _, _, entry => entry
  | e :: row, i, minTick, entry =>
    if e.free then some i
    else if e.mruTick ≤ minTick then victim row (i + 1) e.mruTick (some i)
    else victim row (i + 1) minTick entry

def insert (vpBase ppBase now : ℕ) : Except Fault TLBMemory := do
  let (found, t) ← t.lookup vpBase now true
  if found.isSome then
    .ok t
  else
    let row := t.entries (t.way vpBase)
    match victim row 0 now none with
    | none => .error .assertTlbEntry
    | some i =>
      .ok (t.setRow vpBase (row.set i { vpBase, ppBase, free := false, mruTick := now }))

/-- The memory holds the translation from `vp` to `pp`. -/
def Maps (vp pp : ℕ) : Prop :=
  ∃ e ∈ t.entries (t.way vp), e.free = false ∧ e.vpBase = vp ∧ e.ppBase = pp

/-- There are entries, and those in use have ticks of the past. -/
structure Fresh (t : TLBMemory) (now : ℕ) : Prop where
  nonempty : ∀ w, t.entries w ≠ []
  ticks : ∀ w, ∀ e ∈ t.entries w, e.free = false → 0 < e.mruTick ∧ e.mruTick ≤ now

section Spec

variable {t : TLBMemory} {vp pp now : ℕ} {setMru : Bool}

theorem Fresh.mono {now' : ℕ} (h : t.Fresh now) (hle : now ≤ now') : t.Fresh now' where
  nonempty := h.nonempty
  ticks := fun w e he hfree => by
    have := h.ticks w e he hfree
    omega

theorem new_fresh {numEntries associativity : ℕ} (h : 0 < numEntries) (now : ℕ) :
    (new numEntries associativity).Fresh now where
  nonempty := fun w => by
    unfold new
    simp only [ne_eq, List.replicate_eq_nil_iff]
    split <;> omega
  ticks := fun w e he hfree => by
    obtain ⟨_, rfl⟩ := List.mem_replicate.1 he
    cases hfree

theorem not_maps_new (numEntries associativity : ℕ) :
    ¬(new numEntries associativity).Maps vp pp := by
  rintro ⟨e, he, hfree, _⟩
  obtain ⟨_, rfl⟩ := List.mem_replicate.1 he
  cases hfree

theorem Fresh.setRow (h : t.Fresh now) (hne : row ≠ [])
    (hticks : ∀ e ∈ row, e.free = false → 0 < e.mruTick ∧ e.mruTick ≤ now) :
    (t.setRow vp row).Fresh now := by
  have hentries (w : ℕ) : (t.setRow vp row).entries w = row ∨
      (t.setRow vp row).entries w = t.entries w := by
    by_cases hw : w = t.way vp
    · subst hw
      exact .inl (update_self ..)
    · exact .inr (update_of_ne hw ..)
  refine ⟨fun w => ?_, fun w => ?_⟩
  · rcases hentries w with hw | hw
    · rwa [hw]
    · rw [hw]
      exact h.nonempty w
  · rcases hentries w with hw | hw
    · rwa [hw]
    · rw [hw]
      exact h.ticks w

/-- What a memory with a new row holds was there, or is in the row. -/
theorem maps_setRow {vp' : ℕ} (h : (t.setRow vp row).Maps vp' pp) : t.Maps vp' pp ∨
      t.way vp' = t.way vp ∧ ∃ e ∈ row, e.free = false ∧ e.vpBase = vp' ∧ e.ppBase = pp := by
  obtain ⟨e, he, hrest⟩ := h
  have hmem : e ∈ update t.entries (t.way vp) row (t.way vp') := he
  by_cases hw : t.way vp' = t.way vp
  · rw [hw, update_self] at hmem
    exact .inr ⟨hw, e, hmem, hrest⟩
  · rw [update_of_ne hw] at hmem
    exact .inl ⟨e, hmem, hrest⟩

theorem lookupRow_none (h : lookupRow vp now setMru row = none) :
    ∀ e ∈ row, ¬(e.vpBase = vp ∧ e.free = false) := by
  induction row with
  | nil => exact fun e he => absurd he List.not_mem_nil
  | cons e row ih =>
    rw [lookupRow] at h
    split at h
    · cases h
    · rename_i hne
      intro e' he'
      rcases List.mem_cons.1 he' with rfl | he'
      · exact hne
      · exact ih (Option.map_eq_none_iff.1 h) e' he'

/-- A lookup changes only the tick of the entry found. -/
theorem lookupRow_some {row row' : List GPUTlbEntry} {e : GPUTlbEntry}
    (h : lookupRow vp now setMru row = some (e, row')) :
    (e ∈ row ∧ e.vpBase = vp ∧ e.free = false) ∧ row' ≠ [] ∧
      ∀ e' ∈ row', ∃ e₀ ∈ row, e' = e₀ ∨ e' = { e₀ with mruTick := now } := by
  induction row generalizing row' with
  | nil => cases h
  | cons e₁ row ih =>
    rw [lookupRow] at h
    split at h
    · rename_i hmatch
      cases h
      refine ⟨⟨List.mem_cons_self, hmatch⟩, List.cons_ne_nil _ _, fun e' he' => ?_⟩
      rcases List.mem_cons.1 he' with rfl | he'
      · refine ⟨e, List.mem_cons_self, ?_⟩
        cases setMru
        · exact .inl rfl
        · exact .inr rfl
      · exact ⟨e', List.mem_cons_of_mem _ he', .inl rfl⟩
    · obtain ⟨⟨e₂, row₂⟩, hrow, heq⟩ := Option.map_eq_some_iff.1 h
      cases heq
      obtain ⟨⟨hmem, hmatch⟩, _, hall⟩ := ih hrow
      refine ⟨⟨List.mem_cons_of_mem _ hmem, hmatch⟩, List.cons_ne_nil _ _, fun e' he' => ?_⟩
      rcases List.mem_cons.1 he' with rfl | he'
      · exact ⟨e', List.mem_cons_self, .inl rfl⟩
      · obtain ⟨e₀, he₀, heq⟩ := hall e' he'
        exact ⟨e₀, List.mem_cons_of_mem _ he₀, heq⟩

/-- A lookup finds the page exactly if the memory holds it, and forgets nothing
else than ticks. -/
theorem lookup_spec (h : t.Fresh now) : Post (t.lookup vp now setMru) (fun _ => False) fun found =>
      found.2.Fresh now ∧
      (∀ vp' pp', found.2.Maps vp' pp' → t.Maps vp' pp') ∧
      (∀ pp, found.1 = some pp → t.Maps vp pp) ∧
      (found.1 = none → found.2 = t ∧ ∀ pp, ¬t.Maps vp pp) := by
  unfold lookup
  split
  · rename_i hnone
    refine ⟨h, fun _ _ hmaps => hmaps, by simp, fun _ => ⟨rfl, fun pp => ?_⟩⟩
    rintro ⟨e, he, hfree, hvp, _⟩
    exact lookupRow_none hnone e he ⟨hvp, hfree⟩
  · rename_i e row hsome
    obtain ⟨⟨hmem, hvp, hfree⟩, hne, hall⟩ := lookupRow_some hsome
    refine Post.check (fun _ => ?_) fun hzero => hzero (h.ticks _ e hmem hfree).1
    refine ⟨h.setRow hne fun e' he' hfree' => ?_, fun vp' pp' hmaps => ?_, ?_, by simp⟩
    · obtain ⟨e₀, he₀, rfl | rfl⟩ := hall e' he'
      · exact h.ticks _ e' he₀ hfree'
      · -- An entry in use has a tick between zero and now.
        have hused := h.ticks _ e hmem hfree
        exact ⟨Nat.lt_of_lt_of_le hused.1 hused.2, Nat.le_refl now⟩
    · rcases maps_setRow hmaps with hmaps | ⟨hw, e', he', hrest⟩
      · exact hmaps
      · obtain ⟨e₀, he₀, rfl | rfl⟩ := hall e' he'
        · exact ⟨e', hw ▸ he₀, hrest⟩
        · exact ⟨e₀, hw ▸ he₀, hrest⟩
    · intro pp hpp
      cases hpp
      exact ⟨e, hmem, hfree, hvp, rfl⟩

theorem victim_isSome (row : List GPUTlbEntry) (i minTick j : ℕ) :
    (victim row i minTick (some j)).isSome := by
  induction row generalizing i minTick j with
  | nil => rfl
  | cons e row ih =>
    rw [victim]
    split
    · rfl
    · split
      · exact ih _ _ _
      · exact ih _ _ _

/-- A row with ticks of the past has an entry to replace. -/
theorem exists_victim (hne : row ≠ []) (hticks : ∀ e ∈ row, e.free = false → e.mruTick ≤ now) :
    ∃ i, victim row 0 now none = some i := by
  obtain ⟨e, row, rfl⟩ := List.exists_cons_of_ne_nil hne
  rw [victim]
  split
  · exact ⟨0, rfl⟩
  · rename_i hfree
    rw [if_pos (hticks e List.mem_cons_self (by simpa using hfree))]
    exact Option.isSome_iff_exists.1 (victim_isSome row 1 e.mruTick 0)

/-- After an insertion the memory holds the new translation and old ones. -/
theorem insert_spec (h : t.Fresh now) (hnow : 0 < now) :
    Post (t.insert vp pp now) (fun _ => False) fun t' =>
      t'.Fresh now ∧
      ∀ vp' pp', t'.Maps vp' pp' → t.Maps vp' pp' ∨ vp' = vp ∧ pp' = pp := by
  unfold insert
  refine (lookup_spec h).bind fun found hfound => ?_
  obtain ⟨found, t₁⟩ := found
  obtain ⟨hfresh, hmaps, _, _⟩ := hfound
  dsimp only at hfresh hmaps ⊢
  refine Post.ite (fun _ => ⟨hfresh, fun vp' pp' h' => .inl (hmaps vp' pp' h')⟩) fun _ => ?_
  obtain ⟨i, hi⟩ := exists_victim (hfresh.nonempty (t₁.way vp))
    fun e he hfree => (hfresh.ticks _ e he hfree).2
  rw [hi]
  have hset (e : GPUTlbEntry) (he : e ∈ (t₁.entries (t₁.way vp)).set i ⟨vp, pp, false, now⟩) :
      e ∈ t₁.entries (t₁.way vp) ∨ e = ⟨vp, pp, false, now⟩ :=
    List.mem_or_eq_of_mem_set he
  refine ⟨hfresh.setRow (by simpa using hfresh.nonempty (t₁.way vp)) fun e he hfree => ?_,
    fun vp' pp' hmaps' => ?_⟩
  · rcases hset e he with he | rfl
    · exact hfresh.ticks _ e he hfree
    · exact ⟨hnow, Nat.le_refl now⟩
  · rcases maps_setRow hmaps' with hold | ⟨hw, e, he, hfree, hvp, hpp⟩
    · exact .inl (hmaps vp' pp' hold)
    · rcases hset e he with he | rfl
      · exact .inl (hmaps vp' pp' ⟨e, hw ▸ he, hfree, hvp, hpp⟩)
      · exact .inr ⟨hvp.symm, hpp.symm⟩

end Spec

end TLBMemory

end Gem5Gpu.GPU.MMU
