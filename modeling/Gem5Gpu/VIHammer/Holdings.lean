import Gem5Gpu.VIHammer.Party

/-!
# Copies of a block

A `Holding` is a copy of the block, in a cache or in a message to or from one.
One of them can be the owner's, and the owner's can be the only one.  `Held` is
what the holdings of one cache have to do with the others: all of them are the
current block, there is an owned one exactly at the owner, a clean owner agrees
with the memory, and when the block is exclusive there is no holding that is not
owned.
-/

namespace Gem5Gpu.VIHammer

open Lib

variable {ι : Type} {L : ℕ}

/-- A copy of the block. -/
structure Holding (L : ℕ) where
  owned : Bool
  excl : Bool
  blk : DataBlock L
  dirty : Bool

/-- Whether a mode has a copy, and whether it is owned and exclusive. -/
def Mode.copy : Mode → Option (Bool × Bool)
  | .S | .SM | .SS => some (false, false)
  | .O | .OM | .OI | .ISM => some (true, false)
  | .M | .MM | .M_W | .MM_W | .MI => some (true, true)
  | .I | .IM | .IS | .II => none

/-- The copy in a cache. -/
def View.holding (v : View ι L) : Option (Holding L) :=
  v.mode.copy.map fun c => ⟨c.1, c.2, v.blk, v.dirty⟩

/-- The copy in a message.  `DATA` makes the requestor of a GETX (`x`) the owner. -/
def ResponseMsg.holding (x : Bool) (m : ResponseMsg ι L) : Option (Holding L) :=
  match m.type with
  | .DATA => some ⟨x, false, m.dataBlk, m.dirty⟩
  | .DATA_SHARED => some ⟨false, false, m.dataBlk, m.dirty⟩
  | .DATA_EXCLUSIVE => some ⟨true, true, m.dataBlk, m.dirty⟩
  | .WB_CLEAN | .WB_DIRTY => some ⟨true, false, m.dataBlk, m.dirty⟩
  | .WB_EXCLUSIVE_CLEAN | .WB_EXCLUSIVE_DIRTY => some ⟨true, true, m.dataBlk, m.dirty⟩
  | .ACK | .ACK_SHARED | .UNBLOCK | .UNBLOCKS | .UNBLOCKM | .NULL => none

/-- The copies that a party has or that are on their way to it or from it. -/
def Party.holdings (x : Bool) (p : Party ι L) : Multiset (Holding L) :=
  bag p.view.holding + p.responses.filterMap (·.holding x) + bag (p.unblock.bind (·.holding x))

/-- The holdings `H` of the cache `j`. -/
structure Held [DecidableEq ι] (own : Option ι) (excl : Bool) (cur : DataBlock L)
    (mem : Prop) (j : ι) (H : Multiset (Holding L)) : Prop where
  blk : ∀ h ∈ H, h.blk = cur
  alone : excl = true → ∀ h ∈ H, h.owned = true
  excl : ∀ h ∈ H, h.excl = true → excl = true
  clean : ∀ h ∈ H, h.owned = true → h.dirty = false → mem
  owner : H.countP (·.owned = true) = if own = some j then 1 else 0

namespace Held

variable [DecidableEq ι] {own own' : Option ι} {excl excl' : Bool} {cur cur' : DataBlock L}
  {mem mem' : Prop} {i j : ι} {H : Multiset (Holding L)} {h : Holding L}

theorem zero (ho : own ≠ some j) : Held own excl cur mem j 0 := by
  refine ⟨?_, ?_, ?_, ?_, ?_⟩ <;> simp [ho]

section

variable (hh : Held own excl cur mem j H)
include hh

/-- Next to an exclusive block there is nothing. -/
theorem eq_zero (he : excl) (ho : own ≠ some j) : H = 0 := by
  rw [Multiset.eq_zero_iff_forall_notMem]
  intro h hh'
  have hcount := hh.owner
  rw [if_neg ho, Multiset.countP_eq_zero] at hcount
  exact hcount h hh' (hh.alone he h hh')

/-- An exclusive block is the only one. -/
theorem eq_singleton (he : excl) (ho : own = some j) : ∃ h, H = {h} ∧ h.owned = true := by
  have hcount := hh.owner
  rw [if_pos ho, Multiset.countP_eq_card.2 (hh.alone he), Multiset.card_eq_one] at hcount
  obtain ⟨h, rfl⟩ := hcount
  exact ⟨h, rfl, hh.alone he h (Multiset.mem_singleton_self h)⟩

/-- Who else is the owner does not matter. -/
theorem of_own (ho : own' = some j ↔ own = some j) :
    Held own' excl cur mem j H := by
  refine { hh with owner := ?_ }
  rw [hh.owner]
  simp only [ho]

/-- The block is not exclusive any more. -/
theorem of_shared (ho : own ≠ some j) :
    Held own false cur mem j H := by
  refine { hh with excl := ?_, alone := by simp }
  intro h hh' he
  have hex := hh.excl h hh' he
  rw [hh.eq_zero hex ho] at hh'
  exact absurd hh' (Multiset.notMem_zero h)

/-- What memory holds matters to the owner. -/
theorem of_mem (ho : own ≠ some j ∨ (mem → mem')) :
    Held own excl cur mem' j H := by
  refine { hh with clean := ?_ }
  intro h hh' howned hd
  rcases ho with ho | ho
  · have hcount := hh.owner
    rw [if_neg ho, Multiset.countP_eq_zero] at hcount
    exact absurd howned (hcount h hh')
  · exact ho (hh.clean h hh' howned hd)

/-- Holdings that are not owned can be dropped. -/
theorem of_le {H' : Multiset (Holding L)} (hle : H' ≤ H)
    (ho : H'.countP (·.owned = true) = if own = some j then 1 else 0) :
    Held own excl cur mem j H' where
  blk k hk := hh.blk k (Multiset.mem_of_le hle hk)
  excl k hk := hh.excl k (Multiset.mem_of_le hle hk)
  clean k hk := hh.clean k (Multiset.mem_of_le hle hk)
  owner := ho
  alone he k hk := hh.alone he k (Multiset.mem_of_le hle hk)

end

/-- A copy that is not the owner's. -/
theorem cons_shared (hh : Held own false cur mem j H) (hb : h.blk = cur)
    (ho : h.owned = false) (he : h.excl = false) : Held own false cur mem j (h ::ₘ H) := by
  refine ⟨?_, by simp, ?_, ?_, ?_⟩
  · intro k hk
    rcases Multiset.mem_cons.1 hk with rfl | hk
    · exact hb
    · exact hh.blk k hk
  · intro k hk hx
    rcases Multiset.mem_cons.1 hk with rfl | hk
    · rw [he] at hx
      cases hx
    · exact hh.excl k hk hx
  · intro k hk
    rcases Multiset.mem_cons.1 hk with rfl | hk
    · intro hx
      rw [ho] at hx
      cases hx
    · exact hh.clean k hk
  · rw [Multiset.countP_cons_of_neg _ (by simp [ho]), hh.owner]

/-- The owner's copy comes to a cache. -/
theorem cons_owned (hh : Held own excl cur mem j H) (hown : own ≠ some j)
    (hb : h.blk = cur) (ho : h.owned) (he : h.excl = true → excl = true)
    (hc : h.dirty = false → mem) : Held (some j) excl cur mem j (h ::ₘ H) := by
  refine ⟨?_, ?_, ?_, ?_, ?_⟩
  · intro k hk
    rcases Multiset.mem_cons.1 hk with rfl | hk
    · exact hb
    · exact hh.blk k hk
  · intro hx k hk
    rcases Multiset.mem_cons.1 hk with rfl | hk
    · exact ho
    · exact hh.alone hx k hk
  · intro k hk
    rcases Multiset.mem_cons.1 hk with rfl | hk
    · exact he
    · exact hh.excl k hk
  · intro k hk
    rcases Multiset.mem_cons.1 hk with rfl | hk
    · exact fun _ => hc
    · exact hh.clean k hk
  · rw [Multiset.countP_cons_of_pos (p := fun h : Holding L => h.owned = true) H ho,
      hh.owner, if_neg hown]
    simp

theorem singleton (hb : h.blk = cur) (ho : h.owned) (he : h.excl = true → excl = true)
    (hc : h.dirty = false → mem) : Held (some j) excl cur mem j {h} :=
  (show Held none excl cur mem j 0 from zero (by simp)).cons_owned (by simp) hb ho he hc

/-- A cache with a copy that is not the owner's becomes the owner. -/
theorem merge {c : Holding L} (hh : Held own excl cur mem j (c ::ₘ h ::ₘ H))
    (hc : c.owned = false) (ho : h.owned) (b : Bool) :
    Held own excl cur mem j (⟨true, false, c.blk, h.dirty || b⟩ ::ₘ H) := by
  have hmem {k : Holding L} (hk : k ∈ H) : k ∈ c ::ₘ h ::ₘ H :=
    Multiset.mem_cons_of_mem (Multiset.mem_cons_of_mem hk)
  refine ⟨?_, ?_, ?_, ?_, ?_⟩
  · intro k hk
    rcases Multiset.mem_cons.1 hk with rfl | hk
    · exact hh.blk c (Multiset.mem_cons_self c _)
    · exact hh.blk k (hmem hk)
  · intro hx
    have hown := hh.alone hx c (Multiset.mem_cons_self c _)
    rw [hc] at hown
    cases hown
  · intro k hk
    rcases Multiset.mem_cons.1 hk with rfl | hk
    · intro hx
      cases hx
    · exact hh.excl k (hmem hk)
  · intro k hk
    rcases Multiset.mem_cons.1 hk with rfl | hk
    · intro _ hd
      refine hh.clean h (Multiset.mem_cons_of_mem (Multiset.mem_cons_self h H)) ho ?_
      exact (Bool.or_eq_false_iff.1 hd).1
    · exact hh.clean k (hmem hk)
  · rw [← hh.owner]
    simp [hc, ho]

/-- A cache that is not the owner has no owned copy. -/
theorem not_owned (hh : Held own excl cur mem j H) (ho : own ≠ some j) (hk : h ∈ H) :
    h.owned = false := by
  have hcount := hh.owner
  rw [if_neg ho, Multiset.countP_eq_zero] at hcount
  exact Bool.eq_false_iff.2 (hcount h hk)

/-- The owner has an owned copy. -/
theorem exists_owned (hh : Held own excl cur mem j H) (ho : own = some j) :
    ∃ h ∈ H, h.owned = true := by
  have hcount := hh.owner
  rw [if_pos ho] at hcount
  exact Multiset.countP_pos.1 (by omega)

/-- A cache with an owned copy is the owner. -/
theorem own_eq (hh : Held own excl cur mem j H) (hk : h ∈ H) (ho : h.owned) :
    own = some j := by
  by_contra hne
  rw [hh.not_owned hne hk] at ho
  cases ho

end Held

/-! ## Holdings of a party -/

section

variable {x : Bool} {p : Party ι L} {m : ResponseMsg ι L}

theorem Party.mem_holdings_view {h : Holding L} (hv : p.view.holding = some h) :
    h ∈ p.holdings x := by
  simp [holdings, hv]

theorem Party.mem_holdings_response {h : Holding L} (hm : m ∈ p.responses)
    (hh : m.holding x = some h) : h ∈ p.holdings x := by
  simp only [holdings, Multiset.mem_add, Multiset.mem_filterMap]
  exact .inl (.inr ⟨m, hm, hh⟩)

theorem Party.holdings_push (R : Multiset (ResponseMsg ι L)) :
    { p with responses := m ::ₘ R }.holdings x =
      bag (m.holding x) + { p with responses := R }.holdings x := by
  simp only [holdings, Multiset.filterMap_cons]
  cases m.holding x with
  | none => simp
  | some h =>
    simp only [bag_some, Option.map_some, Option.getD_some]
    ac_rfl

end

end Gem5Gpu.VIHammer
