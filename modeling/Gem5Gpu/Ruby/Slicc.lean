import Mathlib.Data.List.Basic

/-!
# SLICC transition tables

A SLICC state machine is a list of transitions.  Each one names a set of states,
a set of events, the actions that run in order, and the state that the block is
left in.  `Transition` is one such declaration and `lookup` is the switch that
the compiler builds from them: the declarations of a machine do not overlap, so
the first one that matches is the only one.
-/

namespace Gem5Gpu.Ruby

/-- A `transition` declaration.  `next` is absent when the state stays. -/
structure Transition (S E A : Type) where
  states : List S
  events : List E
  next : Option S
  actions : List A
  deriving DecidableEq

variable {S E A : Type} [DecidableEq S] [DecidableEq E]

namespace Transition

/-- The declaration covers an event in a state. -/
def Covers (t : Transition S E A) (s : S) (e : E) : Prop :=
  s ∈ t.states ∧ e ∈ t.events

instance (t : Transition S E A) (s : S) (e : E) : Decidable (t.Covers s e) :=
  inferInstanceAs (Decidable (_ ∧ _))

/-- `doTransitionWorker`: the declaration for an event in a state.  There may be
none, and the controller then panics. -/
def lookup (ts : List (Transition S E A)) (s : S) (e : E) : Option (Transition S E A) :=
  ts.find? fun t => decide (t.Covers s e)

theorem lookup_mem {ts : List (Transition S E A)} {s : S} {e : E}
    {t : Transition S E A} (h : lookup ts s e = some t) : t ∈ ts ∧ t.Covers s e := by
  refine ⟨List.mem_of_find?_eq_some h, ?_⟩
  simpa using List.find?_some h

/-- The state that the block is left in. -/
def target (t : Transition S E A) (s : S) : S := t.next.getD s

end Transition

end Gem5Gpu.Ruby
