import Gem5Gpu.Lib.Fallible

/-!
# Runs of a machine and their invariants

A machine is a step function that can fail: `step s e` is the state after the
event `e`, or the assertion that failed.  `run` folds it over a list of events,
and `Reach` is the set of states of all runs in which every step meets a
condition `ok`.  The condition is a predicate of the state before the step and
of the event, so it can say what the environment does and which branches of the
step are not taken.

`Reach.invariant` is the one induction that every safety theorem uses: a
predicate that holds at the start and that every step preserves holds in every
state reached.  `Reach.of_meets` connects it with explicit runs.

Nothing here mentions a program.
-/

namespace Gem5Gpu.Lib

variable {σ ε φ : Type} {es : List ε}

/-- Run a list of events. -/
def run (step : σ → ε → Except φ σ) : σ → List ε → Except φ σ
  | s, [] => .ok s
  | s, e :: es => do
    let s ← step s e
    run step s es

/-- The states of the runs from `s₀` whose steps all meet `ok`. -/
inductive Reach (step : σ → ε → Except φ σ) (ok : σ → ε → Prop)
    (s₀ : σ) : σ → Prop
  | start : Reach step ok s₀ s₀
  | next {s s' : σ} (e : ε) : Reach step ok s₀ s → ok s e →
      step s e = .ok s' → Reach step ok s₀ s'

variable {step : σ → ε → Except φ σ} {ok ok' : σ → ε → Prop} {s₀ s s' : σ}

/-- A predicate that holds at the start and that every allowed step preserves
holds in every state reached. -/
theorem Reach.invariant {I : σ → Prop} (h : Reach step ok s₀ s) (h₀ : I s₀)
    (hstep : ∀ s e, I s → ok s e → Post (step s e) (fun _ => True) I) :
    I s := by
  induction h with
  | start => exact h₀
  | next e _ hok hs ih => exact (hstep _ e ih hok).elim hs

/-- Every step of a run meets the condition. -/
def Meets (step : σ → ε → Except φ σ) (ok : σ → ε → Prop) : σ → List ε → Prop
  | _, [] => True
  | s, e :: es => ok s e ∧
    match step s e with
    | .ok s' => Meets step ok s' es
    | .error _ => True

instance Meets.decidable [∀ s e, Decidable (ok s e)] (s : σ) :
    (es : List ε) → Decidable (Meets step ok s es)
  | [] => .isTrue trivial
  | e :: es =>
    match hs : step s e with
    | .ok s' =>
      have := Meets.decidable s' es
      decidable_of_iff (ok s e ∧ Meets step ok s' es) (by simp [Meets, hs])
    | .error _ => decidable_of_iff (ok s e) (by simp [Meets, hs])

/-- A condition that the events of a run meet in every state. -/
theorem Meets.of_forall (h : ∀ e ∈ es, ∀ s, ok s e) : Meets step ok s es := by
  induction es generalizing s with
  | nil => trivial
  | cons e es ih =>
    refine ⟨h e List.mem_cons_self s, ?_⟩
    split
    · exact ih fun e he => h e (List.mem_cons_of_mem _ he)
    · trivial

/-- The condition may use which events the run has. -/
theorem Meets.imp {ok' : σ → ε → Prop} (h : Meets step ok s es)
    (himp : ∀ e ∈ es, ∀ s, ok s e → ok' s e) : Meets step ok' s es := by
  induction es generalizing s with
  | nil => trivial
  | cons e es ih =>
    obtain ⟨he, hes⟩ := h
    refine ⟨himp e List.mem_cons_self s he, ?_⟩
    split at hes
    · exact ih hes fun e he => himp e (List.mem_cons_of_mem _ he)
    · trivial

theorem Meets.and {ok' : σ → ε → Prop} (h : Meets step ok s es) (h' : Meets step ok' s es) :
    Meets step (fun s e => ok s e ∧ ok' s e) s es := by
  induction es generalizing s with
  | nil => trivial
  | cons e es ih =>
    refine ⟨⟨h.1, h'.1⟩, ?_⟩
    have hrest := h.2
    have hrest' := h'.2
    split
    · rename_i s' hs
      rw [hs] at hrest hrest'
      exact ih hrest hrest'
    · trivial

/-- The state of a run whose steps meet the condition is reached. -/
theorem Reach.of_meets (h : Reach step ok s₀ s)
    (hok : Meets step ok s es) (hrun : run step s es = .ok s') :
    Reach step ok s₀ s' := by
  induction es generalizing s with
  | nil =>
    cases hrun
    exact h
  | cons e es ih =>
    obtain ⟨s₁, hs, hrest⟩ := bind_eq_ok hrun
    obtain ⟨he, hes⟩ := hok
    rw [hs] at hes
    exact ih (.next e h he hs) hes hrest

/-- A run whose steps all use up work is no longer than the work at its start. -/
theorem Meets.length_le {I : σ → Prop} {work : σ → Nat} (hI : I s)
    (hstep : ∀ s e, I s → ok s e →
      Post (step s e) (fun _ => True) fun s' => I s' ∧ work s' < work s)
    (hok : Meets step ok s es) (hrun : run step s es = .ok s') :
    es.length + work s' ≤ work s := by
  induction es generalizing s with
  | nil =>
    cases hrun
    exact Nat.le_of_eq (Nat.zero_add _)
  | cons e es ih =>
    obtain ⟨s₁, hs, hrest⟩ := bind_eq_ok hrun
    obtain ⟨he, hes⟩ := hok
    rw [hs] at hes
    obtain ⟨hI₁, hlt⟩ := (hstep s e hI he).elim hs
    have hle := ih hI₁ hes hrest
    rw [List.length_cons]
    omega

end Gem5Gpu.Lib
