import Mathlib.Logic.Basic

/-!
# Postconditions of fallible code

A handler that can fail an assertion is a value of `Except ε α`.  `Post x E Q`
is its postcondition: a result satisfies `Q`, and a failure satisfies `E`.  With
`E := fun _ => True` it is partial correctness, and with `E := fun _ => False`
it says that no assertion fails.

The rules follow the shape of a `do` block.  `Post.bind` takes the first
statement and its rest, `Post.check` takes an assertion, and `Post.ite` takes a
branch.  `Post.elim` turns a finished proof into a fact about a run that ended
well.

Nothing here mentions a program.
-/

namespace Gem5Gpu.Lib

variable {ε α β : Type} {f : α → Except ε β} {e : ε} {c : Prop} {R : β → Prop}

/-- A result of `x` satisfies `Q`, and a failure of `x` satisfies `E`. -/
def Post (x : Except ε α) (E : ε → Prop) (Q : α → Prop) : Prop :=
  match x with
  | .ok a => Q a
  | .error e => E e

/-- An assertion: fail with `e` unless `c` holds. -/
def check (c : Prop) [Decidable c] (e : ε) : Except ε Unit :=
  if c then .ok () else .error e

variable {x : Except ε α} {E E' : ε → Prop} {P Q Q' : α → Prop}

@[simp] theorem post_ok (a : α) : Post (.ok a) E Q ↔ Q a := Iff.rfl

@[simp] theorem post_pure (a : α) : Post (pure a : Except ε α) E Q ↔ Q a := Iff.rfl

@[simp] theorem post_error (e : ε) : Post (.error e : Except ε α) E Q ↔ E e := Iff.rfl

/-- The two halves of a postcondition. -/
theorem post_iff : Post x E Q ↔ (∀ a, x = .ok a → Q a) ∧ ∀ e, x = .error e → E e := by
  cases x with
  | ok a | error e => simp

/-- A run that ended well satisfies the postcondition. -/
theorem Post.elim {a : α} (h : Post x E Q) (hx : x = .ok a) : Q a :=
  (post_iff.1 h).1 a hx

/-- A run that failed satisfies the failure condition. -/
theorem Post.elim_error (h : Post x E Q) (hx : x = .error e) : E e :=
  (post_iff.1 h).2 e hx

instance [DecidablePred E] [DecidablePred Q] : Decidable (Post x E Q) :=
  match x with
  | .ok a => inferInstanceAs (Decidable (Q a))
  | .error e => inferInstanceAs (Decidable (E e))

/-- A run that cannot fail has a result. -/
theorem Post.exists_ok (h : Post x (fun _ => False) Q) : ∃ a, x = .ok a ∧ Q a := by
  cases x with
  | ok a => exact ⟨a, rfl, h⟩
  | error e => exact False.elim h

/-- A run that cannot end well fails. -/
theorem Post.eq_error (h : Post x (· = e) fun _ => False) : x = .error e := by
  cases x with
  | ok a => exact False.elim h
  | error e' => exact congrArg _ h

/-- Partial correctness, from its meaning. -/
theorem post_of_forall (h : ∀ a, x = .ok a → Q a) : Post x (fun _ => True) Q :=
  post_iff.2 ⟨h, fun _ _ => trivial⟩

/-- The rule of consequence. -/
theorem Post.mono (h : Post x E P) (hQ : ∀ a, P a → Q a) (hE : ∀ e, E e → E' e) : Post x E' Q := by
  cases x with
  | ok a => exact hQ a h
  | error e => exact hE e h

/-- The rule of consequence for the result alone. -/
theorem Post.imp (h : Post x E P) (hQ : ∀ a, P a → Q a) : Post x E Q :=
  h.mono hQ fun _ he => he

/-- Two postconditions of one run. -/
theorem Post.and (h : Post x E P) (h' : Post x E' Q) :
    Post x (fun e => E e ∧ E' e) (fun a => P a ∧ Q a) := by
  cases x with
  | ok a | error e => exact ⟨h, h'⟩

/-- Two statements in a row.  The result of the first one is all that the
second one knows. -/
theorem Post.bind (hx : Post x E P) (hf : ∀ a, P a → Post (f a) E R) : Post (x >>= f) E R := by
  cases x with
  | ok a => exact hf a hx
  | error e => exact hx

/-- Two statements in a row, where the second one may look at how the first
one ended. -/
theorem Post.bind_eq (hE : ∀ e, x = .error e → E e)
    (hf : ∀ a, x = .ok a → Post (f a) E R) : Post (x >>= f) E R := by
  cases x with
  | ok a => exact hf a rfl
  | error e => exact hE e rfl

/-- A branch. -/
theorem Post.ite [Decidable c] {y : Except ε α} (ht : c → Post x E Q) (hf : ¬c → Post y E Q) :
    Post (if c then x else y) E Q := by
  by_cases hc : c
  · rw [if_pos hc]
    exact ht hc
  · rw [if_neg hc]
    exact hf hc

/-- An assertion and the code after it. -/
theorem Post.check [Decidable c] {f : Unit → Except ε β}
    (hf : c → Post (f ()) E R) (he : ¬c → E e) :
    Post (check c e >>= f) E R := by
  unfold Lib.check
  by_cases hc : c
  · rw [if_pos hc]
    exact hf hc
  · rw [if_neg hc]
    exact he hc

/-- An assertion that held leaves its condition behind. -/
theorem check_eq_ok [Decidable c] {u : Unit} (h : check c e = .ok u) : c := by
  unfold check at h
  by_cases hc : c
  · exact hc
  · rw [if_neg hc] at h
    cases h

/-- A statement that ended well hands its value on. -/
theorem ok_bind (a : α) (f : α → Except ε β) : (Except.ok a >>= f) = f a := rfl

/-- An assertion that holds is passed. -/
theorem check_bind [Decidable c] (hc : c) (f : Unit → Except ε β) : (check c e >>= f) = f () := by
  rw [check, if_pos hc, ok_bind]

/-- A sequence that ended well ran both of its halves. -/
theorem bind_eq_ok {b : β} (h : (x >>= f) = .ok b) : ∃ a, x = .ok a ∧ f a = .ok b := by
  cases x with
  | ok a => exact ⟨a, rfl, h⟩
  | error e => cases h

/-- A sequence that failed did so in one of its halves. -/
theorem bind_eq_error (h : (x >>= f) = .error e) :
    x = .error e ∨ ∃ a, x = .ok a ∧ f a = .error e := by
  cases x with
  | ok a => exact .inr ⟨a, rfl, h⟩
  | error e' =>
    cases h
    exact .inl rfl

/-- What comes after a part that cannot fail has no part in the failure. -/
theorem bind_ok_eq_error {g : α → β} (h : (x >>= fun a => .ok (g a)) = .error e) :
    x = .error e := by
  rcases bind_eq_error h with h | ⟨_, -, h⟩
  · exact h
  · cases h

/-- An assertion that failed names its fault. -/
theorem check_eq_error [Decidable c] {e e' : ε} (h : check c e = .error e') : e' = e ∧ ¬c := by
  unfold check at h
  by_cases hc : c
  · rw [if_pos hc] at h
    cases h
  · rw [if_neg hc] at h
    cases h
    exact ⟨rfl, hc⟩

end Gem5Gpu.Lib
