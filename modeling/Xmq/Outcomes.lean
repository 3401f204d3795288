import Mathlib.Data.Nat.Notation

/-!
# Loops and what a program can lead to

`for { … }` has no condition: a round goes on with a new state or leaves with a result. `forever` is
such a loop of a function and `iterate` one of a program; both have no result before a round leaves.

A program with a state either returns or ends before, and has a state in both cases. `Outcome` says
what is known of the one and of the other. Its rules follow the program: one for each way to make a
program of smaller ones, and one for a loop, with the invariant of its rounds.
-/

namespace Xmq.Outcomes

/-! ### Loops -/

section Loops

variable {σ τ : Type*} {body : σ → σ ⊕ τ} {s s' : σ} {t : τ} {n : ℕ}

/-- At most `n` rounds. -/
def forever (body : σ → σ ⊕ τ) : ℕ → σ → Option τ
  | 0, _ => none
  | n + 1, s =>
    match body s with
    | .inl s' => forever body n s'
    | .inr t => some t

theorem forever_inl (h : body s = .inl s') : forever body (n + 1) s = forever body n s' := by
  rw [forever, h]

theorem forever_inr (h : body s = .inr t) : forever body (n + 1) s = some t := by
  rw [forever, h]

end Loops

/-! ### Programs -/

variable {ε σ α β γ : Type} {x : EStateM ε σ α} {s t : σ} {a : α} {e : ε}
variable {Q R : α → σ → Prop} {E F : ε → σ → Prop}

/-- From `s` the program returns with `Q`, or it ends with `E`. -/
def Outcome (x : EStateM ε σ α) (s : σ) (Q : α → σ → Prop) (E : ε → σ → Prop) : Prop :=
  match x s with
  | .ok a t => Q a t
  | .error e t => E e t

/-- Go round until a round leaves with a result; `out` is the end of a program that goes round for
the `n`-th time. -/
def iterate (out : ε) (body : β → EStateM ε σ (β ⊕ γ)) : ℕ → β → EStateM ε σ γ
  | 0, _ => throw out
  | n + 1, b => do
    match ← body b with
    | .inl b => iterate out body n b
    | .inr c => pure c

namespace Outcome

theorem ok (h : Outcome x s Q E) (hx : x s = .ok a t) : Q a t := by
  rwa [Outcome, hx] at h

theorem error (h : Outcome x s Q E) (hx : x s = .error e t) : E e t := by
  rwa [Outcome, hx] at h

theorem mono (h : Outcome x s Q E) (hQ : ∀ a t, Q a t → R a t) (hE : ∀ e t, E e t → F e t) :
    Outcome x s R F := by
  cases hx : x s with
  | ok a t =>
      rw [Outcome, hx]
      exact hQ a t (h.ok hx)
  | error e t =>
      rw [Outcome, hx]
      exact hE e t (h.error hx)

theorem returns (h : Outcome x s Q E) (hQ : ∀ a t, Q a t → R a t) : Outcome x s R E :=
  h.mono hQ fun _ _ h => h

theorem of_pure (h : Q a s) : Outcome (pure a) s Q E := h

theorem of_modify {g : σ → σ} {Q : PUnit → σ → Prop} (h : Q .unit (g s)) :
    Outcome (modify g) s Q E := h

theorem bind {f : α → EStateM ε σ β} {Q : β → σ → Prop} (h : Outcome x s R E)
    (hf : ∀ a t, R a t → Outcome (f a) t Q E) : Outcome (x >>= f) s Q E := by
  show (match EStateM.bind x f s with
    | .ok b t => Q b t
    | .error e t => E e t)
  cases hx : x s with
  | ok a t =>
      rw [EStateM.bind, hx]
      exact hf a t (h.ok hx)
  | error e t =>
      rw [EStateM.bind, hx]
      exact h.error hx

theorem of_get_bind {f : σ → EStateM ε σ β} {Q : β → σ → Prop} (h : Outcome (f s) s Q E) :
    Outcome (get >>= f) s Q E := h

theorem of_modify_bind {g : σ → σ} {f : PUnit → EStateM ε σ β} {Q : β → σ → Prop}
    (h : Outcome (f .unit) (g s) Q E) : Outcome (modify g >>= f) s Q E := h

/-- **The rule of the loop.** -/
theorem loop {body : β → EStateM ε σ (β ⊕ γ)} {out : ε} {I : β → σ → Prop} {Q : γ → σ → Prop}
    (hbody : ∀ b s, I b s → Outcome (body b) s (fun r t => r.elim (I · t) (Q · t)) E)
    (hout : ∀ b s, I b s → E out s) {n : ℕ} {b : β} (h : I b s) :
    Outcome (iterate out body n b) s Q E := by
  induction n generalizing b s with
  | zero => exact hout b s h
  | succ n ih =>
      refine bind (hbody b s h) fun r t hr => ?_
      cases r with
      | inl b' => exact ih hr
      | inr c => exact hr

end Outcome

end Xmq.Outcomes
