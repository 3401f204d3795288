import Mathlib.Logic.Basic

/-!
# Handlers

A handler works on a state and returns a value or fails; a failure leaves a state, too. `Ensures` is
the weakest precondition of a handler for a postcondition of its values and one of its failures. The
rules take a handler apart at its binds, so that a proof follows the text of the handler.

`Keeps` is for an invariant, and `Preserves` for what a handler never does: whatever its state and
however it ends, the state after it is related to the one before.
-/

namespace Xmq

/-- The handler, run on `s`, returns a value of `Q` or fails with one of `E`. -/
def Ensures {ε σ α : Type} (m : EStateM ε σ α) (s : σ) (Q : α → σ → Prop) (E : ε → σ → Prop) :
    Prop :=
  match m s with
  | .ok a t => Q a t
  | .error e t => E e t

/-- Fail if the condition holds. -/
def rejectIf {ε σ : Type} (p : Prop) [Decidable p] (e : ε) : EStateM ε σ PUnit :=
  if p then throw e else pure ⟨⟩

section Rules

variable {ε σ : Type} {α β : Type} {s : σ} {E E' : ε → σ → Prop}

@[simp] theorem ensures_pure {a : α} {Q : α → σ → Prop} :
    Ensures (pure a : EStateM ε σ α) s Q E ↔ Q a s := Iff.rfl

@[simp] theorem ensures_throw {e : ε} {Q : α → σ → Prop} :
    Ensures (throw e : EStateM ε σ α) s Q E ↔ E e s := Iff.rfl

@[simp] theorem ensures_get {Q : σ → σ → Prop} :
    Ensures (get : EStateM ε σ σ) s Q E ↔ Q s s := Iff.rfl

@[simp] theorem ensures_modify {f : σ → σ} {Q : PUnit → σ → Prop} :
    Ensures (modify f : EStateM ε σ PUnit) s Q E ↔ Q ⟨⟩ (f s) := Iff.rfl

@[simp] theorem ensures_bind {m : EStateM ε σ α} {f : α → EStateM ε σ β} {Q : β → σ → Prop} :
    Ensures (m >>= f) s Q E ↔ Ensures m s (fun a t => Ensures (f a) t Q E) E := by
  unfold Ensures
  simp only [bind, EStateM.bind]
  cases m s <;> rfl

@[simp] theorem ensures_rejectIf {p : Prop} [Decidable p] {e : ε} {Q : PUnit → σ → Prop} :
    Ensures (rejectIf p e : EStateM ε σ PUnit) s Q E ↔ (p → E e s) ∧ (¬ p → Q ⟨⟩ s) := by
  unfold rejectIf
  by_cases hp : p
  · rw [if_pos hp, ensures_throw]
    exact ⟨fun h => ⟨fun _ => h, fun hn => absurd hp hn⟩, fun h => h.1 hp⟩
  · rw [if_neg hp, ensures_pure]
    exact ⟨fun h => ⟨fun hn => absurd hn hp, fun _ => h⟩, fun h => h.2 hp⟩

theorem ensures_ite {p : Prop} [Decidable p] {m m' : EStateM ε σ α} {Q : α → σ → Prop} :
    Ensures (if p then m else m') s Q E ↔ (p → Ensures m s Q E) ∧ (¬ p → Ensures m' s Q E) := by
  by_cases hp : p
  · rw [if_pos hp]
    exact ⟨fun h => ⟨fun _ => h, fun hn => absurd hp hn⟩, fun h => h.1 hp⟩
  · rw [if_neg hp]
    exact ⟨fun h => ⟨fun hn => absurd hn hp, fun _ => h⟩, fun h => h.2 hp⟩

theorem Ensures.imp {m : EStateM ε σ α} {Q Q' : α → σ → Prop} (h : Ensures m s Q E)
    (hQ : ∀ a t, Q a t → Q' a t) (hE : ∀ e t, E e t → E' e t) : Ensures m s Q' E' := by
  unfold Ensures at h ⊢
  cases hm : m s with
  | ok a t =>
      rw [hm] at h
      exact hQ a t h
  | error e t =>
      rw [hm] at h
      exact hE e t h

theorem Ensures.ok {m : EStateM ε σ α} {Q : α → σ → Prop} (h : Ensures m s Q E) {a : α} {t : σ}
    (hm : m s = .ok a t) : Q a t := by
  unfold Ensures at h
  rwa [hm] at h

theorem Ensures.error {m : EStateM ε σ α} {Q : α → σ → Prop} (h : Ensures m s Q E) {e : ε} {t : σ}
    (hm : m s = .error e t) : E e t := by
  unfold Ensures at h
  rwa [hm] at h

/-- What cannot fail returns. -/
theorem Ensures.exists_ok {m : EStateM ε σ α} {Q : α → σ → Prop}
    (h : Ensures m s Q fun _ _ => False) : ∃ a t, m s = .ok a t ∧ Q a t := by
  cases hm : m s with
  | ok a t => exact ⟨a, t, rfl, h.ok hm⟩
  | error e t => exact (h.error hm).elim

end Rules

/-! ### Frames -/

/-- However it ends, the handler leaves a related state, and it fails only as `E` allows. -/
def Preserves {ε σ α : Type} (R : σ → σ → Prop) (E : ε → Prop) (m : EStateM ε σ α) : Prop :=
  ∀ s, Ensures m s (fun _ t => R s t) fun e t => E e ∧ R s t

section Frames

variable {ε σ : Type} {α β : Type} {R : σ → σ → Prop} {E : ε → Prop}

theorem preserves_pure (hrefl : ∀ s, R s s) (a : α) : Preserves R E (pure a : EStateM ε σ α) :=
  fun s => hrefl s

theorem preserves_throw (hrefl : ∀ s, R s s) {e : ε} (he : E e) :
    Preserves R E (throw e : EStateM ε σ α) :=
  fun s => ⟨he, hrefl s⟩

theorem preserves_get (hrefl : ∀ s, R s s) : Preserves R E (get : EStateM ε σ σ) :=
  fun s => hrefl s

theorem preserves_modify {f : σ → σ} (hf : ∀ s, R s (f s)) :
    Preserves R E (modify f : EStateM ε σ PUnit) :=
  fun s => hf s

theorem preserves_rejectIf (hrefl : ∀ s, R s s) {p : Prop} [Decidable p] {e : ε} (he : E e) :
    Preserves R E (rejectIf p e : EStateM ε σ PUnit) :=
  fun s => ensures_rejectIf.mpr ⟨fun _ => ⟨he, hrefl s⟩, fun _ => hrefl s⟩

theorem preserves_ite {p : Prop} [Decidable p] {m m' : EStateM ε σ α} (h : Preserves R E m)
    (h' : Preserves R E m') : Preserves R E (if p then m else m') :=
  fun s => ensures_ite.mpr ⟨fun _ => h s, fun _ => h' s⟩

theorem preserves_bind (htrans : ∀ s t u, R s t → R t u → R s u) {m : EStateM ε σ α}
    {f : α → EStateM ε σ β} (hm : Preserves R E m) (hf : ∀ a, Preserves R E (f a)) :
    Preserves R E (m >>= f) := by
  intro s
  rw [ensures_bind]
  refine (hm s).imp (fun a t ht => ?_) fun _ _ h => h
  exact (hf a t).imp (fun _ u h => htrans s t u ht h) fun _ u h => ⟨h.1, htrans s t u ht h.2⟩

theorem Preserves.mono {R' : σ → σ → Prop} {E' : ε → Prop} {m : EStateM ε σ α}
    (h : Preserves R E m) (hR : ∀ s t, R s t → R' s t) (hE : ∀ e, E e → E' e) :
    Preserves R' E' m :=
  fun s => (h s).imp (fun _ t ht => hR s t ht) fun e t ht => ⟨hE e ht.1, hR s t ht.2⟩

/-- A loop preserves what each of its rounds preserves. -/
theorem preserves_forM (hrefl : ∀ s, R s s) (htrans : ∀ s t u, R s t → R t u → R s u)
    {ι : Type} {f : ι → EStateM ε σ PUnit} {l : List ι} (hf : ∀ a ∈ l, Preserves R E (f a)) :
    Preserves R E (l.forM f) := by
  induction l with
  | nil => exact preserves_pure hrefl _
  | cons a l ih =>
      have htail := ih fun b hb => hf b (List.mem_cons_of_mem _ hb)
      exact preserves_bind htrans (hf a List.mem_cons_self) fun _ => htail

end Frames

/-! ### Invariants -/

/-- However it ends, the handler keeps the invariant, and it fails only as `E` allows. -/
def Keeps {ε σ α : Type} (I : σ → Prop) (E : ε → Prop) (m : EStateM ε σ α) : Prop :=
  ∀ s, I s → Ensures m s (fun _ t => I t) fun e t => E e ∧ I t

section Invariants

variable {ε σ : Type} {α β : Type} {I : σ → Prop} {E : ε → Prop}

theorem keeps_pure (a : α) : Keeps I E (pure a : EStateM ε σ α) := fun _ hs => hs

theorem keeps_throw {e : ε} (he : E e) : Keeps I E (throw e : EStateM ε σ α) :=
  fun _ hs => ⟨he, hs⟩

theorem keeps_get : Keeps I E (get : EStateM ε σ σ) := fun _ hs => hs

theorem keeps_modify {f : σ → σ} (hf : ∀ s, I s → I (f s)) :
    Keeps I E (modify f : EStateM ε σ PUnit) :=
  fun s hs => hf s hs

theorem keeps_rejectIf {p : Prop} [Decidable p] {e : ε} (he : E e) :
    Keeps I E (rejectIf p e : EStateM ε σ PUnit) :=
  fun _ hs => ensures_rejectIf.mpr ⟨fun _ => ⟨he, hs⟩, fun _ => hs⟩

theorem keeps_bind {m : EStateM ε σ α} {f : α → EStateM ε σ β} (hm : Keeps I E m)
    (hf : ∀ a, Keeps I E (f a)) : Keeps I E (m >>= f) := by
  intro s hs
  rw [ensures_bind]
  exact (hm s hs).imp (fun a t ht => hf a t ht) fun _ _ h => h

theorem keeps_ite {p : Prop} [Decidable p] {m m' : EStateM ε σ α} (h : Keeps I E m)
    (h' : Keeps I E m') : Keeps I E (if p then m else m') :=
  fun s hs => ensures_ite.mpr ⟨fun _ => h s hs, fun _ => h' s hs⟩

/-- What a frame leaves alone is kept. -/
theorem Preserves.keeps {R : σ → σ → Prop} {m : EStateM ε σ α} (h : Preserves R E m)
    (hR : ∀ s t, R s t → I s → I t) : Keeps I E m :=
  fun s hs => (h s).imp (fun _ t ht => hR s t ht hs) fun _ t ht => ⟨ht.1, hR s t ht.2 hs⟩

end Invariants

end Xmq
