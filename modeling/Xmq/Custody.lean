import Mathlib.Algebra.BigOperators.Group.List.Basic
import Mathlib.Algebra.Order.Group.Multiset
import Mathlib.Data.Multiset.AddSub
import Mathlib.Data.Multiset.Range
import Mathlib.Tactic.Abel

/-!
# Who holds what

Items are handed from one place to another: each element of a list of places holds some of them.
What all of them hold together changes by what the one place that changes held before and holds now;
it may be counted in any commutative monoid.

Every item has a number. The items that were ever given out are those below a bound, and where an
account of them is `Multiset.range`, each of them is in exactly one place.
-/

namespace Xmq.Custody

variable {α M : Type*} [AddCommMonoid M]

/-- What the places of the list hold together. -/
def held (f : α → M) (l : List α) : M := (l.map f).sum

variable {f : α → M} {l : List α} {k : ℕ} {a : α}

@[simp] theorem held_nil : held f [] = 0 := rfl

@[simp] theorem held_cons : held f (a :: l) = f a + held f l := by
  simp [held]

@[simp] theorem held_append (l₁ l₂ : List α) : held f (l₁ ++ l₂) = held f l₁ + held f l₂ := by
  simp [held]

theorem held_set (h : l[k]? = some a) (b : α) : held f (l.set k b) + f a = held f l + f b := by
  induction l generalizing k with
  | nil => simp at h
  | cons c l ih =>
      cases k with
      | zero =>
          simp only [List.getElem?_cons_zero, Option.some.injEq] at h
          simp only [List.set_cons_zero, held_cons, h]
          abel
      | succ k =>
          simp only [List.getElem?_cons_succ] at h
          simp only [List.set_cons_succ, held_cons, add_assoc, ih h]

theorem held_eraseIdx (h : l[k]? = some a) : held f l = f a + held f (l.eraseIdx k) := by
  induction l generalizing k with
  | nil => simp at h
  | cons c l ih =>
      cases k with
      | zero =>
          simp only [List.getElem?_cons_zero, Option.some.injEq] at h
          simp only [List.eraseIdx_cons_zero, held_cons, h]
      | succ k =>
          simp only [List.getElem?_cons_succ] at h
          simp only [List.eraseIdx_cons_succ, held_cons, ih h]
          abel

theorem held_eq_zero (h : ∀ a ∈ l, f a = 0) : held f l = 0 := by
  induction l with
  | nil => rfl
  | cons c l ih =>
      obtain ⟨hc, hl⟩ := List.forall_mem_cons.mp h
      rw [held_cons, hc, ih hl, add_zero]

/-- Places with one item each. -/
theorem held_singleton {τ : Type*} (g : α → τ) (l : List α) :
    held (fun a => ({g a} : Multiset τ)) l = (l.map g : Multiset τ) := by
  induction l with
  | nil => rfl
  | cons a l ih =>
      rw [held_cons, ih]
      rfl

section Members

variable {P : α → Prop} {b : α}

theorem or_mem_self : ∀ a ∈ l, a ∈ l ∨ P a := fun _ ha => .inl ha

theorem or_mem_set (hb : P b) : ∀ a ∈ l.set k b, a ∈ l ∨ P a := by
  intro a ha
  rcases List.mem_or_eq_of_mem_set ha with ha | rfl
  · exact .inl ha
  · exact .inr hb

theorem or_mem_concat (hb : P b) : ∀ a ∈ l ++ [b], a ∈ l ∨ P a := by
  intro a ha
  rcases List.mem_append.mp ha with ha | ha
  · exact .inl ha
  · rw [List.mem_singleton.mp ha]
    exact .inr hb

end Members

/-! ### Accounts -/

variable {m : Multiset ℕ} {n i : ℕ}

theorem range_succ_of_eq (h : m = Multiset.range n) : n ::ₘ m = Multiset.range (n + 1) := by
  rw [h, Multiset.range_succ]

theorem range_succ_of_le (h : m ≤ Multiset.range n) : n ::ₘ m ≤ Multiset.range (n + 1) := by
  rw [Multiset.range_succ]
  exact Multiset.cons_le_cons n h

theorem nodup_of_le_range (h : m ≤ Multiset.range n) : m.Nodup :=
  Multiset.nodup_of_le h (Multiset.nodup_range n)

theorem lt_of_le_range (h : m ≤ Multiset.range n) (hi : i ∈ m) : i < n :=
  Multiset.mem_range.mp (Multiset.mem_of_le h hi)

end Xmq.Custody
