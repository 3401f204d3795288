import Mathlib.Algebra.Group.Basic
import Mathlib.Algebra.BigOperators.Group.List.Basic
import Mathlib.Tactic.Abel

/-!
# Counters reported by their increments

Something that has a counter is looked at again and again; each time it is there, what is reported is
the counter less what it was the last time, or less nothing when it was not there then. The sum of the
reports is the last count of each of its lives, a life being a stretch of looks at which it was there.
-/

namespace Xmq.Deltas

variable {α : Type*}

/-- The reports, from the look before the first one. -/
def deltas [Sub α] [Zero α] : Option α → List (Option α) → List α
  | _, [] => []
  | _, none :: looks => deltas none looks
  | last, some v :: looks => (v - last.getD 0) :: deltas (some v) looks

/-- The last count of every life. -/
def lives : Option α → List (Option α) → List α
  | last, [] => last.toList
  | last, none :: looks => last.toList ++ lives none looks
  | _, some v :: looks => lives (some v) looks

section Equations

variable (last : Option α) (v : α) (looks : List (Option α))

theorem deltas_cons_none [Sub α] [Zero α] : deltas last (none :: looks) = deltas none looks := rfl

theorem deltas_cons_some [Sub α] [Zero α] :
    deltas last (some v :: looks) = (v - last.getD 0) :: deltas (some v) looks := rfl

theorem lives_cons_none : lives last (none :: looks) = last.toList ++ lives none looks := rfl

theorem lives_cons_some : lives last (some v :: looks) = lives (some v) looks := rfl

end Equations

/-- **The reports add up** to the last counts of the lives, less what was known before. -/
theorem sum_deltas [AddCommGroup α] (last : Option α) (looks : List (Option α)) :
    (deltas last looks).sum + last.getD 0 = (lives last looks).sum := by
  induction looks generalizing last with
  | nil => cases last with
    | none => exact add_zero _
    | some v => exact (zero_add v).trans (List.sum_singleton).symm
  | cons look looks ih =>
      cases look with
      | none =>
          have h := ih none
          rw [Option.getD_none, add_zero] at h
          rw [deltas_cons_none, lives_cons_none, List.sum_append, ← h]
          cases last with
          | none => simp
          | some v => simp [add_comm]
      | some v =>
          have h := ih (some v)
          rw [Option.getD_some] at h
          rw [deltas_cons_some, lives_cons_some, List.sum_cons, ← h]
          abel

theorem sum_deltas_none [AddCommGroup α] (looks : List (Option α)) :
    (deltas none looks).sum = (lives none looks).sum := by
  rw [← sum_deltas, Option.getD_none, add_zero]

theorem lives_map {β : Type*} (f : α → β) (last : Option α) (looks : List (Option α)) :
    lives (last.map f) (looks.map (Option.map f)) = (lives last looks).map f := by
  induction looks generalizing last with
  | nil => cases last <;> rfl
  | cons look looks ih =>
      cases look with
      | none =>
          rw [List.map_cons, Option.map_none, lives_cons_none, lives_cons_none, List.map_append,
            ← ih none]
          cases last <;> rfl
      | some v =>
          rw [List.map_cons, Option.map_some, lives_cons_some, lives_cons_some, ← ih (some v)]
          rfl

/-- The reports in other numbers, where differences of the counts that occur are the same there. -/
theorem deltas_map {β : Type*} [Sub α] [Zero α] [Sub β] [Zero β] {f g : α → β} {P : α → Prop}
    (hzero : f 0 = 0) (hP : P 0) (hsub : ∀ v u, P v → P u → g (v - u) = f v - f u) (last : Option α)
    (looks : List (Option α)) (hlast : ∀ u ∈ last, P u) (hlooks : ∀ look ∈ looks, ∀ v ∈ look, P v) :
    (deltas last looks).map g = deltas (last.map f) (looks.map (Option.map f)) := by
  induction looks generalizing last with
  | nil => rfl
  | cons look looks ih =>
      have hrest := fun l hl => hlooks l (List.mem_cons_of_mem look hl)
      cases look with
      | none =>
          rw [deltas_cons_none, List.map_cons, Option.map_none, deltas_cons_none]
          exact ih none (fun u hu => (by cases hu)) hrest
      | some v =>
          have hv : P v := hlooks _ List.mem_cons_self v rfl
          have htail := ih (some v) (fun u hu => by cases hu; exact hv) hrest
          rw [deltas_cons_some, List.map_cons, htail, List.map_cons, Option.map_some,
            deltas_cons_some]
          cases last with
          | none =>
              rw [Option.map_none, Option.getD_none, Option.getD_none, hsub v 0 hv hP, hzero]
          | some u =>
              rw [Option.map_some, Option.getD_some, Option.getD_some, hsub v u hv (hlast u rfl)]

end Xmq.Deltas
