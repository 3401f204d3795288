import Mathlib.Data.List.Basic

/-!
# Runs of a partial step function

A machine is a function `step : σ → α → Option σ`: the act `a` is possible in the state `s` when
`step s a` is `some`, and leaves the state it holds. `run` takes a list of acts in order, `Along`
says that a condition on the state before each act and on the act holds all along a run, and the
rules below carry an invariant from one step to a whole run.
-/

namespace Xmq.Runs

variable {σ α : Type*}

/-- Take the acts in order; `none` as soon as one of them is not possible where it comes. -/
def run (step : σ → α → Option σ) : σ → List α → Option σ
  | s, [] => some s
  | s, a :: as =>
    match step s a with
    | some t => run step t as
    | none => none

/-- The condition `good` holds of every act of the run, in the state the act is taken from. -/
def Along (step : σ → α → Option σ) (good : σ → α → Prop) : σ → List α → Prop
  | _, [] => True
  | s, a :: as => good s a ∧
    match step s a with
    | some t => Along step good t as
    | none => True

instance (step : σ → α → Option σ) (good : σ → α → Prop) [∀ s a, Decidable (good s a)] :
    ∀ (s : σ) (as : List α), Decidable (Along step good s as)
  | _, [] => inferInstanceAs (Decidable True)
  | s, a :: as =>
    match h : step s a with
    | some t =>
      haveI := instDecidableAlong step good t as
      decidable_of_iff (good s a ∧ Along step good t as) (by rw [Along, h])
    | none => decidable_of_iff (good s a) (by rw [Along, h, and_true])

variable {step : σ → α → Option σ} {good : σ → α → Prop} {s t : σ}

@[simp] theorem run_nil : run step s [] = some s := rfl

theorem run_cons (a : α) (as : List α) (u : σ) (h : step s a = some t) :
    run step s (a :: as) = some u ↔ run step t as = some u := by
  rw [run, h]

theorem run_cons_elim {a : α} {as : List α} {u : σ} (h : run step s (a :: as) = some u) :
    ∃ t, step s a = some t ∧ run step t as = some u := by
  rw [run] at h
  split at h
  · rename_i t ht
    exact ⟨t, ht, h⟩
  · cases h

theorem run_append (as bs : List α) :
    run step s (as ++ bs) = (run step s as).bind fun t => run step t bs := by
  induction as generalizing s with
  | nil => rfl
  | cons a as ih =>
      simp only [List.cons_append, run]
      split
      · exact ih
      · rfl

/-- Where the state after a run can be tested, a test of it is a proof about the run. -/
theorem exists_of_run (step : σ → α → Option σ) (s : σ) (as : List α) (P : σ → Prop)
    [DecidablePred P]
    (h : (run step s as).any (fun t => decide (P t)) = true) : ∃ t, run step s as = some t ∧ P t := by
  cases hr : run step s as with
  | none =>
      rw [hr] at h
      cases h
  | some t =>
      rw [hr] at h
      exact ⟨t, rfl, of_decide_eq_true h⟩

theorem Along.head {a : α} {as : List α} (h : Along step good s (a :: as)) : good s a := h.1

theorem Along.tail {a : α} {as : List α} (h : Along step good s (a :: as)) (ht : step s a = some t) :
    Along step good t as := by
  have h2 := h.2
  rwa [ht] at h2

theorem along_true (as : List α) : Along step (fun _ _ => True) s as := by
  induction as generalizing s with
  | nil => trivial
  | cons a as ih =>
      refine ⟨trivial, ?_⟩
      split
      · exact ih
      · trivial

theorem along_of_forall {P : α → Prop} (as : List α) (h : ∀ a ∈ as, P a) :
    Along step (fun _ a => P a) s as := by
  induction as generalizing s with
  | nil => trivial
  | cons a as ih =>
      obtain ⟨ha, has⟩ := List.forall_mem_cons.mp h
      refine ⟨ha, ?_⟩
      split
      · exact ih has
      · trivial

theorem Along.append {l k : List α} (h : Along step good s (l ++ k))
    (ht : run step s l = some t) : Along step good t k := by
  induction l generalizing s with
  | nil =>
      cases ht
      exact h
  | cons a as ih =>
      obtain ⟨u, hu, ht⟩ := run_cons_elim ht
      exact ih (h.tail hu) ht

theorem Along.left {as bs : List α} (h : Along step good s (as ++ bs)) : Along step good s as := by
  induction as generalizing s with
  | nil => trivial
  | cons a as ih =>
      refine ⟨h.head, ?_⟩
      split
      · rename_i u hu
        exact ih (h.tail hu)
      · trivial

/-- A condition that keeps an invariant and, under it, gives another condition gives it along the
whole run. -/
theorem along_imp {good' : σ → α → Prop} {I : σ → Prop}
    (hstep : ∀ s a t, I s → good s a → step s a = some t → I t)
    (hgood : ∀ s a, I s → good s a → good' s a) :
    ∀ (as : List α) (s : σ), I s → Along step good s as → Along step good' s as := by
  intro as
  induction as with
  | nil =>
      intro s _ _
      trivial
  | cons a as ih =>
      intro s hs h
      refine ⟨hgood s a hs h.head, ?_⟩
      split
      · rename_i t ht
        exact ih t (hstep s a t hs h.head ht) (h.tail ht)
      · trivial

/-- Conditions that are the same in every state of an invariant are the same along a run. -/
theorem along_congr {good' : σ → α → Prop} {I : σ → Prop}
    (hstep : ∀ s a t, I s → step s a = some t → I t) (hgood : ∀ s a, I s → (good s a ↔ good' s a))
    (as : List α) (s : σ) (hs : I s) : Along step good s as ↔ Along step good' s as :=
  ⟨along_imp (fun s a t hs _ => hstep s a t hs) (fun s a hs => (hgood s a hs).mp) as s hs,
    along_imp (fun s a t hs _ => hstep s a t hs) (fun s a hs => (hgood s a hs).mpr) as s hs⟩

/-- **The invariant rule.** What every good step keeps, every good run keeps. -/
theorem invariant_along {I : σ → Prop}
    (hstep : ∀ s a t, I s → good s a → step s a = some t → I t) :
    ∀ (as : List α) (s t : σ), I s → Along step good s as → run step s as = some t → I t := by
  intro as
  induction as with
  | nil =>
      intro s t hs _ hr
      cases hr
      exact hs
  | cons a as ih =>
      intro s t hs hg hr
      obtain ⟨u, hu, hr⟩ := run_cons_elim hr
      exact ih u t (hstep s a u hs hg.head hu) (hg.tail hu) hr

/-- The invariant rule for runs without a condition. -/
theorem invariant_run {I : σ → Prop} (hstep : ∀ s a t, I s → step s a = some t → I t)
    (as : List α) (s t : σ) (hs : I s) (hr : run step s as = some t) : I t :=
  invariant_along (fun s a t hi _ => hstep s a t hi) as s t hs (along_true as) hr

/-- **The progress rule.** Where every good act is possible under an invariant and keeps it, every good
run goes through. -/
theorem progress_along {I : σ → Prop}
    (hstep : ∀ s a, I s → good s a → ∃ t, step s a = some t ∧ I t) :
    ∀ (as : List α) (s : σ), I s → Along step good s as → ∃ t, run step s as = some t ∧ I t := by
  intro as
  induction as with
  | nil =>
      intro s hs _
      exact ⟨s, rfl, hs⟩
  | cons a as ih =>
      intro s hs h
      obtain ⟨t, ht, hinv⟩ := hstep s a hs h.head
      obtain ⟨u, hu, hend⟩ := ih t hinv (h.tail ht)
      exact ⟨u, (run_cons a as u ht).mpr hu, hend⟩

/-- **The rule of the measure.** A run of acts that make a measure smaller is not longer than the
measure was. -/
theorem length_le_of_decreases {P : α → Prop} {m : σ → ℕ}
    (hstep : ∀ s a t, P a → step s a = some t → m t < m s) (as : List α) {s t : σ}
    (hP : ∀ a ∈ as, P a) (h : run step s as = some t) : as.length + m t ≤ m s := by
  induction as generalizing s with
  | nil =>
      cases h
      exact Nat.le_of_eq (Nat.zero_add _)
  | cons a as ih =>
      obtain ⟨u, hu, hrun⟩ := run_cons_elim h
      obtain ⟨ha, has⟩ := List.forall_mem_cons.mp hP
      have hlt := hstep s a u ha hu
      have hle := ih has hrun
      rw [List.length_cons]
      omega

/-- **The rule of the prefix.** A loop goes through when each of its rounds does, from what the
rounds before it leave. -/
theorem foldlM_prefix (I : List α → σ → Prop) (as : List α)
    (hstep : ∀ before a after s, as = before ++ a :: after → I before s →
      ∃ t, step s a = some t ∧ I (before ++ [a]) t) {s : σ} (h : I [] s) :
    ∃ t, as.foldlM step s = some t ∧ I as t := by
  have hrest : ∀ (rest before : List α) (s : σ), as = before ++ rest → I before s →
      ∃ t, rest.foldlM step s = some t ∧ I as t := by
    intro rest
    induction rest with
    | nil =>
        intro before s has hs
        rw [List.append_nil] at has
        exact ⟨s, rfl, has ▸ hs⟩
    | cons a rest ih =>
        intro before s has hs
        obtain ⟨t, ht, hinv⟩ := hstep before a rest s has hs
        rw [List.foldlM_cons, ht]
        exact ih (before ++ [a]) t (by rw [has, List.append_assoc, List.singleton_append]) hinv
  exact hrest as [] s rfl h

/-! ### The last act that matters -/

/-- The last of the acts that `matters` names, or that `sets` names, is one of the latter. -/
def LastSets (matters sets : α → Prop) (as : List α) : Prop :=
  ∃ before a after, as = before ++ a :: after ∧ sets a ∧ ∀ b ∈ after, ¬ matters b

theorem not_lastSets_nil (matters sets : α → Prop) : ¬ LastSets matters sets [] := by
  rintro ⟨before, a, after, h, -⟩
  exact List.append_ne_nil_of_right_ne_nil before (List.cons_ne_nil a after) h.symm

/-- The last act sets, or it does not matter and the acts before it did. -/
theorem lastSets_concat (matters sets : α → Prop) (as : List α) (a : α) :
    LastSets matters sets (as ++ [a]) ↔ sets a ∨ ¬ matters a ∧ LastSets matters sets as := by
  constructor
  · rintro ⟨before, b, after, h, hb, hafter⟩
    rcases List.eq_nil_or_concat after with rfl | ⟨after, c, rfl⟩
    · obtain ⟨-, hab⟩ := List.append_inj' h rfl
      cases hab
      exact .inl hb
    · rw [List.concat_eq_append, ← List.cons_append, ← List.append_assoc] at h
      obtain ⟨has, hac⟩ := List.append_inj' h rfl
      cases hac
      rw [List.concat_eq_append] at hafter
      refine .inr ⟨hafter a (by simp), before, b, after, has, hb, fun d hd => ?_⟩
      exact hafter d (List.mem_append_left _ hd)
  · rintro (ha | ⟨ha, before, b, after, rfl, hb, hafter⟩)
    · exact ⟨as, a, [], rfl, ha, nofun⟩
    · refine ⟨before, b, after ++ [a], by rw [List.append_assoc, List.cons_append], hb, ?_⟩
      intro d hd
      rcases List.mem_append.mp hd with hd | hd
      · exact hafter d hd
      · rw [List.mem_singleton.mp hd]
        exact ha

/-! ### Acts with their past -/

/-- What holds of every act and of the acts before it. -/
def Each (P : List α → α → Prop) (as : List α) : Prop :=
  ∀ before a after, as = before ++ a :: after → P before a

theorem each_nil (P : List α → α → Prop) : Each P [] := fun _ _ _ h =>
  absurd h.symm (List.append_ne_nil_of_right_ne_nil _ (List.cons_ne_nil _ _))

theorem each_concat (P : List α → α → Prop) (as : List α) (a : α) :
    Each P (as ++ [a]) ↔ Each P as ∧ P as a := by
  constructor
  · intro h
    refine ⟨fun before b after hb => h before b (after ++ [a]) ?_, h as a [] rfl⟩
    rw [hb, List.append_assoc, List.cons_append]
  · rintro ⟨h, ha⟩ before b after hb
    rcases List.eq_nil_or_concat after with rfl | ⟨after, c, rfl⟩
    · obtain ⟨rfl, hab⟩ := List.append_inj' hb rfl
      cases hab
      exact ha
    · rw [List.concat_eq_append, ← List.cons_append, ← List.append_assoc] at hb
      obtain ⟨has, -⟩ := List.append_inj' hb rfl
      exact h before b after has

theorem each_append {P : List α → α → Prop} {as bs : List α} (h : Each P as)
    (hbs : ∀ b ∈ bs, ∀ before, P before b) : Each P (as ++ bs) := by
  induction bs generalizing as with
  | nil => rwa [List.append_nil]
  | cons b bs ih =>
      obtain ⟨hb, hbs⟩ := List.forall_mem_cons.mp hbs
      rw [List.append_cons]
      exact ih ((each_concat P as b).mpr ⟨h, hb as⟩) hbs

/-! ### Executions without end -/

/-- An execution that goes on forever; where `act n` is `none` nothing happens. -/
structure Execution (step : σ → α → Option σ) (s : σ) where
  state : ℕ → σ
  act : ℕ → Option α
  start : state 0 = s
  next : ∀ n, ∀ a ∈ act n, step (state n) a = some (state (n + 1))
  idle : ∀ n, act n = none → state (n + 1) = state n

namespace Execution

variable (e : Execution step s)

theorem invariant {I : σ → Prop} (hstep : ∀ s a t, I s → step s a = some t → I t) (hs : I s)
    (n : ℕ) : I (e.state n) := by
  induction n with
  | zero =>
      rw [e.start]
      exact hs
  | succ n ih =>
      cases ha : e.act n with
      | none =>
          rw [e.idle n ha]
          exact ih
      | some a => exact hstep _ a _ ih (e.next n a ha)

/-- **The first of the acts that matter.** What all other acts keep still holds when one of these
comes for the first time. -/
theorem exists_first (P : σ → Prop) (stop : α → Prop)
    (hstep : ∀ s a t, P s → ¬ stop a → step s a = some t → P t) (d : ℕ) {n : ℕ}
    (hn : P (e.state n)) (hstop : ∃ a ∈ e.act (n + d), stop a) :
    ∃ k, n ≤ k ∧ P (e.state k) ∧ ∃ a ∈ e.act k, stop a := by
  induction d generalizing n with
  | zero => exact ⟨n, Nat.le_refl n, hn, hstop⟩
  | succ d ih =>
      by_cases hnow : ∃ a ∈ e.act n, stop a
      · exact ⟨n, Nat.le_refl n, hn, hnow⟩
      · have hnext : P (e.state (n + 1)) := by
          cases ha : e.act n with
          | none =>
              rw [e.idle n ha]
              exact hn
          | some a => exact hstep _ a _ hn (fun h => hnow ⟨a, ha, h⟩) (e.next n a ha)
        rw [← Nat.add_assoc, Nat.add_right_comm] at hstop
        obtain ⟨k, hk, h⟩ := ih hnext hstop
        exact ⟨k, Nat.le_of_succ_le hk, h⟩

end Execution

end Xmq.Runs
