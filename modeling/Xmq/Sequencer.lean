import Mathlib.Data.Finset.Card
import Mathlib.Data.Prod.Lex
import Mathlib.Order.Basic

/-!
# Stamps from a clock and a counter

A sequencer hands out stamps: the reading of a clock and a number below a bound, which counts the
stamps of that reading. It refuses when the clock went backwards and when the numbers of the reading
are used up, and has then not changed. Whatever the clock does, the stamps ascend, and as many as the
bound allows are handed out for every reading that no later one came before.
-/

namespace Xmq.Sequencer

variable {τ : Type*} [LinearOrder τ] {N : ℕ}

/-- The last stamp, if there is one. -/
abbrev State (τ : Type*) := Option (τ × ℕ)

/-- Ask for a stamp at the reading `t`. -/
def issue (N : ℕ) (s : State τ) (t : τ) : Option (τ × ℕ) :=
  match s with
  | none => some (t, 0)
  | some (u, k) =>
    if u < t then some (t, 0)
    else if u = t ∧ k + 1 < N then some (t, k + 1)
    else none

/-- The state after the request: the stamp that was handed out, or no change. -/
def next (N : ℕ) (s : State τ) (t : τ) : State τ := (issue N s t).or s

/-- The stamps that the readings get, in order. -/
def stamps (N : ℕ) : State τ → List τ → List (τ × ℕ)
  | _, [] => []
  | s, t :: ts => (issue N s t).toList ++ stamps N (next N s t) ts

def after (N : ℕ) (s : State τ) (ts : List τ) : State τ := ts.foldl (next N) s

/-- The stamp comes after the last one. -/
def Later (s : State τ) (x : τ × ℕ) : Prop := ∀ y ∈ s, toLex y < toLex x

theorem issue_later {s : State τ} {t : τ} {x : τ × ℕ} (h : issue N s t = some x) : Later s x := by
  rintro ⟨u, k⟩ hs
  rw [Option.mem_def.mp hs, issue] at h
  split at h
  · rename_i hlt
    cases h
    exact Prod.Lex.toLex_lt_toLex.mpr (Or.inl hlt)
  · split at h
    · rename_i heq
      cases h
      exact Prod.Lex.toLex_lt_toLex.mpr (Or.inr ⟨heq.1, Nat.lt_succ_self k⟩)
    · cases h

theorem issue_fst {s : State τ} {t : τ} {x : τ × ℕ} (h : issue N s t = some x) : x.1 = t := by
  unfold issue at h
  split at h
  · cases h
    rfl
  · split at h
    · cases h
      rfl
    · split at h
      · cases h
        rfl
      · cases h

theorem issue_snd_lt (hN : 0 < N) {s : State τ} {t : τ} {x : τ × ℕ} (h : issue N s t = some x) :
    x.2 < N := by
  unfold issue at h
  split at h
  · cases h
    exact hN
  · split at h
    · cases h
      exact hN
    · split at h
      · rename_i hk
        cases h
        exact hk.2
      · cases h

theorem next_of_some {s : State τ} {t : τ} {x : τ × ℕ} (h : issue N s t = some x) :
    next N s t = some x := by
  rw [next, h, Option.some_or]

theorem next_of_none {s : State τ} {t : τ} (h : issue N s t = none) : next N s t = s := by
  rw [next, h, Option.none_or]

theorem stamps_cons_some {s : State τ} {t : τ} {x : τ × ℕ} (h : issue N s t = some x) (ts : List τ) :
    stamps N s (t :: ts) = x :: stamps N (some x) ts := by
  rw [stamps, next_of_some h, h, Option.toList_some, List.singleton_append]

theorem stamps_cons_none {s : State τ} {t : τ} (h : issue N s t = none) (ts : List τ) :
    stamps N s (t :: ts) = stamps N s ts := by
  rw [stamps, next_of_none h, h, Option.toList_none, List.nil_append]

/-- All stamps come after the last one. -/
theorem later_of_mem_stamps {ts : List τ} {s : State τ} {x : τ × ℕ} (h : x ∈ stamps N s ts) :
    Later s x := by
  induction ts generalizing s with
  | nil => cases h
  | cons t ts ih =>
      cases hi : issue N s t with
      | none =>
          rw [stamps_cons_none hi] at h
          exact ih h
      | some y =>
          rw [stamps_cons_some hi] at h
          rcases List.mem_cons.mp h with rfl | h
          · exact issue_later hi
          · exact fun z hz => (issue_later hi z hz).trans (ih h y rfl)

/-- **The stamps ascend.** -/
theorem stamps_pairwise (s : State τ) (ts : List τ) :
    (stamps N s ts).Pairwise fun x y => toLex x < toLex y := by
  induction ts generalizing s with
  | nil => exact List.Pairwise.nil
  | cons t ts ih =>
      cases hi : issue N s t with
      | none =>
          rw [stamps_cons_none hi]
          exact ih s
      | some x =>
          rw [stamps_cons_some hi]
          exact List.pairwise_cons.mpr ⟨fun y hy => later_of_mem_stamps hy x rfl, ih (some x)⟩

theorem snd_lt_of_mem_stamps (hN : 0 < N) {ts : List τ} {s : State τ} {x : τ × ℕ}
    (h : x ∈ stamps N s ts) : x.2 < N := by
  induction ts generalizing s with
  | nil => cases h
  | cons t ts ih =>
      rcases List.mem_append.mp h with h | h
      · exact issue_snd_lt hN (Option.mem_toList.mp h)
      · exact ih h

/-- **No reading gets more stamps than the bound.** -/
theorem stamps_count_le (hN : 0 < N) (s : State τ) (ts : List τ) (t : τ) :
    ((stamps N s ts).filter (·.1 = t)).length ≤ N := by
  have hnodup : (((stamps N s ts).filter (·.1 = t)).map Prod.snd).Nodup := by
    rw [List.Nodup, List.pairwise_map]
    refine ((stamps_pairwise s ts).filter _).imp_of_mem ?_
    intro x y hx hy hlt heq
    have hx1 : x.1 = t := of_decide_eq_true (List.mem_filter.mp hx).2
    have hy1 : y.1 = t := of_decide_eq_true (List.mem_filter.mp hy).2
    exact hlt.ne (congrArg toLex (Prod.ext (hx1.trans hy1.symm) heq))
  have hsub : ((stamps N s ts).filter (·.1 = t)).map Prod.snd ⊆ List.range N := by
    intro k hk
    obtain ⟨x, hx, rfl⟩ := List.mem_map.mp hk
    exact List.mem_range.mpr (snd_lt_of_mem_stamps hN (List.mem_filter.mp hx).1)
  have hle := (List.subperm_of_subset hnodup hsub).length_le
  rwa [List.length_map, List.length_range] at hle

/-- What the readings up to now say about the last stamp: its reading is one of them, and its number
counts some of the requests at that reading. -/
def Within (s : State τ) (ts : List τ) : Prop :=
  ∀ x ∈ s, x.1 ∈ ts ∧ x.2 < ts.count x.1

theorem Within.next {s : State τ} {ts : List τ} (h : Within s ts) (t : τ) :
    Within (next N s t) (ts ++ [t]) := by
  intro x hx
  cases hi : issue N s t with
  | none =>
      rw [next_of_none hi] at hx
      obtain ⟨hmem, hlt⟩ := h x hx
      exact ⟨List.mem_append_left _ hmem,
        hlt.trans_le (by rw [List.count_append]; exact Nat.le_add_right _ _)⟩
  | some y =>
      rw [next_of_some hi] at hx
      cases hx
      have hfst := issue_fst hi
      have hcount : (ts ++ [t]).count t = ts.count t + 1 := by
        rw [List.count_append, List.count_singleton_self]
      refine ⟨by rw [hfst]; exact List.mem_append_right _ (List.mem_singleton_self t), ?_⟩
      rw [hfst, hcount]
      cases s with
      | none =>
          cases hi
          exact Nat.succ_pos _
      | some z =>
          obtain ⟨u, k⟩ := z
          rw [issue] at hi
          split at hi
          · cases hi
            exact Nat.succ_pos _
          · split at hi
            · rename_i hu
              cases hi
              have hk := (h (u, k) rfl).2
              rw [hu.1] at hk
              exact Nat.succ_lt_succ hk
            · cases hi

theorem within_after (ts : List τ) : Within (after N (none : State τ) ts) ts := by
  induction ts using List.reverseRecOn with
  | nil => exact fun _ h => by cases h
  | append_singleton ts t ih =>
      rw [after, List.foldl_append]
      exact ih.next t

/-- A reading after that of the last stamp gets a stamp. -/
theorem issue_of_later {s : State τ} {t : τ} (h : ∀ x ∈ s, x.1 < t) : issue N s t = some (t, 0) := by
  cases s with
  | none => rfl
  | some x => exact if_pos (h x rfl)

theorem issue_of_earlier {u t : τ} {k : ℕ} (h : t < u) : issue N (some (u, k)) t = none := by
  rw [issue, if_neg h.not_gt, if_neg fun h' => h.ne' h'.1]

theorem issue_of_room {t : τ} {k : ℕ} (h : k + 1 < N) :
    issue N (some (t, k)) t = some (t, k + 1) := by
  rw [issue, if_neg (lt_irrefl t), if_pos ⟨rfl, h⟩]

theorem issue_of_full {t : τ} {k : ℕ} (h : ¬ k + 1 < N) : issue N (some (t, k)) t = none := by
  rw [issue, if_neg (lt_irrefl t), if_neg fun h' => h h'.2]

/-- **No stamp is withheld.** A reading that no later one came before gets a stamp until it has asked
as often as the bound says. -/
theorem issue_isSome {ts : List τ} {t : τ} (hle : ∀ u ∈ ts, u ≤ t) (hcount : ts.count t < N) :
    (issue N (after N none ts) t).isSome := by
  have hwithin := within_after (N := N) ts
  cases hs : after N none ts with
  | none => rfl
  | some x =>
      obtain ⟨u, k⟩ := x
      rw [hs] at hwithin
      obtain ⟨hu, hk⟩ := hwithin (u, k) rfl
      rw [issue]
      split
      · rfl
      · rename_i hlt
        obtain rfl : u = t := (hle u hu).antisymm (not_lt.mp hlt)
        have hk : k < ts.count u := hk
        rw [if_pos ⟨rfl, by omega⟩]
        rfl

end Xmq.Sequencer
