import Mathlib.Algebra.Order.Group.Multiset
import Mathlib.Data.Multiset.Filter
import Mathlib.Logic.Function.Basic
import Mathlib.Tactic.Ring
import Xmq.Outcomes
import Xmq.Runs

/-!
# Latencies of a moving window

`quantile.Quantile` collects the latencies of a channel in two streams that take turns: when a
window is over, the other stream is emptied and becomes the current one. A query merges both. Here a
stream is the samples that it has, and a sample carries the time at which it was inserted, at which
the code does not look.

* Times are nanoseconds; a message has the wall clock, the windows the monotonic one.
* Windows move only when there is a call. `movesBy` is how often they have moved when a call at that
  time has caught up, whatever calls there were before it.
* A stream holds the samples of its window, so that a query finds those of its own window and of the
  one before it.
-/

namespace Xmq.Latency

open Outcomes

structure Sample (α : Type) where
  time : ℤ
  value : α
  deriving DecidableEq

/-- A `Quantile`. The index is 0 or 1, and `currentStream` says to which stream the pointer goes. -/
structure Quantile (α : Type) where
  streams : Bool → Multiset (Sample α)
  currentIndex : Bool
  lastMoveWindow : ℤ
  currentStream : Bool
  moveWindowTime : ℤ

variable {α : Type}

/-- `New`. -/
def new (now windowTime : ℤ) : Quantile α where
  streams := fun _ => 0
  currentIndex := false
  lastMoveWindow := now
  currentStream := false
  moveWindowTime := windowTime.tdiv 2

namespace Quantile

def isDataStale (q : Quantile α) (now : ℤ) : Bool := q.lastMoveWindow + q.moveWindowTime < now

def moveWindow (q : Quantile α) : Quantile α where
  streams := Function.update q.streams (!q.currentIndex) 0
  currentIndex := !q.currentIndex
  lastMoveWindow := q.lastMoveWindow + q.moveWindowTime
  currentStream := !q.currentIndex
  moveWindowTime := q.moveWindowTime

/-- `for q.IsDataStale(now) { q.moveWindow() }`. -/
def catchUp (now : ℤ) (q : Quantile α) : Quantile α ⊕ Quantile α :=
  if q.isDataStale now then .inl q.moveWindow else .inr q

/-- `q.currentStream.Insert`. -/
def insertSample (x : Sample α) (q : Quantile α) : Quantile α :=
  { q with streams := Function.update q.streams q.currentStream (x ::ₘ q.streams q.currentStream) }

/-- `Insert`. -/
def insert (float64 : ℤ → α) (rounds : ℕ) (now unixNano msgStartTime : ℤ) (q : Quantile α) :
    Option (Quantile α) :=
  (forever (catchUp now) rounds q).map
    (insertSample ⟨now, float64 (unixNano - msgStartTime)⟩)

/-- `QueryHandler`: the merged stream. -/
def queryHandler (rounds : ℕ) (now : ℤ) (q : Quantile α) :
    Option (Multiset (Sample α) × Quantile α) :=
  (forever (catchUp now) rounds q).map fun q => (q.streams false + q.streams true, q)

end Quantile

/-- A call of a `Quantile`. -/
inductive Call where
  | insert (now unixNano msgStartTime : ℤ)
  | query (now : ℤ)
  deriving DecidableEq

def Call.time : Call → ℤ
  | .insert now _ _ => now
  | .query now => now

def call (float64 : ℤ → α) (rounds : ℕ) (q : Quantile α) : Call → Option (Quantile α)
  | .insert now unixNano msgStartTime => q.insert float64 rounds now unixNano msgStartTime
  | .query now => (q.queryHandler rounds now).map Prod.snd

/-- The sample that a call inserts. -/
def Call.samples (float64 : ℤ → α) : Call → Multiset (Sample α)
  | .insert now unixNano msgStartTime => {⟨now, float64 (unixNano - msgStartTime)⟩}
  | .query _ => 0

/-- What the calls have inserted. -/
def inserted (float64 : ℤ → α) (calls : List Call) : Multiset (Sample α) :=
  (calls.map (Call.samples float64)).sum

/-- The calls come one after another, the first not before `t` and the last not after `T`. -/
def InOrder (t : ℤ) (calls : List Call) (T : ℤ) : Prop :=
  (t :: (calls.map Call.time ++ [T])).IsChain (· ≤ ·)

instance (t : ℤ) (calls : List Call) (T : ℤ) : Decidable (InOrder t calls T) :=
  inferInstanceAs (Decidable (List.IsChain _ _))

/-- The samples that a query should find: all recent ones, no old one, none twice. -/
structure Fresh (M T : ℤ) (inserted samples : Multiset (Sample α)) : Prop where
  recent : inserted.filter (fun x => T - x.time < M) ≤ samples
  old : ∀ x ∈ samples, T - x.time ≤ 2 * M
  once : samples ≤ inserted

/-! ### Windows -/

/-- How often the windows have moved since `t₀` once a call at `t` has caught up. -/
def movesBy (M t₀ t : ℤ) : ℕ := ((t - t₀ - 1) / M).toNat

section Moves

variable {M t₀ s t : ℤ}

theorem movesBy_start (hM : 0 < M) : movesBy M t₀ t₀ = 0 := by
  rw [movesBy, sub_self, zero_sub, Int.toNat_eq_zero]
  exact Int.le_of_lt_add_one (Int.ediv_lt_of_lt_mul hM (by omega))

theorem movesBy_mono (hM : 0 < M) (h : s ≤ t) : movesBy M t₀ s ≤ movesBy M t₀ t :=
  Int.toNat_le_toNat (Int.ediv_le_ediv hM (by omega))

/-- The window that follows the `k`th is over at `t` when there is one more move by then. -/
theorem lt_movesBy_iff (hM : 0 < M) {k : ℕ} : k < movesBy M t₀ t ↔ t₀ + k * M + M < t := by
  have hmul : ((k : ℤ) + 1) * M = k * M + M := by ring
  rw [movesBy, Int.lt_toNat, ← Int.add_one_le_iff, Int.le_ediv_iff_mul_le hM, hmul]
  omega

theorem movesBy_recent (hM : 0 < M) (h : t - s < M) : movesBy M t₀ t ≤ movesBy M t₀ s + 1 := by
  have hle : (t - t₀ - 1) / M ≤ (s - t₀ - 1) / M + 1 := by
    rw [← Int.add_mul_ediv_right _ _ hM.ne', one_mul]
    exact Int.ediv_le_ediv hM (by omega)
  unfold movesBy
  omega

theorem movesBy_old (hM : 0 < M) (hs : t₀ ≤ s) (h : 2 * M < t - s) :
    movesBy M t₀ s + 1 < movesBy M t₀ t := by
  have hle : (s - t₀ - 1 + 2 * M) / M ≤ (t - t₀ - 1) / M := Int.ediv_le_ediv hM (by omega)
  have htwo : 2 ≤ (t - t₀ - 1) / M := by
    rw [Int.le_ediv_iff_mul_le hM]
    omega
  rw [Int.add_mul_ediv_right _ _ hM.ne'] at hle
  unfold movesBy
  omega

end Moves

/-! ### The calls -/

/-- The windows have moved `k` times; each stream has the samples of its window. -/
structure Inv (M t₀ : ℤ) (samples : Multiset (Sample α)) (k : ℕ) (q : Quantile α) : Prop where
  window : q.moveWindowTime = M
  pointer : q.currentStream = q.currentIndex
  last : q.lastMoveWindow = t₀ + k * M
  current : q.streams q.currentIndex = samples.filter fun x => movesBy M t₀ x.time = k
  previous : q.streams (!q.currentIndex) = samples.filter fun x => movesBy M t₀ x.time + 1 = k
  le : ∀ x ∈ samples, movesBy M t₀ x.time ≤ k

section Calls

variable {M t₀ now : ℤ} {samples : Multiset (Sample α)} {k : ℕ} {q : Quantile α}

theorem new_inv (now windowTime : ℤ) :
    Inv (windowTime.tdiv 2) now (0 : Multiset (Sample α)) 0 (new now windowTime) where
  window := rfl
  pointer := rfl
  last := by simp [new]
  current := rfl
  previous := rfl
  le := nofun

theorem Inv.isDataStale (h : Inv M t₀ samples k q) (hM : 0 < M) (now : ℤ) :
    q.isDataStale now = true ↔ k < movesBy M t₀ now := by
  rw [Quantile.isDataStale, decide_eq_true_eq, h.last, h.window, lt_movesBy_iff hM]

/-- The samples of the window before go, and the current ones are now those before. -/
theorem Inv.moveWindow (h : Inv M t₀ samples k q) : Inv M t₀ samples (k + 1) q.moveWindow where
  window := h.window
  pointer := rfl
  last := by
    rw [Quantile.moveWindow, h.last, h.window, Nat.cast_add_one]
    ring
  current := by
    show Function.update q.streams (!q.currentIndex) 0 (!q.currentIndex) = _
    rw [Function.update_self]
    refine (Multiset.filter_eq_nil.mpr fun x hx heq => ?_).symm
    have hle := h.le x hx
    omega
  previous := by
    have hne : (!!q.currentIndex) ≠ !q.currentIndex := Bool.not_not_eq.mpr rfl
    show Function.update q.streams (!q.currentIndex) 0 (!!q.currentIndex) = _
    rw [Function.update_of_ne hne, Bool.not_not, h.current]
    exact Multiset.filter_congr fun x _ => (Nat.add_right_cancel_iff).symm
  le := fun x hx => (h.le x hx).trans (Nat.le_succ k)

/-- **The loop ends**, and the windows have moved as often as they should have. -/
theorem Inv.catchUp (h : Inv M t₀ samples k q) (hM : 0 < M) (hk : k ≤ movesBy M t₀ now) {rounds : ℕ}
    (hrounds : movesBy M t₀ now < rounds) :
    ∃ q', forever (Quantile.catchUp now) rounds q = some q' ∧
      Inv M t₀ samples (movesBy M t₀ now) q' := by
  have hloop : ∀ d k q rounds, Inv M t₀ samples k q → k + d = movesBy M t₀ now → d < rounds →
      ∃ q', forever (Quantile.catchUp now) rounds q = some q' ∧
        Inv M t₀ samples (movesBy M t₀ now) q' := by
    intro d
    induction d with
    | zero =>
        intro k q rounds h hk hrounds
        obtain ⟨n, rfl⟩ : ∃ n, rounds = n + 1 := ⟨rounds - 1, by omega⟩
        have hfresh : ¬ q.isDataStale now = true := by
          rw [h.isDataStale hM]
          omega
        exact ⟨q, forever_inr (if_neg hfresh), hk ▸ h⟩
    | succ d ih =>
        intro k q rounds h hk hrounds
        obtain ⟨n, rfl⟩ : ∃ n, rounds = n + 1 := ⟨rounds - 1, by omega⟩
        have hstale : q.isDataStale now = true := by
          rw [h.isDataStale hM]
          omega
        have hbody : Quantile.catchUp now q = .inl q.moveWindow := if_pos hstale
        rw [forever_inl hbody]
        exact ih (k + 1) q.moveWindow n h.moveWindow (by omega) (by omega)
  exact hloop (movesBy M t₀ now - k) k q rounds h (by omega) (by omega)

/-- The sample goes to the window of its time. -/
theorem Inv.insertSample (h : Inv M t₀ samples (movesBy M t₀ now) q) (value : α) :
    Inv M t₀ (⟨now, value⟩ ::ₘ samples) (movesBy M t₀ now) (q.insertSample ⟨now, value⟩) where
  window := h.window
  pointer := h.pointer
  last := h.last
  current := by
    show Function.update q.streams q.currentStream _ q.currentIndex = _
    rw [h.pointer, Function.update_self, h.current]
    have hnow : movesBy M t₀ (Sample.mk now value).time = movesBy M t₀ now := rfl
    exact (Multiset.filter_cons_of_pos samples hnow).symm
  previous := by
    have hne : (!q.currentIndex) ≠ q.currentIndex := Bool.not_ne_self q.currentIndex
    show Function.update q.streams q.currentStream _ (!q.currentIndex) = _
    rw [h.pointer, Function.update_of_ne hne, h.previous]
    have hnext : ¬ movesBy M t₀ (Sample.mk now value).time + 1 = movesBy M t₀ now :=
      Nat.succ_ne_self _
    exact (Multiset.filter_cons_of_neg samples hnext).symm
  le := fun x hx => by
    rcases Multiset.mem_cons.mp hx with rfl | hx
    · exact Nat.le_refl _
    · exact h.le x hx

/-- What both streams have together. -/
theorem Inv.merged (h : Inv M t₀ samples k q) :
    q.streams false + q.streams true = samples.filter fun x => k ≤ movesBy M t₀ x.time + 1 := by
  have hboth : q.streams false + q.streams true =
      q.streams q.currentIndex + q.streams (!q.currentIndex) := by
    cases q.currentIndex with
    | false => rfl
    | true => exact add_comm _ _
  rw [hboth, h.current, h.previous, Multiset.filter_add_filter]
  have hnone :
      samples.filter (fun x => movesBy M t₀ x.time = k ∧ movesBy M t₀ x.time + 1 = k) = 0 :=
    Multiset.filter_eq_nil.mpr fun x _ hx => by omega
  rw [hnone, add_zero]
  refine Multiset.filter_congr fun x hx => ?_
  have hle := h.le x hx
  omega

/-- A call keeps the invariant, at the window of its time. -/
theorem Inv.call (h : Inv M t₀ samples k q) (hM : 0 < M) (float64 : ℤ → α) {c : Call}
    (hk : k ≤ movesBy M t₀ c.time) {rounds : ℕ} (hrounds : movesBy M t₀ c.time < rounds) :
    ∃ q', Latency.call float64 rounds q c = some q' ∧
      Inv M t₀ (c.samples float64 + samples) (movesBy M t₀ c.time) q' := by
  obtain ⟨q', hq', hinv⟩ := h.catchUp hM hk hrounds
  cases c with
  | insert now unixNano msgStartTime =>
      refine ⟨_, congrArg (Option.map _) hq', ?_⟩
      rw [Call.samples, Multiset.singleton_add]
      exact hinv.insertSample _
  | query now =>
      refine ⟨q', congrArg (Option.map Prod.snd) (congrArg (Option.map _) hq'), ?_⟩
      rwa [Call.samples, zero_add]

end Calls

/-! ### Sequences of calls -/

/-- The time of the last call, or `t` when there is none. -/
def lastTime : ℤ → List Call → ℤ
  | t, [] => t
  | _, c :: calls => lastTime c.time calls

section Sequences

variable {M t₀ t T : ℤ} {c : Call} {calls : List Call} {samples : Multiset (Sample α)}
  {q : Quantile α}

theorem inOrder_cons : InOrder t (c :: calls) T ↔ t ≤ c.time ∧ InOrder c.time calls T :=
  List.isChain_cons_cons

theorem InOrder.le (h : InOrder t calls T) : t ≤ T := by
  induction calls generalizing t with
  | nil => exact (List.isChain_cons_cons.mp h).1
  | cons c calls ih => exact (inOrder_cons.mp h).1.trans (ih (inOrder_cons.mp h).2)

theorem InOrder.lastTime_le (h : InOrder t calls T) :
    t ≤ lastTime t calls ∧ lastTime t calls ≤ T := by
  induction calls generalizing t with
  | nil => exact ⟨le_refl t, h.le⟩
  | cons c calls ih =>
      obtain ⟨hc, hcalls⟩ := inOrder_cons.mp h
      exact ⟨hc.trans (ih hcalls).1, (ih hcalls).2⟩

theorem inserted_cons (float64 : ℤ → α) (c : Call) (calls : List Call) :
    inserted float64 (c :: calls) = c.samples float64 + inserted float64 calls := List.sum_cons

/-- No sample is older than the first call may be. -/
theorem InOrder.le_inserted (h : InOrder t calls T) (float64 : ℤ → α) :
    ∀ x ∈ inserted float64 calls, t ≤ x.time := by
  induction calls generalizing t with
  | nil => exact nofun
  | cons c calls ih =>
      obtain ⟨hc, hcalls⟩ := inOrder_cons.mp h
      intro x hx
      rw [inserted_cons, Multiset.mem_add] at hx
      rcases hx with hx | hx
      · cases c with
        | insert now unixNano msgStartTime =>
            rw [Multiset.mem_singleton.mp hx]
            exact hc
        | query now => cases hx
      · exact hc.trans (ih hcalls x hx)

/-- **A sequence of calls** goes through, and leaves the windows as of its last call. -/
theorem Inv.run (h : Inv M t₀ samples (movesBy M t₀ t) q) (hM : 0 < M) (float64 : ℤ → α)
    (horder : InOrder t calls T) {rounds : ℕ} (hrounds : movesBy M t₀ T < rounds) :
    ∃ q', Runs.run (Latency.call float64 rounds) q calls = some q' ∧
      Inv M t₀ (inserted float64 calls + samples) (movesBy M t₀ (lastTime t calls)) q' := by
  induction calls generalizing t samples q with
  | nil => exact ⟨q, rfl, (zero_add samples).symm ▸ h⟩
  | cons c calls ih =>
      obtain ⟨hc, hcalls⟩ := inOrder_cons.mp horder
      have hlast : movesBy M t₀ c.time ≤ movesBy M t₀ T := movesBy_mono hM hcalls.le
      obtain ⟨q₁, hq₁, hinv₁⟩ := h.call hM float64 (movesBy_mono hM hc) (hlast.trans_lt hrounds)
      obtain ⟨q', hq', hinv⟩ := ih hinv₁ hcalls
      refine ⟨q', (Runs.run_cons c calls q' hq₁).mpr hq', ?_⟩
      rw [inserted_cons, add_comm (c.samples float64), add_assoc]
      exact hinv

/-- The samples of the window of `T` and of the one before it are those that a query should find. -/
theorem fresh_filter (hM : 0 < M) (hstart : ∀ x ∈ samples, t₀ ≤ x.time) :
    Fresh M T samples (samples.filter fun x => movesBy M t₀ T ≤ movesBy M t₀ x.time + 1) where
  recent := Multiset.monotone_filter_right samples fun _ => movesBy_recent hM
  old := by
    intro x hx
    obtain ⟨hmem, hle⟩ := Multiset.mem_filter.mp hx
    by_contra hold
    have hlt := movesBy_old hM (hstart x hmem) (not_le.mp hold)
    omega
  once := Multiset.filter_le _ samples

end Sequences

/-- **The window.** Whatever calls there were, each at its time, the loops end and a query finds
every recent sample once and no old one. -/
theorem window_fresh (float64 : ℤ → α) (t₀ windowTime : ℤ) (hM : 0 < windowTime.tdiv 2)
    (calls : List Call) (T : ℤ) (horder : InOrder t₀ calls T) :
    ∃ n, ∀ rounds, n < rounds → ∃ q q' samples,
      Runs.run (call float64 rounds) (new t₀ windowTime) calls = some q ∧
        q.queryHandler rounds T = some (samples, q') ∧
          Fresh q.moveWindowTime T (inserted float64 calls) samples := by
  refine ⟨movesBy (windowTime.tdiv 2) t₀ T, fun rounds hrounds => ?_⟩
  have hstart : movesBy (windowTime.tdiv 2) t₀ t₀ = 0 := movesBy_start hM
  have hnew : Inv (windowTime.tdiv 2) t₀ (0 : Multiset (Sample α)) _ (new t₀ windowTime) :=
    hstart ▸ new_inv t₀ windowTime
  obtain ⟨q, hq, hinv⟩ := hnew.run hM float64 horder hrounds
  rw [add_zero] at hinv
  obtain ⟨q', hq', hinv'⟩ := hinv.catchUp hM (movesBy_mono hM horder.lastTime_le.2) hrounds
  refine ⟨q, q', _, hq, congrArg (Option.map _) hq', ?_⟩
  rw [hinv.window, hinv'.merged]
  exact fresh_filter hM (horder.le_inserted float64)

/-- A window of ten, a message every seven, and one long after. -/
def someCalls : List Call :=
  [.insert 7 107 100, .insert 14 114 100, .query 20, .insert 21 121 100, .insert 100 200 100]

theorem window_fresh_someCalls :
    InOrder 0 someCalls 101 ∧ ∃ n, ∀ rounds, n < rounds → ∃ q q' samples,
      Runs.run (call id rounds) (new 0 20) someCalls = some q ∧
        q.queryHandler rounds 101 = some (samples, q') ∧
          Fresh q.moveWindowTime 101 (inserted id someCalls) samples :=
  ⟨by decide, window_fresh id 0 20 (by decide) someCalls 101 (by decide)⟩

end Xmq.Latency
