import Mathlib.Algebra.BigOperators.Group.Finset.Basic
import Mathlib.Algebra.Order.BigOperators.Group.List
import Mathlib.Data.List.ReduceOption
import Xmq.LatencyWindows

/-!
# The latencies of a topic

`Topic.AggregateChannelE2eProcessingLatency` merges the streams of the channels into those of a
quantile that it has just made. The quantiles are objects at pointers, since the channels keep
theirs.

`Merge` moves no window. A channel that has had no call for some time still has its samples of then,
and they go into the summary as if they were recent.
-/

namespace Xmq.Latency

variable {α : Type}

/-- Where the quantiles are; the pointers from `next` on are free. -/
structure Heap (α : Type) where
  obj : ℕ → Quantile α
  next : ℕ

namespace Quantile

/-- The samples of both streams. -/
def samples (q : Quantile α) : Multiset (Sample α) := q.streams false + q.streams true

/-- `q.streams[i].Merge(them.streams[j].Samples())`. -/
def mergeStream (i : Bool) (theirs : Multiset (Sample α)) (q : Quantile α) : Quantile α :=
  { q with streams := Function.update q.streams i (q.streams i + theirs) }

/-- What `Merge` does to `q`. -/
def merge (q them : Quantile α) : Quantile α :=
  let q₁ := q.mergeStream q.currentIndex (them.streams them.currentIndex)
  let q₂ := q₁.mergeStream (!q.currentIndex) (them.streams (!them.currentIndex))
  if q₂.lastMoveWindow < them.lastMoveWindow then { q₂ with lastMoveWindow := them.lastMoveWindow }
  else q₂

end Quantile

namespace Heap

def set (p : ℕ) (q : Quantile α) (h : Heap α) : Heap α :=
  { h with obj := Function.update h.obj p q }

/-- A new object, and the pointer to it. -/
def alloc (q : Quantile α) (h : Heap α) : ℕ × Heap α :=
  (h.next, { (h.set h.next q) with next := h.next + 1 })

/-- `Merge`, which takes the locks of both and so hangs when they are one. -/
def merge (us them : ℕ) (h : Heap α) : Option (Heap α) :=
  if us = them then none else some (h.set us ((h.obj us).merge (h.obj them)))

end Heap

/-- One channel. -/
def aggregateChannel (now windowTime : ℤ) (s : Option ℕ × Heap α) :
    Option ℕ → Option (Option ℕ × Heap α)
  | none => some s
  | some them =>
    let (us, h) := match s with
      | (some us, h) => (us, h)
      | (none, h) => h.alloc (new now windowTime)
    (h.merge us them).map fun h => (some us, h)

/-- `AggregateChannelE2eProcessingLatency`, from the pointers that the channels have. -/
def aggregateChannelE2eProcessingLatency (now windowTime : ℤ) (channels : List (Option ℕ))
    (h : Heap α) :
    Option (Option ℕ × Heap α) :=
  channels.foldlM (aggregateChannel now windowTime) (none, h)

/-- `Result`, which has no samples for a nil pointer. -/
def result (rounds : ℕ) (now : ℤ) (s : Option ℕ × Heap α) : Option (Multiset (Sample α) × Heap α) :=
  match s.1 with
  | none => some (0, s.2)
  | some us => ((s.2.obj us).queryHandler rounds now).map fun (samples, q) =>
    (samples, s.2.set us q)

/-- When a quantile was made and what has been called since. -/
structure History where
  created : ℤ
  calls : List Call

/-- A topic at time `T`: each channel that has a quantile has one of its own, with its own history.
-/
structure Topic (float64 : ℤ → α) (windowTime T : ℤ) where
  heap : Heap α
  channels : List (Option ℕ)
  history : ℕ → History
  own : channels.reduceOption.Nodup
  allocated : ∀ p ∈ channels.reduceOption, p < heap.next
  inOrder : ∀ p ∈ channels.reduceOption, InOrder (history p).created (history p).calls T
  called : ∀ p ∈ channels.reduceOption, ∃ n, ∀ rounds, n < rounds →
    Runs.run (call float64 rounds) (new (history p).created windowTime) (history p).calls =
      some (heap.obj p)

/-- What has been inserted into the channels. -/
def Topic.inserted {float64 : ℤ → α} {windowTime T : ℤ} (t : Topic float64 windowTime T) :
    Multiset (Sample α) :=
  ∑ p ∈ t.channels.reduceOption.toFinset, Latency.inserted float64 (t.history p).calls

/-- No sample of the window of the last call, or of the one before it, has become old since. -/
def History.Current (M T : ℤ) (float64 : ℤ → α) (h : History) : Prop :=
  ∀ x ∈ inserted float64 h.calls,
    movesBy M h.created (lastTime h.created h.calls) ≤ movesBy M h.created x.time + 1 →
      T - x.time ≤ 2 * M

/-! ### Merging -/

theorem Quantile.samples_eq (q : Quantile α) (i : Bool) :
    q.samples = q.streams i + q.streams (!i) := by
  cases i with
  | false => rfl
  | true => exact add_comm _ _

theorem Quantile.mergeStream_samples (q : Quantile α) (i : Bool) (theirs : Multiset (Sample α)) :
    (q.mergeStream i theirs).samples = q.samples + theirs := by
  have hother : (!i) ≠ i := Bool.not_ne_self i
  rw [samples_eq _ i, samples_eq q i]
  show Function.update q.streams i _ i + Function.update q.streams i _ (!i) = _
  rw [Function.update_self, Function.update_of_ne hother]
  exact add_right_comm _ _ _

theorem Quantile.merge_samples (q them : Quantile α) :
    (q.merge them).samples = q.samples + them.samples := by
  have hboth : (q.merge them).samples =
      ((q.mergeStream q.currentIndex (them.streams them.currentIndex)).mergeStream (!q.currentIndex)
        (them.streams (!them.currentIndex))).samples := by
    unfold Quantile.merge
    simp only []
    split <;> rfl
  rw [hboth, mergeStream_samples, mergeStream_samples, samples_eq them them.currentIndex, add_assoc]

theorem Quantile.merge_moveWindowTime (q them : Quantile α) :
    (q.merge them).moveWindowTime = q.moveWindowTime := by
  unfold Quantile.merge
  simp only []
  split <;> rfl

/-- A quantile that has not moved later than us does not change the time of our windows. -/
theorem Quantile.merge_lastMoveWindow {q them : Quantile α}
    (h : them.lastMoveWindow ≤ q.lastMoveWindow) :
    (q.merge them).lastMoveWindow = q.lastMoveWindow := by
  have hlate : ¬ ((q.mergeStream q.currentIndex (them.streams them.currentIndex)).mergeStream
      (!q.currentIndex) (them.streams (!them.currentIndex))).lastMoveWindow < them.lastMoveWindow :=
    not_lt.mpr h
  rw [Quantile.merge]
  simp only [if_neg hlate]
  rfl

theorem Heap.set_obj_ne {p p' : ℕ} (h : Heap α) (q : Quantile α) (hp : p ≠ p') :
    (h.set p' q).obj p = h.obj p := Function.update_of_ne hp _ _

theorem Heap.set_obj_self (h : Heap α) (p : ℕ) (q : Quantile α) : (h.set p q).obj p = q :=
  Function.update_self _ _ _

/-! ### The loop over the channels -/

/-- The samples of the summary. -/
def summary (s : Option ℕ × Heap α) : Multiset (Sample α) :=
  match s.1 with
  | none => 0
  | some us => (s.2.obj us).samples

/-- The quantiles at `pointers` are merged, into one that is new; those of the channels are as
before. -/
structure Merged (h₀ : Heap α) (windowTime T : ℤ) (pointers : List ℕ) (s : Option ℕ × Heap α) :
    Prop where
  frame : ∀ p < h₀.next, s.2.obj p = h₀.obj p
  next : h₀.next ≤ s.2.next
  fresh : ∀ us, s.1 = some us → h₀.next ≤ us
  window : ∀ us, s.1 = some us → (s.2.obj us).moveWindowTime = windowTime.tdiv 2
  last : ∀ us, s.1 = some us → (s.2.obj us).lastMoveWindow = T
  samples : summary s = (pointers.map fun p => (h₀.obj p).samples).sum

section Aggregate

variable {h₀ h : Heap α} {windowTime T : ℤ} {pointers : List ℕ} {us p : ℕ} {s : Option ℕ × Heap α}

/-- `Merge` of a channel into a summary that is there. -/
theorem Merged.merge (hs : Merged h₀ windowTime T pointers (some us, h)) (hp : p < h₀.next)
    (hlast : (h₀.obj p).lastMoveWindow ≤ T) :
    ∃ h', h.merge us p = some h' ∧ Merged h₀ windowTime T (pointers ++ [p]) (some us, h') := by
  have hfresh := hs.fresh us rfl
  have hthem : h.obj p = h₀.obj p := hs.frame p hp
  refine ⟨h.set us ((h.obj us).merge (h.obj p)), if_neg (by omega), ?_⟩
  constructor
  case frame =>
    intro p' hp'
    exact (h.set_obj_ne _ (by omega)).trans (hs.frame p' hp')
  case next => exact hs.next
  case fresh =>
    intro us' hus'
    exact Option.some.inj hus' ▸ hfresh
  case window =>
    intro us' hus'
    cases hus'
    exact (congrArg _ (h.set_obj_self us _)).trans
      ((Quantile.merge_moveWindowTime _ _).trans (hs.window us rfl))
  case last =>
    intro us' hus'
    cases hus'
    have hle : (h.obj p).lastMoveWindow ≤ (h.obj us).lastMoveWindow := by
      rw [hthem, hs.last us rfl]
      exact hlast
    exact (congrArg _ (h.set_obj_self us _)).trans
      ((Quantile.merge_lastMoveWindow hle).trans (hs.last us rfl))
  case samples =>
    have hsum : (h.obj us).samples = (pointers.map fun p => (h₀.obj p).samples).sum := hs.samples
    show ((h.set us _).obj us).samples = _
    rw [h.set_obj_self, Quantile.merge_samples, hsum, hthem, List.map_append, List.sum_append,
      List.map_singleton, List.sum_singleton]

/-- The summary is made when there is a first channel to merge. -/
theorem Merged.alloc (hs : Merged h₀ windowTime T pointers (none, h)) :
    Merged h₀ windowTime T pointers
      (some (h.alloc (new T windowTime)).1, (h.alloc (new T windowTime)).2) := by
  have hobj : (h.alloc (new T windowTime)).2.obj h.next = new T windowTime := h.set_obj_self _ _
  have hnext := hs.next
  constructor
  case frame =>
    intro p hp
    have hne : p ≠ h.next := by
      have hnext' : h₀.next ≤ h.next := hnext
      omega
    exact (h.set_obj_ne _ hne).trans (hs.frame p hp)
  case next => exact hnext.trans (Nat.le_succ _)
  case fresh =>
    intro us hus
    exact Option.some.inj hus ▸ hnext
  case window =>
    intro us hus
    cases hus
    exact congrArg Quantile.moveWindowTime hobj
  case last =>
    intro us hus
    cases hus
    exact congrArg Quantile.lastMoveWindow hobj
  case samples =>
    have hnone : (0 : Multiset (Sample α)) = _ := hs.samples
    rw [← hnone]
    exact congrArg Quantile.samples hobj

theorem Merged.aggregateChannel (hs : Merged h₀ windowTime T pointers s) (hp : p < h₀.next)
    (hlast : (h₀.obj p).lastMoveWindow ≤ T) :
    ∃ s', Latency.aggregateChannel T windowTime s (some p) = some s' ∧
      Merged h₀ windowTime T (pointers ++ [p]) s' := by
  obtain ⟨us, h⟩ := s
  cases us with
  | none =>
      obtain ⟨h', hh', hs'⟩ := hs.alloc.merge hp hlast
      exact ⟨_, congrArg (Option.map _) hh', hs'⟩
  | some us =>
      obtain ⟨h', hh', hs'⟩ := hs.merge hp hlast
      exact ⟨_, congrArg (Option.map _) hh', hs'⟩

/-- The whole loop. -/
theorem Merged.foldlM (channels : List (Option ℕ)) (hs : Merged h₀ windowTime T pointers s)
    (hp : ∀ p ∈ channels.reduceOption, p < h₀.next ∧ (h₀.obj p).lastMoveWindow ≤ T) :
    ∃ s', channels.foldlM (Latency.aggregateChannel T windowTime) s = some s' ∧
      Merged h₀ windowTime T (pointers ++ channels.reduceOption) s' := by
  induction channels generalizing pointers s with
  | nil => exact ⟨s, rfl, (List.append_nil pointers).symm ▸ hs⟩
  | cons c channels ih =>
      cases c with
      | none =>
          rw [List.reduceOption_cons_of_none] at hp ⊢
          exact ih hs hp
      | some p =>
          rw [List.reduceOption_cons_of_some] at hp ⊢
          obtain ⟨hlt, hlast⟩ := hp p List.mem_cons_self
          obtain ⟨s₁, hs₁, hmerged₁⟩ := hs.aggregateChannel hlt hlast
          obtain ⟨s', hs', hmerged⟩ := ih hmerged₁ fun p' hp' => hp p' (List.mem_cons_of_mem p hp')
          refine ⟨s', ?_, ?_⟩
          · rw [List.foldlM_cons, hs₁]
            exact hs'
          · rwa [List.append_assoc] at hmerged

end Aggregate

/-! ### What a channel has -/

section Channels

variable {float64 : ℤ → α} {windowTime T M t₀ s : ℤ} {p : ℕ}

/-- The windows have not moved past the time of the call. -/
theorem movesBy_mul_le (hM : 0 < M) (h : t₀ ≤ s) : t₀ + movesBy M t₀ s * M ≤ s := by
  rcases Nat.eq_zero_or_eq_succ_pred (movesBy M t₀ s) with hzero | hsucc
  · simpa [hzero] using h
  · have hpred : (movesBy M t₀ s).pred < movesBy M t₀ s := hsucc ▸ Nat.lt_succ_self _
    have hlt := (lt_movesBy_iff hM).mp hpred
    rw [hsucc, Nat.cast_succ, add_mul, one_mul]
    omega

/-- A channel still has the windows of its last call. -/
theorem Topic.inv (t : Topic float64 windowTime T) (hM : 0 < windowTime.tdiv 2)
    (hp : p ∈ t.channels.reduceOption) :
    Inv (windowTime.tdiv 2) (t.history p).created (Latency.inserted float64 (t.history p).calls)
      (movesBy (windowTime.tdiv 2) (t.history p).created
        (lastTime (t.history p).created (t.history p).calls)) (t.heap.obj p) := by
  obtain ⟨n, hn⟩ := t.called p hp
  have hstart : movesBy (windowTime.tdiv 2) (t.history p).created (t.history p).created = 0 :=
    movesBy_start hM
  have hnew : Inv (windowTime.tdiv 2) (t.history p).created (0 : Multiset (Sample α)) _
      (new (t.history p).created windowTime) :=
    hstart ▸ new_inv _ windowTime
  have hrounds := lt_of_le_of_lt
    (le_max_right n (movesBy (windowTime.tdiv 2) (t.history p).created T)) (Nat.lt_succ_self _)
  obtain ⟨q, hq, hinv⟩ := hnew.run hM float64 (t.inOrder p hp) hrounds
  rw [hn _ (Nat.lt_succ_of_le (le_max_left _ _)), Option.some.injEq] at hq
  rwa [add_zero, ← hq] at hinv

theorem Topic.samples (t : Topic float64 windowTime T) (hM : 0 < windowTime.tdiv 2)
    (hp : p ∈ t.channels.reduceOption) :
    (t.heap.obj p).samples = (Latency.inserted float64 (t.history p).calls).filter fun x =>
      movesBy (windowTime.tdiv 2) (t.history p).created
        (lastTime (t.history p).created (t.history p).calls) ≤
          movesBy (windowTime.tdiv 2) (t.history p).created x.time + 1 := (t.inv hM hp).merged

theorem Topic.lastMoveWindow_le (t : Topic float64 windowTime T) (hM : 0 < windowTime.tdiv 2)
    (hp : p ∈ t.channels.reduceOption) : (t.heap.obj p).lastMoveWindow ≤ T := by
  obtain ⟨hstart, hend⟩ := (t.inOrder p hp).lastTime_le
  rw [(t.inv hM hp).last]
  exact (movesBy_mul_le hM hstart).trans hend

/-- What is recent is in the window of the last call or in the one before. -/
theorem Topic.recent_le (t : Topic float64 windowTime T) (hM : 0 < windowTime.tdiv 2)
    (hp : p ∈ t.channels.reduceOption) :
    (Latency.inserted float64 (t.history p).calls).filter
        (fun x => T - x.time < windowTime.tdiv 2) ≤
      (t.heap.obj p).samples := by
  rw [t.samples hM hp]
  refine Multiset.monotone_filter_right _ fun x hx => ?_
  exact (movesBy_mono hM (t.inOrder p hp).lastTime_le.2).trans (movesBy_recent hM hx)

theorem Topic.inserted_eq (t : Topic float64 windowTime T) :
    t.inserted =
      (t.channels.reduceOption.map fun p => Latency.inserted float64 (t.history p).calls).sum :=
  List.sum_toFinset _ t.own

end Channels

theorem filter_sum {β : Type} (keep : β → Prop) [DecidablePred keep] (l : List (Multiset β)) :
    l.sum.filter keep = (l.map (Multiset.filter keep)).sum := by
  induction l with
  | nil => rfl
  | cons s l ih => rw [List.sum_cons, List.map_cons, List.sum_cons, Multiset.filter_add, ih]

theorem mem_sum {β : Type} {x : β} {l : List (Multiset β)} : x ∈ l.sum ↔ ∃ s ∈ l, x ∈ s := by
  induction l with
  | nil => simp
  | cons s l ih => simp [ih]

/-- A summary of which the windows are as of `T` has all its samples at `T`. -/
theorem result_summary {h₀ : Heap α} {windowTime T : ℤ} {pointers : List ℕ} {s : Option ℕ × Heap α}
    (hs : Merged h₀ windowTime T pointers s) (hM : 0 < windowTime.tdiv 2) {rounds : ℕ}
    (hrounds : 0 < rounds) :
    ∃ h, result rounds T s = some (summary s, h) ∧ ∀ p < h₀.next, h.obj p = h₀.obj p := by
  obtain ⟨us, h⟩ := s
  cases us with
  | none => exact ⟨h, rfl, hs.frame⟩
  | some us =>
      have hfresh : ¬ (h.obj us).isDataStale T = true := by
        have hlast : (h.obj us).lastMoveWindow = T := hs.last us rfl
        have hwindow : (h.obj us).moveWindowTime = _ := hs.window us rfl
        rw [Quantile.isDataStale, decide_eq_true_eq, hlast, hwindow]
        omega
      obtain ⟨n, rfl⟩ : ∃ n, rounds = n + 1 := ⟨rounds - 1, by omega⟩
      have hloop : Outcomes.forever (Quantile.catchUp T) (n + 1) (h.obj us) = some (h.obj us) :=
        Outcomes.forever_inr (if_neg hfresh)
      refine ⟨h.set us (h.obj us), ?_, fun p hp => ?_⟩
      · exact congrArg (Option.map _) (congrArg (Option.map _) hloop)
      · have hne : p ≠ us := by
          have hus := hs.fresh us rfl
          omega
        exact (h.set_obj_ne _ hne).trans (hs.frame p hp)

/-- **The summary of a topic.** It is made and read, and the quantiles of the channels stay as they
are; it has every recent sample once and no old one exactly when no channel has kept a sample that
has become old since its last call. -/
theorem topic_fresh_iff {float64 : ℤ → α} {windowTime T : ℤ} (t : Topic float64 windowTime T)
    (hM : 0 < windowTime.tdiv 2) (rounds : ℕ) (hrounds : 0 < rounds) :
    ∃ s samples h,
      aggregateChannelE2eProcessingLatency T windowTime t.channels t.heap = some s ∧
        result rounds T s = some (samples, h) ∧
          (∀ p ∈ t.channels.reduceOption, h.obj p = t.heap.obj p) ∧
            (Fresh (windowTime.tdiv 2) T t.inserted samples ↔
              ∀ p ∈ t.channels.reduceOption,
                (t.history p).Current (windowTime.tdiv 2) T float64) := by
  have hstart : Merged t.heap windowTime T [] ((none : Option ℕ), t.heap) :=
    { frame := fun _ _ => rfl, next := le_rfl, fresh := nofun, window := nofun, last := nofun,
      samples := rfl }
  obtain ⟨s, hs, hmerged⟩ := hstart.foldlM t.channels fun p hp =>
    ⟨t.allocated p hp, t.lastMoveWindow_le hM hp⟩
  obtain ⟨h, hh, hframe⟩ := result_summary hmerged hM hrounds
  refine ⟨s, summary s, h, hs, hh, fun p hp => hframe p (t.allocated p hp), ?_⟩
  rw [hmerged.samples, List.nil_append, t.inserted_eq]
  constructor
  · intro hf p hp x hx hle
    refine hf.old x (mem_sum.mpr ⟨_, List.mem_map_of_mem hp, ?_⟩)
    rw [t.samples hM hp]
    exact Multiset.mem_filter.mpr ⟨hx, hle⟩
  · intro hcurrent
    constructor
    case recent =>
      rw [filter_sum, List.map_map]
      exact List.sum_le_sum fun p hp => t.recent_le hM hp
    case old =>
      intro x hx
      obtain ⟨_, hmem, hx⟩ := mem_sum.mp hx
      obtain ⟨p, hp, rfl⟩ := List.mem_map.mp hmem
      rw [t.samples hM hp] at hx
      exact hcurrent p hp x (Multiset.mem_filter.mp hx).1 (Multiset.mem_filter.mp hx).2
    case once =>
      refine List.sum_le_sum fun p hp => ?_
      rw [t.samples hM hp]
      exact Multiset.filter_le _ _

/-- The channel at 0 has had no call since its message at 1; the one at 2 has just been queried. -/
def idleHistory : ℕ → History
  | 0 => ⟨0, [.insert 1 101 100]⟩
  | _ => ⟨50, [.query 100]⟩

def idleChannel : Topic id 20 100 where
  heap :=
    { obj := fun p =>
        if p = 0 then (new 0 20).insertSample ⟨1, 1⟩
        else ((new 50 20).moveWindow.moveWindow.moveWindow.moveWindow : Quantile ℤ)
      next := 3 }
  channels := [some 0, none, some 2]
  history := idleHistory
  own := by decide
  allocated := by decide
  inOrder := by decide
  called := by
    have hzero : ∃ n, ∀ rounds, n < rounds →
        Runs.run (call id rounds) (new 0 20) [.insert 1 101 100] =
          some ((new 0 20).insertSample ⟨1, 1⟩) := by
      refine ⟨0, fun rounds hrounds => ?_⟩
      obtain ⟨n, rfl⟩ : ∃ n, rounds = n + 1 := ⟨rounds - 1, by omega⟩
      rfl
    have htwo : ∃ n, ∀ rounds, n < rounds →
        Runs.run (call (id : ℤ → ℤ) rounds) (new 50 20) [.query 100] =
          some (new 50 20).moveWindow.moveWindow.moveWindow.moveWindow := by
      refine ⟨4, fun rounds hrounds => ?_⟩
      obtain ⟨n, rfl⟩ : ∃ n, rounds = n + 5 := ⟨rounds - 5, by omega⟩
      rfl
    intro p hp
    rcases List.mem_pair.mp hp with rfl | rfl
    · exact hzero
    · exact htwo

theorem topic_fresh_idleChannel :
    0 < (20 : ℤ).tdiv 2 ∧ 0 < 1 ∧ ∃ s samples h,
      aggregateChannelE2eProcessingLatency 100 20 idleChannel.channels idleChannel.heap = some s ∧
        result 1 100 s = some (samples, h) ∧
          (∀ p ∈ idleChannel.channels.reduceOption, h.obj p = idleChannel.heap.obj p) ∧
            (Fresh ((20 : ℤ).tdiv 2) 100 idleChannel.inserted samples ↔
              ∀ p ∈ idleChannel.channels.reduceOption,
                (idleChannel.history p).Current ((20 : ℤ).tdiv 2) 100 id) :=
  ⟨by decide, by decide, topic_fresh_iff idleChannel (by decide) 1 (by decide)⟩

/-- The message of 99 ago is in the summary. -/
theorem idleChannel_not_fresh :
    ∃ s samples h,
      aggregateChannelE2eProcessingLatency 100 20 idleChannel.channels idleChannel.heap = some s ∧
        result 1 100 s = some (samples, h) ∧ ¬ Fresh 10 100 idleChannel.inserted samples := by
  refine ⟨_, _, _, rfl, rfl, fun hf => ?_⟩
  have hold := hf.old ⟨1, 1⟩ (by decide)
  revert hold
  decide

end Xmq.Latency
