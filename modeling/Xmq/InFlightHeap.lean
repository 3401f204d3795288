import Mathlib.Algebra.Order.Group.Multiset
import Mathlib.Tactic.Abel
import Xmq.ChannelModel
import Xmq.DeferredHeap
import Xmq.Runs

/-!
# The in-flight queue as a data structure

`in_flight_pqueue.go` on its own: a slice of pointers with a capacity, four operations, and any
sequence of them. The queue does not look at where a pointer comes from, so the heap order, the
answers and the capacity are right whatever is pushed. The stored positions are another matter:
there is one `index` field per message, and a message that is pushed while it is stored has two
slots. `pqueue_correct` keeps the two apart.
-/

namespace Xmq

open IndexedHeap

namespace InFlightPqueue

/-- The message objects, and the slice. -/
structure Queue where
  msgs : Msgs
  pq : Slice

/-- An operation of the queue, or an assignment to a message that is not stored. -/
inductive QueueOp where
  | push (p : MsgPtr)
  | pop
  | remove (i : ℤ)
  | peekAndShift (max : ℤ)
  | assign (p : MsgPtr) (m : Message)
  deriving DecidableEq

/-- `newInFlightPqueue`. -/
def newInFlightPqueue (msgs : Msgs) (capacity : ℕ) (h : 1 ≤ capacity) : Queue where
  msgs := msgs
  pq := Slice.new capacity h

namespace Queue

def heap (q : Queue) : Heap Msgs MsgPtr := ⟨q.msgs, q.pq.slots⟩

def push (q : Queue) (p : MsgPtr) : Queue where
  msgs := (InFlightPqueue.push q.heap p).mem
  pq := q.pq.grow (InFlightPqueue.push q.heap p).slots (InFlight.push_length q.heap p)

/-- `none` is an index out of range, as in `remove`. -/
def pop (q : Queue) : Option (MsgPtr × Queue) :=
  match hp : InFlightPqueue.pop q.heap with
  | some (p, k) =>
    some (p, ⟨k.mem, q.pq.shrink k.slots
      (Nat.le_of_lt (Nat.lt_of_succ_le (Nat.le_of_eq (InFlight.pop_length hp))))⟩)
  | none => none

def remove (q : Queue) (i : ℤ) : Option (MsgPtr × Queue) :=
  match hr : InFlightPqueue.remove q.heap i with
  | some (p, k) =>
    some (p, ⟨k.mem, q.pq.reslice k.slots
      (Nat.le_of_lt (Nat.lt_of_succ_le (Nat.le_of_eq (InFlight.remove_length hr))))⟩)
  | none => none

def peekAndShift (q : Queue) (max : ℤ) : Option MsgPtr × Queue :=
  match hs : InFlightPqueue.peekAndShift q.heap max with
  | some (p, k) =>
    (some p, ⟨k.mem, q.pq.shrink k.slots
      (Nat.le_of_lt (Nat.lt_of_succ_le (Nat.le_of_eq (InFlight.peekAndShift_length hs))))⟩)
  | none => (none, q)

/-- What an operation returns, and the queue after it. -/
def step (q : Queue) : QueueOp → Option (Option MsgPtr × Queue)
  | .push p => some (none, q.push p)
  | .pop => q.pop.map fun r => (some r.1, r.2)
  | .remove i => (q.remove i).map fun r => (some r.1, r.2)
  | .peekAndShift max => some (q.peekAndShift max)
  | .assign p m => if p ∈ q.pq.slots then none else some (none, { q with msgs := q.msgs.set p m })

/-- The operations that are called as they may be. -/
def Allowed (q : Queue) : QueueOp → Prop
  | .pop => 0 < q.pq.slots.length
  | .remove i => 0 ≤ i ∧ i < q.pq.slots.length
  | .assign p _ => p ∉ q.pq.slots
  | _ => True

/-- The element in slot `c` is not before the one in the slot of its parent. -/
def HeapOrdered (q : Queue) : Prop :=
  ∀ c x y, 0 < c → q.pq.slots[(c - 1) / 2]? = some x → q.pq.slots[c]? = some y →
    (q.msgs.obj x).pri ≤ (q.msgs.obj y).pri

/-- Every element's `index` is its slot. -/
def Positioned (q : Queue) : Prop :=
  ∀ (i : ℕ) (x : MsgPtr), q.pq.slots[i]? = some x → (q.msgs.obj x).index = i

/-- `x` is out of the queue `q'`, its `index` is `-1`, and the rest of `q` is still there. -/
def Takes (q q' : Queue) (x : MsgPtr) : Prop :=
  q.pq.slots.Perm (x :: q'.pq.slots) ∧ (q'.msgs.obj x).index = -1

/-- No stored message has a lower priority value. -/
def Least (q : Queue) (x : MsgPtr) : Prop :=
  ∀ y ∈ q.pq.slots, (q.msgs.obj x).pri ≤ (q.msgs.obj y).pri

/-- What an operation should do. -/
def Effect (q : Queue) : QueueOp → Option MsgPtr × Queue → Prop
  | .push p, r => r.1 = none ∧ r.2.pq.slots.Perm (p :: q.pq.slots)
  | .pop, r => ∃ x, r.1 = some x ∧ q.Least x ∧ q.Takes r.2 x
  | .remove i, r => ∃ x, r.1 = some x ∧ q.pq.slots[i.toNat]? = some x ∧ q.Takes r.2 x
  | .peekAndShift max, r =>
    (∃ x, r.1 = some x ∧ q.Least x ∧ (q.msgs.obj x).pri ≤ max ∧ q.Takes r.2 x) ∨
      r = (none, q) ∧ ∀ y ∈ q.pq.slots, max < (q.msgs.obj y).pri
  | .assign p m, r => r = (none, { q with msgs := q.msgs.set p m })

/-! ### Each operation -/

variable {q q' : Queue} {x : MsgPtr}

theorem heapOrdered_iff : q.HeapOrdered ↔ Ordered q.pq.slots.length q.heap :=
  (ordered_iff q.heap).symm

theorem pop_eq (h : q.pop = some (x, q')) :
    InFlightPqueue.pop q.heap = some (x, q'.heap) := by
  unfold pop at h
  split at h
  · rename_i hp
    cases h
    exact hp
  · cases h

theorem remove_eq {i : ℤ} (h : q.remove i = some (x, q')) :
    InFlightPqueue.remove q.heap i = some (x, q'.heap) := by
  unfold remove at h
  split at h
  · rename_i hp
    cases h
    exact hp
  · cases h

theorem peekAndShift_cases (q : Queue) (max : ℤ) :
    (∃ x q', q.peekAndShift max = (some x, q') ∧
        InFlightPqueue.peekAndShift q.heap max = some (x, q'.heap)) ∨
      q.peekAndShift max = (none, q) ∧ InFlightPqueue.peekAndShift q.heap max = none := by
  unfold peekAndShift
  split
  · rename_i p k hs
    exact .inl ⟨p, _, rfl, hs⟩
  · rename_i hs
    exact .inr ⟨rfl, hs⟩

end Queue

/-! ### What is taken out -/

variable {h : Heap Msgs MsgPtr}

theorem pop_takenOut {x : MsgPtr} (hx : h.slots[0]? = some x) :
    ∃ k, pop h = some (x, k) ∧ TakenOut h x k :=
  root_takenOut pick hx

theorem remove_takenOut {i : ℕ} {x : MsgPtr} (hx : h.slots[i]? = some x) :
    ∃ k, remove h i = some (x, k) ∧ TakenOut h x k := by
  obtain ⟨hlt, -⟩ := List.getElem?_eq_some_iff.mp hx
  obtain ⟨n, hn⟩ : ∃ n, h.slots.length = n + 1 := ⟨h.slots.length - 1, by omega⟩
  rw [remove, if_pos ⟨by omega, by omega⟩, Int.toNat_natCast]
  simp only [hn, Nat.add_sub_cancel]
  split
  · exact takenOut_of_swaps hn (by omega) hx
      ((down_swaps pick _ i n (Nat.le_refl n)).trans (up_swaps _ i (by omega)))
  · have hin : i = n := by omega
    exact ⟨_, dropLast_takenOut hn (hin ▸ hx)⟩

/-- The root is shifted when it is due, and nothing otherwise. -/
theorem peekAndShift_root (h : Heap Msgs MsgPtr) (max : ℤ) :
    (∃ x k, h.slots[0]? = some x ∧ (h.mem.obj x).pri ≤ max ∧
        peekAndShift h max = some (x, k) ∧ pop h = some (x, k) ∧ TakenOut h x k) ∨
      peekAndShift h max = none ∧ ∀ x, h.slots[0]? = some x → max < (h.mem.obj x).pri := by
  cases hx : h.slots[0]? with
  | none => exact .inr ⟨by rw [peekAndShift, hx], fun x e => by cases e⟩
  | some x =>
      by_cases hdue : (h.mem.obj x).pri > max
      · refine .inr ⟨by rw [peekAndShift, hx]; exact if_pos hdue, fun y e => ?_⟩
        cases e
        exact hdue
      · obtain ⟨k, hk, hout⟩ := pop_takenOut hx
        refine .inl ⟨x, k, rfl, by omega, ?_, hk, hout⟩
        rw [peekAndShift, hx, ← hk]
        exact if_neg hdue

/-! ### One step -/

namespace Queue

variable {q : Queue}

theorem takes_of_takenOut {q' : Queue} {x : MsgPtr} (h : TakenOut q.heap x q'.heap) :
    q.Takes q' x :=
  ⟨h.perm, h.index_eq⟩

theorem assign_heapOrdered (ho : q.HeapOrdered) {p : MsgPtr} (hp : p ∉ q.pq.slots) (m : Message) :
    HeapOrdered { q with msgs := q.msgs.set p m } := by
  intro c x y h0 hx hy
  have hobj : ∀ z ∈ q.pq.slots, (q.msgs.set p m).obj z = q.msgs.obj z := fun z hz =>
    Msgs.set_ne q.msgs m fun e => hp (e ▸ hz)
  show ((q.msgs.set p m).obj x).pri ≤ ((q.msgs.set p m).obj y).pri
  rw [hobj x (List.mem_of_getElem? hx), hobj y (List.mem_of_getElem? hy)]
  exact ho c x y h0 hx hy

/-- **One step.** An operation that is called as it may be indexes nothing out of range, does what
it should, and leaves the heap ordered. -/
theorem step_effect (ho : q.HeapOrdered) {op : QueueOp} (ha : q.Allowed op) :
    ∃ r, q.step op = some r ∧ q.Effect op r ∧ r.2.HeapOrdered := by
  have hord := heapOrdered_iff.mp ho
  cases op with
  | push p =>
      refine ⟨_, rfl, ⟨rfl, ?_⟩, heapOrdered_iff.mpr ?_⟩
      · exact (up_swaps (m := q.heap.slots.length + 1) _ _ (by omega)).perm.trans
          (List.perm_append_singleton p q.pq.slots)
      · have hpush := push_ordered (h := q.heap) hord p
        rwa [← InFlight.push_length q.heap p] at hpush
  | pop =>
      obtain ⟨x, hx⟩ : ∃ x, q.heap.slots[0]? = some x := ⟨_, List.getElem?_eq_getElem ha⟩
      obtain ⟨k, hk, hout⟩ := pop_takenOut hx
      obtain ⟨r, hr⟩ : ∃ r, q.pop = some r := by
        unfold Queue.pop
        split
        · exact ⟨_, rfl⟩
        · rename_i hnone
          rw [hk] at hnone
          cases hnone
      have heq := pop_eq hr
      rw [hk] at heq
      obtain ⟨rfl, rfl⟩ : x = r.1 ∧ k = r.2.heap := by simpa using heq
      refine ⟨_, by rw [step, hr]; rfl, ⟨_, rfl, root_key_le hord hx, takes_of_takenOut hout⟩,
        heapOrdered_iff.mpr ?_⟩
      exact pop_ordered hord hk ha
  | remove i =>
      obtain ⟨h0, hi⟩ := ha
      have hlt : i.toNat < q.pq.slots.length := by omega
      have hx : q.heap.slots[i.toNat]? = some q.pq.slots[i.toNat] := List.getElem?_eq_getElem hlt
      obtain ⟨k, hk, hout⟩ := remove_takenOut hx
      rw [Int.toNat_of_nonneg h0] at hk
      obtain ⟨r, hr⟩ : ∃ r, q.remove i = some r := by
        unfold Queue.remove
        split
        · exact ⟨_, rfl⟩
        · rename_i hnone
          rw [hk] at hnone
          cases hnone
      have heq := remove_eq hr
      rw [hk] at heq
      obtain ⟨hx', rfl⟩ : q.pq.slots[i.toNat] = r.1 ∧ k = r.2.heap := by simpa using heq
      rw [hx'] at hx hk hout
      refine ⟨_, by rw [step, hr]; rfl, ⟨_, rfl, hx, takes_of_takenOut hout⟩,
        heapOrdered_iff.mpr ?_⟩
      exact remove_ordered hord hk
  | peekAndShift max =>
      refine ⟨_, rfl, ?_⟩
      rcases peekAndShift_root q.heap max with
        ⟨x, k, hx, hdue, hs, hk, hout⟩ | ⟨hs, hlate⟩
      · rcases peekAndShift_cases q max with ⟨y, q', hr, hs'⟩ | ⟨-, hs'⟩
        · rw [hs] at hs'
          obtain ⟨rfl, rfl⟩ : x = y ∧ k = q'.heap := by simpa using hs'
          rw [hr]
          refine ⟨.inl ⟨x, rfl, root_key_le hord hx, hdue, takes_of_takenOut hout⟩, ?_⟩
          exact heapOrdered_iff.mpr
            (pop_ordered hord hk (List.getElem?_eq_some_iff.mp hx).1)
        · rw [hs] at hs'
          cases hs'
      · rcases peekAndShift_cases q max with ⟨y, q', -, hs'⟩ | ⟨hr, -⟩
        · rw [hs] at hs'
          cases hs'
        · rw [hr]
          refine ⟨.inr ⟨rfl, fun y hy => ?_⟩, ho⟩
          have hpos : 0 < q.pq.slots.length := List.length_pos_of_mem hy
          have hx : q.heap.slots[0]? = some q.pq.slots[0] := List.getElem?_eq_getElem hpos
          exact lt_of_lt_of_le (hlate _ hx) (root_key_le hord hx y hy)
  | assign p m =>
      refine ⟨_, if_neg ha, rfl, assign_heapOrdered ho ha m⟩

/-- Nothing else returns. -/
theorem allowed_of_step {op : QueueOp} {r : Option MsgPtr × Queue} (h : q.step op = some r) :
    q.Allowed op := by
  cases op with
  | push p => trivial
  | pop =>
      obtain ⟨s, hs, -⟩ := Option.map_eq_some_iff.mp h
      have hlen : _ = q.pq.slots.length := InFlight.pop_length (pop_eq hs)
      show 0 < q.pq.slots.length
      omega
  | remove i =>
      obtain ⟨s, hs, -⟩ := Option.map_eq_some_iff.mp h
      have hr := remove_eq hs
      unfold InFlightPqueue.remove at hr
      split at hr
      · assumption
      · cases hr
  | peekAndShift max => trivial
  | assign p m =>
      intro hp
      have hnone : q.step (.assign p m) = none := if_pos hp
      rw [hnone] at h
      cases h

/-- The stored positions stay right as long as no stored message is pushed. -/
theorem step_positioned (hp : q.Positioned) {op : QueueOp} {r : Option MsgPtr × Queue}
    (h : q.step op = some r) (hfresh : ∀ p, op = .push p → p ∉ q.pq.slots) : r.2.Positioned := by
  have hi : Indexed q.heap := hp
  have hallowed := allowed_of_step h
  cases op with
  | push p =>
      cases h
      exact (push_added hi (hfresh p rfl)).indexed
  | pop =>
      obtain ⟨s, hs, rfl⟩ := Option.map_eq_some_iff.mp h
      have hne : 0 < q.pq.slots.length := hallowed
      have hx : q.heap.slots[0]? = some q.pq.slots[0] := List.getElem?_eq_getElem hne
      obtain ⟨k, hk, hr⟩ := pop_removed hi hx
      have heq := pop_eq hs
      rw [hk] at heq
      obtain ⟨-, rfl⟩ : _ ∧ k = s.2.heap := by simpa using heq
      exact hr.indexed
  | remove i =>
      obtain ⟨s, hs, rfl⟩ := Option.map_eq_some_iff.mp h
      obtain ⟨h0, hlt⟩ := hallowed
      have hslot : i.toNat < q.pq.slots.length := by omega
      have hx : q.pq.slots[i.toNat]? = some q.pq.slots[i.toNat] := List.getElem?_eq_getElem hslot
      have hpos : (q.heap.mem.obj q.pq.slots[i.toNat]).index = i :=
        (hp _ _ hx).trans (Int.toNat_of_nonneg h0)
      obtain ⟨k, hk, hr⟩ := remove_removed hi (List.mem_of_getElem? hx)
      have heq := remove_eq hs
      rw [hpos] at hk
      rw [hk] at heq
      obtain ⟨-, rfl⟩ : _ ∧ k = s.2.heap := by simpa using heq
      exact hr.indexed
  | peekAndShift max =>
      cases h
      rcases peekAndShift_cases q max with ⟨x, q', hr, hs⟩ | ⟨hr, -⟩
      · rw [hr]
        exact (peekAndShift_removed hi hs).1.indexed
      · rw [hr]
        exact hp
  | assign p m =>
      have hstep : q.step (.assign p m) = some (none, { q with msgs := q.msgs.set p m }) :=
        if_neg hallowed
      rw [hstep] at h
      cases h
      intro i x hx
      have hne : x ≠ p := by
        rintro rfl
        exact hallowed (List.mem_of_getElem? hx)
      show ((q.msgs.set p m).obj x).index = i
      rw [Msgs.set_ne q.msgs m hne]
      exact hp i x hx

end Queue

/-! ### Any sequence of operations -/

/-- A queue, with what was pushed and what was removed so far. -/
structure History where
  queue : Queue
  pushed : Multiset MsgPtr
  removed : Multiset MsgPtr

/-- The message an operation pushes. -/
def QueueOp.pushes : QueueOp → Multiset MsgPtr
  | .push p => {p}
  | _ => 0

namespace History

def new (msgs : Msgs) (capacity : ℕ) (h : 1 ≤ capacity) : History :=
  ⟨newInFlightPqueue msgs capacity h, 0, 0⟩

def step (s : History) (op : QueueOp) : Option History :=
  (s.queue.step op).map fun r =>
    ⟨r.2, s.pushed + op.pushes, s.removed + (r.1.toList : Multiset MsgPtr)⟩

/-- What holds whatever is pushed. -/
structure Correct (s : History) : Prop where
  ordered : s.queue.HeapOrdered
  contents : (s.queue.pq.slots : Multiset MsgPtr) + s.removed = s.pushed

/-- The operation pushes no stored message. -/
def PushesNew (s : History) : QueueOp → Prop
  | .push p => p ∉ s.queue.pq.slots
  | _ => True

instance (s : History) (op : QueueOp) : Decidable (s.PushesNew op) := by
  cases op <;> unfold PushesNew <;> infer_instance

theorem new_correct (msgs : Msgs) (capacity : ℕ) (h : 1 ≤ capacity) :
    Correct (new msgs capacity h) where
  ordered := by
    intro c x y _ hx _
    simp [new, newInFlightPqueue, Slice.new] at hx
  contents := rfl

theorem step_queue {s s' : History} {op : QueueOp} (h : s.step op = some s') :
    ∃ r, s.queue.step op = some r ∧ s'.queue = r.2 ∧ s'.pushed = s.pushed + op.pushes ∧
      s'.removed = s.removed + (r.1.toList : Multiset MsgPtr) := by
  obtain ⟨r, hr, rfl⟩ := Option.map_eq_some_iff.mp h
  exact ⟨r, hr, rfl, rfl, rfl⟩

theorem Correct.step (s : History) (op : QueueOp) (s' : History) (hs : Correct s)
    (h : s.step op = some s') : Correct s' := by
  obtain ⟨r, hr, hq, hpush, hrem⟩ := step_queue h
  obtain ⟨r', hr', heff, hord⟩ := Queue.step_effect hs.ordered (Queue.allowed_of_step hr)
  obtain rfl : r = r' := Option.some.inj (hr.symm.trans hr')
  refine ⟨hq ▸ hord, ?_⟩
  -- one element moves from the pushed ones into the slots, or from the slots to the removed ones
  have hsum : (r.2.pq.slots : Multiset MsgPtr) + (r.1.toList : Multiset MsgPtr) =
      op.pushes + (s.queue.pq.slots : Multiset MsgPtr) := by
    have taken : ∀ x, r.1 = some x → s.queue.Takes r.2 x →
        (r.2.pq.slots : Multiset MsgPtr) + (r.1.toList : Multiset MsgPtr) =
          0 + (s.queue.pq.slots : Multiset MsgPtr) := by
      intro x hx htakes
      rw [hx, zero_add, Multiset.coe_eq_coe.mpr htakes.1, add_comm]
      rfl
    cases op with
    | push p =>
        rw [heff.1, Multiset.coe_eq_coe.mpr heff.2]
        exact add_zero _
    | pop =>
        obtain ⟨x, hx, -, htakes⟩ := heff
        exact taken x hx htakes
    | remove i =>
        obtain ⟨x, hx, -, htakes⟩ := heff
        exact taken x hx htakes
    | peekAndShift max =>
        rcases heff with ⟨x, hx, -, -, htakes⟩ | ⟨hnone, -⟩
        · exact taken x hx htakes
        · rw [hnone]
          exact (add_zero _).trans (zero_add _).symm
    | assign p m =>
        rw [show r = (none, _) from heff]
        exact (add_zero _).trans (zero_add _).symm
  rw [hq, hpush, hrem, ← hs.contents]
  calc (r.2.pq.slots : Multiset MsgPtr) + (s.removed + (r.1.toList : Multiset MsgPtr))
      = r.2.pq.slots + (r.1.toList : Multiset MsgPtr) + s.removed := by abel
    _ = op.pushes + (s.queue.pq.slots : Multiset MsgPtr) + s.removed := by rw [hsum]
    _ = s.queue.pq.slots + s.removed + op.pushes := by abel

end History

/-- **The in-flight queue is a heap** after any sequence of operations, it holds what was pushed
and not removed, and what it does next is right; its stored positions are right too, when no
message was pushed while it was stored. -/
theorem pqueue_correct (msgs : Msgs) (capacity : ℕ) (hcap : 1 ≤ capacity) (ops : List QueueOp)
    {s : History} (hrun : Runs.run History.step (History.new msgs capacity hcap) ops = some s) :
    s.Correct ∧ s.queue.pq.slots.length ≤ s.queue.pq.cap ∧ 1 ≤ s.queue.pq.cap ∧
      (∀ op, s.queue.Allowed op → ∃ r, s.queue.step op = some r ∧ s.queue.Effect op r) ∧
      (Runs.Along History.step History.PushesNew (History.new msgs capacity hcap) ops →
        s.queue.Positioned) := by
  have hs : s.Correct := Runs.invariant_run History.Correct.step ops _ s
    (History.new_correct msgs capacity hcap) hrun
  refine ⟨hs, s.queue.pq.length_le_cap, s.queue.pq.one_le_cap, fun op ha => ?_, fun hnew => ?_⟩
  · obtain ⟨r, hr, heff, -⟩ := Queue.step_effect hs.ordered ha
    exact ⟨r, hr, heff⟩
  · refine Runs.invariant_along (I := fun s : History => s.queue.Positioned) ?_ ops _ s ?_ hnew hrun
    · intro s op s' hp hfresh h
      obtain ⟨r, hr, hq, -⟩ := History.step_queue h
      rw [hq]
      refine Queue.step_positioned hp hr fun p hpush => ?_
      subst hpush
      exact hfresh
    · intro i x hx
      simp [History.new, newInFlightPqueue, Slice.new] at hx

-- the loops by well-founded recursion, which the runs below unfold
unseal IndexedHeap.up IndexedHeap.down

/-- Messages with the priorities 30, 20, 10, 0, 0, … -/
def someMsgs : Msgs where
  obj p := { newMessage (Vector.replicate 16 0) [] 0 with pri := 30 - 10 * p }

/-- Four messages in a queue of capacity one; the second is removed from the middle, gets a later
deadline and is pushed again, and then the least one is taken. -/
def someOps : List QueueOp :=
  [.push 0, .push 1, .push 2, .push 3, .remove 2, .assign 1 (someMsgs.obj 0), .push 1, .pop]

theorem someOps_runs :
    (Runs.run History.step (History.new someMsgs 1 Nat.one_pos) someOps).isSome := by
  decide

/-- The queue after these operations. -/
def someQueue : History := (Runs.run History.step _ someOps).get someOps_runs

theorem pqueue_correct_someOps :
    someQueue.Correct ∧ someQueue.queue.pq.slots = [2, 1, 0] ∧ someQueue.queue.pq.cap = 4 ∧
      someQueue.queue.Positioned :=
  have h := pqueue_correct someMsgs 1 (Nat.le_refl 1) someOps (Option.some_get someOps_runs).symm
  ⟨h.1, by decide, by decide, h.2.2.2.2 (by decide)⟩

/-- A message that is pushed while it is stored is in two slots, and its `index` is one of them. -/
theorem pushed_twice : ∃ s,
    Runs.run History.step (History.new someMsgs 1 (Nat.le_refl 1)) [.push 0, .push 0] = some s ∧
      s.queue.pq.slots = [0, 0] ∧ ¬ s.queue.Positioned := by
  refine ⟨⟨((newInFlightPqueue someMsgs 1 (Nat.le_refl 1)).push 0).push 0, _, _⟩, rfl, ?_, ?_⟩
  · decide
  · intro h
    have h0 := h 0 0 (by decide)
    exact absurd h0 (by decide)

end InFlightPqueue

end Xmq
