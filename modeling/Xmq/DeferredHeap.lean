import Mathlib.Algebra.Order.Group.Multiset
import Mathlib.Tactic.Abel
import Xmq.ContainerHeap
import Xmq.PriorityQueues
import Xmq.Runs

/-!
# The deferred queue as a data structure

`pqueue.PriorityQueue` has the five methods of `heap.Interface`; `container/heap` calls them. What a
`heap.Push`, `heap.Pop` or `heap.Remove` does to the slice, and whether it panics, comes from the
methods alone (`heap_represents`).

As in the in-flight queue there is one `Index` field for each item, and an item that is pushed while
it is stored has two slots.
-/

namespace Xmq.PriorityQueue

open IndexedHeap

/-- The items, and the slice. -/
structure Queue where
  items : Items
  pq : Slice

/-- An operation on the queue, or an assignment to an item that is not stored. -/
inductive QueueOp where
  | push (x : ItemPtr)
  | pop
  | remove (i : ℤ)
  | peekAndShift (max : ℤ)
  | assign (x : ItemPtr) (item : Item)
  deriving DecidableEq

/-- `New`. -/
def new (items : Items) (capacity : ℕ) (h : 1 ≤ capacity) : Queue := ⟨items, Slice.new capacity h⟩

namespace Queue

def heap (q : Queue) : Heap Items ItemPtr := ⟨q.items, q.pq.slots⟩

def less (q : Queue) (i j : ℕ) : Option Bool :=
  match q.pq.slots[i]?, q.pq.slots[j]? with
  | some x, some y => some (decide ((q.items.obj x).priority < (q.items.obj y).priority))
  | _, _ => none

def swap (q : Queue) (i j : ℕ) : Option Queue :=
  match q.pq.slots[i]?, q.pq.slots[j]? with
  | some x, some y =>
    some
      { items := setIndex (setIndex q.items y i) x j
        pq := q.pq.reslice ((q.pq.slots.set i y).set j x) (by simp) }
  | _, _ => none

def push (q : Queue) (x : ItemPtr) : Queue where
  items := setIndex q.items x q.pq.slots.length
  pq := q.pq.grow (q.pq.slots ++ [x]) (by simp)

def pop (q : Queue) : Option (ItemPtr × Queue) :=
  match q.pq.slots.getLast? with
  | some x => some (x, ⟨setIndex q.items x (-1), q.pq.shrink q.pq.slots.dropLast (by simp)⟩)
  | none => none

instance : ContainerHeap.Interface Queue ItemPtr where
  len q := q.pq.slots.length
  less := less
  swap := swap
  push := push
  pop := pop

/-- What it returns, and the queue after it; `none` is a panic. -/
def peekAndShift (q : Queue) (max : ℤ) : Option ((Option ItemPtr × ℤ) × Queue) :=
  match q.pq.slots[0]? with
  | none => some ((none, 0), q)
  | some item =>
    if (q.items.obj item).priority > max then
      some ((none, ((q.items.obj item).priority - max).bmod (2 ^ 64)), q)
    else (ContainerHeap.remove q 0).map fun r => ((some item, 0), r.2)

/-- The item that an operation returns, and the queue after it. -/
def step (q : Queue) : QueueOp → Option (Option ItemPtr × Queue)
  | .push x => (ContainerHeap.push q x).map fun q' => (none, q')
  | .pop => (ContainerHeap.pop q).map fun r => (some r.1, r.2)
  | .remove i => (ContainerHeap.remove q i).map fun r => (some r.1, r.2)
  | .peekAndShift max => (q.peekAndShift max).map fun r => (r.1.1, r.2)
  | .assign x item =>
    if x ∈ q.pq.slots then none else some (none, { q with items := q.items.set x item })

/-- The operations that are called as they may be. -/
def Allowed (q : Queue) : QueueOp → Prop
  | .pop => 0 < q.pq.slots.length
  | .remove i => 0 ≤ i ∧ i < q.pq.slots.length
  | .assign x _ => x ∉ q.pq.slots
  | _ => True

/-- The element in slot `c` is not before the one in the slot of its parent. -/
def HeapOrdered (q : Queue) : Prop :=
  ∀ c x y, 0 < c → q.pq.slots[(c - 1) / 2]? = some x → q.pq.slots[c]? = some y →
    (q.items.obj x).priority ≤ (q.items.obj y).priority

/-- Every item's `Index` is its slot. -/
def Positioned (q : Queue) : Prop :=
  ∀ (i : ℕ) (x : ItemPtr), q.pq.slots[i]? = some x → (q.items.obj x).index = i

/-- `x` is out of the queue `q'`, its `Index` is `-1`, and the rest of `q` is still there. -/
def Takes (q q' : Queue) (x : ItemPtr) : Prop :=
  q.pq.slots.Perm (x :: q'.pq.slots) ∧ (q'.items.obj x).index = -1

/-- No stored item has a lower priority value. -/
def Least (q : Queue) (x : ItemPtr) : Prop :=
  ∀ y ∈ q.pq.slots, (q.items.obj x).priority ≤ (q.items.obj y).priority

/-- What an operation should do. -/
def Effect (q : Queue) : QueueOp → Option ItemPtr × Queue → Prop
  | .push x, r => r.1 = none ∧ r.2.pq.slots.Perm (x :: q.pq.slots)
  | .pop, r => ∃ x, r.1 = some x ∧ q.Least x ∧ q.Takes r.2 x
  | .remove i, r => ∃ x, r.1 = some x ∧ q.pq.slots[i.toNat]? = some x ∧ q.Takes r.2 x
  | .peekAndShift max, r =>
    (∃ x, r.1 = some x ∧ q.Least x ∧ (q.items.obj x).priority ≤ max ∧ q.Takes r.2 x) ∨
      r = (none, q) ∧ ∀ y ∈ q.pq.slots, max < (q.items.obj y).priority
  | .assign x item, r => r = (none, { q with items := q.items.set x item })

/-! ### The methods -/

variable {q : Queue}

/-- **The methods** are those of a heap of references. -/
theorem heap_represents : ContainerHeap.Represents heap where
  len _ := rfl
  less := by
    intro q i j hi hj
    have hx : q.pq.slots[i]? = some q.pq.slots[i] := List.getElem?_eq_getElem hi
    have hy : q.pq.slots[j]? = some q.pq.slots[j] := List.getElem?_eq_getElem hj
    have hle : keyLe q.heap j i =
        decide (key q.items q.pq.slots[j] ≤ key q.items q.pq.slots[i]) := by
      simp only [keyLe, heap, hx, hy]
      exact decide_eq_decide.mpr Iff.rfl
    show q.less i j = some (!keyLe q.heap j i)
    rw [less, hle, hx, hy, ← decide_not]
    exact congrArg some (decide_eq_decide.mpr not_le.symm)
  swap := by
    intro q i j hi hj
    have hx : q.pq.slots[i]? = some q.pq.slots[i] := List.getElem?_eq_getElem hi
    have hy : q.pq.slots[j]? = some q.pq.slots[j] := List.getElem?_eq_getElem hj
    refine ⟨⟨setIndex (setIndex q.items q.pq.slots[j] i) q.pq.slots[i] j,
      q.pq.reslice ((q.pq.slots.set i q.pq.slots[j]).set j q.pq.slots[i]) (by simp)⟩, ?_,
      (swap_of_lt q.heap hi hj).symm⟩
    show q.swap i j = _
    rw [swap, hx, hy]
  push _ _ := rfl
  pop := by
    intro q x k hdrop
    show ∃ q', q.pop = some (x, q') ∧ q'.heap = k
    simp only [dropLast, heap] at hdrop
    rw [pop]
    cases hlast : q.pq.slots.getLast? with
    | none =>
        rw [hlast] at hdrop
        cases hdrop
    | some y =>
        rw [hlast] at hdrop
        cases hdrop
        exact ⟨_, rfl, rfl⟩

/-- `heap.Push` is the push of the heap. -/
theorem push_eq (q : Queue) (x : ItemPtr) :
    ∃ q', ContainerHeap.push q x = some q' ∧ q'.heap = PriorityQueue.push q.heap x :=
  ContainerHeap.Represents.push_eq heap_represents x

theorem remove_eq {i : ℕ} {x : ItemPtr} {k : Heap Items ItemPtr}
    (hk : PriorityQueue.remove q.heap i = some (x, k)) :
    ∃ q', ContainerHeap.remove q i = some (x, q') ∧ q'.heap = k := by
  rw [PriorityQueue.remove] at hk
  split at hk
  case isTrue hi => exact ContainerHeap.Represents.remove_eq heap_represents hi hk
  case isFalse => cases hk

/-- `heap.Pop` takes the root out. -/
theorem pop_root {x : ItemPtr} (hx : q.pq.slots[0]? = some x) :
    ∃ q', ContainerHeap.pop q = some (x, q') ∧ TakenOut q.heap x q'.heap ∧
      (Indexed q.heap → Indexed q'.heap) ∧
      (Ordered q.heap.slots.length q.heap → Ordered q'.heap.slots.length q'.heap) := by
  have hpos : 0 < q.heap.slots.length := (List.getElem?_eq_some_iff.mp hx).1
  obtain ⟨k, hk, hout⟩ := root_takenOut pick (h := q.heap) hx
  obtain ⟨q', hq', rfl⟩ := ContainerHeap.Represents.pop_eq heap_represents hpos hk
  refine ⟨q', hq', hout, fun hi => ?_, fun ho => root_ordered pick_picks ho hk hpos⟩
  obtain ⟨k', hk', hr⟩ := root_removed pick hi (h := q.heap) hx
  rw [hk] at hk'
  cases hk'
  exact hr.indexed

/-- `heap.Remove` takes the element of the position out. -/
theorem remove_slot {i : ℕ} {x : ItemPtr} (hx : q.pq.slots[i]? = some x) :
    ∃ q', ContainerHeap.remove q i = some (x, q') ∧ TakenOut q.heap x q'.heap ∧
      (Indexed q.heap → Indexed q'.heap) ∧
      (Ordered q.heap.slots.length q.heap → Ordered q'.heap.slots.length q'.heap) := by
  obtain ⟨k, hk, hout⟩ := remove_takenOut (h := q.heap) hx
  obtain ⟨q', hq', rfl⟩ := remove_eq hk
  refine ⟨q', hq', hout, fun hi => ?_, fun ho => remove_ordered ho hk⟩
  obtain ⟨k', hk', hr⟩ := remove_removed hi hx
  rw [hk] at hk'
  cases hk'
  exact hr.indexed

/-- The root is shifted when it is due, and nothing otherwise. -/
theorem peekAndShift_cases (q : Queue) (max : ℤ) :
    (∃ x q', q.pq.slots[0]? = some x ∧ (q.items.obj x).priority ≤ max ∧
        q.peekAndShift max = some ((some x, 0), q') ∧ ContainerHeap.remove q 0 = some (x, q')) ∨
      ∃ n, q.peekAndShift max = some ((none, n), q) ∧
        ∀ x, q.pq.slots[0]? = some x → max < (q.items.obj x).priority := by
  rw [peekAndShift]
  cases hx : q.pq.slots[0]? with
  | none => exact .inr ⟨0, rfl, nofun⟩
  | some x =>
      by_cases hlate : (q.items.obj x).priority > max
      · exact .inr ⟨_, if_pos hlate, fun y hy => Option.some.inj hy ▸ hlate⟩
      · obtain ⟨q', hq', -⟩ := remove_slot hx
        have hq' : ContainerHeap.remove q 0 = some (x, q') := hq'
        exact .inl ⟨x, q', rfl, not_lt.mp hlate, by rw [hq']; exact if_neg hlate, hq'⟩

theorem heapOrdered_iff : q.HeapOrdered ↔ Ordered q.pq.slots.length q.heap :=
  (ordered_iff q.heap).symm

/-! ### One step -/

theorem takes_of_takenOut {q' : Queue} {x : ItemPtr} (h : TakenOut q.heap x q'.heap) :
    q.Takes q' x :=
  ⟨h.perm, h.index_eq⟩

theorem least_root (ho : q.HeapOrdered) {x : ItemPtr} (hx : q.pq.slots[0]? = some x) : q.Least x :=
  root_key_le (h := q.heap) (heapOrdered_iff.mp ho) hx

theorem assign_heapOrdered (ho : q.HeapOrdered) {x : ItemPtr} (hx : x ∉ q.pq.slots) (item : Item) :
    HeapOrdered { q with items := q.items.set x item } := by
  intro c y z h0 hy hz
  have hobj : ∀ w ∈ q.pq.slots, (q.items.set x item).obj w = q.items.obj w := fun w hw =>
    Items.set_ne q.items item fun e => hx (e ▸ hw)
  show ((q.items.set x item).obj y).priority ≤ ((q.items.set x item).obj z).priority
  rw [hobj y (List.mem_of_getElem? hy), hobj z (List.mem_of_getElem? hz)]
  exact ho c y z h0 hy hz

/-- **One step.** An operation that is called as it may be does not panic, does what it should, and
leaves the heap ordered. -/
theorem step_effect (ho : q.HeapOrdered) {op : QueueOp} (ha : q.Allowed op) :
    ∃ r, q.step op = some r ∧ q.Effect op r ∧ r.2.HeapOrdered := by
  have hord : Ordered q.heap.slots.length q.heap := heapOrdered_iff.mp ho
  cases op with
  | push x =>
      obtain ⟨q', hq', hheap⟩ := q.push_eq x
      have hperm : q'.pq.slots.Perm (x :: q.pq.slots) := by
        show q'.heap.slots.Perm _
        rw [hheap]
        exact (up_swaps (m := q.heap.slots.length + 1) _ _ (by omega)).perm.trans
          (List.perm_append_singleton x q.pq.slots)
      refine ⟨(none, q'), congrArg (Option.map _) hq', ⟨rfl, hperm⟩, heapOrdered_iff.mpr ?_⟩
      rw [hperm.length_eq, hheap]
      exact push_ordered hord x
  | pop =>
      have hx : q.pq.slots[0]? = some q.pq.slots[0] := List.getElem?_eq_getElem ha
      obtain ⟨q', hq', hout, -, hord'⟩ := pop_root hx
      exact ⟨_, congrArg (Option.map _) hq', ⟨_, rfl, least_root ho hx, takes_of_takenOut hout⟩,
        heapOrdered_iff.mpr (hord' hord)⟩
  | remove i =>
      obtain ⟨h0, hi⟩ := ha
      obtain ⟨n, rfl⟩ := Int.eq_ofNat_of_zero_le h0
      have hx : q.pq.slots[n]? = some q.pq.slots[n] := List.getElem?_eq_getElem (by omega)
      obtain ⟨q', hq', hout, -, hord'⟩ := remove_slot hx
      exact ⟨_, congrArg (Option.map _) hq', ⟨_, rfl, hx, takes_of_takenOut hout⟩,
        heapOrdered_iff.mpr (hord' hord)⟩
  | peekAndShift max =>
      rcases q.peekAndShift_cases max with ⟨x, q', hx, hdue, hstep, hremove⟩ | ⟨n, hstep, hlate⟩
      · obtain ⟨q'', hq'', hout, -, hord'⟩ := remove_slot hx
        obtain rfl : q' = q'' := by
          have hsame := hremove.symm.trans hq''
          simpa using hsame
        exact ⟨_, congrArg (Option.map _) hstep,
          .inl ⟨x, rfl, least_root ho hx, hdue, takes_of_takenOut hout⟩,
          heapOrdered_iff.mpr (hord' hord)⟩
      · refine ⟨_, congrArg (Option.map _) hstep, .inr ⟨rfl, fun y hy => ?_⟩, ho⟩
        have hpos : 0 < q.pq.slots.length := List.length_pos_of_mem hy
        have hx : q.pq.slots[0]? = some q.pq.slots[0] := List.getElem?_eq_getElem hpos
        exact lt_of_lt_of_le (hlate _ hx) (least_root ho hx y hy)
  | assign x item => exact ⟨_, if_neg ha, rfl, assign_heapOrdered ho ha item⟩

/-- An exchange with a position that is not there panics. -/
theorem swap_eq_none {i j : ℕ} (h : q.pq.slots.length ≤ i) : q.swap i j = none := by
  rw [swap, List.getElem?_eq_none h]

/-- Nothing else returns. -/
theorem allowed_of_step {op : QueueOp} {r : Option ItemPtr × Queue} (h : q.step op = some r) :
    q.Allowed op := by
  cases op with
  | push x => trivial
  | pop =>
      by_contra hempty
      have hnone : ContainerHeap.pop q = none :=
        congrArg (Option.bind · _) (swap_eq_none (Nat.not_lt.mp hempty))
      obtain ⟨s, hs, -⟩ := Option.map_eq_some_iff.mp h
      cases hnone.symm.trans hs
  | remove i =>
      by_contra hout
      have hnone : ContainerHeap.remove q i = none := by
        have hlen : ContainerHeap.Interface.len q = q.pq.slots.length := rfl
        rw [ContainerHeap.remove, hlen]
        by_cases hlast : (q.pq.slots.length : ℤ) - 1 ≠ i
        · simp only [if_pos hlast]
          by_cases hneg : i < 0 ∨ (q.pq.slots.length : ℤ) - 1 < 0
          · exact if_pos hneg
          · rw [if_neg hneg]
            refine congrArg (Option.bind · _) (swap_eq_none ?_)
            by_contra hlt
            exact hout ⟨by omega, by omega⟩
        · have hempty : q.pq.slots = [] := by
            rw [← List.length_eq_zero_iff]
            by_contra hne
            exact hout ⟨by omega, by omega⟩
          have hnil : q.pq.slots.getLast? = none := by rw [hempty, List.getLast?_nil]
          simp only [if_neg hlast]
          show q.pop = none
          rw [pop, hnil]
      obtain ⟨s, hs, -⟩ := Option.map_eq_some_iff.mp h
      cases hnone.symm.trans hs
  | peekAndShift max => trivial
  | assign x item =>
      intro hx
      have hnone : q.step (.assign x item) = none := if_pos hx
      cases hnone.symm.trans h

/-- The stored positions stay right as long as no stored item is pushed. -/
theorem step_positioned (hp : q.Positioned) {op : QueueOp} {r : Option ItemPtr × Queue}
    (h : q.step op = some r) (hfresh : ∀ x, op = .push x → x ∉ q.pq.slots) : r.2.Positioned := by
  have hi : Indexed q.heap := hp
  have hallowed := allowed_of_step h
  cases op with
  | push x =>
      obtain ⟨q', hq', hheap⟩ := q.push_eq x
      obtain ⟨q'', hq'', rfl⟩ := Option.map_eq_some_iff.mp h
      obtain rfl : q' = q'' := Option.some.inj (hq'.symm.trans hq'')
      show Indexed q'.heap
      rw [hheap]
      exact (push_added hi (hfresh x rfl)).indexed
  | pop =>
      have hx : q.pq.slots[0]? = some q.pq.slots[0] := List.getElem?_eq_getElem hallowed
      obtain ⟨q', hq', -, hi', -⟩ := pop_root hx
      obtain ⟨s, hs, rfl⟩ := Option.map_eq_some_iff.mp h
      cases hq'.symm.trans hs
      exact hi' hi
  | remove i =>
      obtain ⟨h0, hlt⟩ := hallowed
      obtain ⟨n, rfl⟩ := Int.eq_ofNat_of_zero_le h0
      have hx : q.pq.slots[n]? = some q.pq.slots[n] := List.getElem?_eq_getElem (by omega)
      obtain ⟨q', hq', -, hi', -⟩ := remove_slot hx
      obtain ⟨s, hs, rfl⟩ := Option.map_eq_some_iff.mp h
      cases hq'.symm.trans hs
      exact hi' hi
  | peekAndShift max =>
      obtain ⟨s, hs, rfl⟩ := Option.map_eq_some_iff.mp h
      rcases q.peekAndShift_cases max with ⟨x, q', hx, -, hstep, hremove⟩ | ⟨n, hstep, -⟩
      · obtain ⟨q'', hq'', -, hi', -⟩ := remove_slot hx
        cases hremove.symm.trans hq''
        cases hstep.symm.trans hs
        exact hi' hi
      · cases hstep.symm.trans hs
        exact hp
  | assign x item =>
      have hstep : q.step (.assign x item) = some (none, { q with items := q.items.set x item }) :=
        if_neg hallowed
      cases hstep.symm.trans h
      intro i y hy
      have hne : y ≠ x := by
        rintro rfl
        exact hallowed (List.mem_of_getElem? hy)
      show ((q.items.set x item).obj y).index = i
      rw [Items.set_ne q.items item hne]
      exact hp i y hy

end Queue

/-! ### Any sequence of operations -/

/-- A queue, with what was pushed and what was removed so far. -/
structure History where
  queue : Queue
  pushed : Multiset ItemPtr
  removed : Multiset ItemPtr

/-- The item an operation pushes. -/
def QueueOp.pushes : QueueOp → Multiset ItemPtr
  | .push x => {x}
  | _ => 0

namespace History

def new (items : Items) (capacity : ℕ) (h : 1 ≤ capacity) : History :=
  ⟨PriorityQueue.new items capacity h, 0, 0⟩

def step (s : History) (op : QueueOp) : Option History :=
  (s.queue.step op).map fun r =>
    ⟨r.2, s.pushed + op.pushes, s.removed + (r.1.toList : Multiset ItemPtr)⟩

/-- What holds whatever is pushed. -/
structure Correct (s : History) : Prop where
  ordered : s.queue.HeapOrdered
  contents : (s.queue.pq.slots : Multiset ItemPtr) + s.removed = s.pushed

/-- The operation pushes no stored item. -/
def PushesNew (s : History) : QueueOp → Prop
  | .push x => x ∉ s.queue.pq.slots
  | _ => True

instance (s : History) (op : QueueOp) : Decidable (s.PushesNew op) := by
  cases op <;> unfold PushesNew <;> infer_instance

theorem new_correct (items : Items) (capacity : ℕ) (h : 1 ≤ capacity) :
    Correct (new items capacity h) where
  ordered := by
    intro c x y _ hx _
    simp [new, PriorityQueue.new, Slice.new] at hx
  contents := rfl

/-- One element moves from the pushed ones into the slots, or from the slots to the removed ones. -/
theorem effect_contents {q : Queue} {op : QueueOp} {r : Option ItemPtr × Queue}
    (h : q.Effect op r) :
    (r.2.pq.slots : Multiset ItemPtr) + (r.1.toList : Multiset ItemPtr) =
      op.pushes + (q.pq.slots : Multiset ItemPtr) := by
  have taken : ∀ x, r.1 = some x → q.Takes r.2 x →
      (r.2.pq.slots : Multiset ItemPtr) + (r.1.toList : Multiset ItemPtr) =
        0 + (q.pq.slots : Multiset ItemPtr) := by
    intro x hx htakes
    rw [hx, zero_add, Multiset.coe_eq_coe.mpr htakes.1, add_comm]
    rfl
  cases op with
  | push x =>
      rw [h.1, Multiset.coe_eq_coe.mpr h.2]
      exact add_zero _
  | pop =>
      obtain ⟨x, hx, -, htakes⟩ := h
      exact taken x hx htakes
  | remove i =>
      obtain ⟨x, hx, -, htakes⟩ := h
      exact taken x hx htakes
  | peekAndShift max =>
      rcases h with ⟨x, hx, -, -, htakes⟩ | ⟨hnone, -⟩
      · exact taken x hx htakes
      · rw [hnone]
        exact (add_zero _).trans (zero_add _).symm
  | assign x item =>
      rw [show r = (none, _) from h]
      exact (add_zero _).trans (zero_add _).symm

theorem Correct.step (s : History) (op : QueueOp) (s' : History) (hs : Correct s)
    (h : s.step op = some s') : Correct s' := by
  obtain ⟨r, hr, rfl⟩ := Option.map_eq_some_iff.mp h
  obtain ⟨r', hr', heff, hord⟩ := Queue.step_effect hs.ordered (Queue.allowed_of_step hr)
  obtain rfl : r = r' := Option.some.inj (hr.symm.trans hr')
  refine ⟨hord, ?_⟩
  show (r.2.pq.slots : Multiset ItemPtr) + (s.removed + (r.1.toList : Multiset ItemPtr)) =
    s.pushed + op.pushes
  calc (r.2.pq.slots : Multiset ItemPtr) + (s.removed + (r.1.toList : Multiset ItemPtr))
      = r.2.pq.slots + (r.1.toList : Multiset ItemPtr) + s.removed := by abel
    _ = op.pushes + (s.queue.pq.slots : Multiset ItemPtr) + s.removed := by rw [effect_contents heff]
    _ = s.queue.pq.slots + s.removed + op.pushes := by abel
    _ = s.pushed + op.pushes := by rw [hs.contents]

end History

/-- **The deferred queue is a heap** after any sequence of operations, it holds what was pushed and
not removed, within its capacity, and what it does next is right; its stored positions are right
too, when no item was pushed while it was stored. -/
theorem deferred_correct (items : Items) (capacity : ℕ) (hcap : 1 ≤ capacity) (ops : List QueueOp)
    {s : History} (hrun : Runs.run History.step (History.new items capacity hcap) ops = some s) :
    s.Correct ∧ s.queue.pq.slots.length ≤ s.queue.pq.cap ∧
      (∀ op, s.queue.Allowed op → ∃ r, s.queue.step op = some r ∧ s.queue.Effect op r) ∧
      (Runs.Along History.step History.PushesNew (History.new items capacity hcap) ops →
        s.queue.Positioned) := by
  have hs : s.Correct := Runs.invariant_run History.Correct.step ops _ s
    (History.new_correct items capacity hcap) hrun
  refine ⟨hs, s.queue.pq.length_le_cap, fun op ha => ?_, fun hnew => ?_⟩
  · obtain ⟨r, hr, heff, -⟩ := Queue.step_effect hs.ordered ha
    exact ⟨r, hr, heff⟩
  · refine Runs.invariant_along (I := fun s : History => s.queue.Positioned) ?_ ops _ s ?_ hnew hrun
    · intro s op s' hp hfresh h
      obtain ⟨r, hr, rfl⟩ := Option.map_eq_some_iff.mp h
      refine Queue.step_positioned hp hr fun x hpush => ?_
      subst hpush
      exact hfresh
    · intro i x hx
      simp [History.new, PriorityQueue.new, Slice.new] at hx

-- a loop by well-founded recursion, which the runs below unfold
unseal ContainerHeap.up

/-- Items with the priorities 30, 20, 10, 0, … -/
def someItems : Items where
  obj p := { value := p, priority := 30 - 10 * p, index := 0 }

/-- Four items in a queue of capacity one; one is removed from the middle and pushed again, a due
one is shifted, and then the least one is taken. -/
def someOps : List QueueOp :=
  [.push 0, .push 1, .push 2, .push 3, .remove 2, .assign 1 (someItems.obj 0), .push 1,
    .peekAndShift 5, .pop]

theorem someOps_run :
    (Runs.run History.step (History.new someItems 1 (Nat.le_refl 1)) someOps).isSome := by
  decide

/-- The queue after these operations. -/
def someQueue : History := (Runs.run History.step _ someOps).get someOps_run

theorem deferred_correct_someOps :
    someQueue.Correct ∧ someQueue.queue.pq.cap = 4 ∧ someQueue.queue.Positioned :=
  have h := deferred_correct someItems 1 (Nat.le_refl 1) someOps (Option.some_get someOps_run).symm
  ⟨h.1, by decide, h.2.2.2 (by decide)⟩

theorem twice_runs :
    (Runs.run History.step (History.new someItems 1 (Nat.le_refl 1))
      [.push 0, .push 0]).isSome := by
  decide

/-- An item that is pushed while it is stored is in two slots, and its `Index` is one of them. -/
theorem pushed_again : ∃ s,
    Runs.run History.step (History.new someItems 1 (Nat.le_refl 1)) [.push 0, .push 0] = some s ∧
      s.queue.pq.slots = [0, 0] ∧ ¬ s.queue.Positioned := by
  refine ⟨_, (Option.some_get twice_runs).symm, by decide, fun h => ?_⟩
  have h0 := h 0 0 (by decide)
  exact absurd h0 (by decide)

end Xmq.PriorityQueue
