import Xmq.IndexedHeapOrder
import Xmq.Message

/-!
# The two priority queues of a channel

`InFlightPqueue` orders messages by `pri`, `PriorityQueue` orders deferred items by `Priority`.
Both are slices of pointers with a capacity, and both write an element's position into it. The
in-flight queue has its own heap code; the deferred queue is driven by the standard library's
`container/heap`, whose `Remove` sifts in one direction only.

`Slice` carries the two facts about the capacity that keep a re-slice in range. For each operation
there is one lemma about elements and positions (`Added`, `Removed`) and one about the heap order.
-/

namespace Xmq

open IndexedHeap

/-! ### Objects and pointers -/

abbrev MsgPtr := ℕ

abbrev ItemPtr := ℕ

/-- The message objects. -/
structure Msgs where
  obj : MsgPtr → Message

/-- `pqueue.Item`; the value is always a message. -/
structure Item where
  value : MsgPtr
  priority : ℤ
  index : ℤ
  deriving DecidableEq

/-- The items of the deferred queue. -/
structure Items where
  obj : ItemPtr → Item

namespace Msgs

def set (s : Msgs) (p : MsgPtr) (m : Message) : Msgs where
  obj q := if q = p then m else s.obj q

@[simp] theorem set_self (s : Msgs) (p : MsgPtr) (m : Message) : (s.set p m).obj p = m :=
  if_pos rfl

theorem set_ne (s : Msgs) {p q : MsgPtr} (m : Message) (h : q ≠ p) :
    (s.set p m).obj q = s.obj q :=
  if_neg h

end Msgs

namespace Items

def set (s : Items) (p : ItemPtr) (i : Item) : Items where
  obj q := if q = p then i else s.obj q

@[simp] theorem set_self (s : Items) (p : ItemPtr) (i : Item) : (s.set p i).obj p = i :=
  if_pos rfl

theorem set_ne (s : Items) {p q : ItemPtr} (i : Item) (h : q ≠ p) :
    (s.set p i).obj q = s.obj q :=
  if_neg h

end Items

instance : IndexedStore Msgs MsgPtr ℤ where
  key s p := (s.obj p).pri
  index s p := (s.obj p).index
  setIndex s p n := s.set p { s.obj p with index := n }

instance : IndexedStore Items ItemPtr ℤ where
  key s p := (s.obj p).priority
  index s p := (s.obj p).index
  setIndex s p n := s.set p { s.obj p with index := n }

theorem Msgs.obj_setIndex (s : Msgs) (p q : MsgPtr) (n : ℤ) :
    (setIndex s p n).obj q = if q = p then { s.obj q with index := n } else s.obj q := by
  show (s.set p { s.obj p with index := n }).obj q = _
  split
  · rename_i h
    rw [h, Msgs.set_self]
  · rename_i h
    exact Msgs.set_ne s _ h

theorem Items.obj_setIndex (s : Items) (p q : ItemPtr) (n : ℤ) :
    (setIndex s p n).obj q = if q = p then { s.obj q with index := n } else s.obj q := by
  show (s.set p { s.obj p with index := n }).obj q = _
  split
  · rename_i h
    rw [h, Items.set_self]
  · rename_i h
    exact Items.set_ne s _ h

instance : LawfulIndexedStore Msgs where
  key_setIndex s p q n := by
    show ((setIndex s p n).obj q).pri = (s.obj q).pri
    rw [Msgs.obj_setIndex]
    split <;> rfl
  index_setIndex_self s p n := by
    show ((setIndex s p n).obj p).index = n
    rw [Msgs.obj_setIndex, if_pos rfl]
  index_setIndex_ne s p q n h := by
    show ((setIndex s p n).obj q).index = (s.obj q).index
    rw [Msgs.obj_setIndex, if_neg h]

instance : LawfulIndexedStore Items where
  key_setIndex s p q n := by
    show ((setIndex s p n).obj q).priority = (s.obj q).priority
    rw [Items.obj_setIndex]
    split <;> rfl
  index_setIndex_self s p n := by
    show ((setIndex s p n).obj p).index = n
    rw [Items.obj_setIndex, if_pos rfl]
  index_setIndex_ne s p q n h := by
    show ((setIndex s p n).obj q).index = (s.obj q).index
    rw [Items.obj_setIndex, if_neg h]

/-- Heap operations change nothing of a message but its position. -/
theorem Msgs.field_eq {β : Type*} (f : Message → β) (hf : ∀ m n, f { m with index := n } = f m)
    {s t : Msgs} (h : Reindexed s t) (p : MsgPtr) : f (t.obj p) = f (s.obj p) :=
  h.congr (fun u => f (u.obj p)) fun u q n => by
    rw [Msgs.obj_setIndex]
    split
    · exact hf _ n
    · rfl

theorem Items.field_eq {β : Type*} (f : Item → β) (hf : ∀ i n, f { i with index := n } = f i)
    {s t : Items} (h : Reindexed s t) (p : ItemPtr) : f (t.obj p) = f (s.obj p) :=
  h.congr (fun u => f (u.obj p)) fun u q n => by
    rw [Items.obj_setIndex]
    split
    · exact hf _ n
    · rfl

theorem Msgs.obj_reindexed {s t : Msgs} (h : Reindexed s t) (p : MsgPtr) :
    ∃ n, t.obj p = { s.obj p with index := n } := by
  refine ⟨(t.obj p).index, ?_⟩
  have hrest := Msgs.field_eq (fun m : Message => { m with index := 0 }) (fun _ _ => rfl) h p
  simp only [Message.mk.injEq] at hrest
  cases hm : t.obj p
  simp_all

theorem Items.obj_reindexed {s t : Items} (h : Reindexed s t) (i : ItemPtr) :
    ∃ n, t.obj i = { s.obj i with index := n } := by
  refine ⟨(t.obj i).index, ?_⟩
  have hrest := Items.field_eq (fun m : Item => { m with index := 0 }) (fun _ _ => rfl) h i
  simp only [Item.mk.injEq] at hrest
  cases hm : t.obj i
  simp_all

theorem Msgs.id_eq {s t : Msgs} (h : Reindexed s t) (p : MsgPtr) : (t.obj p).id = (s.obj p).id :=
  Msgs.field_eq Message.id (fun _ _ => rfl) h p

theorem Items.value_eq {s t : Items} (h : Reindexed s t) (p : ItemPtr) :
    (t.obj p).value = (s.obj p).value :=
  Items.field_eq Item.value (fun _ _ => rfl) h p

/-! ### Slices -/

/-- A slice of pointers. The capacity is at least one, so doubling it makes room. -/
structure Slice where
  slots : List ℕ
  cap : ℕ
  one_le_cap : 1 ≤ cap
  length_le_cap : slots.length ≤ cap

namespace Slice

/-- `make([]T, 0, capacity)`. -/
def new (capacity : ℕ) (h : 1 ≤ capacity) : Slice where
  slots := []
  cap := capacity
  one_le_cap := h
  length_le_cap := by simp

/-- One more element, in a slice of twice the capacity when this one is full. -/
def grow (s : Slice) (slots : List ℕ) (h : slots.length = s.slots.length + 1) : Slice where
  slots := slots
  cap := if s.slots.length + 1 > s.cap then s.cap * 2 else s.cap
  one_le_cap := by
    have := s.one_le_cap
    split <;> omega
  length_le_cap := by
    have := s.length_le_cap
    have := s.one_le_cap
    split <;> omega

/-- One element less, in a slice of half the capacity when less than half of it was used. -/
def shrink (s : Slice) (slots : List ℕ) (h : slots.length ≤ s.slots.length) : Slice where
  slots := slots
  cap := if s.slots.length < s.cap / 2 ∧ s.cap > 25 then s.cap / 2 else s.cap
  one_le_cap := by
    have := s.one_le_cap
    split <;> omega
  length_le_cap := by
    have := s.length_le_cap
    split <;> omega

/-- One element less, in the same slice. -/
def reslice (s : Slice) (slots : List ℕ) (h : slots.length ≤ s.slots.length) : Slice :=
  { s with slots := slots, length_le_cap := h.trans s.length_le_cap }

end Slice

/-! ### The in-flight queue -/

namespace InFlightPqueue

/-- `pq[j1].pri >= pq[j2].pri`: the right child also wins a draw. -/
def pick (a b : ℤ) : Bool := decide (a ≥ b)

theorem pick_picks : Picks pick := by
  intro a b
  simp only [pick, decide_eq_true_eq, decide_eq_false_iff_not]
  omega

def push (h : Heap Msgs MsgPtr) (x : MsgPtr) : Heap Msgs MsgPtr :=
  up (append h x) h.slots.length

def pop (h : Heap Msgs MsgPtr) : Option (MsgPtr × Heap Msgs MsgPtr) :=
  dropLast (down pick (swap h 0 (h.slots.length - 1)) 0 (h.slots.length - 1)).1

/-- `none` is an index out of range. -/
def remove (h : Heap Msgs MsgPtr) (i : ℤ) : Option (MsgPtr × Heap Msgs MsgPtr) :=
  if 0 ≤ i ∧ i < h.slots.length then
    if h.slots.length - 1 ≠ i.toNat then
      dropLast (up (down pick (swap h i.toNat (h.slots.length - 1)) i.toNat
        (h.slots.length - 1)).1 i.toNat)
    else dropLast h
  else none

/-- The root, when it is due at `max`. -/
def peekAndShift (h : Heap Msgs MsgPtr) (max : ℤ) : Option (MsgPtr × Heap Msgs MsgPtr) :=
  match h.slots[0]? with
  | some x => if (h.mem.obj x).pri > max then none else pop h
  | none => none

end InFlightPqueue

/-! ### The deferred queue -/

namespace PriorityQueue

/-- `h.Less(j2, j1)` in `container/heap`: the left child wins a draw. -/
def pick (a b : ℤ) : Bool := decide (b < a)

theorem pick_picks : Picks pick := by
  intro a b
  simp only [pick, decide_eq_true_eq, decide_eq_false_iff_not]
  omega

/-- `heap.Push`. -/
def push (h : Heap Items ItemPtr) (x : ItemPtr) : Heap Items ItemPtr :=
  up (append h x) h.slots.length

/-- `heap.Remove`: the filled slot sifts up only when it did not sift down. -/
def remove (h : Heap Items ItemPtr) (i : ℕ) : Option (ItemPtr × Heap Items ItemPtr) :=
  if i < h.slots.length then
    if h.slots.length - 1 ≠ i then
      let d := down pick (swap h i (h.slots.length - 1)) i (h.slots.length - 1)
      dropLast (if d.2 = i then up d.1 i else d.1)
    else dropLast h
  else none

def peekAndShift (h : Heap Items ItemPtr) (max : ℤ) : Option (ItemPtr × Heap Items ItemPtr) :=
  match h.slots[0]? with
  | some x => if (h.mem.obj x).priority > max then none else remove h 0
  | none => none

end PriorityQueue

/-! ### What the operations do -/

theorem dropLast_length {σ : Type*} [IndexedStore σ ℕ ℤ] {h k : Heap σ ℕ} {x n : ℕ}
    (hd : dropLast h = some (x, k)) (hn : h.slots.length = n + 1) : k.slots.length = n := by
  unfold dropLast at hd
  split at hd
  · cases hd
    rw [List.length_dropLast, hn, Nat.add_sub_cancel]
  · cases hd

/-- Swaps below the last slot, after it was exchanged with slot `i`, leave the element of slot `i`
last. -/
theorem swaps_last {σ : Type*} [IndexedStore σ ℕ ℤ] {h k : Heap σ ℕ} {i n x : ℕ}
    (hn : h.slots.length = n + 1) (hin : i ≤ n) (hx : h.slots[i]? = some x)
    (hs : Swaps n (swap h i n) k) : k.slots[n]? = some x := by
  have hlt : i < h.slots.length := by omega
  rw [hs.getElem?_of_le (Nat.le_refl n), swap_of_lt h hlt (by omega)]
  rw [List.getElem?_set_self (by simpa using by omega)]
  rwa [List.getElem?_eq_getElem hlt] at hx

/-- Swaps of the last slot with slot `i` and below it, then the last element off: the element of
slot `i` is out. -/
theorem removed_of_swaps {σ : Type*} [IndexedStore σ ℕ ℤ] [LawfulIndexedStore σ] {h k : Heap σ ℕ}
    (hi : Indexed h) {i n x : ℕ} (hn : h.slots.length = n + 1) (hin : i ≤ n)
    (hx : h.slots[i]? = some x) (hs : Swaps n (swap h i n) k) :
    ∃ l, dropLast k = some (x, l) ∧ Removed h x l := by
  have hfirst : Swaps (n + 1) h (swap h i n) := .swap i n (by omega) (by omega) (.refl _)
  have hlen : k.slots.length = n + 1 := by rw [hs.length_eq, swap_length, hn]
  obtain ⟨l, hl, hr⟩ := dropLast_removed (hs.indexed (hi.swap i n)) hlen (swaps_last hn hin hx hs)
  exact ⟨l, hl, hfirst.removed (hs.removed hr)⟩

/-- The same whatever the stored positions were. -/
theorem takenOut_of_swaps {σ : Type*} [IndexedStore σ ℕ ℤ] [LawfulIndexedStore σ] {h k : Heap σ ℕ}
    {i n x : ℕ} (hn : h.slots.length = n + 1) (hin : i ≤ n) (hx : h.slots[i]? = some x)
    (hs : Swaps n (swap h i n) k) : ∃ l, dropLast k = some (x, l) ∧ TakenOut h x l := by
  have hfirst : Swaps (n + 1) h (swap h i n) := .swap i n (by omega) (by omega) (.refl _)
  have hlen : k.slots.length = n + 1 := by rw [hs.length_eq, swap_length, hn]
  obtain ⟨hl, hr⟩ := dropLast_takenOut hlen (swaps_last hn hin hx hs)
  exact ⟨_, hl, hfirst.takenOut (hs.takenOut hr)⟩

section Push

variable {σ : Type*} [IndexedStore σ ℕ ℤ] [LawfulIndexedStore σ] {h : Heap σ ℕ} {x : ℕ}

theorem append_up_added (hi : Indexed h) (hx : x ∉ h.slots) :
    Added h x (up (append h x) h.slots.length) :=
  (append_added hi hx).swaps (up_swaps (m := h.slots.length + 1) _ _ (by omega))

theorem append_up_ordered (ho : Ordered h.slots.length h) :
    Ordered (h.slots.length + 1) (up (append h x) h.slots.length) := by
  have hlen : (append h x).slots.length = h.slots.length + 1 := by
    rw [append, List.length_append, List.length_singleton]
  exact up_ordered (append_upPre ho x) (by omega) (by omega)

end Push

section Root

variable {σ : Type*} [IndexedStore σ ℕ ℤ] [LawfulIndexedStore σ] {h : Heap σ ℕ} {x : ℕ}

/-- The root, exchanged with the last element, which sifts down; then the last element off. -/
theorem root_takenOut (pick : ℤ → ℤ → Bool) (hx : h.slots[0]? = some x) :
    ∃ k, dropLast (down pick (swap h 0 (h.slots.length - 1)) 0 (h.slots.length - 1)).1 = some (x, k) ∧
      TakenOut h x k := by
  obtain ⟨hlt, -⟩ := List.getElem?_eq_some_iff.mp hx
  obtain ⟨n, hn⟩ : ∃ n, h.slots.length = n + 1 := ⟨h.slots.length - 1, by omega⟩
  rw [hn, Nat.add_sub_cancel]
  exact takenOut_of_swaps hn (by omega) hx (down_swaps pick _ 0 n (Nat.le_refl n))

theorem root_removed (pick : ℤ → ℤ → Bool) (hi : Indexed h) (hx : h.slots[0]? = some x) :
    ∃ k, dropLast (down pick (swap h 0 (h.slots.length - 1)) 0 (h.slots.length - 1)).1 = some (x, k) ∧
      Removed h x k := by
  obtain ⟨hlt, -⟩ := List.getElem?_eq_some_iff.mp hx
  obtain ⟨n, hn⟩ : ∃ n, h.slots.length = n + 1 := ⟨h.slots.length - 1, by omega⟩
  rw [hn, Nat.add_sub_cancel]
  exact removed_of_swaps hi hn (by omega) hx (down_swaps pick _ 0 n (Nat.le_refl n))

theorem root_ordered {pick : ℤ → ℤ → Bool} (hpick : Picks pick) (ho : Ordered h.slots.length h)
    {k : Heap σ ℕ}
    (hp : dropLast (down pick (swap h 0 (h.slots.length - 1)) 0 (h.slots.length - 1)).1 = some (x, k))
    (hpos : 0 < h.slots.length) : Ordered k.slots.length k := by
  obtain ⟨n, hn⟩ : ∃ n, h.slots.length = n + 1 := ⟨h.slots.length - 1, by omega⟩
  rw [hn, Nat.add_sub_cancel] at hp
  have hlen : ((down pick (swap h 0 n) 0 n).1).slots.length = n + 1 := by
    rw [(down_swaps (m := n) pick (swap h 0 n) 0 n (Nat.le_refl n)).length_eq, swap_length, hn]
  rw [dropLast_length hp hlen]
  refine dropLast_ordered hp hlen ?_
  rcases Nat.eq_zero_or_pos n with rfl | hpos
  · exact fun c h0 hc => by omega
  · exact down_root_ordered hpick ho hn hpos

end Root

namespace InFlightPqueue

variable {h : Heap Msgs MsgPtr}

theorem push_added (hi : Indexed h) {x : MsgPtr} (hx : x ∉ h.slots) : Added h x (push h x) :=
  append_up_added hi hx

theorem push_ordered (ho : Ordered h.slots.length h) (x : MsgPtr) :
    Ordered (h.slots.length + 1) (push h x) :=
  append_up_ordered ho

/-- Removing at a stored position takes out exactly the element stored there. -/
theorem remove_removed (hi : Indexed h) {x : MsgPtr} (hx : x ∈ h.slots) :
    ∃ k, remove h (h.mem.obj x).index = some (x, k) ∧ Removed h x k := by
  obtain ⟨i, hlt, hslot, hidx⟩ := hi.mem_index hx
  have hidx : (h.mem.obj x).index = i := hidx
  obtain ⟨n, hn⟩ : ∃ n, h.slots.length = n + 1 := ⟨h.slots.length - 1, by omega⟩
  rw [hidx, remove, if_pos ⟨by omega, by omega⟩, Int.toNat_natCast]
  simp only [hn, Nat.add_sub_cancel]
  split
  · have hlen : ((down pick (swap h i n) i n).1).slots.length = n + 1 := by
      rw [(down_swaps (m := n) pick (swap h i n) i n (Nat.le_refl n)).length_eq, swap_length, hn]
    exact removed_of_swaps hi hn (by omega) hslot
      ((down_swaps pick _ i n (Nat.le_refl n)).trans (up_swaps _ i (by omega)))
  · have hin : i = n := by omega
    exact dropLast_removed hi hn (hin ▸ hslot)

theorem remove_ordered (ho : Ordered h.slots.length h) {i : ℤ} {x : MsgPtr} {k : Heap Msgs MsgPtr}
    (hr : remove h i = some (x, k)) : Ordered k.slots.length k := by
  unfold remove at hr
  split at hr
  · rename_i hi
    obtain ⟨n, hn⟩ : ∃ n, h.slots.length = n + 1 := ⟨h.slots.length - 1, by omega⟩
    simp only [hn, Nat.add_sub_cancel] at hr
    split at hr
    · have hsw : Swaps n (swap h i.toNat n) (up (down pick (swap h i.toNat n) i.toNat n).1 i.toNat) :=
        (down_swaps pick _ i.toNat n (Nat.le_refl n)).trans (up_swaps _ i.toNat (by omega))
      have hlen : (up (down pick (swap h i.toNat n) i.toNat n).1 i.toNat).slots.length = n + 1 := by
        rw [hsw.length_eq, swap_length, hn]
      rw [dropLast_length hr hlen]
      exact dropLast_ordered hr hlen (down_up_ordered pick_picks ho hn (by omega))
    · rw [dropLast_length hr hn]
      exact dropLast_ordered hr hn fun c h0 hc => ho c h0 (by omega)
  · cases hr

theorem pop_removed (hi : Indexed h) {x : MsgPtr} (hx : h.slots[0]? = some x) :
    ∃ k, pop h = some (x, k) ∧ Removed h x k :=
  root_removed pick hi hx

theorem pop_ordered (ho : Ordered h.slots.length h) {x : MsgPtr} {k : Heap Msgs MsgPtr}
    (hp : pop h = some (x, k)) (hpos : 0 < h.slots.length) : Ordered k.slots.length k :=
  root_ordered pick_picks ho hp hpos

/-- What is shifted is out of the heap and due. -/
theorem peekAndShift_removed (hi : Indexed h) {max : ℤ} {x : MsgPtr} {k : Heap Msgs MsgPtr}
    (hs : peekAndShift h max = some (x, k)) : Removed h x k ∧ (h.mem.obj x).pri ≤ max := by
  unfold peekAndShift at hs
  split at hs
  · rename_i y hy
    split at hs
    · cases hs
    · obtain ⟨l, hl, hr⟩ := pop_removed hi hy
      rw [hl] at hs
      cases hs
      exact ⟨hr, by omega⟩
  · cases hs

theorem peekAndShift_ordered (ho : Ordered h.slots.length h) {max : ℤ} {x : MsgPtr}
    {k : Heap Msgs MsgPtr} (hs : peekAndShift h max = some (x, k)) : Ordered k.slots.length k := by
  unfold peekAndShift at hs
  split at hs
  · rename_i y hy
    split at hs
    · cases hs
    · exact pop_ordered ho hs (List.getElem?_eq_some_iff.mp hy).1
  · cases hs

/-- What is shifted is least. -/
theorem peekAndShift_least (hi : Indexed h) (ho : Ordered h.slots.length h) {max : ℤ} {x : MsgPtr}
    {k : Heap Msgs MsgPtr} (hs : peekAndShift h max = some (x, k)) :
    ∀ p ∈ h.slots, (h.mem.obj x).pri ≤ (h.mem.obj p).pri := by
  unfold peekAndShift at hs
  split at hs
  · rename_i y hy
    split at hs
    · cases hs
    · obtain ⟨l, hl, -⟩ := pop_removed hi hy
      rw [hl] at hs
      cases hs
      exact root_key_le ho hy
  · cases hs

/-- Where nothing is shifted, nothing is due. -/
theorem peekAndShift_none (hi : Indexed h) (ho : Ordered h.slots.length h) {max : ℤ}
    (hs : peekAndShift h max = none) : ∀ p ∈ h.slots, max < (h.mem.obj p).pri := by
  intro p hp
  obtain ⟨y, hy⟩ : ∃ y, h.slots[0]? = some y :=
    ⟨_, List.getElem?_eq_getElem (List.length_pos_of_mem hp)⟩
  rw [peekAndShift, hy] at hs
  have hroot : (h.mem.obj y).pri ≤ (h.mem.obj p).pri := root_key_le ho hy p hp
  simp only at hs
  split at hs
  · omega
  · obtain ⟨l, hl, _⟩ := pop_removed hi hy
    rw [hl] at hs
    cases hs

end InFlightPqueue

namespace PriorityQueue

variable {h : Heap Items ItemPtr}

theorem push_added (hi : Indexed h) {x : ItemPtr} (hx : x ∉ h.slots) : Added h x (push h x) :=
  append_up_added hi hx

theorem push_ordered (ho : Ordered h.slots.length h) (x : ItemPtr) :
    Ordered (h.slots.length + 1) (push h x) :=
  append_up_ordered ho

theorem fill_swaps (h : Heap Items ItemPtr) {i n : ℕ} (hi : i < n) :
    Swaps n (swap h i n)
      (if (down pick (swap h i n) i n).2 = i then up (down pick (swap h i n) i n).1 i
        else (down pick (swap h i n) i n).1) := by
  have hdown := down_swaps (m := n) pick (swap h i n) i n (Nat.le_refl n)
  split
  · exact hdown.trans (up_swaps _ i hi)
  · exact hdown

theorem remove_removed (hi : Indexed h) {i : ℕ} {x : ItemPtr} (hx : h.slots[i]? = some x) :
    ∃ k, remove h i = some (x, k) ∧ Removed h x k := by
  obtain ⟨hlt, _⟩ := List.getElem?_eq_some_iff.mp hx
  obtain ⟨n, hn⟩ : ∃ n, h.slots.length = n + 1 := ⟨h.slots.length - 1, by omega⟩
  rw [remove, if_pos hlt, hn, Nat.add_sub_cancel]
  split
  · exact removed_of_swaps hi hn (by omega) hx (fill_swaps h (by omega))
  · have hin : i = n := by omega
    exact dropLast_removed hi hn (hin ▸ hx)

/-- The same whatever the stored positions were. -/
theorem remove_takenOut {i : ℕ} {x : ItemPtr} (hx : h.slots[i]? = some x) :
    ∃ k, remove h i = some (x, k) ∧ TakenOut h x k := by
  obtain ⟨hlt, -⟩ := List.getElem?_eq_some_iff.mp hx
  obtain ⟨n, hn⟩ : ∃ n, h.slots.length = n + 1 := ⟨h.slots.length - 1, by omega⟩
  rw [remove, if_pos hlt, hn, Nat.add_sub_cancel]
  split
  · exact takenOut_of_swaps hn (by omega) hx (fill_swaps h (by omega))
  · have hin : i = n := by omega
    exact ⟨_, dropLast_takenOut hn (hin ▸ hx)⟩

theorem remove_ordered (ho : Ordered h.slots.length h) {i : ℕ} {x : ItemPtr}
    {k : Heap Items ItemPtr} (hr : remove h i = some (x, k)) : Ordered k.slots.length k := by
  unfold remove at hr
  split at hr
  · rename_i hi
    obtain ⟨n, hn⟩ : ∃ n, h.slots.length = n + 1 := ⟨h.slots.length - 1, by omega⟩
    simp only [hn, Nat.add_sub_cancel] at hr
    split at hr
    · have hlen := (fill_swaps h (i := i) (n := n) (by omega)).length_eq
      rw [swap_length, hn] at hlen
      rw [dropLast_length hr hlen]
      exact dropLast_ordered hr hlen (down_or_up_ordered pick_picks ho hn (by omega))
    · rw [dropLast_length hr hn]
      exact dropLast_ordered hr hn fun c h0 hc => ho c h0 (by omega)
  · cases hr

theorem peekAndShift_removed (hi : Indexed h) {max : ℤ} {x : ItemPtr} {k : Heap Items ItemPtr}
    (hs : peekAndShift h max = some (x, k)) : Removed h x k ∧ (h.mem.obj x).priority ≤ max := by
  unfold peekAndShift at hs
  split at hs
  · rename_i y hy
    split at hs
    · cases hs
    · obtain ⟨l, hl, hr⟩ := remove_removed hi hy
      rw [hl] at hs
      cases hs
      exact ⟨hr, by omega⟩
  · cases hs

theorem peekAndShift_ordered (ho : Ordered h.slots.length h) {max : ℤ} {x : ItemPtr}
    {k : Heap Items ItemPtr} (hs : peekAndShift h max = some (x, k)) : Ordered k.slots.length k := by
  unfold peekAndShift at hs
  split at hs
  · split at hs
    · cases hs
    · exact remove_ordered ho hs
  · cases hs

theorem peekAndShift_least (hi : Indexed h) (ho : Ordered h.slots.length h) {max : ℤ} {x : ItemPtr}
    {k : Heap Items ItemPtr} (hs : peekAndShift h max = some (x, k)) :
    ∀ p ∈ h.slots, (h.mem.obj x).priority ≤ (h.mem.obj p).priority := by
  unfold peekAndShift at hs
  split at hs
  · rename_i y hy
    split at hs
    · cases hs
    · obtain ⟨l, hl, -⟩ := remove_removed hi hy
      rw [hl] at hs
      cases hs
      exact root_key_le ho hy
  · cases hs

theorem peekAndShift_none (hi : Indexed h) (ho : Ordered h.slots.length h) {max : ℤ}
    (hs : peekAndShift h max = none) : ∀ p ∈ h.slots, max < (h.mem.obj p).priority := by
  intro p hp
  obtain ⟨y, hy⟩ : ∃ y, h.slots[0]? = some y :=
    ⟨_, List.getElem?_eq_getElem (List.length_pos_of_mem hp)⟩
  rw [peekAndShift, hy] at hs
  have hroot : (h.mem.obj y).priority ≤ (h.mem.obj p).priority := root_key_le ho hy p hp
  simp only at hs
  split at hs
  · omega
  · obtain ⟨l, hl, _⟩ := remove_removed hi hy
    rw [hl] at hs
    cases hs

end PriorityQueue

end Xmq
