import Mathlib.Data.Int.Notation
import Mathlib.Data.List.Nodup
import Mathlib.Data.List.Perm.Basic
import Mathlib.Data.Nat.Notation
import Mathlib.Logic.Relation
import Mathlib.Order.Lattice

/-!
# Binary heaps whose elements store their own position

The heap is a list of references into a store of objects. Every object has a key that orders it
and a field in which the heap writes the object's position, so that an element can be removed
without searching for it. The primitives are the swap of two slots, the two sifts and the two
changes at the end of the list; a program's heap operations are compositions of these.

The central relation is `Swaps m`: the second heap comes from the first by swaps of slots below
`m`. Both sifts are such sequences, so one induction over `Swaps` gives what they all keep: the
elements, the agreement of stored and actual positions, and everything outside the heap.
-/

namespace Xmq.IndexedHeap

/-- A store of objects, each with a key and the position last written to it. -/
class IndexedStore (σ : Type*) (ι κ : outParam (Type*)) where
  key : σ → ι → κ
  index : σ → ι → ℤ
  setIndex : σ → ι → ℤ → σ

export IndexedStore (key index setIndex)

/-- Writing a position changes that object's position and nothing else the heap looks at. -/
class LawfulIndexedStore (σ : Type*) {ι κ : outParam (Type*)} [IndexedStore σ ι κ] : Prop where
  key_setIndex : ∀ (s : σ) (p q : ι) (n : ℤ), key (setIndex s p n) q = key s q
  index_setIndex_self : ∀ (s : σ) (p : ι) (n : ℤ), index (setIndex s p n) p = n
  index_setIndex_ne : ∀ (s : σ) (p q : ι) (n : ℤ), q ≠ p → index (setIndex s p n) q = index s q

export LawfulIndexedStore (key_setIndex index_setIndex_self index_setIndex_ne)

/-- A heap: the store and the references in heap order. -/
structure Heap (σ ι : Type*) where
  mem : σ
  slots : List ι

variable {σ ι κ : Type*} [IndexedStore σ ι κ]

/-! ## The primitives -/

/-- Exchange two slots and write both new positions. -/
def swap (h : Heap σ ι) (i j : ℕ) : Heap σ ι :=
  match h.slots[i]?, h.slots[j]? with
  | some x, some y =>
    { mem := setIndex (setIndex h.mem y i) x j, slots := (h.slots.set i y).set j x }
  | _, _ => h

/-- The new last element, with its position written. -/
def append (h : Heap σ ι) (x : ι) : Heap σ ι :=
  { mem := setIndex h.mem x h.slots.length, slots := h.slots ++ [x] }

/-- Take the last element off; its position becomes `-1`. -/
def dropLast (h : Heap σ ι) : Option (ι × Heap σ ι) :=
  match h.slots.getLast? with
  | some x => some (x, { mem := setIndex h.mem x (-1), slots := h.slots.dropLast })
  | none => none

/-- The child of slot `i` to compare with among the first `n` slots: the right one when there is
one and `pick` prefers its key to the left one's. -/
def child (pick : κ → κ → Bool) (h : Heap σ ι) (i n : ℕ) : ℕ :=
  match h.slots[2 * i + 1]?, h.slots[2 * i + 2]? with
  | some x, some y =>
    if 2 * i + 2 < n ∧ pick (key h.mem x) (key h.mem y) = true then 2 * i + 2 else 2 * i + 1
  | _, _ => 2 * i + 1

theorem child_gt (pick : κ → κ → Bool) (h : Heap σ ι) (i n : ℕ) : i < child pick h i n := by
  unfold child
  split
  · split <;> omega
  · omega

theorem child_lt (pick : κ → κ → Bool) (h : Heap σ ι) {i n : ℕ} (hn : 2 * i + 1 < n) :
    child pick h i n < n := by
  unfold child
  split
  · split <;> omega
  · omega

section Sifts

variable [LinearOrder κ]

/-- The key in slot `i` is at most the key in slot `j`. -/
def keyLe (h : Heap σ ι) (i j : ℕ) : Bool :=
  match h.slots[i]?, h.slots[j]? with
  | some x, some y => decide (key h.mem x ≤ key h.mem y)
  | _, _ => true

/-- Sift the element in slot `j` towards the root. -/
def up (h : Heap σ ι) (j : ℕ) : Heap σ ι :=
  if (j - 1) / 2 = j ∨ keyLe h ((j - 1) / 2) j = true then h
  else up (swap h ((j - 1) / 2) j) ((j - 1) / 2)
termination_by j
decreasing_by omega

/-- Sift the element in slot `i` away from the root, within the first `n` slots; the heap and the
slot where the element came to rest. -/
def down (pick : κ → κ → Bool) (h : Heap σ ι) (i n : ℕ) : Heap σ ι × ℕ :=
  if 2 * i + 1 ≥ n ∨ keyLe h i (child pick h i n) = true then (h, i)
  else down pick (swap h i (child pick h i n)) (child pick h i n) n
termination_by n - i
decreasing_by
  have := child_gt pick h i n
  omega

end Sifts

/-! ## Stored positions, and stores that differ only in them -/

/-- Every element's stored position is its slot. -/
def Indexed (h : Heap σ ι) : Prop :=
  ∀ (i : ℕ) (x : ι), h.slots[i]? = some x → index h.mem x = i

/-- The second store comes from the first by writing positions. -/
def Reindexed : σ → σ → Prop :=
  Relation.ReflTransGen fun s t => ∃ p n, t = setIndex s p n

theorem Reindexed.refl (s : σ) : Reindexed s s := Relation.ReflTransGen.refl

theorem Reindexed.write (s : σ) (p : ι) (n : ℤ) : Reindexed s (setIndex s p n) :=
  Relation.ReflTransGen.single ⟨p, n, rfl⟩

theorem Reindexed.trans {s t u : σ} (h₁ : Reindexed s t) (h₂ : Reindexed t u) : Reindexed s u :=
  Relation.ReflTransGen.trans h₁ h₂

/-- **The frame rule.** What writing one position leaves alone, the heap operations leave alone. -/
theorem Reindexed.congr {β : Type*} (f : σ → β) (hf : ∀ s p n, f (setIndex s p n) = f s) {s t : σ}
    (h : Reindexed s t) : f t = f s := by
  induction h with
  | refl => rfl
  | tail _ hw ih =>
      obtain ⟨p, n, rfl⟩ := hw
      rw [hf, ih]

theorem Reindexed.key_eq [LawfulIndexedStore σ] {s t : σ} (h : Reindexed s t) (q : ι) :
    key t q = key s q :=
  h.congr (fun u => key u q) (fun s p n => key_setIndex s p q n)

theorem Indexed.nodup {h : Heap σ ι} (hi : Indexed h) : h.slots.Nodup := by
  rw [List.nodup_iff_getElem?_ne_getElem?]
  intro i j hij hj heq
  have hx : h.slots[j]? = some (h.slots[j]) := List.getElem?_eq_getElem hj
  have h1 := hi i _ (heq.trans hx)
  have h2 := hi j _ hx
  omega

theorem Indexed.mem_index {h : Heap σ ι} (hi : Indexed h) {x : ι} (hx : x ∈ h.slots) :
    ∃ i : ℕ, i < h.slots.length ∧ h.slots[i]? = some x ∧ index h.mem x = i := by
  obtain ⟨i, hlt, rfl⟩ := List.getElem_of_mem hx
  exact ⟨i, hlt, List.getElem?_eq_getElem hlt, hi i _ (List.getElem?_eq_getElem hlt)⟩

/-! ## Swaps -/

/-- The second heap comes from the first by swaps of slots below `m`. -/
inductive Swaps (m : ℕ) : Heap σ ι → Heap σ ι → Prop
  | refl (h : Heap σ ι) : Swaps m h h
  | swap {h k : Heap σ ι} (i j : ℕ) : i < m → j < m → Swaps m (swap h i j) k → Swaps m h k

theorem swap_of_lt (h : Heap σ ι) {i j : ℕ} (hi : i < h.slots.length) (hj : j < h.slots.length) :
    swap h i j =
      { mem := setIndex (setIndex h.mem h.slots[j] i) h.slots[i] j,
        slots := (h.slots.set i h.slots[j]).set j h.slots[i] } := by
  simp only [swap, List.getElem?_eq_getElem hi, List.getElem?_eq_getElem hj]

theorem swap_length (h : Heap σ ι) (i j : ℕ) : (swap h i j).slots.length = h.slots.length := by
  unfold swap
  split
  · simp only [List.length_set]
  · rfl

theorem swap_perm (h : Heap σ ι) (i j : ℕ) : (swap h i j).slots.Perm h.slots := by
  unfold swap
  split
  · rename_i x y hx hy
    obtain ⟨hi, rfl⟩ := List.getElem?_eq_some_iff.mp hx
    obtain ⟨hj, rfl⟩ := List.getElem?_eq_some_iff.mp hy
    exact List.set_set_perm hi hj
  · exact List.Perm.refl _

theorem swap_reindexed (h : Heap σ ι) (i j : ℕ) : Reindexed h.mem (swap h i j).mem := by
  unfold swap
  split
  · exact (Reindexed.write _ _ _).trans (Reindexed.write _ _ _)
  · exact Reindexed.refl _

theorem swap_getElem?_of_ne (h : Heap σ ι) {i j k : ℕ} (hi : k ≠ i) (hj : k ≠ j) :
    (swap h i j).slots[k]? = h.slots[k]? := by
  unfold swap
  split
  · rw [List.getElem?_set_ne (Ne.symm hj), List.getElem?_set_ne (Ne.symm hi)]
  · rfl

theorem swap_index_of_notMem [LawfulIndexedStore σ] (h : Heap σ ι) (i j : ℕ) {q : ι} (hq : q ∉ h.slots) :
    index (swap h i j).mem q = index h.mem q := by
  unfold swap
  split
  · rename_i x y hx hy
    have hqx : q ≠ x := fun e => hq (e ▸ List.mem_of_getElem? hx)
    have hqy : q ≠ y := fun e => hq (e ▸ List.mem_of_getElem? hy)
    rw [index_setIndex_ne _ _ _ _ hqx, index_setIndex_ne _ _ _ _ hqy]
  · rfl

theorem Indexed.swap [LawfulIndexedStore σ] {h : Heap σ ι} (hx : Indexed h) (i j : ℕ) :
    Indexed (swap h i j) := by
  by_cases hij : i < h.slots.length ∧ j < h.slots.length
  · obtain ⟨hi, hj⟩ := hij
    rw [swap_of_lt h hi hj]
    intro k z hz
    simp only at hz ⊢
    have inj : ∀ {a b : ℕ} (ha : a < h.slots.length) (hb : b < h.slots.length),
        h.slots[a] = h.slots[b] → a = b := fun ha hb e => (hx.nodup.getElem_inj_iff).mp e
    by_cases hkj : k = j
    · -- slot `j` now holds the element that was in slot `i`
      subst hkj
      rw [List.getElem?_set_self (by simpa using hj)] at hz
      cases hz
      exact index_setIndex_self _ _ _
    · rw [List.getElem?_set_ne (Ne.symm hkj)] at hz
      by_cases hki : k = i
      · subst hki
        rw [List.getElem?_set_self hi] at hz
        cases hz
        have hne : h.slots[j] ≠ h.slots[k] := fun e => hkj (inj hj hi e).symm
        rw [index_setIndex_ne _ _ _ _ hne, index_setIndex_self]
      · rw [List.getElem?_set_ne (Ne.symm hki)] at hz
        obtain ⟨hk, rfl⟩ := List.getElem?_eq_some_iff.mp hz
        rw [index_setIndex_ne _ _ _ _ (fun e => hki (inj hk hi e)),
          index_setIndex_ne _ _ _ _ (fun e => hkj (inj hk hj e))]
        exact hx k _ (List.getElem?_eq_getElem hk)
  · -- a slot outside the heap: nothing is swapped
    have hs : Xmq.IndexedHeap.swap h i j = h := by
      unfold Xmq.IndexedHeap.swap
      split
      · rename_i x y hx' hy'
        exact absurd ⟨(List.getElem?_eq_some_iff.mp hx').1, (List.getElem?_eq_some_iff.mp hy').1⟩ hij
      · rfl
    rw [hs]
    exact hx

section SwapsFacts

variable {m : ℕ} {h k : Heap σ ι}

theorem Swaps.trans {l : Heap σ ι} (h₁ : Swaps m h k) (h₂ : Swaps m k l) : Swaps m h l := by
  induction h₁ with
  | refl => exact h₂
  | swap i j hi hj _ ih => exact .swap i j hi hj (ih h₂)

theorem Swaps.perm (hs : Swaps m h k) : k.slots.Perm h.slots := by
  induction hs with
  | refl => exact List.Perm.refl _
  | swap i j _ _ _ ih => exact ih.trans (swap_perm _ i j)

theorem Swaps.length_eq (hs : Swaps m h k) : k.slots.length = h.slots.length := hs.perm.length_eq

theorem Swaps.indexed [LawfulIndexedStore σ] (hs : Swaps m h k) (hi : Indexed h) : Indexed k := by
  induction hs with
  | refl => exact hi
  | swap i j _ _ _ ih => exact ih (hi.swap i j)

theorem Swaps.reindexed (hs : Swaps m h k) : Reindexed h.mem k.mem := by
  induction hs with
  | refl => exact Reindexed.refl _
  | swap i j _ _ _ ih => exact (swap_reindexed _ i j).trans ih

theorem Swaps.getElem?_of_le (hs : Swaps m h k) {n : ℕ} (hn : m ≤ n) : k.slots[n]? = h.slots[n]? := by
  induction hs with
  | refl => rfl
  | swap i j hi hj _ ih => rw [ih, swap_getElem?_of_ne _ (by omega) (by omega)]

theorem Swaps.index_of_notMem [LawfulIndexedStore σ] (hs : Swaps m h k) {q : ι} (hq : q ∉ h.slots) :
    index k.mem q = index h.mem q := by
  induction hs with
  | refl => rfl
  | swap i j _ _ _ ih =>
      rw [ih (fun hm => hq ((swap_perm _ i j).mem_iff.mp hm)), swap_index_of_notMem _ i j hq]

end SwapsFacts

section SiftFacts

variable [LinearOrder κ]

theorem up_swaps {m : ℕ} (h : Heap σ ι) (j : ℕ) (hj : j < m) : Swaps m h (up h j) := by
  fun_induction up h j with
  | case1 h j hc => exact .refl h
  | case2 h j hc ih => exact .swap _ _ (by omega) hj (ih (by omega))

theorem down_swaps {m : ℕ} (pick : κ → κ → Bool) (h : Heap σ ι) (i n : ℕ) (hn : n ≤ m) :
    Swaps m h (down pick h i n).1 := by
  fun_induction down pick h i n with
  | case1 h i hc => exact .refl h
  | case2 h i hc ih =>
      have hlt : 2 * i + 1 < n := by
        by_contra hge
        exact hc (Or.inl (by omega))
      have := child_lt pick h hlt
      exact .swap _ _ (by omega) (by omega) ih

theorem le_down (pick : κ → κ → Bool) (h : Heap σ ι) (i n : ℕ) : i ≤ (down pick h i n).2 := by
  fun_induction down pick h i n with
  | case1 h i hc => exact Nat.le_refl i
  | case2 h i hc ih => exact Nat.le_trans (Nat.le_of_lt (child_gt pick h i n)) ih

end SiftFacts

/-! ## Adding and removing an element -/

/-- `k` is `h` with `x` added: the elements, their positions, and nothing else. -/
structure Added (h : Heap σ ι) (x : ι) (k : Heap σ ι) : Prop where
  perm : k.slots.Perm (x :: h.slots)
  indexed : Indexed k
  reindexed : Reindexed h.mem k.mem
  other : ∀ q, q ∉ h.slots → q ≠ x → index k.mem q = index h.mem q

/-- `k` is `h` with `x` taken out: the elements, their positions, and nothing else. -/
structure Removed (h : Heap σ ι) (x : ι) (k : Heap σ ι) : Prop where
  perm : h.slots.Perm (x :: k.slots)
  indexed : Indexed k
  index_eq : index k.mem x = -1
  reindexed : Reindexed h.mem k.mem
  other : ∀ q, q ∉ h.slots → index k.mem q = index h.mem q

theorem append_added [LawfulIndexedStore σ] {h : Heap σ ι} (hi : Indexed h) {x : ι} (hx : x ∉ h.slots) :
    Added h x (append h x) where
  perm := List.perm_append_singleton x h.slots
  indexed := by
    intro i y hy
    simp only [append] at hy ⊢
    rcases Nat.lt_trichotomy i h.slots.length with hlt | heq | hgt
    · rw [List.getElem?_append_left hlt] at hy
      have hne : y ≠ x := fun e => hx (e ▸ List.mem_of_getElem? hy)
      rw [index_setIndex_ne _ _ _ _ hne]
      exact hi i y hy
    · subst heq
      rw [List.getElem?_concat_length] at hy
      cases hy
      exact index_setIndex_self _ _ _
    · rw [List.getElem?_eq_none (by rw [List.length_append, List.length_singleton]; omega)] at hy
      cases hy
  reindexed := Reindexed.write _ _ _
  other := fun q _ hq => index_setIndex_ne _ _ _ _ hq

theorem Added.swaps [LawfulIndexedStore σ] {h k l : Heap σ ι} {x : ι} {m : ℕ} (ha : Added h x k)
    (hs : Swaps m k l) :
    Added h x l where
  perm := hs.perm.trans ha.perm
  indexed := hs.indexed ha.indexed
  reindexed := ha.reindexed.trans hs.reindexed
  other := by
    intro q hq hne
    have hk : q ∉ k.slots := by
      rw [ha.perm.mem_iff]
      exact List.not_mem_cons_of_ne_of_not_mem hne hq
    rw [hs.index_of_notMem hk, ha.other q hq hne]

/-- `k` is `h` with one occurrence of `x` taken out, whatever the stored positions were. -/
structure TakenOut (h : Heap σ ι) (x : ι) (k : Heap σ ι) : Prop where
  perm : h.slots.Perm (x :: k.slots)
  index_eq : index k.mem x = -1
  reindexed : Reindexed h.mem k.mem

theorem dropLast_takenOut [LawfulIndexedStore σ] {h : Heap σ ι} {x : ι} {n : ℕ}
    (hn : h.slots.length = n + 1) (hx : h.slots[n]? = some x) :
    dropLast h = some (x, ⟨setIndex h.mem x (-1), h.slots.dropLast⟩) ∧
      TakenOut h x ⟨setIndex h.mem x (-1), h.slots.dropLast⟩ := by
  have hlast : h.slots.getLast? = some x := by
    rw [List.getLast?_eq_getElem?, hn, Nat.add_sub_cancel, hx]
  have hsplit : h.slots.dropLast ++ [x] = h.slots := List.dropLast_append_getLast? x hlast
  refine ⟨by rw [dropLast, hlast], ?_, index_setIndex_self _ _ _, Reindexed.write _ _ _⟩
  show h.slots.Perm (x :: h.slots.dropLast)
  conv_lhs => rw [← hsplit]
  exact List.perm_append_singleton x _

theorem Swaps.takenOut {h k l : Heap σ ι} {x : ι} {m : ℕ} (hs : Swaps m h k)
    (hr : TakenOut k x l) : TakenOut h x l where
  perm := hs.perm.symm.trans hr.perm
  index_eq := hr.index_eq
  reindexed := hs.reindexed.trans hr.reindexed

theorem dropLast_removed [LawfulIndexedStore σ] {h : Heap σ ι} (hi : Indexed h) {x : ι} {n : ℕ}
    (hn : h.slots.length = n + 1) (hx : h.slots[n]? = some x) :
    ∃ k, dropLast h = some (x, k) ∧ Removed h x k := by
  obtain ⟨hdrop, hout⟩ := dropLast_takenOut hn hx
  have hnd : x ∉ h.slots.dropLast :=
    (List.nodup_cons.mp (hout.perm.nodup_iff.mp hi.nodup)).1
  refine ⟨_, hdrop, hout.perm, ?_, hout.index_eq, hout.reindexed, ?_⟩
  · intro i y hy
    simp only at hy ⊢
    have hne : y ≠ x := fun e => hnd (e ▸ List.mem_of_getElem? hy)
    rw [index_setIndex_ne _ _ _ _ hne]
    obtain ⟨hlt, rfl⟩ := List.getElem?_eq_some_iff.mp hy
    rw [List.getElem_dropLast]
    rw [List.length_dropLast] at hlt
    exact hi i _ (List.getElem?_eq_getElem (by omega))
  · intro q hq
    have hne : q ≠ x := fun e => hq (e ▸ List.mem_of_getElem? hx)
    exact index_setIndex_ne _ _ _ _ hne

/-- Swaps that leave the last slot alone come before taking the last element off. -/
theorem Swaps.removed [LawfulIndexedStore σ] {h k l : Heap σ ι} {x : ι} {m : ℕ} (hs : Swaps m h k)
    (hr : Removed k x l) :
    Removed h x l where
  perm := hs.perm.symm.trans hr.perm
  indexed := hr.indexed
  index_eq := hr.index_eq
  reindexed := hs.reindexed.trans hr.reindexed
  other := by
    intro q hq
    rw [hr.other q (fun hm => hq (hs.perm.mem_iff.mp hm)), hs.index_of_notMem hq]

theorem Removed.mem {h k : Heap σ ι} {x : ι} (hr : Removed h x k) : x ∈ h.slots :=
  hr.perm.mem_iff.mpr List.mem_cons_self

theorem Removed.mem_iff {h k : Heap σ ι} {x : ι} (hr : Removed h x k) (hi : Indexed h) {q : ι} :
    q ∈ k.slots ↔ q ∈ h.slots ∧ q ≠ x := by
  have hnd := (hr.perm.nodup_iff.mp hi.nodup)
  rw [hr.perm.mem_iff, List.mem_cons]
  constructor
  · intro hq
    exact ⟨Or.inr hq, fun e => (List.nodup_cons.mp hnd).1 (e ▸ hq)⟩
  · rintro ⟨hq | hq, hne⟩
    · exact absurd hq hne
    · exact hq

theorem Added.mem_iff {h k : Heap σ ι} {x : ι} (ha : Added h x k) {q : ι} :
    q ∈ k.slots ↔ q = x ∨ q ∈ h.slots := by
  rw [ha.perm.mem_iff, List.mem_cons]

end Xmq.IndexedHeap
