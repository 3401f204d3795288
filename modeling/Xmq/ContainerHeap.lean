import Mathlib.Data.Int.Notation
import Xmq.IndexedHeap

/-!
# `container/heap`

The heap algorithms of the standard library know an implementation only through five methods: its
length, the order of two positions, their exchange, and adding and removing at the end. A method
panics when a position is out of range.

`Represents view` says that an implementation is, seen through `view`, a heap of references that
store their positions. Then the algorithms never panic for positions in range, and are the
compositions of sifts that `IndexedHeap` is about.
-/

namespace Xmq.ContainerHeap

open IndexedHeap (Heap IndexedStore)

/-- `heap.Interface`; `none` is a panic. -/
class Interface (H : Type) (ι : outParam Type) where
  len : H → ℕ
  less : H → ℕ → ℕ → Option Bool
  swap : H → ℕ → ℕ → Option H
  push : H → ι → H
  pop : H → Option (ι × H)

variable {H ι : Type} [Interface H ι]

/-! ### The algorithms -/

def up (h : H) (j : ℕ) : Option H :=
  let i := (j - 1) / 2
  if i = j then some h
  else do
    let less ← Interface.less h j i
    if less then
      let h ← Interface.swap h i j
      up h i
    else some h
termination_by j

/-- The smaller child of position `i`, of which the left one is at `j₁`. -/
def child (h : H) (j₁ n : ℕ) : Option ℕ := do
  let j₂ := j₁ + 1
  if j₂ < n then
    let less ← Interface.less h j₂ j₁
    return if less then j₂ else j₁
  else return j₁

/-- The loop of `down`, in `rounds` rounds at most, and the position where it stops. -/
def downLoop (n : ℕ) : ℕ → H → ℕ → Option (H × ℕ)
  | 0, h, i => some (h, i)
  | rounds + 1, h, i =>
    let j₁ := 2 * i + 1
    if j₁ ≥ n then some (h, i)
    else do
      let j ← child h j₁ n
      let less ← Interface.less h j i
      if less then
        let h ← Interface.swap h i j
        downLoop n rounds h j
      else some (h, i)

/-- Whether the element has moved is the second answer. -/
def down (h : H) (i₀ n : ℕ) : Option (H × Bool) :=
  (downLoop n n h i₀).map fun (h, i) => (h, decide (i₀ < i))

/-- `heap.Push`. -/
def push (h : H) (x : ι) : Option H :=
  let h := Interface.push h x
  up h (Interface.len h - 1)

/-- `heap.Pop`. -/
def pop (h : H) : Option (ι × H) := do
  let n := Interface.len h - 1
  let h ← Interface.swap h 0 n
  let (h, _) ← down h 0 n
  Interface.pop h

/-- `heap.Remove`. An exchange with a negative position panics. -/
def remove (h : H) (i : ℤ) : Option (ι × H) :=
  let n := (Interface.len h : ℤ) - 1
  if n ≠ i then
    if i < 0 ∨ n < 0 then none
    else do
      let h ← Interface.swap h i.toNat n.toNat
      let (h, moved) ← down h i.toNat n.toNat
      let h ← if moved then some h else up h i.toNat
      Interface.pop h
  else Interface.pop h

/-! ### Implementations that are heaps of references -/

section Represented

variable {σ κ : Type} [IndexedStore σ ι κ] [LinearOrder κ]

/-- The methods do to the heap in view what they should. -/
structure Represents (view : H → Heap σ ι) : Prop where
  len : ∀ h, Interface.len h = (view h).slots.length
  less : ∀ {h i j}, i < (view h).slots.length → j < (view h).slots.length →
    Interface.less h i j = some (!IndexedHeap.keyLe (view h) j i)
  swap : ∀ {h i j}, i < (view h).slots.length → j < (view h).slots.length →
    ∃ h', Interface.swap h i j = some h' ∧ view h' = IndexedHeap.swap (view h) i j
  push : ∀ h x, view (Interface.push h x) = IndexedHeap.append (view h) x
  pop : ∀ {h x k}, IndexedHeap.dropLast (view h) = some (x, k) →
    ∃ h', Interface.pop h = some (x, h') ∧ view h' = k

/-- `h.Less(j2, j1)`: the left child wins a draw. -/
def pick (a b : κ) : Bool := decide (b < a)

variable {view : H → Heap σ ι} (hv : Represents view) {h : H} {i j n : ℕ}
include hv

theorem Represents.up (hj : j < (view h).slots.length) :
    ∃ h', ContainerHeap.up h j = some h' ∧ view h' = IndexedHeap.up (view h) j := by
  induction j using Nat.strongRecOn generalizing h with
  | ind j ih =>
    rw [ContainerHeap.up, IndexedHeap.up]
    by_cases hroot : (j - 1) / 2 = j
    · exact ⟨h, if_pos hroot, (if_pos (Or.inl hroot)).symm⟩
    · have hlt : (j - 1) / 2 < j := by omega
      have hparent : (j - 1) / 2 < (view h).slots.length := Nat.lt_trans hlt hj
      simp only [if_neg hroot, hv.less hj hparent, Option.bind_eq_bind, Option.bind_some]
      cases hle : IndexedHeap.keyLe (view h) ((j - 1) / 2) j with
      | true => exact ⟨h, rfl, (if_pos (Or.inr rfl)).symm⟩
      | false =>
          obtain ⟨h₁, hh₁, hview₁⟩ := hv.swap hparent hj
          have hlen : (j - 1) / 2 < (view h₁).slots.length := by
            rw [hview₁, IndexedHeap.swap_length]
            exact hparent
          obtain ⟨h', hh', hview'⟩ := ih _ hlt hlen
          refine ⟨h', ?_, ?_⟩
          · simp only [Bool.not_false, if_true, hh₁, Option.bind_some]
            exact hh'
          · rw [if_neg (by simp [hroot]), hview', hview₁]

/-- The smaller child. -/
theorem Represents.child (hi : 2 * i + 1 < n) (hn : n ≤ (view h).slots.length) :
    ContainerHeap.child h (2 * i + 1) n = some (IndexedHeap.child pick (view h) i n) := by
  have hleft : (view h).slots[2 * i + 1]? = some (view h).slots[2 * i + 1] :=
    List.getElem?_eq_getElem (by omega)
  rw [ContainerHeap.child, IndexedHeap.child, hleft]
  by_cases hright : 2 * i + 2 < n
  · have hget : (view h).slots[2 * i + 2]? = some (view h).slots[2 * i + 2] :=
      List.getElem?_eq_getElem (by omega)
    have hless := hv.less (h := h) (i := 2 * i + 2) (j := 2 * i + 1) (by omega) (by omega)
    rw [hget]
    simp only [hless, Option.bind_eq_bind, Option.bind_some, Option.pure_def,
      IndexedHeap.keyLe, hleft, hget, hright, true_and, if_true, pick, decide_eq_true_eq,
      Bool.not_eq_true', decide_eq_false_iff_not, not_le]
  · rw [if_neg hright]
    cases (view h).slots[2 * i + 2]? with
    | none => rfl
    | some y => simp only [hright, false_and, if_false, Option.pure_def]

/-- A round moves the element away from the root, so `n` rounds are enough. -/
theorem Represents.downLoop (hn : n ≤ (view h).slots.length) {rounds : ℕ}
    (hrounds : n ≤ i + rounds) :
    ∃ h', ContainerHeap.downLoop n rounds h i =
        some (h', (IndexedHeap.down pick (view h) i n).2) ∧
      view h' = (IndexedHeap.down pick (view h) i n).1 := by
  induction rounds generalizing h i with
  | zero =>
      have hstop : 2 * i + 1 ≥ n := by omega
      rw [IndexedHeap.down, if_pos (Or.inl hstop)]
      exact ⟨h, rfl, rfl⟩
  | succ rounds ih =>
      rw [ContainerHeap.downLoop, IndexedHeap.down]
      by_cases hstop : 2 * i + 1 ≥ n
      · rw [if_pos hstop, if_pos (Or.inl hstop)]
        exact ⟨h, rfl, rfl⟩
      · have hlt := Nat.not_le.mp hstop
        have hchild := IndexedHeap.child_lt pick (view h) hlt
        have hgt := IndexedHeap.child_gt pick (view h) i n
        have hless := hv.less (h := h) (i := IndexedHeap.child pick (view h) i n) (j := i)
          (by omega) (by omega)
        simp only [if_neg hstop, hv.child hlt hn, hless, Option.bind_eq_bind, Option.bind_some]
        cases hle : IndexedHeap.keyLe (view h) i (IndexedHeap.child pick (view h) i n) with
        | true =>
            rw [if_pos (Or.inr rfl)]
            exact ⟨h, rfl, rfl⟩
        | false =>
            obtain ⟨h₁, hh₁, hview₁⟩ := hv.swap (h := h) (i := i)
              (j := IndexedHeap.child pick (view h) i n) (by omega) (by omega)
            have hlen : n ≤ (view h₁).slots.length := by
              rw [hview₁, IndexedHeap.swap_length]
              exact hn
            obtain ⟨h', hh', hview'⟩ := ih (i := IndexedHeap.child pick (view h) i n) hlen (by omega)
            have hgo : ¬ (2 * i + 1 ≥ n ∨ false = true) := not_or.mpr ⟨hstop, Bool.false_ne_true⟩
            rw [if_neg hgo]
            refine ⟨h', ?_, ?_⟩
            · simp only [Bool.not_false, if_true, hh₁, Option.bind_some]
              rw [hh', hview₁]
            · rw [hview', hview₁]

theorem Represents.down (hn : n ≤ (view h).slots.length) :
    ∃ h', ContainerHeap.down h i n =
        some (h', decide (i < (IndexedHeap.down pick (view h) i n).2)) ∧
      view h' = (IndexedHeap.down pick (view h) i n).1 := by
  obtain ⟨h', hh', hview'⟩ := hv.downLoop (i := i) hn (Nat.le_add_left n i)
  exact ⟨h', by rw [ContainerHeap.down, hh']; rfl, hview'⟩

theorem Represents.push_eq (x : ι) :
    ∃ h', ContainerHeap.push h x = some h' ∧
      view h' = IndexedHeap.up (IndexedHeap.append (view h) x) (view h).slots.length := by
  have hlen : (view (Interface.push h x)).slots.length = (view h).slots.length + 1 := by
    rw [hv.push, IndexedHeap.append, List.length_append, List.length_singleton]
  obtain ⟨h', hh', hview'⟩ := hv.up (h := Interface.push h x) (j := (view h).slots.length) (by omega)
  refine ⟨h', ?_, hview'.trans (by rw [hv.push])⟩
  rw [ContainerHeap.push]
  simp only [hv.len, hlen, Nat.add_sub_cancel]
  exact hh'

theorem Represents.pop_eq (hpos : 0 < (view h).slots.length) {x : ι} {k : Heap σ ι}
    (hk : IndexedHeap.dropLast (IndexedHeap.down pick
        (IndexedHeap.swap (view h) 0 ((view h).slots.length - 1)) 0 ((view h).slots.length - 1)).1 =
      some (x, k)) :
    ∃ h', ContainerHeap.pop h = some (x, h') ∧ view h' = k := by
  obtain ⟨h₁, hh₁, hview₁⟩ := hv.swap (h := h) (i := 0) (j := (view h).slots.length - 1) hpos
    (by omega)
  have hlen : (view h).slots.length - 1 ≤ (view h₁).slots.length := by
    rw [hview₁, IndexedHeap.swap_length]
    exact Nat.sub_le _ 1
  obtain ⟨h₂, hh₂, hview₂⟩ := hv.down (h := h₁) (i := 0) hlen
  rw [← hview₁, ← hview₂] at hk
  obtain ⟨h', hh', hview'⟩ := hv.pop hk
  refine ⟨h', ?_, hview'⟩
  rw [ContainerHeap.pop]
  simp only [hv.len, hh₁, hh₂, Option.bind_eq_bind, Option.bind_some]
  exact hh'

theorem Represents.remove_eq (hi : i < (view h).slots.length) {x : ι} {k : Heap σ ι}
    (hk : (if (view h).slots.length - 1 ≠ i then
        let d := IndexedHeap.down pick (IndexedHeap.swap (view h) i ((view h).slots.length - 1)) i
          ((view h).slots.length - 1)
        IndexedHeap.dropLast (if d.2 = i then IndexedHeap.up d.1 i else d.1)
      else IndexedHeap.dropLast (view h)) = some (x, k)) :
    ∃ h', ContainerHeap.remove h i = some (x, h') ∧ view h' = k := by
  rw [ContainerHeap.remove, hv.len]
  by_cases hlast : (view h).slots.length - 1 = i
  · rw [if_neg (not_not.mpr hlast)] at hk
    have hint : ¬ ((view h).slots.length : ℤ) - 1 ≠ (i : ℤ) := by omega
    obtain ⟨h', hh', hview'⟩ := hv.pop hk
    simp only [if_neg hint]
    exact ⟨h', hh', hview'⟩
  · rw [if_pos hlast] at hk
    have hint : ((view h).slots.length : ℤ) - 1 ≠ (i : ℤ) := by omega
    have hneg : ¬ ((i : ℤ) < 0 ∨ ((view h).slots.length : ℤ) - 1 < 0) := by omega
    have hn : (((view h).slots.length : ℤ) - 1).toNat = (view h).slots.length - 1 := by omega
    obtain ⟨h₁, hh₁, hview₁⟩ := hv.swap (h := h) (i := i) (j := (view h).slots.length - 1) hi
      (by omega)
    have hlen : (view h).slots.length - 1 ≤ (view h₁).slots.length := by
      rw [hview₁, IndexedHeap.swap_length]
      exact Nat.sub_le _ 1
    obtain ⟨h₂, hh₂, hview₂⟩ := hv.down (h := h₁) (i := i) hlen
    have hmoved : i ≤ (IndexedHeap.down pick (view h₁) i ((view h).slots.length - 1)).2 :=
      IndexedHeap.le_down _ _ _ _
    simp only [if_pos hint, if_neg hneg, Int.toNat_natCast, hn, hh₁, hh₂, Option.bind_eq_bind,
      Option.bind_some, decide_eq_true_eq]
    rw [← hview₁] at hk
    simp only [← hview₂] at hk
    by_cases hstay : (IndexedHeap.down pick (view h₁) i ((view h).slots.length - 1)).2 = i
    · rw [if_pos hstay] at hk
      have hlen₂ : i < (view h₂).slots.length := by
        rw [hview₂, (IndexedHeap.down_swaps pick _ i _ (Nat.le_refl _)).length_eq]
        omega
      obtain ⟨h₃, hh₃, hview₃⟩ := hv.up hlen₂
      rw [← hview₃] at hk
      obtain ⟨h', hh', hview'⟩ := hv.pop hk
      refine ⟨h', ?_, hview'⟩
      rw [if_neg (by omega), hh₃]
      exact hh'
    · rw [if_neg hstay] at hk
      obtain ⟨h', hh', hview'⟩ := hv.pop hk
      refine ⟨h', ?_, hview'⟩
      rw [if_pos (by omega)]
      exact hh'

end Represented

end Xmq.ContainerHeap
