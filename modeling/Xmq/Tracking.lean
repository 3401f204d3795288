import Mathlib.Data.Int.Order.Basic
import Mathlib.Tactic.Tauto
import Xmq.GoMap
import Xmq.IndexedHeapOrder

/-!
# A heap that shadows a map

A program that looks elements up by name and also takes them out in order keeps them twice: in a
map and in a heap. `Tracks name m h` says that the two agree: the values of the map are the
elements of the heap, every element is filed under its own name, stored positions are right and
the heap is ordered. Putting an element into both and taking it out of both keep the relation.
-/

namespace Xmq

open IndexedHeap

variable {σ : Type*} [IndexedStore σ ℕ ℤ] {K : Type*} [DecidableEq K]

/-- The map and the heap hold the same elements. -/
structure Tracks (name : ℕ → K) (m : GoMap K ℕ) (h : Heap σ ℕ) : Prop where
  values : m.values.Perm h.slots
  keys : ∀ k p, m.lookup k = some p → name p = k
  indexed : Indexed h
  ordered : Ordered h.slots.length h

namespace Tracks

variable {name name' : ℕ → K} {m : GoMap K ℕ} {h h' : Heap σ ℕ} {k : K} {p : ℕ}

theorem nil (s : σ) : Tracks name ∅ (⟨s, []⟩ : Heap σ ℕ) where
  values := List.Perm.refl _
  keys k p hk := by simp [AList.lookup_empty] at hk
  indexed i x hx := by simp at hx
  ordered c _ hc := by simp at hc

theorem mem_of_lookup (ht : Tracks name m h) (hk : m.lookup k = some p) : p ∈ h.slots :=
  ht.values.mem_iff.mp (GoMap.mem_values.mpr ⟨k, hk⟩)

theorem lookup_of_mem (ht : Tracks name m h) (hp : p ∈ h.slots) :
    m.lookup (name p) = some p := by
  obtain ⟨k, hk⟩ := GoMap.mem_values.mp (ht.values.mem_iff.mpr hp)
  rw [ht.keys k p hk]
  exact hk

theorem lookup_iff (ht : Tracks name m h) : m.lookup k = some p ↔ p ∈ h.slots ∧ name p = k := by
  constructor
  · intro hk
    exact ⟨ht.mem_of_lookup hk, ht.keys k p hk⟩
  · rintro ⟨hp, rfl⟩
    exact ht.lookup_of_mem hp

/-- Where the heap kept some elements, the map kept the same ones. -/
theorem lookup_filter {m' : GoMap K ℕ} (ht : Tracks name m h) (ht' : Tracks name' m' h')
    {keep : ℕ → Prop} [DecidablePred keep] (hheap : h'.slots.Perm (h.slots.filter keep))
    (hname : ∀ q, name' q = name q) : m'.lookup k = some p ↔ m.lookup k = some p ∧ keep p := by
  rw [ht'.lookup_iff, ht.lookup_iff, hheap.mem_iff, List.mem_filter, decide_eq_true_eq, hname]
  tauto

theorem keys_perm (ht : Tracks name m h) : m.keys.Perm (h.slots.map name) := by
  have hkeys : m.keys = m.values.map name := by
    rw [AList.keys, List.keys, GoMap.values, List.map_map]
    apply List.map_congr_left
    rintro ⟨k, p⟩ he
    exact (ht.keys k p (AList.mem_lookup_iff.mpr he)).symm
  rw [hkeys]
  exact ht.values.map name

/-- Taken out of the map and of the heap. -/
theorem removed (ht : Tracks name m h) (hk : m.lookup k = some p) (hr : Removed h p h')
    (ho : Ordered h'.slots.length h') (hname : ∀ q ∈ h'.slots, name' q = name q) :
    Tracks name' (m.erase k) h' := by
  have hvalues : (GoMap.values (m.erase k)).Perm h'.slots := by
    have hcons := (GoMap.values_erase hk).symm.trans (ht.values.trans hr.perm)
    exact List.Perm.cons_inv hcons
  refine ⟨hvalues, ?_, hr.indexed, ho⟩
  intro l q hq
  have hmem : q ∈ h'.slots := hvalues.mem_iff.mp (GoMap.mem_values.mpr ⟨l, hq⟩)
  rw [hname q hmem]
  exact ht.keys l q (GoMap.lookup_erase_eq_some.mp hq).2

/-- Put into the map and into the heap. -/
theorem added (ht : Tracks name m h) (hk : m.lookup (name p) = none) (ha : Added h p h')
    (ho : Ordered h'.slots.length h') (hname : ∀ q ∈ h'.slots, name' q = name q) :
    Tracks name' (m.insert (name p) p) h' := by
  have hvalues : (GoMap.values (m.insert (name p) p)).Perm h'.slots := by
    rw [GoMap.values_insert hk]
    exact (ht.values.cons p).trans ha.perm.symm
  refine ⟨hvalues, ?_, ha.indexed, ho⟩
  intro l q hq
  have hmem : q ∈ h'.slots := hvalues.mem_iff.mp (GoMap.mem_values.mpr ⟨l, hq⟩)
  rw [hname q hmem]
  rcases GoMap.lookup_insert_eq_some.mp hq with ⟨rfl, rfl⟩ | ⟨_, hl⟩
  · rfl
  · exact ht.keys l q hl

/-- A store that agrees on the elements of the heap, and names that agree there. -/
theorem congr {s : σ} (ht : Tracks name m h)
    (hkey : ∀ q ∈ h.slots, key s q = key h.mem q) (hidx : ∀ q ∈ h.slots, index s q = index h.mem q)
    (hname : ∀ q ∈ h.slots, name' q = name q) : Tracks name' m (⟨s, h.slots⟩ : Heap σ ℕ) where
  values := ht.values
  keys k p hk := by
    rw [hname p (ht.mem_of_lookup hk)]
    exact ht.keys k p hk
  indexed := by
    intro i x hx
    rw [hidx x (List.mem_of_getElem? hx)]
    exact ht.indexed i x hx
  ordered := by
    have heq : ∀ c, c < h.slots.length →
        keyAt (⟨s, h.slots⟩ : Heap σ ℕ) c = keyAt h c := by
      intro c hc
      have hslot : h.slots[c]? = some h.slots[c] := List.getElem?_eq_getElem hc
      rw [keyAt_of_getElem? (h := ⟨s, h.slots⟩) hslot, keyAt_of_getElem? hslot]
      exact hkey _ (List.getElem_mem hc)
    intro c h0 hc
    have hc : c < h.slots.length := hc
    rw [heq c hc, heq _ (by omega)]
    exact ht.ordered c h0 hc

end Tracks

end Xmq
