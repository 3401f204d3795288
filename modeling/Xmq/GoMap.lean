import Mathlib.Data.List.AList

/-!
# Maps

A Go map is a list of entries with different keys. The lemmas say what insertion at a new key
and deletion at a present one do to the list of values and to the look-up of the other keys.
-/

namespace Xmq

/-- `map[K]V`. -/
abbrev GoMap (K V : Type*) := AList fun _ : K => V

namespace GoMap

variable {K V : Type*}

def values (m : GoMap K V) : List V := m.entries.map Sigma.snd

@[simp] theorem values_empty : values (∅ : GoMap K V) = [] := rfl

variable [DecidableEq K] {m : GoMap K V} {k l : K} {v w : V}

theorem mem_values : v ∈ m.values ↔ ∃ k, m.lookup k = some v := by
  rw [values, List.mem_map]
  constructor
  · rintro ⟨⟨k, w⟩, he, rfl⟩
    exact ⟨k, AList.mem_lookup_iff.mpr he⟩
  · rintro ⟨k, hk⟩
    exact ⟨⟨k, v⟩, AList.mem_lookup_iff.mp hk, rfl⟩

/-- Values that name their keys. -/
theorem map_values_eq_keys {f : V → K} (h : ∀ k v, m.lookup k = some v → f v = k) :
    m.values.map f = m.keys := by
  rw [values, List.map_map, AList.keys, List.keys]
  refine List.map_congr_left fun e he => ?_
  exact h e.1 e.2 (AList.mem_lookup_iff.mpr he)

theorem mem_keys_of_lookup (h : m.lookup k = some v) : k ∈ m.keys :=
  AList.mem_keys.mp (AList.lookup_isSome.mp (by rw [h]; rfl))

theorem values_insert (h : m.lookup k = none) : values (m.insert k v) = v :: m.values := by
  rw [values, AList.entries_insert_of_notMem (AList.lookup_eq_none.mp h)]
  rfl

theorem values_erase (h : m.lookup k = some v) : m.values.Perm (v :: values (m.erase k)) := by
  have hk : k ∈ m.entries.keys := mem_keys_of_lookup h
  obtain ⟨w, l₁, l₂, _, hsplit, herase⟩ := List.exists_of_kerase hk
  have hw : m.lookup k = some w := AList.mem_lookup_iff.mpr (by rw [hsplit]; simp)
  rw [h] at hw
  cases hw
  have hval : values (m.erase k) = (l₁ ++ l₂).map Sigma.snd := by
    show (List.kerase k m.entries).map Sigma.snd = _
    rw [herase]
  rw [hval, values, hsplit, List.map_append, List.map_append, List.map_cons]
  exact List.perm_middle

theorem lookup_insert_eq_some :
    (m.insert k v).lookup l = some w ↔ l = k ∧ v = w ∨ l ≠ k ∧ m.lookup l = some w := by
  by_cases hlk : l = k
  · subst hlk
    simp [AList.lookup_insert]
  · simp [AList.lookup_insert_ne hlk, hlk]

theorem lookup_erase_eq_some :
    (m.erase k).lookup l = some w ↔ l ≠ k ∧ m.lookup l = some w := by
  by_cases hlk : l = k
  · subst hlk
    simp [AList.lookup_erase]
  · simp [AList.lookup_erase_ne hlk, hlk]

/-- Where the values are all different, a value has one key. -/
theorem eq_of_lookup (h : m.values.Nodup) (hk : m.lookup k = some v) (hl : m.lookup l = some v) :
    k = l := by
  have hinj := List.inj_on_of_nodup_map h (AList.mem_lookup_iff.mp hk) (AList.mem_lookup_iff.mp hl) rfl
  exact congrArg Sigma.fst hinj

/-! ### Ranging over a map -/

/-- The order in which `range` visits the entries of a map: any order. -/
structure RangeOrder where
  order : ∀ {α : Type}, List α → List α
  perm : ∀ {α : Type} (l : List α), (order l).Perm l

namespace RangeOrder

/-- As the entries lie. -/
def id : RangeOrder := ⟨fun l => l, fun _ => .rfl⟩

variable (r : RangeOrder) {α : Type} {l : List α} {a : α}

@[simp] theorem mem_order : a ∈ r.order l ↔ a ∈ l := (r.perm l).mem_iff

@[simp] theorem order_nil : r.order ([] : List α) = [] := (r.perm []).eq_nil

end RangeOrder

end GoMap

end Xmq
