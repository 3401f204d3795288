import Mathlib.Data.List.Nodup
import Mathlib.Data.List.Perm.Lattice

/-!
# Lists with keys

A list whose items have keys, with at most one item for each key. Looking for a key and changing
the item that has it, or appending a new one, is a change of one entry of the function from keys to
items; the order of the list makes no difference to that function.
-/

namespace Xmq.KeyedList

variable {α κ : Type*} [DecidableEq κ] {key : α → κ} {k k' : κ} {new : α} {f : α → α}
  {l l' : List α}

/-- The item with the key. -/
def item (key : α → κ) (k : κ) (l : List α) : Option α := l.find? fun a => key a = k

/-- `f` at the first item with the key, or at a new one behind the others. -/
def upsert (key : α → κ) (k : κ) (new : α) (f : α → α) : List α → List α
  | [] => [f new]
  | a :: l => if key a = k then f a :: l else a :: upsert key k new f l

theorem upsert_cons (a : α) (l : List α) : upsert key k new f (a :: l) =
    if key a = k then f a :: l else a :: upsert key k new f l := rfl

theorem item_cons (a : α) (l : List α) :
    item key k (a :: l) = if key a = k then some a else item key k l := by
  by_cases ha : key a = k <;> simp [item, ha]

theorem item_concat (l : List α) (a : α) :
    item key k (l ++ [a]) = (item key k l).or (if key a = k then some a else none) := by
  rw [item, List.find?_append, ← item, ← item, item_cons]
  rfl

theorem item_eq_none : item key k l = none ↔ k ∉ l.map key := by
  simp [item]

theorem key_of_item {a : α} (h : item key k l = some a) : key a = k := by
  simpa using List.find?_some h

theorem mem_of_item {a : α} (h : item key k l = some a) : a ∈ l := List.mem_of_find?_eq_some h

/-- In a list with one item for each key, an item is the one that its key finds. -/
theorem item_eq_some (h : (l.map key).Nodup) {a : α} :
    item key k l = some a ↔ a ∈ l ∧ key a = k := by
  refine ⟨fun ha => ⟨mem_of_item ha, key_of_item ha⟩, ?_⟩
  rintro ⟨ha, rfl⟩
  have hsome : item key (key a) l ≠ none := by
    rw [Ne, item_eq_none, not_not]
    exact List.mem_map_of_mem ha
  obtain ⟨b, hb⟩ := Option.ne_none_iff_exists'.mp hsome
  rw [hb, List.inj_on_of_nodup_map h (mem_of_item hb) ha (key_of_item hb)]

theorem item_perm (h : (l.map key).Nodup) (hperm : l.Perm l') : item key k l = item key k l' := by
  refine Option.ext fun a => ?_
  rw [item_eq_some h, item_eq_some ((hperm.map key).nodup_iff.mp h), hperm.mem_iff]

section Upsert

variable (hnew : key new = k) (hf : ∀ a, key (f a) = key a)
include hnew hf

theorem map_key_upsert (l : List α) :
    (upsert key k new f l).map key = if k ∈ l.map key then l.map key else l.map key ++ [k] := by
  induction l with
  | nil => exact congrArg (fun b => [b]) ((hf new).trans hnew)
  | cons a l ih =>
      rw [upsert_cons]
      by_cases ha : key a = k
      · rw [if_pos ha, List.map_cons, hf, List.map_cons, if_pos (ha ▸ List.mem_cons_self)]
      · rw [if_neg ha, List.map_cons, ih, List.map_cons]
        by_cases hk : k ∈ l.map key
        · rw [if_pos hk, if_pos (List.mem_cons_of_mem _ hk)]
        · rw [if_neg hk, if_neg (List.not_mem_cons_of_ne_of_not_mem (Ne.symm ha) hk)]
          rfl

theorem nodup_upsert (h : (l.map key).Nodup) : ((upsert key k new f l).map key).Nodup := by
  rw [map_key_upsert hnew hf]
  split
  · exact h
  · rename_i hk
    rw [List.nodup_append]
    refine ⟨h, List.nodup_singleton k, ?_⟩
    rintro a ha b hb rfl
    exact hk (List.mem_singleton.mp hb ▸ ha)

/-- One entry changes. -/
theorem item_upsert (l : List α) : item key k' (upsert key k new f l) =
    if k' = k then some (f ((item key k l).getD new)) else item key k' l := by
  induction l with
  | nil =>
      show item key k' [f new] = _
      rw [item_cons, hf, hnew]
      by_cases hk : k = k'
      · rw [if_pos hk, if_pos hk.symm]
        rfl
      · rw [if_neg hk, if_neg (Ne.symm hk)]
  | cons a l ih =>
      rw [upsert_cons]
      by_cases ha : key a = k
      · rw [if_pos ha, item_cons, hf, ha, item_cons, if_pos ha, Option.getD_some, item_cons, ha]
        by_cases hk : k = k'
        · rw [if_pos hk, if_pos hk.symm]
        · rw [if_neg hk, if_neg (Ne.symm hk), if_neg hk]
      · rw [if_neg ha, item_cons, ih, item_cons, if_neg ha, item_cons]
        by_cases hk : k' = k
        · rw [if_pos hk, if_neg (hk ▸ ha), if_pos hk]
        · rw [if_neg hk, if_neg hk]

end Upsert

/-! ### Items made from a sequence -/

section Gathered

variable {β : Type*} {of : β → κ} {make : β → α} {add : α → β → α}

/-- What a sequence makes for a key: an item from the first element with the key, to which all of
them are added. -/
def gathered (of : β → κ) (make : β → α) (add : α → β → α) (k : κ) (xs : List β) : Option α :=
  match xs.filter fun x => of x = k with
  | [] => none
  | x :: rest => some ((x :: rest).foldl add (make x))

/-- One more element changes the item of its key. -/
theorem gathered_concat (xs : List β) (x : β) :
    gathered of make add k (xs ++ [x]) =
      if k = of x then some (add ((gathered of make add (of x) xs).getD (make x)) x)
      else gathered of make add k xs := by
  rw [gathered, List.filter_append, List.filter_singleton]
  by_cases hk : of x = k
  · rw [decide_eq_true hk, if_pos hk.symm, hk, gathered]
    cases xs.filter fun x => of x = k with
    | nil => rfl
    | cons y rest =>
        show some (((y :: rest) ++ [x]).foldl add (make y)) = _
        rw [List.foldl_append]
        rfl
  · rw [decide_eq_false hk, if_neg (Ne.symm hk), cond_false, List.append_nil]
    rfl

theorem gathered_eq_some {a : α} {xs : List β} (h : gathered of make add k xs = some a) :
    ∃ x, (xs.filter fun x => of x = k).head? = some x ∧
      a = (xs.filter fun x => of x = k).foldl add (make x) := by
  rw [gathered] at h
  cases hxs : xs.filter fun x => of x = k with
  | nil =>
      rw [hxs] at h
      cases h
  | cons x rest =>
      rw [hxs] at h
      cases h
      exact ⟨x, rfl, rfl⟩

theorem gathered_eq_none {xs : List β} : gathered of make add k xs = none ↔ ∀ x ∈ xs, of x ≠ k := by
  have hnil : gathered of make add k xs = none ↔ (xs.filter fun x => of x = k) = [] := by
    rw [gathered]
    cases xs.filter fun x => of x = k with
    | nil => simp
    | cons x rest => simp
  rw [hnil, List.filter_eq_nil_iff]
  simp only [decide_eq_true_eq, ne_eq]

end Gathered

end Xmq.KeyedList
