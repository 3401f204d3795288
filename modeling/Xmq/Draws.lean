import Mathlib.Data.List.Perm.Subperm

/-!
# Drawing without putting back

Draw an item of a list by its position: the first item moves into the gap, and the rest is one shorter.
`draws` draws several times. What can be drawn from a list are just its subpermutations.
-/

namespace Xmq.Draws

variable {α : Type*} {l rest ds : List α} {x y : α} {r : ℕ} {rs : List ℕ}

/-- The item at `r`, and what is left: the first item has taken its place. -/
def draw : ℕ → List α → Option (α × List α)
  | _, [] => none
  | 0, x :: l => some (x, l)
  | r + 1, x :: l => l[r]?.map fun y => (y, l.set r x)

/-- What is drawn, in order, and what is left. -/
def draws : List ℕ → List α → Option (List α × List α)
  | [], l => some ([], l)
  | r :: rs, l => (draw r l).bind fun (y, l) => (draws rs l).map fun (ds, l) => (y :: ds, l)

/-! ### One item -/

/-- The item drawn is the first one, or the first one has taken its place. -/
theorem draw_eq (h : draw r l = some (y, rest)) : (r = 0 ∧ l = y :: rest) ∨
    ∃ x pre post, r = pre.length + 1 ∧ l = x :: (pre ++ y :: post) ∧ rest = pre ++ x :: post := by
  cases l with
  | nil => cases h
  | cons x l =>
      cases r with
      | zero =>
          cases h
          exact .inl ⟨rfl, rfl⟩
      | succ r =>
          obtain ⟨z, hz, hd⟩ := Option.map_eq_some_iff.mp h
          cases hd
          obtain ⟨hr, rfl⟩ := List.getElem?_eq_some_iff.mp hz
          refine .inr ⟨x, l.take r, l.drop (r + 1), ?_, ?_, ?_⟩
          · rw [List.length_take_of_le (Nat.le_of_lt hr)]
          · rw [← List.drop_eq_getElem_cons hr, List.take_append_drop]
          · rw [List.set_eq_take_append_cons_drop, if_pos hr]

theorem draw_perm (h : draw r l = some (y, rest)) : (y :: rest).Perm l := by
  rcases draw_eq h with ⟨-, rfl⟩ | ⟨x, pre, post, -, rfl, rfl⟩
  · exact List.Perm.refl _
  · calc
      List.Perm (y :: (pre ++ x :: post)) (y :: x :: (pre ++ post)) := List.perm_middle.cons y
      List.Perm _ (x :: y :: (pre ++ post)) := List.Perm.swap x y _
      List.Perm _ (x :: (pre ++ y :: post)) := List.perm_middle.symm.cons x

/-- To draw is to exchange two items of the list, whatever stands before it. -/
theorem draw_exchanges (front : List α) (h : draw r l = some (y, rest)) :
    ∃ x, l[0]? = some x ∧ l[r]? = some y ∧
      ((front ++ l).set front.length y).set (front.length + r) x = front ++ y :: rest := by
  rcases draw_eq h with ⟨rfl, rfl⟩ | ⟨x, pre, post, rfl, rfl, rfl⟩
  · exact ⟨y, rfl, rfl, by simp⟩
  · exact ⟨x, rfl, by simp, by simp⟩

/-- Every position has an item. -/
theorem exists_draw (h : r < l.length) : ∃ y rest, draw r l = some (y, rest) := by
  cases l with
  | nil => exact absurd h (Nat.not_lt_zero r)
  | cons x l =>
      cases r with
      | zero => exact ⟨x, l, rfl⟩
      | succ r =>
          have hr : r < l.length := Nat.lt_of_succ_lt_succ h
          exact ⟨l[r], l.set r x, by rw [draw, List.getElem?_eq_getElem hr, Option.map_some]⟩

theorem length_of_draw (h : draw r l = some (y, rest)) : l.length = rest.length + 1 :=
  (draw_perm h).length_eq.symm

/-- Every item has a position. -/
theorem exists_draw_of_mem (h : y ∈ l) : ∃ r rest, r < l.length ∧ draw r l = some (y, rest) := by
  cases l with
  | nil => cases h
  | cons x l =>
      rcases List.mem_cons.mp h with rfl | h
      · exact ⟨0, l, Nat.succ_pos _, rfl⟩
      · obtain ⟨r, hr, rfl⟩ := List.getElem_of_mem h
        refine ⟨r + 1, l.set r x, Nat.succ_lt_succ hr, ?_⟩
        rw [draw, List.getElem?_eq_getElem hr, Option.map_some]

/-! ### Several items -/

theorem draws_cons_eq_some (h : draw r l = some (y, rest)) :
    draws (r :: rs) l = (draws rs rest).map fun (ds, l) => (y :: ds, l) := by
  rw [draws, h, Option.bind_some]

theorem draws_perm (h : draws rs l = some (ds, rest)) : (ds ++ rest).Perm l := by
  induction rs generalizing l ds with
  | nil =>
      cases h
      exact List.Perm.refl _
  | cons r rs ih =>
      obtain ⟨⟨y, l'⟩, hy, hds⟩ := Option.bind_eq_some_iff.mp h
      obtain ⟨⟨ds', rest'⟩, hds', hd⟩ := Option.map_eq_some_iff.mp hds
      cases hd
      exact ((ih hds').cons y).trans (draw_perm hy)

theorem length_of_draws (h : draws rs l = some (ds, rest)) : ds.length = rs.length := by
  induction rs generalizing l ds with
  | nil =>
      cases h
      rfl
  | cons r rs ih =>
      obtain ⟨⟨y, l'⟩, -, hds⟩ := Option.bind_eq_some_iff.mp h
      obtain ⟨⟨ds', rest'⟩, hds', hd⟩ := Option.map_eq_some_iff.mp hds
      cases hd
      rw [List.length_cons, List.length_cons, ih hds']

/-- Each position is one of those that are left when its turn comes. -/
def InRange : List ℕ → ℕ → Prop
  | [], _ => True
  | r :: rs, n => r < n ∧ InRange rs (n - 1)

theorem InRange.lt {n : ℕ} (h : InRange rs n) (hr : r ∈ rs) : r < n := by
  induction rs generalizing n with
  | nil => cases hr
  | cons q rs ih =>
      rcases List.mem_cons.mp hr with rfl | hr
      · exact h.1
      · exact Nat.lt_of_lt_of_le (ih h.2 hr) (Nat.sub_le n 1)

theorem exists_draws (h : InRange rs l.length) : ∃ ds rest, draws rs l = some (ds, rest) := by
  induction rs generalizing l with
  | nil => exact ⟨[], l, rfl⟩
  | cons r rs ih =>
      obtain ⟨y, l', hy⟩ := exists_draw h.1
      have hlen : l.length - 1 = l'.length := by rw [length_of_draw hy, Nat.add_sub_cancel]
      obtain ⟨ds, rest, hds⟩ := ih (hlen ▸ h.2)
      exact ⟨y :: ds, rest, by rw [draws_cons_eq_some hy, hds, Option.map_some]⟩

/-- **Whatever is in the list can be drawn from it**, in any order. -/
theorem exists_draws_of_subperm (h : ds.Subperm l) :
    ∃ rs rest, InRange rs l.length ∧ draws rs l = some (ds, rest) := by
  induction ds generalizing l with
  | nil => exact ⟨[], l, trivial, rfl⟩
  | cons d ds ih =>
      obtain ⟨r, l', hr, hd⟩ := exists_draw_of_mem (h.subset List.mem_cons_self)
      have hsub : ds.Subperm l' :=
        (List.subperm_cons d).mp (h.trans (draw_perm hd).symm.subperm)
      obtain ⟨rs, rest, hrs, hds⟩ := ih hsub
      have hlen : l.length - 1 = l'.length := by rw [length_of_draw hd, Nat.add_sub_cancel]
      refine ⟨r :: rs, rest, ⟨hr, hlen ▸ hrs⟩, ?_⟩
      rw [draws_cons_eq_some hd, hds, Option.map_some]

/-- Nothing else is drawn. -/
theorem subperm_of_draws (h : draws rs l = some (ds, rest)) : ds.Subperm l :=
  (List.sublist_append_left ds rest).subperm.trans (draws_perm h).subperm

theorem nodup_of_draws (h : draws rs l = some (ds, rest)) (hl : l.Nodup) : ds.Nodup :=
  ((draws_perm h).nodup_iff.mpr hl).sublist (List.sublist_append_left ds rest)

/-- Any item can be drawn at any time. -/
theorem exists_subperm_at [DecidableEq α] {n k : ℕ} (hy : y ∈ l) (hn : n ≤ l.length) (hk : k < n) :
    ∃ ds : List α, ds.Subperm l ∧ ds.length = n ∧ ds[k]? = some y := by
  have hlen : (l.erase y).length + 1 = l.length := by
    rw [← List.length_cons (a := y), (List.perm_cons_erase hy).length_eq]
  have htake : ((l.erase y).take k).length = k := List.length_take_of_le (by omega)
  -- the item is put into the others
  have hperm : ((l.erase y).take k ++ y :: (l.erase y).drop k).Perm l := by
    refine List.perm_middle.trans (List.Perm.trans ?_ (List.perm_cons_erase hy).symm)
    rw [List.take_append_drop]
  refine ⟨((l.erase y).take k ++ y :: (l.erase y).drop k).take n, ?_, ?_, ?_⟩
  · exact (List.take_sublist n _).subperm.trans hperm.subperm
  · exact List.length_take_of_le (hperm.length_eq ▸ hn)
  · rw [List.getElem?_take_of_lt hk, List.getElem?_append_right (Nat.le_of_eq htake), htake,
      Nat.sub_self, List.getElem?_cons_zero]

/-! ### Other items at the same places -/

theorem draw_map {β : Type*} (f : α → β) (r : ℕ) (l : List α) :
    draw r (l.map f) = (draw r l).map fun (y, l) => (f y, l.map f) := by
  cases l with
  | nil => rfl
  | cons x l =>
      cases r with
      | zero => rfl
      | succ r =>
          rw [List.map_cons, draw, draw, List.getElem?_map, Option.map_map, Option.map_map]
          simp only [Function.comp_def, List.map_set]

theorem draws_map {β : Type*} (f : α → β) (rs : List ℕ) (l : List α) :
    draws rs (l.map f) = (draws rs l).map fun (ds, l) => (ds.map f, l.map f) := by
  induction rs generalizing l with
  | nil => rfl
  | cons r rs ih =>
      rw [draws, draws, draw_map]
      cases draw r l with
      | none => rfl
      | some p =>
          obtain ⟨y, l'⟩ := p
          simp only [Option.map_some, Option.bind_some, ih, Option.map_map]
          rfl

end Xmq.Draws
