import Xmq.IndexedHeap

/-!
# The sifts restore the heap order

`Ordered n h` says that among the first `n` slots no key is below its parent's. A sift starts
from a heap in which one slot is out of place: `UpPre` and `DownPre` say what the pairs around
that slot still satisfy, one swap moves the misplaced slot one level on, and where the sift stops
the whole heap is ordered again. `root_le` is what the order is for: the root has a least key.
-/

namespace Xmq.IndexedHeap

variable {σ ι κ : Type*} [IndexedStore σ ι κ]

theorem swap_key [LawfulIndexedStore σ] (h : Heap σ ι) (i j : ℕ) (x : ι) :
    key (swap h i j).mem x = key h.mem x :=
  (swap_reindexed h i j).key_eq x

theorem child_eq (pick : κ → κ → Bool) (h : Heap σ ι) (i n : ℕ) :
    child pick h i n = 2 * i + 1 ∨ child pick h i n = 2 * i + 2 := by
  unfold child
  split
  · split
    · exact Or.inr rfl
    · exact Or.inl rfl
  · exact Or.inl rfl

variable [Inhabited κ]

/-- The key in a slot. -/
def keyAt (h : Heap σ ι) (i : ℕ) : κ := (h.slots[i]?.map (key h.mem)).getD default

theorem keyAt_of_getElem? {h : Heap σ ι} {i : ℕ} {x : ι} (hx : h.slots[i]? = some x) :
    keyAt h i = key h.mem x := by
  rw [keyAt, hx]
  rfl

section Swap

variable [LawfulIndexedStore σ] (h : Heap σ ι) {i j : ℕ}

theorem keyAt_swap_left (hi : i < h.slots.length) (hj : j < h.slots.length) :
    keyAt (swap h i j) i = keyAt h j := by
  rw [keyAt_of_getElem? (List.getElem?_eq_getElem hj)]
  have hslot : (swap h i j).slots[i]? = some h.slots[j] := by
    rw [swap_of_lt h hi hj]
    by_cases hij : i = j
    · subst hij
      rw [List.getElem?_set_self (by simpa using hi)]
    · rw [List.getElem?_set_ne (Ne.symm hij), List.getElem?_set_self hi]
  rw [keyAt_of_getElem? hslot, swap_key]

theorem keyAt_swap_right (hi : i < h.slots.length) (hj : j < h.slots.length) :
    keyAt (swap h i j) j = keyAt h i := by
  rw [keyAt_of_getElem? (List.getElem?_eq_getElem hi)]
  have hslot : (swap h i j).slots[j]? = some h.slots[i] := by
    rw [swap_of_lt h hi hj, List.getElem?_set_self (by simpa using hj)]
  rw [keyAt_of_getElem? hslot, swap_key]

theorem keyAt_swap_ne {k : ℕ} (hi : k ≠ i) (hj : k ≠ j) : keyAt (swap h i j) k = keyAt h k := by
  unfold keyAt
  rw [swap_getElem?_of_ne h hi hj]
  cases h.slots[k]? with
  | none => rfl
  | some x => exact swap_key h i j x

end Swap

variable [LinearOrder κ]

theorem keyLe_iff (h : Heap σ ι) {i j : ℕ} (hi : i < h.slots.length) (hj : j < h.slots.length) :
    keyLe h i j = true ↔ keyAt h i ≤ keyAt h j := by
  rw [keyAt_of_getElem? (List.getElem?_eq_getElem hi),
    keyAt_of_getElem? (List.getElem?_eq_getElem hj)]
  simp only [keyLe, List.getElem?_eq_getElem hi, List.getElem?_eq_getElem hj, decide_eq_true_eq]

/-- Among the first `n` slots no key is below its parent's. -/
def Ordered (n : ℕ) (h : Heap σ ι) : Prop :=
  ∀ c, 0 < c → c < n → keyAt h ((c - 1) / 2) ≤ keyAt h c

theorem ordered_iff (h : Heap σ ι) : Ordered h.slots.length h ↔
    ∀ c x y, 0 < c → h.slots[(c - 1) / 2]? = some x → h.slots[c]? = some y →
      key h.mem x ≤ key h.mem y := by
  constructor
  · intro ho c x y h0 hx hy
    have hle := ho c h0 (List.getElem?_eq_some_iff.mp hy).1
    rwa [keyAt_of_getElem? hx, keyAt_of_getElem? hy] at hle
  · intro ho c h0 hc
    have hx := List.getElem?_eq_getElem (show (c - 1) / 2 < h.slots.length by omega)
    have hy := List.getElem?_eq_getElem hc
    rw [keyAt_of_getElem? hx, keyAt_of_getElem? hy]
    exact ho c _ _ h0 hx hy

/-- The root of an ordered heap has a least key. -/
theorem root_le {n : ℕ} {h : Heap σ ι} (ho : Ordered n h) :
    ∀ c, c < n → keyAt h 0 ≤ keyAt h c := by
  intro c
  induction c using Nat.strongRecOn with
  | ind c ih =>
    intro hc
    rcases Nat.eq_zero_or_pos c with rfl | hpos
    · exact le_refl _
    · exact (ih ((c - 1) / 2) (by omega) (by omega)).trans (ho c hpos hc)

theorem root_key_le {h : Heap σ ι} (ho : Ordered h.slots.length h) {x : ι}
    (hx : h.slots[0]? = some x) : ∀ y ∈ h.slots, key h.mem x ≤ key h.mem y := by
  intro y hy
  obtain ⟨c, hc, rfl⟩ := List.getElem_of_mem hy
  have hroot := root_le ho c hc
  rwa [keyAt_of_getElem? hx, keyAt_of_getElem? (List.getElem?_eq_getElem hc)] at hroot

/-- `pick` prefers the right child only when its key is no larger, and the left one likewise. -/
def Picks (pick : κ → κ → Bool) : Prop :=
  ∀ a b, (pick a b = true → b ≤ a) ∧ (pick a b = false → a ≤ b)

/-- The chosen child has the least key among the children of `i`. -/
theorem child_le {pick : κ → κ → Bool} (hp : Picks pick) (h : Heap σ ι)
    {i c n : ℕ} (hn : n ≤ h.slots.length) (hc0 : 0 < c) (hcn : c < n) (hc : (c - 1) / 2 = i) :
    keyAt h (child pick h i n) ≤ keyAt h c := by
  have hcases : c = 2 * i + 1 ∨ c = 2 * i + 2 := by omega
  unfold child
  split
  · rename_i x y hx hy
    rw [← keyAt_of_getElem? hx, ← keyAt_of_getElem? hy]
    split
    · rename_i hpick
      rcases hcases with rfl | rfl
      · exact (hp _ _).1 hpick.2
      · exact le_refl _
    · rename_i hpick
      rcases hcases with rfl | rfl
      · exact le_refl _
      · exact (hp _ _).2 (by simpa [hcn] using hpick)
  · rename_i hnone
    rcases hcases with rfl | rfl
    · exact le_refl _
    · exact (hnone _ _ (List.getElem?_eq_getElem (by omega))
        (List.getElem?_eq_getElem (by omega))).elim

/-- Sifting down a slot that is at most its children changes nothing. -/
theorem down_of_le {n : ℕ} {pick : κ → κ → Bool} {h : Heap σ ι} {i : ℕ} (hn : n ≤ h.slots.length)
    (hle : ∀ c, 0 < c → c < n → (c - 1) / 2 = i → keyAt h i ≤ keyAt h c) :
    down pick h i n = (h, i) := by
  rw [down, if_pos]
  by_cases hi : 2 * i + 1 < n
  · have hlt := child_lt pick h hi
    have hgt := child_gt pick h i n
    have heq := child_eq pick h i n
    exact Or.inr ((keyLe_iff h (by omega) (by omega)).mpr (hle _ (by omega) hlt (by omega)))
  · exact Or.inl (by omega)

/-! ## Sifting up -/

/-- Sifting up in an ordered heap changes nothing. -/
theorem up_of_ordered {n : ℕ} {h : Heap σ ι} {j : ℕ} (ho : Ordered n h) (hn : n ≤ h.slots.length)
    (hj : j < n) : up h j = h := by
  rw [up, if_pos]
  rcases Nat.eq_zero_or_pos j with rfl | hpos
  · exact Or.inl rfl
  · exact Or.inr ((keyLe_iff h (by omega) (by omega)).mpr (ho j hpos hj))

/-- Every pair is in order but the one above slot `j`, and the children of `j` are at least the
parent of `j`. -/
structure UpPre (n : ℕ) (h : Heap σ ι) (j : ℕ) : Prop where
  pairs : ∀ c, 0 < c → c < n → c ≠ j → keyAt h ((c - 1) / 2) ≤ keyAt h c
  grand : 0 < j → ∀ c, 0 < c → c < n → (c - 1) / 2 = j → keyAt h ((j - 1) / 2) ≤ keyAt h c

variable [LawfulIndexedStore σ] {n : ℕ}

theorem UpPre.swap {h : Heap σ ι} {j : ℕ} (hp : UpPre n h j) (hn : n ≤ h.slots.length) (hj : j < n)
    (hpos : 0 < j) (hlt : keyAt h j < keyAt h ((j - 1) / 2)) :
    UpPre n (swap h ((j - 1) / 2) j) ((j - 1) / 2) := by
  have hj' : j < h.slots.length := by omega
  obtain ⟨i, hi⟩ : ∃ i, i = (j - 1) / 2 := ⟨_, rfl⟩
  rw [← hi] at hlt ⊢
  have hi' : i < h.slots.length := by omega
  have eqi := keyAt_swap_left h hi' hj'
  have eqj := keyAt_swap_right h hi' hj'
  have eqo : ∀ k, k ≠ i → k ≠ j → keyAt (IndexedHeap.swap h i j) k = keyAt h k :=
    fun k h1 h2 => keyAt_swap_ne h h1 h2
  constructor
  · intro c hc0 hcn hci
    by_cases hcj : c = j
    · subst hcj
      rw [← hi, eqi, eqj]
      exact hlt.le
    · rw [eqo c hci hcj]
      by_cases hpi : (c - 1) / 2 = i
      · -- the sibling of `j`
        rw [hpi, eqi]
        exact hlt.le.trans (hpi ▸ hp.pairs c hc0 hcn hcj)
      · by_cases hpj : (c - 1) / 2 = j
        · -- a child of `j`
          rw [hpj, eqj, hi]
          exact hp.grand hpos c hc0 hcn hpj
        · rw [eqo _ hpi hpj]
          exact hp.pairs c hc0 hcn hcj
  · intro hi0 c hc0 hcn hcp
    have habove : keyAt h ((i - 1) / 2) ≤ keyAt h i := hp.pairs i hi0 (by omega) (by omega)
    rw [eqo _ (by omega) (by omega)]
    by_cases hcj : c = j
    · rw [hcj, eqj]
      exact habove
    · rw [eqo c (by omega) hcj]
      exact habove.trans (hcp ▸ hp.pairs c hc0 hcn hcj)

theorem up_ordered {h : Heap σ ι} {j : ℕ} (hp : UpPre n h j) (hn : n ≤ h.slots.length) (hj : j < n) :
    Ordered n (up h j) := by
  fun_induction up h j with
  | case1 h j hc =>
      intro c hc0 hcn
      by_cases hcj : c = j
      · subst hcj
        rcases hc with hz | hle
        · omega
        · exact (keyLe_iff h (by omega) (by omega)).mp hle
      · exact hp.pairs c hc0 hcn hcj
  | case2 h j hc ih =>
      rw [not_or] at hc
      have hlt : keyAt h j < keyAt h ((j - 1) / 2) := by
        rw [keyLe_iff h (by omega) (by omega), not_le] at hc
        exact hc.2
      exact ih (hp.swap hn hj (by omega) hlt) (by rwa [swap_length]) (by omega)

/-! ## Sifting down -/

/-- Every pair is in order but the one above slot `e` and those below slot `i`, and the children
of `i` are at least the parent of `i`. -/
structure DownPre (n e : ℕ) (h : Heap σ ι) (i : ℕ) : Prop where
  le : e ≤ i
  pairs : ∀ c, 0 < c → c < n → c ≠ e → (c - 1) / 2 ≠ i → keyAt h ((c - 1) / 2) ≤ keyAt h c
  grand : e < i → ∀ c, 0 < c → c < n → (c - 1) / 2 = i → keyAt h ((i - 1) / 2) ≤ keyAt h c

theorem DownPre.swap {pick : κ → κ → Bool} (hpick : Picks pick) {e : ℕ} {h : Heap σ ι} {i : ℕ}
    (hp : DownPre n e h i) (hn : n ≤ h.slots.length) (hi : 2 * i + 1 < n)
    (hlt : keyAt h (child pick h i n) < keyAt h i) :
    DownPre n e (swap h i (child pick h i n)) (child pick h i n) := by
  have hmin : ∀ c, 0 < c → c < n → (c - 1) / 2 = i →
      keyAt h (child pick h i n) ≤ keyAt h c := fun c h0 h1 h2 => child_le hpick h hn h0 h1 h2
  have hjlt := child_lt pick h hi
  have hjeq := child_eq pick h i n
  generalize child pick h i n = j at hlt hmin hjlt hjeq
  have hpj : (j - 1) / 2 = i := by omega
  have hle := hp.le
  have eqi := keyAt_swap_left h (i := i) (j := j) (by omega) (by omega)
  have eqj := keyAt_swap_right h (i := i) (j := j) (by omega) (by omega)
  have eqo : ∀ k, k ≠ i → k ≠ j → keyAt (IndexedHeap.swap h i j) k = keyAt h k :=
    fun k h1 h2 => keyAt_swap_ne h h1 h2
  refine ⟨by omega, ?_, ?_⟩
  · intro c hc0 hcn hce hcp
    by_cases hcj : c = j
    · rw [hcj, hpj, eqi, eqj]
      exact hlt.le
    · by_cases hci : c = i
      · -- the pair above `i`: its new key is the chosen child's
        rw [hci, eqi, eqo _ (by omega) (by omega)]
        exact hp.grand (by omega) j (by omega) hjlt hpj
      · rw [eqo c hci hcj]
        by_cases hpi : (c - 1) / 2 = i
        · rw [hpi, eqi]
          exact hmin c hc0 hcn hpi
        · rw [eqo _ hpi hcp]
          exact hp.pairs c hc0 hcn hce hpi
  · intro _ c hc0 hcn hcp
    rw [hpj, eqi, eqo c (by omega) (by omega)]
    exact hcp ▸ hp.pairs c hc0 hcn (by omega) (by omega)

theorem down_pairs {pick : κ → κ → Bool} (hpick : Picks pick) {e : ℕ} {h : Heap σ ι} {i : ℕ}
    (hp : DownPre n e h i) (hn : n ≤ h.slots.length) :
    ∀ c, 0 < c → c < n → c ≠ e →
      keyAt (down pick h i n).1 ((c - 1) / 2) ≤ keyAt (down pick h i n).1 c := by
  fun_induction down pick h i n with
  | case1 h i hc =>
      intro c hc0 hcn hce
      by_cases hpi : (c - 1) / 2 = i
      · rcases hc with hge | hle
        · omega
        · have hlt := child_lt pick h (i := i) (n := n) (by omega)
          rw [keyLe_iff h (by omega) (by omega)] at hle
          exact hpi ▸ hle.trans (child_le hpick h hn hc0 hcn hpi)
      · exact hp.pairs c hc0 hcn hce hpi
  | case2 h i hc ih =>
      obtain ⟨hge, hkey⟩ := not_or.mp hc
      have hi : 2 * i + 1 < n := by omega
      have hlt := child_lt pick h hi
      rw [keyLe_iff h (by omega) (by omega), not_le] at hkey
      exact ih (hp.swap hpick hn hi hkey) (by rwa [swap_length])

/-- Sifting down where only the pairs below the slot can be out of order. -/
theorem down_ordered {pick : κ → κ → Bool} (hpick : Picks pick) {h : Heap σ ι} {i : ℕ}
    (hp : DownPre n 0 h i) (hn : n ≤ h.slots.length) : Ordered n (down pick h i n).1 :=
  fun c hc0 hcn => down_pairs hpick hp hn c hc0 hcn (by omega)

/-! ## The two ends of the list -/

theorem append_upPre {h : Heap σ ι} (ho : Ordered h.slots.length h) (x : ι) :
    UpPre (h.slots.length + 1) (append h x) h.slots.length := by
  have hold : ∀ c, c < h.slots.length → keyAt (append h x) c = keyAt h c := by
    intro c hc
    have hslot : (append h x).slots[c]? = some h.slots[c] := by
      rw [append, List.getElem?_append_left hc, List.getElem?_eq_getElem hc]
    rw [keyAt_of_getElem? hslot, keyAt_of_getElem? (List.getElem?_eq_getElem hc)]
    exact key_setIndex _ _ _ _
  constructor
  · intro c hc0 hcn hce
    rw [hold c (by omega), hold _ (by omega)]
    exact ho c hc0 (by omega)
  · intro _ c _ hcn hcp
    omega

theorem dropLast_ordered {h k : Heap σ ι} {x : ι} {n : ℕ} (hd : dropLast h = some (x, k))
    (hn : h.slots.length = n + 1) (ho : Ordered n h) : Ordered n k := by
  have hkeep : ∀ c, c < n → keyAt k c = keyAt h c := by
    intro c hc
    unfold dropLast at hd
    split at hd
    · cases hd
      have hslot : h.slots.dropLast[c]? = some h.slots[c] := by
        rw [List.getElem?_dropLast, if_pos (by omega), List.getElem?_eq_getElem]
      rw [keyAt_of_getElem? (h := ⟨_, h.slots.dropLast⟩) hslot,
        keyAt_of_getElem? (List.getElem?_eq_getElem (by omega))]
      exact key_setIndex _ _ _ _
    · cases hd
  intro c hc0 hcn
  rw [hkeep c hcn, hkeep _ (by omega)]
  exact ho c hc0 hcn

/-! ## Filling a hole with the last element -/

/-- The last element in slot `i`: it may have to go down, or else it may have to go up. -/
theorem swap_last_pre {h : Heap σ ι} (ho : Ordered h.slots.length h) {i : ℕ}
    (hn : h.slots.length = n + 1) (hi : i < n) :
    DownPre n 0 (swap h i n) i ∨
      (∀ c, 0 < c → c < n → (c - 1) / 2 = i → keyAt (swap h i n) i ≤ keyAt (swap h i n) c) ∧
        UpPre n (swap h i n) i := by
  have eqi := keyAt_swap_left h (i := i) (j := n) (by omega) (by omega)
  have eqo : ∀ c, c < n → c ≠ i → keyAt (swap h i n) c = keyAt h c :=
    fun c h1 h2 => keyAt_swap_ne h h2 (by omega)
  have hold : ∀ c, 0 < c → c < n → keyAt h ((c - 1) / 2) ≤ keyAt h c :=
    fun c h0 hc => ho c h0 (by omega)
  by_cases hpar : i = 0 ∨ keyAt h ((i - 1) / 2) ≤ keyAt h n
  · refine Or.inl ⟨by omega, ?_, ?_⟩
    · intro c hc0 hcn _ hcp
      rw [eqo _ (by omega) hcp]
      by_cases hci : c = i
      · subst hci
        rw [eqi]
        exact hpar.resolve_left (by omega)
      · rw [eqo c hcn hci]
        exact hold c hc0 hcn
    · intro hi0 c hc0 hcn hcp
      rw [eqo _ (by omega) (by omega), eqo c hcn (by omega)]
      exact (hold i hi0 hi).trans (hcp ▸ hold c hc0 hcn)
  · rw [not_or, not_le] at hpar
    obtain ⟨hi0, hlt⟩ := hpar
    have hle : ∀ c, 0 < c → c < n → (c - 1) / 2 = i →
        keyAt h ((i - 1) / 2) ≤ keyAt h c := fun c hc0 hcn hcp =>
      (hold i (by omega) hi).trans (hcp ▸ hold c hc0 hcn)
    refine Or.inr ⟨?_, ?_, ?_⟩
    · intro c hc0 hcn hcp
      rw [eqi, eqo c hcn (by omega)]
      exact hlt.le.trans (hle c hc0 hcn hcp)
    · intro c hc0 hcn hci
      rw [eqo c hcn hci]
      by_cases hcp : (c - 1) / 2 = i
      · rw [hcp, eqi]
        exact hlt.le.trans (hle c hc0 hcn hcp)
      · rw [eqo _ (by omega) hcp]
        exact hold c hc0 hcn
    · intro _ c hc0 hcn hcp
      rw [eqo _ (by omega) (by omega), eqo c hcn (by omega)]
      exact hle c hc0 hcn hcp

section Fill

variable {pick : κ → κ → Bool} {h : Heap σ ι} {i : ℕ}

/-- Sifting the filled slot down and then up. -/
theorem down_up_ordered (hpick : Picks pick) (ho : Ordered h.slots.length h)
    (hn : h.slots.length = n + 1) (hi : i < n) :
    Ordered n (up (down pick (swap h i n) i n).1 i) := by
  have hlen : (swap h i n).slots.length = n + 1 := by rw [swap_length, hn]
  rcases swap_last_pre ho hn hi with hdown | ⟨hle, hup⟩
  · have hord := down_ordered hpick hdown (by omega)
    have hsw := down_swaps (m := n) pick (swap h i n) i n (Nat.le_refl n)
    rw [up_of_ordered hord (by rw [hsw.length_eq]; omega) hi]
    exact hord
  · rw [down_of_le (by omega) hle]
    show Ordered n (up (swap h i n) i)
    exact up_ordered hup (by omega) hi

/-- Sifting the filled slot down, and up only if it did not go down. -/
theorem down_or_up_ordered (hpick : Picks pick) (ho : Ordered h.slots.length h)
    (hn : h.slots.length = n + 1) (hi : i < n) :
    Ordered n
      (if (down pick (swap h i n) i n).2 = i then up (down pick (swap h i n) i n).1 i
        else (down pick (swap h i n) i n).1) := by
  split
  · exact down_up_ordered hpick ho hn hi
  · rename_i hmoved
    rcases swap_last_pre ho hn hi with hdown | ⟨hle, _⟩
    · exact down_ordered hpick hdown (by rw [swap_length]; omega)
    · exact absurd (by rw [down_of_le (by rw [swap_length]; omega) hle]) hmoved

/-- Sifting the filled root down. -/
theorem down_root_ordered (hpick : Picks pick) (ho : Ordered h.slots.length h)
    (hn : h.slots.length = n + 1) (hi : 0 < n) : Ordered n (down pick (swap h 0 n) 0 n).1 := by
  have hup := down_up_ordered hpick ho hn hi
  rwa [up, if_pos (Or.inl rfl)] at hup

end Fill

end Xmq.IndexedHeap
