import Mathlib.Data.Int.Notation
import Xmq.Draws
import Xmq.QueueScan

/-!
# Selecting channels at random

`UniqRands` exchanges each of the first places of a slice with one from there on. A place is the sum of a
remainder and a position, and the loop counts `maxval` itself down, so that a remainder by zero or a place
behind the slice would end the process. The slice from the current place on is what `Draws` draws from.

* `rand k` is the answer of the `k`-th call of `rand.Int`, which is the call of round `k`.
* No sum is above the first `maxval`, so that an `int` holds them all.
-/

namespace Xmq.UniqRands

open Draws

/-! ### The function -/

inductive Panic where
  | divideByZero
  | indexOutOfRange
  | makeslice
  | sliceBounds
  deriving DecidableEq

/-- `x % y`, which has the sign of `x`. -/
def rem (x y : ℤ) : Except Panic ℤ := if y = 0 then .error .divideByZero else .ok (x.tmod y)

/-- `intSlice[i]`. -/
def index (intSlice : List ℤ) (i : ℤ) : Except Panic ℤ :=
  if i < 0 then .error .indexOutOfRange
  else
    match intSlice[i.toNat]? with
    | some v => .ok v
    | none => .error .indexOutOfRange

/-- Both values are read before the first is written. -/
def swap (intSlice : List ℤ) (i j : ℤ) : Except Panic (List ℤ) := do
  let vj ← index intSlice j
  let vi ← index intSlice i
  return (intSlice.set i.toNat vj).set j.toNat vi

/-- The loop, from round `i` on, with `n` rounds to go. -/
def shuffle (rand : ℕ → ℤ) : ℕ → ℕ → ℤ → List ℤ → Except Panic (List ℤ)
  | 0, _, _, intSlice => .ok intSlice
  | n + 1, i, maxval, intSlice => do
    let j := (← rem (rand i) maxval) + i
    shuffle rand n (i + 1) (maxval - 1) (← swap intSlice i j)

def uniqRands (rand : ℕ → ℤ) (quantity maxval : ℤ) : Except Panic (List ℤ) :=
  let quantity := if maxval < quantity then maxval else quantity
  if maxval < 0 then .error .makeslice
  else do
    let intSlice ← shuffle rand quantity.toNat 0 maxval ((List.range maxval.toNat).map (↑))
    if quantity < 0 ∨ intSlice.length < quantity then .error .sliceBounds
    else .ok (intSlice.take quantity.toNat)

/-! ### One round -/

variable {rand : ℕ → ℤ} {intSlice front l rest ds : List ℤ} {y vi vj i j : ℤ} {r : ℕ}

theorem rem_eq {n : ℕ} (h : 0 < n) {x : ℤ} (hx : 0 ≤ x) : rem x n = .ok (x % n) := by
  rw [rem, if_neg (by omega), Int.tmod_eq_emod_of_nonneg hx]

/-- A place behind `front`. -/
theorem index_append {k : ℕ} (h : l[k]? = some y) (hi : i = k + front.length) :
    index (front ++ l) i = .ok y := by
  have hnat : i.toNat = front.length + k := by omega
  rw [index, if_neg (by omega), hnat, List.getElem?_append_right (Nat.le_add_right _ _),
    Nat.add_sub_cancel_left, h]

theorem swap_of_index (hi : index intSlice i = .ok vi) (hj : index intSlice j = .ok vj) :
    swap intSlice i j = .ok ((intSlice.set i.toNat vj).set j.toNat vi) := by
  rw [swap, hj, hi]
  rfl

/-- What is exchanged with the first place behind `front` is drawn. -/
theorem swap_eq (h : draw r l = some (y, rest)) (hi : i = front.length)
    (hj : j = r + front.length) : swap (front ++ l) i j = .ok (front ++ y :: rest) := by
  obtain ⟨x, hx, hy, hset⟩ := draw_exchanges front h
  have hin : i.toNat = front.length := by omega
  have hjn : j.toNat = front.length + r := by omega
  rw [swap_of_index (index_append hx (by omega)) (index_append hy hj), hin, hjn, hset]

/-! ### The loop -/

/-- From round `i` on, `rand` leads to these positions, `m` being left at first. -/
def Leads (rand : ℕ → ℤ) : ℕ → ℕ → List ℕ → Prop
  | _, _, [] => True
  | i, m, r :: rs => rand i % m = r ∧ Leads rand (i + 1) (m - 1) rs

/-- **The loop draws** from the part of the slice that it has not passed. -/
theorem shuffle_eq {rs : List ℕ} {k : ℕ} (hrand : ∀ k, 0 ≤ rand k)
    (hrs : Leads rand k l.length rs) (hds : draws rs l = some (ds, rest)) (hk : front.length = k) :
    shuffle rand rs.length k l.length (front ++ l) = .ok (front ++ (ds ++ rest)) := by
  induction rs generalizing l ds front k with
  | nil =>
      cases hds
      rfl
  | cons r rs ih =>
      obtain ⟨⟨y, l'⟩, hy, hds'⟩ := Option.bind_eq_some_iff.mp hds
      obtain ⟨⟨ds', rest'⟩, hds', hd⟩ := Option.map_eq_some_iff.mp hds'
      cases hd
      have hlen := length_of_draw hy
      have hless : (l.length : ℤ) - 1 = l'.length := by omega
      have hrem : rem (rand k) l.length = .ok (r : ℤ) := by
        rw [rem_eq (by omega) (hrand k), hrs.1]
      have hswap : swap (front ++ l) k (r + k) = .ok (front ++ y :: l') :=
        swap_eq hy (by omega) (by omega)
      have hloop : shuffle rand rs.length (k + 1) l'.length (front ++ [y] ++ l') =
          .ok (front ++ [y] ++ (ds' ++ rest)) := by
        refine ih ?_ hds' (by simp [hk])
        have hleads := hrs.2
        rwa [hlen, Nat.add_sub_cancel] at hleads
      calc
        shuffle rand (rs.length + 1) k l.length (front ++ l)
          = shuffle rand rs.length (k + 1) (l.length - 1) (front ++ y :: l') := by
            rw [shuffle, hrem]
            show (do
              shuffle rand rs.length (k + 1) (l.length - 1) (← swap (front ++ l) k (r + k))) = _
            rw [hswap]
            rfl
        _ = shuffle rand rs.length (k + 1) l'.length (front ++ [y] ++ l') := by
            rw [hless, List.append_assoc, List.singleton_append]
        _ = .ok (front ++ (y :: ds' ++ rest)) := by
            rw [hloop, List.append_assoc, List.singleton_append, List.cons_append]

theorem exists_leads (rand : ℕ → ℤ) (k : ℕ) {n m : ℕ} (h : n ≤ m) :
    ∃ rs, rs.length = n ∧ InRange rs m ∧ Leads rand k m rs := by
  induction n generalizing k m with
  | zero => exact ⟨[], rfl, trivial, trivial⟩
  | succ n ih =>
      obtain ⟨rs, hlen, hin, hleads⟩ := ih (k + 1) (Nat.le_sub_one_of_lt h)
      have hnonneg := Int.emod_nonneg (rand k) (show (m : ℤ) ≠ 0 by omega)
      have hlt := Int.emod_lt_of_pos (rand k) (show (0 : ℤ) < m by omega)
      refine ⟨(rand k % m).toNat :: rs, by rw [List.length_cons, hlen], ⟨by omega, hin⟩, ?_, hleads⟩
      exact (Int.toNat_of_nonneg hnonneg).symm

/-- Any positions are led to. -/
theorem leads_of_inRange {rs : List ℕ} {k m : ℕ} (h : InRange rs m)
    (hrand : ∀ (j r : ℕ), rs[j]? = some r → rand (k + j) = r) : Leads rand k m rs := by
  induction rs generalizing k m with
  | nil => trivial
  | cons r rs ih =>
      refine ⟨?_, ih h.2 fun j s hs => ?_⟩
      · have hr : rand k = r := hrand 0 r rfl
        have hlt := h.1
        rw [hr, Int.emod_eq_of_lt (by omega) (by omega)]
      · rw [← hrand (j + 1) s hs]
        congr 1
        omega

theorem exists_rand {rs : List ℕ} {maxval : ℕ} (h : InRange rs maxval) :
    ∃ rand : ℕ → ℕ, (∀ k, rand k ≤ maxval) ∧ Leads (fun k => rand k) 0 maxval rs := by
  refine ⟨fun k => rs[k]?.getD 0, fun k => ?_, leads_of_inRange h fun j r hr => ?_⟩
  · show rs[k]?.getD 0 ≤ maxval
    cases hr : rs[k]? with
    | none => exact Nat.zero_le maxval
    | some r => exact (h.lt (List.mem_of_getElem? hr)).le
  · show ((rs[0 + j]?.getD 0 : ℕ) : ℤ) = r
    rw [Nat.zero_add, hr, Option.getD_some]

/-! ### The sample -/

/-- The slice before the loop. -/
def identity (maxval : ℕ) : List ℤ := (List.range maxval).map (↑)

theorem length_identity (maxval : ℕ) : (identity maxval).length = maxval := by
  rw [identity, List.length_map, List.length_range]

theorem identity_nodup (maxval : ℕ) : (identity maxval).Nodup :=
  List.nodup_range.map fun _ _ => Int.ofNat_inj.mp

theorem mem_identity {maxval : ℕ} {v : ℤ} : v ∈ identity maxval ↔ 0 ≤ v ∧ v < maxval := by
  rw [identity, List.mem_map]
  constructor
  · rintro ⟨n, hn, rfl⟩
    have hlt := List.mem_range.mp hn
    omega
  · rintro ⟨hv, hlt⟩
    exact ⟨v.toNat, List.mem_range.mpr (by omega), Int.toNat_of_nonneg hv⟩

/-- What is drawn is returned. -/
theorem uniqRands_eq {quantity maxval : ℕ} {rs : List ℕ} (hrand : ∀ k, 0 ≤ rand k)
    (hlen : rs.length = min quantity maxval) (hrs : Leads rand 0 maxval rs)
    (hds : draws rs (identity maxval) = some (ds, rest)) :
    uniqRands rand quantity maxval = .ok ds := by
  have hq : (if (maxval : ℤ) < quantity then (maxval : ℤ) else quantity) = rs.length := by
    split <;> omega
  have hloop : shuffle rand rs.length 0 maxval (identity maxval) = .ok (ds ++ rest) := by
    have h : shuffle rand rs.length 0 (identity maxval).length ([] ++ identity maxval) =
        .ok ([] ++ (ds ++ rest)) :=
      shuffle_eq hrand ((length_identity maxval).symm ▸ hrs) hds rfl
    rwa [length_identity] at h
  have hlength := length_of_draws hds
  simp only [uniqRands, hq, Int.toNat_natCast]
  rw [if_neg (by omega)]
  show (shuffle rand rs.length 0 maxval (identity maxval) >>= fun intSlice =>
    if (rs.length : ℤ) < 0 ∨ (intSlice.length : ℤ) < rs.length then .error .sliceBounds
    else .ok (intSlice.take rs.length)) = _
  rw [hloop]
  show (if (rs.length : ℤ) < 0 ∨ ((ds ++ rest).length : ℤ) < rs.length then
      Except.error Panic.sliceBounds
    else .ok ((ds ++ rest).take rs.length)) = Except.ok ds
  rw [if_neg (by rw [List.length_append]; omega), ← hlength, List.take_left]

/-- **A sample without repetition.** -/
theorem uniqRands_sample (quantity maxval : ℕ) (hrand : ∀ k, 0 ≤ rand k) :
    ∃ l, uniqRands rand quantity maxval = .ok l ∧ l.length = min quantity maxval ∧ l.Nodup ∧
      ∀ v ∈ l, 0 ≤ v ∧ v < maxval := by
  obtain ⟨rs, hlen, hin, hrs⟩ := exists_leads rand 0 (min_le_right quantity maxval)
  obtain ⟨ds, rest, hds⟩ := exists_draws (l := identity maxval) (length_identity maxval ▸ hin)
  refine ⟨ds, uniqRands_eq hrand hlen hrs hds, (length_of_draws hds).trans hlen,
    nodup_of_draws hds (identity_nodup maxval), fun v hv => ?_⟩
  exact mem_identity.mp ((subperm_of_draws hds).subset hv)

/-- **Every sample is possible.** -/
theorem exists_uniqRands {quantity maxval : ℕ} {l : List ℤ} (hlen : l.length = min quantity maxval)
    (hl : l.Nodup) (hin : ∀ v ∈ l, 0 ≤ v ∧ v < maxval) :
    ∃ rand : ℕ → ℕ, (∀ k, rand k ≤ maxval) ∧
      uniqRands (fun k => rand k) quantity maxval = .ok l := by
  have hsub : l.Subperm (identity maxval) := hl.subperm fun v hv => mem_identity.mpr (hin v hv)
  obtain ⟨rs, rest, hrs, hds⟩ := exists_draws_of_subperm hsub
  obtain ⟨rand, hle, hleads⟩ := exists_rand (length_identity maxval ▸ hrs)
  refine ⟨rand, hle, uniqRands_eq (fun k => Int.natCast_nonneg _) ?_ hleads hds⟩
  rw [← length_of_draws hds, hlen]

/-! ### The scan of the queues -/

section Scan

variable {rand : ℕ → ℕ} {a : Array ℕ} {front l rest ds : List ℕ} {y r k quantity maxval : ℕ}
variable {rs : List ℕ}

theorem swapIfInBounds_eq (h : draw r l = some (y, rest)) (ha : a.toList = front ++ l) :
    (a.swapIfInBounds front.length (r + front.length)).toList = front ++ y :: rest := by
  obtain ⟨x, hx, hy, hset⟩ := draw_exchanges front h
  have hax : a.toList[front.length]? = some x := by
    rw [ha, List.getElem?_append_right (Nat.le_refl _), Nat.sub_self, hx]
  have hay : a.toList[r + front.length]? = some y := by
    rw [ha, List.getElem?_append_right (Nat.le_add_left _ _), Nat.add_sub_cancel, hy]
  obtain ⟨hi, hx'⟩ := List.getElem?_eq_some_iff.mp hax
  obtain ⟨hj, hy'⟩ := List.getElem?_eq_some_iff.mp hay
  have hi' : front.length < a.size := hi
  have hj' : r + front.length < a.size := hj
  rw [Array.swapIfInBounds_def, dif_pos hi', dif_pos hj', Array.toList_swap, ← Array.getElem_toList,
    ← Array.getElem_toList, hx', hy', ha, Nat.add_comm r, hset]

/-- The loop of the scan draws the same. -/
theorem scanShuffle_eq (hrs : Leads (fun k => rand k) k l.length rs)
    (hds : draws rs l = some (ds, rest)) (hk : front.length = k) (ha : a.toList = front ++ l) :
    (QueueScan.shuffle rand k l.length rs.length a).toList = front ++ (ds ++ rest) := by
  induction rs generalizing l ds front k a with
  | nil =>
      cases hds
      exact ha
  | cons r rs ih =>
      subst hk
      obtain ⟨⟨y, l'⟩, hy, hds'⟩ := Option.bind_eq_some_iff.mp hds
      obtain ⟨⟨ds', rest'⟩, hds', hd⟩ := Option.map_eq_some_iff.mp hds'
      cases hd
      have hlen := length_of_draw hy
      have hr : rand front.length % l.length = r := by
        have h : (rand front.length : ℤ) % l.length = r := hrs.1
        exact_mod_cast h
      have hleads : Leads (fun k => rand k) (front.length + 1) l'.length rs := by
        have h := hrs.2
        rwa [hlen, Nat.add_sub_cancel] at h
      have ha' := (swapIfInBounds_eq hy ha).trans (List.append_assoc front [y] l').symm
      have hloop := ih hleads hds' List.length_append ha'
      rw [List.length_cons, QueueScan.shuffle, hr, hlen, Nat.add_sub_cancel, hloop,
        List.append_assoc, List.singleton_append, List.cons_append]

theorem scanUniqRands_eq (hlen : rs.length = min quantity maxval)
    (hrs : Leads (fun k => rand k) 0 maxval rs)
    (hds : draws rs (List.range maxval) = some (ds, rest)) :
    QueueScan.uniqRands rand quantity maxval = ds := by
  have hq : (if maxval < quantity then maxval else quantity) = rs.length := by
    split <;> omega
  have hloop : (QueueScan.shuffle rand 0 maxval rs.length (Array.range maxval)).toList =
      ds ++ rest := by
    have h : (QueueScan.shuffle rand 0 (List.range maxval).length rs.length
        (Array.range maxval)).toList = [] ++ (ds ++ rest) :=
      scanShuffle_eq (by rwa [List.length_range]) hds rfl Array.toList_range
    rwa [List.length_range] at h
  have hlength := length_of_draws hds
  simp only [QueueScan.uniqRands, hq]
  rw [hloop, ← hlength, List.take_left]

/-- **The scan has its numbers from `UniqRands`.** -/
theorem uniqRands_scan (rand : ℕ → ℕ) (quantity maxval : ℕ) :
    uniqRands (fun k => rand k) quantity maxval =
      .ok ((QueueScan.uniqRands rand quantity maxval).map (↑)) := by
  obtain ⟨rs, hlen, hin, hrs⟩ := exists_leads (fun k => rand k) 0 (min_le_right quantity maxval)
  obtain ⟨ds, rest, hds⟩ := exists_draws (l := List.range maxval) (by rwa [List.length_range])
  have hmap : draws rs (identity maxval) = some (ds.map (↑), rest.map (↑)) := by
    rw [identity, draws_map, hds, Option.map_some]
  rw [uniqRands_eq (fun k => Int.natCast_nonneg _) hlen hrs hmap, scanUniqRands_eq hlen hrs hds]

/-- Any channel can come at any time of a round. -/
theorem exists_scanUniqRands {i p : ℕ} (hi : i < maxval) (hp : p < min quantity maxval) :
    ∃ rand, (QueueScan.uniqRands rand quantity maxval)[p]? = some i := by
  have hmin : min quantity maxval ≤ (List.range maxval).length := by
    rw [List.length_range]
    exact min_le_right _ _
  obtain ⟨ds, hsub, hlen, hat⟩ := exists_subperm_at (List.mem_range.mpr hi) hmin hp
  obtain ⟨rs, rest, hrs, hds⟩ := exists_draws_of_subperm hsub
  rw [List.length_range] at hrs
  obtain ⟨rand, -, hleads⟩ := exists_rand hrs
  refine ⟨rand, ?_⟩
  rw [scanUniqRands_eq (by rw [← length_of_draws hds, hlen]) hleads hds, hat]

end Scan

/-- **A tick may hand out any channel**, at any time of its round. -/
theorem exists_workTick (opts : QueueScan.Options) {s : QueueScan.State} (hs : s.stage = .waiting)
    {i p : ℕ} (hi : i < s.channels) (hp : p < opts.num s.channels) :
    ∃ rand t todo, QueueScan.step opts s (.workTick rand) = some t ∧
      t.stage = .handing (opts.num s.channels) todo 0 ∧ todo[p]? = some i := by
  have hnum : opts.num s.channels ≤ s.channels := by
    unfold QueueScan.Options.num
    split <;> omega
  obtain ⟨rand, hrand⟩ := exists_scanUniqRands hi (lt_min hp (hp.trans_le hnum))
  refine ⟨rand, s.round (opts.num s.channels) rand, _, ?_, rfl, hrand⟩
  simp only [QueueScan.step, hs]
  rw [if_neg (by omega)]

/-- **Channels are sampled.** -/
theorem channels_sampled (quantity maxval : ℤ) (hquantity : 0 ≤ quantity) (hmaxval : 0 ≤ maxval) :
    (∀ rand : ℕ → ℤ, (∀ k, 0 ≤ rand k) → ∃ l, uniqRands rand quantity maxval = .ok l ∧
      (l.length : ℤ) = min quantity maxval ∧ l.Nodup ∧ ∀ v ∈ l, 0 ≤ v ∧ v < maxval) ∧
    (∀ l : List ℤ, (l.length : ℤ) = min quantity maxval → l.Nodup →
      (∀ v ∈ l, 0 ≤ v ∧ v < maxval) →
        ∃ rand : ℕ → ℤ, (∀ k, 0 ≤ rand k ∧ rand k ≤ maxval) ∧
          uniqRands rand quantity maxval = .ok l) ∧
    ∀ (opts : QueueScan.Options) (s : QueueScan.State), s.stage = .waiting →
      ∀ i < s.channels, ∀ p < opts.num s.channels, ∃ rand t todo,
        QueueScan.step opts s (.workTick rand) = some t ∧
          t.stage = .handing (opts.num s.channels) todo 0 ∧ todo[p]? = some i := by
  lift quantity to ℕ using hquantity
  lift maxval to ℕ using hmaxval
  refine ⟨fun rand hrand => ?_, fun l hlen hl hin => ?_, fun opts s hs i hi p hp => ?_⟩
  · obtain ⟨l, hret, hlen, hl, hin⟩ := uniqRands_sample quantity maxval hrand
    exact ⟨l, hret, by rw [hlen]; omega, hl, hin⟩
  · have hlen' : l.length = min quantity maxval := by omega
    obtain ⟨rand, hle, hret⟩ := exists_uniqRands hlen' hl hin
    exact ⟨fun k => rand k, fun k => ⟨Int.natCast_nonneg _, Int.ofNat_le.mpr (hle k)⟩, hret⟩
  · exact exists_workTick opts hs hi hp

/-- Two of three channels. -/
theorem channels_sampled_two : ∃ rand : ℕ → ℤ, (∀ k, 0 ≤ rand k ∧ rand k ≤ 3) ∧
    uniqRands rand 2 3 = .ok [2, 0] :=
  (channels_sampled 2 3 (by decide) (by decide)).2.1 [2, 0] (by decide) (by decide) (by decide)

end Xmq.UniqRands
