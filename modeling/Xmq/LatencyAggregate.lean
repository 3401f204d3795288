import Mathlib.Algebra.BigOperators.Group.List.Basic
import Mathlib.Algebra.Order.BigOperators.Group.List
import Mathlib.Data.List.Induction
import Mathlib.Data.Rat.Cast.Order
import Mathlib.Order.Bounds.Basic
import Mathlib.Tactic.FieldSimp
import Mathlib.Tactic.Ring
import Xmq.GoMap
import Xmq.KeyedList

/-!
# Latency percentiles

Statistics carry, for each quantile, how long messages took. The readers of several nodes merge
these numbers with `E2eProcessingLatencyAggregate.Add`, which counts the arithmetic here over the
rational numbers.

* A percentile is a map from names to numbers; a name that it lacks reads as zero.
* `Add` takes the least value from where it has just put the greatest: what it keeps is the value
  that came last.
-/

namespace Xmq.Quantile

open KeyedList

/-! ### Percentiles -/

/-- `map[string]float64`. -/
abbrev Percentile := GoMap String ℚ

/-- `p[name]`. -/
def field (p : Percentile) (name : String) : ℚ := (p.lookup name).getD 0

def quantile (p : Percentile) : ℚ := field p "quantile"

@[simp] theorem field_insert (p : Percentile) (name name' : String) (v : ℚ) :
    field (p.insert name v) name' = if name' = name then v else field p name' := by
  by_cases h : name' = name
  · rw [if_pos h, h, field, AList.lookup_insert, Option.getD_some]
  · rw [if_neg h, field, AList.lookup_insert_ne h, field]

@[simp] theorem field_empty (name : String) : field ∅ name = 0 := by
  rw [field, AList.lookup_empty, Option.getD_none]

/-- Percentiles with the same names and numbers. -/
theorem lookup_congr {p p' : Percentile} (hnames : ∀ name, name ∈ p ↔ name ∈ p')
    (hfields : ∀ name, field p name = field p' name) (name : String) :
    p.lookup name = p'.lookup name := by
  by_cases h : name ∈ p
  · obtain ⟨v, hv⟩ := Option.isSome_iff_exists.mp (AList.lookup_isSome.mpr h)
    obtain ⟨v', hv'⟩ := Option.isSome_iff_exists.mp
      (AList.lookup_isSome.mpr ((hnames name).mp h))
    have hfield := hfields name
    rw [field, hv, field, hv', Option.getD_some, Option.getD_some] at hfield
    rw [hv, hv', hfield]
  · rw [AList.lookup_eq_none.mpr h, AList.lookup_eq_none.mpr (mt (hnames name).mpr h)]

structure E2eProcessingLatencyAggregate where
  count : ℤ
  percentiles : List Percentile
  topic : String
  channel : String
  addr : String

/-- `sort.Sort`: the items in another order. What is proved here does not ask which. -/
structure Sorting where
  sort : ∀ {α : Type}, (α → α → Bool) → List α → List α
  perm : ∀ {α : Type} (less : α → α → Bool) (l : List α), (sort less l).Perm l

/-- Items none of which is less than another may stay. -/
def Sorting.id : Sorting := ⟨fun _ l => l, fun _ _ => .rfl⟩

namespace E2eProcessingLatencyAggregate

/-- What the loop of `UnmarshalJSON` does to a percentile. -/
def decodePercentile (count : ℤ) (p : Percentile) : Percentile :=
  let p := p.insert "min" (field p "value")
  let p := p.insert "max" (field p "value")
  let p := p.insert "average" (field p "value")
  p.insert "count" count

/-- `UnmarshalJSON`, from what `json.Unmarshal` has read. -/
def unmarshalJSON (resp : E2eProcessingLatencyAggregate) : E2eProcessingLatencyAggregate :=
  { resp with percentiles := resp.percentiles.map (decodePercentile resp.count) }

/-- The entry that `Add` makes for a quantile it has not seen. -/
def newPercentile (q : ℚ) : Percentile := (∅ : Percentile).insert "quantile" q

/-- What `Add` does to `p[i]`. -/
def mergeValue (value p : Percentile) : Percentile :=
  let p := p.insert "max" (max (field value "max") (field p "max"))
  let p := p.insert "min" (min (field value "max") (field p "max"))
  let p := p.insert "count" (field p "count" + field value "count")
  if field p "count" = 0 then p.insert "average" 0
  else
    let delta := field value "average" - field p "average"
    let r := delta * field value "count" / field p "count"
    p.insert "average" (field p "average" + r)

/-- One round of the loop of `Add`. -/
def addValue (p : List Percentile) (value : Percentile) : List Percentile :=
  upsert quantile (quantile value) (newPercentile (quantile value)) (mergeValue value) p

def less (p p' : Percentile) : Bool := field p' "percentile" < field p "percentile"

/-- `Add` of another aggregate. -/
def add (s : Sorting) (e e2 : E2eProcessingLatencyAggregate) : E2eProcessingLatencyAggregate :=
  { e with
    addr := "*"
    count := e.count + e2.count
    percentiles := s.sort less (e2.percentiles.foldl addValue e.percentiles) }

end E2eProcessingLatencyAggregate

open E2eProcessingLatencyAggregate

/-! ### One value -/

section MergeValue

variable (v p : Percentile)

@[simp] theorem field_newPercentile (q : ℚ) (name : String) :
    field (newPercentile q) name = if name = "quantile" then q else 0 := by
  rw [newPercentile, field_insert, field_empty]

theorem mem_newPercentile (q : ℚ) (name : String) : name ∈ newPercentile q ↔ name = "quantile" := by
  rw [newPercentile, AList.mem_insert]
  exact or_iff_left (AList.notMem_empty name)

@[simp] theorem quantile_mergeValue : quantile (mergeValue v p) = quantile p := by
  simp only [quantile, mergeValue]
  split <;> simp

theorem count_mergeValue :
    field (mergeValue v p) "count" = field p "count" + field v "count" := by
  simp only [mergeValue]
  split <;> simp

theorem max_mergeValue :
    field (mergeValue v p) "max" = max (field v "max") (field p "max") := by
  simp only [mergeValue]
  split <;> simp

/-- What is kept as the least value is the value itself. -/
theorem min_mergeValue : field (mergeValue v p) "min" = field v "max" := by
  simp only [mergeValue]
  split <;> simp

theorem average_mergeValue : field (mergeValue v p) "average" =
    if field p "count" + field v "count" = 0 then 0
    else field p "average" + (field v "average" - field p "average") * field v "count" /
      (field p "count" + field v "count") := by
  simp only [mergeValue]
  by_cases h : field p "count" + field v "count" = 0 <;> simp [h]

/-- Without a count the mean is zero. -/
theorem idle_mergeValue (h : field (mergeValue v p) "count" = 0) :
    field (mergeValue v p) "average" = 0 := by
  rw [average_mergeValue, if_pos ((count_mergeValue v p).symm.trans h)]

theorem mem_mergeValue (name : String) : name ∈ mergeValue v p ↔
    name = "average" ∨ name = "count" ∨ name = "min" ∨ name = "max" ∨ name ∈ p := by
  simp only [mergeValue]
  split <;> simp [AList.mem_insert]

end MergeValue

/-- A value as `UnmarshalJSON` leaves it. -/
structure Decoded (v : Percentile) : Prop where
  average_eq : field v "average" = field v "max"
  max_pos : 0 < field v "max"
  count_nonneg : 0 ≤ field v "count"

/-- The entry for a quantile after the values `vs`. -/
structure Merges (q : ℚ) (vs : List Percentile) (p : Percentile) : Prop where
  quantile : quantile p = q
  names : ∀ name, name ∈ p ↔
    name = "average" ∨ name = "count" ∨ name = "min" ∨ name = "max" ∨ name = "quantile"
  count : field p "count" = (vs.map (field · "count")).sum
  max : IsGreatest {x | ∃ v ∈ vs, field v "max" = x} (field p "max")
  min : (vs.getLast?).map (field · "max") = some (field p "min")
  average : field p "average" * field p "count" =
    (vs.map fun v => field v "average" * field v "count").sum
  idle : field p "count" = 0 → field p "average" = 0

/-- The running mean. -/
theorem average_step {a c x d : ℚ} (h : c + d ≠ 0) :
    (a + (x - a) * d / (c + d)) * (c + d) = a * c + x * d := by
  field_simp
  ring

theorem Merges.first {v : Percentile} (hv : Decoded v) :
    Merges (Quantile.quantile v) [v] (mergeValue v (newPercentile (Quantile.quantile v))) where
  quantile := by
    rw [quantile_mergeValue, Quantile.quantile, field_newPercentile, if_pos rfl]
  names name := by rw [mem_mergeValue, mem_newPercentile]
  count := by simp [count_mergeValue]
  max := by
    rw [max_mergeValue, field_newPercentile, if_neg (by decide), max_eq_left hv.max_pos.le]
    exact ⟨⟨v, List.mem_singleton_self v, rfl⟩, by
      rintro x ⟨w, hw, rfl⟩
      rw [List.mem_singleton.mp hw]⟩
  min := by rw [min_mergeValue]; rfl
  average := by
    rw [average_mergeValue, count_mergeValue, List.map_singleton, List.sum_singleton]
    by_cases h : field (newPercentile (Quantile.quantile v)) "count" + field v "count" = 0
    · rw [if_pos h, h, zero_mul]
      rw [field_newPercentile, if_neg (by decide), zero_add] at h
      rw [h, mul_zero]
    · rw [if_neg h, average_step h]
      simp
  idle := idle_mergeValue v _

theorem Merges.step {q : ℚ} {vs : List Percentile} {p v : Percentile} (h : Merges q vs p)
    (hvs : ∀ v ∈ vs, Decoded v) (hv : Decoded v) : Merges q (vs ++ [v]) (mergeValue v p) where
  quantile := by rw [quantile_mergeValue, h.quantile]
  names name := by
    rw [mem_mergeValue, h.names]
    tauto
  count := by
    rw [count_mergeValue, h.count]
    simp
  max := by
    rw [max_mergeValue]
    refine ⟨?_, ?_⟩
    · rcases le_total (field v "max") (field p "max") with hle | hle
      · rw [max_eq_right hle]
        obtain ⟨w, hw, hmax⟩ := h.max.1
        exact ⟨w, List.mem_append_left _ hw, hmax⟩
      · rw [max_eq_left hle]
        exact ⟨v, List.mem_concat_self, rfl⟩
    · rintro x ⟨w, hw, rfl⟩
      rcases List.mem_append.mp hw with hw | hw
      · exact le_max_of_le_right (h.max.2 ⟨w, hw, rfl⟩)
      · rw [List.mem_singleton.mp hw]
        exact le_max_left _ _
  min := by
    rw [min_mergeValue, List.getLast?_concat]
    rfl
  average := by
    rw [average_mergeValue, count_mergeValue, List.map_append, List.sum_append, ← h.average]
    rw [List.map_singleton, List.sum_singleton]
    by_cases hzero : field p "count" + field v "count" = 0
    · have hcount : 0 ≤ field p "count" := by
        rw [h.count]
        refine List.sum_nonneg fun c hc => ?_
        obtain ⟨w, hw, rfl⟩ := List.mem_map.mp hc
        exact (hvs w hw).count_nonneg
      obtain ⟨hp, hv⟩ := (add_eq_zero_iff_of_nonneg hcount hv.count_nonneg).mp hzero
      rw [if_pos hzero, hzero, hp, hv, mul_zero, mul_zero, mul_zero, add_zero]
    · rw [if_neg hzero, average_step hzero]
  idle := idle_mergeValue v p

/-! ### The loops -/

/-- What another value makes of the entry for its quantile. -/
def absorb (q : ℚ) (entry : Option Percentile) (v : Percentile) : Option Percentile :=
  some (mergeValue v (entry.getD (newPercentile q)))

/-- The values for a quantile. -/
def ofQuantile (q : ℚ) (vs : List Percentile) : List Percentile :=
  vs.filter fun v => quantile v = q

theorem ofQuantile_cons (q : ℚ) (v : Percentile) (vs : List Percentile) :
    ofQuantile q (v :: vs) = if quantile v = q then v :: ofQuantile q vs else ofQuantile q vs := by
  by_cases hq : quantile v = q <;> simp [ofQuantile, hq]

theorem item_addValues (q : ℚ) (vs p : List Percentile) :
    item quantile q (vs.foldl addValue p) =
      (ofQuantile q vs).foldl (absorb q) (item quantile q p) := by
  induction vs generalizing p with
  | nil => rfl
  | cons v vs ih =>
      rw [List.foldl_cons, ih, addValue,
        item_upsert (by simp [quantile]) (quantile_mergeValue v), ofQuantile_cons]
      by_cases hq : quantile v = q
      · rw [if_pos hq.symm, if_pos hq, List.foldl_cons, absorb, hq]
      · rw [if_neg (Ne.symm hq), if_neg hq]

theorem nodup_addValues (vs : List Percentile) {p : List Percentile}
    (h : (p.map quantile).Nodup) : ((vs.foldl addValue p).map quantile).Nodup := by
  induction vs generalizing p with
  | nil => exact h
  | cons v vs ih =>
      exact ih (nodup_upsert (by simp [quantile]) (quantile_mergeValue v) h)

/-- Aggregates that are added one after another to one with an entry for each quantile. -/
theorem add_foldl (s : Sorting) (es : List E2eProcessingLatencyAggregate)
    {e : E2eProcessingLatencyAggregate} (h : (e.percentiles.map quantile).Nodup) :
    (((es.foldl (add s) e).percentiles).map quantile).Nodup ∧
      (∀ q, item quantile q (es.foldl (add s) e).percentiles =
        (es.flatMap fun e2 => ofQuantile q e2.percentiles).foldl (absorb q)
          (item quantile q e.percentiles)) ∧
      (es.foldl (add s) e).count = e.count + (es.map fun e2 => e2.count).sum := by
  induction es generalizing e with
  | nil => exact ⟨h, fun q => rfl, (add_zero _).symm⟩
  | cons e2 es ih =>
      have hperm : (add s e e2).percentiles.Perm (e2.percentiles.foldl addValue e.percentiles) :=
        s.perm _ _
      have hnodup : ((add s e e2).percentiles.map quantile).Nodup :=
        (hperm.map quantile).nodup_iff.mpr (nodup_addValues _ h)
      obtain ⟨hkeys, hitem, hcount⟩ := ih hnodup
      refine ⟨hkeys, fun q => ?_, ?_⟩
      · rw [List.foldl_cons, hitem, item_perm hnodup hperm, item_addValues, List.flatMap_cons,
          List.foldl_append]
      · rw [List.foldl_cons, hcount, List.map_cons, List.sum_cons, ← add_assoc]
        rfl

/-- The entry for a quantile merges the values for it. -/
theorem merges_foldl {q : ℚ} {vs : List Percentile} (hvs : ∀ v ∈ vs, Decoded v)
    (hq : ∀ v ∈ vs, quantile v = q) (hne : vs ≠ []) :
    ∃ p, vs.foldl (absorb q) none = some p ∧ Merges q vs p := by
  induction vs using List.reverseRecOn with
  | nil => exact absurd rfl hne
  | append_singleton vs v ih =>
      have hv : Decoded v := hvs v List.mem_concat_self
      rw [List.foldl_concat]
      by_cases hnil : vs = []
      · subst hnil
        obtain rfl : quantile v = q := hq v List.mem_concat_self
        exact ⟨_, rfl, .first hv⟩
      · have hold : ∀ w ∈ vs, Decoded w := fun w hw => hvs w (List.mem_append_left _ hw)
        obtain ⟨p, hp, hmerges⟩ := ih hold (fun w hw => hq w (List.mem_append_left _ hw)) hnil
        rw [hp]
        exact ⟨_, rfl, hmerges.step hold hv⟩

/-! ### Responses -/

/-- An aggregate as a node sends it: each quantile once, no negative count, and positive values. -/
structure LatencyResponse extends E2eProcessingLatencyAggregate where
  distinct : (percentiles.map quantile).Nodup
  count_nonneg : 0 ≤ count
  value_pos : ∀ p ∈ percentiles, 0 < field p "value"

/-- `&E2eProcessingLatencyAggregate{…}`, to which the responses are added. -/
def empty (topic channel addr : String) : E2eProcessingLatencyAggregate :=
  ⟨0, [], topic, channel, addr⟩

/-- The decoded responses, added in the order of the list. -/
def merged (s : Sorting) (e : E2eProcessingLatencyAggregate) (rs : List LatencyResponse) :
    E2eProcessingLatencyAggregate :=
  (rs.map fun r => unmarshalJSON r.toE2eProcessingLatencyAggregate).foldl (add s) e

/-- The values that the responses give for a quantile, each with its count. -/
def given (q : ℚ) (rs : List LatencyResponse) : List (ℚ × ℚ) :=
  rs.flatMap fun r => (ofQuantile q r.percentiles).map fun p => (field p "value", (r.count : ℚ))

/-- One entry for each quantile, with the sum of the counts, the greatest value and the mean. -/
structure Sums (rs : List LatencyResponse) (e : E2eProcessingLatencyAggregate) : Prop where
  once : (e.percentiles.map quantile).Nodup
  occurs : ∀ q, q ∈ e.percentiles.map quantile ↔ ∃ r ∈ rs, q ∈ r.percentiles.map quantile
  count : ∀ p ∈ e.percentiles,
    field p "count" = ((given (quantile p) rs).map Prod.snd).sum
  max : ∀ p ∈ e.percentiles,
    IsGreatest {x | ∃ g ∈ given (quantile p) rs, g.1 = x} (field p "max")
  average : ∀ p ∈ e.percentiles, field p "average" =
    if field p "count" = 0 then 0
    else ((given (quantile p) rs).map fun g => g.1 * g.2).sum / field p "count"
  total : e.count = (rs.map fun r => r.count).sum

/-- And the least value. -/
structure ClosedForm (rs : List LatencyResponse) (e : E2eProcessingLatencyAggregate) : Prop
    extends Sums rs e where
  min : ∀ p ∈ e.percentiles,
    IsLeast {x | ∃ g ∈ given (quantile p) rs, g.1 = x} (field p "min")

/-- The entries, without their order. -/
def entries (e : E2eProcessingLatencyAggregate) : Set (String → Option ℚ) :=
  {f | ∃ p ∈ e.percentiles, f = fun name => p.lookup name}

/-! ### What the responses give -/

section Decoding

variable (count : ℤ) (p : Percentile)

@[simp] theorem quantile_decodePercentile : quantile (decodePercentile count p) = quantile p := by
  simp [quantile, decodePercentile]

theorem max_decodePercentile :
    field (decodePercentile count p) "max" = field p "value" := by
  simp [decodePercentile]

theorem average_decodePercentile :
    field (decodePercentile count p) "average" = field p "value" := by
  simp [decodePercentile]

theorem count_decodePercentile : field (decodePercentile count p) "count" = count := by
  simp [decodePercentile]

end Decoding

/-- The decoded values for a quantile. -/
def decoded (q : ℚ) (rs : List LatencyResponse) : List Percentile :=
  rs.flatMap fun r => (ofQuantile q r.percentiles).map (decodePercentile r.count)

theorem mem_decoded {q : ℚ} {rs : List LatencyResponse} {v : Percentile} :
    v ∈ decoded q rs ↔ ∃ r ∈ rs, ∃ p ∈ r.percentiles, quantile p = q ∧
      decodePercentile r.count p = v := by
  simp only [decoded, ofQuantile, List.mem_flatMap, List.mem_map, List.mem_filter,
    decide_eq_true_eq, and_assoc]

theorem decoded_of_mem {q : ℚ} {rs : List LatencyResponse} {v : Percentile}
    (h : v ∈ decoded q rs) : Decoded v ∧ quantile v = q := by
  obtain ⟨r, -, p, hp, rfl, rfl⟩ := mem_decoded.mp h
  refine ⟨⟨?_, ?_, ?_⟩, quantile_decodePercentile _ p⟩
  · rw [average_decodePercentile, max_decodePercentile]
  · rw [max_decodePercentile]
    exact r.value_pos p hp
  · rw [count_decodePercentile]
    exact_mod_cast r.count_nonneg

theorem given_eq (q : ℚ) (rs : List LatencyResponse) :
    given q rs = (decoded q rs).map fun v => (field v "max", field v "count") := by
  simp only [given, decoded, List.map_flatMap, List.map_map]
  refine List.flatMap_congr fun r _ => List.map_congr_left fun p _ => ?_
  simp only [Function.comp_apply, max_decodePercentile, count_decodePercentile]

theorem decoded_eq (q : ℚ) (rs : List LatencyResponse) :
    ((rs.map fun r => unmarshalJSON r.toE2eProcessingLatencyAggregate).flatMap fun e2 =>
      ofQuantile q e2.percentiles) = decoded q rs := by
  rw [List.flatMap_map]
  refine List.flatMap_congr fun r _ => ?_
  simp only [unmarshalJSON, ofQuantile, List.filter_map, Function.comp_def,
    quantile_decodePercentile]

/-! ### The merged aggregate -/

/-- What an entry of the merged aggregate holds. -/
structure Entry (rs : List LatencyResponse) (p : Percentile) : Prop where
  names : ∀ name, name ∈ p ↔
    name = "average" ∨ name = "count" ∨ name = "min" ∨ name = "max" ∨ name = "quantile"
  count : field p "count" = ((given (quantile p) rs).map Prod.snd).sum
  max : IsGreatest {x | ∃ g ∈ given (quantile p) rs, g.1 = x} (field p "max")
  last : (given (quantile p) rs).getLast?.map Prod.fst = some (field p "min")
  average : field p "average" = if field p "count" = 0 then 0
    else ((given (quantile p) rs).map fun g => g.1 * g.2).sum / field p "count"

theorem entry_of_merges {rs : List LatencyResponse} {p : Percentile}
    (h : Merges (quantile p) (decoded (quantile p) rs) p) : Entry rs p where
  names := h.names
  count := by
    rw [h.count, given_eq, List.map_map]
    rfl
  max := by
    simpa only [given_eq, List.mem_map, exists_exists_and_eq_and] using h.max
  last := by
    rw [given_eq, List.getLast?_map, Option.map_map]
    exact h.min
  average := by
    by_cases hzero : field p "count" = 0
    · rw [if_pos hzero, h.idle hzero]
    · have hsum : ((given (quantile p) rs).map fun g => g.1 * g.2).sum =
          ((decoded (quantile p) rs).map fun v => field v "average" * field v "count").sum := by
        rw [given_eq, List.map_map]
        refine congrArg List.sum (List.map_congr_left fun v hv => ?_)
        rw [(decoded_of_mem hv).1.average_eq]
        rfl
      rw [if_neg hzero, hsum, ← h.average, mul_div_assoc, div_self hzero, mul_one]

section Merged

variable (s : Sorting) (topic channel addr : String) (rs : List LatencyResponse)

theorem merged_spec :
    (((merged s (empty topic channel addr) rs).percentiles).map quantile).Nodup ∧
      (∀ q, item quantile q (merged s (empty topic channel addr) rs).percentiles =
        (decoded q rs).foldl (absorb q) none) ∧
      (merged s (empty topic channel addr) rs).count = (rs.map fun r => r.count).sum := by
  obtain ⟨hnodup, hitem, hcount⟩ := add_foldl s
    (rs.map fun r => unmarshalJSON r.toE2eProcessingLatencyAggregate)
    (e := empty topic channel addr) List.nodup_nil
  refine ⟨hnodup, fun q => ?_, ?_⟩
  · rw [← decoded_eq]
    exact hitem q
  · rw [merged, hcount, List.map_map]
    exact zero_add _

theorem merged_occurs (q : ℚ) :
    q ∈ (merged s (empty topic channel addr) rs).percentiles.map quantile ↔
      ∃ r ∈ rs, q ∈ r.percentiles.map quantile := by
  have hitem := (merged_spec s topic channel addr rs).2.1 q
  have hnil : decoded q rs = [] ↔ ¬ ∃ r ∈ rs, q ∈ r.percentiles.map quantile := by
    rw [List.eq_nil_iff_forall_not_mem]
    constructor
    · rintro h ⟨r, hr, hq⟩
      obtain ⟨p, hp, hpq⟩ := List.mem_map.mp hq
      exact h _ (mem_decoded.mpr ⟨r, hr, p, hp, hpq, rfl⟩)
    · intro h v hv
      obtain ⟨r, hr, p, hp, hq, -⟩ := mem_decoded.mp hv
      exact h ⟨r, hr, List.mem_map.mpr ⟨p, hp, hq⟩⟩
  rw [← not_iff_not, ← hnil, ← item_eq_none, hitem]
  constructor
  · intro hnone
    by_contra hne
    obtain ⟨p, hp, -⟩ := merges_foldl (fun v hv => (decoded_of_mem hv).1)
      (fun v hv => (decoded_of_mem hv).2) hne
    rw [hnone] at hp
    cases hp
  · intro hempty
    rw [hempty]
    rfl

theorem merged_entry {p : Percentile}
    (hp : p ∈ (merged s (empty topic channel addr) rs).percentiles) : Entry rs p := by
  obtain ⟨hnodup, hitem, -⟩ := merged_spec s topic channel addr rs
  have hself := (item_eq_some hnodup).mpr ⟨hp, rfl⟩
  rw [hitem] at hself
  by_cases hnil : decoded (quantile p) rs = []
  · rw [hnil] at hself
    cases hself
  · obtain ⟨p', hp', hmerges⟩ := merges_foldl (fun v hv => (decoded_of_mem hv).1)
      (fun v hv => (decoded_of_mem hv).2) hnil
    rw [hself] at hp'
    cases hp'
    exact entry_of_merges hmerges

theorem merged_sums : Sums rs (merged s (empty topic channel addr) rs) where
  once := (merged_spec s topic channel addr rs).1
  occurs := merged_occurs s topic channel addr rs
  count _ hp := (merged_entry s topic channel addr rs hp).count
  max _ hp := (merged_entry s topic channel addr rs hp).max
  average _ hp := (merged_entry s topic channel addr rs hp).average
  total := (merged_spec s topic channel addr rs).2.2

theorem exists_entry {q : ℚ} {g : ℚ × ℚ} (hg : g ∈ given q rs) :
    ∃ p ∈ (merged s (empty topic channel addr) rs).percentiles, quantile p = q := by
  rw [given_eq] at hg
  obtain ⟨v, hv, -⟩ := List.mem_map.mp hg
  obtain ⟨r, hr, p, hp, hq, -⟩ := mem_decoded.mp hv
  exact List.mem_map.mp ((merged_occurs s topic channel addr rs q).mpr
    ⟨r, hr, List.mem_map.mpr ⟨p, hp, hq⟩⟩)

end Merged

/-- For each quantile, the value that comes last is the least. -/
def LastIsLeast (rs : List LatencyResponse) : Prop :=
  ∀ q g, (given q rs).getLast? = some g → ∀ g' ∈ given q rs, g.1 ≤ g'.1

/-- For each quantile, all values are equal. -/
def AllEqual (rs : List LatencyResponse) : Prop :=
  ∀ q, ∀ g ∈ given q rs, ∀ g' ∈ given q rs, g.1 = g'.1

/-- Whatever the order of the responses, the entries are the same. -/
def OrderIndependent (s : Sorting) (e : E2eProcessingLatencyAggregate)
    (rs : List LatencyResponse) : Prop :=
  ∀ rs' : List LatencyResponse, rs'.Perm rs → entries (merged s e rs') = entries (merged s e rs)

theorem given_perm {rs rs' : List LatencyResponse} (h : rs'.Perm rs) (q : ℚ) :
    (given q rs').Perm (given q rs) :=
  h.flatMap_right _

/-- Two entries for one quantile, from the same responses, differ at most in the least value. -/
theorem Entry.lookup_eq {rs rs' : List LatencyResponse} {p p' : Percentile} (h : Entry rs p)
    (h' : Entry rs' p') (hq : quantile p = quantile p') (hperm : rs'.Perm rs)
    (hmin : field p "min" = field p' "min") (name : String) : p.lookup name = p'.lookup name := by
  have hgiven : (given (quantile p') rs').Perm (given (quantile p) rs) := by
    rw [hq]
    exact given_perm hperm _
  have hcount : field p "count" = field p' "count" := by
    rw [h.count, h'.count]
    exact (hgiven.map _).sum_eq.symm
  have hmax : field p "max" = field p' "max" := by
    refine h.max.unique ?_
    simp only [← hgiven.mem_iff]
    exact h'.max
  have haverage : field p "average" = field p' "average" := by
    rw [h.average, h'.average, hcount, (hgiven.map fun g => g.1 * g.2).sum_eq]
  refine lookup_congr (fun name => (h.names name).trans (h'.names name).symm) (fun name => ?_) name
  by_cases hname : name ∈ p
  · rcases (h.names name).mp hname with rfl | rfl | rfl | rfl | rfl
    · exact haverage
    · exact hcount
    · exact hmin
    · exact hmax
    · exact hq
  · have hname' : name ∉ p' := fun hmem => hname ((h.names name).mpr ((h'.names name).mp hmem))
    rw [field, field, AList.lookup_eq_none.mpr hname, AList.lookup_eq_none.mpr hname']

section Order

variable (s : Sorting) (topic channel addr : String) (rs : List LatencyResponse)

theorem closedForm_iff :
    ClosedForm rs (merged s (empty topic channel addr) rs) ↔ LastIsLeast rs := by
  constructor
  · intro h q g hlast g' hg'
    obtain ⟨p, hp, rfl⟩ := exists_entry s topic channel addr rs hg'
    have hmin := (merged_entry s topic channel addr rs hp).last
    rw [hlast] at hmin
    rw [show g.1 = field p "min" from Option.some.inj hmin]
    exact (h.min p hp).2 ⟨g', hg', rfl⟩
  · intro h
    refine ⟨merged_sums s topic channel addr rs, fun p hp => ?_⟩
    obtain ⟨g, hlast, hmin⟩ := Option.map_eq_some_iff.mp
      (merged_entry s topic channel addr rs hp).last
    rw [← hmin]
    refine ⟨⟨g, List.mem_of_getLast? hlast, rfl⟩, ?_⟩
    rintro x ⟨g', hg', rfl⟩
    exact h _ g hlast g' hg'

theorem entries_subset (h : AllEqual rs) {rs' : List LatencyResponse} (hperm : rs'.Perm rs) :
    entries (merged s (empty topic channel addr) rs') ⊆
      entries (merged s (empty topic channel addr) rs) := by
  rintro f ⟨p, hp, rfl⟩
  have hentry := merged_entry s topic channel addr rs' hp
  obtain ⟨g, hlast, hmin⟩ := Option.map_eq_some_iff.mp hentry.last
  have hg : g ∈ given (quantile p) rs :=
    (given_perm hperm _).mem_iff.mp (List.mem_of_getLast? hlast)
  obtain ⟨p', hp', hq⟩ := exists_entry s topic channel addr rs hg
  have hentry' := merged_entry s topic channel addr rs hp'
  obtain ⟨g', hlast', hmin'⟩ := Option.map_eq_some_iff.mp hentry'.last
  rw [hq] at hlast'
  have hmins : field p "min" = field p' "min" := by
    rw [← hmin, ← hmin']
    exact h _ g hg g' (List.mem_of_getLast? hlast')
  exact ⟨p', hp', funext fun name => hentry.lookup_eq hentry' hq.symm hperm.symm hmins name⟩

/-- Some order has a given value last. -/
theorem exists_last {q : ℚ} {g : ℚ × ℚ} (hg : g ∈ given q rs) :
    ∃ rs' : List LatencyResponse, rs'.Perm rs ∧ (given q rs').getLast? = some g := by
  obtain ⟨r, hr, hgr⟩ := List.mem_flatMap.mp hg
  obtain ⟨rs₁, rs₂, rfl⟩ := List.append_of_mem hr
  refine ⟨rs₁ ++ rs₂ ++ [r], ?_, ?_⟩
  · exact (List.perm_append_singleton r (rs₁ ++ rs₂)).trans List.perm_middle.symm
  · -- The values of `r` for the quantile are one, so that the last of them is `g`.
    have hone : ∀ g', g' ∈ (ofQuantile q r.percentiles).map
        (fun p => (field p "value", (r.count : ℚ))) → g' = g := by
      intro g' hg'
      obtain ⟨p, hp, rfl⟩ := List.mem_map.mp hgr
      obtain ⟨p', hp', rfl⟩ := List.mem_map.mp hg'
      simp only [ofQuantile, List.mem_filter, decide_eq_true_eq] at hp hp'
      rw [List.inj_on_of_nodup_map r.distinct hp'.1 hp.1 (hp'.2.trans hp.2.symm)]
    rw [given, List.flatMap_append, List.flatMap_singleton,
      List.getLast?_append_of_ne_nil _ (List.ne_nil_of_mem hgr)]
    obtain ⟨g', hg'⟩ := Option.ne_none_iff_exists'.mp
      (mt List.getLast?_eq_none_iff.mp (List.ne_nil_of_mem hgr))
    rw [hg', hone g' (List.mem_of_getLast? hg')]

/-- When the order makes no difference, every value is what the entry keeps as the least. -/
theorem min_of_independent (h : OrderIndependent s (empty topic channel addr) rs) {q : ℚ}
    {g : ℚ × ℚ} (hg : g ∈ given q rs) {p : Percentile}
    (hp : p ∈ (merged s (empty topic channel addr) rs).percentiles) (hq : quantile p = q) :
    field p "min" = g.1 := by
  obtain ⟨rs', hperm, hlast⟩ := exists_last rs hg
  obtain ⟨p', hp', hq'⟩ := exists_entry s topic channel addr rs' (List.mem_of_getLast? hlast)
  have hmin := (merged_entry s topic channel addr rs' hp').last
  rw [hq', hlast] at hmin
  have hmem : (fun name => p'.lookup name) ∈ entries (merged s (empty topic channel addr) rs) := by
    rw [← h rs' hperm]
    exact ⟨p', hp', rfl⟩
  obtain ⟨p₀, hp₀, hlookup⟩ := hmem
  have hfields : ∀ name, field p' name = field p₀ name := fun name => by
    rw [field, field, congrFun hlookup name]
  have hsame : p = p₀ := List.inj_on_of_nodup_map (merged_spec s topic channel addr rs).1 hp hp₀
    (hq.trans (hq'.symm.trans (hfields "quantile")))
  rw [hsame, ← hfields]
  exact (Option.some.inj hmin).symm

theorem orderIndependent_iff :
    OrderIndependent s (empty topic channel addr) rs ↔ AllEqual rs := by
  constructor
  · intro h q g hg g' hg'
    obtain ⟨p, hp, hq⟩ := exists_entry s topic channel addr rs hg
    rw [← min_of_independent s topic channel addr rs h hg hp hq,
      min_of_independent s topic channel addr rs h hg' hp hq]
  · intro h rs' hperm
    have h' : AllEqual rs' := fun q g hg g' hg' =>
      h q g ((given_perm hperm q).mem_iff.mp hg) g' ((given_perm hperm q).mem_iff.mp hg')
    exact (entries_subset s topic channel addr rs h hperm).antisymm
      (entries_subset s topic channel addr rs' h' hperm.symm)

end Order

/-- **Merged percentiles.** The counts, the greatest values and the means are right in any order.
The least values are right just when the value that comes last is the least, and the entries do not
depend on the order just when all values for a quantile are equal. -/
theorem merged_percentiles (s : Sorting) (topic channel addr : String)
    (rs : List LatencyResponse) :
    Sums rs (merged s (empty topic channel addr) rs) ∧
    (ClosedForm rs (merged s (empty topic channel addr) rs) ↔ LastIsLeast rs) ∧
    (OrderIndependent s (empty topic channel addr) rs ↔ AllEqual rs) :=
  ⟨merged_sums s topic channel addr rs, closedForm_iff s topic channel addr rs,
    orderIndependent_iff s topic channel addr rs⟩

/-- A response with one message, whose median took `v`. -/
def median (v : ℚ) (h : 0 < v) : LatencyResponse where
  count := 1
  percentiles := [((∅ : Percentile).insert "quantile" (1 / 2)).insert "value" v]
  topic := ""
  channel := ""
  addr := ""
  distinct := List.nodup_singleton _
  count_nonneg := by decide
  value_pos p hp := by
    rw [List.mem_singleton.mp hp, field_insert, if_pos rfl]
    exact h

theorem given_median (v w : ℚ) (hv : 0 < v) (hw : 0 < w) :
    given (1 / 2) [median v hv, median w hw] = [(v, 1), (w, 1)] := by
  have hone : ∀ (x : ℚ) (hx : 0 < x), (ofQuantile (1 / 2) (median x hx).percentiles).map
      (fun p => (field p "value", ((median x hx).count : ℚ))) = [(x, 1)] := by
    intro x hx
    have hq : quantile (((∅ : Percentile).insert "quantile" (1 / 2)).insert "value" x) = 1 / 2 := by
      rw [quantile, field_insert, if_neg (by decide), field_insert, if_pos rfl]
    have hcount : ((median x hx).count : ℚ) = 1 := Int.cast_one
    rw [hcount, median, ofQuantile_cons, if_pos hq, List.map_cons, field_insert, if_pos rfl]
    rfl
  rw [given, List.flatMap_cons, List.flatMap_singleton, hone, hone]
  rfl

/-- With the medians 1 and 2, the least is kept as 2, and in the other order as 1. -/
theorem not_merged_percentiles : ¬ ∀ (s : Sorting) (rs : List LatencyResponse),
    ClosedForm rs (merged s (empty "" "" "") rs) ∧ OrderIndependent s (empty "" "" "") rs := by
  intro h
  obtain ⟨hclosed, -⟩ := h .id [median 1 one_pos, median 2 two_pos]
  rw [closedForm_iff] at hclosed
  have hle := hclosed (1 / 2) (2, 1) (by rw [given_median]; rfl) (1, 1)
    (by rw [given_median]; exact List.mem_cons_self)
  norm_num at hle

end Xmq.Quantile
