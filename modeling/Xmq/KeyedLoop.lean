import Mathlib.Logic.Function.Basic
import Mathlib.Data.List.Nodup

/-!
# Loops over keys

A loop whose rounds each rewrite one entry of a function, from the value that the entry has, and may end
the loop. Where the rounds have different keys, every entry is rewritten from its first value, so that
the loop can be read entry by entry.
-/

namespace Xmq.KeyedLoop

variable {ι K V : Type*} [DecidableEq K] {key : ι → K} {f : ι → V → Option V}

/-- One round for each item, in order. -/
def loop (key : ι → K) (f : ι → V → Option V) : List ι → (K → V) → Option (K → V)
  | [], s => some s
  | a :: l, s => (f a (s (key a))).bind fun v => loop key f l (Function.update s (key a) v)

/-- The rounds that follow read what they would have read before this one. -/
theorem update_key {a : ι} {l : List ι} (ha : key a ∉ l.map key) (s : K → V) (v : V) :
    ∀ b ∈ l, Function.update s (key a) v (key b) = s (key b) := by
  intro b hb
  have hne : key b ≠ key a := fun heq => ha (heq ▸ List.mem_map_of_mem hb)
  exact Function.update_of_ne hne v s

/-- **Entry by entry.** -/
theorem loop_eq_some {l : List ι} (hnodup : (l.map key).Nodup) {s s' : K → V} :
    loop key f l s = some s' ↔
      (∀ a ∈ l, f a (s (key a)) = some (s' (key a))) ∧ ∀ k, k ∉ l.map key → s' k = s k := by
  induction l generalizing s with
  | nil =>
      constructor
      · intro h
        cases h
        exact ⟨nofun, fun _ _ => rfl⟩
      · rintro ⟨-, h⟩
        exact congrArg some (funext fun k => (h k List.not_mem_nil).symm)
  | cons a l ih =>
      obtain ⟨ha, hl⟩ := List.nodup_cons.mp hnodup
      rw [loop, Option.bind_eq_some_iff]
      constructor
      · rintro ⟨v, hv, hloop⟩
        obtain ⟨hin, hout⟩ := (ih hl).mp hloop
        have hself : s' (key a) = v := by rw [hout _ ha, Function.update_self]
        refine ⟨fun b hb => ?_, fun k hk => ?_⟩
        · rcases List.mem_cons.mp hb with rfl | hb
          · rw [hv, hself]
          · rw [← hin b hb, update_key ha s v b hb]
        · obtain ⟨hka, hkl⟩ := not_or.mp (mt List.mem_cons.mpr hk)
          rw [hout k hkl, Function.update_of_ne hka]
      · rintro ⟨hin, hout⟩
        refine ⟨s' (key a), hin a List.mem_cons_self, (ih hl).mpr ⟨fun b hb => ?_, fun k hk => ?_⟩⟩
        · rw [update_key ha s _ b hb]
          exact hin b (List.mem_cons_of_mem _ hb)
        · by_cases hka : k = key a
          · rw [hka, Function.update_self]
          · rw [Function.update_of_ne hka]
            exact hout k (mt List.mem_cons.mp (not_or.mpr ⟨hka, hk⟩))

/-- The loop is not ended when no round ends it. -/
theorem loop_isSome {l : List ι} (hnodup : (l.map key).Nodup) {s : K → V} :
    (loop key f l s).isSome ↔ ∀ a ∈ l, (f a (s (key a))).isSome := by
  induction l generalizing s with
  | nil => exact iff_of_true rfl nofun
  | cons a l ih =>
      obtain ⟨ha, hl⟩ := List.nodup_cons.mp hnodup
      rw [loop, List.forall_mem_cons]
      cases hv : f a (s (key a)) with
      | none => exact iff_of_false nofun fun h => nomatch h.1
      | some v =>
          rw [Option.bind_some, ih hl]
          constructor
          · intro h
            refine ⟨rfl, fun b hb => ?_⟩
            rw [← update_key ha s v b hb]
            exact h b hb
          · rintro ⟨-, h⟩ b hb
            rw [update_key ha s v b hb]
            exact h b hb

/-- The loop is not ended and leaves good values when each of its rounds does. -/
theorem loop_forall {l : List ι} (hnodup : (l.map key).Nodup) {s : K → V} {P : ι → V → Prop} :
    (∃ s', loop key f l s = some s' ∧ ∀ a ∈ l, P a (s' (key a))) ↔
      ∀ a ∈ l, ∃ v, f a (s (key a)) = some v ∧ P a v := by
  constructor
  · rintro ⟨s', hs, hP⟩ a ha
    exact ⟨s' (key a), ((loop_eq_some hnodup).mp hs).1 a ha, hP a ha⟩
  · intro h
    have hsome : (loop key f l s).isSome := (loop_isSome hnodup).mpr fun a ha => by
      obtain ⟨v, hv, -⟩ := h a ha
      rw [hv]
      rfl
    obtain ⟨s', hs⟩ := Option.isSome_iff_exists.mp hsome
    refine ⟨s', hs, fun a ha => ?_⟩
    obtain ⟨v, hv, hP⟩ := h a ha
    rw [((loop_eq_some hnodup).mp hs).1 a ha] at hv
    cases hv
    exact hP

end Xmq.KeyedLoop
