import Mathlib.Data.List.Induction
import Xmq.RegistrationDB
import Xmq.Runs

/-!
# The history of the registration database

What the database holds after any sequence of its four operations, read off the sequence itself: a
registration is there if something added it behind its last removal, and an ID stands under it if
the last operation about the two added a producer with that ID. The queries return just that.

The records lie in a heap that the operations leave alone; whoever adds a producer names its record.
A pattern matches as `IsMatch` says: the key and the subkey may be wildcards, and the category may
not.
-/

namespace Xmq.Lookupd

open GoMap (RangeOrder)

/-! ### Operations -/

inductive DBOp where
  | addRegistration (k : Registration)
  | addProducer (k : Registration) (p : ProducerPtr)
  | removeProducer (k : Registration) (id : String)
  | removeRegistration (k : Registration)

namespace RegistrationDB

def apply (db : RegistrationDB) : DBOp → RegistrationDB
  | .addRegistration k => db.addRegistration k
  | .addProducer k p => (db.addProducer k p).2
  | .removeProducer k id => (db.removeProducer k id).2
  | .removeRegistration k => db.removeRegistration k

/-- `NewRegistrationDB`, with the records that there are, and the operations in order. -/
def after (producer : ProducerPtr → Producer) (ops : List DBOp) : RegistrationDB :=
  ops.foldl apply { RegistrationDB.new with producer := producer }

end RegistrationDB

/-! ### What a history says -/

section History

variable (producer : ProducerPtr → Producer) (k : Registration) (id : String)

def DBOp.Adds : DBOp → Prop
  | addRegistration k' => k' = k
  | addProducer k' _ => k' = k
  | _ => False

def DBOp.AddsProducer : DBOp → Prop
  | addProducer k' p => k' = k ∧ (producer p).peerInfo.id = id
  | _ => False

/-- The operations on the registration that affect the ID. -/
def DBOp.Affects : DBOp → Prop
  | addRegistration _ => False
  | addProducer k' p => k' = k ∧ (producer p).peerInfo.id = id
  | removeProducer k' id' => k' = k ∧ id' = id
  | removeRegistration k' => k' = k

/-- The registration was added behind its last removal. -/
def Present (ops : List DBOp) : Prop :=
  Runs.LastSets (· = .removeRegistration k) (DBOp.Adds k) ops

/-- The last operation on the registration that affects the ID added a producer. -/
def Stored (ops : List DBOp) : Prop :=
  Runs.LastSets (DBOp.Affects producer k id) (DBOp.AddsProducer producer k id) ops

end History

namespace RegistrationDB

variable {producer : ProducerPtr → Producer} {ops : List DBOp} {k : Registration} {id : String}

theorem after_concat (op : DBOp) :
    after producer (ops ++ [op]) = (after producer ops).apply op := by
  rw [after, List.foldl_append]
  rfl

theorem after_producer : (after producer ops).producer = producer := by
  induction ops using List.reverseRecOn with
  | nil => rfl
  | append_singleton ops op ih =>
      have hop : ((after producer ops).apply op).producer = (after producer ops).producer := by
        cases op with
        | addRegistration k => exact addRegistration_producer
        | addProducer k p => exact addProducer_producer
        | removeProducer k id => exact removeProducer_producer
        | removeRegistration k => rfl
      rw [after_concat, hop, ih]

theorem mem_after : k ∈ (after producer ops).registrationMap ↔ Present k ops := by
  induction ops using List.reverseRecOn with
  | nil => exact iff_of_false (AList.notMem_empty k) (Runs.not_lastSets_nil _ _)
  | append_singleton ops op ih =>
      rw [after_concat, Present, Runs.lastSets_concat, ← Present, ← ih]
      cases op with
      | addRegistration k' =>
          simp [apply, addRegistration_registered, DBOp.Adds, eq_comm]
      | addProducer k' p =>
          simp [apply, addProducer_registered, DBOp.Adds, eq_comm]
      | removeProducer k' id =>
          simp [apply, removeProducer_registered, DBOp.Adds]
      | removeRegistration k' =>
          simp [apply, removeRegistration_registered, DBOp.Adds, eq_comm]

theorem mem_producersOf_after : id ∈ (after producer ops).producersOf k ↔
    Stored producer k id ops := by
  induction ops using List.reverseRecOn with
  | nil => exact iff_of_false (AList.notMem_empty id) (Runs.not_lastSets_nil _ _)
  | append_singleton ops op ih =>
      have hheap : (after producer ops).producer = producer := after_producer
      rw [after_concat, Stored, Runs.lastSets_concat, ← Stored, ← ih]
      cases op with
      | addRegistration k' =>
          simp [apply, DBOp.AddsProducer, DBOp.Affects]
      | addProducer k' p =>
          simp only [apply, addProducer_mem, hheap, DBOp.AddsProducer, DBOp.Affects]
          rw [eq_comm (a := k), eq_comm (a := id)]
          tauto
      | removeProducer k' id' =>
          simp only [apply, removeProducer_mem, DBOp.AddsProducer, DBOp.Affects, false_or]
          rw [eq_comm (a := k), eq_comm (a := id)]
      | removeRegistration k' =>
          simp only [apply, removeRegistration_mem, DBOp.AddsProducer, DBOp.Affects, false_or]
          rw [ne_comm]

/-- A record lies under its own ID. -/
theorem id_of_lookup_after {p : ProducerPtr}
    (h : ((after producer ops).producersOf k).lookup id = some p) :
    (producer p).peerInfo.id = id := by
  induction ops using List.reverseRecOn with
  | nil => cases h
  | append_singleton ops op ih =>
      rw [after_concat] at h
      cases op with
      | addRegistration k' =>
          rw [apply, addRegistration_producersOf] at h
          exact ih h
      | addProducer k' q =>
          rcases addProducer_lookup.mp h with ⟨-, hid, hp, -⟩ | h
          · rw [hid, hp, after_producer]
          · exact ih h
      | removeProducer k' id' => exact ih (removeProducer_lookup.mp h).2
      | removeRegistration k' => exact ih (removeRegistration_lookup.mp h).2

/-! ### What the queries return -/

section Queries

variable {db : RegistrationDB} (r : RangeOrder) {category key subKey : String}

theorem nodup_findRegistrations : (db.findRegistrations r category key subKey).Nodup := by
  unfold findRegistrations
  split
  · split
    · exact List.nodup_singleton _
    · exact List.nodup_nil
  · exact ((r.perm _).nodup_iff.mpr db.registrationMap.nodupKeys).filter _

variable (db)

/-- The ID of a record. -/
def idOf (p : ProducerPtr) : String := (db.producer p).peerInfo.id

theorem firstOfEach_cons (p : ProducerPtr) (ps : List ProducerPtr) (seen : List String) :
    db.firstOfEach (p :: ps) seen = if db.idOf p ∈ seen then db.firstOfEach ps seen
      else p :: db.firstOfEach ps (db.idOf p :: seen) := rfl

theorem firstOfEach_spec (ps : List ProducerPtr) (seen : List String) :
    ((db.firstOfEach ps seen).map db.idOf).Nodup ∧ ∀ id,
      id ∈ (db.firstOfEach ps seen).map db.idOf ↔ id ∈ ps.map db.idOf ∧ id ∉ seen := by
  induction ps generalizing seen with
  | nil => simp [firstOfEach]
  | cons p ps ih =>
      rw [firstOfEach_cons]
      by_cases hp : db.idOf p ∈ seen
      · rw [if_pos hp]
        refine ⟨(ih seen).1, fun id => ?_⟩
        rw [(ih seen).2, List.map_cons, List.mem_cons]
        constructor
        · exact fun h => ⟨.inr h.1, h.2⟩
        · rintro ⟨rfl | h, hid⟩
          · exact absurd hp hid
          · exact ⟨h, hid⟩
      · rw [if_neg hp]
        obtain ⟨hnodup, hmem⟩ := ih (db.idOf p :: seen)
        rw [List.map_cons]
        refine ⟨List.nodup_cons.mpr ⟨fun h => ?_, hnodup⟩, fun id => ?_⟩
        · exact ((hmem _).mp h).2 List.mem_cons_self
        · rw [List.mem_cons, hmem, List.map_cons, List.mem_cons, List.mem_cons]
          by_cases hid : id = db.idOf p
          · rw [hid]
            simp [hp]
          · simp [hid]

variable {db}

/-- Where no ID comes twice, every record is the first. -/
theorem firstOfEach_of_nodup (ps : List ProducerPtr) (seen : List String)
    (hnodup : (ps.map db.idOf).Nodup) (hseen : ∀ p ∈ ps, db.idOf p ∉ seen) :
    db.firstOfEach ps seen = ps := by
  induction ps generalizing seen with
  | nil => rfl
  | cons p ps ih =>
      rw [List.map_cons, List.nodup_cons] at hnodup
      obtain ⟨hp, hps⟩ := List.forall_mem_cons.mp hseen
      rw [firstOfEach_cons, if_neg hp, ih _ hnodup.2 fun q hq hid => ?_]
      rcases List.mem_cons.mp hid with hqp | hid
      · exact hnodup.1 (hqp ▸ List.mem_map_of_mem hq)
      · exact hps q hq hid

/-- Of a list whose items have keys of their own, those with a given key are one or none. -/
theorem filter_key_eq {α κ : Type} [DecidableEq κ] {f : α → κ} {l : List α} (hl : (l.map f).Nodup)
    (k : κ) : l.filter (fun a => f a = k) = [] ∧ k ∉ l.map f ∨
      ∃ a ∈ l, f a = k ∧ l.filter (fun a => f a = k) = [a] := by
  induction l with
  | nil => exact .inl ⟨rfl, nofun⟩
  | cons a l ih =>
      rw [List.map_cons, List.nodup_cons] at hl
      by_cases ha : f a = k
      · have hnone : l.filter (fun a => f a = k) = [] := by
          rw [List.filter_eq_nil_iff]
          intro b hb hbk
          exact hl.1 ((ha.trans (of_decide_eq_true hbk).symm) ▸ List.mem_map_of_mem hb)
        refine .inr ⟨a, List.mem_cons_self, ha, ?_⟩
        rw [List.filter_cons, if_pos (decide_eq_true ha), hnone]
      · rw [List.filter_cons_of_neg (by simpa using ha), List.map_cons]
        rcases ih hl.2 with ⟨hnil, hk⟩ | ⟨b, hb, hbk, hfilter⟩
        · refine .inl ⟨hnil, fun hmem => ?_⟩
          rcases List.mem_cons.mp hmem with rfl | hmem
          · exact ha rfl
          · exact hk hmem
        · exact .inr ⟨b, List.mem_cons_of_mem a hb, hbk, hfilter⟩

/-- What `FindProducers` does with a wildcard. -/
def filterProducers (db : RegistrationDB) (r : RangeOrder) (category key subKey : String) :
    List ProducerPtr :=
  db.firstOfEach (((r.order db.registrationMap.entries).filter fun e =>
    e.1.isMatch category key subKey).flatMap fun e => r.order (GoMap.values e.2)) []

/-- Every record lies under its own ID. -/
def Filed (db : RegistrationDB) : Prop :=
  ∀ k id p, (db.producersOf k).lookup id = some p → db.idOf p = id

variable (db) in
/-- The direct path finds what filtering all keys would. -/
theorem findRegistrations_direct (h : needFilter key subKey = false) :
    db.findRegistrations r category key subKey =
      filterRegistrations (r.order db.registrationMap.keys) category key subKey := by
  have hnodup : ((r.order db.registrationMap.keys).map id).Nodup := by
    rw [List.map_id]
    exact (r.perm _).nodup_iff.mpr db.registrationMap.nodupKeys
  have hfilter : filterRegistrations (r.order db.registrationMap.keys) category key subKey =
      (r.order db.registrationMap.keys).filter fun k => id k = ⟨category, key, subKey⟩ := by
    refine List.filter_congr fun k _ => ?_
    rw [Bool.eq_iff_iff, isMatch_direct h, decide_eq_true_eq]
    rfl
  rw [hfilter, findRegistrations, if_pos h]
  rcases filter_key_eq hnodup ⟨category, key, subKey⟩ with ⟨hnil, hk⟩ | ⟨k, hk, rfl, hsingle⟩
  · rw [List.map_id, r.mem_order, ← AList.mem_keys, ← AList.lookup_isSome] at hk
    rw [hnil, if_neg hk]
  · rw [r.mem_order, ← AList.mem_keys, ← AList.lookup_isSome] at hk
    rw [hsingle, if_pos hk]

theorem map_values_order (hfiled : db.Filed) (k : Registration) :
    ((r.order (db.producersOf k).values).map db.idOf).Perm (db.producersOf k).keys := by
  have hkeys := GoMap.map_values_eq_keys fun id p h => hfiled k id p h
  rw [← hkeys]
  exact (r.perm _).map _

theorem findProducers_direct (hfiled : db.Filed) (h : needFilter key subKey = false) :
    db.findProducers r category key subKey = db.filterProducers r category key subKey := by
  have hnodup : ((r.order db.registrationMap.entries).map Sigma.fst).Nodup :=
    ((r.perm _).map Sigma.fst).nodup_iff.mpr db.registrationMap.nodupKeys
  have hfilter : ((r.order db.registrationMap.entries).filter fun e =>
        e.1.isMatch category key subKey) =
      (r.order db.registrationMap.entries).filter fun e => e.1 = ⟨category, key, subKey⟩ := by
    refine List.filter_congr fun e _ => ?_
    rw [Bool.eq_iff_iff, isMatch_direct h, decide_eq_true_eq]
  rw [filterProducers, hfilter, findProducers, if_pos h]
  rcases filter_key_eq hnodup ⟨category, key, subKey⟩ with ⟨hnil, hk⟩ | ⟨e, he, hkey, hsingle⟩
  · have hnone : db.registrationMap.lookup ⟨category, key, subKey⟩ = none := by
      rw [AList.lookup_eq_none, AList.mem_keys]
      intro hmem
      obtain ⟨e, he, heq⟩ := List.mem_map.mp hmem
      exact hk (List.mem_map.mpr ⟨e, r.mem_order.mpr he, heq⟩)
    rw [hnil, producersOf, hnone, Option.getD_none, GoMap.values_empty, r.order_nil]
    rfl
  · have hlook : db.producersOf ⟨category, key, subKey⟩ = e.2 := by
      rw [← hkey]
      exact producersOf_lookup (AList.mem_lookup_iff.mpr (r.mem_order.mp he))
    have hperm := map_values_order r hfiled ⟨category, key, subKey⟩
    have hids := hperm.nodup_iff.mpr (db.producersOf ⟨category, key, subKey⟩).nodupKeys
    rw [hsingle, List.flatMap_singleton, ← hlook]
    exact (firstOfEach_of_nodup _ [] hids fun _ _ => List.not_mem_nil).symm

/-- `FindProducers` finds one record for each ID under a registration that matches. -/
theorem findProducers_spec (hfiled : db.Filed) (category key subKey : String) :
    ((db.findProducers r category key subKey).map db.idOf).Nodup ∧ ∀ id,
      id ∈ (db.findProducers r category key subKey).map db.idOf ↔
        ∃ k, k.isMatch category key subKey = true ∧ id ∈ db.producersOf k := by
  have hall : db.findProducers r category key subKey =
      db.filterProducers r category key subKey := by
    by_cases h : needFilter key subKey = false
    · exact findProducers_direct r hfiled h
    · rw [findProducers, if_neg h]
      rfl
  obtain ⟨hnodup, hmem⟩ := db.firstOfEach_spec
    (((r.order db.registrationMap.entries).filter fun e =>
      e.1.isMatch category key subKey).flatMap fun e => r.order (GoMap.values e.2)) []
  rw [hall]
  refine ⟨hnodup, fun id => (hmem id).trans ?_⟩
  constructor
  · rintro ⟨hid, -⟩
    obtain ⟨p, hp, rfl⟩ := List.mem_map.mp hid
    obtain ⟨e, he, hpe⟩ := List.mem_flatMap.mp hp
    obtain ⟨hmem, hmatch⟩ := List.mem_filter.mp he
    have hlook : db.producersOf e.1 = e.2 :=
      producersOf_lookup (AList.mem_lookup_iff.mpr (r.mem_order.mp hmem))
    refine ⟨e.1, hmatch, ?_⟩
    rw [← hlook] at hpe
    exact AList.mem_keys.mpr ((map_values_order r hfiled e.1).subset (List.mem_map_of_mem hpe))
  · rintro ⟨k, hmatch, hid⟩
    obtain ⟨producers, hk⟩ :=
      Option.isSome_iff_exists.mp (AList.lookup_isSome.mpr (registered_of_mem hid))
    have hpe := (map_values_order r hfiled k).symm.subset (AList.mem_keys.mp hid)
    rw [producersOf_lookup hk] at hpe
    obtain ⟨p, hp, hpid⟩ := List.mem_map.mp hpe
    have he : (⟨k, producers⟩ : Σ _ : Registration, ProducerMap) ∈
        (r.order db.registrationMap.entries).filter fun e => e.1.isMatch category key subKey :=
      List.mem_filter.mpr ⟨r.mem_order.mpr (AList.mem_lookup_iff.mp hk), hmatch⟩
    exact ⟨List.mem_map.mpr ⟨p, List.mem_flatMap.mpr ⟨_, he, hp⟩, hpid⟩, List.not_mem_nil⟩

variable (db) in
/-- `RemoveProducer` reports whether the ID was there, and how many are left. -/
theorem removeProducer_reports (k : Registration) (id : String) :
    ((db.removeProducer k id).1.1 = true ↔ id ∈ db.producersOf k) ∧
      (db.removeProducer k id).1.2 = ((db.removeProducer k id).2.producersOf k).keys.length := by
  unfold removeProducer
  split
  · rename_i hnone
    have hempty : db.producersOf k = ∅ := by rw [producersOf, hnone, Option.getD_none]
    rw [hempty]
    exact ⟨⟨fun h => (Bool.false_ne_true h).elim, fun h => absurd h (AList.notMem_empty id)⟩, rfl⟩
  · rename_i producers hsome
    rw [producersOf_lookup hsome, ← AList.lookup_isSome]
    refine ⟨Iff.rfl, ?_⟩
    rw [producersOf, AList.lookup_insert, Option.getD_some]

end Queries

/-! ### Exactness -/

/-- What the database holds and returns, in terms of what was done to it. -/
structure Exact (producer : ProducerPtr → Producer) (ops : List DBOp) (db : RegistrationDB) :
    Prop where
  registered : ∀ k, k ∈ db.registrationMap ↔ Present k ops
  stored : ∀ k id, id ∈ db.producersOf k ↔ Stored producer k id ops
  removeProducer : ∀ k id,
    ((db.removeProducer k id).1.1 = true ↔ Stored producer k id ops) ∧
    ∃ left : List String, left.Nodup ∧
      (∀ id', id' ∈ left ↔ Stored producer k id' (ops ++ [.removeProducer k id])) ∧
      (db.removeProducer k id).1.2 = left.length
  findRegistrations : ∀ (r : RangeOrder) category key subKey,
    (db.findRegistrations r category key subKey).Nodup ∧
    ∀ k, k ∈ db.findRegistrations r category key subKey ↔
      Present k ops ∧ k.isMatch category key subKey = true
  findProducers : ∀ (r : RangeOrder) category key subKey,
    ((db.findProducers r category key subKey).map fun p => (producer p).peerInfo.id).Nodup ∧
    ∀ id, id ∈ (db.findProducers r category key subKey).map (fun p => (producer p).peerInfo.id) ↔
      ∃ k, k.isMatch category key subKey = true ∧ Stored producer k id ops
  lookupRegistrations : ∀ (r : RangeOrder) id,
    (db.lookupRegistrations r id).Nodup ∧
    ∀ k, k ∈ db.lookupRegistrations r id ↔ Stored producer k id ops
  direct : ∀ (r : RangeOrder) category key subKey, needFilter key subKey = false →
    db.findRegistrations r category key subKey =
      filterRegistrations (r.order db.registrationMap.keys) category key subKey ∧
    db.findProducers r category key subKey = db.filterProducers r category key subKey

/-- **Exactness.** After any operations the database holds and returns what they say. -/
theorem exact_after (producer : ProducerPtr → Producer) (ops : List DBOp) :
    Exact producer ops (after producer ops) := by
  have hid : (after producer ops).idOf = fun p => (producer p).peerInfo.id := by
    funext p
    rw [idOf, after_producer]
  have hfiled : (after producer ops).Filed := by
    intro k id p h
    rw [hid]
    exact id_of_lookup_after h
  refine ⟨fun k => mem_after, fun k id => mem_producersOf_after, fun k id => ?_,
    fun r category key subKey => ⟨nodup_findRegistrations r, fun k => ?_⟩,
    fun r category key subKey => ?_,
    fun r id => ⟨nodup_lookupRegistrations r, fun k => ?_⟩,
    fun r category key subKey h =>
      ⟨findRegistrations_direct _ r h, findProducers_direct r hfiled h⟩⟩
  · obtain ⟨hwas, hleft⟩ := (after producer ops).removeProducer_reports k id
    refine ⟨hwas.trans mem_producersOf_after, _, AList.nodupKeys _, fun id' => ?_, hleft⟩
    rw [← mem_producersOf_after, after_concat]
    exact AList.mem_keys.symm
  · rw [mem_findRegistrations, AList.lookup_isSome, mem_after]
  · obtain ⟨hnodup, hmem⟩ := findProducers_spec r hfiled category key subKey
    rw [hid] at hnodup hmem
    refine ⟨hnodup, fun id => (hmem id).trans ?_⟩
    simp only [mem_producersOf_after]
  · rw [mem_lookupRegistrations, mem_producersOf_after]

end RegistrationDB

end Xmq.Lookupd
