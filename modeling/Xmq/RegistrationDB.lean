import Xmq.GoMap
import Xmq.LookupPeer

/-!
# The registration database

`xmqlookupd` keeps a map from registrations to the producers that registered under them. A
registration is a category (`client`, `topic` or `channel`) with a key and a subkey; a producer is a
record of its own for every registration of a node. This module translates `registration_db.go`.

* Producers are objects behind pointers: a tombstone changes the record in place. A record has a
  peer info of its own, so that two pointers to peer infos are equal when those to the records are.
* Ranging over a map visits its entries in any order.
-/

namespace Xmq.Lookupd

open GoMap (RangeOrder)
open Lookup (PeerInfo)

structure Registration where
  category : String
  key : String
  subKey : String
  deriving DecidableEq

abbrev ProducerPtr := ℕ

structure Producer where
  peerInfo : PeerInfo
  tombstoned : Bool
  tombstonedAt : ℤ
  deriving DecidableEq

namespace Producer

def new (peerInfo : PeerInfo) : Producer := ⟨peerInfo, false, 0⟩

def tombstone (p : Producer) (now : ℤ) : Producer :=
  { p with tombstoned := true, tombstonedAt := now }

def isTombstoned (p : Producer) (lifetime now : ℤ) : Bool :=
  p.tombstoned && decide (now - p.tombstonedAt < lifetime)

end Producer

abbrev ProducerMap := GoMap String ProducerPtr

structure RegistrationDB where
  registrationMap : GoMap Registration ProducerMap
  producer : ProducerPtr → Producer

/-- `NewRegistrationDB`. -/
def RegistrationDB.new : RegistrationDB := ⟨∅, fun _ => .new ⟨"", "", "", "", 0, 0, "", 0, ""⟩⟩

def Registration.isMatch (k : Registration) (category key subKey : String) : Bool :=
  k.category = category && (key = "*" || k.key = key) && (subKey = "*" || k.subKey = subKey)

/-- `Registrations.Filter`. -/
def filterRegistrations (rr : List Registration) (category key subKey : String) :
    List Registration :=
  rr.filter fun k => k.isMatch category key subKey

def needFilter (key subKey : String) : Bool := key = "*" || subKey = "*"

namespace RegistrationDB

variable (db : RegistrationDB)

/-- The producers under a registration; none when it is not there. -/
def producersOf (k : Registration) : ProducerMap := (db.registrationMap.lookup k).getD ∅

def addRegistration (k : Registration) : RegistrationDB :=
  match db.registrationMap.lookup k with
  | none => { db with registrationMap := db.registrationMap.insert k ∅ }
  | some _ => db

/-- `AddProducer`; a producer that is there stays. -/
def addProducer (k : Registration) (p : ProducerPtr) : Bool × RegistrationDB :=
  let id := (db.producer p).peerInfo.id
  match (db.producersOf k).lookup id with
  | none =>
    (true,
      { db with registrationMap := db.registrationMap.insert k ((db.producersOf k).insert id p) })
  | some _ => (false, db)

def removeProducer (k : Registration) (id : String) : (Bool × ℕ) × RegistrationDB :=
  match db.registrationMap.lookup k with
  | none => ((false, 0), db)
  | some producers =>
    (((producers.lookup id).isSome, (producers.erase id).keys.length),
      { db with registrationMap := db.registrationMap.insert k (producers.erase id) })

def removeRegistration (k : Registration) : RegistrationDB :=
  { db with registrationMap := db.registrationMap.erase k }

section Queries

variable (r : RangeOrder) (category key subKey : String)

def findRegistrations : List Registration :=
  if needFilter key subKey = false then
    if (db.registrationMap.lookup ⟨category, key, subKey⟩).isSome then [⟨category, key, subKey⟩]
    else []
  else filterRegistrations (r.order db.registrationMap.keys) category key subKey

/-- The first record of every ID, but for those in `seen`. -/
def firstOfEach : List ProducerPtr → List String → List ProducerPtr
  | [], _ => []
  | p :: ps, seen =>
    let id := (db.producer p).peerInfo.id
    if id ∈ seen then firstOfEach ps seen else p :: firstOfEach ps (id :: seen)

def findProducers : List ProducerPtr :=
  if needFilter key subKey = false then r.order (db.producersOf ⟨category, key, subKey⟩).values
  else
    db.firstOfEach
      (((r.order db.registrationMap.entries).filter fun e =>
        e.1.isMatch category key subKey).flatMap
        fun e => r.order (GoMap.values e.2)) []

def lookupRegistrations (id : String) : List Registration :=
  ((r.order db.registrationMap.entries).filter fun e => (AList.lookup id e.2).isSome).map Sigma.fst

end Queries

/-- `FilterByActive`, at the time `now`. -/
def filterByActive (now inactivityTimeout tombstoneLifetime : ℤ) (pp : List ProducerPtr) :
    List ProducerPtr :=
  pp.filter fun p =>
    !(decide (inactivityTimeout < now - (db.producer p).peerInfo.lastUpdate) ||
      (db.producer p).isTombstoned tombstoneLifetime now)

/-- `Producers.PeerInfo`. -/
def peerInfos (pp : List ProducerPtr) : List PeerInfo := pp.map fun p => (db.producer p).peerInfo

/-- A record changes in place. -/
def update (p : ProducerPtr) (f : Producer → Producer) : RegistrationDB :=
  { db with producer := Function.update db.producer p (f (db.producer p)) }

/-! ### What the operations do to the records -/

variable {db} {k k' : Registration} {id id' : String} {p q : ProducerPtr}

theorem producersOf_lookup {producers : ProducerMap}
    (h : db.registrationMap.lookup k = some producers) :
    db.producersOf k = producers := by
  rw [producersOf, h, Option.getD_some]

@[simp] theorem addRegistration_producer : (db.addRegistration k).producer = db.producer := by
  unfold addRegistration
  split <;> rfl

/-- A registration without producers makes no difference to the producers. -/
@[simp] theorem addRegistration_producersOf :
    (db.addRegistration k).producersOf k' = db.producersOf k' := by
  unfold addRegistration
  split
  · rename_i hnone
    by_cases hk : k' = k
    · subst hk
      simp [producersOf, hnone]
    · simp [producersOf, AList.lookup_insert_ne hk]
  · rfl

@[simp] theorem addProducer_producer : (db.addProducer k p).2.producer = db.producer := by
  unfold addProducer
  simp only
  split <;> rfl

theorem addProducer_lookup : ((db.addProducer k p).2.producersOf k').lookup id' = some q ↔
    (k' = k ∧ id' = (db.producer p).peerInfo.id ∧ q = p ∧
        (db.producersOf k).lookup (db.producer p).peerInfo.id = none) ∨
      (db.producersOf k').lookup id' = some q := by
  unfold addProducer
  simp only
  split
  · rename_i hnone
    by_cases hk : k' = k
    · subst hk
      simp only [producersOf, AList.lookup_insert, Option.getD_some]
      rw [GoMap.lookup_insert_eq_some]
      by_cases hid : id' = (db.producer p).peerInfo.id
      · subst hid
        rw [producersOf] at hnone
        simp [hnone, eq_comm]
      · simp [hid]
    · simp [producersOf, AList.lookup_insert_ne hk, hk]
  · rename_i hsome
    simp [hsome]

@[simp] theorem removeProducer_producer : (db.removeProducer k id).2.producer = db.producer := by
  unfold removeProducer
  split <;> rfl

theorem removeProducer_lookup : ((db.removeProducer k id).2.producersOf k').lookup id' = some q ↔
    ¬ (k' = k ∧ id' = id) ∧ (db.producersOf k').lookup id' = some q := by
  unfold removeProducer
  split
  · rename_i hnone
    by_cases hk : k' = k
    · subst hk
      simp [producersOf, hnone]
    · simp [hk]
  · rename_i producers hsome
    by_cases hk : k' = k
    · subst hk
      simp only [producersOf, AList.lookup_insert, Option.getD_some, hsome]
      rw [GoMap.lookup_erase_eq_some]
      simp
    · simp [producersOf, AList.lookup_insert_ne hk, hk]

theorem removeRegistration_lookup : ((db.removeRegistration k).producersOf k').lookup id' = some q ↔
    k' ≠ k ∧ (db.producersOf k').lookup id' = some q := by
  by_cases hk : k' = k
  · subst hk
    simp [producersOf, removeRegistration, AList.lookup_erase]
  · simp [producersOf, removeRegistration, AList.lookup_erase_ne hk, hk]

@[simp] theorem update_self (f : Producer → Producer) :
    (db.update p f).producer p = f (db.producer p) :=
  Function.update_self _ _ _

theorem update_ne (f : Producer → Producer) (h : q ≠ p) :
    (db.update p f).producer q = db.producer q :=
  Function.update_of_ne h _ _

/-! ### Which registrations and producers there are -/

theorem mem_producersOf : id ∈ db.producersOf k ↔ ∃ p, (db.producersOf k).lookup id = some p := by
  rw [← AList.lookup_isSome, Option.isSome_iff_exists]

/-- A producer stands under a registration that is there. -/
theorem registered_of_mem (h : id ∈ db.producersOf k) : k ∈ db.registrationMap := by
  rw [← AList.lookup_isSome]
  cases hlook : db.registrationMap.lookup k with
  | none => simp [producersOf, hlook] at h
  | some producers => rfl

theorem addRegistration_registered : k' ∈ (db.addRegistration k).registrationMap ↔
    k' = k ∨ k' ∈ db.registrationMap := by
  unfold addRegistration
  split
  · exact AList.mem_insert db.registrationMap
  · rename_i producers hsome
    have hk : k ∈ db.registrationMap := AList.lookup_isSome.mp (by rw [hsome]; rfl)
    constructor
    · exact .inr
    · rintro (rfl | h)
      · exact hk
      · exact h

theorem addProducer_registered : k' ∈ (db.addProducer k p).2.registrationMap ↔
    k' = k ∨ k' ∈ db.registrationMap := by
  unfold addProducer
  simp only
  split
  · exact AList.mem_insert db.registrationMap
  · rename_i q hsome
    have hk : k ∈ db.registrationMap := registered_of_mem (mem_producersOf.mpr ⟨q, hsome⟩)
    constructor
    · exact .inr
    · rintro (rfl | h)
      · exact hk
      · exact h

theorem addProducer_mem : id' ∈ (db.addProducer k p).2.producersOf k' ↔
    (k' = k ∧ id' = (db.producer p).peerInfo.id) ∨ id' ∈ db.producersOf k' := by
  simp only [mem_producersOf, addProducer_lookup]
  constructor
  · rintro ⟨q, ⟨hk, hid, -, -⟩ | hq⟩
    · exact .inl ⟨hk, hid⟩
    · exact .inr ⟨q, hq⟩
  · rintro (⟨rfl, rfl⟩ | ⟨q, hq⟩)
    · cases hlook : (db.producersOf k').lookup (db.producer p).peerInfo.id with
      | none => exact ⟨p, .inl ⟨rfl, rfl, rfl, rfl⟩⟩
      | some q => exact ⟨q, .inr rfl⟩
    · exact ⟨q, .inr hq⟩

/-- `RemoveProducer` leaves the registration, even without producers. -/
theorem removeProducer_registered : k' ∈ (db.removeProducer k id).2.registrationMap ↔
    k' ∈ db.registrationMap := by
  unfold removeProducer
  split
  · rfl
  · rename_i producers hsome
    have hk : k ∈ db.registrationMap := AList.lookup_isSome.mp (by rw [hsome]; rfl)
    rw [AList.mem_insert]
    constructor
    · rintro (rfl | h)
      · exact hk
      · exact h
    · exact .inr

theorem removeProducer_mem : id' ∈ (db.removeProducer k id).2.producersOf k' ↔
    ¬ (k' = k ∧ id' = id) ∧ id' ∈ db.producersOf k' := by
  simp only [mem_producersOf, removeProducer_lookup, exists_and_left]

/-- The count that `RemoveProducer` returns is zero when no other producer is there. -/
theorem removeProducer_left : (db.removeProducer k id).1.2 = 0 ↔
    ∀ id' ∈ db.producersOf k, id' = id := by
  unfold removeProducer
  split
  · rename_i hnone
    simp [producersOf, hnone]
  · rename_i producers hsome
    rw [producersOf_lookup hsome, List.length_eq_zero_iff, List.eq_nil_iff_forall_not_mem]
    constructor
    · intro hnone id' hid'
      by_contra hne
      exact hnone id' (AList.mem_keys.mp (AList.mem_erase.mpr ⟨hne, hid'⟩))
    · intro hall id' hid'
      obtain ⟨hne, hmem⟩ := AList.mem_erase.mp (AList.mem_keys.mpr hid')
      exact hne (hall id' hmem)

theorem removeRegistration_registered : k' ∈ (db.removeRegistration k).registrationMap ↔
    k' ≠ k ∧ k' ∈ db.registrationMap :=
  AList.mem_erase

theorem removeRegistration_mem : id' ∈ (db.removeRegistration k).producersOf k' ↔
    k' ≠ k ∧ id' ∈ db.producersOf k' := by
  simp only [mem_producersOf, removeRegistration_lookup, exists_and_left]

/-! ### What the queries find -/

variable (r : RangeOrder) {category key subKey : String}

theorem isMatch_direct (h : needFilter key subKey = false) :
    k.isMatch category key subKey = true ↔ k = ⟨category, key, subKey⟩ := by
  obtain ⟨c, y, z⟩ := k
  simp only [needFilter, Bool.or_eq_false_iff, decide_eq_false_iff_not] at h
  simp only [Registration.isMatch, h.1, h.2, Bool.and_eq_true, decide_eq_true_eq, Bool.or_eq_true,
    false_or, Registration.mk.injEq, and_assoc]

/-- **`FindRegistrations`** finds the registrations that match, whether or not it has to filter. -/
theorem mem_findRegistrations : k ∈ db.findRegistrations r category key subKey ↔
    (db.registrationMap.lookup k).isSome ∧ k.isMatch category key subKey = true := by
  unfold findRegistrations
  split
  · rename_i hdirect
    rw [isMatch_direct hdirect]
    split
    · rename_i hsome
      rw [List.mem_singleton]
      exact ⟨fun hk => ⟨hk ▸ hsome, hk⟩, fun hk => hk.2⟩
    · rename_i hnone
      simp only [List.not_mem_nil, false_iff, not_and]
      rintro hsome rfl
      exact hnone hsome
  · rw [filterRegistrations, List.mem_filter, RangeOrder.mem_order, AList.lookup_isSome,
      ← AList.mem_keys]

theorem category_of_isMatch (h : k.isMatch category key subKey = true) : k.category = category := by
  simp only [Registration.isMatch, Bool.and_eq_true, decide_eq_true_eq] at h
  exact h.1.1

theorem mem_of_mem_firstOfEach {ps : List ProducerPtr} : ∀ {seen : List String},
    p ∈ db.firstOfEach ps seen → p ∈ ps := by
  induction ps with
  | nil =>
      intro seen h
      cases h
  | cons q ps ih =>
      intro seen h
      simp only [firstOfEach] at h
      split at h
      · exact List.mem_cons_of_mem _ (ih h)
      · rcases List.mem_cons.mp h with rfl | h
        · exact List.mem_cons_self
        · exact List.mem_cons_of_mem _ (ih h)

/-- What `FindProducers` finds is the record of some ID under a registration that matches. -/
theorem lookup_of_mem_findProducers (h : p ∈ db.findProducers r category key subKey) :
    ∃ k id, k.isMatch category key subKey = true ∧ (db.producersOf k).lookup id = some p := by
  unfold findProducers at h
  split at h
  · rename_i hdirect
    obtain ⟨id, hid⟩ := GoMap.mem_values.mp (r.mem_order.mp h)
    exact ⟨_, id, (isMatch_direct hdirect).mpr rfl, hid⟩
  · obtain ⟨e, he, hp⟩ := List.mem_flatMap.mp (mem_of_mem_firstOfEach h)
    obtain ⟨hmem, hmatch⟩ := List.mem_filter.mp he
    obtain ⟨id, hid⟩ := GoMap.mem_values.mp (r.mem_order.mp hp)
    refine ⟨e.1, id, hmatch, ?_⟩
    rw [producersOf_lookup (AList.mem_lookup_iff.mpr (r.mem_order.mp hmem))]
    exact hid

/-- Without a wildcard `FindProducers` finds the records of the registration. -/
theorem mem_findProducers_direct (h : needFilter key subKey = false) :
    p ∈ db.findProducers r category key subKey ↔
      ∃ id, (db.producersOf ⟨category, key, subKey⟩).lookup id = some p := by
  rw [findProducers, if_pos h, RangeOrder.mem_order, GoMap.mem_values]

/-- `LookupRegistrations` finds the registrations that the ID stands under. -/
theorem mem_lookupRegistrations : k ∈ db.lookupRegistrations r id ↔ id ∈ db.producersOf k := by
  simp only [lookupRegistrations, List.mem_map, List.mem_filter, RangeOrder.mem_order]
  constructor
  · rintro ⟨⟨k', producers⟩, ⟨he, hid⟩, rfl⟩
    rw [producersOf_lookup (AList.mem_lookup_iff.mpr he)]
    exact AList.lookup_isSome.mp hid
  · intro hid
    obtain ⟨producers, hk⟩ :=
      Option.isSome_iff_exists.mp (AList.lookup_isSome.mpr (registered_of_mem hid))
    rw [producersOf_lookup hk] at hid
    exact ⟨⟨k, producers⟩, ⟨AList.mem_lookup_iff.mp hk, AList.lookup_isSome.mpr hid⟩, rfl⟩

/-- It finds each of them once. -/
theorem nodup_lookupRegistrations : (db.lookupRegistrations r id).Nodup := by
  have hkeys : ((r.order db.registrationMap.entries).map Sigma.fst).Nodup :=
    ((r.perm db.registrationMap.entries).map Sigma.fst).nodup_iff.mpr db.registrationMap.nodupKeys
  exact hkeys.sublist (List.filter_sublist.map Sigma.fst)

end RegistrationDB

end Xmq.Lookupd
