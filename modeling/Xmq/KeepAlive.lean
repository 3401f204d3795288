import Mathlib.Data.List.Induction
import Xmq.LookupServer

/-!
# Keeping a node alive

A lookup leaves out a node that has not been heard of for a while. Each record of a node carries the
time of the last contact, and that time is the one at which the node was first identified: `Ping`
reaches another table, and writes no time there either.

* The law compares the messages of a node in the history with what a lookup and the list of nodes
  say.
* It holds exactly while the first `Identify` of every node that is heard of is recent itself.
-/

namespace Xmq.Lookupd

open GoMap (RangeOrder)
open Lookup (PeerInfo PeerRequest RegisterRequest)

/-! ### The law -/

/-- The node that an `Identify`, a `Register` or a `Ping` is from. -/
def Request.sender : Request → Option String
  | .identify _ req => req.peer.map PeerInfo.id
  | .register req => some req.id
  | .ping req => req.peer.map PeerInfo.id
  | _ => none

/-- When the node was last heard of. -/
def lastContact (id : String) (es : List Event) : Option ℤ :=
  (es.reverse.find? fun e => e.request.sender = some id).map Event.now

/-- What the node says of itself at an `Identify` with all the fields that are required. -/
def Event.identifies (id : String) (e : Event) : Option PeerInfo :=
  match e.request with
  | .identify remote ⟨some peer⟩ =>
    let info := XMQLookupd.identifyInfo remote peer
    if peer.id = id ∧ ¬ XMQLookupd.MissingFields info then some { info with lastUpdate := e.now }
    else none
  | _ => none

/-- What the node said of itself first, and when. -/
def firstIdentified (id : String) (es : List Event) : Option PeerInfo :=
  es.findSome? (Event.identifies id)

/-- The node was heard of within the timeout. -/
def HeardOf (opts : Options) (es : List Event) (now : ℤ) (id : String) : Prop :=
  ∃ time, lastContact id es = some time ∧ now - time ≤ opts.inactiveProducerTimeout

/-- The node has a record under the topic that is not tombstoned. -/
def ProducerOf (opts : Options) (l : XMQLookupd) (now : ℤ) (topic id : String) : Prop :=
  ∃ p, (l.db.producersOf (XMQLookupd.topicKey topic)).lookup id = some p ∧
    (l.db.producer p).isTombstoned opts.tombstoneLifetime now = false

/-- **Keep-alive**, at a time after a history: a node that was heard of is found under its topics,
and in the list of nodes once it has identified. -/
structure KeptAlive (opts : Options) (es : List Event) (now : ℤ) : Prop where
  lookup : ∀ r topic id, HeardOf opts es now id →
    ProducerOf opts (XMQLookupd.serveAll opts es) now topic id →
      ∃ answer, (XMQLookupd.serveAll opts es).lookupTopic opts r now topic = .ok answer ∧
        ∃ info ∈ answer.producers, info.id = id
  nodes : ∀ r id, HeardOf opts es now id → (firstIdentified id es).isSome →
    ∃ node ∈ ((XMQLookupd.serveAll opts es).getNodes opts r now).1, node.peerInfo.id = id

/-! ### The tables -/

namespace XMQLookupd

/-- Every record of a node carries what its first `Identify` said, `acc`; a record is filed under
one registration, that of the clients is not tombstoned, and no topic is a wildcard. -/
structure Records (acc : String → Option PeerInfo) (l : XMQLookupd) : Prop where
  first : ∀ k id p, (l.db.producersOf k).lookup id = some p →
    (l.db.producer p).peerInfo.id = id ∧ acc id = some (producerInfo (l.db.producer p).peerInfo) ∧
      p < l.next
  unique : ∀ k k' id id' p, (l.db.producersOf k).lookup id = some p →
    (l.db.producersOf k').lookup id' = some p → k = k'
  client : ∀ id p, (l.db.producersOf clientKey).lookup id = some p →
    (l.db.producer p).tombstoned = false
  topics : ∀ topic id p, (l.db.producersOf (topicKey topic)).lookup id = some p → topic ≠ "*"

/-- The tables after a history. -/
structure Tables (es : List Event) (l : XMQLookupd) : Prop where
  records : Records (fun id => firstIdentified id es) l
  peers : ∀ id info, l.peers.lookup id = some info →
    info.id = id ∧ firstIdentified id es = some (producerInfo info)
  known : ∀ id t, firstIdentified id es = some t → (l.peers.lookup id).isSome ∧
    ∃ p, (l.db.producersOf clientKey).lookup id = some p

variable {acc : String → Option PeerInfo} {l l' : XMQLookupd} {k : Registration} {info : PeerInfo}

/-- Another producer record. -/
theorem Records.addProducer (h : Records acc l) (hinfo : acc info.id = some (producerInfo info))
    (hk : ∀ topic, k = topicKey topic → topic ≠ "*") : Records acc (l.addProducer k info) := by
  have hold : ∀ p, p < l.next → (l.addProducer k info).db.producer p = l.db.producer p := by
    intro p hp
    simp only [XMQLookupd.addProducer, RegistrationDB.addProducer_producer]
    exact RegistrationDB.update_ne _ (Nat.ne_of_lt hp)
  have hnew : (l.addProducer k info).db.producer l.next = .new (producerInfo info) := by
    simp [XMQLookupd.addProducer]
  have hlook : ∀ k' id' q, ((l.addProducer k info).db.producersOf k').lookup id' = some q →
      k' = k ∧ id' = info.id ∧ q = l.next ∨ (l.db.producersOf k').lookup id' = some q := by
    intro k' id' q hq
    rcases RegistrationDB.addProducer_lookup.mp hq with ⟨hk', hid, hq, -⟩ | hq
    · rw [RegistrationDB.update_self] at hid
      exact .inl ⟨hk', hid, hq⟩
    · exact .inr hq
  constructor
  · intro k' id' q hq
    rcases hlook k' id' q hq with ⟨-, rfl, rfl⟩ | hq
    · rw [hnew]
      exact ⟨rfl, hinfo, Nat.lt_succ_self _⟩
    · obtain ⟨hid, hfirst, hlt⟩ := h.first k' id' q hq
      rw [hold q hlt]
      exact ⟨hid, hfirst, Nat.lt_succ_of_lt hlt⟩
  · intro k₁ k₂ id₁ id₂ q h₁ h₂
    rcases hlook k₁ id₁ q h₁ with ⟨hk₁, -, hq₁⟩ | hold₁ <;>
      rcases hlook k₂ id₂ q h₂ with ⟨hk₂, -, hq₂⟩ | hold₂
    · exact hk₁.trans hk₂.symm
    · exact absurd (h.first k₂ id₂ q hold₂).2.2 (hq₁ ▸ Nat.lt_irrefl _)
    · exact absurd (h.first k₁ id₁ q hold₁).2.2 (hq₂ ▸ Nat.lt_irrefl _)
    · exact h.unique k₁ k₂ id₁ id₂ q hold₁ hold₂
  · intro id' q hq
    rcases hlook _ id' q hq with ⟨-, -, rfl⟩ | hq
    · rw [hnew]
      rfl
    · rw [hold q (h.first _ id' q hq).2.2]
      exact h.client id' q hq
  · intro topic id' q hq
    rcases hlook _ id' q hq with ⟨hk', -, -⟩ | hq
    · exact hk topic hk'.symm
    · exact h.topics topic id' q hq

/-- After `AddProducer` the node has a record. -/
theorem addProducer_known (l : XMQLookupd) (k : Registration) (info : PeerInfo) :
    ∃ p, ((l.addProducer k info).db.producersOf k).lookup info.id = some p := by
  cases hlook : (l.db.producersOf k).lookup info.id with
  | none =>
    refine ⟨l.next, RegistrationDB.addProducer_lookup.mpr (.inl ?_)⟩
    rw [RegistrationDB.update_self]
    exact ⟨rfl, rfl, rfl, hlook⟩
  | some p => exact ⟨p, RegistrationDB.addProducer_lookup.mpr (.inr hlook)⟩

/-- A database with fewer records, but for those of the clients. -/
structure Shrinks (db db' : RegistrationDB) : Prop where
  producer : db'.producer = db.producer
  sub : ∀ k id p, (db'.producersOf k).lookup id = some p → (db.producersOf k).lookup id = some p
  client : ∀ id p, (db.producersOf clientKey).lookup id = some p →
    (db'.producersOf clientKey).lookup id = some p

theorem Shrinks.refl (db : RegistrationDB) : Shrinks db db :=
  ⟨rfl, fun _ _ _ h => h, fun _ _ h => h⟩

theorem Shrinks.trans {db db' db'' : RegistrationDB} (h : Shrinks db db') (h' : Shrinks db' db'') :
    Shrinks db db'' :=
  ⟨h'.producer.trans h.producer, fun k id p hp => h.sub k id p (h'.sub k id p hp),
    fun id p hp => h'.client id p (h.client id p hp)⟩

theorem shrinks_removeProducer (db : RegistrationDB) (hk : k.category ≠ "client") (id : String) :
    Shrinks db (db.removeProducer k id).2 where
  producer := RegistrationDB.removeProducer_producer
  sub _ _ _ hp := (RegistrationDB.removeProducer_lookup.mp hp).2
  client _ _ hp := RegistrationDB.removeProducer_lookup.mpr
    ⟨fun hk' => hk (congrArg Registration.category hk'.1).symm, hp⟩

theorem shrinks_removeRegistration (db : RegistrationDB) (hk : k.category ≠ "client") :
    Shrinks db (db.removeRegistration k) where
  producer := rfl
  sub _ _ _ hp := (RegistrationDB.removeRegistration_lookup.mp hp).2
  client _ _ hp := RegistrationDB.removeRegistration_lookup.mpr
    ⟨fun hk' => hk (congrArg Registration.category hk').symm, hp⟩

theorem shrinks_addRegistration (db : RegistrationDB) (k : Registration) :
    Shrinks db (db.addRegistration k) where
  producer := RegistrationDB.addRegistration_producer
  sub _ _ _ hp := by rwa [RegistrationDB.addRegistration_producersOf] at hp
  client _ _ hp := by rwa [RegistrationDB.addRegistration_producersOf]

/-- The same for a loop over registrations of another category. -/
theorem shrinks_foldl {f : RegistrationDB → Registration → RegistrationDB} {ks : List Registration}
    (hf : ∀ db, ∀ k ∈ ks, Shrinks db (f db k)) : ∀ db, Shrinks db (ks.foldl f db) := by
  induction ks with
  | nil =>
      intro db
      exact .refl db
  | cons k ks ih =>
      intro db
      have hrest := ih (fun db k hk => hf db k (List.mem_cons_of_mem _ hk)) (f db k)
      exact (hf db k List.mem_cons_self).trans hrest

theorem Tables.shrink {es : List Event} (h : Tables es l) {db : RegistrationDB}
    (hdb : Shrinks l.db db) : Tables es { l with db := db } where
  records :=
    { first := fun k id p hp => by
        rw [show db.producer = l.db.producer from hdb.producer]
        exact h.records.first k id p (hdb.sub k id p hp)
      unique := fun k k' id id' p hp hp' =>
        h.records.unique k k' id id' p (hdb.sub k id p hp) (hdb.sub k' id' p hp')
      client := fun id p hp => by
        rw [show db.producer = l.db.producer from hdb.producer]
        exact h.records.client id p (hdb.sub _ id p hp)
      topics := fun topic id p hp => h.records.topics topic id p (hdb.sub _ id p hp) }
  peers := h.peers
  known id t ht := by
    obtain ⟨hsome, p, hp⟩ := h.known id t ht
    exact ⟨hsome, p, hdb.client id p hp⟩

theorem Tables.addProducer {es : List Event} (h : Tables es l)
    (hinfo : firstIdentified info.id es = some (producerInfo info))
    (hk : ∀ topic, k = topicKey topic → topic ≠ "*") : Tables es (l.addProducer k info) where
  records := h.records.addProducer hinfo hk
  peers := h.peers
  known id t ht := by
    obtain ⟨hsome, p, hp⟩ := h.known id t ht
    exact ⟨hsome, p, RegistrationDB.addProducer_lookup.mpr (.inr hp)⟩

/-- A record changes in place: what the node said stays, and no record of a client is tombstoned. -/
theorem Tables.update {es : List Event} (h : Tables es l) {p : ProducerPtr}
    {f : Producer → Producer}
    (hinfo : ∀ o, producerInfo (f o).peerInfo = producerInfo o.peerInfo)
    (hclient : ∀ id, (l.db.producersOf clientKey).lookup id = some p →
      ∀ o, (f o).tombstoned = o.tombstoned) :
    Tables es { l with db := l.db.update p f } where
  records :=
    { first := fun k id q hq => by
        obtain ⟨hid, hfirst, hlt⟩ := h.records.first k id q hq
        by_cases hqp : q = p
        · subst hqp
          have hsame : (f (l.db.producer q)).peerInfo.id = (l.db.producer q).peerInfo.id := by
            have hid' := congrArg PeerInfo.id (hinfo (l.db.producer q))
            exact hid'
          simp only [RegistrationDB.update_self, hinfo, hsame]
          exact ⟨hid, hfirst, hlt⟩
        · rw [show ({ l with db := l.db.update p f } : XMQLookupd).db.producer q =
            l.db.producer q from RegistrationDB.update_ne f hqp]
          exact ⟨hid, hfirst, hlt⟩
      unique := h.records.unique
      client := fun id q hq => by
        have hold := h.records.client id q hq
        by_cases hqp : q = p
        · subst hqp
          simp only [RegistrationDB.update_self, hclient id hq]
          exact hold
        · rw [show ({ l with db := l.db.update p f } : XMQLookupd).db.producer q =
            l.db.producer q from RegistrationDB.update_ne f hqp]
          exact hold
      topics := h.records.topics }
  peers := h.peers
  known := h.known

/-! ### Each request keeps the tables -/

variable {es : List Event}

theorem tables_new : Tables [] new where
  records :=
    { first := fun k id p hp => by simp [new, RegistrationDB.new, RegistrationDB.producersOf] at hp
      unique :=
        fun k k' id id' p hp => by simp [new, RegistrationDB.new, RegistrationDB.producersOf] at hp
      client := fun id p hp => by simp [new, RegistrationDB.new, RegistrationDB.producersOf] at hp
      topics :=
        fun t id p hp => by simp [new, RegistrationDB.new, RegistrationDB.producersOf] at hp }
  peers id info hinfo := by simp [new] at hinfo
  known id t ht := by simp [firstIdentified] at ht

theorem tables_ping (h : Tables es l) (req : PeerRequest) : Tables es (l.ping req).2 := by
  unfold ping
  split
  · exact h
  · rename_i peer hpeer
    split
    · exact h
    · split
      · exact h
      · rename_i info hinfo
        obtain ⟨hid, hfirst⟩ := h.peers peer.id info hinfo
        refine ⟨⟨h.records.first, h.records.unique, h.records.client, h.records.topics⟩, ?_, ?_⟩
        · intro id info' hinfo'
          rcases GoMap.lookup_insert_eq_some.mp hinfo' with ⟨rfl, rfl⟩ | ⟨-, hinfo'⟩
          · exact ⟨hid, hfirst⟩
          · exact h.peers id info' hinfo'
        · intro id t ht
          obtain ⟨hsome, hrec⟩ := h.known id t ht
          refine ⟨?_, hrec⟩
          by_cases hne : id = peer.id
          · subst hne
            simp
          · simpa [AList.lookup_insert_ne hne] using hsome

theorem channel_ne_topic : "channel" ≠ "topic" := by decide

theorem channel_ne_client : "channel" ≠ "client" := by decide

theorem topic_ne_client : "topic" ≠ "client" := by decide

theorem topicKey_ne_star {topic topicName : String} (h : isValidTopicName topicName = true)
    (heq : topicKey topicName = topicKey topic) : topic ≠ "*" := by
  have hkey : topicName = topic := congrArg Registration.key heq
  rintro rfl
  rw [hkey] at h
  exact absurd h (by decide)

theorem tables_register (h : Tables es l) (req : RegisterRequest) :
    Tables es (l.register req).2 := by
  rcases register_cases (l := l) req with ⟨err, herr⟩ | ⟨info, hcheck, hreg⟩
  · rw [herr]
    exact h
  · obtain ⟨hinfo, hvalid⟩ := checkRegister_ok hcheck
    obtain ⟨hid, hfirst⟩ := h.peers req.id info hinfo
    rw [← hid] at hfirst
    rw [hreg]
    refine Tables.addProducer ?_ hfirst fun topic htopic => topicKey_ne_star hvalid htopic
    split
    · exact h.addProducer hfirst fun topic htopic =>
        absurd (congrArg Registration.category htopic) channel_ne_topic
    · exact h

theorem tables_removeProducer (h : Tables es l) (hk : k.category ≠ "client") (id name : String) :
    Tables es (l.removeProducer k id name) := by
  have hdrop := shrinks_removeProducer l.db hk id
  unfold removeProducer
  refine h.shrink ?_
  split
  · exact hdrop.trans (shrinks_removeRegistration _ hk)
  · exact hdrop

/-- The registrations that a handler finds are not those of the clients. -/
theorem category_ne_client {db : RegistrationDB} {r : RangeOrder} {category key subKey : String}
    (hcategory : category ≠ "client") (hk : k ∈ db.findRegistrations r category key subKey) :
    k.category ≠ "client" := by
  rw [RegistrationDB.category_of_isMatch ((RegistrationDB.mem_findRegistrations r).mp hk).2]
  exact hcategory

theorem tables_unregister (h : Tables es l) (r : RangeOrder) (req : RegisterRequest) :
    Tables es (l.unregister r req).2 := by
  unfold unregister
  cases l.checkRegister req with
  | error err => exact h
  | ok info =>
    simp only
    split
    · exact tables_removeProducer h channel_ne_client info.id req.channelName
    · refine tables_removeProducer (h.shrink (shrinks_foldl ?_ l.db)) topic_ne_client info.id
        req.topicName
      intro db k hk
      exact shrinks_removeProducer db (category_ne_client channel_ne_client hk) info.id

/-- The registrations that a handler finds are removed. -/
theorem shrinks_removeFound (db db' : RegistrationDB) (r : RangeOrder)
    {category key subKey : String}
    (hcategory : category ≠ "client") :
    Shrinks db ((db'.findRegistrations r category key subKey).foldl .removeRegistration db) :=
  shrinks_foldl (fun db _ hk => shrinks_removeRegistration db (category_ne_client hcategory hk)) db

/-- The record is one of a topic. -/
def UnderTopic (db : RegistrationDB) (p : ProducerPtr) : Prop :=
  ∃ k id, k.category = "topic" ∧ (db.producersOf k).lookup id = some p

theorem Tables.tombstone (h : Tables es l) {p : ProducerPtr} (hp : UnderTopic l.db p) (now : ℤ) :
    Tables es { l with db := l.db.update p fun o => o.tombstone now } := by
  obtain ⟨k, id, hcategory, hk⟩ := hp
  refine h.update (fun o => rfl) fun id' hid' => ?_
  rw [h.records.unique k clientKey id id' p hk hid'] at hcategory
  exact absurd hcategory.symm topic_ne_client

theorem tables_tombstoneAll (now : ℤ) (node : String) {ps : List ProducerPtr} :
    ∀ {db : RegistrationDB}, Tables es { l with db := db } → (∀ p ∈ ps, UnderTopic db p) →
      Tables es { l with db := tombstoneAll now node db ps } := by
  induction ps with
  | nil =>
      intro db h _
      exact h
  | cons p ps ih =>
      intro db h hps
      have hrest : ∀ q ∈ ps, UnderTopic db q := fun q hq => hps q (List.mem_cons_of_mem _ hq)
      simp only [tombstoneAll, List.foldl_cons]
      split
      · exact ih (h.tombstone (hps p List.mem_cons_self) now) hrest
      · exact ih h hrest

theorem tables_tombstone (h : Tables es l) (r : RangeOrder) (now : ℤ) (topicName node : String) :
    Tables es
      { l with db := tombstoneAll now node l.db (l.db.findProducers r "topic" topicName "") } := by
  refine tables_tombstoneAll now node h fun p hp => ?_
  obtain ⟨k, id, hmatch, hk⟩ := RegistrationDB.lookup_of_mem_findProducers r hp
  exact ⟨k, id, RegistrationDB.category_of_isMatch hmatch, hk⟩

/-! ### The list of nodes -/

theorem refreshRaftState_cases (l : XMQLookupd) (p : ProducerPtr) : l.refreshRaftState p = l ∨
    ∃ state, l.refreshRaftState p =
      { l with
        db := l.db.update p fun o =>
          { o with peerInfo := { o.peerInfo with raftState := state } } } := by
  unfold refreshRaftState
  split
  · exact .inl rfl
  · exact .inr ⟨_, rfl⟩

theorem tables_refreshRaftState (h : Tables es l) (p : ProducerPtr) :
    Tables es (l.refreshRaftState p) := by
  rcases refreshRaftState_cases l p with hkeep | ⟨state, hset⟩
  · rw [hkeep]
    exact h
  · rw [hset]
    exact h.update (fun o => rfl) fun _ _ o => rfl

/-- A raft state makes no difference to the ID of a record. -/
@[simp] theorem refreshRaftState_id (l : XMQLookupd) (p q : ProducerPtr) :
    ((l.refreshRaftState p).db.producer q).peerInfo.id = (l.db.producer q).peerInfo.id := by
  rcases refreshRaftState_cases l p with hkeep | ⟨state, hset⟩
  · rw [hkeep]
  · rw [hset]
    by_cases hqp : q = p
    · subst hqp
      simp
    · simp [RegistrationDB.update_ne _ hqp]

variable {opts : Options}

/-- The loop lists the nodes of its records. -/
theorem nodesLoop_ids (r : RangeOrder) (now : ℤ) {ps : List ProducerPtr} : ∀ {l : XMQLookupd},
    (nodesLoop opts r now ps l).1.map (fun node => node.peerInfo.id) =
      ps.map fun p => (l.db.producer p).peerInfo.id := by
  induction ps with
  | nil =>
      intro l
      rfl
  | cons p ps ih =>
      intro l
      simp [nodesLoop, ih]

theorem tables_nodesLoop (r : RangeOrder) (now : ℤ) {ps : List ProducerPtr} : ∀ {l : XMQLookupd},
    Tables es l → Tables es (nodesLoop opts r now ps l).2 := by
  induction ps with
  | nil =>
      intro l h
      exact h
  | cons p ps ih =>
      intro l h
      exact ih (tables_refreshRaftState h p)

/-! ### The table of the peers and the first `Identify` -/

theorem firstIdentified_snoc (id : String) (es : List Event) (e : Event) :
    firstIdentified id (es ++ [e]) = (firstIdentified id es).or (e.identifies id) := by
  simp [firstIdentified, List.findSome?_append]

/-- A request that identifies no node, or only one that is known, keeps the law of the tables. -/
theorem Tables.congr {es' : List Event} (h : Tables es l)
    (hes : ∀ id, firstIdentified id es' = firstIdentified id es) : Tables es' l := by
  have hfirst : (fun id => firstIdentified id es') = fun id => firstIdentified id es := funext hes
  constructor
  · rw [hfirst]
    exact h.records
  · intro id info hinfo
    rw [hes]
    exact h.peers id info hinfo
  · intro id t ht
    rw [hes] at ht
    exact h.known id t ht

theorem Records.mono {acc acc' : String → Option PeerInfo} (h : Records acc l)
    (hacc : ∀ id t, acc id = some t → acc' id = some t) : Records acc' l where
  first k id p hp := by
    obtain ⟨hid, hfirst, hlt⟩ := h.first k id p hp
    exact ⟨hid, hacc id _ hfirst, hlt⟩
  unique := h.unique
  client := h.client
  topics := h.topics

/-- A node without a peer has not identified. -/
theorem Tables.unidentified (h : Tables es l) {id : String} (hnone : l.peers.lookup id = none) :
    firstIdentified id es = none := by
  by_contra hsome
  obtain ⟨t, hfirst⟩ := Option.ne_none_iff_exists'.mp hsome
  have hknown := (h.known id t hfirst).1
  rw [hnone] at hknown
  cases hknown

/-- An accepted `Identify`. -/
theorem tables_accepted (h : Tables es l) {es' : List Event} (info : PeerInfo)
    (hnone : l.peers.lookup info.id = none)
    (hself : firstIdentified info.id es' = some (producerInfo info))
    (hother : ∀ id, id ≠ info.id → firstIdentified id es' = firstIdentified id es) :
    Tables es' ({ l with peers := l.peers.insert info.id info }.addProducer clientKey info) := by
  have hnew := h.unidentified hnone
  have hmono : ∀ id t, firstIdentified id es = some t → firstIdentified id es' = some t := by
    intro id t hfirst
    have hne : id ≠ info.id := by
      rintro rfl
      rw [hnew] at hfirst
      cases hfirst
    rw [hother id hne]
    exact hfirst
  have hrecords : Records (fun id => firstIdentified id es')
      { l with peers := l.peers.insert info.id info } := by
    have hold := h.records.mono hmono
    exact ⟨hold.first, hold.unique, hold.client, hold.topics⟩
  have hkey : ∀ topic, clientKey = topicKey topic → topic ≠ "*" :=
    fun topic htopic => absurd (congrArg Registration.category htopic).symm topic_ne_client
  refine ⟨hrecords.addProducer hself hkey, ?_, ?_⟩
  · intro id info' hinfo'
    rcases GoMap.lookup_insert_eq_some.mp hinfo' with ⟨rfl, rfl⟩ | ⟨-, hinfo'⟩
    · exact ⟨rfl, hself⟩
    · obtain ⟨hid, hfirst⟩ := h.peers id info' hinfo'
      exact ⟨hid, hmono id _ hfirst⟩
  · intro id t hfirst
    by_cases hne : id = info.id
    · subst hne
      refine ⟨by simp [XMQLookupd.addProducer], ?_⟩
      exact addProducer_known _ clientKey info
    · rw [hother id hne] at hfirst
      obtain ⟨hsome, p, hp⟩ := h.known id t hfirst
      refine ⟨?_, p, RegistrationDB.addProducer_lookup.mpr (.inr hp)⟩
      simpa [XMQLookupd.addProducer, AList.lookup_insert_ne hne] using hsome

theorem tables_identify (h : Tables es l) (e : Event) (remote : String) (req : PeerRequest)
    (hreq : e.request = .identify remote req) :
    Tables (es ++ [e]) (l.identify opts remote e.now req).2 := by
  obtain ⟨_ | peer⟩ := req
  · refine h.congr fun id => ?_
    simp [firstIdentified_snoc, Event.identifies, hreq]
  · simp only [identify]
    split
    · rename_i hmissing
      refine h.congr fun id => ?_
      simp [firstIdentified_snoc, Event.identifies, hreq, hmissing]
    · rename_i hfields
      split
      · rename_i hsome
        refine h.congr fun id => ?_
        obtain ⟨info, hinfo⟩ := Option.isSome_iff_exists.mp hsome
        have hfirst := (h.peers _ info hinfo).2
        rw [firstIdentified_snoc]
        by_cases hid : peer.id = id
        · subst hid
          rw [show firstIdentified peer.id es = some (producerInfo info) from hfirst,
            Option.some_or]
        · simp [Event.identifies, hreq, hid]
      · rename_i hnone
        have hnone : l.peers.lookup (identifyInfo remote peer).id = none := by simpa using hnone
        refine tables_accepted h { identifyInfo remote peer with lastUpdate := e.now } hnone ?_
          fun id hid => ?_
        · show firstIdentified peer.id (es ++ [e]) =
            some { identifyInfo remote peer with lastUpdate := e.now }
          have hnew : firstIdentified peer.id es = none := h.unidentified hnone
          rw [firstIdentified_snoc, hnew, Option.none_or]
          simp only [Event.identifies, hreq]
          rw [if_pos ⟨trivial, hfields⟩]
        · have hne : peer.id ≠ id := fun heq => hid heq.symm
          simp [firstIdentified_snoc, Event.identifies, hreq, hne]

/-- A request other than `Identify` identifies no node. -/
theorem firstIdentified_other {e : Event} (he : ∀ remote req, e.request ≠ .identify remote req)
    (id : String) (es : List Event) : firstIdentified id (es ++ [e]) = firstIdentified id es := by
  rw [firstIdentified_snoc]
  unfold Event.identifies
  split
  · rename_i remote peer hreq
    exact absurd hreq (he remote ⟨some peer⟩)
  · exact Option.or_none

/-- **The step**: a request keeps the tables. -/
theorem tables_serve (h : Tables es l) (e : Event) : Tables (es ++ [e]) (l.serve opts e) := by
  by_cases hidentify : ∃ remote req, e.request = .identify remote req
  · obtain ⟨remote, req, hreq⟩ := hidentify
    simp only [serve, hreq]
    exact tables_identify h e remote req hreq
  · have hother : ∀ remote req, e.request ≠ .identify remote req :=
      fun remote req hreq => hidentify ⟨remote, req, hreq⟩
    refine Tables.congr ?_ fun id => firstIdentified_other hother id es
    unfold serve
    cases hreq : e.request with
    | identify remote req => exact absurd hreq (hother remote req)
    | register req => exact tables_register h req
    | unregister req => exact tables_unregister h e.range req
    | ping req => exact tables_ping h req
    | createTopic req =>
      refine orKeep_cases h fun l' hl' => ?_
      obtain ⟨topicName, -, rfl⟩ := doCreateTopic_ok hl'
      exact h.shrink (shrinks_addRegistration _ _)
    | deleteTopic req =>
      refine orKeep_cases h fun l' hl' => ?_
      obtain ⟨topicName, db, rfl, rfl⟩ := doDeleteTopic_ok hl'
      exact h.shrink ((shrinks_removeFound _ _ e.range channel_ne_client).trans
        (shrinks_removeFound _ _ e.range topic_ne_client))
    | tombstoneTopicProducer req =>
      refine orKeep_cases h fun l' hl' => ?_
      obtain ⟨topicName, node, rfl⟩ := doTombstoneTopicProducer_ok hl'
      exact tables_tombstone h e.range e.now topicName node
    | createChannel req =>
      refine orKeep_cases h fun l' hl' => ?_
      obtain ⟨topicName, channelName, rfl⟩ := doCreateChannel_ok hl'
      have hadded := shrinks_addRegistration l.db (channelKey topicName channelName)
      exact h.shrink (hadded.trans (shrinks_addRegistration _ _))
    | deleteChannel req =>
      refine orKeep_cases h fun l' hl' => ?_
      obtain ⟨topicName, channelName, rfl⟩ := doDeleteChannel_ok hl'
      exact h.shrink (shrinks_removeFound _ _ e.range channel_ne_client)
    | getNodes => exact tables_nodesLoop e.range e.now h

/-- **The run**: the tables after any history. -/
theorem tables_serveAll (es : List Event) : Tables es (serveAll opts es) := by
  induction es using List.reverseRecOn with
  | nil => exact tables_new
  | append_singleton es e ih =>
      rw [serveAll_snoc]
      exact tables_serve ih e

end XMQLookupd

open XMQLookupd

/-! ### When the law holds -/

variable {opts : Options} {es : List Event} {now : ℤ}

/-- A record of a node is active exactly when the first `Identify` of the node is recent. -/
theorem active_iff {l : XMQLookupd} (h : Tables es l) {k : Registration} {id : String}
    {p : ProducerPtr} {first : PeerInfo} (hp : (l.db.producersOf k).lookup id = some p)
    (hfirst : firstIdentified id es = some first) (lifetime : ℤ) (ps : List ProducerPtr) :
    p ∈ l.db.filterByActive now opts.inactiveProducerTimeout lifetime ps ↔
      p ∈ ps ∧ now - first.lastUpdate ≤ opts.inactiveProducerTimeout ∧
        (l.db.producer p).isTombstoned lifetime now = false := by
  have hsame : some first = some _ := hfirst.symm.trans (h.records.first k id p hp).2.1
  injection hsame with hsame
  simp [RegistrationDB.filterByActive, hsame, producerInfo]

/-- The nodes in the list are those whose client record is active. -/
theorem mem_getNodes (l : XMQLookupd) (r : RangeOrder) (id : String) :
    (∃ node ∈ (l.getNodes opts r now).1, node.peerInfo.id = id) ↔
      ∃ p ∈ l.db.filterByActive now opts.inactiveProducerTimeout 0
        (l.db.findProducers r "client" "" ""),
        (l.db.producer p).peerInfo.id = id := by
  have hids : (l.getNodes opts r now).1.map (fun node => node.peerInfo.id) = _ :=
    nodesLoop_ids r now
  have hmem := congrArg (fun ids => id ∈ ids) hids
  simp only [List.mem_map, eq_iff_iff] at hmem
  exact hmem

theorem mem_lookupTopic {l : XMQLookupd} {r : RangeOrder} {topic id : String} {p : ProducerPtr}
    (hstar : topic ≠ "*") (hp : (l.db.producersOf (topicKey topic)).lookup id = some p) :
    l.lookupTopic opts r now topic = .ok
      ⟨(l.db.findRegistrations r "channel" topic "*").map Registration.subKey,
        l.db.peerInfos (l.db.filterByActive now opts.inactiveProducerTimeout opts.tombstoneLifetime
          (l.db.findProducers r "topic" topic ""))⟩ := by
  have hdirect : needFilter topic "" = false := by simp [needFilter, hstar]
  have hkey : topicKey topic ∈ l.db.findRegistrations r "topic" topic "" := by
    refine (RegistrationDB.mem_findRegistrations r).mpr ⟨?_, ?_⟩
    · cases hlook : l.db.registrationMap.lookup (topicKey topic) with
      | none => simp [RegistrationDB.producersOf, hlook] at hp
      | some producers => rfl
    · exact (RegistrationDB.isMatch_direct hdirect).mpr rfl
  have hlength := List.length_pos_of_mem hkey
  rw [lookupTopic, if_neg (by omega)]

/-- A record without a tombstone, of a node first identified within the timeout, is found. -/
theorem lookupTopic_found {l : XMQLookupd} (h : Tables es l) {topic id : String} {first : PeerInfo}
    (hfirst : firstIdentified id es = some first)
    (hrecent : now - first.lastUpdate ≤ opts.inactiveProducerTimeout)
    (hproducer : ProducerOf opts l now topic id) (r : RangeOrder) :
    ∃ answer, l.lookupTopic opts r now topic = .ok answer ∧
      ∃ info ∈ answer.producers, info.id = id := by
  obtain ⟨p, hp, htomb⟩ := hproducer
  have hstar := h.records.topics topic id p hp
  have hdirect : needFilter topic "" = false := by simp [needFilter, hstar]
  have hfound := (RegistrationDB.mem_findProducers_direct r hdirect).mpr ⟨id, hp⟩
  have hactive := (active_iff h hp hfirst opts.tombstoneLifetime _).mpr ⟨hfound, hrecent, htomb⟩
  exact ⟨_, mem_lookupTopic hstar hp, _, List.mem_map.mpr ⟨p, hactive, rfl⟩,
    (h.records.first _ id p hp).1⟩

/-- **Keep-alive.** A node that is heard of is found exactly while every node that is heard of was
also first identified within the timeout: no later message writes a time that a lookup reads. -/
theorem keptAlive_iff (opts : Options) (es : List Event) (now : ℤ) :
    KeptAlive opts es now ↔
      ∀ id first, HeardOf opts es now id → firstIdentified id es = some first →
        now - first.lastUpdate ≤ opts.inactiveProducerTimeout := by
  have htables : Tables es (serveAll opts es) := tables_serveAll es
  have hclient : needFilter "" "" = false := by decide
  constructor
  · intro hkept id first hheard hfirst
    have hlisted := hkept.nodes .id id hheard (by rw [hfirst]; rfl)
    obtain ⟨p, hp, hid⟩ := (mem_getNodes _ _ id).mp hlisted
    have hfound := (List.mem_filter.mp hp).1
    obtain ⟨id', hp'⟩ := (RegistrationDB.mem_findProducers_direct .id hclient).mp hfound
    have hsame : id' = id := (htables.records.first _ id' p hp').1.symm.trans hid
    subst hsame
    exact ((active_iff htables hp' hfirst 0 _).mp hp).2.1
  · intro hrecent
    constructor
    · intro r topic id hheard ⟨p, hp, htomb⟩
      have hfirst := (htables.records.first _ id p hp).2.1
      exact lookupTopic_found htables hfirst (hrecent id _ hheard hfirst) ⟨p, hp, htomb⟩ r
    · intro r id hheard hfirst
      obtain ⟨first, hfirst⟩ := Option.isSome_iff_exists.mp hfirst
      obtain ⟨-, p, hp⟩ := htables.known id first hfirst
      obtain ⟨hid, -, -⟩ := htables.records.first _ id p hp
      have hfound := (RegistrationDB.mem_findProducers_direct r hclient).mpr ⟨id, hp⟩
      have htomb : ((serveAll opts es).db.producer p).isTombstoned 0 now = false := by
        simp [Producer.isTombstoned, htables.records.client id p hp]
      have hactive := (active_iff htables hp hfirst 0 _).mpr
        ⟨hfound, hrecent id first hheard hfirst, htomb⟩
      exact (mem_getNodes _ _ id).mpr ⟨p, hactive, hid⟩

/-! ### A node that pings -/

def keptOptions : Options := ⟨300, 45, "lookupd", 5155, 5156, "lookupd", "1.0"⟩

def pingingNode : PeerInfo := ⟨"n1", "", "host", "10.0.0.1", 5150, 5151, "1.0", 0, ""⟩

/-- A node identifies, registers a topic and goes on to ping. -/
def pinged : List Event :=
  [⟨0, .id, .identify "10.0.0.1:6000" ⟨some pingingNode⟩⟩, ⟨1, .id, .register ⟨"n1", "orders", ""⟩⟩,
    ⟨350, .id, .ping ⟨some pingingNode⟩⟩]

/-- The node has just been heard of, and its topic has no producers. -/
theorem pinging_node_lost : ¬ KeptAlive keptOptions pinged 360 := by
  intro h
  have hheard : HeardOf keptOptions pinged 360 "n1" := ⟨350, by decide, by decide⟩
  have hproducer : ProducerOf keptOptions (serveAll keptOptions pinged) 360 "orders" "n1" :=
    ⟨1, by decide, by decide⟩
  obtain ⟨answer, hanswer, info, hinfo, -⟩ := h.lookup .id "orders" "n1" hheard hproducer
  have hempty : ((serveAll keptOptions pinged).lookupTopic keptOptions .id 360 "orders").map
      LookupAnswer.producers = .ok [] := by decide
  rw [hanswer] at hempty
  injection hempty with hempty
  rw [hempty] at hinfo
  cases hinfo

end Xmq.Lookupd
