import Xmq.KeepAlive

/-!
# The keys of the registration database

A channel belongs to a topic, and a topic to nodes that have identified. The database keeps the
three kinds of registrations apart, and the handlers change them one by one.

* The law says how the keys and the producers of the three kinds lie in each other, after every
  request of a history.
* The producers always do. The keys do as long as no ephemeral topic loses its last producer while
  it has channels: `Unregister` takes the node out of the channels and removes the topic, and leaves
  the keys of the channels behind.
-/

namespace Xmq.Lookupd

open GoMap (RangeOrder)
open Lookup (PeerInfo PeerRequest RegisterRequest)
open XMQLookupd

/-! ### The law -/

/-- Every channel is of a topic, and its producers are producers of the topic and clients. -/
structure KeyInvariant (l : XMQLookupd) : Prop where
  topic : ∀ t c, channelKey t c ∈ l.db.registrationMap → topicKey t ∈ l.db.registrationMap
  producers : ∀ t c, ∀ id ∈ l.db.producersOf (channelKey t c),
    id ∈ l.db.producersOf (topicKey t) ∧ id ∈ l.db.producersOf clientKey

/-- The request is an `Unregister` of an ephemeral topic by the last of its producers, and the topic
has a channel. -/
def OrphansChannel (l : XMQLookupd) (e : Event) : Prop :=
  ∃ req info c, e.request = .unregister req ∧ l.checkRegister req = .ok info ∧
    req.channelName = "" ∧ req.topicName.endsWith "#ephemeral" = true ∧
    (∀ id ∈ l.db.producersOf (topicKey req.topicName), id = info.id) ∧
    channelKey req.topicName c ∈ l.db.registrationMap

namespace RegistrationDB

variable {db : RegistrationDB} {ks : List Registration} {k k' : Registration} {id id' : String}

/-- What a pass of a loop keeps under a condition on its item, the loop keeps under the conditions
on all items. -/
theorem foldl_iff {β γ : Type} {f : β → γ → β} {P : β → Prop} {C : γ → Prop}
    (h : ∀ b c, P (f b c) ↔ C c ∧ P b) (cs : List γ) : ∀ b, P (cs.foldl f b) ↔
      (∀ c ∈ cs, C c) ∧ P b := by
  induction cs with
  | nil => simp
  | cons c cs ih =>
      intro b
      rw [List.foldl_cons, ih, h, List.forall_mem_cons]
      tauto

theorem removeRegistrations_registered :
    k' ∈ (ks.foldl removeRegistration db).registrationMap ↔ k' ∉ ks ∧ k' ∈ db.registrationMap := by
  refine (foldl_iff (f := removeRegistration) (C := (k' ≠ ·)) (P := (k' ∈ ·.registrationMap))
    (fun _ _ => removeRegistration_registered) ks db).trans (and_congr_left fun _ => ?_)
  exact List.forall_mem_ne

theorem removeRegistrations_mem :
    id' ∈ (ks.foldl removeRegistration db).producersOf k' ↔ k' ∉ ks ∧ id' ∈ db.producersOf k' := by
  refine (foldl_iff (f := removeRegistration) (C := (k' ≠ ·)) (P := (id' ∈ ·.producersOf k'))
    (fun _ _ => removeRegistration_mem) ks db).trans (and_congr_left fun _ => ?_)
  exact List.forall_mem_ne

theorem removeProducers_registered :
    k' ∈ (ks.foldl (fun db k => (db.removeProducer k id).2) db).registrationMap ↔
      k' ∈ db.registrationMap := by
  refine (foldl_iff (f := fun db k => (db.removeProducer k id).2) (C := fun _ => True)
    (P := (k' ∈ ·.registrationMap)) (fun _ _ => ?_) ks db).trans ?_
  · rw [removeProducer_registered, true_and]
  · simp

theorem removeProducers_mem :
    id' ∈ (ks.foldl (fun db k => (db.removeProducer k id).2) db).producersOf k' ↔
      ¬ (k' ∈ ks ∧ id' = id) ∧ id' ∈ db.producersOf k' := by
  refine (foldl_iff (f := fun db k => (db.removeProducer k id).2)
    (C := fun k => ¬ (k' = k ∧ id' = id)) (P := (id' ∈ ·.producersOf k'))
    (fun _ _ => removeProducer_mem) ks db).trans (and_congr_left fun _ => ?_)
  constructor
  · intro h ⟨hk, hid⟩
    exact h k' hk ⟨rfl, hid⟩
  · rintro h k hk ⟨rfl, hid⟩
    exact h ⟨hk, hid⟩

end RegistrationDB

/-! ### What the calls of a node do to the keys and the producers -/

variable {db : RegistrationDB} {l : XMQLookupd} {k k' : Registration} {info : PeerInfo}
  {id id' label : String} {r : RangeOrder} {req : RegisterRequest}

theorem channelKey_ne_topicKey (t c t' : String) : channelKey t c ≠ topicKey t' :=
  fun h => channel_ne_topic (congrArg Registration.category h)

theorem channelKey_inj {t c t' c' : String} : channelKey t c = channelKey t' c' ↔
    t = t' ∧ c = c' := by
  simp [channelKey]

theorem topicKey_inj {t t' : String} : topicKey t = topicKey t' ↔ t = t' := by
  simp [topicKey]

theorem addProducer_registered : k ∈ (l.addProducer k' info).db.registrationMap ↔
    k = k' ∨ k ∈ l.db.registrationMap :=
  RegistrationDB.addProducer_registered

theorem addProducer_mem : id ∈ (l.addProducer k' info).db.producersOf k ↔
    (k = k' ∧ id = info.id) ∨ id ∈ l.db.producersOf k := by
  rw [XMQLookupd.addProducer, RegistrationDB.addProducer_mem, RegistrationDB.update_self]
  rfl

/-- The registrations that a `Register` is for. -/
def Adds (req : RegisterRequest) (k : Registration) : Prop :=
  k = topicKey req.topicName ∨
    req.channelName ≠ "" ∧ k = channelKey req.topicName req.channelName

theorem register_registered (h : l.checkRegister req = .ok info) :
    k ∈ (l.register req).2.db.registrationMap ↔
      Adds req k ∨ k ∈ l.db.registrationMap := by
  simp only [register, h, addProducer_registered, Adds, or_assoc]
  refine or_congr_right ?_
  split
  · rename_i hchannel
    simp [addProducer_registered, hchannel]
  · rename_i hchannel
    simp [hchannel]

theorem register_mem (h : l.checkRegister req = .ok info) :
    id ∈ (l.register req).2.db.producersOf k ↔
      (Adds req k ∧ id = info.id) ∨ id ∈ l.db.producersOf k := by
  simp only [register, h, addProducer_mem, Adds, or_and_right, or_assoc]
  refine or_congr_right ?_
  split
  · rename_i hchannel
    simp [addProducer_mem, hchannel]
  · rename_i hchannel
    simp [hchannel]

theorem removeProducer_mem : id' ∈ (l.removeProducer k id label).db.producersOf k' ↔
    ¬ (k' = k ∧ id' = id) ∧ id' ∈ l.db.producersOf k' := by
  unfold XMQLookupd.removeProducer
  simp only
  split
  · rename_i hlast
    rw [RegistrationDB.removeRegistration_mem, RegistrationDB.removeProducer_mem]
    have hall := RegistrationDB.removeProducer_left.mp hlast.1
    constructor
    · exact fun h => h.2
    · rintro ⟨hne, hmem⟩
      refine ⟨?_, hne, hmem⟩
      rintro rfl
      exact hne ⟨rfl, hall id' hmem⟩
  · exact RegistrationDB.removeProducer_mem

/-- A registration goes when it is that of an ephemeral name and its last producer goes. -/
theorem removeProducer_registered : k' ∈ (l.removeProducer k id label).db.registrationMap ↔
    ¬ (k' = k ∧ label.endsWith "#ephemeral" = true ∧ ∀ id' ∈ l.db.producersOf k, id' = id) ∧
      k' ∈ l.db.registrationMap := by
  unfold XMQLookupd.removeProducer
  simp only [RegistrationDB.removeProducer_left]
  split
  · rename_i hlast
    rw [RegistrationDB.removeRegistration_registered, RegistrationDB.removeProducer_registered]
    refine and_congr_left fun _ => not_congr ?_
    exact ⟨fun hk => ⟨hk, hlast.2, hlast.1⟩, fun h => h.1⟩
  · rename_i hmore
    rw [RegistrationDB.removeProducer_registered, iff_and_self]
    exact fun _ h => hmore ⟨h.2.2, h.2.1⟩

/-- The registration that an `Unregister` names. -/
def unregisterKey (req : RegisterRequest) : Registration :=
  if req.channelName ≠ "" then channelKey req.topicName req.channelName
  else topicKey req.topicName

/-- The last part of that name. -/
def unregisterName (req : RegisterRequest) : String :=
  if req.channelName ≠ "" then req.channelName else req.topicName

/-- The registrations that an `Unregister` takes its node out of: with a topic its channels. -/
def Removes (req : RegisterRequest) (k : Registration) : Prop :=
  k = unregisterKey req ∨
    req.channelName = "" ∧ k.category = "channel" ∧ k.key = req.topicName

theorem mem_channelsOf (hvalid : isValidTopicName req.topicName = true) :
    k ∈ l.db.findRegistrations r "channel" req.topicName "*" ↔
      k ∈ l.db.registrationMap ∧ k.category = "channel" ∧ k.key = req.topicName := by
  have hstar : req.topicName ≠ "*" := topicKey_ne_star hvalid rfl
  rw [RegistrationDB.mem_findRegistrations, AList.lookup_isSome]
  simp [Registration.isMatch, hstar]

theorem unregister_mem (h : l.checkRegister req = .ok info) :
    id ∈ (l.unregister r req).2.db.producersOf k ↔
      ¬ (Removes req k ∧ id = info.id) ∧ id ∈ l.db.producersOf k := by
  have hvalid := (checkRegister_ok h).2
  simp only [unregister, h, Removes, unregisterKey]
  split
  · rename_i hchannel
    rw [removeProducer_mem]
    simp [hchannel]
  · rename_i hchannel
    rw [removeProducer_mem, RegistrationDB.removeProducers_mem, mem_channelsOf hvalid]
    have hthere : id ∈ l.db.producersOf k → k ∈ l.db.registrationMap :=
      RegistrationDB.registered_of_mem
    simp only [not_not] at hchannel
    simp only [hchannel, true_and]
    tauto

theorem unregister_registered (h : l.checkRegister req = .ok info) :
    k ∈ (l.unregister r req).2.db.registrationMap ↔
      ¬ (k = unregisterKey req ∧
          (unregisterName req).endsWith "#ephemeral" = true ∧
          ∀ id ∈ l.db.producersOf k, id = info.id) ∧ k ∈ l.db.registrationMap := by
  have hvalid := (checkRegister_ok h).2
  simp only [unregister, h, unregisterKey, unregisterName]
  split
  · rename_i hchannel
    rw [removeProducer_registered]
    refine and_congr_left fun _ => not_congr (and_congr_right ?_)
    rintro rfl
    rfl
  · rename_i hchannel
    rw [removeProducer_registered, RegistrationDB.removeProducers_registered]
    refine and_congr_left fun _ => not_congr (and_congr_right ?_)
    rintro rfl
    refine and_congr_right fun _ => forall_congr' fun id => imp_congr_left ?_
    rw [RegistrationDB.removeProducers_mem, mem_channelsOf hvalid]
    refine and_iff_right fun hfound => ?_
    exact channel_ne_topic hfound.1.2.1.symm

/-! ### Each request keeps the keys together -/

/-- The part of the law that says nothing of the clients. -/
structure Nested (db : RegistrationDB) : Prop where
  topic : ∀ t c, channelKey t c ∈ db.registrationMap → topicKey t ∈ db.registrationMap
  producers : ∀ t c, ∀ id ∈ db.producersOf (channelKey t c), id ∈ db.producersOf (topicKey t)

/-- Only the map counts. -/
theorem Nested.congr {db' : RegistrationDB} (h : Nested db)
    (hmap : db'.registrationMap = db.registrationMap) : Nested db' := by
  constructor
  · rw [hmap]
    exact h.topic
  · intro t c id
    simp only [RegistrationDB.producersOf, hmap]
    exact h.producers t c id

theorem Nested.addTopic (h : Nested db) (t : String) :
    Nested (db.addRegistration (topicKey t)) where
  topic t' c hc := by
    rw [RegistrationDB.addRegistration_registered] at hc ⊢
    rcases hc with hc | hc
    · exact absurd hc (channelKey_ne_topicKey t' c t)
    · exact .inr (h.topic t' c hc)
  producers t' c id hid := by
    rw [RegistrationDB.addRegistration_producersOf] at hid ⊢
    exact h.producers t' c id hid

theorem Nested.addChannel (h : Nested db) (t c : String) :
    Nested ((db.addRegistration (channelKey t c)).addRegistration (topicKey t)) where
  topic t' c' hc := by
    simp only [RegistrationDB.addRegistration_registered, channelKey_inj, topicKey_inj] at hc ⊢
    rcases hc with hc | ⟨ht, -⟩ | hc
    · exact absurd hc (channelKey_ne_topicKey t' c' t)
    · exact .inl ht
    · exact .inr (.inr (h.topic t' c' hc))
  producers t' c' id hid := by
    simp only [RegistrationDB.addRegistration_producersOf] at hid ⊢
    exact h.producers t' c' id hid

/-- A client registers under no topic and no channel. -/
theorem Nested.addClient (h : Nested l.db) (info : PeerInfo) :
    Nested (l.addProducer clientKey info).db where
  topic t c hc := by
    rw [addProducer_registered] at hc ⊢
    rcases hc with hc | hc
    · exact absurd (congrArg Registration.category hc) channel_ne_client
    · exact .inr (h.topic t c hc)
  producers t c id hid := by
    rw [addProducer_mem] at hid ⊢
    rcases hid with ⟨hk, -⟩ | hid
    · exact absurd (congrArg Registration.category hk) channel_ne_client
    · exact .inr (h.producers t c id hid)

/-- `Register` adds a channel together with its topic. -/
theorem Nested.register (h : Nested l.db) (req : RegisterRequest) :
    Nested (l.register req).2.db := by
  cases hcheck : l.checkRegister req with
  | error err =>
    rw [show (l.register req).2 = l by simp only [XMQLookupd.register, hcheck]]
    exact h
  | ok info =>
    have htopic : ∀ t c, Adds req (channelKey t c) → Adds req (topicKey t) := by
      rintro t c (hk | ⟨-, hk⟩)
      · exact absurd hk (channelKey_ne_topicKey t c req.topicName)
      · rw [(channelKey_inj.mp hk).1]
        exact .inl rfl
    constructor
    · intro t c hc
      rw [register_registered hcheck] at hc ⊢
      exact hc.imp (htopic t c) (h.topic t c)
    · intro t c id hid
      rw [register_mem hcheck] at hid ⊢
      exact hid.imp (And.imp_left (htopic t c)) (h.producers t c id)

/-- `Unregister` takes a node out of the channels before it takes it out of the topic; the channels
keep their keys. -/
theorem Nested.unregister (h : Nested l.db) (r : RangeOrder)
    (hkeep : ∀ info c, l.checkRegister req = .ok info → req.channelName = "" →
      req.topicName.endsWith "#ephemeral" = true →
      (∀ id ∈ l.db.producersOf (topicKey req.topicName), id = info.id) →
      channelKey req.topicName c ∉ l.db.registrationMap) :
    Nested (l.unregister r req).2.db := by
  cases hcheck : l.checkRegister req with
  | error err =>
    rw [show (l.unregister r req).2 = l by simp only [XMQLookupd.unregister, hcheck]]
    exact h
  | ok info =>
    constructor
    · intro t c hc
      rw [unregister_registered hcheck] at hc ⊢
      refine ⟨?_, h.topic t c hc.2⟩
      rintro ⟨hk, hephemeral, hlast⟩
      by_cases hchannel : req.channelName = ""
      · simp only [unregisterKey, unregisterName, hchannel, ne_eq, not_true_eq_false, if_false,
          topicKey_inj] at hk hephemeral
        subst hk
        exact hkeep info c hcheck hchannel hephemeral hlast hc.2
      · rw [unregisterKey, if_pos hchannel] at hk
        exact channelKey_ne_topicKey _ _ _ hk.symm
    · intro t c id hid
      rw [unregister_mem hcheck] at hid ⊢
      refine ⟨?_, h.producers t c id hid.2⟩
      rintro ⟨hk | ⟨-, hcategory, -⟩, hinfo⟩
      · by_cases hchannel : req.channelName = ""
        · rw [unregisterKey, if_neg (not_not.mpr hchannel), topicKey_inj] at hk
          exact hid.1 ⟨.inr ⟨hchannel, rfl, hk⟩, hinfo⟩
        · rw [unregisterKey, if_pos hchannel] at hk
          exact channelKey_ne_topicKey _ _ _ hk.symm
      · exact channel_ne_topic hcategory.symm

/-- `doDeleteTopic` takes the channels away with the topic. -/
theorem Nested.deleteTopic (h : Nested db) (r : RangeOrder) (topicName : String)
    (db' : RegistrationDB)
    (hdb' : db' = (db.findRegistrations r "channel" topicName "*").foldl .removeRegistration db) :
    Nested ((db'.findRegistrations r "topic" topicName "").foldl .removeRegistration db') := by
  have hchannels : ∀ t c, channelKey t c ∈ db'.registrationMap →
      topicKey t ∉ db'.findRegistrations r "topic" topicName "" := by
    intro t c hc htopic
    rw [hdb', RegistrationDB.removeRegistrations_registered,
      RegistrationDB.mem_findRegistrations] at hc
    have hmatch := ((RegistrationDB.mem_findRegistrations r).mp htopic).2
    refine hc.1 ⟨AList.lookup_isSome.mpr hc.2, ?_⟩
    simp only [Registration.isMatch, topicKey, channelKey, Bool.and_eq_true, Bool.or_eq_true,
      decide_eq_true_eq] at hmatch ⊢
    exact ⟨⟨trivial, hmatch.1.2⟩, .inl trivial⟩
  have htopics : ∀ t, topicKey t ∉ db.findRegistrations r "channel" topicName "*" := by
    intro t ht
    have hcategory := RegistrationDB.category_of_isMatch
      ((RegistrationDB.mem_findRegistrations r).mp ht).2
    exact channel_ne_topic hcategory.symm
  constructor
  · intro t c hc
    rw [RegistrationDB.removeRegistrations_registered] at hc ⊢
    refine ⟨hchannels t c hc.2, ?_⟩
    rw [hdb', RegistrationDB.removeRegistrations_registered] at hc ⊢
    exact ⟨htopics t, h.topic t c hc.2.2⟩
  · intro t c id hid
    rw [RegistrationDB.removeRegistrations_mem] at hid ⊢
    refine ⟨hchannels t c (RegistrationDB.registered_of_mem hid.2), ?_⟩
    rw [hdb', RegistrationDB.removeRegistrations_mem] at hid ⊢
    exact ⟨htopics t, h.producers t c id hid.2.2⟩

theorem Nested.deleteChannels (h : Nested db) {ks : List Registration}
    (hks : ∀ t, topicKey t ∉ ks) : Nested (ks.foldl .removeRegistration db) where
  topic t c hc := by
    rw [RegistrationDB.removeRegistrations_registered] at hc ⊢
    exact ⟨hks t, h.topic t c hc.2⟩
  producers t c id hid := by
    rw [RegistrationDB.removeRegistrations_mem] at hid ⊢
    exact ⟨hks t, h.producers t c id hid.2⟩

/-! ### Requests that leave the keys alone -/

theorem tombstoneAll_registrationMap (now : ℤ) (node : String) (ps : List ProducerPtr) :
    ∀ db : RegistrationDB, (tombstoneAll now node db ps).registrationMap = db.registrationMap := by
  induction ps with
  | nil =>
      intro db
      rfl
  | cons p ps ih =>
      intro db
      simp only [tombstoneAll, List.foldl_cons]
      split
      · exact ih _
      · exact ih db

theorem refreshRaftState_registrationMap (l : XMQLookupd) (p : ProducerPtr) :
    (l.refreshRaftState p).db.registrationMap = l.db.registrationMap := by
  rcases refreshRaftState_cases l p with hkeep | ⟨state, hset⟩
  · rw [hkeep]
  · rw [hset]
    rfl

theorem nodesLoop_registrationMap (opts : Options) (r : RangeOrder) (now : ℤ)
    (ps : List ProducerPtr) : ∀ l : XMQLookupd,
      (nodesLoop opts r now ps l).2.db.registrationMap = l.db.registrationMap := by
  induction ps with
  | nil =>
      intro l
      rfl
  | cons p ps ih =>
      intro l
      simp only [nodesLoop]
      rw [ih, refreshRaftState_registrationMap]

theorem Nested.ping (h : Nested l.db) (req : PeerRequest) : Nested (l.ping req).2.db := by
  unfold XMQLookupd.ping
  repeat' split
  all_goals exact h

theorem Nested.identify (h : Nested l.db) (opts : Options) (remote : String) (now : ℤ)
    (req : PeerRequest) : Nested (l.identify opts remote now req).2.db := by
  unfold XMQLookupd.identify
  split
  · exact h
  · simp only
    split
    · exact h
    · split
      · exact h
      · exact Nested.addClient h _

/-! ### The run -/

variable {opts : Options} {e : Event}

/-- **The step**: a request keeps the keys together unless it orphans a channel. -/
theorem Nested.serve (h : Nested l.db) (he : ¬ OrphansChannel l e) :
    Nested (l.serve opts e).db := by
  unfold XMQLookupd.serve
  cases hreq : e.request with
  | identify remote req => exact h.identify opts remote e.now req
  | register req => exact h.register req
  | unregister req =>
    refine h.unregister e.range fun info c hcheck hchannel hephemeral hlast hc => ?_
    exact he ⟨req, info, c, hreq, hcheck, hchannel, hephemeral, hlast, hc⟩
  | ping req => exact h.ping req
  | createTopic req =>
    refine orKeep_cases (P := fun l => Nested l.db) h fun l' hl' => ?_
    obtain ⟨topicName, -, rfl⟩ := doCreateTopic_ok hl'
    exact h.addTopic topicName
  | deleteTopic req =>
    refine orKeep_cases (P := fun l => Nested l.db) h fun l' hl' => ?_
    obtain ⟨topicName, db, hdb, rfl⟩ := doDeleteTopic_ok hl'
    exact h.deleteTopic e.range topicName db hdb
  | tombstoneTopicProducer req =>
    refine orKeep_cases (P := fun l => Nested l.db) h fun l' hl' => ?_
    obtain ⟨topicName, node, rfl⟩ := doTombstoneTopicProducer_ok hl'
    exact h.congr (tombstoneAll_registrationMap e.now node _ l.db)
  | createChannel req =>
    refine orKeep_cases (P := fun l => Nested l.db) h fun l' hl' => ?_
    obtain ⟨topicName, channelName, rfl⟩ := doCreateChannel_ok hl'
    exact h.addChannel topicName channelName
  | deleteChannel req =>
    refine orKeep_cases (P := fun l => Nested l.db) h fun l' hl' => ?_
    obtain ⟨topicName, channelName, rfl⟩ := doDeleteChannel_ok hl'
    refine h.deleteChannels fun t ht => ?_
    have hcategory := RegistrationDB.category_of_isMatch
      ((RegistrationDB.mem_findRegistrations e.range).mp ht).2
    exact channel_ne_topic hcategory.symm
  | getNodes => exact h.congr (nodesLoop_registrationMap opts e.range e.now _ l)

/-- A request that orphans a channel leaves the key of the channel and takes that of the topic. -/
theorem not_nested_of_orphansChannel (he : OrphansChannel l e) :
    ¬ Nested (l.serve opts e).db := by
  obtain ⟨req, info, c, hreq, hcheck, hchannel, hephemeral, hlast, hc⟩ := he
  intro h
  have hkey : unregisterKey req = topicKey req.topicName := by simp [unregisterKey, hchannel]
  have hname : unregisterName req = req.topicName := by simp [unregisterName, hchannel]
  have hkept : channelKey req.topicName c ∈ (l.serve opts e).db.registrationMap := by
    simp only [XMQLookupd.serve, hreq]
    rw [unregister_registered hcheck, hkey]
    exact ⟨fun hk => channelKey_ne_topicKey _ _ _ hk.1, hc⟩
  have htopic := h.topic req.topicName c hkept
  simp only [XMQLookupd.serve, hreq] at htopic
  rw [unregister_registered hcheck, hkey, hname] at htopic
  exact htopic.1 ⟨rfl, hephemeral, hlast⟩

theorem nested_new : Nested XMQLookupd.new.db where
  topic t c hc := absurd hc (AList.notMem_empty _)
  producers t c id hid := by
    simp [RegistrationDB.producersOf, XMQLookupd.new, RegistrationDB.new] at hid

/-- The producers of a channel have identified. -/
theorem keyInvariant_of_nested {es : List Event} (ht : Tables es l) (h : Nested l.db) :
    KeyInvariant l where
  topic := h.topic
  producers t c id hid := by
    refine ⟨h.producers t c id hid, ?_⟩
    obtain ⟨p, hp⟩ := RegistrationDB.mem_producersOf.mp hid
    obtain ⟨-, hp⟩ := ht.known id _ (ht.records.first _ id p hp).2.1
    exact RegistrationDB.mem_producersOf.mpr hp

/-- **The keys.** The law holds after every request of a history exactly when no request orphans a
channel. -/
theorem keyInvariant_iff (opts : Options) (es : List Event) :
    (∀ hist, hist <+: es → KeyInvariant (serveAll opts hist)) ↔
      ∀ hist e, hist ++ [e] <+: es → ¬ OrphansChannel (serveAll opts hist) e := by
  constructor
  · intro h hist e he horphan
    have hkeys := h (hist ++ [e]) he
    rw [serveAll_snoc] at hkeys
    exact not_nested_of_orphansChannel horphan
      ⟨hkeys.topic, fun t c id hid => (hkeys.producers t c id hid).1⟩
  · intro h hist
    suffices hist <+: es → Nested (serveAll opts hist).db from
      fun hpre => keyInvariant_of_nested (tables_serveAll hist) (this hpre)
    induction hist using List.reverseRecOn with
    | nil => exact fun _ => nested_new
    | append_singleton hist e ih =>
        intro hpre
        rw [serveAll_snoc]
        exact (ih ((List.prefix_append hist [e]).trans hpre)).serve (h hist e hpre)

/-! ### An ephemeral topic with a channel -/

/-- A node registers a channel of an ephemeral topic and takes the topic back. -/
def takenBack : List Event :=
  [⟨0, .id, .identify "10.0.0.1:6000" ⟨some pingingNode⟩⟩,
    ⟨1, .id, .register ⟨"n1", "trace#ephemeral", "tail"⟩⟩,
    ⟨2, .id, .unregister ⟨"n1", "trace#ephemeral", ""⟩⟩]

/-- The channel is still there, and its topic is not. -/
theorem channel_without_topic : ¬ KeyInvariant (serveAll keptOptions takenBack) := by
  intro h
  have hkept : channelKey "trace#ephemeral" "tail" ∈
      (serveAll keptOptions takenBack).db.registrationMap := by decide +kernel
  have hgone : topicKey "trace#ephemeral" ∉
      (serveAll keptOptions takenBack).db.registrationMap := by decide +kernel
  exact hgone (h.topic "trace#ephemeral" "tail" hkept)

end Xmq.Lookupd
