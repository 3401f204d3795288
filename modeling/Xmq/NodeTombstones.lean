import Xmq.RegistrationKeys

/-!
# Tombstones in the list of nodes

`getNodes` lists every active node with its topics, and beside each topic whether the node is
tombstoned there. The record of a node under its topic is sought by the pointer of the record that
`Identify` made, and `Register` makes a record of its own.

* The producers of a topic are looked up once for all nodes and kept in a map; the loop with the map
  lists what the loop without it does.
* The topics are right in every state. The flags are right exactly while no node in the list has a
  topic with a tombstone that still counts.
-/

namespace Xmq.Lookupd

open GoMap (RangeOrder)
open Lookup (PeerInfo)

namespace XMQLookupd

/-! ### The loop with the map of the producers -/

/-- The producers of each topic that was looked up. -/
abbrev TopicProducersMap := GoMap String (List ProducerPtr)

variable (l : XMQLookupd) (opts : Options) (r : RangeOrder) (now : ℤ)

def cacheTopic (cache : TopicProducersMap) (topic : String) : TopicProducersMap :=
  match cache.lookup topic with
  | none => cache.insert topic (l.db.findProducers r "topic" topic "")
  | some _ => cache

/-- The loop over the topics of the node with the record `p`. -/
def tombstonesLoop (p : ProducerPtr) : List String → TopicProducersMap →
    List Bool × TopicProducersMap
  | [], cache => ([], cache)
  | t :: ts, cache =>
    let cache := l.cacheTopic r cache t
    let topicProducers := (cache.lookup t).getD []
    let tombstone :=
      match topicProducers.find? fun tp => tp = p with
      | some tp => (l.db.producer tp).isTombstoned opts.tombstoneLifetime now
      | none => false
    let rest := tombstonesLoop p ts cache
    (tombstone :: rest.1, rest.2)

/-- The topics of a node. -/
def topicsOf (id : String) : List String :=
  (filterRegistrations (l.db.lookupRegistrations r id) "topic" "*" "").map Registration.key

/-- The loop over the nodes. -/
def cachedLoop : List ProducerPtr → XMQLookupd → TopicProducersMap → List NodeInfo × XMQLookupd
  | [], l, _ => ([], l)
  | p :: ps, l, cache =>
    let topics := l.topicsOf r (l.db.producer p).peerInfo.id
    let tombstones := l.tombstonesLoop opts r now p topics cache
    let refreshed := l.refreshRaftState p
    let rest := cachedLoop ps refreshed tombstones.2
    (⟨(refreshed.db.producer p).peerInfo, tombstones.1, topics⟩ :: rest.1, rest.2)

/-- `getNodes`, with the map that its nodes share. -/
def getNodesCached : List NodeInfo × XMQLookupd :=
  cachedLoop opts r now
    (l.db.filterByActive now opts.inactiveProducerTimeout 0 (l.db.findProducers r "client" "" ""))
    l ∅

variable {l opts r now} {p q : ProducerPtr} {cache : TopicProducersMap} {id : String}

/-- The map holds what a look-up would find now. -/
def Agrees (l : XMQLookupd) (r : RangeOrder) (cache : TopicProducersMap) : Prop :=
  ∀ t ps, cache.lookup t = some ps → ps = l.db.findProducers r "topic" t ""

theorem Agrees.cacheTopic (h : Agrees l r cache) (t : String) :
    Agrees l r (l.cacheTopic r cache t) ∧
      (l.cacheTopic r cache t).lookup t = some (l.db.findProducers r "topic" t "") := by
  unfold XMQLookupd.cacheTopic
  split
  · refine ⟨fun t' ps hps => ?_, AList.lookup_insert cache⟩
    rcases GoMap.lookup_insert_eq_some.mp hps with ⟨rfl, rfl⟩ | ⟨-, hps⟩
    · rfl
    · exact h t' ps hps
  · rename_i ps hps
    exact ⟨h, hps.trans (congrArg some (h t ps hps))⟩

theorem tombstonesLoop_eq (p : ProducerPtr) (ts : List String) :
    ∀ {cache : TopicProducersMap}, Agrees l r cache →
      (l.tombstonesLoop opts r now p ts cache).1 = ts.map (l.tombstoneOf opts r now p) ∧
        Agrees l r (l.tombstonesLoop opts r now p ts cache).2 := by
  induction ts with
  | nil =>
      intro cache h
      exact ⟨rfl, h⟩
  | cons t ts ih =>
      intro cache h
      obtain ⟨hagrees, hfound⟩ := h.cacheTopic t
      obtain ⟨hrest, hlast⟩ := ih hagrees
      refine ⟨?_, hlast⟩
      simp only [tombstonesLoop, hfound, Option.getD_some, hrest, List.map_cons]
      rfl

/-- A raft state makes no difference to the producers of a topic. -/
theorem firstOfEach_congr {db db' : RegistrationDB}
    (hid : ∀ q, (db'.producer q).peerInfo.id = (db.producer q).peerInfo.id)
    (ps : List ProducerPtr) : ∀ seen, db'.firstOfEach ps seen = db.firstOfEach ps seen := by
  induction ps with
  | nil =>
      intro seen
      rfl
  | cons q ps ih =>
      intro seen
      simp only [RegistrationDB.firstOfEach, hid, ih]

theorem refreshRaftState_findProducers (l : XMQLookupd) (r : RangeOrder) (p : ProducerPtr)
    (t : String) : (l.refreshRaftState p).db.findProducers r "topic" t "" =
      l.db.findProducers r "topic" t "" := by
  simp only [RegistrationDB.findProducers, RegistrationDB.producersOf,
    refreshRaftState_registrationMap, firstOfEach_congr (refreshRaftState_id l p)]

/-- The loop with the map lists what the loop without it does. -/
theorem cachedLoop_eq (ps : List ProducerPtr) : ∀ {l : XMQLookupd} {cache : TopicProducersMap},
    Agrees l r cache → cachedLoop opts r now ps l cache = nodesLoop opts r now ps l := by
  induction ps with
  | nil =>
      intro l cache _
      rfl
  | cons p ps ih =>
      intro l cache h
      obtain ⟨hflags, hagrees⟩ := tombstonesLoop_eq p
        (l.topicsOf r (l.db.producer p).peerInfo.id) h
      have hnext : Agrees (l.refreshRaftState p) r
          (l.tombstonesLoop opts r now p (l.topicsOf r (l.db.producer p).peerInfo.id) cache).2 := by
        intro t qs hqs
        rw [refreshRaftState_findProducers]
        exact hagrees t qs hqs
      simp only [cachedLoop, nodesLoop, ih hnext, hflags]
      rfl

theorem getNodesCached_eq (l : XMQLookupd) (opts : Options) (r : RangeOrder) (now : ℤ) :
    l.getNodesCached opts r now = l.getNodes opts r now :=
  cachedLoop_eq _ fun t ps hps => by simp at hps

/-! ### The topics of a node -/

theorem mem_topicsOf {t : String} :
    t ∈ l.topicsOf r id ↔ id ∈ l.db.producersOf (topicKey t) := by
  simp only [topicsOf, filterRegistrations, List.mem_map, List.mem_filter,
    RegistrationDB.mem_lookupRegistrations]
  constructor
  · rintro ⟨⟨c, key, subKey⟩, ⟨hid, hmatch⟩, rfl⟩
    simp [Registration.isMatch] at hmatch
    obtain ⟨rfl, rfl⟩ := hmatch
    exact hid
  · intro hid
    exact ⟨topicKey t, ⟨hid, by simp [Registration.isMatch, topicKey]⟩, rfl⟩

theorem nodup_topicsOf : (l.topicsOf r id).Nodup := by
  refine List.Nodup.map_on ?_ ((RegistrationDB.nodup_lookupRegistrations r).filter _)
  intro k hk k' hk' hkey
  have hmatch := (List.mem_filter.mp hk).2
  have hmatch' := (List.mem_filter.mp hk').2
  obtain ⟨c, key, subKey⟩ := k
  obtain ⟨c', key', subKey'⟩ := k'
  simp [Registration.isMatch] at hmatch hmatch' hkey
  rw [hmatch.1, hmatch.2, hmatch'.1, hmatch'.2, hkey]

/-- The registrations of a node do not change with raft states. -/
theorem refreshRaftState_topicsOf (l : XMQLookupd) (r : RangeOrder) (p : ProducerPtr)
    (id : String) : (l.refreshRaftState p).topicsOf r id = l.topicsOf r id := by
  simp only [topicsOf, RegistrationDB.lookupRegistrations, refreshRaftState_registrationMap]

/-! ### The flags of a node -/

variable {es : List Event}

/-- The record of a client is the record of no topic, so that no flag is ever set. -/
theorem tombstoneOf_client (h : Tables es l)
    (hp : (l.db.producersOf clientKey).lookup id = some p) (t : String) :
    l.tombstoneOf opts r now p t = false := by
  unfold tombstoneOf
  split
  · rename_i tp hfound
    have htp : tp = p := by simpa using List.find?_some hfound
    rw [htp] at hfound
    obtain ⟨k, id', hmatch, hk⟩ :=
      RegistrationDB.lookup_of_mem_findProducers r (List.mem_of_find?_eq_some hfound)
    rw [h.records.unique k clientKey id' id p hk hp] at hmatch
    exact absurd (RegistrationDB.category_of_isMatch hmatch).symm topic_ne_client
  · rfl

/-- What the loop lists: the topics of each node, and no flag. -/
theorem nodesLoop_node (ps : List ProducerPtr) : ∀ {l : XMQLookupd}, Tables es l →
    (∀ p ∈ ps, ∃ id, (l.db.producersOf clientKey).lookup id = some p) →
      ∀ node ∈ (nodesLoop opts r now ps l).1,
        (∃ p ∈ ps, (l.db.producer p).peerInfo.id = node.peerInfo.id) ∧
          node.topics = l.topicsOf r node.peerInfo.id ∧
            node.tombstones = node.topics.map fun _ => false := by
  induction ps with
  | nil =>
      intro l _ _ node hnode
      cases hnode
  | cons p ps ih =>
      intro l h hclient node hnode
      simp only [nodesLoop, List.mem_cons] at hnode
      rcases hnode with rfl | hnode
      · obtain ⟨id, hp⟩ := hclient p List.mem_cons_self
        have hflag : l.tombstoneOf opts r now p = fun _ => false :=
          funext fun t => tombstoneOf_client h hp t
        refine ⟨⟨p, List.mem_cons_self, (refreshRaftState_id l p p).symm⟩, ?_, ?_⟩
        · simp only [nodeInfo, refreshRaftState_id]
          rfl
        · simp only [nodeInfo, hflag]
      · have hrest : ∀ q ∈ ps, ∃ id,
            ((l.refreshRaftState p).db.producersOf clientKey).lookup id = some q := by
          intro q hq
          simp only [RegistrationDB.producersOf, refreshRaftState_registrationMap]
          exact hclient q (List.mem_cons_of_mem p hq)
        obtain ⟨⟨q, hq, hid⟩, htopics, hflags⟩ :=
          ih (tables_refreshRaftState h p) hrest node hnode
        rw [refreshRaftState_id] at hid
        rw [refreshRaftState_topicsOf] at htopics
        exact ⟨⟨q, List.mem_cons_of_mem p hq, hid⟩, htopics, hflags⟩

end XMQLookupd

open XMQLookupd

/-! ### The law -/

/-- The entry of a node shows its topics, and at which of them it is tombstoned. -/
structure NodeShown (opts : Options) (l : XMQLookupd) (now : ℤ) (node : NodeInfo) : Prop where
  once : node.topics.Nodup
  topics : ∀ t, t ∈ node.topics ↔ node.peerInfo.id ∈ l.db.producersOf (topicKey t)
  length : node.tombstones.length = node.topics.length
  flags : ∀ (i : ℕ) (t : String), node.topics[i]? = some t →
    (node.tombstones[i]? = some true ↔
      ∃ p, (l.db.producersOf (topicKey t)).lookup node.peerInfo.id = some p ∧
        (l.db.producer p).isTombstoned opts.tombstoneLifetime now = true)

/-- The node has identified, and its record is not too old to be listed. -/
def ListedNode (opts : Options) (l : XMQLookupd) (now : ℤ) (id : String) : Prop :=
  ∃ p, (l.db.producersOf clientKey).lookup id = some p ∧
    now - (l.db.producer p).peerInfo.lastUpdate ≤ opts.inactiveProducerTimeout

variable {opts : Options} {es : List Event} {l : XMQLookupd} {now : ℤ} {r : RangeOrder}
  {id : String}

theorem listed_iff (h : Tables es l) (p : ProducerPtr) :
    p ∈ l.db.filterByActive now opts.inactiveProducerTimeout 0
        (l.db.findProducers r "client" "" "") ↔
      ∃ id, (l.db.producersOf clientKey).lookup id = some p ∧
        now - (l.db.producer p).peerInfo.lastUpdate ≤ opts.inactiveProducerTimeout := by
  have hdirect : needFilter "" "" = false := by decide
  have hfound : p ∈ l.db.findProducers r "client" "" "" ↔
      ∃ id, (l.db.producersOf clientKey).lookup id = some p :=
    RegistrationDB.mem_findProducers_direct r hdirect
  constructor
  · intro hp
    obtain ⟨hmem, hactive⟩ := List.mem_filter.mp hp
    obtain ⟨id, hid⟩ := hfound.mp hmem
    obtain ⟨-, hfirst, -⟩ := h.records.first clientKey id p hid
    exact ⟨id, hid, ((active_iff h hid hfirst 0 _).mp hp).2.1⟩
  · rintro ⟨id, hid, htime⟩
    obtain ⟨-, hfirst, -⟩ := h.records.first clientKey id p hid
    have hlive : (l.db.producer p).isTombstoned 0 now = false := by
      simp [Producer.isTombstoned, h.records.client id p hid]
    exact (active_iff h hid hfirst 0 _).mpr ⟨hfound.mpr ⟨id, hid⟩, htime, hlive⟩

/-- The entries of the list, and the nodes that have one. -/
theorem getNodes_node (h : Tables es l) : ∀ node ∈ (l.getNodes opts r now).1,
    ListedNode opts l now node.peerInfo.id ∧ node.topics = l.topicsOf r node.peerInfo.id ∧
      node.tombstones = node.topics.map fun _ => false := by
  intro node hnode
  have hclient : ∀ p ∈ l.db.filterByActive now opts.inactiveProducerTimeout 0
      (l.db.findProducers r "client" "" ""), ∃ id,
      (l.db.producersOf clientKey).lookup id = some p := by
    intro p hp
    obtain ⟨id, hid, -⟩ := (listed_iff h p).mp hp
    exact ⟨id, hid⟩
  obtain ⟨⟨p, hp, hid⟩, htopics, hflags⟩ := nodesLoop_node _ h hclient node hnode
  refine ⟨?_, htopics, hflags⟩
  obtain ⟨id', hid', htime⟩ := (listed_iff h p).mp hp
  rw [← hid, (h.records.first clientKey id' p hid').1]
  exact ⟨p, hid', htime⟩

theorem exists_node (h : Tables es l) (r : RangeOrder) (hlisted : ListedNode opts l now id) :
    ∃ node ∈ (l.getNodes opts r now).1, node.peerInfo.id = id := by
  obtain ⟨p, hp, htime⟩ := hlisted
  exact (mem_getNodes l r id).mpr
    ⟨p, (listed_iff h p).mpr ⟨id, hp, htime⟩, (h.records.first clientKey id p hp).1⟩

/-- **Tombstones in the list of nodes.** After any history every entry shows the node as it is
exactly when no node in the list has a topic with a tombstone younger than the lifetime: a flag is
never set. -/
theorem nodesShown_iff (opts : Options) (es : List Event) (r : RangeOrder) (now : ℤ) :
    (∀ node ∈ ((serveAll opts es).getNodesCached opts r now).1,
        NodeShown opts (serveAll opts es) now node) ↔
      ∀ id t p, ListedNode opts (serveAll opts es) now id →
        ((serveAll opts es).db.producersOf (topicKey t)).lookup id = some p →
          ((serveAll opts es).db.producer p).isTombstoned opts.tombstoneLifetime now = false := by
  have htables : Tables es (serveAll opts es) := tables_serveAll es
  rw [getNodesCached_eq]
  constructor
  · intro h id t p hlisted hp
    obtain ⟨node, hnode, rfl⟩ := exists_node htables r hlisted
    obtain ⟨-, -, hflags⟩ := getNodes_node htables node hnode
    have hmem := ((h node hnode).topics t).mpr (RegistrationDB.mem_producersOf.mpr ⟨p, hp⟩)
    obtain ⟨i, hi⟩ := List.mem_iff_getElem?.mp hmem
    have hflag := (h node hnode).flags i t hi
    rw [hflags, List.getElem?_map, hi] at hflag
    by_contra htomb
    have hset := hflag.mpr ⟨p, hp, by simpa using htomb⟩
    cases hset
  · intro h node hnode
    obtain ⟨hlisted, htopics, hflags⟩ := getNodes_node htables node hnode
    constructor
    · rw [htopics]
      exact nodup_topicsOf
    · intro t
      rw [htopics, mem_topicsOf]
    · rw [hflags, List.length_map]
    · intro i t hi
      rw [hflags, List.getElem?_map, hi]
      constructor
      · intro hset
        cases hset
      · rintro ⟨p, hp, htomb⟩
        rw [h node.peerInfo.id t p hlisted hp] at htomb
        cases htomb

/-! ### A node that is tombstoned -/

/-- A node registers a topic and is tombstoned there. -/
def tombstonedNode : List Event :=
  [⟨0, .id, .identify "10.0.0.1:6000" ⟨some pingingNode⟩⟩, ⟨1, .id, .register ⟨"n1", "orders", ""⟩⟩,
    ⟨2, .id, .tombstoneTopicProducer (some fun key =>
      if key = "topic" then some "orders"
      else if key = "node" then some "10.0.0.1:5151"
      else none)⟩]

/-- The list of nodes does not say so. -/
theorem tombstone_not_shown :
    ¬ ∀ node ∈ ((serveAll keptOptions tombstonedNode).getNodesCached keptOptions .id 10).1,
      NodeShown keptOptions (serveAll keptOptions tombstonedNode) 10 node := by
  intro h
  have hlist : (((serveAll keptOptions tombstonedNode).getNodesCached keptOptions .id 10).1.map
      fun node => (node.peerInfo.id, node.topics, node.tombstones)) =
        [("n1", ["orders"], [false])] := by decide
  obtain ⟨node, hnode, hfields⟩ := List.mem_map.mp
    (show ("n1", ["orders"], [false]) ∈ _ from hlist ▸ List.mem_singleton_self _)
  simp only [Prod.mk.injEq] at hfields
  have hflag := (h node hnode).flags 0 "orders" (by rw [hfields.2.1]; rfl)
  rw [hfields.1, hfields.2.2] at hflag
  have hset := hflag.mpr ⟨1, by decide, by decide⟩
  cases hset

end Xmq.Lookupd
