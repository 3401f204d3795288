import Mathlib.Data.List.Sort
import Mathlib.Data.String.Basic
import Xmq.ClusterClients
import Xmq.LookupPeer
import Xmq.Runs

/-!
# What a node says of its topics

`GetStats` and the callback of a lookup connection list the topics in `XMQD.topicMap`. The handlers
of the replicated log store topics in `XMQCluster.topics`. This module translates the two readers
and compares what they list with what the handlers have stored.

* The readers list the map that they read without a mistake: every topic once, sorted, with its
  channels.
* No handler writes that map. It is empty in every state of a node.
* A client's own statistics, and the latency quantiles, say nothing about topics: the former are a
  parameter, the latter are left out.
-/

namespace Xmq.Cluster

open Runs
open Lookup (RegisterRequest NodeOptions LookupPeer Daemons)

/-! ### Names in order -/

/-- `sort.Sort` with a `Less` that compares names. -/
def sortByName {α : Type} (name : α → String) (l : List α) : List α :=
  l.mergeSort fun a b => decide (name a ≤ name b)

def sortNames (l : List String) : List String := sortByName id l

section Sorting

variable {α : Type} (name : α → String) (l : List α)

theorem sortByName_perm : (sortByName name l).Perm l := List.mergeSort_perm _ _

theorem sortByName_sorted : (sortByName name l).Pairwise fun a b => name a ≤ name b := by
  have h := @List.pairwise_mergeSort α (fun a b => decide (name a ≤ name b))
    (fun a b c hab hbc => decide_eq_true ((of_decide_eq_true hab).trans (of_decide_eq_true hbc)))
    (fun a b => by simpa using le_total (name a) (name b)) l
  exact h.imp fun hab => of_decide_eq_true hab

theorem sortByName_singleton (a : α) : sortByName name [a] = [a] := List.mergeSort_singleton a

/-- The names of the sorted objects are the sorted names, however they came. -/
theorem map_sortByName {m : List String} (h : (l.map name).Perm m) :
    (sortByName name l).map name = sortNames m := by
  have hanti : ∀ a b : String, a ∈ (sortByName name l).map name → b ∈ sortNames m →
      a ≤ b → b ≤ a → a = b := fun a b _ _ hab hba => le_antisymm hab hba
  refine List.Perm.eq_of_pairwise hanti ?_ (sortByName_sorted id m) ?_
  · exact List.pairwise_map.mpr (sortByName_sorted name l)
  · exact ((sortByName_perm name l).map name).trans (h.trans (sortByName_perm id m).symm)

theorem sortNames_perm {l m : List String} (h : l.Perm m) : sortNames l = sortNames m := by
  have hmap := map_sortByName id l (m := m) (by simpa using h)
  rwa [List.map_id] at hmap

end Sorting

/-! ### The statistics -/

structure ChannelStats (κ : Type) where
  channelName : String
  depth : ℕ
  backendDepth : ℕ
  inFlightCount : ℕ
  deferredCount : ℕ
  messageCount : UInt64
  requeueCount : UInt64
  timeoutCount : UInt64
  clientCount : ℕ
  clients : List κ
  paused : Bool

structure TopicStats (κ : Type) where
  topicName : String
  channels : List (ChannelStats κ)
  depth : ℕ
  backendDepth : ℕ
  messageCount : UInt64
  messageBytes : UInt64
  paused : Bool

structure Stats (κ : Type) where
  topics : List (TopicStats κ)
  producers : List κ

/-- The node: its own map of topics, the replicated state, and for each connection of the TCP server
whether it has published. -/
structure XMQD where
  topicMap : GoMap String TopicPtr
  cluster : Node
  conns : GoMap String Bool

section Readers

variable {κ : Type} (r : GoMap.RangeOrder) (clientStats : String → String → κ) (n : XMQD)

def newChannelStats (o : ChannelObj) (c : Channel) (clients : List κ) (clientCount : ℕ) :
    ChannelStats κ where
  channelName := o.name
  depth := c.memoryMsgChan.length + c.backend.records.length
  backendDepth := c.backend.records.length
  inFlightCount := c.inFlight.inFlightMessages.keys.length
  deferredCount := c.deferred.deferredMessages.keys.length
  messageCount := c.messageCount
  requeueCount := c.requeueCount
  timeoutCount := c.timeoutCount
  clientCount := clientCount
  clients := clients
  paused := o.paused = 1

def newTopicStats (t : TopicObj) (channels : List (ChannelStats κ)) : TopicStats κ where
  topicName := t.name
  channels := channels
  depth := t.memoryMsgChan.length + t.backend.records.length
  backendDepth := t.backend.records.length
  messageCount := t.messageCount
  messageBytes := t.messageBytes
  paused := t.paused = 1

/-- The statistics of a channel. A channel that was decoded has no backend. -/
def channelStats (topic : String) (includeClients : Bool) (o : ChannelObj) :
    Option (ChannelStats κ) :=
  match o.core with
  | .decoded _ => none
  | .running c =>
    let clients :=
      if includeClients then (r.order c.clients.keys).map fun id => clientStats id topic else []
    some (newChannelStats o c clients c.clients.keys.length)

/-- The channels to list; `none` when the topic is passed over. -/
def realChannels (channel : String) (t : TopicObj) : Option (List ChannelPtr) :=
  if channel = "" then some (r.order t.channels.values)
  else (t.channels.lookup channel).map fun c => [c]

/-- The topics to list; `none` when there is no such topic. -/
def realTopics (topic : String) : Option (List TopicPtr) :=
  if topic = "" then some (r.order n.topicMap.values)
  else (n.topicMap.lookup topic).map fun p => [p]

/-- The loop over the topics; `none` where a nil backend is asked for its depth. -/
def topicsStats (topic channel : String) (includeClients : Bool) :
    List TopicPtr → Option (List (TopicStats κ))
  | [] => some []
  | p :: ps =>
    let t := n.cluster.topicObj p
    match realChannels r channel t with
    | none => topicsStats topic channel includeClients ps
    | some cs =>
      match (sortByName (fun c => (n.cluster.channelObj c).name) cs).mapM
          fun c => channelStats r clientStats topic includeClients (n.cluster.channelObj c) with
      | none => none
      | some channels =>
        (topicsStats topic channel includeClients ps).map fun ts => newTopicStats t channels :: ts

def getStats (topic channel : String) (includeClients : Bool) : Option (Stats κ) :=
  match realTopics r n topic with
  | none => some ⟨[], []⟩
  | some ps =>
    (topicsStats r clientStats n topic channel includeClients
      (sortByName (fun p => (n.cluster.topicObj p).name) ps)).map fun topics =>
        ⟨topics,
          if includeClients then
            (r.order (n.conns.keys.filter fun id => (n.conns.lookup id).getD false)).map
              fun id => clientStats id topic
          else []⟩

/-- The commands that `connectCallback` builds. -/
def registerCommands (id : String) : List RegisterRequest :=
  (r.order n.topicMap.values).flatMap fun p =>
    let t := n.cluster.topicObj p
    if t.channels.keys.length = 0 then [⟨id, t.name, ""⟩]
    else (r.order t.channels.values).map fun c => ⟨id, t.name, (n.cluster.channelObj c).name⟩

end Readers

/-! ### What the readers list -/

/-- The channels of a topic in a map of topics. -/
def channelsOf (n : Node) (m : GoMap String TopicPtr) (t : String) : List String :=
  match m.lookup t with
  | some p => (n.topicObj p).channels.keys
  | none => []

theorem channelsOf_some {n : Node} {m : GoMap String TopicPtr} {t : String} {p : TopicPtr}
    (h : m.lookup t = some p) : channelsOf n m t = (n.topicObj p).channels.keys := by
  rw [channelsOf, h]

theorem channelsOf_none {n : Node} {m : GoMap String TopicPtr} {t : String}
    (h : m.lookup t = none) : channelsOf n m t = [] := by
  rw [channelsOf, h]

/-- The topics of a map by name, each with its channels by name. -/
def listing (n : Node) (m : GoMap String TopicPtr) : List (String × List String) :=
  (sortNames m.keys).map fun t => (t, sortNames (channelsOf n m t))

theorem listing_eq_nil_iff {n : Node} {m : GoMap String TopicPtr} : listing n m = [] ↔ m = ∅ := by
  rw [listing, List.map_eq_nil_iff]
  constructor
  · intro h
    have hperm := sortByName_perm id m.keys
    rw [show sortByName id m.keys = [] from h] at hperm
    have hentries : m.entries = [] := List.map_eq_nil_iff.mp hperm.nil_eq.symm
    exact AList.ext hentries
  · rintro rfl
    exact List.mergeSort_nil

def TopicStats.listing {κ : Type} (t : TopicStats κ) : String × List String :=
  (t.topicName, t.channels.map ChannelStats.channelName)

def Stats.listing {κ : Type} (s : Stats κ) : List (String × List String) :=
  s.topics.map TopicStats.listing

/-- The command registers a topic of the map, with one of its channels if it has any. -/
def Announced (n : Node) (m : GoMap String TopicPtr) (id : String) (q : RegisterRequest) : Prop :=
  q.id = id ∧ q.topicName ∈ m.keys ∧
    (q.channelName ∈ channelsOf n m q.topicName ∨
      channelsOf n m q.topicName = [] ∧ q.channelName = "")

/-- The objects behind a map have the names they are filed under, and the channels have queues. -/
structure Named (n : Node) (m : GoMap String TopicPtr) : Prop where
  topics : ∀ t p, m.lookup t = some p → (n.topicObj p).name = t
  channels : ∀ t p, m.lookup t = some p → ∀ c q, (n.topicObj p).channels.lookup c = some q →
    (n.channelObj q).name = c ∧ ∃ ch, (n.channelObj q).core = .running ch

theorem named_emptyMap (n : Node) : Named n ∅ where
  topics _ _ h := by cases h
  channels _ _ h := by cases h

section Listing

variable {κ : Type} (r : GoMap.RangeOrder) (clientStats : String → String → κ) {n : XMQD}
    (topic : String)
  (b : Bool)

theorem channelStats_name {o : ChannelObj} {c : Channel} (h : o.core = .running c) :
    ∃ s, channelStats r clientStats topic b o = some s ∧ s.channelName = o.name := by
  unfold channelStats
  rw [h]
  exact ⟨_, rfl, rfl⟩

theorem channelsStats_names {cs : List ChannelPtr}
    (h : ∀ c ∈ cs, ∃ ch, (n.cluster.channelObj c).core = .running ch) :
    ∃ ss, cs.mapM (fun c => channelStats r clientStats topic b (n.cluster.channelObj c)) = some ss ∧
      ss.map ChannelStats.channelName = cs.map fun c => (n.cluster.channelObj c).name := by
  induction cs with
  | nil => exact ⟨[], rfl, rfl⟩
  | cons c cs ih =>
      obtain ⟨ch, hch⟩ := h c List.mem_cons_self
      obtain ⟨s, hs, hname⟩ := channelStats_name r clientStats topic b hch
      obtain ⟨ss, hss, hnames⟩ := ih fun d hd => h d (List.mem_cons_of_mem _ hd)
      refine ⟨s :: ss, ?_, ?_⟩
      · simp [List.mapM_cons, hs, hss]
      · simp [hname, hnames]

/-- One topic of the loop, whose channels are all listed. -/
theorem topicsStats_cons (channel : String) {p : TopicPtr} {ps : List TopicPtr}
    {cs : List ChannelPtr} (hcs : realChannels r channel (n.cluster.topicObj p) = some cs)
    (hrun : ∀ c ∈ cs, ∃ ch, (n.cluster.channelObj c).core = .running ch)
    {ts : List (TopicStats κ)} (hts : topicsStats r clientStats n topic channel b ps = some ts) :
    ∃ t, topicsStats r clientStats n topic channel b (p :: ps) = some (t :: ts) ∧
      t.listing = ((n.cluster.topicObj p).name,
        sortNames (cs.map fun c => (n.cluster.channelObj c).name)) := by
  have hsorted := sortByName_perm (fun c => (n.cluster.channelObj c).name) cs
  obtain ⟨ss, hss, hnames⟩ :=
    channelsStats_names r clientStats topic b fun c hc => hrun c (hsorted.mem_iff.mp hc)
  refine ⟨newTopicStats (n.cluster.topicObj p) ss, ?_, ?_⟩
  · simp only [topicsStats, hcs, hss, hts, Option.map_some]
  · rw [TopicStats.listing, newTopicStats, hnames, map_sortByName _ _ (List.Perm.refl _)]

/-- The names of the channels of an object are those it is filed under. -/
theorem map_channels_names (h : Named n.cluster n.topicMap) {t : String} {p : TopicPtr}
    (hp : n.topicMap.lookup t = some p) :
    (n.cluster.topicObj p).channels.values.map (fun c => (n.cluster.channelObj c).name) =
      (n.cluster.topicObj p).channels.keys :=
  GoMap.map_values_eq_keys fun c q hq => (h.channels t p hp c q hq).1

theorem topicsStats_listing (h : Named n.cluster n.topicMap) {ps : List TopicPtr}
    (hps : ∀ p ∈ ps, p ∈ n.topicMap.values) :
    ∃ ts, topicsStats r clientStats n topic "" b ps = some ts ∧
      ts.map TopicStats.listing = ps.map fun p =>
        ((n.cluster.topicObj p).name, sortNames (n.cluster.topicObj p).channels.keys) := by
  induction ps with
  | nil => exact ⟨[], rfl, rfl⟩
  | cons p ps ih =>
      obtain ⟨ts, hts, hlist⟩ := ih fun q hq => hps q (List.mem_cons_of_mem _ hq)
      obtain ⟨t, hp⟩ := GoMap.mem_values.mp (hps p List.mem_cons_self)
      have hall : realChannels r "" (n.cluster.topicObj p) =
          some (r.order (n.cluster.topicObj p).channels.values) := if_pos rfl
      obtain ⟨s, hs, hname⟩ := topicsStats_cons r clientStats topic b "" hall (fun c hc => by
        obtain ⟨k, hk⟩ := GoMap.mem_values.mp (r.mem_order.mp hc)
        exact (h.channels t p hp k c hk).2) hts
      have hperm := (r.perm (n.cluster.topicObj p).channels.values).map
        fun c => (n.cluster.channelObj c).name
      rw [map_channels_names h hp] at hperm
      refine ⟨s :: ts, hs, ?_⟩
      rw [List.map_cons, List.map_cons, hname, hlist, sortNames_perm hperm]

/-- **`GetStats` on the whole map** lists it, in order. -/
theorem getStats_listing (h : Named n.cluster n.topicMap) :
    ∃ s, getStats r clientStats n "" "" b = some s ∧
      s.listing = listing n.cluster n.topicMap := by
  have hps := sortByName_perm (fun p => (n.cluster.topicObj p).name) (r.order n.topicMap.values)
  obtain ⟨ts, hts, hlist⟩ := topicsStats_listing r clientStats "" b h
    fun p hp => r.mem_order.mp (hps.mem_iff.mp hp)
  unfold getStats
  simp only [realTopics, if_true, hts]
  refine ⟨_, rfl, ?_⟩
  have hkeys : ((r.order n.topicMap.values).map fun p => (n.cluster.topicObj p).name).Perm
      n.topicMap.keys := by
    rw [← GoMap.map_values_eq_keys h.topics]
    exact (r.perm _).map _
  rw [Stats.listing, hlist, listing, ← map_sortByName _ _ hkeys, List.map_map]
  refine List.map_congr_left fun p hp => ?_
  obtain ⟨t, ht⟩ := GoMap.mem_values.mp (r.mem_order.mp (hps.mem_iff.mp hp))
  have hname := h.topics t p ht
  rw [← hname] at ht
  simp only [Function.comp, channelsOf_some ht]

/-- **`GetStats` on one channel** lists its topic with that channel, where both are there. -/
theorem getStats_one (h : Named n.cluster n.topicMap) {t c : String} (ht : t ≠ "") (hc : c ≠ "") :
    ∃ s, getStats r clientStats n t c b = some s ∧
      s.listing = if c ∈ channelsOf n.cluster n.topicMap t then [(t, [c])] else [] := by
  unfold getStats
  cases hp : n.topicMap.lookup t with
  | none =>
      have hnone : realTopics r n t = none := by rw [realTopics, if_neg ht, hp, Option.map_none]
      rw [hnone, channelsOf_none hp]
      exact ⟨_, rfl, rfl⟩
  | some p =>
      have hsome : realTopics r n t = some [p] := by rw [realTopics, if_neg ht, hp, Option.map_some]
      simp only [hsome, sortByName_singleton, channelsOf_some hp]
      cases hq : (n.cluster.topicObj p).channels.lookup c with
      | none =>
          have hnone : realChannels r c (n.cluster.topicObj p) = none := by
            rw [realChannels, if_neg hc, hq, Option.map_none]
          have hnot : c ∉ (n.cluster.topicObj p).channels.keys := fun hmem =>
            AList.lookup_eq_none.mp hq (AList.mem_keys.mpr hmem)
          simp only [topicsStats, hnone, if_neg hnot]
          exact ⟨_, rfl, rfl⟩
      | some q =>
          have hsome : realChannels r c (n.cluster.topicObj p) = some [q] := by
            rw [realChannels, if_neg hc, hq, Option.map_some]
          obtain ⟨hname, hrun⟩ := h.channels t p hp c q hq
          obtain ⟨s, hs, hlist⟩ := topicsStats_cons r clientStats t b c hsome
            (fun d hd => List.mem_singleton.mp hd ▸ hrun)
              (rfl : topicsStats _ _ n t c b [] = some [])
          have hmem := GoMap.mem_keys_of_lookup hq
          simp only [hs, if_pos hmem]
          refine ⟨_, rfl, ?_⟩
          rw [Stats.listing, List.map_singleton, hlist, h.topics t p hp, List.map_singleton, hname,
            sortNames,
            sortByName_singleton]

/-- **The commands of the callback** are those of the map. -/
theorem mem_registerCommands (h : Named n.cluster n.topicMap) (id : String) (q : RegisterRequest) :
    q ∈ registerCommands r n id ↔ Announced n.cluster n.topicMap id q := by
  unfold registerCommands Announced
  simp only [List.mem_flatMap, GoMap.RangeOrder.mem_order]
  constructor
  · rintro ⟨p, hp, hq⟩
    obtain ⟨t, ht⟩ := GoMap.mem_values.mp hp
    have hname := h.topics t p ht
    have hkey := GoMap.mem_keys_of_lookup ht
    split at hq
    · rename_i hnone
      rw [List.mem_singleton] at hq
      subst hq
      rw [hname]
      exact ⟨rfl, hkey, .inr ⟨(channelsOf_some ht).trans (List.length_eq_zero_iff.mp hnone), rfl⟩⟩
    · obtain ⟨d, hd, rfl⟩ := List.mem_map.mp hq
      obtain ⟨c, hc⟩ := GoMap.mem_values.mp (r.mem_order.mp hd)
      rw [hname, (h.channels t p ht c d hc).1, channelsOf_some ht]
      exact ⟨rfl, hkey, .inl (GoMap.mem_keys_of_lookup hc)⟩
  · obtain ⟨qid, t, c⟩ := q
    rintro ⟨rfl, hkey, hc⟩
    obtain ⟨p, ht⟩ :=
      AList.lookup_isSome.mpr (AList.mem_keys.mpr hkey) |> Option.isSome_iff_exists.mp
    simp only [channelsOf_some ht] at hc
    refine ⟨p, GoMap.mem_values.mpr ⟨t, ht⟩, ?_⟩
    rcases hc with hc | ⟨hnone, rfl⟩
    · have hlen : ¬ (n.cluster.topicObj p).channels.keys.length = 0 := by
        intro hzero
        rw [List.length_eq_zero_iff.mp hzero] at hc
        cases hc
      obtain ⟨d, hd⟩ :=
        AList.lookup_isSome.mpr (AList.mem_keys.mpr hc) |> Option.isSome_iff_exists.mp
      rw [if_neg hlen, List.mem_map]
      refine ⟨d, r.mem_order.mpr (GoMap.mem_values.mpr ⟨c, hd⟩), ?_⟩
      rw [h.topics t p ht, (h.channels t p ht c d hd).1]
    · rw [if_pos (by rw [hnone]; rfl), List.mem_singleton, h.topics t p ht]

end Listing

/-! ### The node and what it says -/

/-- A daemon that answers every call, and remembers the registrations. -/
def recorder : Daemons (List RegisterRequest) where
  dial w _ := (none, w)
  identify w _ _ := (.ok ⟨"", 0, 0, "", "", ""⟩, w)
  register w _ q := (.ok ⟨"", "OK"⟩, w ++ [q])
  unregister w _ _ := (.ok ⟨"", "OK"⟩, w)
  ping w _ _ := (.ok ⟨"", "OK"⟩, w)

theorem registerAll_recorder {lp : LookupPeer} (h : lp.Ready) (commands : List RegisterRequest) :
    ∀ w, Lookup.registerAll recorder lp commands w = some (w ++ commands) := by
  induction commands with
  | nil =>
      intro w
      simp [Lookup.registerAll]
  | cons cmd commands ih =>
      intro w
      rw [Lookup.registerAll_cons h]
      exact (ih _).trans (by rw [List.append_assoc, List.singleton_append])

/-- What a connection of the node registers at a daemon that takes everything. -/
def Registers (r : GoMap.RangeOrder) (n : XMQD) (opts : NodeOptions) (q : RegisterRequest) : Prop :=
  ∃ lp sent, Lookup.startConnect recorder
      (Lookup.connectCallback recorder opts (registerCommands r n opts.id))
      (Lookup.newLookupPeer "") [] = some (none, lp, sent) ∧ q ∈ sent

theorem registers_iff (r : GoMap.RangeOrder) (n : XMQD) (opts : NodeOptions) (q : RegisterRequest) :
    Registers r n opts q ↔ q ∈ registerCommands r n opts.id := by
  have hnew : (Lookup.newLookupPeer "").state ≠ .connected := by decide
  have hrun : Lookup.startConnect recorder
      (Lookup.connectCallback recorder opts (registerCommands r n opts.id))
      (Lookup.newLookupPeer "") [] =
      some (none, (Lookup.newLookupPeer "").dialled.identified ⟨"", 0, 0, "", "", ""⟩,
        registerCommands r n opts.id) := by
    rw [Lookup.startConnect_disconnected hnew rfl,
      Lookup.connectCallback_accepted (LookupPeer.ready_dialled _) rfl rfl,
      registerAll_recorder ((LookupPeer.ready_dialled _).identified _)]
    rfl
  constructor
  · rintro ⟨lp, sent, hs, hq⟩
    rw [hrun] at hs
    cases hs
    exact hq
  · intro hq
    exact ⟨_, _, hrun, hq⟩

/-- **The node sees its topics**: the statistics and the registrations are those of the topics that
the handlers store. -/
structure SeesTopics {κ : Type} (clientStats : String → String → κ) (n : XMQD) : Prop where
  all : ∀ r b, ∃ s, getStats r clientStats n "" "" b = some s ∧
    s.listing = listing n.cluster n.cluster.topics
  one : ∀ r b t c, t ≠ "" → c ≠ "" → ∃ s, getStats r clientStats n t c b = some s ∧
    s.listing = if c ∈ channelsOf n.cluster n.cluster.topics t then [(t, [c])] else []
  registers : ∀ r opts q, Registers r n opts q ↔ Announced n.cluster n.cluster.topics opts.id q

/-- A step of the node; connections come and go, and begin to publish. -/
inductive NodeAct where
  | cluster (a : Act)
  | conns (m : GoMap String Bool)

namespace XMQD

def new (opts : ChannelOptions) : XMQD := ⟨∅, Node.empty opts, ∅⟩

def step (libs : Libs) (n : XMQD) : NodeAct → Option XMQD
  | .cluster a => (Cluster.step libs n.cluster a).map fun c => { n with cluster := c }
  | .conns m => some { n with conns := m }

theorem step_topicMap {libs : Libs} {n n' : XMQD} {a : NodeAct} (h : step libs n a = some n') :
    n'.topicMap = n.topicMap := by
  cases a with
  | cluster a =>
      obtain ⟨c, -, rfl⟩ := Option.map_eq_some_iff.mp h
      rfl
  | conns m =>
      cases h
      rfl

end XMQD

/-- No handler stores a topic where the readers look. -/
theorem topicMap_empty {libs : Libs} {opts : ChannelOptions} {acts : List NodeAct} {n : XMQD}
    (h : run (XMQD.step libs) (XMQD.new opts) acts = some n) : n.topicMap = ∅ :=
  invariant_run (I := fun n => n.topicMap = ∅) (fun _ _ _ hn hs => (XMQD.step_topicMap hs).trans hn)
    acts _ n rfl h

/-- The readers that read the map of the handlers see the topics. -/
theorem seesTopics_of_same {κ : Type} (clientStats : String → String → κ) {n : XMQD}
    (hsame : n.topicMap = n.cluster.topics) (h : Named n.cluster n.topicMap) :
    SeesTopics clientStats n where
  all r b := hsame ▸ getStats_listing r clientStats b h
  one r b t c ht hc := hsame ▸ getStats_one r clientStats b h ht hc
  registers r opts q := by
    rw [registers_iff, mem_registerCommands r h, hsame]

/-- The empty map is all that the readers can show of it. -/
theorem SeesTopics.no_topics {κ : Type} {clientStats : String → String → κ} {n : XMQD}
    (h : SeesTopics clientStats n) (hempty : n.topicMap = ∅) : n.cluster.topics = ∅ := by
  obtain ⟨s, hs, hlist⟩ := h.all .id false
  obtain ⟨s', hs', hlist'⟩ :=
    getStats_listing .id clientStats false (n := n) (hempty ▸ named_emptyMap n.cluster)
  rw [hs] at hs'
  cases hs'
  rw [hlist', hempty, listing_eq_nil_iff.mpr rfl] at hlist
  exact listing_eq_nil_iff.mp hlist.symm

/-- **Statistics and registrations in a reachable state** are those of the topics of the node
exactly when it has none. -/
theorem seesTopics_iff {κ : Type} (clientStats : String → String → κ) (libs : Libs)
    (opts : ChannelOptions) (acts : List NodeAct) (n : XMQD)
    (h : run (XMQD.step libs) (XMQD.new opts) acts = some n) :
    SeesTopics clientStats n ↔ n.cluster.topics = ∅ := by
  have hempty := topicMap_empty h
  constructor
  · intro hsees
    exact hsees.no_topics hempty
  · intro hnone
    exact seesTopics_of_same clientStats (hempty.trans hnone.symm)
      (hempty ▸ named_emptyMap n.cluster)

/-- Applied by a follower: a topic is created and deleted again. -/
def deletedTopic : List NodeAct :=
  [.cluster (.apply .follower (newTopicEntry .ofNew "t")),
    .cluster (.apply .follower (deleteTopicEntry "t"))]

/-- The node that has deleted its topic sees that there is none. -/
theorem seesTopics_deleted :
    ∃ n, run (XMQD.step .ofNew) (XMQD.new ⟨1, 1⟩) deletedTopic = some n ∧
      SeesTopics (fun id _ => id) n := by
  obtain ⟨n, hrun, hnone⟩ := exists_of_run (XMQD.step .ofNew) (XMQD.new ⟨1, 1⟩) deletedTopic
    (fun n => n.cluster.topics.keys = []) (by decide)
  refine ⟨n, hrun, (seesTopics_iff _ _ _ _ _ hrun).mpr (AList.ext ?_)⟩
  exact List.map_eq_nil_iff.mp hnone

/-- **A topic that nobody sees.** One topic is created, and the statistics do not list it. -/
theorem topic_unseen :
    ∃ n, run (XMQD.step .ofNew) (XMQD.new ⟨1, 1⟩)
        [.cluster (.apply .leader (newTopicEntry .ofNew "t"))] = some n ∧
      ¬ SeesTopics (fun id _ => id) n := by
  refine ⟨_, rfl, fun h => ?_⟩
  have hkeys := congrArg AList.keys (h.no_topics rfl)
  cases hkeys

end Xmq.Cluster
