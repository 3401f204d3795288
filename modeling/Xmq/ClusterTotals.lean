import Xmq.NodesAnswer
import Xmq.Protocol
import Xmq.Runs
import Xmq.StatsObjects

/-!
# The totals of a cluster

`GetXMQDStats` asks every node for its statistics at once. Each answer is merged under a lock, so
that the answers are merged one after another in the order in which they come: a channel of an
answer is added to the object under its name, which is made when it is missing.

* The totals under a name are the sums over the answers, in every order.
* A name that is the name of a topic with that of a channel is read in one way only, because a valid
  name of a topic has no colon.
-/

namespace Xmq.ClusterInfo

open Quantile (Sorting)
open Lookupd (ClusterProducer)

/-! ### Requests -/

/-- `net.JoinHostPort`. -/
def joinHostPort (host port : String) : String :=
  if ':' ∈ host.toList then s!"[{host}]:{port}" else s!"{host}:{port}"

/-- `HTTPAddress`. -/
def httpAddress {V : Type} (p : ClusterProducer V) : String :=
  joinHostPort p.broadcastAddress (toString p.httpPort)

/-- A digit of `%XX`. -/
def upperHex (n : ℕ) : Char := if n < 10 then Char.ofNat (48 + n) else Char.ofNat (55 + n)

/-- A byte of what `url.QueryEscape` returns. -/
def escapeByte (b : UInt8) : List Char :=
  let c := Char.ofNat b.toNat
  if c.isAlphanum ∨ c ∈ ['-', '_', '.', '~'] then [c]
  else if c = ' ' then ['+']
  else ['%', upperHex (b.toNat / 16), upperHex (b.toNat % 16)]

def queryEscape (s : String) : String := String.ofList (s.toUTF8.data.toList.flatMap escapeByte)

/-- What `GetXMQDStats` is asked for. -/
structure Query where
  selectedTopic : String
  selectedChannel : String
  includeClients : Bool

def Query.endpoint (q : Query) (addr : String) : String :=
  s!"http://{addr}/stats?format=json" ++
    (if q.selectedTopic ≠ "" then
      "&topic=" ++ queryEscape q.selectedTopic ++
        if q.selectedChannel ≠ "" then "&channel=" ++ queryEscape q.selectedChannel else ""
    else "") ++
    if q.includeClients then "" else "&include_clients=false"

/-- A producer, and what `GETV1` returns for it: the topics of the answer, which is decoded to
objects, or an error. -/
structure Call (V : Type) where
  producer : ClusterProducer V
  get : String → Except String (List TopicPtr)

/-! ### Merging -/

variable {I V : Type}

structure Merging (I : Type) where
  objects : Objects I
  topicStatsList : List TopicPtr
  channelStatsMap : GoMap String ChannelPtr
  errs : List String

/-- The key of a channel. -/
def statsKey (selectedTopic topicName channelName : String) : String :=
  if selectedTopic = "" then s!"{topicName}:{channelName}" else channelName

section Merge

variable [AddCommGroup I]

/-- What an answer says of a channel, with the address it comes from. -/
def ChannelStats.named (c : ChannelStats I) (node hostname topicName : String) : ChannelStats I :=
  { c with
    node := node
    hostname := hostname
    topicName := topicName
    memoryDepth := c.depth - c.backendDepth }

/-- What an answer says of a topic, with the address it comes from. -/
def TopicStats.named (t : TopicStats I) (node hostname : String) : TopicStats I :=
  { t with
    node := node
    hostname := hostname
    memoryDepth := t.depth - t.backendDepth }

variable (s : Sorting) (q : Query) (addr hostname : String)

/-- The object under the key, made when it is missing. -/
def Merging.channelStats (st : Merging I) (key topicName channelName : String) :
    ChannelPtr × Merging I :=
  match st.channelStatsMap.lookup key with
  | some p => (p, st)
  | none =>
    let (p, o) := st.objects.newChannel (.new addr topicName channelName)
    (p, { st with objects := o, channelStatsMap := st.channelStatsMap.insert key p })

/-- One round of the loop over the clients of a channel. -/
def Objects.nameClient (o : Objects I) (c : ClientPtr) : Objects I :=
  o.setClient c { o.client c with node := addr }

/-- One round of the loop over the channels of a topic. -/
def mergeChannel (t : TopicPtr) (st : Merging I) (c : ChannelPtr) : Option (Merging I) := do
  let o := st.objects
  let topicName := (o.topic t).topicName
  let channelName := (o.channel c).channelName
  let st := { st with
    objects := o.setChannel c ((o.channel c).named addr hostname topicName) }
  let (p, st) := st.channelStats addr (statsKey q.selectedTopic topicName channelName)
    topicName channelName
  let o := (st.objects.channel c).clients.foldl (Objects.nameClient addr) st.objects
  let o ← o.addChannelStats s p c
  return { st with objects := o }

/-- One round of the loop over the topics of an answer. -/
def mergeTopic (st : Merging I) (t : TopicPtr) : Option (Merging I) :=
  let o := st.objects.setTopic t ((st.objects.topic t).named addr hostname)
  if q.selectedTopic ≠ "" ∧ (o.topic t).topicName ≠ q.selectedTopic then
    some { st with objects := o }
  else (o.topic t).channels.foldlM (mergeChannel s q addr hostname t)
    { st with objects := o, topicStatsList := st.topicStatsList ++ [t] }

/-- What the goroutine of a producer does with the answer. -/
def mergeCall (st : Merging I) (call : Call V) : Option (Merging I) :=
  let addr := httpAddress call.producer
  match call.get (q.endpoint addr) with
  | .error err => some { st with errs := st.errs ++ [err] }
  | .ok topics => topics.foldlM (mergeTopic s q addr call.producer.hostname) st

/-- The error of `GetXMQDStats`. -/
inductive StatsError where
  | failed (text : String)
  | errList (errs : List String)

structure StatsResult (I : Type) where
  topicStats : List TopicPtr
  channelStats : GoMap String ChannelPtr
  err : Option StatsError
  objects : Objects I

/-- `GetXMQDStats`, with the calls in the order in which their answers come. -/
def getXMQDStats (o : Objects I) (calls : List (Call V)) :
    Option (StatsResult I) := do
  let st ← calls.foldlM (mergeCall s q) ⟨o, [], ∅, []⟩
  if st.errs.length = calls.length then
    let text := "\n".intercalate st.errs
    return ⟨[], ∅, some (.failed s!"failed to query any xmqd: {text}"), st.objects⟩
  let topicStats := s.sort st.objects.topicLess st.topicStatsList
  if 0 < st.errs.length then
    return ⟨topicStats, st.channelStatsMap, some (.errList st.errs), st.objects⟩
  return ⟨topicStats, st.channelStatsMap, none, st.objects⟩

end Merge

/-! ### What the answers say -/

/-- The topics of the answer to a call. -/
def Call.topics (q : Query) (call : Call V) : List TopicPtr :=
  match call.get (q.endpoint (httpAddress call.producer)) with
  | .error _ => []
  | .ok topics => topics

/-- A channel of an answer, with its topic. -/
abbrev Visit := TopicPtr × ChannelPtr

/-- The name of the topic and that of the channel. -/
def pairOf (o : Objects I) (v : Visit) : String × String :=
  ((o.topic v.1).topicName, (o.channel v.2).channelName)

def keyOf (q : Query) (o : Objects I) (v : Visit) : String :=
  statsKey q.selectedTopic (pairOf o v).1 (pairOf o v).2

/-- The channels of a topic, when it is selected. -/
def topicVisits (q : Query) (o : Objects I) (t : TopicPtr) : List Visit :=
  if q.selectedTopic ≠ "" ∧ (o.topic t).topicName ≠ q.selectedTopic then []
  else (o.topic t).channels.map fun c => (t, c)

/-- The channels of all selected topics. -/
def visits (q : Query) (o : Objects I) (calls : List (Call V)) : List Visit :=
  calls.flatMap fun call => (call.topics q).flatMap (topicVisits q o)

/-- The channels under a key. -/
def atKey (q : Query) (o : Objects I) (k : String) (vs : List Visit) : List Visit :=
  vs.filter fun v => keyOf q o v = k

variable [AddCommGroup I]

/-- The counters of a channel of an answer; its depth in memory is what is not in the backend. -/
def nodeCounters (c : ChannelStats I) : Counter → I := (c.named "" "" "").counters

/-- Answers as nodes send them: objects that are in the store, with latencies and valid names. -/
structure Answers (I V : Type) (q : Query) where
  objects : Objects I
  calls : List (Call V)
  valid : ∀ call ∈ calls, ∀ t ∈ call.topics q,
    isValidTopicName (objects.topic t).topicName = true
  stored : ∀ call ∈ calls, ∀ t ∈ call.topics q, ∀ c ∈ (objects.topic t).channels,
    c < objects.nextChannel
  latency : ∀ call ∈ calls, ∀ t ∈ call.topics q, ∀ c ∈ (objects.topic t).channels,
    (objects.channel c).e2eProcessingLatency.isSome

/-- An object with the sums of some channels. -/
structure Totals (o : Objects I) (vs : List Visit) (c : ChannelStats I) : Prop where
  counters : c.counters = (vs.map fun v => nodeCounters (o.channel v.2)).sum
  paused : c.paused = vs.any fun v => (o.channel v.2).paused
  nodeStats : c.nodeStats.Perm (vs.map Prod.snd)
  clients : c.clients.Perm (vs.flatMap fun v => (o.channel v.2).clients)

/-! ### One channel -/

/-- What merging leaves of a channel of an answer. -/
structure Kept (c₀ c : ChannelStats I) : Prop where
  counters : nodeCounters c = nodeCounters c₀
  channelName : c.channelName = c₀.channelName
  paused : c.paused = c₀.paused
  clients : c.clients = c₀.clients
  latency : c.e2eProcessingLatency = c₀.e2eProcessingLatency

theorem counters_named (c : ChannelStats I) (node hostname topicName : String) :
    (c.named node hostname topicName).counters = nodeCounters c := by
  funext i
  cases i <;> rfl

theorem Kept.named {c₀ c : ChannelStats I} (h : Kept c₀ c) (node hostname topicName : String) :
    Kept c₀ (c.named node hostname topicName) :=
  ⟨h.counters, h.channelName, h.paused, h.clients, h.latency⟩

/-- While answers are merged: the objects in the map are new, one for each key, and hold the totals
of the channels `vs`; the channels `ws` have their keys in the map. -/
structure Inv (o : Objects I) (q : Query) (vs ws : List Visit) (st : Merging I) : Prop where
  topicName : ∀ t, (st.objects.topic t).topicName = (o.topic t).topicName
  channels : ∀ t, (st.objects.topic t).channels = (o.topic t).channels
  kept : ∀ c, c < o.nextChannel → Kept (o.channel c) (st.objects.channel c)
  next : o.nextChannel ≤ st.objects.nextChannel
  fresh : ∀ k p, st.channelStatsMap.lookup k = some p →
    o.nextChannel ≤ p ∧ p < st.objects.nextChannel
  inj : ∀ k k' p, st.channelStatsMap.lookup k = some p → st.channelStatsMap.lookup k' = some p →
    k = k'
  totals : ∀ k p, st.channelStatsMap.lookup k = some p →
    Totals o (atKey q o k vs) (st.objects.channel p)
  named : ∀ k p, st.channelStatsMap.lookup k = some p →
    ∃ v ∈ atKey q o k ws,
      pairOf o v = ((st.objects.channel p).topicName, (st.objects.channel p).channelName)
  missing : ∀ k, st.channelStatsMap.lookup k = none → atKey q o k ws = []
  shown : ∀ v ∈ vs, v.2 < o.nextChannel ∧
    (st.objects.channel v.2).counters = nodeCounters (o.channel v.2)

section Steps

variable {o : Objects I} {q : Query} {vs ws : List Visit} {st : Merging I} {v : Visit}

theorem totals_nil (o : Objects I) (node topicName channelName : String) :
    Totals o [] (.new node topicName channelName) where
  counters := by
    funext i
    cases i <;> rfl
  paused := rfl
  nodeStats := .nil
  clients := .nil

/-- One more channel is added. -/
theorem Totals.concat {o₁ o₂ : Objects I} {p : ChannelPtr} (h : Totals o vs (o₁.channel p))
    (hkept : Kept (o.channel v.2) (o₁.channel v.2))
    (hcounters : (o₁.channel v.2).counters = nodeCounters (o.channel v.2))
    (hadded : Objects.Added o₁ o₂ p v.2) : Totals o (vs ++ [v]) (o₂.channel p) where
  counters := by
    rw [hadded.counters, h.counters, hcounters, List.map_append, List.sum_append,
      List.map_singleton, List.sum_singleton]
  paused := by
    rw [hadded.paused, h.paused, hkept.paused, List.any_append, List.any_cons, List.any_nil,
      Bool.or_false]
  nodeStats := by
    rw [List.map_append, List.map_singleton]
    exact hadded.nodeStats.trans (h.nodeStats.append_right _)
  clients := by
    rw [List.flatMap_append, List.flatMap_singleton, ← hkept.clients]
    exact hadded.clients.trans (h.clients.append_right _)

/-- The channels, the map, and of the topics their names and channels are all that matters. -/
theorem Inv.congr (h : Inv o q vs ws st) {st' : Merging I}
    (htopic : ∀ t, (st'.objects.topic t).topicName = (st.objects.topic t).topicName ∧
      (st'.objects.topic t).channels = (st.objects.topic t).channels)
    (hchannel : st'.objects.channel = st.objects.channel)
    (hnext : st'.objects.nextChannel = st.objects.nextChannel)
    (hmap : st'.channelStatsMap = st.channelStatsMap) : Inv o q vs ws st' where
  topicName t := (htopic t).1.trans (h.topicName t)
  channels t := (htopic t).2.trans (h.channels t)
  kept := hchannel ▸ h.kept
  next := hnext ▸ h.next
  fresh := by
    rw [hmap, hnext]
    exact h.fresh
  inj := hmap ▸ h.inj
  totals := by
    rw [hmap, hchannel]
    exact h.totals
  named := by
    rw [hmap, hchannel]
    exact h.named
  missing := hmap ▸ h.missing
  shown := hchannel ▸ h.shown

/-- Naming a channel of an answer touches no object in the map. -/
theorem Inv.rename (h : Inv o q vs ws st) {c : ChannelPtr} (hc : c < o.nextChannel)
    (node hostname topicName : String) : Inv o q vs ws { st with
      objects := st.objects.setChannel c
        ((st.objects.channel c).named node hostname topicName) } := by
  have hother : ∀ k p, st.channelStatsMap.lookup k = some p →
      (st.objects.setChannel c ((st.objects.channel c).named node hostname topicName)).channel p =
        st.objects.channel p := by
    intro k p hp
    refine Objects.setChannel_ne _ _ fun heq => ?_
    exact absurd (h.fresh k p hp).1 (heq ▸ Nat.not_le.mpr hc)
  refine ⟨h.topicName, h.channels, fun c' hc' => ?_, h.next, h.fresh, h.inj, fun k p hp => ?_,
    fun k p hp => ?_, h.missing, fun v hv => ⟨(h.shown v hv).1, ?_⟩⟩
  · by_cases hcc : c' = c
    · rw [hcc, Objects.setChannel_self]
      exact (h.kept c hc).named _ _ _
    · rw [Objects.setChannel_ne _ _ hcc]
      exact h.kept c' hc'
  · rw [hother k p hp]
    exact h.totals k p hp
  · rw [hother k p hp]
    exact h.named k p hp
  · by_cases hvc : v.2 = c
    · rw [hvc, Objects.setChannel_self, counters_named]
      exact (h.kept c hc).counters
    · rw [Objects.setChannel_ne _ _ hvc]
      exact (h.shown v hv).2

omit [AddCommGroup I] in
theorem atKey_concat (q : Query) (o : Objects I) (k : String) (vs : List Visit) (v : Visit) :
    atKey q o k (vs ++ [v]) =
      if keyOf q o v = k then atKey q o k vs ++ [v] else atKey q o k vs := by
  by_cases hk : keyOf q o v = k <;> simp [atKey, List.filter_append, hk]

omit [AddCommGroup I] in
theorem mem_atKey_concat {k : String} {w : Visit} (hw : w ∈ atKey q o k vs) :
    w ∈ atKey q o k (vs ++ [v]) := by
  rw [atKey, List.filter_append]
  exact List.mem_append_left _ hw

/-- A new object under the key of a channel has no totals yet. -/
theorem Inv.insert (h : Inv o q vs vs st) (hlook : st.channelStatsMap.lookup (keyOf q o v) = none)
    {o' : Objects I} {node : String} (htopic : o'.topic = st.objects.topic)
    (hnext : o'.nextChannel = st.objects.nextChannel + 1)
    (hself : o'.channel st.objects.nextChannel = .new node (pairOf o v).1 (pairOf o v).2)
    (hold : ∀ c, c < st.objects.nextChannel → o'.channel c = st.objects.channel c) :
    Inv o q vs (vs ++ [v]) { st with
      objects := o'
      channelStatsMap := st.channelStatsMap.insert (keyOf q o v) st.objects.nextChannel } := by
  have hcases : ∀ k p, (st.channelStatsMap.insert (keyOf q o v)
      st.objects.nextChannel).lookup k = some p →
      k = keyOf q o v ∧ p = st.objects.nextChannel ∨
        st.channelStatsMap.lookup k = some p ∧ p < st.objects.nextChannel := by
    intro k p hp
    rcases GoMap.lookup_insert_eq_some.mp hp with ⟨hk, hpeq⟩ | ⟨-, hp⟩
    · exact .inl ⟨hk, hpeq.symm⟩
    · exact .inr ⟨hp, (h.fresh k p hp).2⟩
  refine ⟨fun t => by rw [htopic]; exact h.topicName t,
    fun t => by rw [htopic]; exact h.channels t, fun c hc => ?_,
    h.next.trans (hnext ▸ Nat.le_succ _), ?_, ?_, ?_, ?_, ?_, fun w hw => ?_⟩
  · rw [hold c (hc.trans_le h.next)]
    exact h.kept c hc
  · intro k p hp
    rw [hnext]
    rcases hcases k p hp with ⟨-, rfl⟩ | ⟨hp, hlt⟩
    · exact ⟨h.next, Nat.lt_succ_self _⟩
    · exact ⟨(h.fresh k p hp).1, Nat.lt_succ_of_lt hlt⟩
  · intro k k' p hp hp'
    rcases hcases k p hp with ⟨rfl, rfl⟩ | ⟨hp, hlt⟩
    · rcases hcases k' _ hp' with ⟨rfl, -⟩ | ⟨-, hlt⟩
      · rfl
      · exact absurd hlt (Nat.lt_irrefl _)
    · rcases hcases k' p hp' with ⟨-, rfl⟩ | ⟨hp', -⟩
      · exact absurd hlt (Nat.lt_irrefl _)
      · exact h.inj k k' p hp hp'
  · intro k p hp
    rcases hcases k p hp with ⟨rfl, rfl⟩ | ⟨hp, hlt⟩
    · rw [h.missing _ hlook, hself]
      exact totals_nil o _ _ _
    · rw [hold p hlt]
      exact h.totals k p hp
  · intro k p hp
    rcases hcases k p hp with ⟨rfl, rfl⟩ | ⟨hp, hlt⟩
    · refine ⟨v, ?_, by rw [hself]; rfl⟩
      rw [atKey_concat, if_pos rfl]
      exact List.mem_concat_self
    · obtain ⟨w, hw, hpair⟩ := h.named k p hp
      rw [hold p hlt]
      exact ⟨w, mem_atKey_concat hw, hpair⟩
  · intro k hk
    have hne : k ≠ keyOf q o v := by
      rintro rfl
      rw [AList.lookup_insert] at hk
      cases hk
    rw [AList.lookup_insert_ne hne] at hk
    rw [atKey_concat, if_neg (Ne.symm hne)]
    exact h.missing k hk
  · obtain ⟨hlt, hcounters⟩ := h.shown w hw
    rw [hold w.2 (hlt.trans_le h.next)]
    exact ⟨hlt, hcounters⟩

/-- The object under the key of a channel is there, or is made. -/
theorem Inv.channelStats (h : Inv o q vs vs st) (node : String) (v : Visit) :
    ∃ p st', st.channelStats node (keyOf q o v) (pairOf o v).1 (pairOf o v).2 = (p, st') ∧
      Inv o q vs (vs ++ [v]) st' ∧ st'.channelStatsMap.lookup (keyOf q o v) = some p ∧
      st'.errs = st.errs ∧
      ∀ c, c < o.nextChannel → st'.objects.channel c = st.objects.channel c := by
  unfold Merging.channelStats
  cases hlook : st.channelStatsMap.lookup (keyOf q o v) with
  | some p =>
      refine ⟨p, st, rfl, ?_, hlook, rfl, fun _ _ => rfl⟩
      refine ⟨h.topicName, h.channels, h.kept, h.next, h.fresh, h.inj, h.totals,
        fun k p hp => ?_, fun k hk => ?_, h.shown⟩
      · obtain ⟨w, hw, hpair⟩ := h.named k p hp
        exact ⟨w, mem_atKey_concat hw, hpair⟩
      · have hne : keyOf q o v ≠ k := by
          rintro rfl
          rw [hlook] at hk
          cases hk
        rw [atKey_concat, if_neg hne]
        exact h.missing k hk
  | none =>
      have hold : ∀ c, c < st.objects.nextChannel →
          (st.objects.newChannel (.new node (pairOf o v).1 (pairOf o v).2)).2.channel c =
            st.objects.channel c := fun c hc => Objects.setChannel_ne _ _ hc.ne
      exact ⟨_, _, rfl, h.insert hlook rfl rfl (Objects.setChannel_self _ _ _) hold,
        AList.lookup_insert _, rfl, fun c hc => hold c (hc.trans_le h.next)⟩

omit [AddCommGroup I] in
theorem nameClients_eq (node : String) (cs : List ClientPtr) (o : Objects I) :
    ∃ client, cs.foldl (Objects.nameClient node) o = { o with client := client } := by
  induction cs generalizing o with
  | nil => exact ⟨_, rfl⟩
  | cons c cs ih =>
      obtain ⟨client, h⟩ := ih (o.nameClient node c)
      exact ⟨client, h⟩

/-- Adding to the object under the key of a channel. -/
theorem Inv.added (h : Inv o q vs (vs ++ [v]) st) {p : ChannelPtr}
    (hp : st.channelStatsMap.lookup (keyOf q o v) = some p) (hv : v.2 < o.nextChannel)
    (hcounters : (st.objects.channel v.2).counters = nodeCounters (o.channel v.2))
    {o' : Objects I} (hadded : Objects.Added st.objects o' p v.2) :
    Inv o q (vs ++ [v]) (vs ++ [v]) { st with objects := o' } := by
  have hnew := (h.fresh _ p hp).1
  refine ⟨fun t => by rw [hadded.topic]; exact h.topicName t,
    fun t => by rw [hadded.topic]; exact h.channels t, fun c hc => ?_,
    by rw [hadded.nextChannel]; exact h.next, fun k p' hp' => ?_, h.inj, fun k p' hp' => ?_,
    fun k p' hp' => ?_, h.missing, fun w hw => ?_⟩
  · rw [hadded.other c (hc.trans_le hnew).ne]
    exact h.kept c hc
  · rw [hadded.nextChannel]
    exact h.fresh k p' hp'
  · rw [atKey_concat]
    by_cases hk : keyOf q o v = k
    · subst hk
      rw [hp] at hp'
      cases hp'
      rw [if_pos rfl]
      exact (h.totals _ p hp).concat (h.kept v.2 hv) hcounters hadded
    · have hne : p' ≠ p := fun heq => hk (h.inj _ _ p hp (heq ▸ hp'))
      rw [if_neg hk, hadded.other p' hne]
      exact h.totals k p' hp'
  · by_cases hpp : p' = p
    · subst hpp
      rw [hadded.topicName, hadded.channelName]
      exact h.named k p' hp'
    · rw [hadded.other p' hpp]
      exact h.named k p' hp'
  · rcases List.mem_append.mp hw with hw | hw
    · obtain ⟨hlt, hshown⟩ := h.shown w hw
      rw [hadded.other w.2 (hlt.trans_le hnew).ne]
      exact ⟨hlt, hshown⟩
    · rw [List.mem_singleton.mp hw, hadded.other v.2 (hv.trans_le hnew).ne]
      exact ⟨hv, hcounters⟩

theorem mergeChannel_spec (s : Sorting) (addr hostname : String) (h : Inv o q vs vs st)
    (hv : v.2 < o.nextChannel) (hlatency : (o.channel v.2).e2eProcessingLatency.isSome) :
    ∃ st', mergeChannel s q addr hostname v.1 st v.2 = some st' ∧
      Inv o q (vs ++ [v]) (vs ++ [v]) st' ∧ st'.errs = st.errs := by
  have hpair : pairOf o v =
      ((st.objects.topic v.1).topicName, (st.objects.channel v.2).channelName) := by
    rw [pairOf, h.topicName, (h.kept v.2 hv).channelName]
  have hnamed := h.rename hv addr hostname (st.objects.topic v.1).topicName
  obtain ⟨p, st₂, hfound, hinv, hp, herrs, hold⟩ := hnamed.channelStats addr v
  rw [keyOf, hpair] at hfound
  have hchannel : st₂.objects.channel v.2 =
      (st.objects.channel v.2).named addr hostname (st.objects.topic v.1).topicName := by
    rw [hold v.2 hv, Objects.setChannel_self]
  have hcounters : (st₂.objects.channel v.2).counters = nodeCounters (o.channel v.2) := by
    rw [hchannel, counters_named, (h.kept v.2 hv).counters]
  obtain ⟨client, hclient⟩ := nameClients_eq addr (st₂.objects.channel v.2).clients st₂.objects
  obtain ⟨o', hadd, hadded⟩ := Objects.addChannelStats_spec s { st₂.objects with client := client }
    (a := v.2) p (by rw [(hinv.kept v.2 hv).latency]; exact hlatency)
  have hclients : Inv o q vs (vs ++ [v])
      { st₂ with objects := { st₂.objects with client := client } } :=
    hinv.congr (fun _ => ⟨rfl, rfl⟩) rfl rfl rfl
  refine ⟨{ st₂ with objects := o' }, ?_, hclients.added hp hv hcounters hadded, herrs⟩
  unfold mergeChannel
  simp only [hfound, hclient, hadd, Option.bind_eq_bind, Option.bind_some, Option.pure_def]

/-! ### All answers -/

/-- Naming a topic touches neither its name nor its channels. -/
theorem Inv.nameTopic (h : Inv o q vs ws st) (t : TopicPtr) (addr hostname : String) :
    Inv o q vs ws { st with
      objects := st.objects.setTopic t ((st.objects.topic t).named addr hostname) } := by
  refine h.congr (fun t' => ?_) rfl rfl rfl
  by_cases ht : t' = t
  · rw [ht, Objects.setTopic_self]
    exact ⟨rfl, rfl⟩
  · rw [Objects.setTopic_ne _ _ ht]
    exact ⟨rfl, rfl⟩

theorem mergeTopic_spec (s : Sorting) (addr hostname : String) {t : TopicPtr}
    (h : Inv o q vs vs st) (hstored : ∀ c ∈ (o.topic t).channels, c < o.nextChannel)
    (hlatency : ∀ c ∈ (o.topic t).channels, (o.channel c).e2eProcessingLatency.isSome) :
    ∃ st', mergeTopic s q addr hostname st t = some st' ∧
      Inv o q (vs ++ topicVisits q o t) (vs ++ topicVisits q o t) st' ∧ st'.errs = st.errs := by
  have hname : ((st.objects.topic t).named addr hostname).topicName = (o.topic t).topicName :=
    h.topicName t
  have hchannels : ((st.objects.topic t).named addr hostname).channels = (o.topic t).channels :=
    h.channels t
  have hnamed := h.nameTopic t addr hostname
  unfold mergeTopic topicVisits
  simp only [Objects.setTopic_self, hname, hchannels]
  split
  · rw [List.append_nil]
    exact ⟨_, rfl, hnamed, rfl⟩
  · have hstart : Inv o q vs vs { st with
        objects := st.objects.setTopic t ((st.objects.topic t).named addr hostname)
        topicStatsList := st.topicStatsList ++ [t] } :=
      hnamed.congr (fun _ => ⟨rfl, rfl⟩) rfl rfl rfl
    refine Runs.foldlM_prefix
      (fun cs st' => Inv o q (vs ++ cs.map fun c => (t, c)) (vs ++ cs.map fun c => (t, c)) st' ∧
        st'.errs = st.errs) (o.topic t).channels ?_
      ⟨by rw [List.map_nil, List.append_nil]; exact hstart, rfl⟩
    rintro before c after st₁ hcs ⟨hinv, herrs⟩
    have hc : c ∈ (o.topic t).channels := hcs ▸ List.mem_append_cons_self
    obtain ⟨st₂, hmerge, hinv₂, herrs₂⟩ :=
      mergeChannel_spec (v := (t, c)) s addr hostname hinv (hstored c hc) (hlatency c hc)
    rw [List.map_append, List.map_singleton, ← List.append_assoc]
    exact ⟨st₂, hmerge, hinv₂, herrs₂.trans herrs⟩

/-- There is no answer. -/
def Call.failed (q : Query) (call : Call V) : Bool :=
  match call.get (q.endpoint (httpAddress call.producer)) with
  | .error _ => true
  | .ok _ => false

theorem mergeCall_spec (s : Sorting) {call : Call V} (h : Inv o q vs vs st)
    (hstored : ∀ t ∈ call.topics q, ∀ c ∈ (o.topic t).channels, c < o.nextChannel)
    (hlatency : ∀ t ∈ call.topics q, ∀ c ∈ (o.topic t).channels,
      (o.channel c).e2eProcessingLatency.isSome) :
    ∃ st', mergeCall s q st call = some st' ∧
      Inv o q (vs ++ (call.topics q).flatMap (topicVisits q o))
        (vs ++ (call.topics q).flatMap (topicVisits q o)) st' ∧
      st'.errs.length = st.errs.length + [call].countP (Call.failed q) := by
  rcases hget : call.get (q.endpoint (httpAddress call.producer)) with err | topics
  · have htopics : call.topics q = [] := by rw [Call.topics, hget]
    have hfailed : call.failed q = true := by rw [Call.failed, hget]
    have hmerge : mergeCall s q st call = some { st with errs := st.errs ++ [err] } := by
      simp only [mergeCall, hget]
    refine ⟨_, hmerge, ?_, ?_⟩
    · rw [htopics, List.flatMap_nil, List.append_nil]
      exact h.congr (fun _ => ⟨rfl, rfl⟩) rfl rfl rfl
    · rw [List.countP_singleton, if_pos hfailed]
      exact List.length_append
  · have htopics : call.topics q = topics := by rw [Call.topics, hget]
    have hfailed : call.failed q = false := by rw [Call.failed, hget]
    rw [htopics] at hstored hlatency ⊢
    have hloop : ∃ st', topics.foldlM
        (mergeTopic s q (httpAddress call.producer) call.producer.hostname) st = some st' ∧
        Inv o q (vs ++ topics.flatMap (topicVisits q o))
          (vs ++ topics.flatMap (topicVisits q o)) st' ∧ st'.errs = st.errs := by
      refine Runs.foldlM_prefix
        (fun ts st' => Inv o q (vs ++ ts.flatMap (topicVisits q o))
          (vs ++ ts.flatMap (topicVisits q o)) st' ∧ st'.errs = st.errs) topics ?_
        ⟨by rw [List.flatMap_nil, List.append_nil]; exact h, rfl⟩
      rintro before t after st₁ hts ⟨hinv, herrs⟩
      have ht : t ∈ topics := hts ▸ List.mem_append_cons_self
      obtain ⟨st₂, hmerge, hinv₂, herrs₂⟩ := mergeTopic_spec s (httpAddress call.producer)
        call.producer.hostname hinv (hstored t ht) (hlatency t ht)
      rw [List.flatMap_append, List.flatMap_singleton, ← List.append_assoc]
      exact ⟨st₂, hmerge, hinv₂, herrs₂.trans herrs⟩
    obtain ⟨st', hloop, hinv, herrs⟩ := hloop
    have hmerge : mergeCall s q st call = some st' := by
      simp only [mergeCall, hget]
      exact hloop
    refine ⟨st', hmerge, hinv, ?_⟩
    rw [herrs, List.countP_singleton, if_neg (by rw [hfailed]; decide)]
    rfl

end Steps

section Answers

variable {q : Query}

theorem inv_start (o : Objects I) (q : Query) : Inv o q [] [] ⟨o, [], ∅, []⟩ where
  topicName _ := rfl
  channels _ := rfl
  kept _ _ := ⟨rfl, rfl, rfl, rfl, rfl⟩
  next := Nat.le_refl _
  fresh _ _ h := nomatch h
  inj _ _ _ h := nomatch h
  totals _ _ h := nomatch h
  named _ _ h := nomatch h
  missing _ _ := rfl
  shown _ h := nomatch h

/-- After all answers, in the order in which they came. -/
theorem merge_spec (s : Sorting) (a : Answers I V q) {done : List (Call V)}
    (hdone : ∀ call ∈ done, call ∈ a.calls) :
    ∃ st, done.foldlM (mergeCall s q) ⟨a.objects, [], ∅, []⟩ = some st ∧
      Inv a.objects q (visits q a.objects done) (visits q a.objects done) st ∧
      st.errs.length = done.countP (Call.failed q) := by
  refine Runs.foldlM_prefix
    (fun calls st => Inv a.objects q (visits q a.objects calls) (visits q a.objects calls) st ∧
      st.errs.length = calls.countP (Call.failed q)) done ?_ ⟨inv_start a.objects q, rfl⟩
  rintro before call after st hcalls ⟨hinv, herrs⟩
  have hcall : call ∈ a.calls := hdone call (hcalls ▸ List.mem_append_cons_self)
  obtain ⟨st', hmerge, hinv', herrs'⟩ := mergeCall_spec s hinv (a.stored call hcall)
    (a.latency call hcall)
  refine ⟨st', hmerge, ?_, ?_⟩
  · rw [visits, List.flatMap_append, List.flatMap_singleton]
    exact hinv'
  · rw [herrs', herrs, List.countP_append]

/-- What `GetXMQDStats` should say of the channels `vs` of the answers: one object for each pair of
names, with the sums over its channels. -/
structure SumsOfNodes (o : Objects I) (q : Query) (vs : List Visit) (m : GoMap String ChannelPtr)
    (o' : Objects I) : Prop where
  keys : ∀ v ∈ vs, keyOf q o v ∈ m
  pair : ∀ k ∈ m, ∃! pair : String × String,
    pair ∈ vs.map (pairOf o) ∧ statsKey q.selectedTopic pair.1 pair.2 = k
  named : ∀ k p, m.lookup k = some p →
    ((o'.channel p).topicName, (o'.channel p).channelName) ∈ vs.map (pairOf o) ∧
      statsKey q.selectedTopic (o'.channel p).topicName (o'.channel p).channelName = k
  totals : ∀ k p, m.lookup k = some p → Totals o
    (vs.filter fun v => pairOf o v = ((o'.channel p).topicName, (o'.channel p).channelName))
    (o'.channel p)
  shown : ∀ v ∈ vs, (o'.channel v.2).counters = nodeCounters (o.channel v.2)

/-- Results with the same totals under the same keys. -/
structure SameTotals (r r' : StatsResult I) : Prop where
  keys : ∀ k, k ∈ r.channelStats ↔ k ∈ r'.channelStats
  counters : ∀ k p p', r.channelStats.lookup k = some p → r'.channelStats.lookup k = some p' →
    (r.objects.channel p).counters = (r'.objects.channel p').counters ∧
      (r.objects.channel p).paused = (r'.objects.channel p').paused

/-! ### Keys -/

/-- A valid name has no colon. -/
theorem not_mem_colon {name : String} (h : isValidTopicName name = true) : ':' ∉ name.toList :=
  not_mem_toList_of_isValidName (by decide) (by decide) h

/-- A list is split at the first place of an item in one way. -/
theorem split_inj {α : Type*} {x : α} {l l' r r' : List α} (hl : x ∉ l) (hl' : x ∉ l')
    (h : l ++ x :: r = l' ++ x :: r') : l = l' ∧ r = r' := by
  induction l generalizing l' with
  | nil =>
      cases l' with
      | nil => exact ⟨rfl, (List.cons.inj h).2⟩
      | cons y l' => exact absurd ((List.cons.inj h).1 ▸ List.mem_cons_self) hl'
  | cons y l ih =>
      cases l' with
      | nil => exact absurd ((List.cons.inj h).1 ▸ List.mem_cons_self) hl
      | cons y' l' =>
          rw [List.cons_append, List.cons_append] at h
          obtain ⟨rfl, htail⟩ := List.cons.inj h
          obtain ⟨rfl, hr⟩ := ih (fun hmem => hl (List.mem_cons_of_mem _ hmem))
            (fun hmem => hl' (List.mem_cons_of_mem _ hmem)) htail
          exact ⟨rfl, hr⟩

theorem statsKey_inj {selected t c t' c' : String} (hvalid : isValidTopicName t = true)
    (hvalid' : isValidTopicName t' = true)
    (hselected : selected ≠ "" → t = selected ∧ t' = selected)
    (h : statsKey selected t c = statsKey selected t' c') : t = t' ∧ c = c' := by
  unfold statsKey at h
  by_cases hs : selected = ""
  · rw [if_pos hs, if_pos hs] at h
    have hlist := congrArg String.toList h
    simp only [toString, String.toList_append, List.append_assoc] at hlist
    obtain ⟨ht, hc⟩ := split_inj (not_mem_colon hvalid) (not_mem_colon hvalid') hlist
    exact ⟨String.toList_inj.mp ht, String.toList_inj.mp hc⟩
  · rw [if_neg hs, if_neg hs] at h
    obtain ⟨rfl, ht⟩ := hselected hs
    exact ⟨ht.symm, h⟩

omit [AddCommGroup I] in
theorem mem_topicVisits {o : Objects I} {t : TopicPtr} {v : Visit} (h : v ∈ topicVisits q o t) :
    v.1 = t ∧ (q.selectedTopic ≠ "" → (o.topic t).topicName = q.selectedTopic) := by
  unfold topicVisits at h
  split at h
  · cases h
  · rename_i hselected
    obtain ⟨c, -, rfl⟩ := List.mem_map.mp h
    exact ⟨rfl, fun hne => not_not.mp fun hname => hselected ⟨hne, hname⟩⟩

omit [AddCommGroup I] in
/-- Among the channels of the answers, a key tells the names. -/
theorem pairOf_of_keyOf (a : Answers I V q) {v w : Visit} (hv : v ∈ visits q a.objects a.calls)
    (hw : w ∈ visits q a.objects a.calls) (h : keyOf q a.objects v = keyOf q a.objects w) :
    pairOf a.objects v = pairOf a.objects w := by
  obtain ⟨call, hcall, hv⟩ := List.mem_flatMap.mp hv
  obtain ⟨t, ht, hv⟩ := List.mem_flatMap.mp hv
  obtain ⟨call', hcall', hw⟩ := List.mem_flatMap.mp hw
  obtain ⟨t', ht', hw⟩ := List.mem_flatMap.mp hw
  obtain ⟨rfl, hselected⟩ := mem_topicVisits hv
  obtain ⟨rfl, hselected'⟩ := mem_topicVisits hw
  obtain ⟨hname, hchannel⟩ := statsKey_inj (a.valid call hcall _ ht) (a.valid call' hcall' _ ht')
    (fun hne => ⟨hselected hne, hselected' hne⟩) h
  exact Prod.ext hname hchannel

/-! ### The result -/

omit [AddCommGroup I] in
theorem visits_perm {calls calls' : List (Call V)} (o : Objects I) (h : calls.Perm calls') :
    (visits q o calls).Perm (visits q o calls') := h.flatMap_right _

theorem Totals.perm {o : Objects I} {vs vs' : List Visit} {c : ChannelStats I}
    (h : Totals o vs c) (hperm : vs.Perm vs') : Totals o vs' c where
  counters := h.counters.trans (hperm.map _).sum_eq
  paused := by
    rw [h.paused, Bool.eq_iff_iff, List.any_eq_true, List.any_eq_true]
    simp only [hperm.mem_iff]
  nodeStats := h.nodeStats.trans (hperm.map _)
  clients := h.clients.trans (hperm.flatMap_right _)

theorem SumsOfNodes.perm {o o' : Objects I} {vs vs' : List Visit} {m : GoMap String ChannelPtr}
    (h : SumsOfNodes o q vs m o') (hperm : vs.Perm vs') : SumsOfNodes o q vs' m o' where
  keys v hv := h.keys v (hperm.mem_iff.mpr hv)
  pair k hk := by
    simp only [← (hperm.map (pairOf o)).mem_iff]
    exact h.pair k hk
  named k p hp := by
    rw [← (hperm.map (pairOf o)).mem_iff]
    exact h.named k p hp
  totals k p hp := (h.totals k p hp).perm (hperm.filter _)
  shown v hv := h.shown v (hperm.mem_iff.mpr hv)

/-- The invariant after all answers. -/
theorem Inv.sums {o : Objects I} {vs : List Visit} {st : Merging I} (h : Inv o q vs vs st)
    (hinj : ∀ v ∈ vs, ∀ w ∈ vs, keyOf q o v = keyOf q o w → pairOf o v = pairOf o w) :
    SumsOfNodes o q vs st.channelStatsMap st.objects := by
  have hmem : ∀ {k : String} {v : Visit}, v ∈ atKey q o k vs ↔ v ∈ vs ∧ keyOf q o v = k := by
    intro k v
    rw [atKey, List.mem_filter, decide_eq_true_eq]
  have hnamed : ∀ k p, st.channelStatsMap.lookup k = some p → ∃ v ∈ vs, keyOf q o v = k ∧
      pairOf o v = ((st.objects.channel p).topicName, (st.objects.channel p).channelName) := by
    intro k p hp
    obtain ⟨v, hv, hpair⟩ := h.named k p hp
    exact ⟨v, (hmem.mp hv).1, (hmem.mp hv).2, hpair⟩
  refine ⟨fun v hv => ?_, fun k hk => ?_, fun k p hp => ?_, fun k p hp => ?_,
    fun v hv => (h.shown v hv).2⟩
  · by_contra hk
    have hnil := h.missing _ (AList.lookup_eq_none.mpr hk)
    exact List.not_mem_nil (hnil ▸ hmem.mpr ⟨hv, rfl⟩)
  · obtain ⟨p, hp⟩ := Option.isSome_iff_exists.mp (AList.lookup_isSome.mpr hk)
    obtain ⟨v, hv, hkey, -⟩ := hnamed k p hp
    refine ⟨pairOf o v, ⟨List.mem_map_of_mem hv, hkey⟩, ?_⟩
    rintro pair ⟨hpair, hkey'⟩
    obtain ⟨w, hw, rfl⟩ := List.mem_map.mp hpair
    exact hinj w hw v hv (Eq.trans hkey' hkey.symm)
  · obtain ⟨v, hv, hkey, hpair⟩ := hnamed k p hp
    refine ⟨hpair ▸ List.mem_map_of_mem hv, ?_⟩
    rw [← hkey, keyOf, hpair]
  · obtain ⟨v, hv, hkey, hpair⟩ := hnamed k p hp
    have hsame : atKey q o k vs = vs.filter fun w =>
        pairOf o w = ((st.objects.channel p).topicName, (st.objects.channel p).channelName) := by
      refine List.filter_congr fun w hw => ?_
      rw [Bool.eq_iff_iff, decide_eq_true_eq, decide_eq_true_eq, ← hpair]
      constructor
      · exact fun hw' => hinj w hw v hv (hw'.trans hkey.symm)
      · intro hw'
        rw [← hkey, keyOf, keyOf, hw']
    rw [← hsame]
    exact h.totals k p hp

omit [AddCommGroup I] in
/-- When all calls fail there is nothing to add. -/
theorem visits_of_failed (o : Objects I) {calls : List (Call V)}
    (h : calls.countP (Call.failed q) = calls.length) : visits q o calls = [] := by
  rw [visits, List.flatMap_eq_nil_iff]
  intro call hcall
  have hfailed := List.countP_eq_length.mp h call hcall
  unfold Call.failed at hfailed
  unfold Call.topics
  split at hfailed
  · rfl
  · cases hfailed

theorem sums_of_empty (o o' : Objects I) (q : Query) : SumsOfNodes o q [] ∅ o' where
  keys _ h := nomatch h
  pair _ h := absurd h (AList.notMem_empty _)
  named _ _ h := nomatch h
  totals _ _ h := nomatch h
  shown _ h := nomatch h

theorem getXMQDStats_spec (s : Sorting) (a : Answers I V q) {done : List (Call V)}
    (hperm : done.Perm a.calls) : ∃ r, getXMQDStats s q a.objects done = some r ∧
      SumsOfNodes a.objects q (visits q a.objects a.calls) r.channelStats r.objects := by
  obtain ⟨st, hloop, hinv, herrs⟩ := merge_spec s a fun call hcall => hperm.mem_iff.mp hcall
  have hvisits := visits_perm (q := q) a.objects hperm
  have hsums := (hinv.sums fun v hv w hw => pairOf_of_keyOf a (hvisits.mem_iff.mp hv)
    (hvisits.mem_iff.mp hw)).perm hvisits
  unfold getXMQDStats
  simp only [hloop, Option.bind_eq_bind, Option.bind_some]
  split
  · rename_i hfailed
    rw [visits_of_failed a.objects (herrs.symm.trans hfailed)] at hvisits
    refine ⟨_, rfl, ?_⟩
    rw [← hvisits.nil_eq]
    exact sums_of_empty _ _ q
  · split
    · exact ⟨_, rfl, hsums⟩
    · exact ⟨_, rfl, hsums⟩

/-- Two results with the sums of the same channels. -/
theorem SumsOfNodes.same {o : Objects I} {vs : List Visit} {r r' : StatsResult I}
    (h : SumsOfNodes o q vs r.channelStats r.objects)
    (h' : SumsOfNodes o q vs r'.channelStats r'.objects) : SameTotals r r' := by
  have hkeys : ∀ {m m' : GoMap String ChannelPtr} {o₁ o₂ : Objects I}, SumsOfNodes o q vs m o₁ →
      SumsOfNodes o q vs m' o₂ → ∀ k ∈ m, k ∈ m' := by
    intro m m' o₁ o₂ h₁ h₂ k hk
    obtain ⟨pair, ⟨hpair, hkey⟩, -⟩ := h₁.pair k hk
    obtain ⟨v, hv, rfl⟩ := List.mem_map.mp hpair
    exact hkey ▸ h₂.keys v hv
  refine ⟨fun k => ⟨hkeys h h' k, hkeys h' h k⟩, fun k p p' hp hp' => ?_⟩
  have hk : k ∈ r.channelStats := AList.lookup_isSome.mp (by rw [hp]; rfl)
  have hpair := (h.pair k hk).unique (h.named k p hp) (h'.named k p' hp')
  have htotals := h.totals k p hp
  rw [hpair] at htotals
  have htotals' := h'.totals k p' hp'
  exact ⟨htotals.counters.trans htotals'.counters.symm, htotals.paused.trans htotals'.paused.symm⟩

/-- In whatever order the answers come, the result has the sums of the nodes, and the totals are the
same in any two orders. -/
structure MergesToSums (s : Sorting) (a : Answers I V q) : Prop where
  sums : ∀ done : List (Call V), done.Perm a.calls →
    ∃ r, getXMQDStats s q a.objects done = some r ∧
      SumsOfNodes a.objects q (visits q a.objects a.calls) r.channelStats r.objects
  same : ∀ (done done' : List (Call V)) (r r' : StatsResult I), done.Perm a.calls →
    done'.Perm a.calls → getXMQDStats s q a.objects done = some r →
    getXMQDStats s q a.objects done' = some r' → SameTotals r r'

end Answers

end Xmq.ClusterInfo
