import Mathlib.Algebra.Group.Pi.Basic
import Xmq.LatencyAggregate

/-!
# Statistics as objects

The readers of the statistics of several nodes work on objects behind pointers: a topic has the
statistics of its channels and of its nodes, a channel those of its nodes and of its clients. `Add`
changes the object that it adds to in place, and appends pointers to what is added. This module
translates `TopicStats.Add` and `ChannelStats.Add`.

* The counters are of any commutative group: integers, or machine words, which wrap around.
* A statistic without its latencies is a null pointer, which `Add` does not survive.
-/

namespace Xmq.ClusterInfo

open Quantile (Sorting E2eProcessingLatencyAggregate)

/-! ### Objects -/

abbrev TopicPtr := ℕ

abbrev ChannelPtr := ℕ

abbrev ClientPtr := ℕ

abbrev LatencyPtr := ℕ

structure ClientStats where
  node : String
  hostname : String

structure ChannelStats (I : Type) where
  node : String
  hostname : String
  topicName : String
  channelName : String
  depth : I
  memoryDepth : I
  backendDepth : I
  inFlightCount : I
  deferredCount : I
  requeueCount : I
  timeoutCount : I
  messageCount : I
  clientCount : I
  nodeStats : List ChannelPtr
  clients : List ClientPtr
  paused : Bool
  e2eProcessingLatency : Option LatencyPtr

structure TopicStats (I : Type) where
  node : String
  hostname : String
  topicName : String
  depth : I
  memoryDepth : I
  backendDepth : I
  messageCount : I
  nodeStats : List TopicPtr
  channels : List ChannelPtr
  paused : Bool
  e2eProcessingLatency : Option LatencyPtr

/-- The store, with the first pointers that are free. -/
structure Objects (I : Type) where
  topic : TopicPtr → TopicStats I
  channel : ChannelPtr → ChannelStats I
  client : ClientPtr → ClientStats
  latency : LatencyPtr → E2eProcessingLatencyAggregate
  nextTopic : TopicPtr
  nextChannel : ChannelPtr
  nextLatency : LatencyPtr

variable {I : Type}

namespace Objects

section Store

variable (o : Objects I)

def setTopic (t : TopicPtr) (x : TopicStats I) : Objects I :=
  { o with topic := Function.update o.topic t x }

def setChannel (c : ChannelPtr) (x : ChannelStats I) : Objects I :=
  { o with channel := Function.update o.channel c x }

def setClient (c : ClientPtr) (x : ClientStats) : Objects I :=
  { o with client := Function.update o.client c x }

def setLatency (p : LatencyPtr) (e : E2eProcessingLatencyAggregate) : Objects I :=
  { o with latency := Function.update o.latency p e }

def newTopic (x : TopicStats I) : TopicPtr × Objects I :=
  (o.nextTopic, { o.setTopic o.nextTopic x with nextTopic := o.nextTopic + 1 })

def newChannel (x : ChannelStats I) : ChannelPtr × Objects I :=
  (o.nextChannel, { o.setChannel o.nextChannel x with nextChannel := o.nextChannel + 1 })

def newLatency (e : E2eProcessingLatencyAggregate) : LatencyPtr × Objects I :=
  (o.nextLatency, { o.setLatency o.nextLatency e with nextLatency := o.nextLatency + 1 })

@[simp] theorem setTopic_self (t : TopicPtr) (x : TopicStats I) : (o.setTopic t x).topic t = x :=
  Function.update_self _ _ _

theorem setTopic_ne {t t' : TopicPtr} (x : TopicStats I) (h : t' ≠ t) :
    (o.setTopic t x).topic t' = o.topic t' :=
  Function.update_of_ne h _ _

@[simp] theorem setChannel_self (c : ChannelPtr) (x : ChannelStats I) :
    (o.setChannel c x).channel c = x :=
  Function.update_self _ _ _

theorem setChannel_ne {c c' : ChannelPtr} (x : ChannelStats I) (h : c' ≠ c) :
    (o.setChannel c x).channel c' = o.channel c' :=
  Function.update_of_ne h _ _

/-- `TopicStatsByHost`. -/
def topicLess (t t' : TopicPtr) : Bool := (o.topic t).hostname < (o.topic t').hostname

/-- `ChannelStatsByHost`. -/
def channelLess (c c' : ChannelPtr) : Bool := (o.channel c).hostname < (o.channel c').hostname

/-- `ClientsByHost`. -/
def clientLess (c c' : ClientPtr) : Bool := (o.client c).hostname < (o.client c').hostname

/-- `e.Add(e2)`, which needs both. -/
def addLatency (s : Sorting) (e e2 : Option LatencyPtr) : Option (Objects I) :=
  match e, e2 with
  | some p, some p2 => some (o.setLatency p ((o.latency p).add s (o.latency p2)))
  | _, _ => none

/-- The latencies of a channel, made when they are missing. -/
def ensureChannelLatency (c : ChannelPtr) : Objects I :=
  let cs := o.channel c
  match cs.e2eProcessingLatency with
  | some _ => o
  | none =>
    let (p, o) := o.newLatency (Quantile.empty cs.topicName cs.channelName cs.node)
    o.setChannel c { cs with e2eProcessingLatency := some p }

/-- The latencies of a topic, made when they are missing. -/
def ensureTopicLatency (t : TopicPtr) : Objects I :=
  let ts := o.topic t
  match ts.e2eProcessingLatency with
  | some _ => o
  | none =>
    let (p, o) := o.newLatency (Quantile.empty ts.topicName "" ts.node)
    o.setTopic t { ts with e2eProcessingLatency := some p }

end Store

end Objects

variable [AddCommGroup I]

/-- `&ChannelStats{Node: …, TopicName: …, ChannelName: …}`. -/
def ChannelStats.new (node topicName channelName : String) : ChannelStats I :=
  ⟨node, "", topicName, channelName, 0, 0, 0, 0, 0, 0, 0, 0, 0, [], [], false, none⟩

/-- `&TopicStats{TopicName: …}`. -/
def TopicStats.new (topicName : String) : TopicStats I :=
  ⟨"", "", topicName, 0, 0, 0, 0, [], [], false, none⟩

/-- What `Add` does to the counters of a channel. -/
def ChannelStats.addCounters (c a : ChannelStats I) : ChannelStats I :=
  { c with
    node := "*"
    depth := c.depth + a.depth
    memoryDepth := c.memoryDepth + a.memoryDepth
    backendDepth := c.backendDepth + a.backendDepth
    inFlightCount := c.inFlightCount + a.inFlightCount
    deferredCount := c.deferredCount + a.deferredCount
    requeueCount := c.requeueCount + a.requeueCount
    timeoutCount := c.timeoutCount + a.timeoutCount
    messageCount := c.messageCount + a.messageCount
    clientCount := c.clientCount + a.clientCount
    paused := if a.paused then a.paused else c.paused }

/-- What `Add` does to the counters of a topic. -/
def TopicStats.addCounters (t a : TopicStats I) : TopicStats I :=
  { t with
    node := "*"
    depth := t.depth + a.depth
    memoryDepth := t.memoryDepth + a.memoryDepth
    backendDepth := t.backendDepth + a.backendDepth
    messageCount := t.messageCount + a.messageCount
    paused := if a.paused then a.paused else t.paused }

namespace Objects

variable (s : Sorting)

/-- `c.Add(a)` of a channel. -/
def addChannelStats (o : Objects I) (c a : ChannelPtr) : Option (Objects I) := do
  let o := o.setChannel c { (o.channel c).addCounters (o.channel a) with
    nodeStats := s.sort o.channelLess ((o.channel c).nodeStats ++ [a]) }
  let o := o.ensureChannelLatency c
  let o ← o.addLatency s (o.channel c).e2eProcessingLatency (o.channel a).e2eProcessingLatency
  return o.setChannel c { o.channel c with
    clients := s.sort o.clientLess ((o.channel c).clients ++ (o.channel a).clients) }

/-- One round of the loop over `t.Channels`, for a channel `a` of what is added. -/
def matchChannel (a : ChannelPtr) (st : Bool × Objects I) (c : ChannelPtr) :
    Option (Bool × Objects I) :=
  if (st.2.channel a).channelName = (st.2.channel c).channelName then
    (st.2.addChannelStats s c a).map fun o => (true, o)
  else some st

/-- One round of the loop over `a.Channels`. -/
def addTopicChannel (t : TopicPtr) (o : Objects I) (a : ChannelPtr) : Option (Objects I) := do
  let (found, o) ← (o.topic t).channels.foldlM (matchChannel s a) (false, o)
  return if found then o
    else o.setTopic t { o.topic t with channels := (o.topic t).channels ++ [a] }

/-- `t.Add(a)` of a topic. -/
def addTopicStats (o : Objects I) (t a : TopicPtr) : Option (Objects I) := do
  let o := o.setTopic t ((o.topic t).addCounters (o.topic a))
  let o ← (o.topic a).channels.foldlM (addTopicChannel s t) o
  let o := o.setTopic t { o.topic t with
    nodeStats := s.sort o.topicLess ((o.topic t).nodeStats ++ [a]) }
  let o := o.ensureTopicLatency t
  o.addLatency s (o.topic t).e2eProcessingLatency (o.topic a).e2eProcessingLatency

end Objects

/-! ### What adding does -/

inductive Counter where
  | depth
  | memoryDepth
  | backendDepth
  | inFlightCount
  | deferredCount
  | requeueCount
  | timeoutCount
  | messageCount
  | clientCount

/-- The counters of a channel. -/
def ChannelStats.counters {I : Type} (c : ChannelStats I) : Counter → I
  | .depth => c.depth
  | .memoryDepth => c.memoryDepth
  | .backendDepth => c.backendDepth
  | .inFlightCount => c.inFlightCount
  | .deferredCount => c.deferredCount
  | .requeueCount => c.requeueCount
  | .timeoutCount => c.timeoutCount
  | .messageCount => c.messageCount
  | .clientCount => c.clientCount

theorem counters_addCounters (c a : ChannelStats I) :
    (c.addCounters a).counters = c.counters + a.counters := by
  funext i
  cases i <;> rfl

theorem paused_addCounters (c a : ChannelStats I) :
    (c.addCounters a).paused = (c.paused || a.paused) := by
  show (if a.paused then a.paused else c.paused) = _
  cases a.paused <;> cases c.paused <;> rfl

namespace Objects

variable {s : Sorting} {o o' : Objects I} {c a : ChannelPtr} {t : TopicPtr}

section Latencies

omit [AddCommGroup I]

theorem ensureChannelLatency_eq (o : Objects I) (c : ChannelPtr) :
    ∃ p latency nextLatency, o.ensureChannelLatency c = { o with
      channel := Function.update o.channel c
        { o.channel c with e2eProcessingLatency := some p }
      latency := latency
      nextLatency := nextLatency } := by
  unfold ensureChannelLatency
  cases hp : (o.channel c).e2eProcessingLatency with
  | some p =>
      refine ⟨p, o.latency, o.nextLatency, ?_⟩
      simp only [hp]
      rw [← hp, Function.update_eq_self]
  | none =>
      simp only [hp]
      exact ⟨o.nextLatency, _, _, rfl⟩

theorem ensureTopicLatency_eq (o : Objects I) (t : TopicPtr) :
    ∃ p latency nextLatency, o.ensureTopicLatency t = { o with
      topic := Function.update o.topic t { o.topic t with e2eProcessingLatency := some p }
      latency := latency
      nextLatency := nextLatency } := by
  unfold ensureTopicLatency
  cases hp : (o.topic t).e2eProcessingLatency with
  | some p =>
      refine ⟨p, o.latency, o.nextLatency, ?_⟩
      simp only [hp]
      rw [← hp, Function.update_eq_self]
  | none =>
      simp only [hp]
      exact ⟨o.nextLatency, _, _, rfl⟩

theorem addLatency_eq (s : Sorting) (o : Objects I) {e e2 : Option LatencyPtr} (he : e.isSome)
    (he2 : e2.isSome) : ∃ latency, o.addLatency s e e2 = some { o with latency := latency } := by
  obtain ⟨p, rfl⟩ := Option.isSome_iff_exists.mp he
  obtain ⟨p2, rfl⟩ := Option.isSome_iff_exists.mp he2
  exact ⟨_, rfl⟩

end Latencies

/-- What `Add` of a channel leaves. -/
structure Added (o o' : Objects I) (c a : ChannelPtr) : Prop where
  counters : (o'.channel c).counters = (o.channel c).counters + (o.channel a).counters
  paused : (o'.channel c).paused = ((o.channel c).paused || (o.channel a).paused)
  nodeStats : (o'.channel c).nodeStats.Perm ((o.channel c).nodeStats ++ [a])
  clients : (o'.channel c).clients.Perm ((o.channel c).clients ++ (o.channel a).clients)
  topicName : (o'.channel c).topicName = (o.channel c).topicName
  channelName : (o'.channel c).channelName = (o.channel c).channelName
  latency : (o'.channel c).e2eProcessingLatency.isSome
  other : ∀ q, q ≠ c → o'.channel q = o.channel q
  topic : o'.topic = o.topic
  client : o'.client = o.client
  nextChannel : o'.nextChannel = o.nextChannel

/-- The channel that is added to, and latencies, are all that changes. -/
theorem addChannelStats_eq (s : Sorting) (o : Objects I) (c : ChannelPtr)
    (ha : (o.channel a).e2eProcessingLatency.isSome) :
    ∃ p latency nextLatency, o.addChannelStats s c a = some { o with
      channel := Function.update o.channel c { (o.channel c).addCounters (o.channel a) with
        nodeStats := s.sort o.channelLess ((o.channel c).nodeStats ++ [a])
        e2eProcessingLatency := some p
        clients := s.sort o.clientLess ((o.channel c).clients ++ (o.channel a).clients) }
      latency := latency
      nextLatency := nextLatency } := by
  obtain ⟨o₁, ho₁⟩ : ∃ o₁, o₁ = o.setChannel c { (o.channel c).addCounters (o.channel a) with
    nodeStats := s.sort o.channelLess ((o.channel c).nodeStats ++ [a]) } := ⟨_, rfl⟩
  obtain ⟨p, latency, nextLatency, ho₂⟩ := ensureChannelLatency_eq o₁ c
  have hc : ((o₁.ensureChannelLatency c).channel c).e2eProcessingLatency.isSome := by
    rw [ho₂]
    simp
  have ha₂ : ((o₁.ensureChannelLatency c).channel a).e2eProcessingLatency.isSome ∧
      ((o₁.ensureChannelLatency c).channel a).clients = (o.channel a).clients := by
    by_cases hac : a = c
    · refine ⟨hac ▸ hc, ?_⟩
      rw [ho₂, ho₁, hac]
      simp [setChannel, ChannelStats.addCounters]
    · rw [ho₂, ho₁]
      simpa [setChannel, hac] using ha
  obtain ⟨latency', hadd⟩ := addLatency_eq s (o₁.ensureChannelLatency c) hc ha₂.1
  refine ⟨p, latency', nextLatency, ?_⟩
  unfold addChannelStats
  simp only [← ho₁, hadd, ha₂.2, Option.bind_eq_bind, Option.bind_some, Option.pure_def]
  rw [ho₂, ho₁]
  simp only [setChannel, Function.update_self, Function.update_idem]
  rfl

theorem addChannelStats_spec (s : Sorting) (o : Objects I) (c : ChannelPtr)
    (ha : (o.channel a).e2eProcessingLatency.isSome) :
    ∃ o', o.addChannelStats s c a = some o' ∧ Added o o' c a := by
  obtain ⟨p, latency, nextLatency, h⟩ := addChannelStats_eq s o c ha
  refine ⟨_, h, ?_⟩
  constructor
  · simp only [Function.update_self]
    exact counters_addCounters _ _
  · simp only [Function.update_self]
    exact paused_addCounters _ _
  · simp only [Function.update_self]
    exact s.perm _ _
  · simp only [Function.update_self]
    exact s.perm _ _
  · simp only [Function.update_self]
    rfl
  · simp only [Function.update_self]
    rfl
  · simp only [Function.update_self]
    rfl
  · intro q hq
    exact Function.update_of_ne hq _ _
  · rfl
  · rfl
  · rfl

end Objects

end Xmq.ClusterInfo
