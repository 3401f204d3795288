import Mathlib.Data.UInt
import Xmq.Deltas
import Xmq.StatsdPackets
import Xmq.TopicStats

/-!
# The counters that statsd adds up

Every round of `statsdLoop` sends, for each counter of each topic and channel, what it has grown by
since the last round that reached the server, found by name in the statistics of that round. What the
server has added up is, for each name, the last count of every topic or channel that had the name, as
far as a round saw the name go.

* The latency percentiles are floating point: their names and values are given with a round.
* `dialed` says that the UDP socket could be made; a round without one changes nothing.
-/

namespace Xmq.StatsdLoop

open Cluster (Stats TopicStats ChannelStats isEphemeral)
open Deltas

/-! ### What is sent -/

inductive TopicStat where
  | messageCount
  | messageBytes
  | depth
  | backendDepth
  | e2eProcessingLatency (quantile : String)
  deriving DecidableEq

inductive ChannelStat where
  | messageCount
  | depth
  | backendDepth
  | inFlightCount
  | deferredCount
  | requeueCount
  | timeoutCount
  | clients
  | e2eProcessingLatency (quantile : String)
  deriving DecidableEq

inductive Stat where
  | topic (topicName : String) (stat : TopicStat)
  | channel (topicName channelName : String) (stat : ChannelStat)
  | mem (stat : String)
  deriving DecidableEq

def TopicStat.text : TopicStat → String
  | messageCount => "message_count"
  | messageBytes => "message_bytes"
  | depth => "depth"
  | backendDepth => "backend_depth"
  | e2eProcessingLatency quantile => "e2e_processing_latency_" ++ quantile

def ChannelStat.text : ChannelStat → String
  | messageCount => "message_count"
  | depth => "depth"
  | backendDepth => "backend_depth"
  | inFlightCount => "in_flight_count"
  | deferredCount => "deferred_count"
  | requeueCount => "requeue_count"
  | timeoutCount => "timeout_count"
  | clients => "clients"
  | e2eProcessingLatency quantile => "e2e_processing_latency_" ++ quantile

def Stat.text : Stat → String
  | topic topicName stat => "topic." ++ topicName ++ "." ++ stat.text
  | channel topicName channelName stat =>
    "topic." ++ topicName ++ ".channel." ++ channelName ++ "." ++ stat.text
  | mem stat => "mem." ++ stat

/-- A call of the statsd client. -/
inductive Entry where
  | incr (stat : Stat) (count : Int64)
  | gauge (stat : Stat) (value : Int64)
  deriving DecidableEq

/-- The line that `Client.send` writes, without its newline. -/
def Entry.line (statsdPrefix : String) : Entry → Statsd.Line
  | incr stat count => ⟨(statsdPrefix ++ stat.text ++ ":" ++ toString count ++ "|c").toUTF8.toList⟩
  | gauge stat value => ⟨(statsdPrefix ++ stat.text ++ ":" ++ toString value ++ "|g").toUTF8.toList⟩

/-- The fields of `memStats`. -/
structure MemStats where
  heapObjects : UInt64
  heapIdleBytes : UInt64
  heapInUseBytes : UInt64
  heapReleasedBytes : UInt64
  gcPauseUsec100 : UInt64
  gcPauseUsec99 : UInt64
  gcPauseUsec95 : UInt64
  nextGCBytes : UInt64
  gcTotalRuns : UInt32

/-! ### A round -/

variable {κ : Type}

/-- Statistics in which no name is there twice, as those of a map of topics. -/
structure Snapshot (κ : Type) extends Stats κ where
  topicsNodup : (topics.map TopicStats.topicName).Nodup
  channelsNodup : ∀ t ∈ topics, (t.channels.map ChannelStats.channelName).Nodup

def Snapshot.empty : Snapshot κ where
  topics := []
  producers := []
  topicsNodup := List.nodup_nil
  channelsNodup _ ht := absurd ht List.not_mem_nil

/-- What a round finds: options, the statistics, and the percentiles with their names. -/
structure Round (κ : Type) where
  dialed : Bool
  statsdExcludeEphemeral : Bool
  stats : Snapshot κ
  topicLatency : String → List (String × Int64)
  channelLatency : String → String → List (String × Int64)
  /-- `getMemStats`, where `StatsdMemStats` is set. -/
  memStats : Option MemStats

/-- A new `TopicStats{}`, of which the loop reads the two counters and the channels. -/
def zeroTopic : TopicStats κ := ⟨"", [], 0, 0, 0, 0, false⟩

def zeroChannel : ChannelStats κ := ⟨"", 0, 0, 0, 0, 0, 0, 0, 0, [], false⟩

/-- The search of the last collection. -/
def findTopic (topics : List (TopicStats κ)) (topicName : String) : Option (TopicStats κ) :=
  topics.find? fun t => topicName = t.topicName

def findChannel (channels : List (ChannelStats κ)) (channelName : String) :
    Option (ChannelStats κ) :=
  channels.find? fun c => channelName = c.channelName

def diff (now last : UInt64) : Int64 := (now - last).toInt64

/-- The percentiles of a topic or a channel. -/
def latencyEntries (stat : String → Stat) (items : List (String × Int64)) : List Entry :=
  items.map fun item => .gauge (stat item.1) item.2

def channelEntries (r : Round κ) (t : TopicStats κ) (lastTopic : TopicStats κ) (c : ChannelStats κ) :
    List Entry :=
  if r.statsdExcludeEphemeral && isEphemeral c.channelName then []
  else
    let lastChannel := (findChannel lastTopic.channels c.channelName).getD zeroChannel
    let stat := Stat.channel t.topicName c.channelName
    [.incr (stat .messageCount) (diff c.messageCount lastChannel.messageCount),
      .gauge (stat .depth) (Int64.ofNat c.depth),
      .gauge (stat .backendDepth) (Int64.ofNat c.backendDepth),
      .gauge (stat .inFlightCount) (Int64.ofNat c.inFlightCount),
      .gauge (stat .deferredCount) (Int64.ofNat c.deferredCount),
      .incr (stat .requeueCount) (diff c.requeueCount lastChannel.requeueCount),
      .incr (stat .timeoutCount) (diff c.timeoutCount lastChannel.timeoutCount),
      .gauge (stat .clients) (Int64.ofNat c.clientCount)] ++
    latencyEntries (fun q => stat (.e2eProcessingLatency q))
      (r.channelLatency t.topicName c.channelName)

def topicEntries (r : Round κ) (lastStats : Stats κ) (t : TopicStats κ) : List Entry :=
  if r.statsdExcludeEphemeral && isEphemeral t.topicName then []
  else
    let lastTopic := (findTopic lastStats.topics t.topicName).getD zeroTopic
    let stat := Stat.topic t.topicName
    [.incr (stat .messageCount) (diff t.messageCount lastTopic.messageCount),
      .incr (stat .messageBytes) (diff t.messageBytes lastTopic.messageBytes),
      .gauge (stat .depth) (Int64.ofNat t.depth),
      .gauge (stat .backendDepth) (Int64.ofNat t.backendDepth)] ++
    latencyEntries (fun q => stat (.e2eProcessingLatency q)) (r.topicLatency t.topicName) ++
    t.channels.flatMap (channelEntries r t lastTopic)

def memEntries (ms last : MemStats) : List Entry :=
  [.gauge (.mem "heap_objects") ms.heapObjects.toInt64,
    .gauge (.mem "heap_idle_bytes") ms.heapIdleBytes.toInt64,
    .gauge (.mem "heap_in_use_bytes") ms.heapInUseBytes.toInt64,
    .gauge (.mem "heap_released_bytes") ms.heapReleasedBytes.toInt64,
    .gauge (.mem "gc_pause_usec_100") ms.gcPauseUsec100.toInt64,
    .gauge (.mem "gc_pause_usec_99") ms.gcPauseUsec99.toInt64,
    .gauge (.mem "gc_pause_usec_95") ms.gcPauseUsec95.toInt64,
    .gauge (.mem "next_gc_bytes") ms.nextGCBytes.toInt64,
    .incr (.mem "gc_runs") (ms.gcTotalRuns - last.gcTotalRuns).toUInt64.toInt64]

/-- What is sent of the memory, where it is asked for. -/
def memStatsEntries (last : MemStats) : Option MemStats → List Entry
  | some ms => memEntries ms last
  | none => []

/-- What a round sends, from the last collections. -/
def Round.entries (r : Round κ) (lastMemStats : MemStats) (lastStats : Stats κ) : List Entry :=
  r.stats.topics.flatMap (topicEntries r lastStats) ++ memStatsEntries lastMemStats r.memStats

/-- The variables of the loop, and what was sent so far. -/
structure Loop (κ : Type) where
  lastMemStats : MemStats
  lastStats : Snapshot κ
  sent : List Entry

def Loop.start : Loop κ := ⟨⟨0, 0, 0, 0, 0, 0, 0, 0, 0⟩, Snapshot.empty, []⟩

def Loop.round (l : Loop κ) (r : Round κ) : Loop κ :=
  if r.dialed then
    { lastMemStats := r.memStats.getD l.lastMemStats
      lastStats := r.stats
      sent := l.sent ++ r.entries l.lastMemStats l.lastStats.toStats }
  else l

def run (rounds : List (Round κ)) : Loop κ := rounds.foldl Loop.round Loop.start

/-! ### What the server adds up -/

/-- The increments of a counter, in order. -/
def counted (stat : Stat) (sent : List Entry) : List Int64 :=
  sent.filterMap fun
    | .incr s count => if s = stat then some count else none
    | .gauge _ _ => none

inductive TopicCounter where
  | messageCount
  | messageBytes

inductive ChannelCounter where
  | messageCount
  | requeueCount
  | timeoutCount

def TopicCounter.stat : TopicCounter → TopicStat
  | messageCount => .messageCount
  | messageBytes => .messageBytes

def TopicCounter.get : TopicCounter → TopicStats κ → UInt64
  | messageCount => TopicStats.messageCount
  | messageBytes => TopicStats.messageBytes

def ChannelCounter.stat : ChannelCounter → ChannelStat
  | messageCount => .messageCount
  | requeueCount => .requeueCount
  | timeoutCount => .timeoutCount

def ChannelCounter.get : ChannelCounter → ChannelStats κ → UInt64
  | messageCount => ChannelStats.messageCount
  | requeueCount => ChannelStats.requeueCount
  | timeoutCount => ChannelStats.timeoutCount

/-- A counter, by the names under which it is reported. -/
inductive Counter where
  | topic (topicName : String) (k : TopicCounter)
  | channel (topicName channelName : String) (k : ChannelCounter)

namespace Counter

def stat : Counter → Stat
  | topic t k => .topic t k.stat
  | channel t c k => .channel t c k.stat

/-- The counter in the statistics, where its topic and its channel are there. -/
def value (s : Stats κ) : Counter → Option UInt64
  | topic t k => (findTopic s.topics t).map k.get
  | channel t c k => (findTopic s.topics t).bind fun x => (findChannel x.channels c).map k.get

/-- A name of the counter is that of something ephemeral. -/
def ephemeral : Counter → Bool
  | topic t _ => isEphemeral t
  | channel t c _ => isEphemeral t || isEphemeral c

end Counter

/-- What the rounds that reached the server have seen of a counter. -/
def looks (k : Counter) (rounds : List (Round κ)) : List (Option UInt64) :=
  (rounds.filter Round.dialed).map fun r => k.value r.stats.toStats

/-! ### Entries of one name -/

section Named

variable {β γ δ : Type}

/-- What is picked for one name comes from those that have it. -/
theorem filterMap_flatMap_of_forall {l : List β} {f : β → List γ} {g : γ → Option δ}
    (h : ∀ x ∈ l, (f x).filterMap g = []) : (l.flatMap f).filterMap g = [] := by
  rw [List.filterMap_flatMap]
  exact List.flatMap_eq_nil_iff.mpr h

/-- Where names are different, only one has it. -/
theorem filterMap_flatMap_of_find {l : List β} {f : β → List γ} {g : γ → Option δ}
    {key : β → String} {name : String} {x : β} (hn : (l.map key).Nodup)
    (hx : l.find? (fun y => name = key y) = some x)
    (hf : ∀ y, name ≠ key y → (f y).filterMap g = []) :
    (l.flatMap f).filterMap g = (f x).filterMap g := by
  induction l with
  | nil => cases hx
  | cons y l ih =>
      obtain ⟨hy, hl⟩ := List.nodup_cons.mp hn
      rw [List.flatMap_cons, List.filterMap_append]
      by_cases hname : name = key y
      · rw [List.find?_cons_of_pos (by simpa using hname)] at hx
        cases hx
        have hrest : ∀ z ∈ l, (f z).filterMap g = [] := by
          intro z hz
          refine hf z fun hzn => hy ?_
          rw [← hname, hzn]
          exact List.mem_map_of_mem hz
        rw [filterMap_flatMap_of_forall hrest, List.append_nil]
      · rw [List.find?_cons_of_neg (by simpa using hname)] at hx
        rw [hf y hname, ih hl hx]
        rfl

end Named

theorem counted_append (stat : Stat) (es es' : List Entry) :
    counted stat (es ++ es') = counted stat es ++ counted stat es' := List.filterMap_append

theorem counted_latencyEntries (stat : Stat) (f : String → Stat) (items : List (String × Int64)) :
    counted stat (latencyEntries f items) = [] := by
  rw [counted, latencyEntries, List.filterMap_map]
  exact List.filterMap_eq_nil_iff.mpr fun _ _ => rfl

variable {r : Round κ} {last : Stats κ}

/-- What a channel sends of one of its own counters. -/
theorem counted_channelEntries (t lastTopic : TopicStats κ) (c : ChannelStats κ) (k : ChannelCounter) :
    counted (.channel t.topicName c.channelName k.stat) (channelEntries r t lastTopic c) =
      if r.statsdExcludeEphemeral && isEphemeral c.channelName then []
      else [diff (k.get c) (k.get ((findChannel lastTopic.channels c.channelName).getD zeroChannel))] := by
  unfold channelEntries
  split
  · rfl
  · rw [counted_append, counted_latencyEntries, List.append_nil]
    cases k <;> simp [counted, ChannelCounter.stat, ChannelCounter.get]

/-- A channel sends nothing under other names. -/
theorem counted_channelEntries_of_ne {t lastTopic : TopicStats κ} {c : ChannelStats κ} {stat : Stat}
    (h : ∀ k, stat ≠ .channel t.topicName c.channelName k) :
    counted stat (channelEntries r t lastTopic c) = [] := by
  have hne : ∀ k, Stat.channel t.topicName c.channelName k ≠ stat := fun k => (h k).symm
  unfold channelEntries
  split
  · rfl
  · rw [counted_append, counted_latencyEntries, List.append_nil]
    simp [counted, hne]

/-- What a topic sends of one of its own counters. -/
theorem counted_topicEntries (t : TopicStats κ) (k : TopicCounter) :
    counted (.topic t.topicName k.stat) (topicEntries r last t) =
      if r.statsdExcludeEphemeral && isEphemeral t.topicName then []
      else [diff (k.get t) (k.get ((findTopic last.topics t.topicName).getD zeroTopic))] := by
  unfold topicEntries
  split
  · rfl
  · have hchannels : counted (.topic t.topicName k.stat) (t.channels.flatMap
        (channelEntries r t ((findTopic last.topics t.topicName).getD zeroTopic))) = [] := by
      rw [counted, List.filterMap_flatMap]
      exact List.flatMap_eq_nil_iff.mpr fun c _ =>
        counted_channelEntries_of_ne fun k' => Stat.noConfusion
    simp only [counted_append, counted_latencyEntries, hchannels, List.append_nil]
    cases k <;> simp [counted, TopicCounter.stat, TopicCounter.get]

/-- What a topic sends of a counter of one of its channels. -/
theorem counted_topicEntries_channel {t : TopicStats κ}
    (hn : (t.channels.map ChannelStats.channelName).Nodup) (c : String) (k : ChannelCounter) :
    counted (.channel t.topicName c k.stat) (topicEntries r last t) =
      if r.statsdExcludeEphemeral && (isEphemeral t.topicName || isEphemeral c) then []
      else
        match findChannel t.channels c with
        | some x => [diff (k.get x) (k.get ((findChannel
            ((findTopic last.topics t.topicName).getD zeroTopic).channels c).getD zeroChannel))]
        | none => [] := by
  unfold topicEntries
  by_cases ht : (r.statsdExcludeEphemeral && isEphemeral t.topicName) = true
  · rw [if_pos ht, if_pos (by simp_all)]
    rfl
  · rw [if_neg ht]
    simp only [counted_append, counted_latencyEntries, List.append_nil]
    have hown : counted (.channel t.topicName c k.stat)
        [.incr (.topic t.topicName .messageCount) (diff t.messageCount
            ((findTopic last.topics t.topicName).getD zeroTopic).messageCount),
          .incr (.topic t.topicName .messageBytes) (diff t.messageBytes
            ((findTopic last.topics t.topicName).getD zeroTopic).messageBytes),
          .gauge (.topic t.topicName .depth) (Int64.ofNat t.depth),
          .gauge (.topic t.topicName .backendDepth) (Int64.ofNat t.backendDepth)] = [] := by
      simp [counted]
    have hexclude : (r.statsdExcludeEphemeral && (isEphemeral t.topicName || isEphemeral c)) =
        (r.statsdExcludeEphemeral && isEphemeral c) := by
      cases hr : r.statsdExcludeEphemeral with
      | false => rfl
      | true =>
          rw [hr, Bool.true_and, Bool.not_eq_true] at ht
          rw [ht, Bool.false_or]
    rw [hown, List.nil_append, hexclude]
    cases hx : findChannel t.channels c with
    | none =>
        have hnone : ∀ x ∈ t.channels, counted (.channel t.topicName c k.stat) (channelEntries r t
            ((findTopic last.topics t.topicName).getD zeroTopic) x) = [] := by
          intro x hxm
          refine counted_channelEntries_of_ne fun k' => ?_
          rintro ⟨⟩
          exact of_decide_eq_false (Bool.eq_false_iff.mpr (List.find?_eq_none.mp hx x hxm)) rfl
        rw [counted, filterMap_flatMap_of_forall hnone]
        split <;> rfl
    | some x =>
        have hname : c = x.channelName := by simpa using List.find?_some hx
        rw [counted, filterMap_flatMap_of_find hn hx, hname]
        · exact counted_channelEntries t _ x k
        · intro y hy
          refine counted_channelEntries_of_ne fun k' => ?_
          rintro ⟨⟩
          exact hy rfl

/-- A topic sends nothing under the names of another. -/
theorem counted_topicEntries_of_ne {t : TopicStats κ} {stat : Stat}
    (htopic : ∀ k, stat ≠ .topic t.topicName k) (hchannel : ∀ c k, stat ≠ .channel t.topicName c k) :
    counted stat (topicEntries r last t) = [] := by
  have hne : ∀ k, Stat.topic t.topicName k ≠ stat := fun k => (htopic k).symm
  unfold topicEntries
  split
  · rfl
  · have hchannels : counted stat (t.channels.flatMap
        (channelEntries r t ((findTopic last.topics t.topicName).getD zeroTopic))) = [] := by
      rw [counted, List.filterMap_flatMap]
      exact List.flatMap_eq_nil_iff.mpr fun c _ =>
        counted_channelEntries_of_ne fun k => hchannel c.channelName k
    simp only [counted_append, counted_latencyEntries, hchannels, List.append_nil]
    simp [counted, hne]

theorem counted_memStatsEntries (k : Counter) (lastMs : MemStats) (ms : Option MemStats) :
    counted k.stat (memStatsEntries lastMs ms) = [] := by
  cases ms with
  | none => rfl
  | some ms => cases k <;> rfl

/-! ### A round -/

/-- What a round reports of a counter. -/
theorem counted_topics (r : Round κ) (last : Stats κ) (k : Counter) :
    counted k.stat (r.stats.topics.flatMap (topicEntries r last)) =
      if r.statsdExcludeEphemeral && k.ephemeral then []
      else
        match k.value r.stats.toStats with
        | some v => [diff v ((k.value last).getD 0)]
        | none => [] := by
  cases k with
  | topic t k =>
      have hne : ∀ y : TopicStats κ, t ≠ y.topicName →
          counted (.topic t k.stat) (topicEntries r last y) = [] := by
        intro y hy
        refine counted_topicEntries_of_ne (fun k' => ?_) fun c k' => Stat.noConfusion
        rintro ⟨⟩
        exact hy rfl
      cases hx : findTopic r.stats.topics t with
      | none =>
          have hnone : ∀ y ∈ r.stats.topics, counted (.topic t k.stat) (topicEntries r last y) = [] :=
            fun y hy => hne y fun hyn => List.find?_eq_none.mp hx y hy (decide_eq_true hyn)
          rw [counted, Counter.stat, filterMap_flatMap_of_forall hnone, Counter.value, hx]
          split <;> rfl
      | some x =>
          have hname : t = x.topicName := by simpa using List.find?_some hx
          rw [counted, Counter.stat, filterMap_flatMap_of_find r.stats.topicsNodup hx hne,
            Counter.value, hx, Counter.value, Counter.ephemeral]
          rw [hname]
          refine (counted_topicEntries x k).trans ?_
          split
          · rfl
          · cases findTopic last.topics x.topicName with
            | none => cases k <;> rfl
            | some y => rfl
  | channel t c k =>
      have hne : ∀ y : TopicStats κ, t ≠ y.topicName →
          counted (.channel t c k.stat) (topicEntries r last y) = [] := by
        intro y hy
        refine counted_topicEntries_of_ne (fun k' => Stat.noConfusion) fun c' k' => ?_
        rintro ⟨⟩
        exact hy rfl
      cases hx : findTopic r.stats.topics t with
      | none =>
          have hnone : ∀ y ∈ r.stats.topics,
              counted (.channel t c k.stat) (topicEntries r last y) = [] :=
            fun y hy => hne y fun hyn => List.find?_eq_none.mp hx y hy (decide_eq_true hyn)
          rw [counted, Counter.stat, filterMap_flatMap_of_forall hnone, Counter.value, hx]
          split <;> rfl
      | some x =>
          have hname : t = x.topicName := by simpa using List.find?_some hx
          rw [counted, Counter.stat, filterMap_flatMap_of_find r.stats.topicsNodup hx hne,
            Counter.value, hx, Counter.value, Counter.ephemeral]
          rw [hname]
          refine (counted_topicEntries_channel
            (r.stats.channelsNodup x (List.mem_of_find?_eq_some hx)) c k).trans ?_
          split
          · rfl
          · rw [Option.bind_some]
            cases findChannel x.channels c with
            | none => rfl
            | some z =>
                cases findTopic last.topics x.topicName with
                | none => cases k <;> rfl
                | some y =>
                    rw [Option.getD_some, Option.bind_some]
                    cases findChannel y.channels c with
                    | none => cases k <;> rfl
                    | some u => rfl

/-! ### Runs -/

theorem looks_cons (k : Counter) (r : Round κ) (rounds : List (Round κ)) :
    looks k (r :: rounds) =
      if r.dialed then k.value r.stats.toStats :: looks k rounds else looks k rounds := by
  unfold looks
  rw [List.filter_cons]
  split <;> rfl

/-- From any state of the loop, the increments of a counter are those of its looks. -/
theorem counted_foldl (k : Counter) (rounds : List (Round κ)) (l : Loop κ)
    (hexclude : ∀ r ∈ rounds, (r.statsdExcludeEphemeral && k.ephemeral) = false) :
    counted k.stat (rounds.foldl Loop.round l).sent =
      counted k.stat l.sent ++
        (deltas (k.value l.lastStats.toStats) (looks k rounds)).map UInt64.toInt64 := by
  induction rounds generalizing l with
  | nil => exact (List.append_nil _).symm
  | cons r rounds ih =>
      rw [List.foldl_cons, ih _ fun x hx => hexclude x (List.mem_cons_of_mem r hx), looks_cons,
        Loop.round]
      split
      · simp only [Round.entries, counted_append, counted_memStatsEntries, List.append_nil,
          counted_topics, hexclude r List.mem_cons_self]
        cases hv : k.value r.stats.toStats with
        | none => rw [deltas_cons_none]; simp
        | some v => rw [deltas_cons_some]; simp [diff]
      · rfl

theorem value_empty (k : Counter) : k.value (Snapshot.empty : Snapshot κ).toStats = none := by
  cases k <;> rfl

theorem counted_run (k : Counter) (rounds : List (Round κ))
    (hexclude : ∀ r ∈ rounds, (r.statsdExcludeEphemeral && k.ephemeral) = false) :
    counted k.stat (run rounds).sent = (deltas none (looks k rounds)).map UInt64.toInt64 := by
  rw [run, counted_foldl k rounds _ hexclude]
  show [] ++ (deltas (k.value (Snapshot.empty : Snapshot κ).toStats) (looks k rounds)).map _ = _
  rw [value_empty, List.nil_append]

/-- The difference that is sent, where both counts are positive as signed numbers. -/
theorem toInt_diff {v u : UInt64} (hv : v.toNat < 2 ^ 63) (hu : u.toNat < 2 ^ 63) :
    (v - u).toInt64.toInt = (v.toNat : ℤ) - u.toNat := by
  rw [UInt64.toInt64, Int64.toInt, Int64.toBitVec, BitVec.toInt_eq_toNat_bmod]
  have hsub : (v - u).toBitVec.toNat = (2 ^ 64 - u.toNat + v.toNat) % 2 ^ 64 := UInt64.toNat_sub v u
  rw [hsub, Int.bmod]
  omega

/-- The datagrams of a round are its lines, where the interval has time for them. -/
theorem entries_datagrams (statsdPrefix : String) (es : List Entry) (wake : ℕ → Statsd.Wake)
    {statsdInterval : ℤ} {size : ℕ} (hsize : 0 < size)
    (htime : ((Packing.pack size Statsd.Line.length (es.map (Entry.line statsdPrefix))).length : ℤ) ≤
      statsdInterval - Statsd.second) :
    ∃ datagrams, Statsd.statsdRound 2 wake statsdInterval size (es.map (Entry.line statsdPrefix)) =
        some (.ok datagrams) ∧
      Statsd.Whole size (es.map (Entry.line statsdPrefix)) datagrams := by
  rw [Statsd.statsdRound_eq wake statsdInterval hsize Nat.one_lt_two, if_pos (.inr htime)]
  exact ⟨_, rfl, Statsd.pack_whole size _⟩

/-- **The counters add up.** Whatever rounds fail to reach the server, and whatever topics and channels
come and go: a counter whose names are not left out is reported so that the increments add up to the
last counts of its lives, modulo the width of the counter; and exactly, while the counts stay positive
as signed numbers. -/
theorem increments_add_up (k : Counter) (rounds : List (Round κ))
    (hexclude : ∀ r ∈ rounds, (r.statsdExcludeEphemeral && k.ephemeral) = false) :
    ((counted k.stat (run rounds).sent).map Int64.toUInt64).sum = (lives none (looks k rounds)).sum ∧
      ((∀ look ∈ looks k rounds, ∀ v ∈ look, v.toNat < 2 ^ 63) →
        ((counted k.stat (run rounds).sent).map Int64.toInt).sum =
          ((lives none (looks k rounds)).map fun v => (v.toNat : ℤ)).sum) := by
  rw [counted_run k rounds hexclude]
  constructor
  · have hid : (Int64.toUInt64 ∘ UInt64.toInt64) = id := rfl
    rw [List.map_map, hid, List.map_id, sum_deltas_none]
  · intro hlooks
    have hmap := deltas_map (f := fun v : UInt64 => (v.toNat : ℤ))
      (g := fun v : UInt64 => v.toInt64.toInt) (P := fun v => v.toNat < 2 ^ 63) rfl (by decide)
      (fun v u hv hu => toInt_diff hv hu) none (looks k rounds) (fun u hu => (by cases hu)) hlooks
    rw [List.map_map, ← lives_map, Option.map_none, ← sum_deltas_none]
    exact congrArg List.sum hmap

/-- The statistics of one topic, with a channel. -/
def oneTopic (count : UInt64) : Snapshot Unit where
  topics := [⟨"t", [⟨"c", 0, 0, 0, 0, count, 0, 0, 0, [], false⟩], 0, 0, count, 0, false⟩]
  producers := []
  topicsNodup := List.nodup_singleton _
  channelsNodup t ht := by
    rw [List.mem_singleton.mp ht]
    exact List.nodup_singleton _

/-- Counts of 5 and 9 with a round between them that fails, a round without the topic, and a count of 2. -/
def fiveRounds : List (Round Unit) :=
  [⟨true, false, oneTopic 5, fun _ => [], fun _ _ => [], none⟩,
    ⟨false, false, oneTopic 7, fun _ => [], fun _ _ => [], none⟩,
    ⟨true, false, oneTopic 9, fun _ => [], fun _ _ => [], none⟩,
    ⟨true, false, Snapshot.empty, fun _ => [], fun _ _ => [], none⟩,
    ⟨true, false, oneTopic 2, fun _ => [], fun _ _ => [], none⟩]

theorem looks_fiveRounds :
    looks (.channel "t" "c" .messageCount) fiveRounds = [some 5, some 9, none, some 2] := by
  decide

theorem increments_add_up_fiveRounds :
    ((counted (.channel "t" "c" .messageCount) (run fiveRounds).sent).map Int64.toUInt64).sum =
      (lives none (looks (.channel "t" "c" .messageCount) fiveRounds)).sum ∧
      ((counted (.channel "t" "c" .messageCount) (run fiveRounds).sent).map Int64.toInt).sum =
        ((lives none (looks (.channel "t" "c" .messageCount) fiveRounds)).map
          fun v => (v.toNat : ℤ)).sum := by
  obtain ⟨hsum, hexact⟩ := increments_add_up (.channel "t" "c" .messageCount) fiveRounds (by decide)
  refine ⟨hsum, hexact fun look hlook v hv => ?_⟩
  rw [looks_fiveRounds] at hlook
  simp only [List.mem_cons, List.not_mem_nil, or_false] at hlook
  rcases hlook with rfl | rfl | rfl | rfl <;> cases hv <;> decide

end Xmq.StatsdLoop
