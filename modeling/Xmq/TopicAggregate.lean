import Xmq.KeyedList
import Xmq.Runs
import Xmq.StatsObjects

/-!
# The aggregate of a topic

`topicHandler` adds the statistics of a topic on all its nodes to a fresh `TopicStats`. Where the
aggregate has no channel of a name yet, `Add` appends the pointer to the channel of the node, and
what later nodes have is added to that object.

* The counters of the aggregate are the sums over the nodes.
* The first node with a channel has no entry of its own under it.
* The object of the first node holds the sums afterwards, and not what the node has.
-/

namespace Xmq.ClusterInfo

open KeyedList
open Quantile (Sorting)

variable {I : Type} [AddCommGroup I]

namespace Objects

variable (s : Sorting)

/-- `&TopicStats{TopicName: topicName}`, to which the nodes are added. -/
def aggregate (o : Objects I) (topicName : String) (nodes : List TopicPtr) :
    Option (TopicPtr × Objects I) := do
  let (t, o) := o.newTopic (.new topicName)
  let o ← nodes.foldlM (fun o a => o.addTopicStats s t a) o
  return (t, o)

end Objects

/-- Statistics of a topic as nodes send them: different objects in the store, with latencies, one
channel for each name, and without nodes of their own. -/
structure NodeTopics (I : Type) where
  objects : Objects I
  nodes : List TopicPtr
  stored : ∀ a ∈ nodes, a < objects.nextTopic
  distinct : (nodes.flatMap fun a => (objects.topic a).channels).Nodup
  names : ∀ a ∈ nodes,
    ((objects.topic a).channels.map fun c => (objects.channel c).channelName).Nodup
  plain : ∀ a ∈ nodes, ∀ c ∈ (objects.topic a).channels, (objects.channel c).nodeStats = []
  topicLatency : ∀ a ∈ nodes, (objects.topic a).e2eProcessingLatency.isSome
  channelLatency : ∀ a ∈ nodes, ∀ c ∈ (objects.topic a).channels,
    (objects.channel c).e2eProcessingLatency.isSome

namespace NodeTopics

variable {I : Type} (n : NodeTopics I)

/-- The channels of all nodes. -/
def channels : List ChannelPtr := n.nodes.flatMap fun a => (n.objects.topic a).channels

def nameOf (c : ChannelPtr) : String := (n.objects.channel c).channelName

/-- The channels of a name. -/
def named (name : String) (cs : List ChannelPtr) : List ChannelPtr :=
  cs.filter fun c => n.nameOf c = name

end NodeTopics

/-! ### One channel -/

namespace Objects

variable {s : Sorting} {o o' : Objects I} {a c : ChannelPtr}

/-- No name changes. -/
theorem Added.name (h : Added o o' c a) (p : ChannelPtr) :
    (o'.channel p).channelName = (o.channel p).channelName := by
  by_cases hp : p = c
  · rw [hp, h.channelName]
  · rw [h.other p hp]

theorem matchChannel_none {cs : List ChannelPtr} (st : Bool × Objects I)
    (h : ∀ c ∈ cs, (st.2.channel a).channelName ≠ (st.2.channel c).channelName) :
    cs.foldlM (matchChannel s a) st = some st := by
  induction cs with
  | nil => rfl
  | cons c cs ih =>
      obtain ⟨hc, hcs⟩ := List.forall_mem_cons.mp h
      rw [List.foldlM_cons, matchChannel, if_neg hc]
      exact ih hcs

/-- In channels with one for each name, the loop adds to the one with the name. -/
theorem matchChannel_some (s : Sorting) {key : ChannelPtr → String} {cs : List ChannelPtr}
    (hkey : ∀ p, (o.channel p).channelName = key p) (hnodup : (cs.map key).Nodup)
    (ha : (o.channel a).e2eProcessingLatency.isSome) (hc : item key (key a) cs = some c) :
    ∃ o', cs.foldlM (matchChannel s a) (false, o) = some (true, o') ∧ Added o o' c a := by
  induction cs with
  | nil => cases hc
  | cons b cs ih =>
      obtain ⟨hb, hnodup⟩ := List.nodup_cons.mp hnodup
      rw [item_cons] at hc
      rw [List.foldlM_cons, matchChannel]
      by_cases hba : key b = key a
      · rw [if_pos hba] at hc
        cases hc
        obtain ⟨o', hadd, hadded⟩ := addChannelStats_spec s o c ha
        refine ⟨o', ?_, hadded⟩
        rw [if_pos (by rw [hkey, hkey, hba]), hadd]
        refine matchChannel_none (true, o') fun d hd => ?_
        rw [hadded.name, hadded.name, hkey, hkey, ← hba]
        exact fun heq => hb (heq ▸ List.mem_map_of_mem hd)
      · rw [if_neg hba] at hc
        rw [if_neg (by rw [hkey, hkey]; exact Ne.symm hba)]
        exact ih hnodup hc

end Objects

/-! ### The invariant -/

/-- What a channel of the aggregate holds after the channels `vs`. -/
structure Holds (n : NodeTopics I) (vs : List ChannelPtr) (o : Objects I) (c : ChannelPtr)
    (rest : List ChannelPtr) : Prop where
  named : n.named (n.nameOf c) vs = c :: rest
  counters : (o.channel c).counters =
    ((c :: rest).map fun c' => (n.objects.channel c').counters).sum
  nodeStats : (o.channel c).nodeStats.Perm ((n.objects.channel c).nodeStats ++ rest)

/-- After the channels `vs`: the aggregate has the first channel of each name, which holds the
sum. -/
structure Aggregates (n : NodeTopics I) (vs : List ChannelPtr) (o : Objects I) : Prop where
  names : ∀ c, (o.channel c).channelName = n.nameOf c
  once : ((o.topic n.objects.nextTopic).channels.map n.nameOf).Nodup
  first : ∀ name, item n.nameOf name (o.topic n.objects.nextTopic).channels =
    (n.named name vs).head?
  holds : ∀ c ∈ (o.topic n.objects.nextTopic).channels, ∃ rest, Holds n vs o c rest
  untouched : ∀ c, c ∉ (o.topic n.objects.nextTopic).channels →
    o.channel c = n.objects.channel c
  latency : ∀ c, (n.objects.channel c).e2eProcessingLatency.isSome →
    (o.channel c).e2eProcessingLatency.isSome
  others : ∀ a, a ≠ n.objects.nextTopic → o.topic a = n.objects.topic a

section Step

variable {n : NodeTopics I} {vs : List ChannelPtr} {o : Objects I} {a c : ChannelPtr}

omit [AddCommGroup I] in
theorem named_concat (n : NodeTopics I) (name : String) (vs : List ChannelPtr) (a : ChannelPtr) :
    n.named name (vs ++ [a]) =
      n.named name vs ++ if n.nameOf a = name then [a] else [] := by
  by_cases ha : n.nameOf a = name <;> simp [NodeTopics.named, List.filter_append, ha]

/-- The channels of the aggregate are among those that came. -/
theorem Aggregates.mem (h : Aggregates n vs o) (hc : c ∈ (o.topic n.objects.nextTopic).channels) :
    c ∈ vs := by
  obtain ⟨rest, hrest⟩ := h.holds c hc
  have hmem : c ∈ n.named (n.nameOf c) vs := by
    rw [hrest.named]
    exact List.mem_cons_self
  exact (List.mem_filter.mp hmem).1

/-- The first channel of its name is appended. -/
theorem Aggregates.append (h : Aggregates n vs o)
    (hnew : item n.nameOf (n.nameOf a) (o.topic n.objects.nextTopic).channels = none) :
    Aggregates n (vs ++ [a]) (o.setTopic n.objects.nextTopic { o.topic n.objects.nextTopic with
      channels := (o.topic n.objects.nextTopic).channels ++ [a] }) := by
  have hne : ∀ c ∈ (o.topic n.objects.nextTopic).channels, n.nameOf a ≠ n.nameOf c :=
    fun c hc heq => item_eq_none.mp hnew (heq ▸ List.mem_map_of_mem hc)
  have hnone : n.named (n.nameOf a) vs = [] := by
    rw [h.first, List.head?_eq_none_iff] at hnew
    exact hnew
  have ha : a ∉ (o.topic n.objects.nextTopic).channels := fun hmem => hne a hmem rfl
  have htopic := o.setTopic_self n.objects.nextTopic { o.topic n.objects.nextTopic with
    channels := (o.topic n.objects.nextTopic).channels ++ [a] }
  refine ⟨h.names, ?_, fun name => ?_, fun c hc => ?_, fun c hc => ?_, h.latency, fun b hb => ?_⟩
  · rw [htopic, List.map_append, List.nodup_append]
    refine ⟨h.once, List.nodup_singleton _, ?_⟩
    rintro name hname name' hname' rfl
    obtain ⟨c, hc, rfl⟩ := List.mem_map.mp hname
    exact hne c hc (List.mem_singleton.mp hname').symm
  · rw [htopic, item_concat, h.first, named_concat, List.head?_append]
    congr 1
    split <;> rfl
  · rw [htopic, List.mem_append, List.mem_singleton] at hc
    rcases hc with hc | rfl
    · obtain ⟨rest, hrest⟩ := h.holds c hc
      refine ⟨rest, ?_, hrest.counters, hrest.nodeStats⟩
      rw [named_concat, if_neg (hne c hc), List.append_nil, hrest.named]
    · refine ⟨[], ?_, ?_, ?_⟩
      · rw [named_concat, if_pos rfl, hnone, List.nil_append]
      · rw [List.map_singleton, List.sum_singleton]
        exact congrArg ChannelStats.counters (h.untouched c ha)
      · rw [List.append_nil]
        exact .of_eq (congrArg ChannelStats.nodeStats (h.untouched c ha))
  · rw [htopic, List.mem_append, not_or] at hc
    exact h.untouched c hc.1
  · rw [Objects.setTopic_ne _ _ hb]
    exact h.others b hb

/-- A later channel of the name is added to the first. -/
theorem Aggregates.added (h : Aggregates n vs o) (ha : a ∉ vs)
    (hc : item n.nameOf (n.nameOf a) (o.topic n.objects.nextTopic).channels = some c)
    {o' : Objects I} (hadded : Objects.Added o o' c a) : Aggregates n (vs ++ [a]) o' := by
  have hmem : c ∈ (o.topic n.objects.nextTopic).channels := mem_of_item hc
  have hname : n.nameOf c = n.nameOf a := key_of_item hc
  have hself : o.channel a = n.objects.channel a :=
    h.untouched a fun hin => ha (h.mem hin)
  refine ⟨fun p => ?_, ?_, fun name => ?_, fun p hp => ?_, fun p hp => ?_, fun p hp => ?_,
    fun b hb => ?_⟩
  · rw [hadded.name, h.names]
  · rw [hadded.topic]
    exact h.once
  · rw [hadded.topic, h.first, named_concat, List.head?_append]
    by_cases heq : n.nameOf a = name
    · subst heq
      rw [← h.first, hc, Option.some_or]
    · rw [if_neg heq, List.head?_nil, Option.or_none]
  · rw [hadded.topic] at hp
    obtain ⟨rest, hrest⟩ := h.holds p hp
    by_cases hpc : p = c
    · subst hpc
      refine ⟨rest ++ [a], ?_, ?_, ?_⟩
      · rw [named_concat, if_pos hname.symm, hrest.named, List.cons_append]
      · rw [hadded.counters, hrest.counters, hself, ← List.cons_append, List.map_append,
          List.sum_append, List.map_singleton, List.sum_singleton]
      · rw [← List.append_assoc]
        exact hadded.nodeStats.trans (hrest.nodeStats.append_right _)
    · have hne : n.nameOf a ≠ n.nameOf p := by
        rw [← hname]
        exact fun heq => hpc (List.inj_on_of_nodup_map h.once hp hmem heq.symm)
      refine ⟨rest, ?_, ?_, ?_⟩
      · rw [named_concat, if_neg hne, List.append_nil, hrest.named]
      · rw [hadded.other p hpc, hrest.counters]
      · rw [hadded.other p hpc]
        exact hrest.nodeStats
  · rw [hadded.topic] at hp
    have hpc : p ≠ c := fun heq => hp (heq ▸ hmem)
    rw [hadded.other p hpc, h.untouched p hp]
  · by_cases hpc : p = c
    · rw [hpc]
      exact hadded.latency
    · rw [hadded.other p hpc]
      exact h.latency p hp
  · rw [hadded.topic]
    exact h.others b hb

theorem addTopicChannel_spec (s : Sorting) (h : Aggregates n vs o) (ha : a ∉ vs)
    (hlatency : (n.objects.channel a).e2eProcessingLatency.isSome) :
    ∃ o', o.addTopicChannel s n.objects.nextTopic a = some o' ∧ Aggregates n (vs ++ [a]) o' := by
  unfold Objects.addTopicChannel
  cases hc : item n.nameOf (n.nameOf a) (o.topic n.objects.nextTopic).channels with
  | none =>
      have hloop : (o.topic n.objects.nextTopic).channels.foldlM (Objects.matchChannel s a)
          (false, o) = some (false, o) := by
        refine Objects.matchChannel_none (false, o) fun c hc' heq => item_eq_none.mp hc ?_
        rw [h.names, h.names] at heq
        exact heq ▸ List.mem_map_of_mem hc'
      rw [hloop]
      exact ⟨_, rfl, h.append hc⟩
  | some c =>
      obtain ⟨o', hloop, hadded⟩ :=
        Objects.matchChannel_some s h.names h.once (h.latency a hlatency) hc
      rw [hloop]
      exact ⟨o', rfl, h.added ha hc hadded⟩

/-! ### All nodes -/

/-- Only the channels of the aggregate matter. -/
theorem Aggregates.congr (h : Aggregates n vs o) {o' : Objects I}
    (hchannel : o'.channel = o.channel)
    (hself : (o'.topic n.objects.nextTopic).channels = (o.topic n.objects.nextTopic).channels)
    (hothers : ∀ b, b ≠ n.objects.nextTopic → o'.topic b = o.topic b) : Aggregates n vs o' where
  names := hchannel ▸ h.names
  once := hself ▸ h.once
  first := hself ▸ h.first
  holds c hc := by
    obtain ⟨rest, hrest⟩ := h.holds c (hself ▸ hc)
    exact ⟨rest, hrest.named, hchannel ▸ hrest.counters, hchannel ▸ hrest.nodeStats⟩
  untouched c hc := hchannel ▸ h.untouched c (hself ▸ hc)
  latency := hchannel ▸ h.latency
  others b hb := (hothers b hb).trans (h.others b hb)

theorem Aggregates.setTopic (h : Aggregates n vs o) {x : TopicStats I}
    (hx : x.channels = (o.topic n.objects.nextTopic).channels) :
    Aggregates n vs (o.setTopic n.objects.nextTopic x) :=
  h.congr rfl (by rw [Objects.setTopic_self, hx]) fun _ hb => Objects.setTopic_ne _ _ hb

theorem addTopicStats_spec (s : Sorting) (h : Aggregates n vs o) {a : TopicPtr} (ha : a ∈ n.nodes)
    (hdistinct : (vs ++ (n.objects.topic a).channels).Nodup) :
    ∃ o', o.addTopicStats s n.objects.nextTopic a = some o' ∧
      Aggregates n (vs ++ (n.objects.topic a).channels) o' := by
  have hne : a ≠ n.objects.nextTopic := (n.stored a ha).ne
  obtain ⟨o₁, ho₁⟩ : ∃ o₁, o₁ = o.setTopic n.objects.nextTopic
    ((o.topic n.objects.nextTopic).addCounters (o.topic a)) := ⟨_, rfl⟩
  have h₁ : Aggregates n vs o₁ := by
    rw [ho₁]
    exact h.setTopic rfl
  have hloop : ∃ o₂, (n.objects.topic a).channels.foldlM
      (Objects.addTopicChannel s n.objects.nextTopic) o₁ = some o₂ ∧
      Aggregates n (vs ++ (n.objects.topic a).channels) o₂ := by
    refine Runs.foldlM_prefix (fun before o => Aggregates n (vs ++ before) o) _ ?_
      (by rw [List.append_nil]; exact h₁)
    intro before c after o hcs hinv
    have hc : c ∈ (n.objects.topic a).channels := hcs ▸ List.mem_append_cons_self
    rw [hcs, ← List.append_assoc] at hdistinct
    have hfresh : c ∉ vs ++ before := fun hmem =>
      (List.nodup_append.mp hdistinct).2.2 c hmem c List.mem_cons_self rfl
    rw [← List.append_assoc]
    exact addTopicChannel_spec s hinv hfresh (n.channelLatency a ha c hc)
  obtain ⟨o₂, hloop, h₂⟩ := hloop
  obtain ⟨o₃, ho₃⟩ : ∃ o₃, o₃ = o₂.setTopic n.objects.nextTopic
    { o₂.topic n.objects.nextTopic with
      nodeStats := s.sort o₂.topicLess ((o₂.topic n.objects.nextTopic).nodeStats ++ [a]) } :=
    ⟨_, rfl⟩
  have h₃ : Aggregates n (vs ++ (n.objects.topic a).channels) o₃ := by
    rw [ho₃]
    exact h₂.setTopic rfl
  obtain ⟨p, latency, nextLatency, ho₄⟩ :=
    Objects.ensureTopicLatency_eq o₃ n.objects.nextTopic
  have h₄ : Aggregates n (vs ++ (n.objects.topic a).channels)
      (o₃.ensureTopicLatency n.objects.nextTopic) := by
    rw [ho₄]
    refine h₃.congr rfl ?_ fun b hb => Function.update_of_ne hb _ _
    simp only [Function.update_self]
  have hself : ((o₃.ensureTopicLatency n.objects.nextTopic).topic
      n.objects.nextTopic).e2eProcessingLatency.isSome := by
    simp only [ho₄, Function.update_self, Option.isSome_some]
  have hnode :
      ((o₃.ensureTopicLatency n.objects.nextTopic).topic a).e2eProcessingLatency.isSome := by
    rw [h₄.others a hne]
    exact n.topicLatency a ha
  obtain ⟨latency', hadd⟩ := Objects.addLatency_eq s
    (o₃.ensureTopicLatency n.objects.nextTopic) hself hnode
  have hchannels : (o₁.topic a).channels = (n.objects.topic a).channels := by
    rw [h₁.others a hne]
  refine ⟨{ o₃.ensureTopicLatency n.objects.nextTopic with latency := latency' }, ?_,
    h₄.congr rfl rfl fun _ _ => rfl⟩
  unfold Objects.addTopicStats
  simp only [← ho₁, hchannels, hloop, ← ho₃, hadd, Option.bind_eq_bind, Option.bind_some]

end Step

/-- The fresh aggregate. -/
theorem aggregates_start (n : NodeTopics I) (topicName : String) :
    Aggregates n [] (n.objects.newTopic (.new topicName)).2 := by
  have hself :
      ((n.objects.newTopic (.new topicName)).2.topic n.objects.nextTopic).channels = [] := by
    rw [show (n.objects.newTopic (.new topicName)).2.topic n.objects.nextTopic = .new topicName from
      n.objects.setTopic_self _ _]
    rfl
  refine ⟨fun _ => rfl, by rw [hself]; exact List.nodup_nil, fun name => by rw [hself]; rfl,
    fun c hc => ?_, fun _ _ => rfl, fun _ h => h, fun b hb => n.objects.setTopic_ne _ hb⟩
  rw [hself] at hc
  cases hc

theorem aggregate_spec (s : Sorting) (n : NodeTopics I) (topicName : String) :
    ∃ o', n.objects.aggregate s topicName n.nodes = some (n.objects.nextTopic, o') ∧
      Aggregates n n.channels o' := by
  have hloop : ∃ o', n.nodes.foldlM (fun o a => o.addTopicStats s n.objects.nextTopic a)
      (n.objects.newTopic (.new topicName)).2 = some o' ∧ Aggregates n n.channels o' := by
    refine Runs.foldlM_prefix
      (fun before o => Aggregates n (before.flatMap fun a => (n.objects.topic a).channels) o) _ ?_
      (aggregates_start n topicName)
    intro before a after o hnodes hinv
    have ha : a ∈ n.nodes := hnodes ▸ List.mem_append_cons_self
    have hdistinct := n.distinct
    rw [hnodes, List.flatMap_append, List.flatMap_cons, ← List.append_assoc] at hdistinct
    rw [List.flatMap_append, List.flatMap_singleton]
    exact addTopicStats_spec s hinv ha (List.nodup_append.mp hdistinct).1
  obtain ⟨o', hloop, hinv⟩ := hloop
  refine ⟨o', ?_, hinv⟩
  unfold Objects.aggregate
  simp only [Objects.newTopic] at hloop ⊢
  simp only [hloop, Option.bind_eq_bind, Option.bind_some, Option.pure_def]

/-! ### The result -/

/-- One channel for each name, with the sums over the nodes. -/
structure ChannelSums (n : NodeTopics I) (t : TopicPtr) (o' : Objects I) : Prop where
  once : ((o'.topic t).channels.map fun c => (o'.channel c).channelName).Nodup
  occurs : ∀ name, name ∈ (o'.topic t).channels.map (fun c => (o'.channel c).channelName) ↔
    name ∈ n.channels.map n.nameOf
  counters : ∀ c ∈ (o'.topic t).channels, (o'.channel c).counters =
    ((n.named (o'.channel c).channelName n.channels).map fun c' =>
      (n.objects.channel c').counters).sum

/-- Each channel of the aggregate has an entry for each node that has the channel. -/
def NodeEntries (n : NodeTopics I) (t : TopicPtr) (o' : Objects I) : Prop :=
  ∀ c ∈ (o'.topic t).channels,
    (o'.channel c).nodeStats.Perm (n.named (o'.channel c).channelName n.channels)

/-- The channels of the nodes hold what they held. -/
def ChannelsKept (n : NodeTopics I) (o' : Objects I) : Prop :=
  ∀ c ∈ n.channels, (o'.channel c).counters = (n.objects.channel c).counters

/-- Of each channel, the nodes after the first that has it have counters that sum to zero. -/
def LaterZero (n : NodeTopics I) : Prop :=
  ∀ name c rest, n.named name n.channels = c :: rest →
    (rest.map fun c' => (n.objects.channel c').counters).sum = 0

section Result

variable {n : NodeTopics I} {o' : Objects I}

theorem Aggregates.channelSums (h : Aggregates n n.channels o') :
    ChannelSums n n.objects.nextTopic o' := by
  have hnames : (fun c => (o'.channel c).channelName) = n.nameOf := funext h.names
  refine ⟨by rw [hnames]; exact h.once, fun name => ?_, fun c hc => ?_⟩
  · rw [hnames, ← not_iff_not, ← item_eq_none, h.first, List.head?_eq_none_iff]
    simp [NodeTopics.named]
  · obtain ⟨rest, hrest⟩ := h.holds c hc
    rw [h.names, hrest.named]
    exact hrest.counters

/-- The first channel of a name is in the aggregate. -/
theorem Aggregates.mem_of_named (h : Aggregates n n.channels o') {name : String} {c : ChannelPtr}
    {rest : List ChannelPtr} (hnamed : n.named name n.channels = c :: rest) :
    c ∈ (o'.topic n.objects.nextTopic).channels ∧ n.nameOf c = name := by
  have hitem := h.first name
  rw [hnamed, List.head?_cons] at hitem
  exact ⟨mem_of_item hitem, key_of_item hitem⟩

theorem Aggregates.nodeEntries_iff (h : Aggregates n n.channels o') :
    NodeEntries n n.objects.nextTopic o' ↔ n.channels = [] := by
  constructor
  · intro hentries
    by_contra hne
    obtain ⟨a, ha⟩ := List.exists_mem_of_ne_nil _ hne
    have ha' : a ∈ n.named (n.nameOf a) n.channels := List.mem_filter.mpr ⟨ha, decide_eq_true rfl⟩
    obtain ⟨c, rest, hnamed⟩ := List.exists_cons_of_ne_nil (List.ne_nil_of_mem ha')
    obtain ⟨hc, -⟩ := h.mem_of_named hnamed
    obtain ⟨rest', hrest⟩ := h.holds c hc
    obtain ⟨b, hb, hcb⟩ := List.mem_flatMap.mp (h.mem hc)
    -- The entries are those of the nodes after the first, and should be those of all.
    have hcode := hrest.nodeStats.length_eq
    have hclaimed := (hentries c hc).length_eq
    rw [n.plain b hb c hcb, List.nil_append] at hcode
    rw [h.names, hrest.named, hcode, List.length_cons] at hclaimed
    omega
  · intro hnil c hc
    have hmem := h.mem hc
    rw [hnil] at hmem
    cases hmem

theorem Aggregates.channelsKept_iff (h : Aggregates n n.channels o') :
    ChannelsKept n o' ↔ LaterZero n := by
  constructor
  · intro hkept name c rest hnamed
    obtain ⟨hc, rfl⟩ := h.mem_of_named hnamed
    obtain ⟨rest', hrest⟩ := h.holds c hc
    have hsame := hrest.counters
    rw [hkept c (h.mem hc), List.map_cons, List.sum_cons] at hsame
    obtain rfl := (List.cons.inj (hnamed.symm.trans hrest.named)).2
    exact left_eq_add.mp hsame
  · intro hzero c _
    by_cases hc : c ∈ (o'.topic n.objects.nextTopic).channels
    · obtain ⟨rest, hrest⟩ := h.holds c hc
      rw [hrest.counters, List.map_cons, List.sum_cons, hzero _ c rest hrest.named, add_zero]
    · rw [h.untouched c hc]

end Result

/-- **Aggregating the statistics of a topic.** The counters are the sums, and the topics of the
nodes stay as they are. The entries of the nodes are complete just when no node has a channel, and
the channels of the nodes keep their counters just when those of the later nodes sum to zero. -/
theorem aggregate_channels (s : Sorting) (n : NodeTopics I) (topicName : String) :
    ∃ o', n.objects.aggregate s topicName n.nodes = some (n.objects.nextTopic, o') ∧
      ChannelSums n n.objects.nextTopic o' ∧
      (∀ a ∈ n.nodes, o'.topic a = n.objects.topic a) ∧
      (NodeEntries n n.objects.nextTopic o' ↔ n.channels = []) ∧
      (ChannelsKept n o' ↔ LaterZero n) := by
  obtain ⟨o', hok, hinv⟩ := aggregate_spec s n topicName
  exact ⟨o', hok, hinv.channelSums, fun a ha => hinv.others a (n.stored a ha).ne,
    hinv.nodeEntries_iff, hinv.channelsKept_iff⟩

/-- Two nodes with a channel `c`, of depths 1 and 2. -/
def twoNodes : NodeTopics ℤ where
  objects := {
    topic := fun a => { TopicStats.new "t" with channels := [a], e2eProcessingLatency := some 0 }
    channel := fun c => { ChannelStats.new "" "t" "c" with
      depth := c + 1
      e2eProcessingLatency := some 0 }
    client := fun _ => ⟨"", ""⟩
    latency := fun _ => Quantile.empty "" "" ""
    nextTopic := 2
    nextChannel := 2
    nextLatency := 1 }
  nodes := [0, 1]
  stored := by decide
  distinct := by decide
  names _ _ := List.nodup_singleton _
  plain _ _ _ _ := rfl
  topicLatency _ _ := rfl
  channelLatency _ _ _ _ := rfl

/-- The channel of the first node holds the sum, and is no entry of the aggregate. -/
theorem not_aggregate_channels :
    ∃ o', twoNodes.objects.aggregate .id "t" twoNodes.nodes =
        some (twoNodes.objects.nextTopic, o') ∧
      ¬ NodeEntries twoNodes twoNodes.objects.nextTopic o' ∧ ¬ ChannelsKept twoNodes o' := by
  obtain ⟨o', hok, hinv⟩ := aggregate_spec .id twoNodes "t"
  refine ⟨o', hok, ?_, ?_⟩
  · rw [hinv.nodeEntries_iff]
    decide
  · rw [hinv.channelsKept_iff]
    intro hzero
    have hdepth := congrFun (hzero "c" 0 [1] (by decide)) .depth
    exact absurd hdepth (by decide)

end Xmq.ClusterInfo
