import Xmq.ClusterAgreement
import Xmq.LookupLoop
import Xmq.NodeNames
import Xmq.RegistrationKeys
import Xmq.Runs

/-!
# Notifications

A topic or a channel that comes or goes is passed to `Notify`, which sends the object on a channel
from a goroutine of its own. `lookupLoop` receives the objects in any order and reads the exit flag
of each when it receives it: it registers an object that is not exiting and unregisters one that
is.

* The node is the replicated node, to which creations and deletions are applied. An order whose
  handler does not return leaves the node halted, with what the handler has written by then.
* The law compares the registrations of the node with its topics and channels when no notification
  is pending.
* It holds in every run in which nothing is registered that is not there or still to be announced
  as gone, nothing is unregistered that is there, and no topic is put in the place of one with
  channels.
-/

namespace Xmq.Notify

deriving instance DecidableEq for Lookup.Notified

open Cluster hiding RangeOrder
open Runs
open GoMap (RangeOrder)
open Lookup (Notified RegisterRequest PeerInfo)
open Lookupd (XMQLookupd)

/-! ### The node -/

/-- The orders that come to a node through the log. -/
inductive Order where
  | newTopic (t : String)
  | newChannel (t c : String)
  | deleteTopic (t : String)
  | deleteChannel (t c : String)

def Order.entry (libs : Libs) : Order → SetPayload
  | .newTopic t => newTopicEntry libs t
  | .newChannel t c => newChannelEntry libs t c
  | .deleteTopic t => deleteTopicEntry t
  | .deleteChannel t c => deleteChannelEntry t c

/-- The names that the handlers of requests let through. -/
def Order.Valid : Order → Prop
  | .newTopic t => isValidTopicName t = true
  | .newChannel t c => isValidTopicName t = true ∧ isValidChannelName c = true
  | .deleteTopic t => isValidTopicName t = true
  | .deleteChannel t c => isValidTopicName t = true ∧ isValidChannelName c = true

instance (o : Order) : Decidable o.Valid := by
  unfold Order.Valid
  split <;> infer_instance

/-- What `Notify` is called with. -/
inductive Notice where
  | topic (p : TopicPtr)
  | channel (k : ChannelPtr)
  deriving DecidableEq

def topicExiting (o : TopicObj) : Bool := o.exitFlag == 1

def channelExiting (o : ChannelObj) : Bool :=
  match o.core with
  | .decoded exitFlag => exitFlag == 1
  | .running c => c.exiting

/-- What `lookupLoop` reads of an object that it receives. -/
def notified (n : Node) : Notice → Notified
  | .topic p => .topic (n.topicObj p).name (topicExiting (n.topicObj p))
  | .channel k =>
    .channel (n.channelObj k).topicName (n.channelObj k).name (channelExiting (n.channelObj k))

/-- What the handler of an order passes to `Notify`: the object that it creates, or the one whose
exit flag it sets. -/
def notices (n : Node) : Order → List Notice
  | .newTopic _ => [.topic n.nextTopic]
  | .newChannel t _ =>
    match n.topics.lookup t with
    | none => []
    | some _ => [.channel n.nextChannel]
  | .deleteTopic t =>
    match n.topics.lookup t with
    | none => []
    | some p => if (n.topicObj p).exitFlag ≠ 0 then [] else [.topic p]
  | .deleteChannel t c =>
    match n.channelPtr t c with
    | none => []
    | some k =>
      match (n.channelObj k).core with
      | .decoded _ => []
      | .running ch => if ch.exitFlag ≠ 0 then [] else [.channel k]

/-- `Topic.exit` up to the submission that does not come back. -/
def setExiting (n : Node) : Order → Node
  | .deleteTopic t =>
    match n.topics.lookup t with
    | none => n
    | some p => n.setTopic p { n.topicObj p with exitFlag := 1 }
  | _ => n

/-! ### The node and a lookup daemon -/

structure World where
  node : Node
  halted : Bool
  pending : List Notice
  lookupd : XMQLookupd

inductive Act where
  | apply (role : Role) (o : Order)
  | receive (i : ℕ) (r : RangeOrder)

/-- The call that `lookupLoop` makes. -/
def call (l : XMQLookupd) (r : RangeOrder) (id : String) (val : Notified) : XMQLookupd :=
  if val.exiting then (l.unregister r (val.request id)).2 else (l.register (val.request id)).2

def step (libs : Libs) (id : String) (w : World) : Act → Option World
  | .apply role o =>
    if w.halted = true ∨ ¬ o.Valid then none
    else
      match Cluster.apply libs role w.node (o.entry libs) with
      | .done _ n => some { w with node := n, pending := w.pending ++ notices w.node o }
      | .stuck => some { w with node := setExiting w.node o, halted := true }
      | .panic => none
  | .receive i r =>
    match w.pending[i]? with
    | none => none
    | some v =>
      some { w with
        pending := w.pending.eraseIdx i
        lookupd := call w.lookupd r id (notified w.node v) }

/-- The node has identified, and has no topic or channel in the database. -/
structure Identified (l : XMQLookupd) (id : String) : Prop where
  id_ne : id ≠ ""
  peer : ∃ info, l.peers.lookup id = some info ∧ info.id = id
  topics : ∀ t, id ∉ l.db.producersOf (XMQLookupd.topicKey t)
  channels : ∀ t c, id ∉ l.db.producersOf (XMQLookupd.channelKey t c)

/-- A new node that has identified. -/
def World.init (opts : ChannelOptions) (l : XMQLookupd) : World := ⟨.empty opts, false, [], l⟩

/-- **The law**: the node is registered for the topics and channels that it has. -/
structure Agrees (id : String) (w : World) : Prop where
  topics : ∀ t, id ∈ w.lookupd.db.producersOf (XMQLookupd.topicKey t) ↔ t ∈ w.node.topics
  channels : ∀ t c, id ∈ w.lookupd.db.producersOf (XMQLookupd.channelKey t c) ↔
    (w.node.channelPtr t c).isSome

/-! ### The condition -/

/-- The end of the topic is still to be announced. -/
def Leaving (n : Node) (pending : List Notice) (t : String) : Prop :=
  ∃ v ∈ pending, notified n v = .topic t true

/-- The end of the channel is still to be announced. -/
def LeavingChannel (n : Node) (pending : List Notice) (t c : String) : Prop :=
  ∃ v ∈ pending, notified n v = .channel t c true

/-- What is unregistered is not there; what is registered is there, or its end is still to be
announced. -/
def InTime (n : Node) (rest : List Notice) : Notified → Prop
  | .topic t true => t ∉ n.topics
  | .topic t false => t ∈ n.topics ∨ Leaving n rest t
  | .channel t c true => n.channelPtr t c = none
  | .channel t c false => Leaving n rest t ∨
    t ∈ n.topics ∧ (n.channelPtr t c ≠ none ∨ LeavingChannel n rest t c)

/-- A new topic takes the place of no topic with channels, and every notification is received in
time. -/
def Good (w : World) : Act → Prop
  | .apply _ (.newTopic t) =>
    match w.node.topics.lookup t with
    | none => True
    | some p => (w.node.topicObj p).channels.keys = []
  | .apply _ _ => True
  | .receive i _ =>
    match w.pending[i]? with
    | none => True
    | some v => InTime w.node (w.pending.eraseIdx i) (notified w.node v)

instance (n : Node) (pending : List Notice) (t : String) : Decidable (Leaving n pending t) :=
  inferInstanceAs (Decidable (∃ v ∈ pending, _))

instance (n : Node) (pending : List Notice) (t c : String) :
    Decidable (LeavingChannel n pending t c) :=
  inferInstanceAs (Decidable (∃ v ∈ pending, _))

instance (n : Node) (rest : List Notice) (val : Notified) : Decidable (InTime n rest val) := by
  unfold InTime
  split <;> infer_instance

instance (w : World) (a : Act) : Decidable (Good w a) := by
  unfold Good
  split
  · split <;> infer_instance
  · infer_instance
  · split <;> infer_instance

/-! ### What an order does -/

/-- The channel object of an entry that was just decoded is not exiting. -/
structure Decodes (libs : Libs) : Prop where
  topic : ∀ t, libs.unmarshalTopic (libs.marshalTopic ⟨0, 0, t, [], 0, false, 0⟩) =
    .ok ⟨0, 0, t, [], 0, false, 0⟩
  channel : ∀ t c, ∃ j, libs.unmarshalChannel (libs.marshalChannel ⟨0, 0, 0, t, c, 0, 0, false⟩) =
    .ok j ∧ j.exitFlag = 0

/-- A channel object with its names that takes messages. -/
def Open (o : ChannelObj) (t c : String) : Prop :=
  o.topicName = t ∧ o.name = c ∧ ∃ ch, o.core = .running ch ∧ ch.exitFlag = 0

/-- The names lead to objects that carry them. -/
structure Linked (n : Node) : Prop where
  topic : ∀ t p, n.topics.lookup t = some p → p < n.nextTopic ∧ (n.topicObj p).name = t
  channel : ∀ t c k, n.channelPtr t c = some k → k < n.nextChannel ∧
    (n.channelObj k).topicName = t ∧ (n.channelObj k).name = c

/-- The objects that names lead to are not exiting. -/
structure Live (n : Node) : Prop extends Linked n where
  topic_open : ∀ t p, n.topics.lookup t = some p → (n.topicObj p).exitFlag = 0
  channel_open : ∀ t c k, n.channelPtr t c = some k → Open (n.channelObj k) t c

/-- The topic of an entry that was just decoded. -/
def freshTopic (libs : Libs) (t : String) : TopicObj :=
  newTopicObj libs t ⟨0, 0, t, [], 0, false, 0⟩ ∅

/-- What an order does to the node when its handler returns, and what it passes to `Notify`. -/
inductive Applied (libs : Libs) (n : Node) : Order → Node → List Notice → Prop where
  | nothing (o : Order) : Applied libs n o n []
  | newTopic (t : String) :
    Applied libs n (.newTopic t) (n.storeTopic t (freshTopic libs t)) [.topic n.nextTopic]
  | newChannel (t c : String) (p : TopicPtr) (o : ChannelObj) (hp : n.topics.lookup t = some p)
    (ho : Open o t c) :
    Applied libs n (.newChannel t c) (n.insertChannel p c o) [.channel n.nextChannel]
  | deleteTopic (t : String) (p : TopicPtr) (o : TopicObj) (hp : n.topics.lookup t = some p)
    (hname : o.name = (n.topicObj p).name) (hexit : o.exitFlag = 1) :
    Applied libs n (.deleteTopic t) { n.setTopic p o with topics := n.topics.erase t } [.topic p]
  | deleteChannel (t c : String) (p : TopicPtr) (k : ChannelPtr) (o : ChannelObj)
    (hp : n.topics.lookup t = some p) (hk : (n.topicObj p).channels.lookup c = some k)
    (hnames : o.topicName = (n.channelObj k).topicName ∧ o.name = (n.channelObj k).name)
    (hexit : channelExiting o = true) :
    Applied libs n (.deleteChannel t c)
      ((n.setChannel k o).setTopic p
        { n.topicObj p with channels := (n.topicObj p).channels.erase c })
      [.channel k]

variable {libs : Libs} {role : Role} {n n' : Node} {o : Order} {err : GoError} {t c : String}

theorem ne_empty {name : String} (h : isValidTopicName name = true) : name ≠ "" := by
  rintro rfl
  exact absurd h (by decide)

theorem apply_newTopic (hlibs : Decodes libs) (ht : t ≠ "") :
    Cluster.apply libs role n (newTopicEntry libs t) =
      .done none (n.storeTopic t (freshTopic libs t)) := by
  simp [Cluster.apply, newTopicEntry, clusterNewTopic, ht, hlibs.topic, Node.addChannels,
    freshTopic]

theorem apply_deleteTopic (ht : t ≠ "") :
    Cluster.apply libs role n (deleteTopicEntry t) =
      match n.topics.lookup t with
      | none => .done (some s!"ClusterDeleteTopic topic({t}) not exist") n
      | some p =>
        match topicDelete role n p with
        | .done _ n => .done none { n with topics := n.topics.erase t }
        | .stuck => .stuck
        | .panic => .panic := by
  simp only [Cluster.apply, deleteTopicEntry, clusterDeleteTopic, if_neg ht]
  rfl

theorem apply_deleteChannel (ht : t ≠ "") (hc : c ≠ "") :
    Cluster.apply libs role n (deleteChannelEntry t c) =
      match n.topics.lookup t with
      | none => .done (some s!"ClusterDeleteChannel topic({t}) not exist") n
      | some p =>
        match (n.topicObj p).channels.lookup c with
        | none => .done none n
        | some k =>
          match deleteChannelObj (n.channelObj k) with
          | none => .panic
          | some o =>
            .done none ((n.setChannel k o).setTopic p
              { n.topicObj p with channels := (n.topicObj p).channels.erase c }) := by
  have hargs : ¬ (t = "" ∨ c = "") := not_or.mpr ⟨ht, hc⟩
  simp only [Cluster.apply, deleteChannelEntry, clusterDeleteChannel, if_neg hargs]
  rfl

theorem exit_exiting (ch : Channel) (h : ch.exitFlag = 0) :
    (ch.exit true [] []).2.exiting = true := by
  simp [Channel.exit, h, Channel.exiting, Channel.empty, Channel.initPQ]

/-- **Inversion.** -/
theorem apply_applied (hlibs : Decodes libs) (hn : Live n) (hvalid : o.Valid)
    (h : Cluster.apply libs role n (o.entry libs) = .done err n') :
    Applied libs n o n' (notices n o) := by
  cases o with
  | newTopic t =>
    rw [Order.entry, apply_newTopic hlibs (ne_empty hvalid)] at h
    cases h
    exact .newTopic t
  | newChannel t c =>
    obtain ⟨j, hj, hexit⟩ := hlibs.channel t c
    have ht : t ≠ "" := ne_empty hvalid.1
    have hc : c ≠ "" := ne_empty hvalid.2
    cases hp : n.topics.lookup t with
    | none =>
      simp [Order.entry, Cluster.apply, newChannelEntry, clusterNewChannel, ht, hc, hp] at h
      obtain ⟨-, rfl⟩ := h
      simp only [notices, hp]
      exact .nothing _
    | some p =>
      simp [Order.entry, Cluster.apply, newChannelEntry, clusterNewChannel, ht, hc, hp, hj] at h
      obtain ⟨-, rfl⟩ := h
      simp only [notices, hp]
      exact .newChannel t c p _ hp ⟨rfl, rfl, _, rfl, hexit⟩
  | deleteTopic t =>
    have ht : t ≠ "" := ne_empty hvalid
    cases hp : n.topics.lookup t with
    | none =>
      simp only [Order.entry, apply_deleteTopic ht, hp] at h
      cases h
      simp only [notices, hp]
      exact .nothing _
    | some p =>
      have hname := (hn.topic t p hp).2
      have hexit := hn.topic_open t p hp
      simp only [Order.entry, apply_deleteTopic ht, hp] at h
      cases role with
      | leader =>
        have hwaits : ¬ Command.DeleteReturns .leader (topicState n.channelObj (n.topicObj p)) := by
          simp [Command.DeleteReturns, topicState, hexit, hname, ht]
        rw [topicDelete_stuck .leader n p hwaits] at h
        cases h
      | follower =>
        rw [topicDelete_refused hexit (.inl rfl)] at h
        cases h
        simp only [notices, hp, hexit, ne_eq, not_true_eq_false, if_false]
        exact .deleteTopic t p _ hp rfl rfl
  | deleteChannel t c =>
    have ht : t ≠ "" := ne_empty hvalid.1
    have hc : c ≠ "" := ne_empty hvalid.2
    simp only [Order.entry, apply_deleteChannel ht hc] at h
    cases hp : n.topics.lookup t with
    | none =>
      have hnone : n.channelPtr t c = none := by rw [Node.channelPtr, hp, Option.bind_none]
      simp only [hp] at h
      cases h
      simp only [notices, hnone]
      exact .nothing _
    | some p =>
      have hptr : n.channelPtr t c = (n.topicObj p).channels.lookup c := channelPtr_of hp c
      cases hk : (n.topicObj p).channels.lookup c with
      | none =>
        simp only [hp, hk] at h
        cases h
        simp only [notices, hptr, hk]
        exact .nothing _
      | some k =>
        obtain ⟨-, -, ch, hcore, hexit⟩ := hn.channel_open t c k (hptr.trans hk)
        have hdelete : deleteChannelObj (n.channelObj k) =
            some { n.channelObj k with core := .running (ch.exit true [] []).2 } := by
          rw [deleteChannelObj, hcore]
        simp only [hp, hk, hdelete] at h
        cases h
        simp only [notices, hptr, hk, hcore, hexit, ne_eq, not_true_eq_false, if_false]
        exact .deleteChannel t c p k _ hp hk ⟨rfl, rfl⟩ (exit_exiting ch hexit)

/-! ### What becomes of the objects -/

/-- Objects keep their names, and those that are exiting go on exiting. -/
structure Ages (n n' : Node) : Prop where
  nextTopic : n.nextTopic ≤ n'.nextTopic
  nextChannel : n.nextChannel ≤ n'.nextChannel
  topic : ∀ p, p < n.nextTopic → (n'.topicObj p).name = (n.topicObj p).name ∧
    (topicExiting (n.topicObj p) = true → topicExiting (n'.topicObj p) = true)
  channel : ∀ k, k < n.nextChannel → (n'.channelObj k).topicName = (n.channelObj k).topicName ∧
    (n'.channelObj k).name = (n.channelObj k).name ∧
    (channelExiting (n.channelObj k) = true → channelExiting (n'.channelObj k) = true)

theorem Ages.refl (n : Node) : Ages n n :=
  ⟨Nat.le_refl _, Nat.le_refl _, fun _ _ => ⟨rfl, fun h => h⟩, fun _ _ => ⟨rfl, rfl, fun h => h⟩⟩

/-- One topic object changes. -/
theorem ages_setTopic {p : TopicPtr} {o : TopicObj} (hname : o.name = (n.topicObj p).name)
    (hexit : topicExiting (n.topicObj p) = true → topicExiting o = true) :
    Ages n (n.setTopic p o) where
  nextTopic := Nat.le_refl _
  nextChannel := Nat.le_refl _
  topic q _ := by
    by_cases hq : q = p
    · subst hq
      rw [Node.setTopic_self]
      exact ⟨hname, hexit⟩
    · rw [Node.setTopic_ne n o hq]
      exact ⟨rfl, fun h => h⟩
  channel _ _ := ⟨rfl, rfl, fun h => h⟩

theorem Ages.trans {n'' : Node} (h : Ages n n') (h' : Ages n' n'') : Ages n n'' where
  nextTopic := h.nextTopic.trans h'.nextTopic
  nextChannel := h.nextChannel.trans h'.nextChannel
  topic p hp := by
    obtain ⟨hname, hexit⟩ := h.topic p hp
    obtain ⟨hname', hexit'⟩ := h'.topic p (hp.trans_le h.nextTopic)
    exact ⟨hname'.trans hname, fun hp => hexit' (hexit hp)⟩
  channel k hk := by
    obtain ⟨htopic, hname, hexit⟩ := h.channel k hk
    obtain ⟨htopic', hname', hexit'⟩ := h'.channel k (hk.trans_le h.nextChannel)
    exact ⟨htopic'.trans htopic, hname'.trans hname, fun hk => hexit' (hexit hk)⟩

theorem ages_allocChannel (n : Node) (o : ChannelObj) : Ages n (n.allocChannel o) where
  nextTopic := Nat.le_refl _
  nextChannel := Nat.le_succ _
  topic _ _ := ⟨rfl, fun h => h⟩
  channel k hk := by
    rw [show (n.allocChannel o).channelObj k = n.channelObj k from
      Node.setChannel_ne n o (Nat.ne_of_lt hk)]
    exact ⟨rfl, rfl, fun h => h⟩

theorem ages_setChannel {k : ChannelPtr} {o : ChannelObj}
    (hnames : o.topicName = (n.channelObj k).topicName ∧ o.name = (n.channelObj k).name)
    (hexit : channelExiting o = true) : Ages n (n.setChannel k o) where
  nextTopic := Nat.le_refl _
  nextChannel := Nat.le_refl _
  topic _ _ := ⟨rfl, fun h => h⟩
  channel j _ := by
    by_cases hj : j = k
    · subst hj
      rw [Node.setChannel_self]
      exact ⟨hnames.1, hnames.2, fun _ => hexit⟩
    · rw [Node.setChannel_ne n o hj]
      exact ⟨rfl, rfl, fun h => h⟩

variable {new : List Notice}

theorem Applied.ages (h : Applied libs n o n' new) : Ages n n' := by
  cases h with
  | nothing => exact .refl n
  | newTopic t =>
    refine ⟨Nat.le_succ _, Nat.le_refl _, fun p hp => ?_, fun _ _ => ⟨rfl, rfl, fun h => h⟩⟩
    rw [show (n.storeTopic t (freshTopic libs t)).topicObj p = n.topicObj p from
      Node.setTopic_ne n _ (Nat.ne_of_lt hp)]
    exact ⟨rfl, fun h => h⟩
  | newChannel t c p o hp ho =>
    exact (ages_allocChannel n o).trans (ages_setTopic rfl fun h => h)
  | deleteTopic t p o hp hname hexit =>
    have hages : Ages n (n.setTopic p o) :=
      ages_setTopic hname fun _ => by rw [topicExiting, hexit]; rfl
    exact ⟨hages.nextTopic, hages.nextChannel, hages.topic, hages.channel⟩
  | deleteChannel t c p k o hp hk hnames hexit =>
    exact (ages_setChannel hnames hexit).trans (ages_setTopic rfl fun h => h)

/-- The object is there, and its names are valid. -/
def Notice.Named (n : Node) : Notice → Prop
  | .topic p => p < n.nextTopic ∧ isValidTopicName (n.topicObj p).name = true
  | .channel k => k < n.nextChannel ∧ isValidTopicName (n.channelObj k).topicName = true ∧
    isValidChannelName (n.channelObj k).name = true

variable {v : Notice}

theorem Ages.named (h : Ages n n') (hv : v.Named n) : v.Named n' := by
  cases v with
  | topic p =>
    obtain ⟨hlt, hvalid⟩ := hv
    rw [← (h.topic p hlt).1] at hvalid
    exact ⟨hlt.trans_le h.nextTopic, hvalid⟩
  | channel k =>
    obtain ⟨hlt, htopic, hname⟩ := hv
    rw [← (h.channel k hlt).1] at htopic
    rw [← (h.channel k hlt).2.1] at hname
    exact ⟨hlt.trans_le h.nextChannel, htopic, hname⟩

theorem Ages.leaving (h : Ages n n') {pending : List Notice} (hnamed : ∀ v ∈ pending, v.Named n)
    (hleaving : Leaving n pending t) : Leaving n' pending t := by
  obtain ⟨v, hv, hnotified⟩ := hleaving
  cases v with
  | topic p =>
    obtain ⟨hname, hexit⟩ := h.topic p (hnamed _ hv).1
    simp only [notified, Notified.topic.injEq] at hnotified
    refine ⟨.topic p, hv, ?_⟩
    rw [notified, hname, hexit hnotified.2, hnotified.1]
  | channel k => cases hnotified

theorem Ages.leavingChannel (h : Ages n n') {pending : List Notice}
    (hnamed : ∀ v ∈ pending, v.Named n) (hleaving : LeavingChannel n pending t c) :
    LeavingChannel n' pending t c := by
  obtain ⟨v, hv, hnotified⟩ := hleaving
  cases v with
  | topic p => cases hnotified
  | channel k =>
    obtain ⟨htopic, hname, hexit⟩ := h.channel k (hnamed _ hv).1
    simp only [notified, Notified.channel.injEq] at hnotified
    refine ⟨.channel k, hv, ?_⟩
    rw [notified, htopic, hname, hexit hnotified.2.2, hnotified.1, hnotified.2.1]

/-! ### What becomes of the names -/

/-- A name that leads to another object is announced, and so is the end of a name. -/
structure Relinks (n n' : Node) (new : List Notice) : Prop where
  topic_new : ∀ u q, n'.topics.lookup u = some q → n.topics.lookup u = some q ∨ .topic q ∈ new
  channel_new : ∀ u d k, n'.channelPtr u d = some k →
    n.channelPtr u d = some k ∨ .channel k ∈ new
  topic_old : ∀ u, u ∈ n.topics → u ∈ n'.topics ∨ Leaving n' new u
  channel_old : ∀ u d, (n.channelPtr u d).isSome → (n'.channelPtr u d).isSome ∨
    Leaving n' new u ∨ LeavingChannel n' new u d

theorem Relinks.refl (n : Node) (new : List Notice) : Relinks n n new :=
  ⟨fun _ _ h => .inl h, fun _ _ _ h => .inl h, fun _ h => .inl h, fun _ _ h => .inl h⟩

theorem Linked.owned (h : Linked n) : n.Owned where
  topic_lt t p hp := (h.topic t p hp).1
  topic_inj t u p hp hp' := (h.topic t p hp).2.symm.trans (h.topic u p hp').2
  channel_lt t c k hk := (h.channel t c k hk).1
  channel_inj t c u d k hk hk' := by
    obtain ⟨-, ht, hc⟩ := h.channel t c k hk
    obtain ⟨-, hu, hd⟩ := h.channel u d k hk'
    exact ⟨ht.symm.trans hu, hc.symm.trans hd⟩

/-- The names of one topic change. -/
theorem relinks_sets {p : TopicPtr} {o : TopicObj} (h : Sets n n' t p o)
    (hp : n.topics.lookup t = some p ∨ .topic p ∈ new)
    (hnew : ∀ d k, o.channels.lookup d = some k → n.channelPtr t d = some k ∨ .channel k ∈ new)
    (hold : ∀ d, (n.channelPtr t d).isSome →
      (o.channels.lookup d).isSome ∨ LeavingChannel n' new t d) : Relinks n n' new where
  topic_new u q hq := by
    by_cases hu : u = t
    · subst hu
      rw [h.lookup_self] at hq
      cases hq
      exact hp
    · rw [h.lookup_ne u hu] at hq
      exact .inl hq
  channel_new u d k hk := by
    by_cases hu : u = t
    · subst hu
      rw [h.channelPtr_self] at hk
      exact hnew d k hk
    · rw [h.channelPtr_ne hu] at hk
      exact .inl hk
  topic_old u hmem := by
    refine .inl ?_
    rw [← AList.lookup_isSome] at hmem ⊢
    by_cases hu : u = t
    · subst hu
      rw [h.lookup_self]
      rfl
    · rw [h.lookup_ne u hu]
      exact hmem
  channel_old u d hd := by
    by_cases hu : u = t
    · subst hu
      rw [h.channelPtr_self]
      exact (hold d hd).imp_right .inr
    · rw [h.channelPtr_ne hu]
      exact .inl hd

theorem live_sets {p : TopicPtr} {o : TopicObj} (h : Sets n n' t p o) (hn : Live n)
    (hname : o.name = t) (hopen : o.exitFlag = 0)
    (hchannels : ∀ d k, o.channels.lookup d = some k →
      k < n'.nextChannel ∧ Open (n'.channelObj k) t d) : Live n' := by
  have htopic : ∀ u q, n'.topics.lookup u = some q →
      q < n'.nextTopic ∧ (n'.topicObj q).name = u ∧ (n'.topicObj q).exitFlag = 0 := by
    intro u q hq
    by_cases hu : u = t
    · subst hu
      rw [h.lookup_self] at hq
      cases hq
      rw [h.obj_self]
      exact ⟨h.lt, hname, hopen⟩
    · rw [h.lookup_ne u hu] at hq
      rw [(h.obj_ne u q hu hq).2]
      obtain ⟨hlt, hcalled⟩ := hn.topic u q hq
      exact ⟨hlt.trans_le h.nextTopic, hcalled, hn.topic_open u q hq⟩
  have hchannel : ∀ u d k, n'.channelPtr u d = some k →
      k < n'.nextChannel ∧ Open (n'.channelObj k) u d := by
    intro u d k hk
    by_cases hu : u = t
    · subst hu
      rw [h.channelPtr_self] at hk
      exact hchannels d k hk
    · rw [h.channelPtr_ne hu] at hk
      rw [h.channel_ne u d k hu hk]
      exact ⟨(hn.channel u d k hk).1.trans_le h.nextChannel, hn.channel_open u d k hk⟩
  constructor
  · constructor
    · intro u q hq
      exact ⟨(htopic u q hq).1, (htopic u q hq).2.1⟩
    · intro u d k hk
      obtain ⟨hlt, hopen⟩ := hchannel u d k hk
      exact ⟨hlt, hopen.1, hopen.2.1⟩
  · intro u q hq
    exact (htopic u q hq).2.2
  · intro u d k hk
    exact (hchannel u d k hk).2

theorem live_drops (h : Drops n n' t) (hn : Live n) : Live n' := by
  constructor
  · constructor
    · intro u q hq
      obtain ⟨hu, hq⟩ := (h.lookup u q).mp hq
      rw [h.nextTopic, h.obj u q hu hq]
      exact hn.topic u q hq
    · intro u d k hk
      rw [h.nextChannel, h.channelObj]
      exact hn.channel u d k (h.channelPtr_some hk)
  · intro u q hq
    obtain ⟨hu, hq⟩ := (h.lookup u q).mp hq
    rw [h.obj u q hu hq]
    exact hn.topic_open u q hq
  · intro u d k hk
    rw [h.channelObj]
    exact hn.channel_open u d k (h.channelPtr_some hk)

theorem onlyTopic_setTopic (n : Node) (p : TopicPtr) (o : TopicObj) :
    OnlyTopic n (n.setTopic p o) p where
  topics := rfl
  topicObj := fun _ hq => Node.setTopic_ne n o hq
  channelObj := rfl
  nextTopic := rfl
  nextChannel := rfl

/-- No topic with channels is replaced. -/
def Replaces (n : Node) : Order → Prop
  | .newTopic t => ∃ c, (n.channelPtr t c).isSome
  | _ => False

theorem sets_newTopic (hn : Live n) (t : String) :
    Sets n (n.storeTopic t (freshTopic libs t)) t n.nextTopic (freshTopic libs t) :=
  Cluster.sets_newTopic libs hn.owned t

theorem sets_newChannel (hn : Live n) {p : TopicPtr} (hp : n.topics.lookup t = some p)
    (c : String) (o : ChannelObj) : Sets n (n.insertChannel p c o) t p
      { n.topicObj p with channels := (n.topicObj p).channels.insert c n.nextChannel } :=
  clusterNewChannel_sets hn.owned hp c o

theorem insertChannel_channelObj (n : Node) (p : TopicPtr) (c : String) (o : ChannelObj) :
    (n.insertChannel p c o).channelObj n.nextChannel = o :=
  Node.setChannel_self n n.nextChannel o

theorem insertChannel_channelObj_ne {k : ChannelPtr} (hk : k ≠ n.nextChannel) (p : TopicPtr)
    (c : String) (o : ChannelObj) :
    (n.insertChannel p c o).channelObj k = n.channelObj k :=
  Node.setChannel_ne n o hk

/-- An order keeps the names and their announcements together. -/
theorem Applied.relinks (h : Applied libs n o n' new) (hn : Live n) (hkeep : ¬ Replaces n o) :
    Relinks n n' new := by
  cases h with
  | nothing => exact .refl n []
  | newTopic t =>
    refine relinks_sets (sets_newTopic hn t) (.inr List.mem_cons_self) ?_ ?_
    · intro d k hk
      simp [freshTopic, newTopicObj] at hk
    · intro d hd
      exact absurd ⟨d, hd⟩ hkeep
  | newChannel t c p o hp ho =>
    refine relinks_sets (sets_newChannel hn hp c o) (.inl hp) ?_ ?_
    · intro d k hk
      rw [channelPtr_of hp]
      rcases GoMap.lookup_insert_eq_some.mp hk with ⟨-, rfl⟩ | ⟨-, hk⟩
      · exact .inr List.mem_cons_self
      · exact .inl hk
    · intro d hd
      rw [channelPtr_of hp] at hd
      refine .inl ?_
      by_cases hdc : d = c
      · subst hdc
        simp
      · simpa [AList.lookup_insert_ne hdc] using hd
  | deleteTopic t p o hp hname hexit =>
    have hleaving : Leaving { n.setTopic p o with topics := n.topics.erase t } [.topic p] t := by
      refine ⟨.topic p, List.mem_cons_self, ?_⟩
      simp only [notified, Node.setTopic_self]
      rw [hname, (hn.topic t p hp).2, topicExiting, hexit]
      rfl
    have hdrops : Drops n { n.setTopic p o with topics := n.topics.erase t } t :=
      (onlyTopic_setTopic n p o).drops hn.owned hp
    constructor
    · intro u q hq
      exact .inl ((hdrops.lookup u q).mp hq).2
    · intro u d k hk
      exact .inl (hdrops.channelPtr_some hk)
    · intro u hmem
      by_cases hu : u = t
      · subst hu
        exact .inr hleaving
      · exact .inl (AList.mem_erase.mpr ⟨hu, hmem⟩)
    · intro u d hd
      by_cases hu : u = t
      · subst hu
        exact .inr (.inl hleaving)
      · rw [hdrops.channelPtr_ne hu]
        exact .inl hd
  | deleteChannel t c p k o hp hk hnames hexit =>
    have hptr : n.channelPtr t c = some k := (channelPtr_of hp c).trans hk
    refine relinks_sets (clusterDeleteChannel_sets hn.owned hp hptr o) (.inl hp) ?_ ?_
    · intro d j hj
      rw [channelPtr_of hp]
      exact .inl (GoMap.lookup_erase_eq_some.mp hj).2
    · intro d hd
      by_cases hdc : d = c
      · subst hdc
        refine .inr ⟨.channel k, List.mem_cons_self, ?_⟩
        obtain ⟨-, htopic, hname⟩ := hn.channel t d k hptr
        show Notified.channel _ _ _ = _
        rw [show ((n.setChannel k o).setTopic p _).channelObj k = o from
          Node.setChannel_self n k o, hnames.1, hnames.2, htopic, hname, hexit]
      · rw [channelPtr_of hp] at hd
        refine .inl ?_
        simpa [AList.lookup_erase_ne hdc] using hd

/-- After an order the names lead to objects that are not exiting. -/
theorem Applied.live (h : Applied libs n o n' new) (hn : Live n) : Live n' := by
  cases h with
  | nothing => exact hn
  | newTopic t =>
    refine live_sets (sets_newTopic hn t) hn rfl rfl fun d k hk => ?_
    simp [freshTopic, newTopicObj] at hk
  | newChannel t c p o hp ho =>
    refine live_sets (sets_newChannel hn hp c o) hn (hn.topic t p hp).2 (hn.topic_open t p hp)
      fun d k hk => ?_
    rcases GoMap.lookup_insert_eq_some.mp hk with ⟨rfl, rfl⟩ | ⟨-, hk⟩
    · rw [insertChannel_channelObj]
      exact ⟨Nat.lt_succ_self _, ho⟩
    · rw [← channelPtr_of hp] at hk
      have hlt := (hn.channel t d k hk).1
      rw [insertChannel_channelObj_ne (Nat.ne_of_lt hlt)]
      exact ⟨Nat.lt_succ_of_lt hlt, hn.channel_open t d k hk⟩
  | deleteTopic t p o hp hname hexit =>
    exact live_drops ((onlyTopic_setTopic n p o).drops hn.owned hp) hn
  | deleteChannel t c p k o hp hk hnames hexit =>
    have hptr : n.channelPtr t c = some k := (channelPtr_of hp c).trans hk
    refine live_sets (clusterDeleteChannel_sets hn.owned hp hptr o) hn (hn.topic t p hp).2
      (hn.topic_open t p hp) fun d j hj => ?_
    obtain ⟨hdc, hj⟩ := GoMap.lookup_erase_eq_some.mp hj
    rw [← channelPtr_of hp] at hj
    have hjk : j ≠ k := fun heq => hdc (hn.owned.channel_inj t d t c k (heq ▸ hj) hptr).2
    rw [show ((n.setChannel k o).setTopic p _).channelObj j = n.channelObj j from
      Node.setChannel_ne n o hjk]
    exact ⟨(hn.channel t d j hj).1, hn.channel_open t d j hj⟩

/-- What an order passes to `Notify` is there, with valid names. -/
theorem Applied.named (h : Applied libs n o n' new) (hn : Live n) (hvalid : o.Valid) :
    ∀ v ∈ new, v.Named n' := by
  intro v hv
  cases h with
  | nothing => cases hv
  | newTopic t =>
    rw [List.mem_singleton.mp hv]
    refine ⟨Nat.lt_succ_self _, ?_⟩
    rw [show (n.storeTopic t (freshTopic libs t)).topicObj n.nextTopic = freshTopic libs t from
      Node.setTopic_self n n.nextTopic _]
    exact hvalid
  | newChannel t c p o hp ho =>
    rw [List.mem_singleton.mp hv]
    refine ⟨Nat.lt_succ_self _, ?_⟩
    rw [insertChannel_channelObj, ho.1, ho.2.1]
    exact hvalid
  | deleteTopic t p o hp hname hexit =>
    obtain ⟨hlt, hcalled⟩ := hn.topic t p hp
    rw [List.mem_singleton.mp hv]
    refine ⟨hlt, ?_⟩
    simp only [Node.setTopic_self]
    rw [hname, hcalled]
    exact hvalid
  | deleteChannel t c p k o hp hk hnames hexit =>
    obtain ⟨hlt, htopic, hname⟩ := hn.channel t c k ((channelPtr_of hp c).trans hk)
    rw [List.mem_singleton.mp hv]
    refine ⟨hlt, ?_⟩
    rw [show ((n.setChannel k o).setTopic p _).channelObj k = o from Node.setChannel_self n k o,
      hnames.1, hnames.2, htopic, hname]
    exact hvalid

/-! ### The invariant -/

/-- What is there is registered or still to be announced; what is registered is there, or its end is
still to be announced. -/
structure Converging (id : String) (n : Node) (pending : List Notice) (l : XMQLookupd) : Prop where
  topic : ∀ t p, n.topics.lookup t = some p →
    id ∈ l.db.producersOf (XMQLookupd.topicKey t) ∨ .topic p ∈ pending
  channel : ∀ t c k, n.channelPtr t c = some k →
    id ∈ l.db.producersOf (XMQLookupd.channelKey t c) ∨ .channel k ∈ pending
  topics : ∀ t, id ∈ l.db.producersOf (XMQLookupd.topicKey t) → t ∈ n.topics ∨ Leaving n pending t
  channels : ∀ t c, id ∈ l.db.producersOf (XMQLookupd.channelKey t c) →
    (n.channelPtr t c).isSome ∨ Leaving n pending t ∨ LeavingChannel n pending t c

/-- What holds along every good run. -/
structure Inv (id : String) (w : World) : Prop where
  linked : Linked w.node
  live : w.halted = false → Live w.node
  named : ∀ v ∈ w.pending, v.Named w.node
  id_ne : id ≠ ""
  peer : ∃ info, w.lookupd.peers.lookup id = some info ∧ info.id = id
  converging : Converging id w.node w.pending w.lookupd

variable {id : String} {l : XMQLookupd} {pending : List Notice}

theorem Leaving.mono {pending' : List Notice} (h : Leaving n pending t)
    (hsub : ∀ v ∈ pending, v ∈ pending') : Leaving n pending' t := by
  obtain ⟨v, hv, hnotified⟩ := h
  exact ⟨v, hsub v hv, hnotified⟩

theorem LeavingChannel.mono {pending' : List Notice} (h : LeavingChannel n pending t c)
    (hsub : ∀ v ∈ pending, v ∈ pending') : LeavingChannel n pending' t c := by
  obtain ⟨v, hv, hnotified⟩ := h
  exact ⟨v, hsub v hv, hnotified⟩

/-- An order leaves what was announced before, and announces what it does. -/
theorem Converging.order (h : Converging id n pending l) (hnamed : ∀ v ∈ pending, v.Named n)
    (hages : Ages n n') (hrelinks : Relinks n n' new) :
    Converging id n' (pending ++ new) l := by
  have hleft : ∀ v ∈ pending, v ∈ pending ++ new := fun v hv => List.mem_append_left new hv
  have hright : ∀ v ∈ new, v ∈ pending ++ new := fun v hv => List.mem_append_right pending hv
  constructor
  · intro t p hp
    rcases hrelinks.topic_new t p hp with hold | hnew
    · exact (h.topic t p hold).imp_right (hleft _)
    · exact .inr (hright _ hnew)
  · intro t c k hk
    rcases hrelinks.channel_new t c k hk with hold | hnew
    · exact (h.channel t c k hold).imp_right (hleft _)
    · exact .inr (hright _ hnew)
  · intro t ht
    rcases h.topics t ht with hmem | hleaving
    · exact (hrelinks.topic_old t hmem).imp_right fun hl => hl.mono hright
    · exact .inr ((hages.leaving hnamed hleaving).mono hleft)
  · intro t c hc
    rcases h.channels t c hc with hmem | hleaving | hleaving
    · exact (hrelinks.channel_old t c hmem).imp_right
        (Or.imp (fun hl => hl.mono hright) fun hl => hl.mono hright)
    · exact .inr (.inl ((hages.leaving hnamed hleaving).mono hleft))
    · exact .inr (.inr ((hages.leavingChannel hnamed hleaving).mono hleft))

/-- The order that never returns. -/
theorem setExiting_cases (n : Node) (o : Order) : setExiting n o = n ∨
    ∃ t p, n.topics.lookup t = some p ∧
      setExiting n o = n.setTopic p { n.topicObj p with exitFlag := 1 } := by
  cases o with
  | deleteTopic t =>
    cases hp : n.topics.lookup t with
    | none => exact .inl (by simp only [setExiting, hp])
    | some p => exact .inr ⟨t, p, hp, by simp only [setExiting, hp]⟩
  | newTopic t => exact .inl rfl
  | newChannel t c => exact .inl rfl
  | deleteChannel t c => exact .inl rfl

theorem setExiting_channelPtr (n : Node) (o : Order) (t c : String) :
    (setExiting n o).channelPtr t c = n.channelPtr t c := by
  rcases setExiting_cases n o with h | ⟨u, p, -, h⟩
  · rw [h]
  · rw [h]
    simp only [Node.channelPtr]
    show (n.topics.lookup t).bind _ = _
    refine Option.bind_congr fun q _ => ?_
    by_cases hq : q = p
    · subst hq
      rw [Node.setTopic_self]
    · rw [Node.setTopic_ne n _ hq]

theorem setExiting_topics (n : Node) (o : Order) : (setExiting n o).topics = n.topics := by
  rcases setExiting_cases n o with h | ⟨u, p, -, h⟩ <;> rw [h]
  rfl

theorem ages_setExiting (n : Node) (o : Order) : Ages n (setExiting n o) := by
  rcases setExiting_cases n o with h | ⟨t, p, -, h⟩
  · rw [h]
    exact .refl n
  · rw [h]
    exact ages_setTopic rfl fun _ => rfl

theorem relinks_setExiting (n : Node) (o : Order) : Relinks n (setExiting n o) [] where
  topic_new u q hq := by
    rw [setExiting_topics] at hq
    exact .inl hq
  channel_new u d k hk := by
    rw [setExiting_channelPtr] at hk
    exact .inl hk
  topic_old u hu := by
    rw [setExiting_topics]
    exact .inl hu
  channel_old u d hd := by
    rw [setExiting_channelPtr]
    exact .inl hd

theorem Linked.setExiting (h : Linked n) (o : Order) : Linked (setExiting n o) where
  topic t p hp := by
    have hages := ages_setExiting n o
    rw [setExiting_topics] at hp
    obtain ⟨hlt, hname⟩ := h.topic t p hp
    exact ⟨hlt.trans_le hages.nextTopic, (hages.topic p hlt).1.trans hname⟩
  channel t c k hk := by
    have hages := ages_setExiting n o
    rw [setExiting_channelPtr] at hk
    obtain ⟨hlt, htopic, hname⟩ := h.channel t c k hk
    obtain ⟨htopic', hname', -⟩ := hages.channel k hlt
    exact ⟨hlt.trans_le hages.nextChannel, htopic'.trans htopic, hname'.trans hname⟩

/-- An order that is applied keeps the invariant, unless it replaces a topic with channels. -/
theorem Inv.order {w w' : World} (h : Inv id w) (hlibs : Decodes libs)
    (hstep : step libs id w (.apply role o) = some w') (hkeep : ¬ Replaces w.node o) :
    Inv id w' := by
  simp only [step] at hstep
  split at hstep
  · cases hstep
  · rename_i hgo
    obtain ⟨hrunning, hvalid⟩ := not_or.mp hgo
    have hvalid : o.Valid := not_not.mp hvalid
    have hlive := h.live (by simpa using hrunning)
    split at hstep
    · rename_i err n happly
      cases hstep
      have happlied := apply_applied hlibs hlive hvalid happly
      have hlive' := happlied.live hlive
      refine ⟨hlive'.toLinked, fun _ => hlive', ?_, h.id_ne, h.peer, ?_⟩
      · intro v hv
        rcases List.mem_append.mp hv with hold | hnew
        · exact happlied.ages.named (h.named v hold)
        · exact happlied.named hlive hvalid v hnew
      · exact h.converging.order h.named happlied.ages (happlied.relinks hlive hkeep)
    · cases hstep
      have hages := ages_setExiting w.node o
      refine ⟨h.linked.setExiting o, nofun, fun v hv => hages.named (h.named v hv), h.id_ne,
        h.peer, ?_⟩
      have hconverging := h.converging.order h.named hages (relinks_setExiting w.node o)
      rw [List.append_nil] at hconverging
      exact hconverging
    · cases hstep

/-! ### What the loop makes of a notification -/

theorem mem_eraseIdx {i : ℕ} {x : Notice} (hi : pending[i]? = some v) (hx : x ∈ pending)
    (hne : x ≠ v) : x ∈ pending.eraseIdx i := by
  obtain ⟨j, hj⟩ := List.mem_iff_getElem?.mp hx
  refine List.mem_eraseIdx_iff_getElem?.mpr ⟨j, ?_, hj⟩
  rintro rfl
  rw [hi] at hj
  cases hj
  exact hne rfl

/-- A notification whose names and flag are others than those received is still pending. -/
theorem Leaving.eraseIdx {i : ℕ} (h : Leaving n pending t) (hi : pending[i]? = some v)
    (hne : notified n v ≠ .topic t true) : Leaving n (pending.eraseIdx i) t := by
  obtain ⟨x, hx, hnotified⟩ := h
  exact ⟨x, mem_eraseIdx hi hx fun heq => hne (heq ▸ hnotified), hnotified⟩

theorem LeavingChannel.eraseIdx {i : ℕ} (h : LeavingChannel n pending t c)
    (hi : pending[i]? = some v) (hne : notified n v ≠ .channel t c true) :
    LeavingChannel n (pending.eraseIdx i) t c := by
  obtain ⟨x, hx, hnotified⟩ := h
  exact ⟨x, mem_eraseIdx hi hx fun heq => hne (heq ▸ hnotified), hnotified⟩

variable {info : PeerInfo} {r : RangeOrder} {k : Lookupd.Registration}

/-- The calls of a node with valid names are let through. -/
theorem checkRegister_notified (hid : id ≠ "") (hpeer : l.peers.lookup id = some info)
    (hv : v.Named n) : l.checkRegister ((notified n v).request id) = .ok info := by
  cases v with
  | topic p => simp [XMQLookupd.checkRegister, notified, Notified.request, hid, hpeer, hv.2]
  | channel k =>
    simp [XMQLookupd.checkRegister, notified, Notified.request, hid, hpeer, hv.2.1, hv.2.2]

theorem register_peers (l : XMQLookupd) (req : RegisterRequest) :
    (l.register req).2.peers = l.peers := by
  unfold XMQLookupd.register
  split
  · rfl
  · simp only
    split <;> rfl

theorem unregister_peers (l : XMQLookupd) (r : RangeOrder) (req : RegisterRequest) :
    (l.unregister r req).2.peers = l.peers := by
  unfold XMQLookupd.unregister
  split
  · rfl
  · simp only
    split <;> rfl

theorem call_peers (l : XMQLookupd) (r : RangeOrder) (id : String) (val : Notified) :
    (call l r id val).peers = l.peers := by
  unfold call
  split
  · exact unregister_peers l r _
  · exact register_peers l _

/-- A topic that is not exiting is registered. -/
theorem call_topic_open (hid : id ≠ "") (hpeer : l.peers.lookup id = some info ∧ info.id = id)
    (hv : v.Named n) (hval : notified n v = .topic t false) :
    id ∈ (call l r id (notified n v)).db.producersOf k ↔
      k = XMQLookupd.topicKey t ∨ id ∈ l.db.producersOf k := by
  have hcheck := checkRegister_notified (l := l) hid hpeer.1 hv
  rw [hval] at hcheck ⊢
  refine (Lookupd.register_mem hcheck).trans ?_
  simp [Lookupd.Adds, Notified.request, hpeer.2]

/-- A channel that is not exiting is registered with its topic. -/
theorem call_channel_open (hid : id ≠ "") (hpeer : l.peers.lookup id = some info ∧ info.id = id)
    (hv : v.Named n) (hval : notified n v = .channel t c false) (hc : c ≠ "") :
    id ∈ (call l r id (notified n v)).db.producersOf k ↔
      k = XMQLookupd.topicKey t ∨ k = XMQLookupd.channelKey t c ∨ id ∈ l.db.producersOf k := by
  have hcheck := checkRegister_notified (l := l) hid hpeer.1 hv
  rw [hval] at hcheck ⊢
  refine (Lookupd.register_mem hcheck).trans ?_
  simp [Lookupd.Adds, Notified.request, hpeer.2, hc, or_assoc]

/-- A topic that is exiting is unregistered with all channels. -/
theorem call_topic_exiting (hid : id ≠ "") (hpeer : l.peers.lookup id = some info ∧ info.id = id)
    (hv : v.Named n) (hval : notified n v = .topic t true) :
    id ∈ (call l r id (notified n v)).db.producersOf k ↔
      ¬ (k = XMQLookupd.topicKey t ∨ k.category = "channel" ∧ k.key = t) ∧
        id ∈ l.db.producersOf k := by
  have hcheck := checkRegister_notified (l := l) hid hpeer.1 hv
  rw [hval] at hcheck ⊢
  refine (Lookupd.unregister_mem hcheck).trans ?_
  simp [Lookupd.Removes, Lookupd.unregisterKey, Notified.request, hpeer.2]

/-- A channel that is exiting is unregistered alone. -/
theorem call_channel_exiting (hid : id ≠ "")
    (hpeer : l.peers.lookup id = some info ∧ info.id = id) (hv : v.Named n)
    (hval : notified n v = .channel t c true) (hc : c ≠ "") :
    id ∈ (call l r id (notified n v)).db.producersOf k ↔
      k ≠ XMQLookupd.channelKey t c ∧ id ∈ l.db.producersOf k := by
  have hcheck := checkRegister_notified (l := l) hid hpeer.1 hv
  rw [hval] at hcheck ⊢
  refine (Lookupd.unregister_mem hcheck).trans ?_
  simp [Lookupd.Removes, Lookupd.unregisterKey, Notified.request, hpeer.2, hc]

/-! ### What is received in time -/

section Receive

variable {i : ℕ} (h : Converging id n pending l) (hlinked : Linked n) (hi : pending[i]? = some v)
  (hv : v.Named n) (hid : id ≠ "") (hpeer : l.peers.lookup id = some info ∧ info.id = id)

include h hlinked hi hv hid hpeer

/-- The end of a topic that is not there. -/
theorem Converging.topic_exiting (hval : notified n v = .topic t true) (hgone : t ∉ n.topics) :
    Converging id n (pending.eraseIdx i) (call l r id (notified n v)) := by
  have hne : ∀ u p, n.topics.lookup u = some p → u ≠ t := by
    rintro u p hp rfl
    exact hgone (AList.lookup_isSome.mp (by rw [hp]; rfl))
  constructor
  · intro u p hp
    rw [call_topic_exiting hid hpeer hv hval]
    rcases h.topic u p hp with hreg | hpending
    · refine .inl ⟨?_, hreg⟩
      rintro (hkey | ⟨hcategory, -⟩)
      · exact hne u p hp (Lookupd.topicKey_inj.mp hkey)
      · exact XMQLookupd.channel_ne_topic hcategory.symm
    · refine .inr (mem_eraseIdx hi hpending ?_)
      rintro rfl
      simp only [notified, Notified.topic.injEq] at hval
      exact hne u p hp ((hlinked.topic u p hp).2.symm.trans hval.1)
  · intro u d k hk
    rw [call_topic_exiting hid hpeer hv hval]
    obtain ⟨p, hp⟩ := exists_topic_of_channelPtr hk
    rcases h.channel u d k hk with hreg | hpending
    · refine .inl ⟨?_, hreg⟩
      rintro (hkey | ⟨-, hkey⟩)
      · exact Lookupd.channelKey_ne_topicKey u d t hkey
      · exact hne u p hp hkey
    · refine .inr (mem_eraseIdx hi hpending ?_)
      rintro rfl
      cases hval
  · intro u hreg
    rw [call_topic_exiting hid hpeer hv hval, not_or, Lookupd.topicKey_inj] at hreg
    refine (h.topics u hreg.2).imp_right fun hleaving => hleaving.eraseIdx hi ?_
    rw [hval]
    simpa using Ne.symm hreg.1.1
  · intro u d hreg
    rw [call_topic_exiting hid hpeer hv hval, not_or] at hreg
    have hut : u ≠ t := fun heq => hreg.1.2 ⟨rfl, heq⟩
    refine (h.channels u d hreg.2).imp_right (Or.imp (fun hleaving => hleaving.eraseIdx hi ?_)
      fun hleaving => hleaving.eraseIdx hi ?_) <;> rw [hval]
    · simpa using Ne.symm hut
    · exact nofun

/-- A topic that is there, or whose end is still to be announced. -/
theorem Converging.topic_open (hval : notified n v = .topic t false)
    (hgood : t ∈ n.topics ∨ Leaving n (pending.eraseIdx i) t) :
    Converging id n (pending.eraseIdx i) (call l r id (notified n v)) := by
  constructor
  · intro u p hp
    rw [call_topic_open hid hpeer hv hval, Lookupd.topicKey_inj]
    rcases h.topic u p hp with hreg | hpending
    · exact .inl (.inr hreg)
    · by_cases hpv : Notice.topic p = v
      · subst hpv
        simp only [notified, Notified.topic.injEq] at hval
        exact .inl (.inl ((hlinked.topic u p hp).2.symm.trans hval.1))
      · exact .inr (mem_eraseIdx hi hpending hpv)
  · intro u d k hk
    rw [call_topic_open hid hpeer hv hval]
    refine (h.channel u d k hk).imp .inr fun hpending => mem_eraseIdx hi hpending ?_
    rintro rfl
    cases hval
  · intro u hreg
    rw [call_topic_open hid hpeer hv hval, Lookupd.topicKey_inj] at hreg
    rcases hreg with rfl | hreg
    · exact hgood
    · refine (h.topics u hreg).imp_right fun hleaving => hleaving.eraseIdx hi ?_
      rw [hval]
      simp
  · intro u d hreg
    rw [call_topic_open hid hpeer hv hval] at hreg
    have hreg := hreg.resolve_left (Lookupd.channelKey_ne_topicKey u d t)
    refine (h.channels u d hreg).imp_right (Or.imp (fun hleaving => hleaving.eraseIdx hi ?_)
      fun hleaving => hleaving.eraseIdx hi ?_) <;> rw [hval]
    · simp
    · exact nofun

/-- The end of a channel that is not there. -/
theorem Converging.channel_exiting (hval : notified n v = .channel t c true) (hc : c ≠ "")
    (hgone : n.channelPtr t c = none) :
    Converging id n (pending.eraseIdx i) (call l r id (notified n v)) := by
  constructor
  · intro u p hp
    rw [call_channel_exiting hid hpeer hv hval hc]
    rcases h.topic u p hp with hreg | hpending
    · exact .inl ⟨(Lookupd.channelKey_ne_topicKey t c u).symm, hreg⟩
    · refine .inr (mem_eraseIdx hi hpending ?_)
      rintro rfl
      cases hval
  · intro u d k hk
    have hne : ¬ (u = t ∧ d = c) := by
      rintro ⟨rfl, rfl⟩
      rw [hgone] at hk
      cases hk
    rw [call_channel_exiting hid hpeer hv hval hc, ne_eq, Lookupd.channelKey_inj]
    rcases h.channel u d k hk with hreg | hpending
    · exact .inl ⟨hne, hreg⟩
    · refine .inr (mem_eraseIdx hi hpending ?_)
      rintro rfl
      obtain ⟨-, htopic, hname⟩ := hlinked.channel u d k hk
      simp only [notified, Notified.channel.injEq] at hval
      exact hne ⟨htopic.symm.trans hval.1, hname.symm.trans hval.2.1⟩
  · intro u hreg
    rw [call_channel_exiting hid hpeer hv hval hc] at hreg
    refine (h.topics u hreg.2).imp_right fun hleaving => hleaving.eraseIdx hi ?_
    rw [hval]
    exact nofun
  · intro u d hreg
    rw [call_channel_exiting hid hpeer hv hval hc, ne_eq, Lookupd.channelKey_inj] at hreg
    refine (h.channels u d hreg.2).imp_right (Or.imp (fun hleaving => hleaving.eraseIdx hi ?_)
      fun hleaving => hleaving.eraseIdx hi ?_) <;> rw [hval]
    · exact nofun
    · intro heq
      simp only [Notified.channel.injEq] at heq
      exact hreg.1 ⟨heq.1.symm, heq.2.1.symm⟩

/-- A channel that is there, or whose end is still to be announced. -/
theorem Converging.channel_open (hval : notified n v = .channel t c false) (hc : c ≠ "")
    (hgood : Leaving n (pending.eraseIdx i) t ∨ t ∈ n.topics ∧ (n.channelPtr t c ≠ none ∨
      LeavingChannel n (pending.eraseIdx i) t c)) :
    Converging id n (pending.eraseIdx i) (call l r id (notified n v)) := by
  constructor
  · intro u p hp
    rw [call_channel_open hid hpeer hv hval hc]
    refine (h.topic u p hp).imp (fun hreg => .inr (.inr hreg)) fun hpending =>
      mem_eraseIdx hi hpending ?_
    rintro rfl
    cases hval
  · intro u d k hk
    rw [call_channel_open hid hpeer hv hval hc, Lookupd.channelKey_inj]
    rcases h.channel u d k hk with hreg | hpending
    · exact .inl (.inr (.inr hreg))
    · by_cases hkv : Notice.channel k = v
      · subst hkv
        obtain ⟨-, htopic, hname⟩ := hlinked.channel u d k hk
        simp only [notified, Notified.channel.injEq] at hval
        exact .inl (.inr (.inl ⟨htopic.symm.trans hval.1, hname.symm.trans hval.2.1⟩))
      · exact .inr (mem_eraseIdx hi hpending hkv)
  · intro u hreg
    rw [call_channel_open hid hpeer hv hval hc, Lookupd.topicKey_inj] at hreg
    rcases hreg with rfl | hk | hreg
    · exact hgood.symm.imp_left And.left
    · exact absurd hk.symm (Lookupd.channelKey_ne_topicKey t c u)
    · refine (h.topics u hreg).imp_right fun hleaving => hleaving.eraseIdx hi ?_
      rw [hval]
      exact nofun
  · intro u d hreg
    rw [call_channel_open hid hpeer hv hval hc, Lookupd.channelKey_inj] at hreg
    rcases hreg with hk | ⟨rfl, rfl⟩ | hreg
    · exact absurd hk (Lookupd.channelKey_ne_topicKey u d t)
    · rcases hgood with hleaving | ⟨-, hthere | hleaving⟩
      · exact .inr (.inl hleaving)
      · exact .inl (Option.isSome_iff_ne_none.mpr hthere)
      · exact .inr (.inr hleaving)
    · refine (h.channels u d hreg).imp_right (Or.imp (fun hleaving => hleaving.eraseIdx hi ?_)
        fun hleaving => hleaving.eraseIdx hi ?_) <;> rw [hval]
      · exact nofun
      · simp

end Receive

/-! ### The run -/

/-- A notification that is received in time keeps the invariant. -/
theorem Inv.receive {w w' : World} {i : ℕ} (h : Inv id w)
    (hstep : step libs id w (.receive i r) = some w') (hgood : Good w (.receive i r)) :
    Inv id w' := by
  simp only [step] at hstep
  cases hi : w.pending[i]? with
  | none =>
    rw [hi] at hstep
    cases hstep
  | some v =>
    simp only [hi] at hstep
    cases hstep
    simp only [Good, hi] at hgood
    obtain ⟨info, hpeer⟩ := h.peer
    have hnamed := h.named v (List.mem_of_getElem? hi)
    have hconverging : Converging id w.node (w.pending.eraseIdx i)
        (call w.lookupd r id (notified w.node v)) := by
      cases hval : notified w.node v with
      | topic t exiting =>
        rw [hval] at hgood
        rw [← hval]
        cases exiting with
        | false =>
          exact h.converging.topic_open h.linked hi hnamed h.id_ne hpeer hval hgood
        | true =>
          exact h.converging.topic_exiting h.linked hi hnamed h.id_ne hpeer hval hgood
      | channel t c exiting =>
        have hc : c ≠ "" := by
          cases v with
          | topic p => cases hval
          | channel k =>
            simp only [notified, Notified.channel.injEq] at hval
            rw [← hval.2.1]
            exact ne_empty hnamed.2.2
        rw [hval] at hgood
        rw [← hval]
        cases exiting with
        | false =>
          exact h.converging.channel_open h.linked hi hnamed h.id_ne hpeer hval hc hgood
        | true =>
          exact h.converging.channel_exiting h.linked hi hnamed h.id_ne hpeer hval hc hgood
    refine ⟨h.linked, h.live, ?_, h.id_ne, ⟨info, ?_⟩, hconverging⟩
    · intro x hx
      exact h.named x (List.mem_of_mem_eraseIdx hx)
    · rw [call_peers]
      exact hpeer

theorem not_replaces {w : World} (h : Good w (.apply role o)) : ¬ Replaces w.node o := by
  cases o with
  | newTopic t =>
    rintro ⟨c, hc⟩
    obtain ⟨k, hk⟩ := Option.isSome_iff_exists.mp hc
    obtain ⟨p, hp⟩ := exists_topic_of_channelPtr hk
    simp only [Good, hp] at h
    rw [channelPtr_of hp] at hk
    have hmem := GoMap.mem_keys_of_lookup hk
    rw [h] at hmem
    cases hmem
  | newChannel t c => exact fun hfalse => hfalse
  | deleteTopic t => exact fun hfalse => hfalse
  | deleteChannel t c => exact fun hfalse => hfalse

/-- **The step.** -/
theorem Inv.step {w w' : World} {a : Act} (hlibs : Decodes libs) (h : Inv id w)
    (hgood : Good w a) (hstep : step libs id w a = some w') : Inv id w' := by
  cases a with
  | apply role o => exact h.order hlibs hstep (not_replaces hgood)
  | receive i r => exact h.receive hstep hgood

theorem inv_init (opts : ChannelOptions) (hl : Identified l id) : Inv id (.init opts l) where
  linked :=
    { topic := fun t p hp => by simp [World.init, Node.empty] at hp
      channel := fun t c k hk => by simp [World.init, Node.empty, Node.channelPtr] at hk }
  live _ :=
    { topic := fun t p hp => by simp [World.init, Node.empty] at hp
      channel := fun t c k hk => by simp [World.init, Node.empty, Node.channelPtr] at hk
      topic_open := fun t p hp => by simp [World.init, Node.empty] at hp
      channel_open := fun t c k hk => by simp [World.init, Node.empty, Node.channelPtr] at hk }
  named v hv := by cases hv
  id_ne := hl.id_ne
  peer := hl.peer
  converging :=
    { topic := fun t p hp => by simp [World.init, Node.empty] at hp
      channel := fun t c k hk => by simp [World.init, Node.empty, Node.channelPtr] at hk
      topics := fun t ht => absurd ht (hl.topics t)
      channels := fun t c hc => absurd hc (hl.channels t c) }

/-- When nothing is pending the registrations are those of the topics and channels. -/
theorem Inv.agrees {w : World} (h : Inv id w) (hquiet : w.pending = []) : Agrees id w := by
  obtain ⟨htopic, hchannel, htopics, hchannels⟩ := h.converging
  rw [hquiet] at htopic hchannel htopics hchannels
  have hnone : ∀ t, ¬ Leaving w.node [] t := fun t ⟨v, hv, _⟩ => by cases hv
  have hnone' : ∀ t c, ¬ LeavingChannel w.node [] t c := fun t c ⟨v, hv, _⟩ => by cases hv
  constructor
  · intro t
    constructor
    · exact fun ht => (htopics t ht).resolve_right (hnone t)
    · intro ht
      obtain ⟨p, hp⟩ := Option.isSome_iff_exists.mp (AList.lookup_isSome.mpr ht)
      exact (htopic t p hp).resolve_right List.not_mem_nil
  · intro t c
    constructor
    · intro hc
      refine (hchannels t c hc).resolve_right ?_
      rintro (hl | hl)
      · exact hnone t hl
      · exact hnone' t c hl
    · intro hc
      obtain ⟨k, hk⟩ := Option.isSome_iff_exists.mp hc
      exact (hchannel t c k hk).resolve_right List.not_mem_nil

/-- **Registrations converge** in every run in which every notification is received in time and no
topic with channels is replaced. -/
theorem registrations_converge (hlibs : Decodes libs) (opts : ChannelOptions)
    (hl : Identified l id) {acts : List Act} {w : World}
    (hgood : Along (step libs id) Good (.init opts l) acts)
    (hrun : run (step libs id) (.init opts l) acts = some w) (hquiet : w.pending = []) :
    Agrees id w :=
  (invariant_along (fun _ _ _ h hg hs => h.step hlibs hg hs) acts _ w (inv_init opts hl) hgood
    hrun).agrees hquiet

/-! ### A channel that comes back -/

/-- A node that identifies at a new daemon has no topic or channel there. -/
theorem identified_new (opts : Lookupd.Options) (remote : String) (now : ℤ) (peer : PeerInfo)
    (h : ¬ XMQLookupd.MissingFields (XMQLookupd.identifyInfo remote peer)) :
    Identified (XMQLookupd.new.identify opts remote now ⟨some peer⟩).2 peer.id := by
  have hmem : ∀ k, peer.id ∈
      (XMQLookupd.new.identify opts remote now ⟨some peer⟩).2.db.producersOf k →
        k = XMQLookupd.clientKey := by
    intro k hk
    simp only [XMQLookupd.identify, if_neg h] at hk
    rcases Lookupd.addProducer_mem.mp hk with ⟨hclient, -⟩ | hk
    · exact hclient
    · simp [Lookupd.RegistrationDB.producersOf, XMQLookupd.new, Lookupd.RegistrationDB.new] at hk
  constructor
  · exact fun hid => h (.inl hid)
  · refine ⟨{ XMQLookupd.identifyInfo remote peer with lastUpdate := now }, ?_, rfl⟩
    simp only [XMQLookupd.identify, if_neg h]
    exact AList.lookup_insert _
  · intro t ht
    exact XMQLookupd.topic_ne_client (congrArg Lookupd.Registration.category (hmem _ ht))
  · intro t c hc
    exact XMQLookupd.channel_ne_client (congrArg Lookupd.Registration.category (hmem _ hc))

theorem decodes_ofNew : Decodes Libs.ofNew where
  topic _ := rfl
  channel _ c := ⟨⟨0, 0, 0, "", c, 0, 0, false⟩, rfl, rfl⟩

/-- A daemon at which one node has identified. -/
def daemon : XMQLookupd :=
  (XMQLookupd.new.identify Lookupd.keptOptions "10.0.0.1:6000" 0
    ⟨some Lookupd.pingingNode⟩).2

theorem identified_daemon : Identified daemon "n1" :=
  identified_new Lookupd.keptOptions "10.0.0.1:6000" 0 Lookupd.pingingNode (by decide)

def lead (o : Order) : Act := .apply .leader o

/-- A topic with a channel is created; the channel is announced first. -/
def announcedInReverse : List Act :=
  [lead (.newTopic "orders"), lead (.newChannel "orders" "tail"), .receive 1 .id, .receive 0 .id,
    lead (.deleteChannel "orders" "tail"), .receive 0 .id]

theorem registrations_converge_inReverse : ∃ w,
    run (step Libs.ofNew "n1") (.init ⟨10, 100⟩ daemon) announcedInReverse = some w ∧
      Agrees "n1" w := by
  obtain ⟨w, hw, hquiet⟩ := exists_of_run (step Libs.ofNew "n1") (.init ⟨10, 100⟩ daemon)
    announcedInReverse (fun w => w.pending = []) (by decide)
  exact ⟨w, hw, registrations_converge decodes_ofNew ⟨10, 100⟩ identified_daemon
    (by decide) hw hquiet⟩

/-- A channel is deleted and created again, and its end is received last. -/
def comesBack : List Act :=
  [lead (.newTopic "orders"), .receive 0 .id, lead (.newChannel "orders" "tail"), .receive 0 .id,
    lead (.deleteChannel "orders" "tail"), lead (.newChannel "orders" "tail"), .receive 1 .id,
    .receive 0 .id]

/-- The channel is there, and the node is not registered for it. -/
theorem back_and_unregistered : ¬ ∀ acts w,
    run (step Libs.ofNew "n1") (.init ⟨10, 100⟩ daemon) acts = some w → w.pending = [] →
      Agrees "n1" w := by
  intro h
  obtain ⟨w, hw, hquiet, hthere, hlost⟩ := exists_of_run (step Libs.ofNew "n1")
    (.init ⟨10, 100⟩ daemon) comesBack
    (fun w => w.pending = [] ∧ (w.node.channelPtr "orders" "tail").isSome ∧
      "n1" ∉ w.lookupd.db.producersOf (XMQLookupd.channelKey "orders" "tail"))
    (by decide)
  exact hlost (((h comesBack w hw hquiet).channels "orders" "tail").mpr hthere)

end Xmq.Notify
