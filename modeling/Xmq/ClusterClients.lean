import Xmq.ChannelOperations
import Xmq.ClusterRefinement
import Xmq.Runs

/-!
# Clients of a node

Between the entries that a node applies, clients publish, subscribe, pause topics and work on
channels. They hold pointers to topic and channel objects, and what they do changes the objects but
never which object a name leads to.
-/

namespace Xmq.Cluster

/-! ### Operations on a topic object -/

namespace TopicObj

/-- `put`: the memory queue has `memQueueSize` slots. -/
def put (opts : ChannelOptions) (t : TopicObj) (m : Message) : GoError × TopicObj :=
  if t.memoryMsgChan.length < opts.memQueueSize then
    (none, { t with memoryMsgChan := t.memoryMsgChan ++ [m] })
  else
    let r := writeMessageToBackend m t.backend
    (r.1, { t with backend := r.2 })

/-- What `PutMessage` does to the topic; its two submissions are entries of the log. -/
def putMessage (opts : ChannelOptions) (t : TopicObj) (m : Message) : GoError × TopicObj :=
  if t.exitFlag = 1 then (some "exiting", t)
  else
    match t.put opts m with
    | (some err, t) => (some err, t)
    | (none, t) =>
      (none,
        { t with
          messageCount := t.messageCount + 1
          messageBytes := t.messageBytes + UInt64.ofNat m.body.length })

def doPause (t : TopicObj) (pause : Bool) : TopicObj :=
  { t with paused := if pause then 1 else 0 }

/-- The pump takes a message from memory. -/
def pumpMemory (t : TopicObj) : TopicObj := { t with memoryMsgChan := t.memoryMsgChan.tail }

/-- The pump takes a record from the backend. -/
def pumpBackend (t : TopicObj) : TopicObj :=
  match t.backend.read with
  | some (_, q) => { t with backend := q }
  | none => t

theorem put_channels (opts : ChannelOptions) (t : TopicObj) (m : Message) :
    (t.put opts m).2.channels = t.channels := by
  unfold put
  split <;> rfl

theorem putMessage_channels (opts : ChannelOptions) (t : TopicObj) (m : Message) :
    (t.putMessage opts m).2.channels = t.channels := by
  have h := put_channels opts t m
  unfold putMessage
  split
  · rfl
  · cases hp : t.put opts m with
    | mk err t' =>
        rw [hp] at h
        cases err <;> exact h

theorem pumpBackend_channels (t : TopicObj) : t.pumpBackend.channels = t.channels := by
  unfold pumpBackend
  split <;> rfl

end TopicObj

/-! ### Operations on a channel object -/

/-- An operation of `Channel.step`; `none` where it indexes out of range, or on a channel that has
no queues. -/
def ChannelObj.operate (o : ChannelObj) (op : Channel.Op) : Option ChannelObj :=
  match o.core with
  | .decoded _ => none
  | .running c => (c.step op).map fun r => { o with core := .running r.2 }

/-- `AddClient`; no limit when `maxChannelConsumers` is 0. -/
def ChannelObj.addClient (o : ChannelObj) (clientID : String) (maxChannelConsumers : ℕ) :
    ChannelObj :=
  match o.core with
  | .decoded _ => o
  | .running c =>
    if c.exiting then o
    else if (c.clients.lookup clientID).isSome then o
    else if maxChannelConsumers ≠ 0 ∧ maxChannelConsumers ≤ c.clients.keys.length then o
    else { o with core := .running { c with clients := c.clients.insert clientID ⟨0⟩ } }

def ChannelObj.removeClient (o : ChannelObj) (clientID : String) : ChannelObj :=
  match o.core with
  | .decoded _ => o
  | .running c =>
    if c.exiting then o
    else { o with core := .running { c with clients := c.clients.erase clientID } }

/-! ### Runs of a node -/

/-- An entry that the node applies in a role, or an operation of a client on an object. -/
inductive Act where
  | apply (role : Role) (sp : SetPayload)
  | putMessage (p : TopicPtr) (m : Message)
  | doPause (p : TopicPtr) (pause : Bool)
  | pumpMemory (p : TopicPtr)
  | pumpBackend (p : TopicPtr)
  | channel (k : ChannelPtr) (op : Channel.Op)
  | addClient (k : ChannelPtr) (clientID : String) (maxChannelConsumers : ℕ)
  | removeClient (k : ChannelPtr) (clientID : String)

/-- One act; `none` where the act does not return. -/
def step (libs : Libs) (n : Node) : Act → Option Node
  | .apply role sp =>
    match Cluster.apply libs role n sp with
    | .done _ n => some n
    | .stuck => none
    | .panic => none
  | .putMessage p m => some (n.setTopic p ((n.topicObj p).putMessage n.opts m).2)
  | .doPause p pause => some (n.setTopic p ((n.topicObj p).doPause pause))
  | .pumpMemory p => some (n.setTopic p (n.topicObj p).pumpMemory)
  | .pumpBackend p => some (n.setTopic p (n.topicObj p).pumpBackend)
  | .channel k op => ((n.channelObj k).operate op).map (n.setChannel k)
  | .addClient k clientID max => some (n.setChannel k ((n.channelObj k).addClient clientID max))
  | .removeClient k clientID => some (n.setChannel k ((n.channelObj k).removeClient clientID))

/-- Every name leads to the object it led to. -/
structure SameLinks (n n' : Node) : Prop where
  topics : n'.topics = n.topics
  channels : ∀ p, (n'.topicObj p).channels = (n.topicObj p).channels
  nextTopic : n'.nextTopic = n.nextTopic
  nextChannel : n'.nextChannel = n.nextChannel

namespace SameLinks

variable {n n' : Node}

theorem channelPtr (h : SameLinks n n') (t c : String) : n'.channelPtr t c = n.channelPtr t c := by
  rw [Node.channelPtr, Node.channelPtr, h.topics]
  congr 1
  funext p
  rw [h.channels]

theorem owned (h : SameLinks n n') (ho : n.Owned) : n'.Owned where
  topic_lt := by rw [h.topics, h.nextTopic]; exact ho.topic_lt
  topic_inj := by rw [h.topics]; exact ho.topic_inj
  channel_lt := by simp only [h.channelPtr, h.nextChannel]; exact ho.channel_lt
  channel_inj := by simp only [h.channelPtr]; exact ho.channel_inj

end SameLinks

theorem sameLinks_setTopic (n : Node) (p : TopicPtr) {o : TopicObj}
    (h : o.channels = (n.topicObj p).channels) : SameLinks n (n.setTopic p o) := by
  refine ⟨rfl, fun q => ?_, rfl, rfl⟩
  by_cases hq : q = p
  · rw [hq, n.setTopic_self, h]
  · rw [n.setTopic_ne o hq]

theorem sameLinks_setChannel (n : Node) (k : ChannelPtr) (o : ChannelObj) :
    SameLinks n (n.setChannel k o) :=
  ⟨rfl, fun _ => rfl, rfl, rfl⟩

/-- **Clients change no links.** -/
theorem step_sameLinks {libs : Libs} {n n' : Node} {a : Act} (h : step libs n a = some n')
    (ha : ∀ role sp, a ≠ .apply role sp) : SameLinks n n' := by
  cases a with
  | apply role sp => exact absurd rfl (ha role sp)
  | putMessage p m =>
      cases h
      exact sameLinks_setTopic n p (TopicObj.putMessage_channels _ _ m)
  | doPause p pause =>
      cases h
      exact sameLinks_setTopic n p rfl
  | pumpMemory p =>
      cases h
      exact sameLinks_setTopic n p rfl
  | pumpBackend p =>
      cases h
      exact sameLinks_setTopic n p (TopicObj.pumpBackend_channels _)
  | channel k op =>
      obtain ⟨o, _, rfl⟩ := Option.map_eq_some_iff.mp h
      exact sameLinks_setChannel n k o
  | addClient k clientID max =>
      cases h
      exact sameLinks_setChannel n k _
  | removeClient k clientID =>
      cases h
      exact sameLinks_setChannel n k _

theorem step_apply {libs : Libs} {n n' : Node} {role : Role} {sp : SetPayload} :
    step libs n (.apply role sp) = some n' ↔
      ∃ err, Cluster.apply libs role n sp = .done err n' := by
  rw [step]
  cases ha : Cluster.apply libs role n sp with
  | done err m =>
      constructor
      · intro h
        cases h
        exact ⟨err, rfl⟩
      · rintro ⟨err', h⟩
        cases h
        rfl
  | stuck => simp
  | panic => simp

/-- Nodes stay owned. -/
theorem step_owned {libs : Libs} {n n' : Node} {a : Act} (ho : n.Owned)
    (h : step libs n a = some n') : n'.Owned := by
  by_cases ha : ∃ role sp, a = .apply role sp
  · obtain ⟨role, sp, rfl⟩ := ha
    obtain ⟨err, happ⟩ := step_apply.mp h
    have hr := apply_refines libs role ho sp
    rw [happ] at hr
    exact hr.1
  · exact (step_sameLinks h fun role sp heq => ha ⟨role, sp, heq⟩).owned ho

theorem run_owned {libs : Libs} {n n' : Node} (ho : n.Owned) (acts : List Act)
    (h : Runs.run (step libs) n acts = some n') : n'.Owned :=
  Runs.invariant_run (fun _ _ _ hi hs => step_owned hi hs) acts n n' ho h

end Xmq.Cluster
