import Mathlib.Data.List.Lemmas
import Xmq.ChannelModel

/-!
# The replicated node

`XMQCluster` is the raft state machine of a node: a map from names to topics, which committed
entries change through `Apply`. This module translates the five handlers, `Snapshot` and `Restore`.

* Topics and channels are objects behind pointers, so that replacing an object and changing it are
  different things.
* What `json` and `cast` make of a string, and the queue that `diskqueue.New` opens, are parameters.
* A handler runs on the one goroutine that applies entries. A submission it makes itself is refused
  on a follower; on the leader it is answered once its entry has been applied, and that goroutine is
  busy: the handler never returns.
-/

namespace Xmq

namespace Cluster

/-! ### Entries -/

structure SetPayload where
  method : String
  args : List String
  value : String
  deriving DecidableEq

/-- The exported fields of a `Channel`. -/
structure ChannelJSON where
  requeueCount : UInt64
  messageCount : UInt64
  timeoutCount : UInt64
  topicName : String
  name : String
  exitFlag : Int32
  paused : Int32
  ephemeral : Bool

/-- The exported fields of a `Topic`. -/
structure TopicJSON where
  messageCount : UInt64
  messageBytes : UInt64
  name : String
  channels : List (String × ChannelJSON)
  exitFlag : Int32
  ephemeral : Bool
  paused : Int32

/-- What the node takes from elsewhere: `json`, the conversions of `cast`, and the disk queue that is
opened under a name. -/
structure Libs where
  marshalTopic : TopicJSON → String
  marshalChannel : ChannelJSON → String
  unmarshalTopic : String → Except String TopicJSON
  unmarshalChannel : String → Except String ChannelJSON
  /-- What was decoded before the first error, and that error. -/
  unmarshalChannels : String → List (String × ChannelJSON) × GoError
  toUint64 : String → UInt64
  toInt32 : String → Int32
  toBool : String → Bool
  uint64ToString : UInt64 → String
  int32ToString : Int32 → String
  diskqueueNew : String → BackendQueue

/-- The number that a string of decimal digits is. -/
def ofDigits (s : String) : ℕ := Nat.ofDigitChars 10 s.toList 0

theorem ofDigits_toString (n : ℕ) : ofDigits (toString n) = n := by
  rw [ofDigits, Nat.toString_eq_ofList_toDigits, String.toList_ofList,
    Nat.ofDigitChars_ten_toDigits]

/-- The libraries on the values that the node itself submits: new topics and channels, of which all
but the name is zero, and decimal numbers. -/
def Libs.ofNew : Libs where
  marshalTopic := fun j => j.name
  marshalChannel := fun j => j.name
  unmarshalTopic := fun s => .ok ⟨0, 0, s, [], 0, false, 0⟩
  unmarshalChannel := fun s => .ok ⟨0, 0, 0, "", s, 0, 0, false⟩
  unmarshalChannels := fun _ => ([], none)
  toUint64 := fun s => UInt64.ofNat (ofDigits s)
  toInt32 := fun s => Int32.ofNat (ofDigits s)
  toBool := fun s => s == "true"
  uint64ToString := fun v => toString v.toNat
  int32ToString := fun v => toString v.toInt
  diskqueueNew := fun _ => BackendQueue.diskQueue fun _ => none

/-! ### Submissions -/

/-- What `XMQCluster.NewTopic` submits. -/
def newTopicEntry (libs : Libs) (topicname : String) : SetPayload :=
  ⟨"NewTopic", [topicname], libs.marshalTopic ⟨0, 0, topicname, [], 0, false, 0⟩⟩

/-- What `XMQCluster.NewChannel` submits. -/
def newChannelEntry (libs : Libs) (topicname channelname : String) : SetPayload :=
  ⟨"NewChannel", [topicname, channelname],
    libs.marshalChannel ⟨0, 0, 0, topicname, channelname, 0, 0, false⟩⟩

/-- What `XMQCluster.TopicUpdate` submits, with the value in text. -/
def topicUpdateEntry (topicname field value : String) : SetPayload :=
  ⟨"TopicUpdate", [topicname, field], value⟩

/-- What `XMQCluster.DeleteChannel` submits. -/
def deleteChannelEntry (topicname channelname : String) : SetPayload :=
  ⟨"DeleteChannel", [topicname, channelname], ""⟩

/-- What `XMQCluster.DeleteTopic` submits. -/
def deleteTopicEntry (topicname : String) : SetPayload := ⟨"DeleteTopic", [topicname], ""⟩

/-! ### Nodes -/

abbrev TopicPtr := ℕ

abbrev ChannelPtr := ℕ

/-- A channel that `ClusterNewChannel` set up has queues; one that was decoded as part of a topic
has nothing but its exported fields. -/
inductive ChannelCore where
  | decoded (exitFlag : Int32)
  | running (c : Channel)

structure ChannelObj where
  topicName : String
  name : String
  paused : Int32
  ephemeral : Bool
  core : ChannelCore

structure TopicObj where
  messageCount : UInt64
  messageBytes : UInt64
  name : String
  channels : GoMap String ChannelPtr
  exitFlag : Int32
  ephemeral : Bool
  paused : Int32
  backend : BackendQueue
  memoryMsgChan : List Message
  /-- `ctxCancel` was called, and the pump has ended. -/
  cancelled : Bool

structure Node where
  topics : GoMap String TopicPtr
  topicObj : TopicPtr → TopicObj
  channelObj : ChannelPtr → ChannelObj
  nextTopic : TopicPtr
  nextChannel : ChannelPtr
  opts : ChannelOptions

/-- Whether the node leads the cluster. -/
inductive Role where
  | leader
  | follower
  deriving DecidableEq

/-- How a handler ends: it returns, it waits for ever, or it dereferences a nil pointer. -/
inductive Outcome where
  | done (err : GoError) (n : Node)
  | stuck
  | panic

/-- A new node without topics. -/
def Node.empty (opts : ChannelOptions) : Node where
  topics := ∅
  topicObj := fun _ => ⟨0, 0, "", ∅, 0, false, 0, BackendQueue.dummyBackendQueue, [], false⟩
  channelObj := fun _ => ⟨"", "", 0, false, .decoded 0⟩
  nextTopic := 0
  nextChannel := 0
  opts := opts

namespace Node

variable (n : Node)

def setTopic (p : TopicPtr) (t : TopicObj) : Node :=
  { n with topicObj := fun q => if q = p then t else n.topicObj q }

def setChannel (c : ChannelPtr) (o : ChannelObj) : Node :=
  { n with channelObj := fun q => if q = c then o else n.channelObj q }

@[simp] theorem setTopic_self (p : TopicPtr) (t : TopicObj) : (n.setTopic p t).topicObj p = t :=
  if_pos rfl

theorem setTopic_ne {p q : TopicPtr} (t : TopicObj) (h : q ≠ p) :
    (n.setTopic p t).topicObj q = n.topicObj q :=
  if_neg h

@[simp] theorem setChannel_self (c : ChannelPtr) (o : ChannelObj) :
    (n.setChannel c o).channelObj c = o :=
  if_pos rfl

theorem setChannel_ne {c d : ChannelPtr} (o : ChannelObj) (h : d ≠ c) :
    (n.setChannel c o).channelObj d = n.channelObj d :=
  if_neg h

/-- A new channel object. -/
def allocChannel (o : ChannelObj) : Node :=
  { n.setChannel n.nextChannel o with nextChannel := n.nextChannel + 1 }

/-- `topics.Store` of a new topic object. -/
def storeTopic (name : String) (t : TopicObj) : Node :=
  { n.setTopic n.nextTopic t with
    topics := n.topics.insert name n.nextTopic
    nextTopic := n.nextTopic + 1 }

/-- Decode into a map of channels: a new object for every name. -/
def addChannels : Node → GoMap String ChannelPtr → List (String × ChannelJSON) →
    Node × GoMap String ChannelPtr
  | n, channels, [] => (n, channels)
  | n, channels, (name, j) :: rest =>
    addChannels
      (n.allocChannel ⟨j.topicName, j.name, j.paused, j.ephemeral, .decoded j.exitFlag⟩)
      (channels.insert name n.nextChannel) rest

end Node

/-! ### Handlers -/

def isEphemeral (name : String) : Bool := name.endsWith "#ephemeral"

/-- `getBackendName`. -/
def getBackendName (topicName channelName : String) : String := topicName ++ ":" ++ channelName

/-- The topic that `ClusterNewTopic` sets up. -/
def newTopicObj (libs : Libs) (name : String) (j : TopicJSON)
    (channels : GoMap String ChannelPtr) : TopicObj where
  messageCount := j.messageCount
  messageBytes := j.messageBytes
  name := name
  channels := channels
  exitFlag := j.exitFlag
  ephemeral := if isEphemeral name then true else j.ephemeral
  paused := j.paused
  backend := if isEphemeral name then BackendQueue.dummyBackendQueue else libs.diskqueueNew name
  memoryMsgChan := []
  cancelled := false

def clusterNewTopic (libs : Libs) (n : Node) (sp : SetPayload) : Outcome :=
  match sp.args with
  | [name] =>
    if name = "" then .done (some "invalid arg") n
    else
      match libs.unmarshalTopic sp.value with
      | .error err =>
        .done (some s!"json.Unmarshal(value={sp.value}) to Topic fail, because of {err}") n
      | .ok j =>
        let r := n.addChannels ∅ j.channels
        .done none (r.1.storeTopic name (newTopicObj libs name j r.2))
  | _ => .done (some "invalid arg") n

/-- The channel that `ClusterNewChannel` sets up. -/
def newChannelObj (libs : Libs) (opts : ChannelOptions) (topicName name : String)
    (j : ChannelJSON) : ChannelObj where
  topicName := topicName
  name := name
  paused := j.paused
  ephemeral := if isEphemeral name then true else j.ephemeral
  core := .running
    { newChannel opts
        (if isEphemeral name then BackendQueue.dummyBackendQueue
          else libs.diskqueueNew (getBackendName topicName name)) ∅ with
      requeueCount := j.requeueCount
      messageCount := j.messageCount
      timeoutCount := j.timeoutCount
      exitFlag := j.exitFlag }

def clusterNewChannel (libs : Libs) (n : Node) (sp : SetPayload) : Outcome :=
  match sp.args with
  | [topicName, name] =>
    if name = "" ∨ topicName = "" then .done (some "invalid arg") n
    else
      match n.topics.lookup topicName with
      | none => .done (some s!"topic({topicName}) not exist") n
      | some p =>
        match libs.unmarshalChannel sp.value with
        | .error err =>
          .done (some s!"json.Unmarshal(value={sp.value}) to Topic fail, because of {err}") n
        | .ok j =>
          let t := n.topicObj p
          .done none ((n.allocChannel (newChannelObj libs n.opts topicName name j)).setTopic p
            { t with channels := t.channels.insert name n.nextChannel })
  | _ => .done (some "invalid arg") n

/-- The fields of a topic that `ClusterTopicUpdate` knows. -/
inductive TopicField where
  | messageCount
  | messageBytes
  | name
  | channels
  | exitFlag
  | ephemeral
  | paused
  deriving DecidableEq

def topicField (field : String) : Option TopicField :=
  if field = "message_count" ∨ field = "MessageCount" then some .messageCount
  else if field = "MessageBytes" ∨ field = "message_bytes" then some .messageBytes
  else if field = "Name" ∨ field = "name" then some .name
  else if field = "Channels" ∨ field = "channels" then some .channels
  else if field = "ExitFlag" ∨ field = "exit_flag" then some .exitFlag
  else if field = "Ephemeral" ∨ field = "ephemeral" then some .ephemeral
  else if field = "Paused" ∨ field = "paused" then some .paused
  else none

/-- The switch of `ClusterTopicUpdate`, on the topic behind `p`. -/
def setTopicField (libs : Libs) (n : Node) (p : TopicPtr) (value : String) : TopicField → Outcome
  | .messageCount =>
    .done none (n.setTopic p { n.topicObj p with messageCount := libs.toUint64 value })
  | .messageBytes =>
    .done none (n.setTopic p { n.topicObj p with messageBytes := libs.toUint64 value })
  | .name => .done none (n.setTopic p { n.topicObj p with name := value })
  | .channels =>
    if value = "" then .done none (n.setTopic p { n.topicObj p with channels := ∅ })
    else
      let decoded := libs.unmarshalChannels value
      let r := n.addChannels (n.topicObj p).channels decoded.1
      .done
        (decoded.2.map fun err =>
          s!"ClusterTopicUpdate json.Unmarshal(value={value}) to Topic.Channels, because of {err}")
        (r.1.setTopic p { n.topicObj p with channels := r.2 })
  | .exitFlag => .done none (n.setTopic p { n.topicObj p with exitFlag := libs.toInt32 value })
  | .ephemeral => .done none (n.setTopic p { n.topicObj p with ephemeral := libs.toBool value })
  | .paused => .done none (n.setTopic p { n.topicObj p with paused := libs.toInt32 value })

def clusterTopicUpdate (libs : Libs) (n : Node) (sp : SetPayload) : Outcome :=
  match sp.args with
  | [topicName, field] =>
    if topicName = "" ∨ field = "" then .done (some "ClusterTopicUpdate Args is invalid") n
    else
      match n.topics.lookup topicName with
      | none => .done (some s!"ClusterTopicUpdate topic({topicName}) not exist") n
      | some p =>
        match topicField field with
        | some f => setTopicField libs n p sp.value f
        | none => .done none n
  | _ => .done (some "ClusterTopicUpdate Args is invalid") n

/-- `Channel.Delete`. A decoded channel has no `xmqd` to notify. -/
def deleteChannelObj (o : ChannelObj) : Option ChannelObj :=
  match o.core with
  | .decoded exitFlag => if exitFlag ≠ 0 then some o else none
  | .running c => some { o with core := .running (c.exit true [] []).2 }

def clusterDeleteChannel (n : Node) (sp : SetPayload) : Outcome :=
  match sp.args with
  | [topicName, name] =>
    if topicName = "" ∨ name = "" then .done (some "ClusterDeleteChannel Args is invalid") n
    else
      match n.topics.lookup topicName with
      | none => .done (some s!"ClusterDeleteChannel topic({topicName}) not exist") n
      | some p =>
        let t := n.topicObj p
        match t.channels.lookup name with
        | none => .done none n
        | some c =>
          match deleteChannelObj (n.channelObj c) with
          | none => .panic
          | some o =>
            .done none ((n.setChannel c o).setTopic p { t with channels := t.channels.erase name })
  | _ => .done (some "ClusterDeleteChannel Args is invalid") n

/-- What comes of a submission made by the goroutine that applies the entries. -/
inductive Submission where
  | refused (err : String)
  | waits

/-- `TopicUpdate` and `DeleteChannel` of `XMQCluster`, called from a handler. -/
def submitFromApply (role : Role) (args : List String) : Submission :=
  if "" ∈ args then .refused "invalid arg"
  else
    match role with
    | .follower => .refused "current note not leader"
    | .leader => .waits

/-- The channel deletions of `Topic.exit`. -/
def submitDeletions (role : Role) (topicName : String) : List String → Submission
  | [] => .refused ""
  | name :: rest =>
    match submitFromApply role [topicName, name] with
    | .refused _ => submitDeletions role topicName rest
    | .waits => .waits

/-- `Topic.exit(true)`, called from a handler. -/
def topicDelete (role : Role) (n : Node) (p : TopicPtr) : Outcome :=
  let t := n.topicObj p
  if t.exitFlag ≠ 0 then .done (some "exiting") n
  else
    match submitFromApply role [t.name, "ExitFlag"] with
    | .waits => .stuck
    | .refused _ =>
      match submitDeletions role t.name t.channels.keys with
      | .waits => .stuck
      | .refused _ =>
        .done none (n.setTopic p
          { t with
            exitFlag := 1
            cancelled := true
            memoryMsgChan := []
            backend := t.backend.empty.delete })

def clusterDeleteTopic (role : Role) (n : Node) (sp : SetPayload) : Outcome :=
  match sp.args with
  | [name] =>
    if name = "" then .done (some "ClusterDeleteTopic Args is invalid") n
    else
      match n.topics.lookup name with
      | none => .done (some s!"ClusterDeleteTopic topic({name}) not exist") n
      | some p =>
        match topicDelete role n p with
        | .done _ n => .done none { n with topics := n.topics.erase name }
        | .stuck => .stuck
        | .panic => .panic
  | _ => .done (some "ClusterDeleteTopic Args is invalid") n

/-- `Apply` of a command whose data decodes. -/
def apply (libs : Libs) (role : Role) (n : Node) (sp : SetPayload) : Outcome :=
  if sp.method = "NewTopic" then clusterNewTopic libs n sp
  else if sp.method = "NewChannel" then clusterNewChannel libs n sp
  else if sp.method = "TopicUpdate" then clusterTopicUpdate libs n sp
  else if sp.method = "DeleteChannel" then clusterDeleteChannel n sp
  else if sp.method = "DeleteTopic" then clusterDeleteTopic role n sp
  else .done none n

/-- Apply entries in log order; `none` when one of them does not return. -/
def applyAll (libs : Libs) (role : Role) : Node → List SetPayload → Option Node
  | n, [] => some n
  | n, sp :: rest =>
    match apply libs role n sp with
    | .done _ n => applyAll libs role n rest
    | .stuck => none
    | .panic => none

/-! ### Snapshots -/

/-- `snapshotNoop.Persist` writes nothing: the payloads that a reader finds in a snapshot. -/
def persist (_ : Node) : List SetPayload := []

/-- `Restore` returns after the first `NewTopic` it finds. -/
def restore (libs : Libs) (n : Node) : List SetPayload → Outcome
  | [] => .done none n
  | sp :: rest => if sp.method = "NewTopic" then clusterNewTopic libs n sp else restore libs n rest

end Cluster

end Xmq
