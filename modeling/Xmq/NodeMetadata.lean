import Xmq.ClusterReplicas
import Xmq.Metadata
import Xmq.Protocol

/-!
# Loading and persisting the metadata

`program.Init` runs `LoadMetadata` and then `PersistMetadata`, before anything else can reach the node
but the entries of its log. Loading creates what the file lists, through the log where the node does not
have it; persisting lists what the node has then, and replaces the file.

* `Topic.Start` and what a pause tells the pump and the clients have no part in the metadata.
* The maps are ranged over in any order.
-/

namespace Xmq.Cluster

/-! ### Submissions -/

/-- What `r.State()` says. -/
inductive RaftState where
  | follower
  | candidate
  | leader
  | shutdown
  deriving DecidableEq

/-- The raft node. `apply` is what becomes of an entry that the leader submits: an error, or `none` once
the entry has been applied here. -/
structure Raft where
  state : RaftState
  apply : SetPayload → GoError

/-- How a call ends that does not return. -/
inductive Abort where
  | stuck
  | panic
  deriving DecidableEq

/-- Submit an entry and wait for the response of its handler. -/
def submit (libs : Libs) (raft : Raft) (n : Node) (sp : SetPayload) : Except Abort (GoError × Node) :=
  if raft.state ≠ .leader then .ok (some "current note not leader", n)
  else
    match raft.apply sp with
    | some err => .ok (some s!"could not write key-value: {err}", n)
    | none =>
      match apply libs .leader n sp with
      | .done none n => .ok (none, n)
      | .done (some err) n => .ok (some s!"could not write key-value, application: {err}", n)
      | .stuck => .error .stuck
      | .panic => .error .panic

def newTopic (libs : Libs) (raft : Raft) (n : Node) (topicname : String) :
    Except Abort (GoError × Node) :=
  if topicname = "" then .ok (some "invalid arg", n)
  else submit libs raft n (newTopicEntry libs topicname)

def newChannel (libs : Libs) (raft : Raft) (n : Node) (topicname channelname : String) :
    Except Abort (GoError × Node) :=
  if topicname = "" then .ok (some "invalid arg", n)
  else submit libs raft n (newChannelEntry libs topicname channelname)

def topicUpdate (libs : Libs) (raft : Raft) (n : Node) (topicname field val : String) :
    Except Abort (GoError × Node) :=
  if topicname = "" ∨ field = "" then .ok (some "invalid arg", n)
  else submit libs raft n (topicUpdateEntry topicname field val)

/-! ### Loading -/

/-- `GetTopic` while `isLoading` is set: it does not ask the lookup daemons. -/
def getTopic (libs : Libs) (raft : Raft) (n : Node) (topicName : String) :
    Except Abort (Option TopicPtr × Node) :=
  match n.topics.lookup topicName with
  | some p => .ok (some p, n)
  | none =>
    if raft.state ≠ .leader then .ok (none, n)
    else do
      let (err, n) ← newTopic libs raft n topicName
      match err with
      | some _ => .ok (none, n)
      | none => .ok (n.topics.lookup topicName, n)

/-- `getOrCreateChannel`, on the topic behind `p`. -/
def getChannel (libs : Libs) (raft : Raft) (n : Node) (p : TopicPtr) (channelName : String) :
    Except Abort (Option ChannelPtr × Node) :=
  match (n.topicObj p).channels.lookup channelName with
  | some k => .ok (some k, n)
  | none => do
    let (err, n) ← newChannel libs raft n (n.topicObj p).name channelName
    match err with
    | some _ => .ok (none, n)
    | none => .ok ((n.topicObj p).channels.lookup channelName, n)

/-- `Topic.Pause`; what becomes of the submission does not matter. -/
def pauseTopic (libs : Libs) (raft : Raft) (n : Node) (p : TopicPtr) : Except Abort Node := do
  let n := n.setTopic p (LocalWrite.run (n.topicObj p) (.storePaused true))
  let (_, n) ← topicUpdate libs raft n (n.topicObj p).name "Paused"
    (LocalWrite.value libs (n.topicObj p) (.storePaused true))
  .ok n

/-- `Channel.Pause` and `Channel.UnPause`. -/
def Node.pauseChannel (n : Node) (k : ChannelPtr) (pause : Bool) : Node :=
  n.setChannel k { n.channelObj k with paused := if pause then 1 else 0 }

/-- One channel of a topic of the file. -/
def loadChannel (libs : Libs) (raft : Raft) (p : TopicPtr) (n : Node) (c : ChannelMetadata) :
    Except Abort Node :=
  if isValidChannelName c.name then do
    let (channel, n) ← getChannel libs raft n p c.name
    if c.paused then
      match channel with
      | some k => .ok (n.pauseChannel k true)
      | none => .error .panic
    else .ok n
  else .ok n

/-- One topic of the file. -/
def loadTopic (libs : Libs) (raft : Raft) (n : Node) (t : TopicMetadata) : Except Abort Node :=
  if isValidTopicName t.name then do
    let (topic, n) ← getTopic libs raft n t.name
    match topic with
    | none => .ok n
    | some p =>
      let n ← if t.paused then pauseTopic libs raft n p else .ok n
      t.channels.foldlM (loadChannel libs raft p) n
  else .ok n

/-- `encoding/json` on metadata. Nothing looks at the bytes of the file but `json`. -/
structure MetadataJSON where
  Data : Type
  marshal : Metadata → Data
  unmarshal : Data → Except String Metadata

/-- The path of the metadata file, and what reading it, writing a new one and renaming that come to. -/
structure Disk where
  fileName : String
  readErr : GoError
  writeErr : GoError
  renameErr : GoError

def loadMetadata (libs : Libs) (json : MetadataJSON) (raft : Raft) (disk : Disk)
    (file : Option json.Data) (n : Node) : Except Abort (GoError × Node) :=
  match disk.readErr with
  | some err => .ok (some s!"failed to read metadata from {disk.fileName} - {err}", n)
  | none =>
    match file with
    | none => .ok (none, n)
    | some data =>
      match json.unmarshal data with
      | .error err => .ok (some s!"failed to parse metadata in {disk.fileName} - {err}", n)
      | .ok m => do
        let n ← m.topics.foldlM (loadTopic libs raft) n
        .ok (none, n)

/-! ### Persisting -/

/-- The order in which maps are ranged over. -/
structure RangeOrder where
  topics : List TopicPtr → List TopicPtr
  channels : List ChannelPtr → List ChannelPtr
  topics_perm : ∀ l, (topics l).Perm l
  channels_perm : ∀ l, (channels l).Perm l

/-- The order in which the entries are listed. -/
def RangeOrder.asListed : RangeOrder := ⟨id, id, fun _ => .refl _, fun _ => .refl _⟩

def ChannelObj.metadata (o : ChannelObj) : ChannelMetadata := ⟨o.name, o.paused == 1⟩

def topicMetadata (order : RangeOrder) (n : Node) (t : TopicObj) : TopicMetadata where
  name := t.name
  paused := t.paused == 1
  channels := (((order.channels t.channels.values).map n.channelObj).filter fun c =>
    !c.ephemeral).map ChannelObj.metadata

def getMetadata (order : RangeOrder) (version : String) (n : Node) (ephemeral : Bool) : Metadata where
  topics := (((order.topics n.topics.values).map n.topicObj).filter fun t =>
    !(t.ephemeral && !ephemeral)).map (topicMetadata order n)
  version := version

/-- The error, and the file that is there then. -/
def persistMetadata (json : MetadataJSON) (disk : Disk) (order : RangeOrder) (version : String)
    (n : Node) (file : Option json.Data) : GoError × Option json.Data :=
  match disk.writeErr with
  | some err => (some err, file)
  | none =>
    match disk.renameErr with
    | some err => (some err, file)
    | none => (none, some (json.marshal (getMetadata order version n false)))

/-- `program.Init`: its error, the node, and the file. -/
def programInit (libs : Libs) (json : MetadataJSON) (raft : Raft) (disk : Disk) (order : RangeOrder)
    (version : String) (file : Option json.Data) (n : Node) :
    Except Abort (GoError × Node × Option json.Data) := do
  let (err, n) ← loadMetadata libs json raft disk file n
  match err with
  | some err => .ok (some s!"failed to load metadata - {err}", n, file)
  | none =>
    match persistMetadata json disk order version n file with
    | (some err, file) => .ok (some s!"failed to persist metadata - {err}", n, file)
    | (none, file) => .ok (none, n, file)

end Xmq.Cluster
