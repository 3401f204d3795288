import Xmq.Protocol
import Xmq.RegistrationDB

/-!
# The lookup daemon

`xmqlookupd` answers the calls of the nodes (`Identify`, `Register`, `Unregister`, `Ping`) and the
requests of its HTTP interface. This module translates `grpc.go` and the handlers of `http.go`.

* A handler is one step, and reads the clock once. The order in which it ranges over the maps is an
  argument.
* A handler that panics has no reply: the deferred `recover` leaves its results nil.
* The address of the caller is what the connection says it is.
-/

namespace Xmq.Lookupd

open GoMap (RangeOrder)
open Lookup (PeerInfo PeerRequest IdentifyReply RegisterRequest Reply)

/-! ### The daemon -/

structure Options where
  inactiveProducerTimeout : ℤ
  tombstoneLifetime : ℤ
  broadcastAddress : String
  grpcPort : Int32
  httpPort : Int32
  hostname : String
  version : String

/-- `next` is the pointer of the next producer record. -/
structure XMQLookupd where
  peers : GoMap String PeerInfo
  db : RegistrationDB
  next : ProducerPtr

def XMQLookupd.new : XMQLookupd := ⟨∅, .new, 0⟩

/-- The copy of the fields that a producer record gets. -/
def producerInfo (peerinfo : PeerInfo) : PeerInfo := { peerinfo with raftState := "" }

namespace XMQLookupd

variable (l : XMQLookupd)

/-- `DB.AddProducer` of a new record. -/
def addProducer (k : Registration) (peerinfo : PeerInfo) : XMQLookupd :=
  let db := l.db.update l.next fun _ => .new (producerInfo peerinfo)
  { l with db := (db.addProducer k l.next).2, next := l.next + 1 }

def clientKey : Registration := ⟨"client", "", ""⟩

def topicKey (topic : String) : Registration := ⟨"topic", topic, ""⟩

def channelKey (topic channel : String) : Registration := ⟨"channel", topic, channel⟩

/-! ### Calls of the nodes -/

def ping (req : PeerRequest) : Reply × XMQLookupd :=
  match req.peer with
  | none => (⟨"", "OK"⟩, l)
  | some peer =>
    if peer.id = "" then (⟨"", "OK"⟩, l)
    else
      match l.peers.lookup peer.id with
      | none => (⟨"", "OK"⟩, l)
      | some peerinfo =>
        (⟨"", "OK"⟩,
          { l with peers := l.peers.insert peer.id { peerinfo with raftState := peer.raftState } })

/-- The fields that `Identify` takes over. -/
def identifyInfo (remote : String) (peer : PeerInfo) : PeerInfo :=
  { peer with remoteAddress := remote, lastUpdate := 0, raftState := "" }

/-- A field that `Identify` requires is missing. -/
def MissingFields (p : PeerInfo) : Prop :=
  p.id = "" ∨ p.broadcastAddress = "" ∨ p.tcpPort = 0 ∨ p.httpPort = 0 ∨ p.version = ""

instance (p : PeerInfo) : Decidable (MissingFields p) := inferInstanceAs (Decidable (_ ∨ _))

def identifyError (err : String) : IdentifyReply := ⟨err, 0, 0, "", "", ""⟩

def identify (opts : Options) (remote : String) (now : ℤ) (req : PeerRequest) :
    Option IdentifyReply × XMQLookupd :=
  match req.peer with
  | none => (none, l)
  | some peer =>
    let peerinfo := identifyInfo remote peer
    if MissingFields peerinfo then (some (identifyError "E_BAD_BODY:IDENTIFY missing fields"), l)
    else if (l.peers.lookup peerinfo.id).isSome then
      (some (identifyError "E_INVALID:cannot IDENTIFY again"), l)
    else
      let peerinfo := { peerinfo with lastUpdate := now }
      let l := { l with peers := l.peers.insert peerinfo.id peerinfo }
      (some ⟨"", opts.grpcPort, opts.httpPort, opts.version, opts.broadcastAddress, opts.hostname⟩,
        l.addProducer clientKey peerinfo)

/-- The checks that `Register` and `Unregister` make; the texts are the same. -/
def checkRegister (req : RegisterRequest) : Except String PeerInfo :=
  if req.id = "" then .error "E_BAD_BODY:IDENTIFY missing fields"
  else
    match l.peers.lookup req.id with
    | none => .error "E_INVALID:client must IDENTIFY"
    | some peerinfo =>
      if isValidTopicName req.topicName = false then
        .error s!"E_BAD_TOPIC:Unregister topic name '{req.topicName}' is not valid"
      else if req.channelName ≠ "" ∧ isValidChannelName req.channelName = false then
        .error s!"E_BAD_CHANNEL:Unregister channel name '{req.channelName}' is not valid"
      else .ok peerinfo

def register (req : RegisterRequest) : Reply × XMQLookupd :=
  match l.checkRegister req with
  | .error err => (⟨err, ""⟩, l)
  | .ok peerinfo =>
    let l :=
      if req.channelName ≠ "" then l.addProducer (channelKey req.topicName req.channelName) peerinfo
      else l
    (⟨"", "OK"⟩, l.addProducer (topicKey req.topicName) peerinfo)

/-- `RemoveProducer`, and `RemoveRegistration` of an ephemeral name that has no producers left. -/
def removeProducer (k : Registration) (id name : String) : XMQLookupd :=
  let r := l.db.removeProducer k id
  { l with
    db := if r.1.2 = 0 ∧ name.endsWith "#ephemeral" then r.2.removeRegistration k else r.2 }

def unregister (r : RangeOrder) (req : RegisterRequest) : Reply × XMQLookupd :=
  match l.checkRegister req with
  | .error err => (⟨err, ""⟩, l)
  | .ok peerinfo =>
    if req.channelName ≠ "" then
      (⟨"", "OK"⟩,
        l.removeProducer (channelKey req.topicName req.channelName) peerinfo.id req.channelName)
    else
      let registrations := l.db.findRegistrations r "channel" req.topicName "*"
      let db := registrations.foldl (fun db k => (db.removeProducer k peerinfo.id).2) l.db
      (⟨"", "OK"⟩,
        { l with db := db }.removeProducer (topicKey req.topicName) peerinfo.id req.topicName)

end XMQLookupd

/-! ### Requests of the HTTP interface -/

/-- An answer with an error. -/
structure HTTPErr where
  code : ℕ
  text : String
  deriving DecidableEq

/-- The arguments of a request: the first value of each. -/
abbrev ReqParams := String → Option String

/-- `NewReqParams`; `none` is a request that cannot be parsed or read. -/
def newReqParams (req : Option ReqParams) : Except HTTPErr ReqParams :=
  match req with
  | none => .error ⟨400, "INVALID_REQUEST"⟩
  | some params => .ok params

def getParam (params : ReqParams) (key : String) (missing : String) : Except HTTPErr String :=
  match params key with
  | none => .error ⟨400, missing⟩
  | some v => .ok v

def getTopicChannelArgs (params : ReqParams) : Except HTTPErr (String × String) := do
  let topicName ← getParam params "topic" "MISSING_ARG_TOPIC"
  if isValidTopicName topicName = false then throw ⟨400, "INVALID_ARG_TOPIC"⟩
  let channelName ← getParam params "channel" "MISSING_ARG_CHANNEL"
  if isValidChannelName channelName = false then throw ⟨400, "INVALID_ARG_CHANNEL"⟩
  return (topicName, channelName)

structure LookupAnswer where
  channels : List String
  producers : List PeerInfo

structure NodeInfo where
  peerInfo : PeerInfo
  tombstones : List Bool
  topics : List String

namespace XMQLookupd

variable (l : XMQLookupd) (opts : Options) (r : RangeOrder) (now : ℤ) (req : Option ReqParams)

def doTopics : List String := (l.db.findRegistrations r "topic" "*" "").map Registration.key

def doChannels : Except HTTPErr (List String) := do
  let params ← newReqParams req
  let topicName ← getParam params "topic" "MISSING_ARG_TOPIC"
  return (l.db.findRegistrations r "channel" topicName "*").map Registration.subKey

/-- `doLookup`, for the topic that the request names. -/
def lookupTopic (topicName : String) : Except HTTPErr LookupAnswer :=
  if (l.db.findRegistrations r "topic" topicName "").length = 0 then .error ⟨404, "TOPIC_NOT_FOUND"⟩
  else
    let channels := (l.db.findRegistrations r "channel" topicName "*").map Registration.subKey
    let producers := l.db.filterByActive now opts.inactiveProducerTimeout opts.tombstoneLifetime
      (l.db.findProducers r "topic" topicName "")
    .ok ⟨channels, l.db.peerInfos producers⟩

def doLookup : Except HTTPErr LookupAnswer := do
  let params ← newReqParams req
  let topicName ← getParam params "topic" "MISSING_ARG_TOPIC"
  l.lookupTopic opts r now topicName

def doCreateTopic : Except HTTPErr XMQLookupd := do
  let params ← newReqParams req
  let topicName ← getParam params "topic" "MISSING_ARG_TOPIC"
  if isValidTopicName topicName = false then throw ⟨400, "INVALID_ARG_TOPIC"⟩
  return { l with db := l.db.addRegistration (topicKey topicName) }

def doDeleteTopic : Except HTTPErr XMQLookupd := do
  let params ← newReqParams req
  let topicName ← getParam params "topic" "MISSING_ARG_TOPIC"
  let db := (l.db.findRegistrations r "channel" topicName "*").foldl .removeRegistration l.db
  return { l with db := (db.findRegistrations r "topic" topicName "").foldl .removeRegistration db }

/-- The node that a record names in a tombstone request. -/
def nodeName (p : Producer) : String :=
  s!"{p.peerInfo.broadcastAddress}:{p.peerInfo.httpPort.toInt}"

/-- The loop over the producers of the topic. -/
def tombstoneAll (node : String) (db : RegistrationDB) (ps : List ProducerPtr) : RegistrationDB :=
  ps.foldl
    (fun db p =>
      if nodeName (db.producer p) = node then db.update p fun o => o.tombstone now else db) db

def doTombstoneTopicProducer : Except HTTPErr XMQLookupd := do
  let params ← newReqParams req
  let topicName ← getParam params "topic" "MISSING_ARG_TOPIC"
  let node ← getParam params "node" "MISSING_ARG_NODE"
  return { l with db := tombstoneAll now node l.db (l.db.findProducers r "topic" topicName "") }

def doCreateChannel : Except HTTPErr XMQLookupd := do
  let params ← newReqParams req
  let (topicName, channelName) ← getTopicChannelArgs params
  let db := l.db.addRegistration (channelKey topicName channelName)
  return { l with db := db.addRegistration (topicKey topicName) }

def doDeleteChannel : Except HTTPErr XMQLookupd := do
  let params ← newReqParams req
  let (topicName, channelName) ← getTopicChannelArgs params
  let registrations := l.db.findRegistrations r "channel" topicName channelName
  if registrations.length = 0 then throw ⟨404, "CHANNEL_NOT_FOUND"⟩
  return { l with db := registrations.foldl .removeRegistration l.db }

/-- Whether the first record of the topic with the peer info of `p` is tombstoned. -/
def tombstoneOf (p : ProducerPtr) (topic : String) : Bool :=
  match (l.db.findProducers r "topic" topic "").find? fun tp => tp = p with
  | some tp => (l.db.producer tp).isTombstoned opts.tombstoneLifetime now
  | none => false

/-- The entry of a node. -/
def nodeInfo (p : ProducerPtr) : NodeInfo :=
  let info := (l.db.producer p).peerInfo
  let topics := (filterRegistrations (l.db.lookupRegistrations r info.id) "topic" "*" "").map
    Registration.key
  ⟨info, topics.map (l.tombstoneOf opts r now p), topics⟩

/-- The raft state that the last ping brought is written into the record. -/
def refreshRaftState (p : ProducerPtr) : XMQLookupd :=
  match l.peers.lookup (l.db.producer p).peerInfo.id with
  | none => l
  | some peerinfo =>
    { l with db := l.db.update p fun o =>
        { o with peerInfo := { o.peerInfo with raftState := peerinfo.raftState } } }

/-- The loop of `getNodes`. -/
def nodesLoop : List ProducerPtr → XMQLookupd → List NodeInfo × XMQLookupd
  | [], l => ([], l)
  | p :: ps, l =>
    let refreshed := l.refreshRaftState p
    let rest := nodesLoop ps refreshed
    let node := { l.nodeInfo opts r now p with peerInfo := (refreshed.db.producer p).peerInfo }
    (node :: rest.1, rest.2)

def getNodes : List NodeInfo × XMQLookupd :=
  nodesLoop opts r now
    (l.db.filterByActive now opts.inactiveProducerTimeout 0 (l.db.findProducers r "client" "" "")) l

end XMQLookupd

/-! ### Histories -/

inductive Request where
  | identify (remote : String) (req : PeerRequest)
  | register (req : RegisterRequest)
  | unregister (req : RegisterRequest)
  | ping (req : PeerRequest)
  | createTopic (req : Option ReqParams)
  | deleteTopic (req : Option ReqParams)
  | tombstoneTopicProducer (req : Option ReqParams)
  | createChannel (req : Option ReqParams)
  | deleteChannel (req : Option ReqParams)
  | getNodes

/-- A request, the time at which it is served, and the order in which its handler ranges. -/
structure Event where
  now : ℤ
  range : RangeOrder
  request : Request

namespace XMQLookupd

/-- The daemon after a request that may be refused. -/
def orKeep (l : XMQLookupd) : Except HTTPErr XMQLookupd → XMQLookupd
  | .ok l' => l'
  | .error _ => l

def serve (opts : Options) (l : XMQLookupd) (e : Event) : XMQLookupd :=
  match e.request with
  | .identify remote req => (l.identify opts remote e.now req).2
  | .register req => (l.register req).2
  | .unregister req => (l.unregister e.range req).2
  | .ping req => (l.ping req).2
  | .createTopic req => l.orKeep (l.doCreateTopic req)
  | .deleteTopic req => l.orKeep (l.doDeleteTopic e.range req)
  | .tombstoneTopicProducer req => l.orKeep (l.doTombstoneTopicProducer e.range e.now req)
  | .createChannel req => l.orKeep (l.doCreateChannel req)
  | .deleteChannel req => l.orKeep (l.doDeleteChannel e.range req)
  | .getNodes => (l.getNodes opts e.range e.now).2

/-- The daemon after a history, from its start. -/
def serveAll (opts : Options) (es : List Event) : XMQLookupd := es.foldl (serve opts) .new

theorem serveAll_snoc (opts : Options) (es : List Event) (e : Event) :
    serveAll opts (es ++ [e]) = (serveAll opts es).serve opts e := by
  simp [serveAll]

/-! ### What a handler does -/

variable {l : XMQLookupd}

theorem register_cases (req : RegisterRequest) :
    (∃ err, l.register req = (⟨err, ""⟩, l)) ∨
      ∃ peerinfo, l.checkRegister req = .ok peerinfo ∧
        (l.register req).2 =
          (if req.channelName ≠ "" then
            l.addProducer (channelKey req.topicName req.channelName) peerinfo
          else l).addProducer (topicKey req.topicName) peerinfo := by
  unfold register
  cases hcheck : l.checkRegister req with
  | error err => exact .inl ⟨err, rfl⟩
  | ok peerinfo => exact .inr ⟨peerinfo, rfl, rfl⟩

/-- A registration that passes the checks is by a node that has identified, of a valid topic. -/
theorem checkRegister_ok {req : RegisterRequest} {peerinfo : PeerInfo}
    (h : l.checkRegister req = .ok peerinfo) :
    l.peers.lookup req.id = some peerinfo ∧ isValidTopicName req.topicName = true := by
  unfold checkRegister at h
  split at h
  · cases h
  · split at h
    · cases h
    · rename_i info hinfo
      split at h
      · cases h
      · rename_i hvalid
        split at h
        · cases h
        · cases h
          exact ⟨hinfo, by simpa using hvalid⟩

theorem orKeep_cases {x : Except HTTPErr XMQLookupd} {P : XMQLookupd → Prop} (hkeep : P l)
    (hok : ∀ l', x = .ok l' → P l') : P (l.orKeep x) := by
  cases x with
  | error err => exact hkeep
  | ok l' => exact hok l' rfl

theorem ok_of_bind {ε α β : Type} {x : Except ε α} {f : α → Except ε β} {b : β}
    (h : (x >>= f) = .ok b) : ∃ a, x = .ok a ∧ f a = .ok b := by
  cases x with
  | error err => cases h
  | ok a => exact ⟨a, rfl, h⟩

variable {l' : XMQLookupd} {req : Option ReqParams} {r : RangeOrder} {now : ℤ}

theorem doCreateTopic_ok (h : l.doCreateTopic req = .ok l') :
    ∃ topicName, isValidTopicName topicName = true ∧
      l' = { l with db := l.db.addRegistration (topicKey topicName) } := by
  obtain ⟨params, -, h⟩ := ok_of_bind h
  obtain ⟨topicName, -, h⟩ := ok_of_bind h
  simp only at h
  split at h
  · cases h
  · rename_i hvalid
    injection h with h
    exact ⟨topicName, by simpa using hvalid, h.symm⟩

theorem doDeleteTopic_ok (h : l.doDeleteTopic r req = .ok l') :
    ∃ topicName db,
      db = (l.db.findRegistrations r "channel" topicName "*").foldl .removeRegistration l.db ∧
      l' = { l with
        db := (db.findRegistrations r "topic" topicName "").foldl .removeRegistration db } := by
  obtain ⟨params, -, h⟩ := ok_of_bind h
  obtain ⟨topicName, -, h⟩ := ok_of_bind h
  injection h with h
  exact ⟨topicName, _, rfl, h.symm⟩

theorem doTombstoneTopicProducer_ok (h : l.doTombstoneTopicProducer r now req = .ok l') :
    ∃ topicName node, l' =
      { l with db := tombstoneAll now node l.db (l.db.findProducers r "topic" topicName "") } := by
  obtain ⟨params, -, h⟩ := ok_of_bind h
  obtain ⟨topicName, -, h⟩ := ok_of_bind h
  obtain ⟨node, -, h⟩ := ok_of_bind h
  injection h with h
  exact ⟨topicName, node, h.symm⟩

theorem doCreateChannel_ok (h : l.doCreateChannel req = .ok l') :
    ∃ topicName channelName, l' =
      { l with
        db := (l.db.addRegistration (channelKey topicName channelName)).addRegistration
          (topicKey topicName) } := by
  obtain ⟨params, -, h⟩ := ok_of_bind h
  obtain ⟨⟨topicName, channelName⟩, -, h⟩ := ok_of_bind h
  injection h with h
  exact ⟨topicName, channelName, h.symm⟩

theorem doDeleteChannel_ok (h : l.doDeleteChannel r req = .ok l') :
    ∃ topicName channelName, l' =
      { l with
        db := (l.db.findRegistrations r "channel" topicName channelName).foldl .removeRegistration
          l.db } := by
  obtain ⟨params, -, h⟩ := ok_of_bind h
  obtain ⟨⟨topicName, channelName⟩, -, h⟩ := ok_of_bind h
  simp only at h
  split at h
  · cases h
  · injection h with h
    exact ⟨topicName, channelName, h.symm⟩

end XMQLookupd

end Xmq.Lookupd
