import Xmq.GoJson
import Xmq.NodeTombstones

/-!
# The answer to `/nodes`

`doNodes` marshals `protocol.PeerInfo`, and the readers of the answer make a `clusterinfo.Producer`
of each of its elements. The one has the topics and tombstones of a node in `xmqd_peer`, the other
looks for them beside the address.

* The addresses, the ports and the version are read back as they were written.
* The topics are not: what is read has none, so it is right exactly for the nodes without topics.
* The flag of each topic is read at the index of the topic. An object whose `tombstones` are fewer
  than its `topics` is no error but a panic.
-/

namespace Xmq.Lookupd

open GoMap (RangeOrder)
open GoJson

/-! ### The writer -/

/-- `protocol.PeerInfo` with the tags of `pbapi.PeerInfo`, which it embeds. -/
def NodeInfo.marshal (node : NodeInfo) : Value :=
  .object
    (omitEmpty "id" .string node.peerInfo.id ++
    omitEmpty "remote_address" .string node.peerInfo.remoteAddress ++
    omitEmpty "hostname" .string node.peerInfo.hostname ++
    omitEmpty "broadcast_address" .string node.peerInfo.broadcastAddress ++
    omitEmpty "tcp_port" .int node.peerInfo.tcpPort.toInt ++
    omitEmpty "http_port" .int node.peerInfo.httpPort.toInt ++
    omitEmpty "version" .string node.peerInfo.version ++
    omitEmpty "last_update" .int node.peerInfo.lastUpdate ++
    omitEmpty "raft_state" .string node.peerInfo.raftState ++
    [("xmqd_peer", .object
      [("tombstones", (GoType.slice .bool).marshal node.tombstones),
        ("topics", (GoType.slice .string).marshal node.topics)])])

def XMQLookupd.doNodes (l : XMQLookupd) (opts : Options) (r : RangeOrder) (now : ℤ) :
    Value × XMQLookupd :=
  let nodes := l.getNodesCached opts r now
  (.object [("producers", .array (nodes.1.map NodeInfo.marshal))], nodes.2)

/-- The elements of an answer. -/
def elementsOf (answer : Value) : List Value :=
  match answer with
  | .object [("producers", .array elements)] => elements
  | _ => []

/-! ### The reader -/

structure ProducerTopic where
  topic : String
  tombstoned : Bool
  deriving DecidableEq

/-- `semver.Parse` gives a version beside the error. -/
structure Semver where
  Version : Type
  parse : String → Version × Option String

/-- `clusterinfo.Producer`. -/
structure ClusterProducer (V : Type) where
  remoteAddresses : List String
  remoteAddress : String
  hostname : String
  broadcastAddress : String
  tcpPort : ℤ
  httpPort : ℤ
  version : String
  versionObj : V
  topics : List ProducerTopic
  outOfDate : Bool

/-- What `UnmarshalJSON` reads an element into. -/
structure ProducerJSON where
  remoteAddress : String
  hostname : String
  broadcastAddress : String
  tcpPort : ℤ
  httpPort : ℤ
  version : String
  topics : List String
  tombstoned : List Bool

def ProducerJSON.zero : ProducerJSON := ⟨"", "", "", 0, 0, "", [], []⟩

namespace ProducerJSON

def remoteAddressField : StructField ProducerJSON :=
  ⟨"remote_address", .string, remoteAddress, fun x p => { p with remoteAddress := x }⟩

def hostnameField : StructField ProducerJSON :=
  ⟨"hostname", .string, hostname, fun x p => { p with hostname := x }⟩

def broadcastAddressField : StructField ProducerJSON :=
  ⟨"broadcast_address", .string, broadcastAddress, fun x p => { p with broadcastAddress := x }⟩

def tcpPortField : StructField ProducerJSON :=
  ⟨"tcp_port", .int, tcpPort, fun x p => { p with tcpPort := x }⟩

def httpPortField : StructField ProducerJSON :=
  ⟨"http_port", .int, httpPort, fun x p => { p with httpPort := x }⟩

def versionField : StructField ProducerJSON :=
  ⟨"version", .string, version, fun x p => { p with version := x }⟩

def topicsField : StructField ProducerJSON :=
  ⟨"topics", .slice .string, topics, fun x p => { p with topics := x }⟩

def tombstonedField : StructField ProducerJSON :=
  ⟨"tombstones", .slice .bool, tombstoned, fun x p => { p with tombstoned := x }⟩

def struct : Struct ProducerJSON where
  fields := [remoteAddressField, hostnameField, broadcastAddressField, tcpPortField, httpPortField,
    versionField, topicsField, tombstonedField]
  nodup := by decide +kernel

end ProducerJSON

/-- An error of `json`, or an index past the end. -/
inductive Failure where
  | err (e : UnmarshalTypeError)
  | panic

/-- The loop over the topics. -/
def topicsLoop (tombstoned : List Bool) : List String → ℕ → List ProducerTopic →
    Except Failure (List ProducerTopic)
  | [], _, topics => .ok topics
  | t :: ts, i, topics =>
    match tombstoned[i]? with
    | none => .error .panic
    | some flag => topicsLoop tombstoned ts (i + 1) (topics ++ [⟨t, flag⟩])

/-- The versions, with `0.0.0` for one that cannot be parsed. -/
def Semver.versionObj (semver : Semver) (version : String) : semver.Version :=
  match semver.parse version with
  | (v, none) => v
  | (_, some _) => (semver.parse "0.0.0").1

/-- `Producer.UnmarshalJSON`. The structure that it reads into has no name. -/
def unmarshalJSON (semver : Semver) (b : Value) :
    Except Failure (ClusterProducer semver.Version) :=
  match ProducerJSON.struct.unmarshal "struct" b ProducerJSON.zero with
  | .error e => .error (.err e)
  | .ok r =>
    match topicsLoop r.tombstoned r.topics 0 [] with
    | .error e => .error e
    | .ok topics => .ok
      { remoteAddresses := []
        remoteAddress := r.remoteAddress
        hostname := r.hostname
        broadcastAddress := r.broadcastAddress
        tcpPort := r.tcpPort
        httpPort := r.httpPort
        version := r.version
        versionObj := semver.versionObj r.version
        topics := topics
        outOfDate := false }

/-- The producer is the node. -/
structure Recovers {V : Type} (node : NodeInfo) (p : ClusterProducer V) : Prop where
  remoteAddress : p.remoteAddress = node.peerInfo.remoteAddress
  hostname : p.hostname = node.peerInfo.hostname
  broadcastAddress : p.broadcastAddress = node.peerInfo.broadcastAddress
  tcpPort : p.tcpPort = node.peerInfo.tcpPort.toInt
  httpPort : p.httpPort = node.peerInfo.httpPort.toInt
  version : p.version = node.peerInfo.version
  topics : p.topics.Perm (List.zipWith ProducerTopic.mk node.topics node.tombstones)

/-! ### Reading the topics -/

section Topics

variable {tombstoned : List Bool}

/-- The loop adds the topics with their flags, or panics where the flags end. -/
theorem topicsLoop_eq (ts : List String) : ∀ (i : ℕ) (topics : List ProducerTopic),
    i ≤ tombstoned.length → topicsLoop tombstoned ts i topics =
      if i + ts.length ≤ tombstoned.length then
        .ok (topics ++ List.zipWith ProducerTopic.mk ts (tombstoned.drop i))
      else .error .panic := by
  induction ts with
  | nil =>
      intro i topics hi
      simp [topicsLoop, hi]
  | cons t ts ih =>
      intro i topics hi
      rw [topicsLoop, List.length_cons]
      by_cases hlt : i < tombstoned.length
      · rw [List.getElem?_eq_getElem hlt, List.drop_eq_getElem_cons hlt]
        simp only [ih (i + 1) _ hlt, List.zipWith_cons_cons, List.append_assoc,
          List.singleton_append, Nat.add_right_comm i 1, Nat.add_assoc]
      · rw [List.getElem?_eq_none (by omega), if_neg (by omega)]

theorem topicsLoop_panics_iff (ts : List String) :
    topicsLoop tombstoned ts 0 [] = .error .panic ↔ tombstoned.length < ts.length := by
  rw [topicsLoop_eq ts 0 [] (Nat.zero_le _), Nat.zero_add]
  by_cases hlen : ts.length ≤ tombstoned.length
  · simp [hlen]
  · simp [hlen]
    omega

end Topics

/-! ### Reading an element of the answer -/

section Element

variable {node : NodeInfo}

theorem inInt64_of_int32 (n : Int32) : InInt64 n.toInt := by
  have hlow := n.le_toInt
  have hhigh := n.toInt_lt
  constructor <;> omega

theorem fieldOf_skipped {key : String}
    (h : key ∈ ["id", "last_update", "raft_state", "xmqd_peer"]) :
    ProducerJSON.struct.fieldOf key = none := by
  refine Struct.fieldOf_eq_none ?_
  revert key
  decide

/-- The fields are filled with what stands beside `xmqd_peer`. -/
theorem unmarshal_marshal (node : NodeInfo) :
    ProducerJSON.struct.unmarshal "struct" node.marshal ProducerJSON.zero =
      .ok ⟨node.peerInfo.remoteAddress, node.peerInfo.hostname, node.peerInfo.broadcastAddress,
        node.peerInfo.tcpPort.toInt, node.peerInfo.httpPort.toInt, node.peerInfo.version, [],
        []⟩ := by
  have htcp := inInt64_of_int32 node.peerInfo.tcpPort
  have hhttp := inInt64_of_int32 node.peerInfo.httpPort
  show ProducerJSON.struct.unmarshalMembers _ _ = _
  simp only [List.append_assoc]
  rw [Struct.unmarshalMembers_omitEmpty_skip (fieldOf_skipped (by simp))]
  refine (Struct.unmarshalMembers_omitEmpty (f := ProducerJSON.remoteAddressField)
    (by simp [ProducerJSON.struct]) rfl trivial).trans ?_
  refine (Struct.unmarshalMembers_omitEmpty (f := ProducerJSON.hostnameField)
    (by simp [ProducerJSON.struct]) rfl trivial).trans ?_
  refine (Struct.unmarshalMembers_omitEmpty (f := ProducerJSON.broadcastAddressField)
    (by simp [ProducerJSON.struct]) rfl trivial).trans ?_
  refine (Struct.unmarshalMembers_omitEmpty (f := ProducerJSON.tcpPortField)
    (by simp [ProducerJSON.struct]) rfl htcp).trans ?_
  refine (Struct.unmarshalMembers_omitEmpty (f := ProducerJSON.httpPortField)
    (by simp [ProducerJSON.struct]) rfl hhttp).trans ?_
  refine (Struct.unmarshalMembers_omitEmpty (f := ProducerJSON.versionField)
    (by simp [ProducerJSON.struct]) rfl trivial).trans ?_
  rw [Struct.unmarshalMembers_omitEmpty_skip (fieldOf_skipped (by simp)),
    Struct.unmarshalMembers_omitEmpty_skip (fieldOf_skipped (by simp)),
    Struct.unmarshalMembers_skip (fieldOf_skipped (by simp))]
  rfl

/-- An element is read as the node without its topics. -/
theorem unmarshalJSON_marshal (semver : Semver) (node : NodeInfo) :
    unmarshalJSON semver node.marshal = .ok
      ⟨[], node.peerInfo.remoteAddress, node.peerInfo.hostname, node.peerInfo.broadcastAddress,
        node.peerInfo.tcpPort.toInt, node.peerInfo.httpPort.toInt, node.peerInfo.version,
        semver.versionObj node.peerInfo.version, [], false⟩ := by
  rw [unmarshalJSON, unmarshal_marshal]
  rfl

theorem recovers_iff (semver : Semver) (hlen : node.tombstones.length = node.topics.length) :
    (∃ p, unmarshalJSON semver node.marshal = .ok p ∧ Recovers node p) ↔ node.topics = [] := by
  rw [unmarshalJSON_marshal]
  constructor
  · rintro ⟨p, hp, hrec⟩
    cases hp
    have hnil := hrec.topics.nil_eq
    have hzip := congrArg List.length hnil
    rw [List.length_zipWith, hlen, Nat.min_self] at hzip
    exact List.eq_nil_of_length_eq_zero hzip.symm
  · intro hnil
    refine ⟨_, rfl, rfl, rfl, rfl, rfl, rfl, rfl, ?_⟩
    rw [hnil]
    exact List.Perm.refl []

end Element

/-! ### Reading any object -/

section Objects

variable {ms : List (String × Value)} {p p' : ProducerJSON}

/-- The decoder returns. -/
def Returns {V : Type} (result : Except Failure (ClusterProducer V)) : Prop :=
  (∃ e, result = .error (.err e)) ∨ ∃ p, result = .ok p

/-- A field keeps what another one is set to. -/
theorem get_set {f g : StructField ProducerJSON} (hf : f ∈ ProducerJSON.struct.fields)
    (hg : g ∈ ProducerJSON.struct.fields) (hne : foldName f.name ≠ foldName g.name)
    (x : f.type.denote) (p : ProducerJSON) : g.get (f.set x p) = g.get p := by
  simp only [ProducerJSON.struct, List.mem_cons, List.not_mem_nil, or_false] at hf hg
  rcases hf with rfl | rfl | rfl | rfl | rfl | rfl | rfl | rfl <;>
    rcases hg with rfl | rfl | rfl | rfl | rfl | rfl | rfl | rfl <;>
      first | rfl | exact absurd rfl hne

/-- A list that is read is as long as the array that comes last for its field. -/
theorem length_of_unmarshal {f : StructField ProducerJSON} {name : String} {t : GoType}
    {get : ProducerJSON → List t.denote} {set : List t.denote → ProducerJSON → ProducerJSON}
    (hslice : f = ⟨name, .slice t, get, set⟩) (hf : f ∈ ProducerJSON.struct.fields)
    (hset : ∀ xs q, get (set xs q) = xs) (hzero : get .zero = [])
    (h : ProducerJSON.struct.unmarshalMembers ms .zero = .ok p) :
    (get p).length = lengthOf name ms := by
  subst hslice
  have hself : ∀ (v : Value) (q q' : ProducerJSON),
      StructField.read ⟨name, .slice t, get, set⟩ v q = .ok q' →
        (get q').length = v.elements.length := by
    intro v q q' hread
    obtain ⟨u, hu, rfl⟩ := Struct.read_ok hread
    rw [hset]
    exact GoType.length_of_read hu (get q)
  have hlast := Struct.unmarshalMembers_last (g := fun q => (get q).length) hself
    (fun f' hf' hne x q => congrArg List.length (get_set hf' hf hne x q)) hf ms _ p h
  rw [hzero] at hlast
  exact hlast

/-- The decoder panics when the members fit, and leave fewer flags than topics. -/
theorem unmarshalJSON_panics_iff (semver : Semver) (ms : List (String × Value)) :
    unmarshalJSON semver (.object ms) = .error .panic ↔
      ProducerJSON.struct.WellTyped ms ∧ lengthOf "tombstones" ms < lengthOf "topics" ms := by
  rw [← Struct.unmarshalMembers_ok_iff ms .zero, unmarshalJSON, Struct.unmarshal]
  cases hread : ProducerJSON.struct.unmarshalMembers ms .zero with
  | error e => simp
  | ok p =>
      have htopics := length_of_unmarshal (f := ProducerJSON.topicsField) rfl
        (by simp [ProducerJSON.struct]) (fun _ _ => rfl) rfl hread
      have htombstoned := length_of_unmarshal (f := ProducerJSON.tombstonedField) rfl
        (by simp [ProducerJSON.struct]) (fun _ _ => rfl) rfl hread
      rw [← htopics, ← htombstoned]
      simp only [Except.ok.injEq, exists_eq', true_and, ← topicsLoop_panics_iff]
      cases topicsLoop p.tombstoned p.topics 0 [] <;> simp

theorem returns_iff (semver : Semver) (ms : List (String × Value)) :
    Returns (unmarshalJSON semver (.object ms)) ↔
      (ProducerJSON.struct.WellTyped ms → lengthOf "topics" ms ≤ lengthOf "tombstones" ms) := by
  have hpanics := unmarshalJSON_panics_iff semver ms
  have hreturns : ∀ result : Except Failure (ClusterProducer semver.Version),
      Returns result ↔ result ≠ .error .panic := by
    rintro ((e | -) | p) <;> simp [Returns]
  rw [hreturns, Ne, hpanics, not_and, not_lt]

end Objects

/-! ### The answer -/

open XMQLookupd

section Answer

variable (l : XMQLookupd) (opts : Options) (r : RangeOrder) (now : ℤ)

theorem elementsOf_doNodes : elementsOf (l.doNodes opts r now).1 =
    (l.getNodesCached opts r now).1.map NodeInfo.marshal := rfl

variable {l opts r now} {es : List Event} {node : NodeInfo}

/-- A listed node has no topics when it is a producer of none. -/
theorem topics_eq_nil_iff (h : Tables es l) (hnode : node ∈ (l.getNodesCached opts r now).1) :
    node.topics = [] ↔ ∀ t, node.peerInfo.id ∉ l.db.producersOf (topicKey t) := by
  rw [XMQLookupd.getNodesCached_eq] at hnode
  obtain ⟨-, htopics, -⟩ := getNodes_node h node hnode
  simp only [htopics, List.eq_nil_iff_forall_not_mem, XMQLookupd.mem_topicsOf]

theorem length_tombstones (h : Tables es l) (hnode : node ∈ (l.getNodesCached opts r now).1) :
    node.tombstones.length = node.topics.length := by
  rw [XMQLookupd.getNodesCached_eq] at hnode
  obtain ⟨-, -, hflags⟩ := getNodes_node h node hnode
  rw [hflags, List.length_map]

end Answer

/-- **The answer to `/nodes`.** After any history every element of the answer is read as the node it
was made of exactly when the node is a producer of no topic. And an object is read without a panic
exactly when some member does not fit its field, or there are flags for all topics. -/
theorem nodesAnswer_read_iff (semver : Semver) :
    (∀ (opts : Options) (es : List Event) (r : RangeOrder) (now : ℤ) (i : ℕ) (node : NodeInfo)
      (element : Value),
      ((serveAll opts es).getNodesCached opts r now).1[i]? = some node →
        (elementsOf ((serveAll opts es).doNodes opts r now).1)[i]? = some element →
          ((∃ p, unmarshalJSON semver element = .ok p ∧ Recovers node p) ↔
            ∀ t, node.peerInfo.id ∉ (serveAll opts es).db.producersOf (topicKey t))) ∧
      ∀ ms, Returns (unmarshalJSON semver (.object ms)) ↔
        (ProducerJSON.struct.WellTyped ms →
          lengthOf "topics" ms ≤ lengthOf "tombstones" ms) := by
  refine ⟨?_, returns_iff semver⟩
  intro opts es r now i node element hnode helement
  have htables : Tables es (serveAll opts es) := tables_serveAll es
  have hmem := List.mem_of_getElem? hnode
  rw [elementsOf_doNodes, List.getElem?_map, hnode] at helement
  cases helement
  rw [recovers_iff semver (length_tombstones htables hmem), topics_eq_nil_iff htables hmem]

/-! ### A node with a topic -/

/-- Versions of numbers between dots. -/
def dottedSemver : Semver where
  Version := List ℕ
  parse version :=
    match (version.splitOn ".").mapM String.toNat? with
    | some numbers =>
      if numbers.length = 3 then (numbers, none)
      else ([], some "No Major.Minor.Patch elements found")
    | none => ([], some "Invalid character(s) found")

/-- A node identifies and registers a topic. -/
def nodeWithTopic : List Event :=
  [⟨0, .id, .identify "10.0.0.1:6000" ⟨some pingingNode⟩⟩, ⟨1, .id, .register ⟨"n1", "orders", ""⟩⟩]

/-- The topic of the node is lost, and an object with a topic and no flags is a panic. -/
theorem topic_not_read :
    (¬ ∀ (i : ℕ) (node : NodeInfo) (element : Value),
      ((serveAll keptOptions nodeWithTopic).getNodesCached keptOptions .id 10).1[i]? = some node →
        (elementsOf ((serveAll keptOptions nodeWithTopic).doNodes keptOptions .id 10).1)[i]? =
          some element → ∃ p, unmarshalJSON dottedSemver element = .ok p ∧ Recovers node p) ∧
      unmarshalJSON dottedSemver (.object [("topics", .array [.string "orders"])]) =
        .error .panic := by
  constructor
  · intro h
    have hlist : (((serveAll keptOptions nodeWithTopic).getNodesCached keptOptions .id 10).1.map
        fun node => (node.topics, node.tombstones)) = [(["orders"], [false])] := by decide
    obtain ⟨node, hlist', hfields⟩ := List.map_eq_singleton_iff.mp hlist
    rw [Prod.mk.injEq] at hfields
    have hrec := h 0 node node.marshal (by rw [hlist']; rfl)
      (by rw [elementsOf_doNodes, hlist']; rfl)
    rw [recovers_iff dottedSemver (by rw [hfields.1, hfields.2]; rfl), hfields.1] at hrec
    cases hrec
  · have hread : ∃ p, ProducerJSON.struct.unmarshalMembers
        [("topics", .array [.string "orders"])] .zero = .ok p := ⟨_, rfl⟩
    rw [Struct.unmarshalMembers_ok_iff] at hread
    exact (unmarshalJSON_panics_iff dottedSemver _).mpr ⟨hread, by decide⟩

end Xmq.Lookupd
