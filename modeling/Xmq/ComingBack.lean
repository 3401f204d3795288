import Xmq.KeepAlive

/-!
# Coming back

A node that has restarted, or has made a new `lookupPeer`, connects anew: it identifies with its
present addresses and registers its topics. The daemon keeps every peer that it has ever accepted,
and refuses another `Identify` under the same ID.

* The daemon that answers the calls is the one of the handlers, after any history of requests.
* A node that has identified once is refused, and its lookups keep the addresses of the first time.
-/

namespace Xmq.Lookupd

open GoMap (RangeOrder)
open Lookup (PeerInfo PeerRequest IdentifyReply RegisterRequest LookupPeer NodeOptions Daemons)
open XMQLookupd

/-! ### The daemon behind a connection -/

/-- The address that the calls come from, the time of each, the order in which it ranges over maps,
and what the library makes of a reply that is nil. -/
structure Surroundings where
  remote : String
  clock : ℕ → ℤ
  range : ℕ → RangeOrder
  nilReply : Except String IdentifyReply

/-- A daemon, and how many calls of the connection it has served. -/
structure Serving where
  daemon : XMQLookupd
  calls : ℕ

/-- After another call. -/
def Serving.next (w : Serving) (l : XMQLookupd) : Serving := ⟨l, w.calls + 1⟩

/-- A lookup daemon as what answers the calls. `DialContext` does not wait for the connection and
has nothing to report. -/
def lookupd (opts : Options) (m : Surroundings) : Daemons Serving where
  dial w _ := (none, w)
  identify w _ req :=
    match w.daemon.identify opts m.remote (m.clock w.calls) req with
    | (none, l) => (m.nilReply, w.next l)
    | (some reply, l) => (.ok reply, w.next l)
  register w _ req :=
    let r := w.daemon.register req
    (.ok r.1, w.next r.2)
  unregister w _ req :=
    let r := w.daemon.unregister (m.range w.calls) req
    (.ok r.1, w.next r.2)
  ping w _ req :=
    let r := w.daemon.ping req
    (.ok r.1, w.next r.2)

/-- A connection of a node that has these commands to give, to a daemon with a history. -/
def connectTo (opts : Options) (m : Surroundings) (es : List Event) (node : NodeOptions)
    (commands : List RegisterRequest) (lp : LookupPeer) : Option (GoError × LookupPeer × Serving) :=
  Lookup.startConnect (lookupd opts m) (Lookup.connectCallback (lookupd opts m) node commands) lp
    ⟨serveAll opts es, 0⟩

/-! ### The law -/

/-- The addresses are those that the node has now. -/
def Current (node : NodeOptions) (info : PeerInfo) : Prop :=
  info.broadcastAddress = node.broadcastAddress ∧ info.tcpPort = .ofInt node.broadcastTCPPort ∧
    info.httpPort = .ofInt node.broadcastHTTPPort

/-- **Coming back**, for a node that connects after a history: its `Identify` is accepted, the
connection ends up connected, and lookups find the node under its topics, with the addresses that it
has now. -/
structure ComesBack (opts : Options) (m : Surroundings) (es : List Event) (node : NodeOptions)
    (commands : List RegisterRequest) (lp : LookupPeer) : Prop where
  accepted : ∃ rsp,
    ((lookupd opts m).identify ⟨serveAll opts es, 0⟩ lp.addr node.identifyRequest).1 =
    .ok rsp ∧ rsp.err = ""
  connected : ∃ lp' w, connectTo opts m es node commands lp = some (none, lp', w) ∧
    lp'.state = .connected
  found : ∀ err lp' w, connectTo opts m es node commands lp = some (err, lp', w) →
    ∀ cmd ∈ commands, ∀ r now, now - m.clock 0 ≤ opts.inactiveProducerTimeout →
      ∃ answer, w.daemon.lookupTopic opts r now cmd.topicName = .ok answer ∧
        (∃ info ∈ answer.producers, info.id = node.id) ∧
        ∀ info ∈ answer.producers, info.id = node.id → Current node info

/-! ### What `Identify` answers -/

/-- What the daemon takes over from the node's `Identify`. -/
def infoOf (node : NodeOptions) (remote : String) (now : ℤ) : PeerInfo :=
  ⟨node.id, remote, node.hostname, node.broadcastAddress, .ofInt node.broadcastTCPPort,
    .ofInt node.broadcastHTTPPort, node.version, now, ""⟩

variable {opts : Options} {es : List Event} {l : XMQLookupd} {peer : PeerInfo} {now : ℤ}

theorem XMQLookupd.Tables.peers_isSome (h : Tables es l) (id : String) :
    (l.peers.lookup id).isSome ↔ (firstIdentified id es).isSome := by
  constructor
  · intro hsome
    obtain ⟨info, hinfo⟩ := Option.isSome_iff_exists.mp hsome
    rw [(h.peers id info hinfo).2]
    rfl
  · intro hsome
    obtain ⟨first, hfirst⟩ := Option.isSome_iff_exists.mp hsome
    exact (h.known id first hfirst).1

/-- The `Identify` of a node, as the daemon sees it. -/
theorem lookupd_identify {m : Surroundings} {node : NodeOptions} {w : Serving}
    {reply : IdentifyReply}
    {l' : XMQLookupd} {addr : String}
    (h : w.daemon.identify opts m.remote (m.clock w.calls) ⟨some (infoOf node "" 0)⟩ =
      (some reply, l')) :
    (lookupd opts m).identify w addr node.identifyRequest = (.ok reply, w.next l') := by
  show (match w.daemon.identify opts m.remote (m.clock w.calls) ⟨some (infoOf node "" 0)⟩ with
    | (none, l) => (m.nilReply, w.next l)
    | (some reply, l) => (.ok reply, w.next l)) = _
  rw [h]

/-- **`Identify`** takes a node that has all fields and has not identified before, and no other. -/
theorem identify_cases (opts : Options) (h : Tables es l) (remote : String) (peer : PeerInfo)
    (now : ℤ) :
    (∃ err, err ≠ "" ∧ l.identify opts remote now ⟨some peer⟩ = (some (identifyError err), l) ∧
      (MissingFields (identifyInfo remote peer) ∨ (firstIdentified peer.id es).isSome)) ∨
    ((∃ rsp, (l.identify opts remote now ⟨some peer⟩).1 = some rsp ∧ rsp.err = "") ∧
      ¬ MissingFields (identifyInfo remote peer) ∧ firstIdentified peer.id es = none) := by
  simp only [identify]
  split
  · rename_i hmissing
    exact .inl ⟨_, by decide, rfl, .inl hmissing⟩
  · rename_i hfields
    split
    · rename_i hsome
      exact .inl ⟨_, by decide, rfl, .inr ((h.peers_isSome peer.id).mp hsome)⟩
    · rename_i hnone
      have hnew : ¬ (firstIdentified peer.id es).isSome := fun hsome =>
        hnone ((h.peers_isSome peer.id).mpr hsome)
      exact .inr ⟨⟨_, rfl, rfl⟩, hfields, by simpa using hnew⟩

/-! ### A node that has identified -/

variable {m : Surroundings} {node : NodeOptions}

/-- The `Identify` of a node that has identified reaches the daemon in vain. -/
theorem reidentify (opts : Options) (m : Surroundings) (h : (firstIdentified node.id es).isSome)
    (addr : String) (calls : ℕ) :
    ∃ err, err ≠ "" ∧
      (lookupd opts m).identify ⟨serveAll opts es, calls⟩ addr node.identifyRequest =
      (.ok (identifyError err), ⟨serveAll opts es, calls + 1⟩) := by
  have htables : Tables es (serveAll opts es) := tables_serveAll es
  rcases identify_cases opts htables m.remote (infoOf node "" 0) (m.clock calls)
    with ⟨err, herr, heq, -⟩ | ⟨-, -, hnone⟩
  · exact ⟨err, herr, lookupd_identify heq⟩
  · have hnone : firstIdentified node.id es = none := hnone
    rw [hnone] at h
    cases h

/-- Its connection is closed again. -/
theorem connectTo_refused (h : (firstIdentified node.id es).isSome)
    (commands : List RegisterRequest)
    {lp : LookupPeer} (hlp : lp.state = .disconnected) :
    connectTo opts m es node commands lp =
      some (some "lookupPeer connectCallback() failed", lp.dialled.close,
        ⟨serveAll opts es, 1⟩) := by
  have hstate : lp.state ≠ .connected := by simp [hlp]
  obtain ⟨err, herr, hid⟩ := reidentify opts m h lp.addr 0
  rw [connectTo, Lookup.startConnect_disconnected hstate rfl,
    Lookup.connectCallback_refused lp.ready_dialled hid herr]
  rfl

/-- Whatever the records of the node, they keep what it said first. -/
theorem lookup_first (h : Tables es l) {first : PeerInfo}
    (hfirst : firstIdentified node.id es = some first)
    {r : RangeOrder} {now : ℤ} {topic : String} {answer : LookupAnswer}
    (hanswer : l.lookupTopic opts r now topic = .ok answer) :
    ∀ info ∈ answer.producers, info.id = node.id → producerInfo info = first := by
  unfold lookupTopic at hanswer
  split at hanswer
  · cases hanswer
  · injection hanswer with hanswer
    subst hanswer
    intro info hinfo hid
    obtain ⟨p, hp, rfl⟩ := List.mem_map.mp hinfo
    obtain ⟨k, id, -, hk⟩ := RegistrationDB.lookup_of_mem_findProducers r (List.mem_filter.mp hp).1
    obtain ⟨hid', hsome, -⟩ := h.records.first k id p hk
    rw [← hid', hid, hfirst] at hsome
    injection hsome with hsome
    exact hsome.symm

/-- **A node does not come back**: after any history in which it has identified, it is refused. -/
theorem not_comesBack (opts : Options) (m : Surroundings) (es : List Event) (node : NodeOptions)
    (commands : List RegisterRequest) (lp : LookupPeer) (hid : (firstIdentified node.id es).isSome)
    (hlp : lp.state = .disconnected) : ¬ ComesBack opts m es node commands lp := by
  intro h
  obtain ⟨lp', w, hconnect, -⟩ := h.connected
  rw [connectTo_refused hid commands hlp] at hconnect
  cases hconnect

/-! ### A node that has not identified yet -/

/-- The commands are the node's own, with names that are valid. -/
def Registrable (node : NodeOptions) (commands : List RegisterRequest) : Prop :=
  ∀ cmd ∈ commands, cmd.id = node.id ∧ isValidTopicName cmd.topicName = true ∧
    (cmd.channelName = "" ∨ isValidChannelName cmd.channelName = true)

/-- No record of the node is tombstoned. -/
def Standing (l : XMQLookupd) (id : String) : Prop :=
  ∀ k p, (l.db.producersOf k).lookup id = some p → (l.db.producer p).tombstoned = false

/-- The daemon has a record of the node under the topic. -/
def Listed (l : XMQLookupd) (id topic : String) : Prop :=
  ∃ p, (l.db.producersOf (topicKey topic)).lookup id = some p

theorem Standing.addProducer {id : String} (h : Standing l id) {acc : String → Option PeerInfo}
    (hrecords : Records acc l) (k : Registration) (info : PeerInfo) :
    Standing (l.addProducer k info) id := by
  intro k' p hp
  rcases RegistrationDB.addProducer_lookup.mp hp with ⟨-, -, rfl, -⟩ | hp
  · simp [XMQLookupd.addProducer, Producer.new]
  · have hold : p < l.next := (hrecords.first k' id p hp).2.2
    simp only [XMQLookupd.addProducer, RegistrationDB.addProducer_producer,
      RegistrationDB.update_ne _ (Nat.ne_of_lt hold)]
    exact h k' p hp

theorem Listed.addProducer {id topic : String} (h : Listed l id topic) (k : Registration)
    (info : PeerInfo) : Listed (l.addProducer k info) id topic := by
  obtain ⟨p, hp⟩ := h
  exact ⟨p, RegistrationDB.addProducer_lookup.mpr (.inr hp)⟩

/-- What the calls of a node leave behind: the tables of a history in which it has identified as
`first`, its records standing. -/
structure Joined (es : List Event) (id : String) (first : PeerInfo) (l : XMQLookupd) : Prop where
  tables : Tables es l
  identified : firstIdentified id es = some first
  named : id ≠ ""
  standing : Standing l id

theorem Joined.addProducer {id : String} {first : PeerInfo} (h : Joined es id first l)
    {k : Registration} {info : PeerInfo} (htables : Tables es (l.addProducer k info)) :
    Joined es id first (l.addProducer k info) :=
  ⟨htables, h.identified, h.named, h.standing.addProducer h.tables.records k info⟩

/-- A command of a node that has identified is taken. -/
theorem Joined.register {first : PeerInfo} (h : Joined es node.id first l) {cmd : RegisterRequest}
    (hcmd : Registrable node [cmd]) :
    ∃ l', l.register cmd = (⟨"", "OK"⟩, l') ∧ Joined es node.id first l' ∧
      Listed l' node.id cmd.topicName ∧
      ∀ topic, Listed l node.id topic → Listed l' node.id topic := by
  obtain ⟨_, topicName, channelName⟩ := cmd
  obtain ⟨rfl, hvalid, hchannel⟩ := hcmd _ List.mem_cons_self
  have hpeer : (l.peers.lookup node.id).isSome := by
    rw [h.tables.peers_isSome, h.identified]
    rfl
  obtain ⟨info, hinfo⟩ := Option.isSome_iff_exists.mp hpeer
  obtain ⟨hid, hfirst⟩ := h.tables.peers node.id info hinfo
  rw [← hid] at hfirst
  have hcheck : l.checkRegister ⟨node.id, topicName, channelName⟩ = .ok info := by
    simp only at hvalid hchannel
    rcases hchannel with hchannel | hchannel <;>
      simp [checkRegister, h.named, hinfo, hvalid, hchannel]
  -- The record of the channel comes first, if there is one.
  have hchan : ∃ l₁, Joined es node.id first l₁ ∧
      (∀ topic, Listed l node.id topic → Listed l₁ node.id topic) ∧
      l.register ⟨node.id, topicName, channelName⟩ =
        (⟨"", "OK"⟩, l₁.addProducer (topicKey topicName) info) := by
    by_cases hempty : channelName = ""
    · refine ⟨l, h, fun _ hold => hold, ?_⟩
      simp only [XMQLookupd.register, hcheck]
      rw [if_neg (fun hne => hne hempty)]
    · have htables : Tables es (l.addProducer (channelKey topicName channelName) info) :=
        h.tables.addProducer hfirst fun topic htopic =>
          absurd (congrArg Registration.category htopic) channel_ne_topic
      refine ⟨_, h.addProducer htables, fun _ hold => hold.addProducer _ info, ?_⟩
      simp only [XMQLookupd.register, hcheck]
      rw [if_pos hempty]
  obtain ⟨l₁, hjoined, hkeep, hreg⟩ := hchan
  have htables :=
    hjoined.tables.addProducer hfirst fun topic htopic => topicKey_ne_star hvalid htopic
  refine ⟨_, hreg, hjoined.addProducer htables, ?_,
    fun topic hold => (hkeep topic hold).addProducer _ info⟩
  have hknown := addProducer_known l₁ (topicKey topicName) info
  rw [hid] at hknown
  exact hknown

/-- **The loop over the commands** of a node that has identified: all of them are taken. -/
theorem registerAll_joined {lp : LookupPeer} (hlp : lp.Ready) {first : PeerInfo}
    {commands : List RegisterRequest} : ∀ w : Serving, Joined es node.id first w.daemon →
      Registrable node commands →
      ∃ w', Lookup.registerAll (lookupd opts m) lp commands w = some w' ∧
        Joined es node.id first w'.daemon ∧
        (∀ cmd ∈ commands, Listed w'.daemon node.id cmd.topicName) ∧
        ∀ topic, Listed w.daemon node.id topic → Listed w'.daemon node.id topic := by
  induction commands with
  | nil =>
      intro w h _
      exact ⟨w, rfl, h, by simp, fun _ hold => hold⟩
  | cons cmd commands ih =>
      intro w h hcmds
      have hcmd : Registrable node [cmd] := by
        intro q hq
        rw [List.mem_singleton.mp hq]
        exact hcmds cmd List.mem_cons_self
      obtain ⟨l', hreg, hjoined, hlisted, hkeep⟩ := h.register hcmd
      obtain ⟨w', hrun, hend, hall, hrest⟩ := ih (w.next l') hjoined
        fun q hq => hcmds q (List.mem_cons_of_mem _ hq)
      refine ⟨w', ?_, hend, ?_, fun topic hold => hrest topic (hkeep topic hold)⟩
      · rw [Lookup.registerAll_cons hlp]
        simp only [lookupd, hreg, ne_eq, not_true_eq_false, if_false]
        exact hrun
      · intro q hq
        rcases List.mem_cons.mp hq with rfl | hq
        · exact hrest _ hlisted
        · exact hall q hq

/-- The reply to an `Identify` that is accepted. -/
def acceptedReply (opts : Options) : IdentifyReply :=
  ⟨"", opts.grpcPort, opts.httpPort, opts.version, opts.broadcastAddress, opts.hostname⟩

theorem identify_new (opts : Options) {remote : String} (now : ℤ)
    (hnone : l.peers.lookup node.id = none)
    (hfields : ¬ MissingFields (infoOf node remote 0)) :
    l.identify opts remote now node.identifyRequest = (some (acceptedReply opts),
      ({ l with peers := l.peers.insert node.id (infoOf node remote now) } : XMQLookupd).addProducer
        clientKey (infoOf node remote now)) := by
  have hfields' : ¬ MissingFields (identifyInfo remote (infoOf node "" 0)) := hfields
  have hnone' : ¬ (l.peers.lookup (identifyInfo remote (infoOf node "" 0)).id).isSome := by
    show ¬ (l.peers.lookup node.id).isSome
    simp [hnone]
  show l.identify opts remote now ⟨some (infoOf node "" 0)⟩ = _
  simp only [identify]
  rw [if_neg hfields', if_neg hnone']
  rfl

/-- The event that identifies the node. -/
def identifyEvent (m : Surroundings) (node : NodeOptions) : Event :=
  ⟨m.clock 0, m.range 0, .identify m.remote node.identifyRequest⟩

theorem identifyEvent_identifies (hfields : ¬ MissingFields (infoOf node m.remote 0)) :
    (identifyEvent m node).identifies node.id = some (infoOf node m.remote (m.clock 0)) :=
  if_pos ⟨rfl, hfields⟩

/-- **The first `Identify`** of a node, with all fields, is taken. -/
theorem identify_joined (hnew : firstIdentified node.id es = none)
    (hfields : ¬ MissingFields (infoOf node m.remote 0)) (addr : String) :
    ∃ w, (lookupd opts m).identify ⟨serveAll opts es, 0⟩ addr node.identifyRequest =
        (.ok (acceptedReply opts), w) ∧
      Joined (es ++ [identifyEvent m node]) node.id (infoOf node m.remote (m.clock 0))
        w.daemon := by
  have htables : Tables es (serveAll opts es) := tables_serveAll es
  have hnone : (serveAll opts es).peers.lookup node.id = none := by
    have hnot := (htables.peers_isSome node.id).not
    rw [hnew] at hnot
    simpa using hnot
  have hstanding : Standing (serveAll opts es) node.id := by
    intro k p hp
    have hsome := (htables.records.first k node.id p hp).2.1
    rw [hnew] at hsome
    cases hsome
  have hreply := identify_new opts (m.clock 0) hnone hfields
  have hkept : Tables (es ++ [identifyEvent m node])
      ((serveAll opts es).identify opts m.remote (m.clock 0) node.identifyRequest).2 :=
    tables_identify htables (identifyEvent m node) _ _ rfl
  rw [hreply] at hkept
  refine ⟨⟨_, 1⟩, ?_, hkept, ?_, fun hempty => hfields (.inl hempty), ?_⟩
  · simp only [lookupd, hreply]
    rfl
  · rw [firstIdentified_snoc, hnew, Option.none_or]
    exact identifyEvent_identifies hfields
  · have hrecords : Records (fun id => firstIdentified id es)
        { serveAll opts es with
          peers := (serveAll opts es).peers.insert node.id (infoOf node m.remote (m.clock 0)) } :=
      ⟨htables.records.first, htables.records.unique, htables.records.client,
        htables.records.topics⟩
    have hsame : Standing { serveAll opts es with
        peers := (serveAll opts es).peers.insert node.id (infoOf node m.remote (m.clock 0)) }
          node.id :=
      hstanding
    exact hsame.addProducer hrecords clientKey _

/-- What lookups find of a node that has joined. -/
theorem Joined.found {first : PeerInfo} (h : Joined es node.id first l) {topic : String}
    (hlisted : Listed l node.id topic) {now : ℤ}
    (hrecent : now - first.lastUpdate ≤ opts.inactiveProducerTimeout) (r : RangeOrder) :
    ∃ answer, l.lookupTopic opts r now topic = .ok answer ∧
      (∃ info ∈ answer.producers, info.id = node.id) ∧
      ∀ info ∈ answer.producers, info.id = node.id → producerInfo info = first := by
  obtain ⟨p, hp⟩ := hlisted
  have hproducer : ProducerOf opts l now topic node.id :=
    ⟨p, hp, by simp [Producer.isTombstoned, h.standing _ p hp]⟩
  obtain ⟨answer, hanswer, hfound⟩ :=
    lookupTopic_found h.tables h.identified hrecent hproducer r
  exact ⟨answer, hanswer, hfound, lookup_first h.tables h.identified hanswer⟩

/-- **Who comes back**: a node with all fields and valid commands that has not identified before. -/
theorem comesBack_iff (commands : List RegisterRequest) (lp : LookupPeer)
    (hcommands : Registrable node commands) (hlp : lp.state = .disconnected) :
    ComesBack opts m es node commands lp ↔
      firstIdentified node.id es = none ∧ ¬ MissingFields (infoOf node m.remote 0) := by
  constructor
  · intro h
    obtain ⟨rsp, hrsp, herr⟩ := h.accepted
    have htables : Tables es (serveAll opts es) := tables_serveAll es
    rcases identify_cases opts htables m.remote (infoOf node "" 0) (m.clock 0)
      with ⟨err, hne, heq, -⟩ | ⟨-, hfields, hnew⟩
    · have hreply : ((lookupd opts m).identify ⟨serveAll opts es, 0⟩ lp.addr
          node.identifyRequest).1 = .ok (identifyError err) :=
        congrArg Prod.fst (lookupd_identify heq)
      rw [hreply] at hrsp
      injection hrsp with hrsp
      rw [← hrsp] at herr
      exact absurd herr hne
    · exact ⟨hnew, hfields⟩
  · rintro ⟨hnew, hfields⟩
    obtain ⟨w, hid, hjoined⟩ := identify_joined hnew hfields lp.addr
    have hstate : lp.state ≠ .connected := by simp [hlp]
    have hready : (lp.dialled.identified (acceptedReply opts)).Ready := lp.ready_dialled
    obtain ⟨w', hrun, hend, hall, -⟩ := registerAll_joined hready w hjoined hcommands
    have hconnect : connectTo opts m es node commands lp =
        some (none, lp.dialled.identified (acceptedReply opts), w') := by
      rw [connectTo, Lookup.startConnect_disconnected hstate rfl,
        Lookup.connectCallback_accepted lp.ready_dialled hid rfl, hrun]
      rfl
    constructor
    · exact ⟨acceptedReply opts, by rw [hid], rfl⟩
    · exact ⟨_, w', hconnect, rfl⟩
    · intro err lp' w₁ hw₁ cmd hcmd r now hrecent
      rw [hconnect] at hw₁
      cases hw₁
      obtain ⟨answer, hanswer, hfound, hfirst⟩ := hend.found (hall cmd hcmd) hrecent r
      refine ⟨answer, hanswer, hfound, ?_⟩
      intro info hinfo hinfo'
      have hsame := hfirst info hinfo hinfo'
      exact ⟨congrArg PeerInfo.broadcastAddress hsame, congrArg PeerInfo.tcpPort hsame,
        congrArg PeerInfo.httpPort hsame⟩

/-! ### A node that has moved -/

/-- The node identified and registered a topic at its old address. -/
def registered : List Event :=
  [⟨0, .id, .identify "10.0.0.1:6000" ⟨some pingingNode⟩⟩, ⟨1, .id, .register ⟨"n1", "orders", ""⟩⟩]

def movedNode : NodeOptions := ⟨"n1", "10.0.0.2", 5150, 5151, "host", "1.0"⟩

def aroundMoved : Surroundings :=
  ⟨"10.0.0.2:6000", fun _ => 2, fun _ => .id, .ok (identifyError "")⟩

theorem not_comesBack_moved : (firstIdentified movedNode.id registered).isSome ∧
    (Lookup.newLookupPeer "lookupd:5155").state = .disconnected ∧
    ¬ ComesBack keptOptions aroundMoved registered movedNode [⟨"n1", "orders", ""⟩]
      (Lookup.newLookupPeer "lookupd:5155") :=
  ⟨by decide, rfl, not_comesBack _ _ _ _ _ _ (by decide) rfl⟩

/-- Its `Identify` with the new address is refused. -/
theorem moved_node_refused : ¬ ComesBack keptOptions aroundMoved registered movedNode
    [⟨"n1", "orders", ""⟩] (Lookup.newLookupPeer "lookupd:5155") := by
  intro h
  obtain ⟨rsp, hrsp, herr⟩ := h.accepted
  have hrefused : ((lookupd keptOptions aroundMoved).identify ⟨serveAll keptOptions registered, 0⟩
      (Lookup.newLookupPeer "lookupd:5155").addr movedNode.identifyRequest).1 =
        .ok (identifyError "E_INVALID:cannot IDENTIFY again") := by decide
  rw [hrefused] at hrsp
  injection hrsp with hrsp
  rw [← hrsp] at herr
  exact absurd herr (by decide)

end Xmq.Lookupd
