import Xmq.Message

/-!
# Connections to the lookup daemons

`xmqd` tells every `xmqlookupd` who it is and which topics and channels it has. This module
translates `lookup_peer.go` and the callback of `lookup.go` that runs on each new connection.

* A daemon is whatever answers the calls: each call has an answer, or fails, and leaves the daemons
  in some state. A real daemon and a script of outcomes both fit.
* A method of a nil client is a nil dereference, which is `none`. A call on a closed connection
  fails and reaches nobody.
-/

namespace Xmq.Lookup

/-! ### Messages -/

/-- `pbapi.PeerInfo`. -/
structure PeerInfo where
  id : String
  remoteAddress : String
  hostname : String
  broadcastAddress : String
  tcpPort : Int32
  httpPort : Int32
  version : String
  lastUpdate : ℤ
  raftState : String
  deriving DecidableEq

/-- `PingRequest`, and `IdentifyRequest`; the peer may be missing. -/
structure PeerRequest where
  peer : Option PeerInfo
  deriving DecidableEq

structure IdentifyReply where
  err : String
  tcpPort : Int32
  httpPort : Int32
  version : String
  broadcastAddress : String
  hostname : String
  deriving DecidableEq

/-- `RegisterRequest`, and `UnregisterRequest`. -/
structure RegisterRequest where
  id : String
  topicName : String
  channelName : String
  deriving DecidableEq

/-- `PingReply`, `RegisterReply` and `UnregisterReply`. -/
structure Reply where
  err : String
  msg : String
  deriving DecidableEq

/-- What the lookup daemons make of the calls that reach them: the answer, or the error of the call,
and the daemons afterwards. -/
structure Daemons (σ : Type) where
  dial : σ → String → GoError × σ
  identify : σ → String → PeerRequest → Except String IdentifyReply × σ
  register : σ → String → RegisterRequest → Except String Reply × σ
  unregister : σ → String → RegisterRequest → Except String Reply × σ
  ping : σ → String → PeerRequest → Except String Reply × σ

/-! ### Peers -/

inductive PeerState where
  | disconnected
  | connected
  deriving DecidableEq

/-- `lp.conn`, when it is not nil. -/
inductive Conn where
  | opened
  | closed
  deriving DecidableEq

/-- `peerInfo`, what is known of the daemon. -/
structure DaemonInfo where
  tcpPort : ℤ
  httpPort : ℤ
  version : String
  broadcastAddress : String
  deriving DecidableEq

structure LookupPeer where
  addr : String
  conn : Option Conn
  /-- `lp.client` is not nil. -/
  client : Bool
  state : PeerState
  info : DaemonInfo
  deriving DecidableEq

def newLookupPeer (addr : String) : LookupPeer where
  addr := addr
  conn := none
  client := false
  state := .disconnected
  info := ⟨0, 0, "", ""⟩

variable {σ α : Type} (S : Daemons σ)

namespace LookupPeer

/-- A method of `lp.client`. -/
def call (lp : LookupPeer) (f : σ → String → Except String α × σ) (w : σ) :
    Option (Except String α × σ) :=
  if lp.client = false then none
  else if lp.conn = some .opened then some (f w lp.addr)
  else some (.error "grpc: the client connection is closing", w)

def connect (lp : LookupPeer) (w : σ) : GoError × LookupPeer × σ :=
  match S.dial w lp.addr with
  | (some err, w) => (some err, lp, w)
  | (none, w) => (none, { lp with conn := some .opened, client := true }, w)

def close (lp : LookupPeer) : LookupPeer :=
  { lp with state := .disconnected, conn := lp.conn.map fun _ => .closed }

end LookupPeer

/-! ### The callback -/

/-- What the node says of itself. -/
structure NodeOptions where
  id : String
  broadcastAddress : String
  broadcastTCPPort : ℤ
  broadcastHTTPPort : ℤ
  hostname : String
  version : String

def NodeOptions.identifyRequest (opts : NodeOptions) : PeerRequest where
  peer := some
    { id := opts.id
      remoteAddress := ""
      hostname := opts.hostname
      broadcastAddress := opts.broadcastAddress
      tcpPort := .ofInt opts.broadcastTCPPort
      httpPort := .ofInt opts.broadcastHTTPPort
      version := opts.version
      lastUpdate := 0
      raftState := "" }

/-- The loop over the commands; it stops at the first that fails. -/
def registerAll (lp : LookupPeer) : List RegisterRequest → σ → Option σ
  | [], w => some w
  | cmd :: commands, w =>
    match lp.call (fun w addr => S.register w addr cmd) w with
    | none => none
    | some (.error _, w) => some w
    | some (.ok rsp, w) => if rsp.err ≠ "" then some w else registerAll lp commands w

/-- `connectCallback`, on a node that has these commands to give. -/
def connectCallback (opts : NodeOptions) (commands : List RegisterRequest) (lp : LookupPeer)
    (w : σ) :
    Option (LookupPeer × σ) :=
  match lp.call (fun w addr => S.identify w addr opts.identifyRequest) w with
  | none => none
  | some (.error _, w) => some (lp, w)
  | some (.ok rsp, w) =>
    if rsp.err ≠ "" then some (lp.close, w)
    else
      let lp := { lp with
        info := ⟨rsp.tcpPort.toInt, rsp.httpPort.toInt, rsp.version, rsp.broadcastAddress⟩ }
      (registerAll S lp commands w).map fun w => (lp, w)

/-- `startConnect`: its error, the peer and the daemons. `Write` does nothing. -/
def startConnect (callback : LookupPeer → σ → Option (LookupPeer × σ)) (lp : LookupPeer) (w : σ) :
    Option (GoError × LookupPeer × σ) :=
  if lp.state = .connected then some (none, lp, w)
  else
    match lp.connect S w with
    | (some err, lp, w) => some (some err, lp, w)
    | (none, lp, w) =>
      (callback { lp with state := .connected } w).map fun r =>
        if r.1.state ≠ .connected then (some "lookupPeer connectCallback() failed", r.1, r.2)
        else (none, r.1, r.2)

/-! ### A connection that is set up -/

namespace LookupPeer

/-- The client is there and its connection is open. -/
def Ready (lp : LookupPeer) : Prop := lp.client = true ∧ lp.conn = some .opened

/-- The peer after `Connect`. -/
def dialled (lp : LookupPeer) : LookupPeer :=
  { lp with conn := some .opened, client := true, state := .connected }

/-- The peer after an `Identify` that was accepted. -/
def identified (lp : LookupPeer) (rsp : IdentifyReply) : LookupPeer :=
  { lp with info := ⟨rsp.tcpPort.toInt, rsp.httpPort.toInt, rsp.version, rsp.broadcastAddress⟩ }

@[simp] theorem dialled_addr (lp : LookupPeer) : lp.dialled.addr = lp.addr := rfl

theorem ready_dialled (lp : LookupPeer) : lp.dialled.Ready := ⟨rfl, rfl⟩

theorem Ready.identified {lp : LookupPeer} (h : lp.Ready) (rsp : IdentifyReply) :
    (lp.identified rsp).Ready := h

theorem call_ready {lp : LookupPeer} (h : lp.Ready) (f : σ → String → Except String α × σ) (w : σ) :
    lp.call f w = some (f w lp.addr) := by
  rw [call, if_neg (by simp [h.1]), if_pos h.2]

end LookupPeer

variable {S}

theorem registerAll_cons {lp : LookupPeer} (h : lp.Ready) (cmd : RegisterRequest)
    (commands : List RegisterRequest) (w : σ) :
    registerAll S lp (cmd :: commands) w =
      match S.register w lp.addr cmd with
      | (.error _, w) => some w
      | (.ok rsp, w) => if rsp.err ≠ "" then some w else registerAll S lp commands w := by
  rw [registerAll, LookupPeer.call_ready h]
  split <;> simp_all

theorem startConnect_disconnected {callback : LookupPeer → σ → Option (LookupPeer × σ)}
    {lp : LookupPeer} (hstate : lp.state ≠ .connected) {w w' : σ}
    (hdial : S.dial w lp.addr = (none, w')) :
    startConnect S callback lp w =
      (callback lp.dialled w').map fun r =>
        if r.1.state ≠ .connected then (some "lookupPeer connectCallback() failed", r.1, r.2)
        else (none, r.1, r.2) := by
  simp only [startConnect, if_neg hstate, LookupPeer.connect, hdial]
  rfl

theorem connectCallback_accepted {opts : NodeOptions} {commands : List RegisterRequest}
    {lp : LookupPeer} (h : lp.Ready) {w w' : σ} {rsp : IdentifyReply}
    (hid : S.identify w lp.addr opts.identifyRequest = (.ok rsp, w')) (herr : rsp.err = "") :
    connectCallback S opts commands lp w =
      (registerAll S (lp.identified rsp) commands w').map fun w => (lp.identified rsp, w) := by
  rw [connectCallback, LookupPeer.call_ready h]
  simp only [hid, herr, ne_eq, not_true_eq_false, if_false]
  rfl

/-- An answer with an error closes the connection. -/
theorem connectCallback_refused {opts : NodeOptions} {commands : List RegisterRequest}
    {lp : LookupPeer} (h : lp.Ready) {w w' : σ} {rsp : IdentifyReply}
    (hid : S.identify w lp.addr opts.identifyRequest = (.ok rsp, w')) (herr : rsp.err ≠ "") :
    connectCallback S opts commands lp w = some (lp.close, w') := by
  rw [connectCallback, LookupPeer.call_ready h]
  simp only [hid, if_pos herr]

end Xmq.Lookup
