import Xmq.Runs
import Xmq.TopicStats

/-!
# The lookup loop

One goroutine of `xmqd` looks after the connections to the lookup daemons. It connects to those that
the options name, sends each a heartbeat at every tick, and passes on which topics and channels come
and go. This module translates `lookupLoop`.

* A turn begins with what wakes the loop and ends at the next `select`. The first turn starts the
  loop, which has no peers yet for its event to reach.
* Between two turns, and while a call is under way, the node and its options change as they like.
* A method of a nil client is a panic, and the turn has no result.
-/

namespace Xmq.Lookup

open GoMap (RangeOrder)
open Cluster (XMQD registerCommands)

/-! ### The loop -/

/-- A `*Channel` or a `*Topic` from the channel of notifications, with what `Exiting` says of it. -/
inductive Notified where
  | channel (topicName name : String) (exiting : Bool)
  | topic (name : String) (exiting : Bool)

def Notified.exiting : Notified → Bool
  | .channel _ _ exiting => exiting
  | .topic _ exiting => exiting

/-- The `registerReq` or the `unregisterReq`. -/
def Notified.request (id : String) : Notified → RegisterRequest
  | .channel topicName name _ => ⟨id, topicName, name⟩
  | .topic name _ => ⟨id, name, ""⟩

/-- What wakes the loop. -/
inductive Wake where
  | tick
  | notify (val : Notified)
  | optsNotification

structure LookupLoop where
  lookupPeers : List LookupPeer
  lookupAddrs : List String
  connect : Bool

namespace LookupLoop

def new : LookupLoop := ⟨[], [], true⟩

section

variable {σ : Type} (S : Daemons σ) (callback : LookupPeer → σ → Option (LookupPeer × σ))

/-- The loop over the addresses of the options. -/
def addPeers : List String → LookupLoop → σ → Option (LookupLoop × σ)
  | [], l, w => some (l, w)
  | host :: hosts, l, w =>
    if host ∈ l.lookupAddrs then addPeers hosts l w
    else
      match startConnect S callback (newLookupPeer host) w with
      | none => none
      | some (_, lp, w) =>
        addPeers hosts
          { l with lookupPeers := l.lookupPeers ++ [lp], lookupAddrs := l.lookupAddrs ++ [host] } w

/-- What comes before the `select`. -/
def top (addresses : List String) (l : LookupLoop) (w : σ) : Option (LookupLoop × σ) :=
  if l.connect = true then
    (addPeers S callback addresses l w).map fun r => ({ r.1 with connect := false }, r.2)
  else some (l, w)

/-- The loop of a tick; the outcome of a `Ping` makes no difference. -/
def heartbeats (req : PeerRequest) : List LookupPeer → σ → Option (List LookupPeer × σ)
  | [], w => some ([], w)
  | lp :: lps, w =>
    match startConnect S callback lp w with
    | none => none
    | some (some _, lp, w) => (heartbeats req lps w).map fun r => (lp :: r.1, r.2)
    | some (none, lp, w) =>
      match lp.call (fun w addr => S.ping w addr req) w with
      | none => none
      | some (_, w) => (heartbeats req lps w).map fun r => (lp :: r.1, r.2)

/-- The loop of a notification, with the method that it calls. -/
def notifyAll (f : σ → String → Except String Reply × σ) : List LookupPeer → σ → Option σ
  | [], w => some w
  | lp :: lps, w =>
    match lp.call f w with
    | none => none
    | some (_, w) => notifyAll f lps w

/-- The peers that the options no longer name are closed and dropped. -/
def keepPeers (addresses : List String) (l : LookupLoop) : LookupLoop :=
  let lookupPeers := l.lookupPeers.filter fun lp => lp.addr ∈ addresses
  ⟨lookupPeers, lookupPeers.map LookupPeer.addr, true⟩

/-- The `PingRequest` of a tick. -/
def pingRequest (opts : NodeOptions) (raftState : String) : PeerRequest where
  peer := some ⟨opts.id, "", "", "", 0, 0, "", 0, raftState⟩

def handle (opts : NodeOptions) (addresses : List String) (raftState : String) :
    Wake → LookupLoop → σ → Option (LookupLoop × σ)
  | .tick, l, w =>
    (heartbeats S callback (pingRequest opts raftState) l.lookupPeers w).map
      fun r => ({ l with lookupPeers := r.1 }, r.2)
  | .notify val, l, w =>
    let req := val.request opts.id
    let method := if val.exiting then S.unregister else S.register
    (notifyAll (fun w addr => method w addr req) l.lookupPeers w).map fun w => (l, w)
  | .optsNotification, l, w => some (l.keepPeers addresses, w)

end

end LookupLoop

/-! ### Turns -/

/-- What has come of the calls, the last first. A connection that is opened finds the node as it is,
with the ID of its options. -/
inductive Entry where
  | opened (addr : String) (node : XMQD) (id : String)
  | identified (addr : String) (accepted : Bool)
  | registered (addr : String) (req : RegisterRequest)

abbrev Log := List Entry

/-- The call returned an answer without an error. -/
def Accepted {α : Type} (err : α → String) : Except String α → Prop
  | .error _ => False
  | .ok rsp => err rsp = ""

instance {α : Type} (err : α → String) (x : Except String α) : Decidable (Accepted err x) :=
  match x with
  | .error _ => inferInstanceAs (Decidable False)
  | .ok rsp => inferInstanceAs (Decidable (err rsp = ""))

/-- A turn of the loop: what wakes it, the options, the node as the connection to each address finds
it, and how each call ends. -/
structure Turn where
  wake : Wake
  opts : NodeOptions
  addresses : List String
  raftState : String
  range : RangeOrder
  node : String → XMQD
  dial : String → GoError
  identify : String → Except String IdentifyReply
  register : String → RegisterRequest → Except String Reply
  unregister : String → RegisterRequest → Except String Reply
  ping : String → Except String Reply

namespace Turn

variable (t : Turn)

/-- The daemons of the turn; they remember what has come of the calls. -/
def daemons : Daemons Log where
  dial log addr :=
    match t.dial addr with
    | some err => (some err, log)
    | none => (none, .opened addr (t.node addr) t.opts.id :: log)
  identify log addr _ :=
    (t.identify addr, .identified addr (Accepted IdentifyReply.err (t.identify addr)) :: log)
  register log addr req :=
    (t.register addr req,
      if Accepted Reply.err (t.register addr req) then .registered addr req :: log else log)
  unregister log addr req := (t.unregister addr req, log)
  ping log addr _ := (t.ping addr, log)

/-- The commands of the callback. -/
def commands (addr : String) : List RegisterRequest :=
  registerCommands t.range (t.node addr) t.opts.id

def callback (lp : LookupPeer) (log : Log) : Option (LookupPeer × Log) :=
  connectCallback t.daemons t.opts (t.commands lp.addr) lp log

end Turn

/-- A turn, up to the next `select`. -/
def LookupLoop.turn (s : LookupLoop × Log) (t : Turn) : Option (LookupLoop × Log) :=
  (handle t.daemons t.callback t.opts t.addresses t.raftState t.wake s.1 s.2).bind fun s =>
    top t.daemons t.callback t.addresses s.1 s.2

end Xmq.Lookup
