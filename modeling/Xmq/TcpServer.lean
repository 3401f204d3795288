import Xmq.Custody
import Xmq.Frames
import Xmq.Runs

/-!
# Connections of a node, and its exit

`TCPServer` accepts connections until the listener is closed, and waits for the goroutines that handle
them. Each of them asks whether the node leads, reads the four bytes that choose the protocol, puts the
client into a map and serves it; `Exit` closes the listener and then every client that it finds in the
map. A connection that was accepted and is not yet in the map is not found.

* A read from a connection that was closed here fails; one from a connection that its client left
  ends when what it sent has been read.
* `Range` of a map visits every key that is there all the time, and no key twice; it may visit others
  that are or were there. A connection that never was and is not on its way there is closed.
* What `IOLoop` does with a command is not of interest here, only that it reads it, and then goes on or
  ends. A deadline may end it too; there is none before it.
-/

namespace Xmq.TcpServer

open Custody

/-! ### The program -/

/-- Where `Handle` is. -/
inductive Phase where
  | checking
  | reading (buf : List UInt8)
  | chosen (protocolMagic : List UInt8)
  | starting
  | serving
  | ended
  | deleted
  | done
  deriving DecidableEq

/-- The client is not in the map yet. -/
def Phase.late : Phase → Bool
  | .checking => true
  | .reading _ => true
  | .chosen _ => true
  | .starting => true
  | .serving => false
  | .ended => false
  | .deleted => false
  | .done => false

/-- A connection: all that its client has sent, and of that what nobody has read, the frames written to
it before it is served, and by whom it was closed. `leader` is the answer to the first question. -/
structure Conn where
  phase : Phase
  received : List UInt8
  input : List UInt8
  sent : List (Int32 × List UInt8)
  closed : Bool
  hungUp : Bool
  leader : Bool
  deriving DecidableEq

/-- Where `TCPServer` is. -/
inductive Accepting where
  | accepting
  | waiting
  | returned (ok : Bool)
  deriving DecidableEq

/-- Where `Exit` is: `ranging` has the keys from the beginning and those that were visited. -/
inductive Exiting where
  | running
  | listenerClosed
  | ranging (keys visited : List ℕ)
  | waiting
  | exited
  deriving DecidableEq

/-- `clients` has every connection that was accepted, `conns` the keys of the map, and `late` the
connections that were not in the map yet when the loop over it began. -/
structure State where
  accept : Accepting
  clients : List Conn
  conns : List ℕ
  exit : Exiting
  late : List ℕ

def init : State := ⟨.accepting, [], [], .running, []⟩

def magicV2 : List UInt8 := [32, 32, 86, 50]

def notLeader : List UInt8 := "E_NOT_LEADER".toUTF8.toList

def badProtocol : List UInt8 := "E_BAD_PROTOCOL".toUTF8.toList

namespace Conn

def new : Conn := ⟨.checking, [], [], [], false, false, false⟩

/-- A node that does not lead says so and closes the connection, and goes on. -/
def check (c : Conn) (leader : Bool) : Conn :=
  if leader then { c with phase := .reading [], leader := true }
  else { c with
    phase := .reading []
    leader := false
    sent := c.sent ++ [(frameTypeError, notLeader)]
    closed := true }

def finish (c : Conn) : Conn := { c with phase := .done, closed := true }

/-- A step of `io.ReadFull` into four bytes; `none` while it waits. -/
def read (c : Conn) (buf : List UInt8) : Option Conn :=
  if c.closed then some c.finish
  else if c.input ≠ [] then
    let buf' := buf ++ c.input.take (4 - buf.length)
    some { c with
      input := c.input.drop (4 - buf.length)
      phase := if buf'.length < 4 then .reading buf' else .chosen buf' }
  else if c.hungUp then some c.finish
  else none

def choose (c : Conn) (protocolMagic : List UInt8) : Conn :=
  if protocolMagic = magicV2 then { c with phase := .starting }
  else { c with sent := c.sent ++ [(frameTypeError, badProtocol)] }.finish

/-- `IOLoop` reads `n` bytes, and ends or goes on. -/
def serve (c : Conn) (n : ℕ) (fatal : Bool) : Option Conn :=
  if 0 < n ∧ n ≤ c.input.length ∧ c.closed = false then
    some { c with input := c.input.drop n, phase := if fatal then .ended else .serving }
  else none

/-- `IOLoop` ends because there is nothing more to read. -/
def endLoop (c : Conn) : Option Conn :=
  if c.closed ∨ (c.hungUp ∧ c.input = []) then some { c with phase := .ended } else none

end Conn

inductive Act where
  | accept
  | acceptTemporary
  | acceptFailed
  | acceptClosed
  | wait
  | send (i : ℕ) (bytes : List UInt8)
  | hangUp (i : ℕ)
  | deadline (i : ℕ)
  | check (i : ℕ) (leader : Bool)
  | read (i : ℕ)
  | choose (i : ℕ)
  | store (i : ℕ)
  | serve (i n : ℕ) (fatal : Bool)
  | endLoop (i : ℕ)
  | delete (i : ℕ)
  | close (i : ℕ)
  | closeListener
  | rangeConns
  | visit (i : ℕ)
  | rangeEnd
  | exit

namespace State

def setConn (s : State) (i : ℕ) (c : Conn) : State := { s with clients := s.clients.set i c }

def isLate (s : State) (i : ℕ) : Bool := (s.clients[i]?).any fun c => c.phase.late

end State

/-- A step of the goroutine of a connection. -/
def handle (s : State) (i : ℕ) (c : Conn) : Act → Option State
  | .check _ leader => if c.phase = .checking then some (s.setConn i (c.check leader)) else none
  | .read _ =>
    match c.phase with
    | .reading buf => (c.read buf).map (s.setConn i)
    | _ => none
  | .choose _ =>
    match c.phase with
    | .chosen protocolMagic => some (s.setConn i (c.choose protocolMagic))
    | _ => none
  | .store _ =>
    if c.phase = .starting then
      some ({ s with conns := i :: s.conns }.setConn i { c with phase := .serving })
    else none
  | .serve _ n fatal => if c.phase = .serving then (c.serve n fatal).map (s.setConn i) else none
  | .endLoop _ => if c.phase = .serving then c.endLoop.map (s.setConn i) else none
  | .deadline _ =>
    if c.phase = .serving then some (s.setConn i { c with phase := .ended }) else none
  | .delete _ =>
    if c.phase = .ended then
      some ({ s with conns := s.conns.erase i }.setConn i { c with phase := .deleted })
    else none
  | .close _ => if c.phase = .deleted then some (s.setConn i c.finish) else none
  | .send _ bytes =>
    if c.hungUp then none
    else
      some (s.setConn i
        { c with received := c.received ++ bytes, input := c.input ++ bytes })
  | .hangUp _ => some (s.setConn i { c with hungUp := true })
  | _ => none

/-- The connection of an act. -/
def Act.conn : Act → Option ℕ
  | .send i _ => some i
  | .hangUp i => some i
  | .deadline i => some i
  | .check i _ => some i
  | .read i => some i
  | .choose i => some i
  | .store i => some i
  | .serve i _ _ => some i
  | .endLoop i => some i
  | .delete i => some i
  | .close i => some i
  | _ => none

/-- The steps of `TCPServer` and of `Exit`. -/
def control (s : State) : Act → Option State
  | .accept =>
    if s.accept = .accepting ∧ s.exit = .running then
      some { s with clients := s.clients ++ [.new] }
    else none
  | .acceptTemporary => if s.accept = .accepting ∧ s.exit = .running then some s else none
  | .acceptFailed =>
    if s.accept = .accepting ∧ s.exit = .running then some { s with accept := .returned false }
    else none
  | .acceptClosed =>
    if s.accept = .accepting ∧ s.exit ≠ .running then some { s with accept := .waiting } else none
  | .wait =>
    if s.accept = .waiting ∧ ∀ c ∈ s.clients, c.phase = .done then
      some { s with accept := .returned true }
    else none
  | .closeListener => if s.exit = .running then some { s with exit := .listenerClosed } else none
  | .rangeConns =>
    if s.exit = .listenerClosed then
      some { s with
        exit := .ranging s.conns []
        late := (List.range s.clients.length).filter s.isLate }
    else none
  | .visit i =>
    match s.exit, s.clients[i]? with
    | .ranging keys visited, some c =>
      if s.isLate i = false ∧ i ∉ visited then
        some ({ s with exit := .ranging keys (i :: visited) }.setConn i { c with closed := true })
      else none
    | _, _ => none
  | .rangeEnd =>
    match s.exit with
    | .ranging keys visited =>
      if ∀ i ∈ keys, i ∈ visited ∨ i ∉ s.conns then some { s with exit := .waiting } else none
    | _ => none
  | .exit =>
    match s.exit, s.accept with
    | .waiting, .returned _ => some { s with exit := .exited }
    | _, _ => none
  | _ => none

def step (s : State) (a : Act) : Option State :=
  match a.conn with
  | some i => (s.clients[i]?).bind fun c => handle s i c a
  | none => control s a

end Xmq.TcpServer
