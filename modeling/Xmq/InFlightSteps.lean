import Xmq.ChannelTracking
import Xmq.Runs

/-!
# The in-flight critical sections as steps of concurrent calls

`inFlightMutex` is taken once for the map and once more for the heap, so the calls that use it
interleave between the two. A `Sys` is the in-flight part, the message objects that wait for
delivery, and one entry for every call in progress: what that call does next and the message it has
in its hands. Each step is one critical section of one call; assignments to a message that its
caller alone holds belong to the critical section before them.

* Any number of calls may be in progress, of any kind and from any client.
* A message waits in `memoryMsgChan`, in the backend or deferred; `queue` does not tell these
  apart, and any waiting message may be delivered next. `reload` is the round trip through the
  backend, which makes a new object.
-/

namespace Xmq

open IndexedHeap

namespace Interleaving

/-- What a call does with a message once `removeFromInFlightPQ` has returned. -/
inductive After where
  | touch (clientMsgTimeout now : ℤ)
  | finish
  | requeue
  deriving DecidableEq

/-- The next critical section of a call in progress. -/
inductive PC where
  /-- `pushInFlightMessage`, in `StartInFlightTimeout` or `TouchMessage` -/
  | push (p : MsgPtr)
  /-- `addToInFlightPQ`, in the same two -/
  | add (p : MsgPtr)
  /-- `removeFromInFlightPQ`, in `TouchMessage`, `FinishMessage` or `RequeueMessage` -/
  | remove (p : MsgPtr) (after : After)
  /-- the put or the deferred timeout that ends `RequeueMessage` -/
  | put (p : MsgPtr)
  /-- `PeekAndShift`, in `processInFlightQueue` -/
  | scan (t : ℤ)
  /-- `popInFlightMessage` of the shifted message, in `processInFlightQueue` -/
  | scanPop (p : MsgPtr) (t : ℤ)
  /-- the put of that message -/
  | scanPut (p : MsgPtr) (t : ℤ)
  /-- the rest of `Empty`, after `initPQ` -/
  | drain
  | done
  deriving DecidableEq

/-- The message a call has in its hands. -/
def PC.holds : PC → Option MsgPtr
  | .push p => some p
  | .add p => some p
  | .remove p _ => some p
  | .put p => some p
  | .scanPut p _ => some p
  | .scan _ => none
  | .scanPop _ _ => none
  | .drain => none
  | .done => none

structure Sys where
  inFlight : InFlight
  queue : List MsgPtr
  threads : List PC
  nextMsg : MsgPtr
  opts : ChannelOptions

inductive Act where
  /-- a new message object arrives in the queue -/
  | publish (m : Message)
  /-- a waiting message goes through the backend -/
  | reload (p : MsgPtr)
  | startInFlightTimeout (p : MsgPtr) (clientID : String) (timeout now : ℤ)
  | touchMessage (clientID : String) (id : MessageID) (clientMsgTimeout now : ℤ)
  | finishMessage (clientID : String) (id : MessageID)
  | requeueMessage (clientID : String) (id : MessageID)
  | processInFlightQueue (t : ℤ)
  | empty
  /-- call `i` takes its next step -/
  | advance (i : ℕ)
  /-- call `i` puts its message, and the put fails -/
  | fail (i : ℕ)
  deriving DecidableEq

namespace Sys

/-- A new call. -/
def spawn (s : Sys) (pc : PC) : Sys := { s with threads := pc :: s.threads }

/-- The calls that begin by popping the message: they go on to remove it from the heap. -/
def pop (s : Sys) (clientID : String) (id : MessageID) (after : After) : Sys :=
  match s.inFlight.popInFlightMessage clientID id with
  | .error _ => s
  | .ok (p, f) => { s with inFlight := f, threads := .remove p after :: s.threads }

/-- The next critical section of a call: the in-flight part, the queue and the call after it.
`none` is an index out of range. -/
def next (opts : ChannelOptions) (f : InFlight) (queue : List MsgPtr) :
    PC → Option (InFlight × List MsgPtr × PC)
  | .push p =>
    match f.pushInFlightMessage p with
    | .error _ => some (f, queue, .done)
    | .ok f => some (f, queue, .add p)
  | .add p => some (f.addToInFlightPQ p, queue, .done)
  | .remove p after =>
    match f.removeFromInFlightPQ p with
    | none => none
    | some f =>
      match after with
      | .touch clientMsgTimeout now =>
        let m := { f.msgs.obj p with
          pri := Channel.touchedPri opts (f.msgs.obj p) clientMsgTimeout now }
        some (f.write p m, queue, .push p)
      | .finish => some (f, queue, .done)
      | .requeue => some (f, queue, .put p)
  | .put p => some (f, queue ++ [p], .done)
  | .scan t =>
    match f.shiftInFlight t with
    | none => some (f, queue, .done)
    | some (p, f) => some (f, queue, .scanPop p t)
  | .scanPop p t =>
    match f.popInFlightMessage (f.msgs.obj p).clientID (f.msgs.obj p).id with
    | .error _ => some (f, queue, .done)
    | .ok (_, f) => some (f, queue, .scanPut p t)
  | .scanPut p t => some (f, queue ++ [p], .scan t)
  | .drain => some (f, [], .done)
  | .done => some (f, queue, .done)

/-- The call after a put that failed. -/
def failed : PC → PC
  | .put _ => .done
  | .scanPut _ t => .scan t
  | pc => pc

def step (s : Sys) : Act → Option Sys
  | .publish m =>
    some { s with
      inFlight := s.inFlight.write s.nextMsg m
      queue := s.queue ++ [s.nextMsg]
      nextMsg := s.nextMsg + 1 }
  | .reload p =>
    if p ∈ s.queue then
      some { s with
        inFlight := s.inFlight.write s.nextMsg (s.inFlight.msgs.obj p).stored
        queue := s.queue.erase p ++ [s.nextMsg]
        nextMsg := s.nextMsg + 1 }
    else none
  | .startInFlightTimeout p clientID timeout now =>
    if p ∈ s.queue then
      let m := { s.inFlight.msgs.obj p with
        clientID := clientID, deliveryTS := now, pri := now + timeout }
      some { s with
        inFlight := s.inFlight.write p m
        queue := s.queue.erase p
        threads := .push p :: s.threads }
    else none
  | .touchMessage clientID id clientMsgTimeout now =>
    some (s.pop clientID id (.touch clientMsgTimeout now))
  | .finishMessage clientID id => some (s.pop clientID id .finish)
  | .requeueMessage clientID id => some (s.pop clientID id .requeue)
  | .processInFlightQueue t => some (s.spawn (.scan t))
  | .empty =>
    some { s with
      inFlight := s.inFlight.resetInFlight (pqSize s.opts) (one_le_pqSize s.opts)
      threads := .drain :: s.threads }
  | .advance i =>
    match s.threads[i]? with
    | none => none
    | some pc =>
      (next s.opts s.inFlight s.queue pc).map fun r =>
        { s with inFlight := r.1, queue := r.2.1, threads := s.threads.set i r.2.2 }
  | .fail i =>
    match s.threads[i]? with
    | none => none
    | some pc => some { s with threads := s.threads.set i (failed pc) }

/-- No message, no call. -/
def init (opts : ChannelOptions) : Sys where
  inFlight :=
    ⟨∅, Slice.new (pqSize opts) (one_le_pqSize opts),
      ⟨fun _ => newMessage (Vector.replicate 16 0) [] 0⟩⟩
  queue := []
  threads := []
  nextMsg := 0
  opts := opts

/-- The message is in the map, and its call has not added it to the heap yet. -/
def Adding (s : Sys) (p : MsgPtr) : Prop := PC.add p ∈ s.threads

instance (s : Sys) (p : MsgPtr) : Decidable (s.Adding p) :=
  inferInstanceAs (Decidable (_ ∈ _))

/-- The call does not stand between a push and its add, nor between a pop and the remove of a
message that is still in the heap. -/
def Settled (s : Sys) : PC → Prop
  | .add _ => False
  | .remove p _ => (s.inFlight.msgs.obj p).index = -1
  | _ => True

instance (s : Sys) : DecidablePred s.Settled
  | .add _ => inferInstanceAs (Decidable False)
  | .remove p _ => inferInstanceAs (Decidable ((s.inFlight.msgs.obj p).index = -1))
  | .push _ | .put _ | .scan _ | .scanPop _ _ | .scanPut _ _ | .drain | .done =>
    inferInstanceAs (Decidable True)

/-- A pop by a client does not find a message between its push and its add. -/
def PopGood (s : Sys) (clientID : String) (id : MessageID) : Prop :=
  ∀ p ∈ s.inFlight.inFlightMessages.lookup id,
    (s.inFlight.msgs.obj p).clientID = clientID → ¬ s.Adding p

/-- The pop of a scan does not find a message that was put back since the shift. -/
def ScanPopGood (s : Sys) (p : MsgPtr) : Prop :=
  ∀ q ∈ s.inFlight.inFlightMessages.lookup (s.inFlight.msgs.obj p).id,
    (s.inFlight.msgs.obj q).clientID = (s.inFlight.msgs.obj p).clientID →
    q = p ∧ p ∉ s.inFlight.inFlightPQ.slots ∧ ¬ s.Adding p

instance (s : Sys) (clientID : String) (id : MessageID) : Decidable (s.PopGood clientID id) :=
  inferInstanceAs (Decidable (∀ p ∈ s.inFlight.inFlightMessages.lookup id, _ → _))

instance (s : Sys) (p : MsgPtr) : Decidable (s.ScanPopGood p) :=
  inferInstanceAs (Decidable (∀ q ∈ s.inFlight.inFlightMessages.lookup _, _ → _))

def AdvanceGood (s : Sys) : PC → Prop
  | .scanPop p _ => s.ScanPopGood p
  | _ => True

instance (s : Sys) : DecidablePred s.AdvanceGood
  | .scanPop p _ => inferInstanceAs (Decidable (s.ScanPopGood p))
  | .push _ | .add _ | .remove _ _ | .put _ | .scan _ | .scanPut _ _ | .drain | .done =>
    inferInstanceAs (Decidable True)

/-- The condition on a step. A pop must not find what is being put back, and `Empty` must not reset
the map and the heap in the middle of a call that has updated only one of them. -/
def Good (s : Sys) : Act → Prop
  | .touchMessage clientID id _ _ => s.PopGood clientID id
  | .finishMessage clientID id => s.PopGood clientID id
  | .requeueMessage clientID id => s.PopGood clientID id
  | .empty => ∀ pc ∈ s.threads, s.Settled pc
  | .advance i => ∀ pc ∈ s.threads[i]?, s.AdvanceGood pc
  | _ => True

instance (s : Sys) : DecidablePred s.Good
  | .touchMessage clientID id _ _ | .finishMessage clientID id | .requeueMessage clientID id =>
    inferInstanceAs (Decidable (s.PopGood clientID id))
  | .empty => inferInstanceAs (Decidable (∀ pc ∈ s.threads, s.Settled pc))
  | .advance i => inferInstanceAs (Decidable (∀ pc ∈ s.threads[i]?, s.AdvanceGood pc))
  | .publish _ | .reload _ | .startInFlightTimeout _ _ _ _ | .processInFlightQueue _ | .fail _ =>
    inferInstanceAs (Decidable True)

end Sys

end Interleaving

end Xmq
