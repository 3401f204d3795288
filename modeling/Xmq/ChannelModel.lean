import Mathlib.Algebra.Order.Group.Int
import Xmq.PriorityQueues
import Xmq.Tracking

/-!
# The channel

A channel holds its messages in four places: the buffered Go channel `memoryMsgChan`, the backend
queue, the in-flight map with its heap, and the deferred map with its heap. This module translates
`channel.go`. The parts that one mutex guards are structures of their own, and each critical
section is a function on its part, so that the operations below are sequences of critical sections
as they are in the source.

* A pointer names a message object; what is written through it is seen by everyone who holds it.
* An operation that indexes a slice out of range returns `none`.
* Times and durations are integers, and every reading of the clock is an argument.
-/

namespace Xmq

open IndexedHeap

/-! ### The in-flight part -/

/-- The in-flight map and heap, which `inFlightMutex` guards, and the message objects. -/
structure InFlight where
  inFlightMessages : GoMap MessageID MsgPtr
  inFlightPQ : Slice
  msgs : Msgs

namespace InFlight

def heap (s : InFlight) : Heap Msgs MsgPtr := ⟨s.msgs, s.inFlightPQ.slots⟩

/-- Assign to the fields of a message. -/
def write (s : InFlight) (p : MsgPtr) (m : Message) : InFlight :=
  { s with msgs := s.msgs.set p m }

def pushInFlightMessage (s : InFlight) (p : MsgPtr) : Except String InFlight :=
  match s.inFlightMessages.lookup (s.msgs.obj p).id with
  | some _ => .error "ID already in flight"
  | none => .ok { s with inFlightMessages := s.inFlightMessages.insert (s.msgs.obj p).id p }

def popInFlightMessage (s : InFlight) (clientID : String) (id : MessageID) :
    Except String (MsgPtr × InFlight) :=
  match s.inFlightMessages.lookup id with
  | none => .error "ID not in flight"
  | some p =>
    if (s.msgs.obj p).clientID ≠ clientID then .error "client does not own message"
    else .ok (p, { s with inFlightMessages := s.inFlightMessages.erase id })

theorem push_length (h : Heap Msgs MsgPtr) (p : MsgPtr) :
    (InFlightPqueue.push h p).slots.length = h.slots.length + 1 := by
  rw [InFlightPqueue.push, (up_swaps (m := h.slots.length + 1) _ _ (by omega)).length_eq, append,
    List.length_append, List.length_singleton]

def addToInFlightPQ (s : InFlight) (p : MsgPtr) : InFlight :=
  { s with
    msgs := (InFlightPqueue.push s.heap p).mem
    inFlightPQ := s.inFlightPQ.grow (InFlightPqueue.push s.heap p).slots (push_length s.heap p) }

theorem remove_length {h k : Heap Msgs MsgPtr} {i : ℤ} {p : MsgPtr}
    (hr : InFlightPqueue.remove h i = some (p, k)) : k.slots.length + 1 = h.slots.length := by
  unfold InFlightPqueue.remove at hr
  split at hr
  · obtain ⟨n, hn⟩ : ∃ n, h.slots.length = n + 1 := ⟨h.slots.length - 1, by omega⟩
    simp only [hn, Nat.add_sub_cancel] at hr
    split at hr
    · have hsw := (down_swaps (m := n) InFlightPqueue.pick (swap h i.toNat n) i.toNat n
        (Nat.le_refl n)).trans (up_swaps _ i.toNat (by omega))
      have hlen := hsw.length_eq
      rw [swap_length, hn] at hlen
      rw [dropLast_length hr hlen, hn]
    · rw [dropLast_length hr hn, hn]
  · cases hr

/-- `none` is an index out of range. -/
def removeFromInFlightPQ (s : InFlight) (p : MsgPtr) : Option InFlight :=
  if (s.msgs.obj p).index = -1 then some s
  else
    match hr : InFlightPqueue.remove s.heap (s.msgs.obj p).index with
    | some (_, k) =>
      some
        { s with
          msgs := k.mem
          inFlightPQ := s.inFlightPQ.reslice k.slots
            (Nat.le_of_lt (Nat.lt_of_succ_le (Nat.le_of_eq (remove_length hr)))) }
    | none => none

theorem pop_length {h k : Heap Msgs MsgPtr} {p : MsgPtr}
    (hp : InFlightPqueue.pop h = some (p, k)) : k.slots.length + 1 = h.slots.length := by
  have hlen := (down_swaps (m := h.slots.length - 1) InFlightPqueue.pick
    (swap h 0 (h.slots.length - 1)) 0 (h.slots.length - 1) (Nat.le_refl _)).length_eq
  rw [swap_length] at hlen
  unfold InFlightPqueue.pop dropLast at hp
  split at hp
  · rename_i hlast
    cases hp
    have hpos := List.length_pos_of_mem (List.mem_of_getLast? hlast)
    rw [List.length_dropLast]
    omega
  · cases hp

theorem peekAndShift_length {h k : Heap Msgs MsgPtr} {max : ℤ} {p : MsgPtr}
    (hs : InFlightPqueue.peekAndShift h max = some (p, k)) :
    k.slots.length + 1 = h.slots.length := by
  unfold InFlightPqueue.peekAndShift at hs
  split at hs
  · split at hs
    · cases hs
    · exact pop_length hs
  · cases hs

/-- The locked part of the loop of `processInFlightQueue`. -/
def shiftInFlight (s : InFlight) (t : ℤ) : Option (MsgPtr × InFlight) :=
  match hs : InFlightPqueue.peekAndShift s.heap t with
  | some (p, k) =>
    some (p,
      { s with
        msgs := k.mem
        inFlightPQ := s.inFlightPQ.shrink k.slots
          (Nat.le_of_lt (Nat.lt_of_succ_le (Nat.le_of_eq (peekAndShift_length hs)))) })
  | none => none

/-- The in-flight half of `initPQ`. -/
def resetInFlight (s : InFlight) (pqSize : ℕ) (h : 1 ≤ pqSize) : InFlight :=
  { s with inFlightMessages := ∅, inFlightPQ := Slice.new pqSize h }

/-- `popInFlightMessage` and then `removeFromInFlightPQ`. -/
def takeInFlight (s : InFlight) (clientID : String) (id : MessageID) :
    Option (Except String (MsgPtr × InFlight)) :=
  match s.popInFlightMessage clientID id with
  | .error err => some (.error err)
  | .ok (p, s) => (s.removeFromInFlightPQ p).map fun s => .ok (p, s)

/-- `pushInFlightMessage` and then `addToInFlightPQ`. -/
def placeInFlight (s : InFlight) (p : MsgPtr) : GoError × InFlight :=
  match s.pushInFlightMessage p with
  | .error err => (some err, s)
  | .ok s => (none, s.addToInFlightPQ p)

end InFlight

/-! ### The deferred part -/

/-- The deferred map and heap, which `deferredMutex` guards, and the items. -/
structure Deferred where
  deferredMessages : GoMap MessageID ItemPtr
  deferredPQ : Slice
  items : Items

namespace Deferred

def heap (d : Deferred) : Heap Items ItemPtr := ⟨d.items, d.deferredPQ.slots⟩

/-- The message an item stands for. -/
def idOf (d : Deferred) (msgs : Msgs) (i : ItemPtr) : MessageID :=
  (msgs.obj (d.items.obj i).value).id

def pushDeferredMessage (d : Deferred) (msgs : Msgs) (i : ItemPtr) : Except String Deferred :=
  match d.deferredMessages.lookup (d.idOf msgs i) with
  | some _ => .error "ID already deferred"
  | none => .ok { d with deferredMessages := d.deferredMessages.insert (d.idOf msgs i) i }

def popDeferredMessage (d : Deferred) (id : MessageID) : Except String (ItemPtr × Deferred) :=
  match d.deferredMessages.lookup id with
  | none => .error "ID not deferred"
  | some i => .ok (i, { d with deferredMessages := d.deferredMessages.erase id })

theorem push_length (h : Heap Items ItemPtr) (i : ItemPtr) :
    (PriorityQueue.push h i).slots.length = h.slots.length + 1 := by
  rw [PriorityQueue.push, (up_swaps (m := h.slots.length + 1) _ _ (by omega)).length_eq, append,
    List.length_append, List.length_singleton]

def addToDeferredPQ (d : Deferred) (i : ItemPtr) : Deferred :=
  { d with
    items := (PriorityQueue.push d.heap i).mem
    deferredPQ := d.deferredPQ.grow (PriorityQueue.push d.heap i).slots (push_length d.heap i) }

theorem peekAndShift_length {h k : Heap Items ItemPtr} {max : ℤ} {i : ItemPtr}
    (hs : PriorityQueue.peekAndShift h max = some (i, k)) :
    k.slots.length + 1 = h.slots.length := by
  unfold PriorityQueue.peekAndShift PriorityQueue.remove at hs
  split at hs
  · split at hs
    · cases hs
    · split at hs
      · obtain ⟨n, hn⟩ : ∃ n, h.slots.length = n + 1 := ⟨h.slots.length - 1, by omega⟩
        simp only [hn, Nat.add_sub_cancel] at hs
        split at hs
        · have hlen := (PriorityQueue.fill_swaps h (i := 0) (n := n) (by omega)).length_eq
          rw [swap_length, hn] at hlen
          rw [dropLast_length hs hlen, hn]
        · rw [dropLast_length hs hn, hn]
      · cases hs
  · cases hs

/-- The locked part of the loop of `processDeferredQueue`. -/
def shiftDeferred (d : Deferred) (t : ℤ) : Option (ItemPtr × Deferred) :=
  match hs : PriorityQueue.peekAndShift d.heap t with
  | some (i, k) =>
    some (i,
      { d with
        items := k.mem
        deferredPQ := d.deferredPQ.shrink k.slots
          (Nat.le_of_lt (Nat.lt_of_succ_le (Nat.le_of_eq (peekAndShift_length hs)))) })
  | none => none

/-- The deferred half of `initPQ`. -/
def resetDeferred (d : Deferred) (pqSize : ℕ) (h : 1 ≤ pqSize) : Deferred :=
  { d with deferredMessages := ∅, deferredPQ := Slice.new pqSize h }

/-- `pushDeferredMessage` and then `addToDeferredPQ`. -/
def placeDeferred (d : Deferred) (msgs : Msgs) (i : ItemPtr) : GoError × Deferred :=
  match d.pushDeferredMessage msgs i with
  | .error err => (some err, d)
  | .ok d => (none, d.addToDeferredPQ i)

end Deferred

/-! ### The channel -/

/-- The options the channel reads. -/
structure ChannelOptions where
  memQueueSize : ℕ
  maxMsgTimeout : ℤ

/-- What a channel changes of a subscribed client. -/
structure Client where
  inFlightCount : ℤ

structure Channel where
  requeueCount : UInt64
  messageCount : UInt64
  timeoutCount : UInt64
  backend : BackendQueue
  /-- The buffered messages, the oldest first. -/
  memoryMsgChan : List MsgPtr
  exitFlag : Int32
  clients : GoMap String Client
  deferred : Deferred
  inFlight : InFlight
  opts : ChannelOptions
  /-- The last error given to `SetHealth`. -/
  health : GoError
  nextMsg : MsgPtr
  nextItem : ItemPtr

/-- `int(math.Max(1, float64(MemQueueSize)/10))`. -/
def pqSize (opts : ChannelOptions) : ℕ := max 1 (opts.memQueueSize / 10)

theorem one_le_pqSize (opts : ChannelOptions) : 1 ≤ pqSize opts := Nat.le_max_left _ _

/-- A new channel over the given backend. -/
def newChannel (opts : ChannelOptions) (backend : BackendQueue) (clients : GoMap String Client) :
    Channel where
  requeueCount := 0
  messageCount := 0
  timeoutCount := 0
  backend := backend
  memoryMsgChan := []
  exitFlag := 0
  clients := clients
  deferred := ⟨∅, Slice.new (pqSize opts) (one_le_pqSize opts), ⟨fun _ => ⟨0, 0, 0⟩⟩⟩
  inFlight :=
    ⟨∅, Slice.new (pqSize opts) (one_le_pqSize opts),
      ⟨fun _ => newMessage (Vector.replicate 16 0) [] 0⟩⟩
  opts := opts
  health := none
  nextMsg := 0
  nextItem := 0

namespace Channel

def msgs (c : Channel) : Msgs := c.inFlight.msgs

def exiting (c : Channel) : Bool := c.exitFlag == 1

/-- Allocate a message. -/
def alloc (c : Channel) (m : Message) : Channel :=
  { c with inFlight := c.inFlight.write c.nextMsg m, nextMsg := c.nextMsg + 1 }

/-- The clients after one of them changed. -/
def updateClient (c : Channel) (clientID : String) (f : Client → Client) : Channel :=
  match c.clients.lookup clientID with
  | some client => { c with clients := c.clients.insert clientID (f client) }
  | none => c

/-- `memoryMsgChan` has `memQueueSize` slots; with none of them a send never goes through. -/
def put (c : Channel) (p : MsgPtr) : GoError × Channel :=
  if c.memoryMsgChan.length < c.opts.memQueueSize then
    (none, { c with memoryMsgChan := c.memoryMsgChan ++ [p] })
  else
    let r := writeMessageToBackend (c.msgs.obj p) c.backend
    (r.1, { c with backend := r.2, health := r.1 })

def putMessage (c : Channel) (p : MsgPtr) : GoError × Channel :=
  if c.exiting then (some "exiting", c)
  else
    let r := c.put p
    match r.1 with
    | some err => (some err, r.2)
    | none => (none, { r.2 with messageCount := r.2.messageCount + 1 })

def startDeferredTimeout (c : Channel) (p : MsgPtr) (timeout now : ℤ) : GoError × Channel :=
  let item : Item := { value := p, priority := now + timeout, index := 0 }
  let d := { c.deferred with items := c.deferred.items.set c.nextItem item }
  let r := d.placeDeferred c.msgs c.nextItem
  (r.1, { c with deferred := r.2, nextItem := c.nextItem + 1 })

def putMessageDeferred (c : Channel) (p : MsgPtr) (timeout now : ℤ) : Channel :=
  (startDeferredTimeout { c with messageCount := c.messageCount + 1 } p timeout now).2

def startInFlightTimeout (c : Channel) (p : MsgPtr) (clientID : String) (timeout now : ℤ) :
    GoError × Channel :=
  let m := { c.msgs.obj p with clientID := clientID, deliveryTS := now, pri := now + timeout }
  let r := (c.inFlight.write p m).placeInFlight p
  (r.1, { c with inFlight := r.2 })

/-- The deadline `TouchMessage` sets: never more than the maximum after the delivery. -/
def touchedPri (opts : ChannelOptions) (m : Message) (clientMsgTimeout now : ℤ) : ℤ :=
  if now + clientMsgTimeout - m.deliveryTS ≥ opts.maxMsgTimeout then
    m.deliveryTS + opts.maxMsgTimeout
  else now + clientMsgTimeout

def touchMessage (c : Channel) (clientID : String) (id : MessageID) (clientMsgTimeout now : ℤ) :
    Option (GoError × Channel) :=
  (c.inFlight.takeInFlight clientID id).map fun
    | .error err => (some err, c)
    | .ok (p, s) =>
      let m := { s.msgs.obj p with pri := touchedPri c.opts (s.msgs.obj p) clientMsgTimeout now }
      let r := (s.write p m).placeInFlight p
      (r.1, { c with inFlight := r.2 })

def finishMessage (c : Channel) (clientID : String) (id : MessageID) :
    Option (GoError × Channel) :=
  (c.inFlight.takeInFlight clientID id).map fun
    | .error err => (some err, c)
    | .ok (_, s) => (none, { c with inFlight := s })

def requeueMessage (c : Channel) (clientID : String) (id : MessageID) (timeout now : ℤ) :
    Option (GoError × Channel) :=
  (c.inFlight.takeInFlight clientID id).map fun
    | .error err => (some err, c)
    | .ok (p, s) =>
      let c := { c with inFlight := s, requeueCount := c.requeueCount + 1 }
      if timeout = 0 then
        if c.exiting then (some "exiting", c) else c.put p
      else c.startDeferredTimeout p timeout now

/-! ### Delivery -/

/-- The two delivery cases of `messagePump`, once the message object is at hand. -/
def deliver (c : Channel) (p : MsgPtr) (clientID : String) (timeout now : ℤ) : Channel :=
  let m := { c.msgs.obj p with attempts := (c.msgs.obj p).attempts + 1 }
  let r := ({ c with inFlight := c.inFlight.write p m } : Channel).startInFlightTimeout p clientID
    timeout now
  r.2.updateClient clientID fun client => { client with inFlightCount := client.inFlightCount + 1 }

def deliverMemory (c : Channel) (clientID : String) (timeout now : ℤ) : Channel :=
  match c.memoryMsgChan with
  | p :: rest => deliver { c with memoryMsgChan := rest } p clientID timeout now
  | [] => c

def deliverBackend (c : Channel) (clientID : String) (timeout now : ℤ) : Channel :=
  match c.backend.read with
  | none => c
  | some (b, backend) =>
    match decodeMessage b with
    | .error _ => { c with backend := backend }
    | .ok m =>
      (alloc { c with backend := backend } m).deliver c.nextMsg clientID timeout now

/-! ### The timeout scans -/

theorem put_inFlight (c : Channel) (p : MsgPtr) : (c.put p).2.inFlight = c.inFlight := by
  unfold put
  split <;> rfl

theorem put_deferred (c : Channel) (p : MsgPtr) : (c.put p).2.deferred = c.deferred := by
  unfold put
  split <;> rfl

theorem updateClient_inFlight (c : Channel) (clientID : String) (f : Client → Client) :
    (c.updateClient clientID f).inFlight = c.inFlight := by
  unfold updateClient
  split <;> rfl

/-- What the loop of `processInFlightQueue` does with a message it popped. -/
def timedOut (c : Channel) (p : MsgPtr) (s : InFlight) : Channel :=
  let c : Channel := { c with inFlight := s, timeoutCount := c.timeoutCount + 1 }
  (updateClient c (s.msgs.obj p).clientID fun client =>
    { client with inFlightCount := client.inFlightCount - 1 }).put p |>.2

theorem timedOut_inFlight (c : Channel) (p : MsgPtr) (s : InFlight) :
    (c.timedOut p s).inFlight = s := by
  rw [timedOut, put_inFlight, updateClient_inFlight]

theorem shiftInFlight_length {s s' : InFlight} {t : ℤ} {p : MsgPtr}
    (h : s.shiftInFlight t = some (p, s')) :
    s'.inFlightPQ.slots.length < s.inFlightPQ.slots.length := by
  unfold InFlight.shiftInFlight at h
  split at h
  · rename_i hs
    cases h
    exact Nat.lt_of_succ_le (Nat.le_of_eq (InFlight.peekAndShift_length hs))
  · cases h

theorem shiftDeferred_length {d d' : Deferred} {t : ℤ} {i : ItemPtr}
    (h : d.shiftDeferred t = some (i, d')) :
    d'.deferredPQ.slots.length < d.deferredPQ.slots.length := by
  unfold Deferred.shiftDeferred at h
  split at h
  · rename_i hs
    cases h
    exact Nat.lt_of_succ_le (Nat.le_of_eq (Deferred.peekAndShift_length hs))
  · cases h

theorem popInFlightMessage_slots {s s' : InFlight} {clientID : String} {id : MessageID} {p : MsgPtr}
    (h : s.popInFlightMessage clientID id = .ok (p, s')) :
    s'.inFlightPQ = s.inFlightPQ := by
  unfold InFlight.popInFlightMessage at h
  split at h
  · cases h
  · split at h
    · cases h
    · cases h
      rfl

theorem popDeferredMessage_slots {d d' : Deferred} {id : MessageID} {i : ItemPtr}
    (h : d.popDeferredMessage id = .ok (i, d')) : d'.deferredPQ = d.deferredPQ := by
  unfold Deferred.popDeferredMessage at h
  split at h
  · cases h
  · cases h
    rfl

/-- The loop of `processInFlightQueue`: whether it shifted anything, and the channel after it. -/
def scanInFlight (c : Channel) (t : ℤ) (dirty : Bool) : Bool × Channel :=
  match _hs : c.inFlight.shiftInFlight t with
  | none => (dirty, c)
  | some (p, s) =>
    match _hp : s.popInFlightMessage (s.msgs.obj p).clientID (s.msgs.obj p).id with
    | .error _ => (true, { c with inFlight := s })
    | .ok (_, s) => scanInFlight (c.timedOut p s) t true
termination_by c.inFlight.inFlightPQ.slots.length
decreasing_by
  rw [timedOut_inFlight, popInFlightMessage_slots _hp]
  exact shiftInFlight_length _hs

/-- The loop of `processDeferredQueue`. -/
def scanDeferred (c : Channel) (t : ℤ) (dirty : Bool) : Bool × Channel :=
  match _hs : c.deferred.shiftDeferred t with
  | none => (dirty, c)
  | some (i, d) =>
    match _hp : d.popDeferredMessage (d.idOf c.msgs i) with
    | .error _ => (true, { c with deferred := d })
    | .ok (_, d) =>
      scanDeferred (put { c with deferred := d } (d.items.obj i).value).2 t true
termination_by c.deferred.deferredPQ.slots.length
decreasing_by
  rw [put_deferred, popDeferredMessage_slots _hp]
  exact shiftDeferred_length _hs

def processInFlightQueue (c : Channel) (t : ℤ) : Bool × Channel :=
  if c.exiting then (false, c) else c.scanInFlight t false

def processDeferredQueue (c : Channel) (t : ℤ) : Bool × Channel :=
  if c.exiting then (false, c) else c.scanDeferred t false

/-! ### Emptying and closing -/

def initPQ (c : Channel) : Channel :=
  { c with
    inFlight := c.inFlight.resetInFlight (pqSize c.opts) (one_le_pqSize c.opts)
    deferred := c.deferred.resetDeferred (pqSize c.opts) (one_le_pqSize c.opts) }

def empty (c : Channel) : Channel :=
  { c.initPQ with
    clients := c.clients.keys.foldl (fun m id => m.insert id ⟨0⟩) c.clients
    memoryMsgChan := []
    backend := c.backend.empty }

/-- Write messages in order; an error is logged and the next message is tried. -/
def writeAll (backend : BackendQueue) (ms : List Message) : BackendQueue :=
  ms.foldl (fun q m => (writeMessageToBackend m q).2) backend

/-- The messages in memory, then those in flight, then the deferred ones; a Go map is ranged over
in any order, here in the orders `inFlight` and `deferred`. -/
def flush (c : Channel) (inFlight : List MsgPtr) (deferred : List ItemPtr) : Channel :=
  { c with
    memoryMsgChan := []
    backend := writeAll c.backend
      ((c.memoryMsgChan ++ inFlight ++ deferred.map fun i => (c.deferred.items.obj i).value).map
        c.msgs.obj) }

/-- `exit`; closing the clients' connections does not touch the channel. -/
def exit (c : Channel) (deleted : Bool) (inFlight : List MsgPtr) (deferred : List ItemPtr) :
    GoError × Channel :=
  if c.exitFlag ≠ 0 then (some "exiting", c)
  else
    let c := { c with exitFlag := 1 }
    if deleted then
      let c := c.empty
      (none, { c with backend := c.backend.delete })
    else
      let c := c.flush inFlight deferred
      (none, { c with backend := c.backend.close })

end Channel

end Xmq
