import Xmq.ChannelOwners
import Xmq.DeferredPublish
import Xmq.Protocol
import Xmq.Runs

/-!
# The flow control of a subscribed client

The message pump of a client looks at the ready state at the top of its loop and may then take one
message, however much happens in between. `RDY` sets how many messages the client wants in flight,
`CLS` sets that to none for good.

* A channel action and the change of the client's counter are one step. `SUB` adds the client to the
  channel under an ID that is new, and its pump starts over.
* Messages have different IDs, and the disk queue of the channel never fails.
* A command that fails for good ends the session, and with it the run.
-/

namespace Xmq

namespace FlowControl

open Channel

/-! ### The session -/

inductive ClientState where
  | init
  | subscribed
  | closing
  deriving DecidableEq

/-- `sources` is what the pump's last look at the ready state said, and `none` at the top of its loop.
The last three fields only record: the accepted values of `RDY`, the deliveries after `CLS`, and the
IDs of all messages so far. -/
structure Session where
  channel : Channel
  paused : Bool
  state : ClientState
  readyCount : Int64
  sources : Option Bool
  accepted : List Int64
  afterClose : ℕ
  used : List MessageID

/-- A client that has not subscribed, and a new channel. -/
def init (opts : ChannelOptions) : Session where
  channel := newChannel opts (BackendQueue.diskQueue fun _ => none) ∅
  paused := false
  state := .init
  readyCount := 0
  sources := none
  accepted := []
  afterClose := 0
  used := []

/-- What a client does with a channel. -/
inductive ClientOp where
  | deliverMemory (timeout now : ℤ)
  | deliverBackend (timeout now : ℤ)
  | fin (id : MessageID)
  | req (id : MessageID) (timeout now : ℤ)
  | touch (id : MessageID) (clientMsgTimeout now : ℤ)

/-- The channel and the counter of the client `who` after it. -/
def clientOp (c : Channel) (who : String) : ClientOp → Option (GoError × Channel)
  | .deliverMemory timeout now => some (none, c.deliverMemory who timeout now)
  | .deliverBackend timeout now => some (none, c.deliverBackend who timeout now)
  | .fin id => c.fin who id
  | .req id timeout now => c.req who id timeout now
  | .touch id clientMsgTimeout now => c.touchMessage who id clientMsgTimeout now

def ClientOp.isDelivery : ClientOp → Bool
  | deliverMemory _ _ | deliverBackend _ _ => true
  | fin _ | req _ _ _ | touch _ _ _ => false

def inFlightCount (c : Channel) (me : String) : ℤ :=
  match c.clients.lookup me with
  | some client => client.inFlightCount
  | none => 0

/-- `IsReadyForMessages`. -/
def Session.isReadyForMessages (s : Session) (me : String) : Bool :=
  if s.paused then false
  else if inFlightCount s.channel me ≥ s.readyCount.toInt ∨ s.readyCount ≤ 0 then false
  else true

/-- The value that `RDY` sets; `none` is an error. -/
def rdyCount (maxRdyCount : Int64) (params : List (List UInt8)) : Option Int64 :=
  let count : Option Int64 :=
    match params with
    | _ :: p :: _ => (byteToBase10 p).toOption.map UInt64.toInt64
    | _ => some 1
  count.bind fun count => if count < 0 ∨ count > maxRdyCount then none else some count

inductive Event where
  | putMessage (m : Message)
  | putMessageDeferred (m : Message) (timeout now : ℤ)
  | processInFlightQueue (t : ℤ)
  | processDeferredQueue (t : ℤ)
  | empty
  | doPause (pause : Bool)
  | otherClient (who : String) (client : Option Client)
  | otherOp (who : String) (op : ClientOp)
  | sub
  | eval
  | wake
  | op (op : ClientOp)
  | rdy (params : List (List UInt8))
  | cls

def Session.setChannel (s : Session) (c : Channel) : Session := { s with channel := c }

/-- An operation of the channel itself. -/
def Session.channelOp (s : Session) (op : Op) : Option Session :=
  (s.channel.step op).map fun r => { s with channel := r.2, used := op.newID.toList ++ s.used }

/-- A delivery sends the pump back to the top of its loop. -/
def Session.delivered (s : Session) : Session :=
  { s with
    sources := none
    afterClose := if s.state = .closing then s.afterClose + 1 else s.afterClose }

def step (me : String) (maxRdyCount : Int64) (s : Session) : Event → Option Session
  | .putMessage m => if m.id ∈ s.used then none else s.channelOp (.putMessage m)
  | .putMessageDeferred m timeout now =>
    if m.id ∈ s.used then none else s.channelOp (.putMessageDeferred m timeout now)
  | .processInFlightQueue t => s.channelOp (.processInFlightQueue t)
  | .processDeferredQueue t => s.channelOp (.processDeferredQueue t)
  | .empty => s.channelOp .empty
  | .doPause pause => some { s with paused := pause }
  | .otherClient who client =>
    if who = me then none
    else
      match client with
      | some client =>
        some (s.setChannel { s.channel with clients := s.channel.clients.insert who client })
      | none => some (s.setChannel { s.channel with clients := s.channel.clients.erase who })
  | .otherOp who op =>
    if who = me then none else (clientOp s.channel who op).map fun r => s.setChannel r.2
  | .sub =>
    if s.state = .init ∧ s.channel.clients.lookup me = none then
      some { s with
        state := .subscribed
        sources := none
        channel := { s.channel with clients := s.channel.clients.insert me ⟨0⟩ } }
    else none
  | .eval =>
    if s.sources = none ∧ s.state ≠ .init then
      some { s with sources := some (s.isReadyForMessages me) }
    else none
  | .wake => if s.sources = none then none else some { s with sources := none }
  | .op op =>
    if op.isDelivery then
      if s.sources = some true then
        (clientOp s.channel me op).map fun r => (s.setChannel r.2).delivered
      else none
    else if s.state = .init then none
    else (clientOp s.channel me op).map fun r => s.setChannel r.2
  | .rdy params =>
    match s.state with
    | .init => none
    | .closing => some s
    | .subscribed =>
      (rdyCount maxRdyCount params).map fun count =>
        { s with readyCount := count, accepted := count :: s.accepted }
  | .cls =>
    if s.state = .subscribed then some { s with readyCount := 0, state := .closing } else none

/-- The largest value of `RDY` so far. -/
def Session.largest (s : Session) : ℤ := (s.accepted.map Int64.toInt).foldr max 0

/-! ### The invariant -/

structure Inv (me : String) (maxRdyCount : Int64) (s : Session) : Prop where
  kept : ∃ live, Kept s.channel live ∧ ∀ id ∈ live, id ∈ s.used
  before : s.state = .init → s.channel.inFlight.owned me = 0 ∧ s.sources ≠ some true
  counted : s.state ≠ .init →
    s.channel.clients.lookup me = some ⟨s.channel.inFlight.owned me⟩
  bounded : (s.channel.inFlight.owned me : ℤ) ≤ s.largest
  /-- The pump is about to take a message: there is room for it. -/
  room : s.sources = some true → (s.channel.inFlight.owned me : ℤ) < s.largest
  ready : s.readyCount.toInt ≤ s.largest
  accepted : ∀ n ∈ s.accepted, 0 ≤ n ∧ n ≤ maxRdyCount
  closing : s.state = .closing → s.readyCount = 0 ∧
    s.afterClose + (if s.sources = some true then 1 else 0) ≤ 1
  opened : s.state ≠ .closing → s.afterClose = 0

section Operations

variable {c : Channel} {live : Multiset MessageID} {me who : String}

/-- What a change of the clients only keeps. -/
theorem kept_of_same {c' : Channel} (h : Kept c live) (hsame : SameMessages c c')
    (hset : c'.settings = c.settings) : Kept c' live :=
  h.of_account (hsame.sound h.sound) hset hsame.account

theorem kept_setClients (h : Kept c live) (clients : GoMap String Client) :
    Kept { c with clients := clients } live :=
  kept_of_same h ⟨rfl, rfl, rfl, rfl, rfl, rfl⟩ rfl

theorem kept_finishedMessage (h : Kept c live) (who : String) : Kept (c.finishedMessage who) live :=
  kept_of_same h (updateClient_same c who _) (updateClient_settings c who _)

/-- The IDs in the channel after an operation that brings no message. -/
theorem step_kept (h : Kept c live) (op : Op) (hop : op.newID = none) :
    ∃ r, c.step op = some r ∧ ∃ live', Kept r.2 live' ∧ ∀ id ∈ live', id ∈ live := by
  obtain ⟨r, hr, hk⟩ := h.step op fun id hid => by
    rw [hop] at hid
    cases hid
  refine ⟨r, hr, _, hk, fun id hid => ?_⟩
  rcases mem_ledger hid with hlive | hnew
  · exact hlive
  · rw [hop] at hnew
    cases hnew

/-- A command of a client, and how far it can move the numbers of `me`. -/
structure Effect (c : Channel) (live : Multiset MessageID) (me : String) (most : ℤ)
    (c' : Channel) : Prop where
  kept : ∃ live', Kept c' live' ∧ ∀ id ∈ live', id ∈ live
  shift : ∃ d ≤ most, Shift me c c' d

variable (me) in
theorem fin_effect (h : Kept c live) (id : MessageID) :
    ∃ r, c.fin who id = some r ∧ Effect c live me 0 r.2 := by
  obtain ⟨q, hq, live', hk, hsub⟩ := step_kept h (.finishMessage who id) rfl
  obtain ⟨r, hr, hshift⟩ := h.sound.fin_shift me who id
  have hfin : c.fin who id = some (q.1, if q.1 = none then q.2.finishedMessage who else q.2) := by
    rw [fin, show c.finishMessage who id = some q from hq]
    rfl
  rw [hfin] at hr
  cases hr
  refine ⟨_, hfin, ⟨live', ?_, hsub⟩, hshift⟩
  show Kept (if q.1 = none then q.2.finishedMessage who else q.2) live'
  split
  · exact kept_finishedMessage hk who
  · exact hk

variable (me) in
theorem req_effect (h : Kept c live) (id : MessageID) (timeout now : ℤ) :
    ∃ r, c.req who id timeout now = some r ∧ Effect c live me 0 r.2 := by
  obtain ⟨q, hq, live', hk, hsub⟩ := step_kept h (.requeueMessage who id timeout now) rfl
  obtain ⟨r, hr, hshift⟩ := h.req_shift me who id timeout now
  have hreq : c.req who id timeout now =
      some (q.1, if q.1 = none then q.2.finishedMessage who else q.2) := by
    rw [req, show c.requeueMessage who id timeout now = some q from hq]
    rfl
  rw [hreq] at hr
  cases hr
  refine ⟨_, hreq, ⟨live', ?_, hsub⟩, hshift⟩
  show Kept (if q.1 = none then q.2.finishedMessage who else q.2) live'
  split
  · exact kept_finishedMessage hk who
  · exact hk

/-- **A command of a client** moves the numbers of `me` up only where it is a delivery to `me`. -/
theorem clientOp_effect (h : Kept c live) (who me : String) (op : ClientOp) :
    ∃ r, clientOp c who op = some r ∧
      Effect c live me (if op.isDelivery ∧ who = me then 1 else 0) r.2 := by
  have hnd : c.account.Nodup := h.account ▸ h.nodup
  cases op with
  | deliverMemory timeout now =>
      obtain ⟨q, hq, hkept⟩ := step_kept h (.deliverMemory who timeout now) rfl
      cases hq
      obtain ⟨d, -, hd, hshift⟩ := h.sound.deliverMemory_shift me hnd who timeout now
      exact ⟨_, rfl, hkept, d, by simpa [ClientOp.isDelivery] using hd, hshift⟩
  | deliverBackend timeout now =>
      obtain ⟨q, hq, hkept⟩ := step_kept h (.deliverBackend who timeout now) rfl
      cases hq
      obtain ⟨d, -, hd, hshift⟩ := h.sound.deliverBackend_shift me hnd who timeout now
      exact ⟨_, rfl, hkept, d, by simpa [ClientOp.isDelivery] using hd, hshift⟩
  | fin id =>
      obtain ⟨r, hr, heff⟩ := fin_effect me h id
      exact ⟨r, hr, heff.kept, by simpa [ClientOp.isDelivery] using heff.shift⟩
  | req id timeout now =>
      obtain ⟨r, hr, heff⟩ := req_effect me h id timeout now
      exact ⟨r, hr, heff.kept, by simpa [ClientOp.isDelivery] using heff.shift⟩
  | touch id clientMsgTimeout now =>
      obtain ⟨r, hr, hkept⟩ := step_kept h (.touchMessage who id clientMsgTimeout now) rfl
      obtain ⟨r', hr', hshift⟩ := h.sound.touchMessage_shift me hnd who id clientMsgTimeout now
      have hr : c.touchMessage who id clientMsgTimeout now = some r := hr
      rw [hr] at hr'
      cases hr'
      exact ⟨r, hr, hkept, 0, by simp [ClientOp.isDelivery], hshift⟩

/-! ### Emptying -/

theorem lookup_zeroed (keys : List String) (m : GoMap String Client) (me : String) :
    (keys.foldl (fun m id => m.insert id (⟨0⟩ : Client)) m).lookup me =
      if me ∈ keys then some ⟨0⟩ else m.lookup me := by
  induction keys generalizing m with
  | nil => rfl
  | cons k keys ih =>
      rw [List.foldl_cons, ih]
      by_cases hme : me ∈ keys
      · rw [if_pos hme, if_pos (List.mem_cons_of_mem _ hme)]
      · rw [if_neg hme]
        by_cases hk : me = k
        · subst hk
          rw [AList.lookup_insert, if_pos List.mem_cons_self]
        · rw [AList.lookup_insert_ne hk, if_neg fun h => (List.mem_cons.mp h).elim hk hme]

theorem lookup_empty {client : Client} (h : c.clients.lookup me = some client) :
    c.empty.clients.lookup me = some ⟨0⟩ := by
  show (c.clients.keys.foldl (fun m id => m.insert id (⟨0⟩ : Client)) c.clients).lookup me = _
  rw [lookup_zeroed, if_pos (GoMap.mem_keys_of_lookup h)]

end Operations

theorem init_inv (me : String) (maxRdyCount : Int64) (opts : ChannelOptions) :
    Inv me maxRdyCount (init opts) where
  kept := ⟨0, newChannel_kept opts ∅, fun id hid => absurd hid (Multiset.notMem_zero id)⟩
  before := fun _ => ⟨rfl, nofun⟩
  counted := fun h => absurd rfl h
  bounded := le_refl _
  room := nofun
  ready := le_refl _
  accepted := fun n hn => by cases hn
  closing := nofun
  opened := fun _ => rfl

section Steps

variable {me : String} {maxRdyCount : Int64} {s t : Session}

/-- What moves the numbers of the client down, or not at all. -/
theorem Inv.shifted (hi : Inv me maxRdyCount s) {c' : Channel} {used' : List MessageID} {d : ℤ}
    (hkept : ∃ live, Kept c' live ∧ ∀ id ∈ live, id ∈ used') (hd : d ≤ 0)
    (hshift : Shift me s.channel c' d) :
    Inv me maxRdyCount { s with channel := c', used := used' } := by
  have howned := hshift.owned
  exact
    { kept := hkept
      before := fun h => by
        obtain ⟨hzero, hsources⟩ := hi.before h
        rw [hzero] at howned
        exact ⟨by show c'.inFlight.owned me = 0; omega, hsources⟩
      counted := fun h => by
        show c'.clients.lookup me = some ⟨c'.inFlight.owned me⟩
        rw [hshift.count _ (hi.counted h), howned]
      bounded := by
        have hle := hi.bounded
        show (c'.inFlight.owned me : ℤ) ≤ s.largest
        omega
      room := fun h => by
        have hlt := hi.room h
        show (c'.inFlight.owned me : ℤ) < s.largest
        omega
      ready := hi.ready
      accepted := hi.accepted
      closing := hi.closing
      opened := hi.opened }

theorem channelOp_eq {op : Op} (h : s.channelOp op = some t) :
    ∃ r, s.channel.step op = some r ∧
      t = { s with channel := r.2, used := op.newID.toList ++ s.used } := by
  obtain ⟨r, hr, rfl⟩ := Option.map_eq_some_iff.mp h
  exact ⟨r, hr, rfl⟩

/-- An operation of the channel itself. -/
theorem Inv.channelOp (hi : Inv me maxRdyCount s) (op : Op) (hnew : ∀ id ∈ op.newID, id ∉ s.used)
    {r : GoError × Channel} (hr : s.channel.step op = some r) {d : ℤ} (hd : d ≤ 0)
    (hshift : Shift me s.channel r.2 d) :
    Inv me maxRdyCount { s with channel := r.2, used := op.newID.toList ++ s.used } := by
  obtain ⟨live, hk, hsub⟩ := hi.kept
  obtain ⟨r', hr', hk'⟩ := hk.step op fun id hid hlive => hnew id hid (hsub id hlive)
  rw [hr] at hr'
  cases hr'
  refine hi.shifted ⟨_, hk', fun id hid => ?_⟩ hd hshift
  rcases mem_ledger hid with hlive | hop
  · exact List.mem_append_right _ (hsub id hlive)
  · exact List.mem_append_left _ (by rw [hop]; exact List.mem_singleton_self id)

/-- `Empty` takes all messages away and sets every counter to zero. -/
theorem Inv.empty (hi : Inv me maxRdyCount s) :
    Inv me maxRdyCount { s with channel := s.channel.empty } := by
  obtain ⟨live, hk, -⟩ := hi.kept
  obtain ⟨r, hr, live', hk', -⟩ := step_kept hk .empty rfl
  cases hr
  have hzero : s.channel.empty.inFlight.owned me = 0 := rfl
  have hnone : ∀ id ∈ live', id ∈ s.used := by
    rw [← hk'.held, show held s.channel.empty = 0 from (empty_sound s.channel).2]
    exact fun id hid => absurd hid (Multiset.notMem_zero id)
  have hpos : (0 : ℤ) ≤ s.channel.inFlight.owned me := Int.natCast_nonneg _
  exact
    { kept := ⟨live', hk', hnone⟩
      before := fun h => ⟨hzero, (hi.before h).2⟩
      counted := fun h => by
        show s.channel.empty.clients.lookup me = some ⟨s.channel.empty.inFlight.owned me⟩
        rw [hzero]
        exact lookup_empty (hi.counted h)
      bounded := by
        have hle := hi.bounded
        show (s.channel.empty.inFlight.owned me : ℤ) ≤ s.largest
        rw [hzero]
        omega
      room := fun h => by
        have hlt := hi.room h
        show (s.channel.empty.inFlight.owned me : ℤ) < s.largest
        rw [hzero]
        omega
      ready := hi.ready
      accepted := hi.accepted
      closing := hi.closing
      opened := hi.opened }

/-- A delivery to the client, after the pump saw room for it. -/
theorem Inv.delivered (hi : Inv me maxRdyCount s) {c' : Channel} {d : ℤ}
    (hkept : ∃ live, Kept c' live ∧ ∀ id ∈ live, id ∈ s.used) (hd : d ≤ 1)
    (hshift : Shift me s.channel c' d) (hsources : s.sources = some true) :
    Inv me maxRdyCount (s.setChannel c').delivered := by
  have howned := hshift.owned
  have hlt := hi.room hsources
  have hinit : s.state ≠ .init := fun h => (hi.before h).2 hsources
  exact
    { kept := hkept
      before := fun h => absurd h hinit
      counted := fun h => by
        show c'.clients.lookup me = some ⟨c'.inFlight.owned me⟩
        rw [hshift.count _ (hi.counted hinit), howned]
      bounded := by
        show (c'.inFlight.owned me : ℤ) ≤ s.largest
        omega
      room := nofun
      ready := hi.ready
      accepted := hi.accepted
      closing := fun h => by
        have h : s.state = .closing := h
        obtain ⟨hready, hone⟩ := hi.closing h
        rw [if_pos hsources] at hone
        refine ⟨hready, ?_⟩
        show (if s.state = .closing then s.afterClose + 1 else s.afterClose) + 0 ≤ 1
        rw [if_pos h]
        omega
      opened := fun h => by
        have h : s.state ≠ .closing := h
        show (if s.state = .closing then s.afterClose + 1 else s.afterClose) = 0
        rw [if_neg h]
        exact hi.opened h }

/-- The pump's look at the ready state. -/
theorem Inv.eval (hi : Inv me maxRdyCount s) (hstate : s.state ≠ .init) :
    Inv me maxRdyCount { s with sources := some (s.isReadyForMessages me) } := by
  have hcount : inFlightCount s.channel me = s.channel.inFlight.owned me := by
    rw [inFlightCount, hi.counted hstate]
  have hready : s.isReadyForMessages me = true →
      (s.channel.inFlight.owned me : ℤ) < s.readyCount.toInt ∧ ¬ s.readyCount ≤ 0 := by
    intro h
    rw [Session.isReadyForMessages, hcount] at h
    split at h
    · cases h
    · split at h
      · cases h
      · rename_i hnot
        exact ⟨not_le.mp fun hge => hnot (Or.inl hge), fun hle => hnot (Or.inr hle)⟩
  exact
    { kept := hi.kept
      before := fun h => absurd h hstate
      counted := hi.counted
      bounded := hi.bounded
      room := fun h => (hready (Option.some.inj h)).1.trans_le hi.ready
      ready := hi.ready
      accepted := hi.accepted
      closing := fun h => by
        obtain ⟨hzero, hone⟩ := hi.closing h
        have hnot : ¬ some (s.isReadyForMessages me) = some true := fun h => by
          have hle := (hready (Option.some.inj h)).2
          rw [hzero] at hle
          exact hle (by decide)
        refine ⟨hzero, ?_⟩
        show s.afterClose + (if some (s.isReadyForMessages me) = some true then 1 else 0) ≤ 1
        rw [if_neg hnot]
        omega
      opened := hi.opened }

theorem Inv.wake (hi : Inv me maxRdyCount s) : Inv me maxRdyCount { s with sources := none } :=
  { hi with
    before := fun h => ⟨(hi.before h).1, nofun⟩
    room := nofun
    closing := fun h => by
      obtain ⟨hzero, hone⟩ := hi.closing h
      exact ⟨hzero, by show s.afterClose + 0 ≤ 1; omega⟩ }

/-- What `RDY` accepts is in its range. -/
theorem rdyCount_range {params : List (List UInt8)} {n : Int64}
    (h : rdyCount maxRdyCount params = some n) : 0 ≤ n ∧ n ≤ maxRdyCount := by
  obtain ⟨count, -, h⟩ := Option.bind_eq_some_iff.mp h
  obtain ⟨hrange, hn⟩ := Option.ite_none_left_eq_some.mp h
  cases hn
  exact ⟨Int64.not_lt.mp fun hlt => hrange (Or.inl hlt),
    Int64.not_lt.mp fun hlt => hrange (Or.inr hlt)⟩

theorem Inv.rdy (hi : Inv me maxRdyCount s) (hstate : s.state = .subscribed)
    {params : List (List UInt8)} {n : Int64} (h : rdyCount maxRdyCount params = some n) :
    Inv me maxRdyCount { s with readyCount := n, accepted := n :: s.accepted } := by
  have hlargest : Session.largest { s with readyCount := n, accepted := n :: s.accepted } =
      max n.toInt s.largest := rfl
  exact
    { kept := hi.kept
      before := hi.before
      counted := hi.counted
      bounded := by
        rw [hlargest]
        exact hi.bounded.trans (le_max_right _ _)
      room := fun h => by
        rw [hlargest]
        exact (hi.room h).trans_le (le_max_right _ _)
      ready := by
        rw [hlargest]
        exact le_max_left _ _
      accepted := fun m hm => by
        rcases List.mem_cons.mp hm with rfl | hm
        · exact rdyCount_range h
        · exact hi.accepted m hm
      closing := fun h => by
        have h : s.state = .closing := h
        rw [hstate] at h
        cases h
      opened := hi.opened }

theorem largest_nonneg (s : Session) : 0 ≤ s.largest := by
  rw [Session.largest]
  induction s.accepted with
  | nil => exact le_refl 0
  | cons n ns ih => exact ih.trans (le_max_right _ _)

theorem Inv.cls (hi : Inv me maxRdyCount s) (hstate : s.state = .subscribed) :
    Inv me maxRdyCount { s with readyCount := 0, state := .closing } := by
  have hinit : s.state ≠ .init := by rw [hstate]; decide
  have hopened := hi.opened (by rw [hstate]; decide)
  exact
    { kept := hi.kept
      before := nofun
      counted := fun _ => hi.counted hinit
      bounded := hi.bounded
      room := hi.room
      ready := largest_nonneg s
      accepted := hi.accepted
      closing := fun _ => by
        refine ⟨rfl, ?_⟩
        show s.afterClose + (if s.sources = some true then 1 else 0) ≤ 1
        rw [hopened]
        split <;> decide
      opened := fun h => absurd rfl h }

theorem Inv.sub (hi : Inv me maxRdyCount s) (hstate : s.state = .init) :
    Inv me maxRdyCount { s with
      state := .subscribed
      sources := none
      channel := { s.channel with clients := s.channel.clients.insert me ⟨0⟩ } } := by
  obtain ⟨live, hk, hsub⟩ := hi.kept
  exact
    { kept := ⟨live, kept_setClients hk _, hsub⟩
      before := nofun
      counted := fun _ => by
        show (s.channel.clients.insert me ⟨0⟩).lookup me = some ⟨s.channel.inFlight.owned me⟩
        rw [AList.lookup_insert, (hi.before hstate).1]
        rfl
      bounded := hi.bounded
      room := nofun
      ready := hi.ready
      accepted := hi.accepted
      closing := nofun
      opened := fun _ => hi.opened (by rw [hstate]; decide) }

/-- Other clients come and go. -/
theorem Inv.otherClients (hi : Inv me maxRdyCount s) {clients : GoMap String Client}
    (hlookup : clients.lookup me = s.channel.clients.lookup me) :
    Inv me maxRdyCount (s.setChannel { s.channel with clients := clients }) := by
  obtain ⟨live, hk, hsub⟩ := hi.kept
  refine hi.shifted (d := 0) ⟨live, kept_setClients hk clients, hsub⟩ le_rfl ⟨?_, ?_⟩
  · rw [add_zero]
  · intro client h
    show clients.lookup me = _
    rw [hlookup, h, add_zero]

theorem Inv.clientOp (hi : Inv me maxRdyCount s) (who : String) (op : ClientOp)
    {r : GoError × Channel} (hr : clientOp s.channel who op = some r)
    (hmost : ¬ (op.isDelivery ∧ who = me)) : Inv me maxRdyCount (s.setChannel r.2) := by
  obtain ⟨live, hk, hsub⟩ := hi.kept
  obtain ⟨r', hr', ⟨live', hk', hsub'⟩, d, hd, hshift⟩ := clientOp_effect hk who me op
  rw [hr] at hr'
  cases hr'
  rw [if_neg hmost] at hd
  exact hi.shifted ⟨live', hk', fun id hid => hsub id (hsub' id hid)⟩ hd hshift

theorem Inv.ownDelivery (hi : Inv me maxRdyCount s) (op : ClientOp) {r : GoError × Channel}
    (hr : FlowControl.clientOp s.channel me op = some r) (hsources : s.sources = some true) :
    Inv me maxRdyCount (s.setChannel r.2).delivered := by
  obtain ⟨live, hk, hsub⟩ := hi.kept
  obtain ⟨r', hr', ⟨live', hk', hsub'⟩, d, hd, hshift⟩ := clientOp_effect hk me me op
  rw [hr] at hr'
  cases hr'
  exact hi.delivered ⟨live', hk', fun id hid => hsub id (hsub' id hid)⟩
    (hd.trans (by split <;> decide)) hshift hsources

/-- **One step.** -/
theorem Inv.step (hi : Inv me maxRdyCount s) {e : Event} (h : step me maxRdyCount s e = some t) :
    Inv me maxRdyCount t := by
  obtain ⟨live, hk, hsub⟩ := hi.kept
  cases e with
  | putMessage m =>
      obtain ⟨hnew, h⟩ := Option.ite_none_left_eq_some.mp h
      obtain ⟨r, hr, rfl⟩ := channelOp_eq h
      cases hr
      exact hi.channelOp (.putMessage m) (fun id hid => by cases hid; exact hnew) rfl le_rfl
        (hk.sound.putMessage_shift m)
  | putMessageDeferred m timeout now =>
      obtain ⟨hnew, h⟩ := Option.ite_none_left_eq_some.mp h
      obtain ⟨r, hr, rfl⟩ := channelOp_eq h
      cases hr
      exact hi.channelOp (.putMessageDeferred m timeout now)
        (fun id hid => by cases hid; exact hnew) rfl le_rfl
        (hk.sound.putMessageDeferred_shift m timeout now)
  | processInFlightQueue now =>
      obtain ⟨r, hr, rfl⟩ := channelOp_eq h
      cases hr
      obtain ⟨d, hd, hshift⟩ := hk.sound.processInFlightQueue_shift me now
      exact hi.channelOp (.processInFlightQueue now) (fun id hid => by cases hid) rfl hd
        hshift
  | processDeferredQueue now =>
      obtain ⟨r, hr, rfl⟩ := channelOp_eq h
      cases hr
      exact hi.channelOp (.processDeferredQueue now) (fun id hid => by cases hid) rfl le_rfl
        (processDeferredQueue_shift me s.channel now)
  | empty =>
      obtain ⟨r, hr, rfl⟩ := channelOp_eq h
      cases hr
      exact hi.empty
  | doPause pause =>
      cases h
      exact { hi with }
  | otherClient who client =>
      obtain ⟨hne, h⟩ := Option.ite_none_left_eq_some.mp h
      cases client with
      | some client =>
          cases h
          exact hi.otherClients (AList.lookup_insert_ne (Ne.symm hne))
      | none =>
          cases h
          exact hi.otherClients (AList.lookup_erase_ne (Ne.symm hne))
  | otherOp who op =>
      obtain ⟨hne, h⟩ := Option.ite_none_left_eq_some.mp h
      obtain ⟨r, hr, rfl⟩ := Option.map_eq_some_iff.mp h
      exact hi.clientOp who op hr fun h => hne h.2
  | sub =>
      obtain ⟨hstate, h⟩ := Option.ite_none_right_eq_some.mp h
      cases h
      exact hi.sub hstate.1
  | eval =>
      obtain ⟨hstate, h⟩ := Option.ite_none_right_eq_some.mp h
      cases h
      exact hi.eval hstate.2
  | wake =>
      obtain ⟨-, h⟩ := Option.ite_none_left_eq_some.mp h
      cases h
      exact hi.wake
  | op op =>
      cases hop : op.isDelivery with
      | true =>
          rw [FlowControl.step, if_pos hop] at h
          obtain ⟨hsources, h⟩ := Option.ite_none_right_eq_some.mp h
          obtain ⟨r, hr, rfl⟩ := Option.map_eq_some_iff.mp h
          exact hi.ownDelivery op hr hsources
      | false =>
          rw [FlowControl.step, hop, if_neg Bool.false_ne_true] at h
          obtain ⟨-, h⟩ := Option.ite_none_left_eq_some.mp h
          obtain ⟨r, hr, rfl⟩ := Option.map_eq_some_iff.mp h
          exact hi.clientOp me op hr fun h => by
            rw [hop] at h
            exact Bool.false_ne_true h.1
  | rdy params =>
      rw [FlowControl.step] at h
      cases hstate : s.state with
      | init =>
          rw [hstate] at h
          cases h
      | closing =>
          rw [hstate] at h
          cases h
          exact hi
      | subscribed =>
          rw [hstate] at h
          obtain ⟨n, hn, rfl⟩ := Option.map_eq_some_iff.mp h
          exact hstate ▸ hi.rdy hstate hn
  | cls =>
      obtain ⟨hstate, h⟩ := Option.ite_none_right_eq_some.mp h
      cases h
      exact hi.cls hstate

end Steps

/-! ### Flow control -/

/-- What holds of a subscribed client. -/
structure Controlled (me : String) (maxRdyCount : Int64) (s : Session) : Prop where
  counted : s.state ≠ .init →
    inFlightCount s.channel me = s.channel.inFlight.inFlightMessages.values.countP
      fun p => decide ((s.channel.msgs.obj p).clientID = me)
  bounded : s.state ≠ .init → inFlightCount s.channel me ≤ s.largest
  accepted : ∀ n ∈ s.accepted, 0 ≤ n ∧ n ≤ maxRdyCount
  closing : s.state = .closing → s.readyCount = 0 ∧ s.afterClose ≤ 1

theorem Inv.controlled {me : String} {maxRdyCount : Int64} {s : Session}
    (hi : Inv me maxRdyCount s) : Controlled me maxRdyCount s := by
  have hcount : s.state ≠ .init → inFlightCount s.channel me = s.channel.inFlight.owned me := by
    intro h
    rw [inFlightCount, hi.counted h]
  exact
    { counted := hcount
      bounded := fun h => by
        rw [hcount h]
        exact hi.bounded
      accepted := hi.accepted
      closing := fun h => by
        obtain ⟨hzero, hone⟩ := hi.closing h
        exact ⟨hzero, by omega⟩ }

/-- **Flow control.** Whatever happens on the channel, a subscribed client's counter is the number of
its messages in flight, that number is never more than the largest value of `RDY`, and after `CLS` the
client gets one more message at most. -/
theorem flow_controlled (me : String) (maxRdyCount : Int64) (opts : ChannelOptions)
    {events : List Event} {s : Session}
    (hr : Runs.run (step me maxRdyCount) (init opts) events = some s) :
    Controlled me maxRdyCount s :=
  (Runs.invariant_run (fun _ _ _ hi h => hi.step h) events _ s (init_inv me maxRdyCount opts)
    hr).controlled

/-- A client that asks for one message, closes while its pump is about to take it, and still gets it. -/
theorem flow_controlled_closing : ∃ s, Runs.run (step "a" 2500) (init ⟨1, 100⟩)
    [.sub, .rdy [[82, 68, 89], [49]], .putMessage (newMessage (Vector.replicate 16 1) [7] 0), .eval,
      .cls, .op (.deliverMemory 5 0), .eval] = some s ∧ s.afterClose = 1 ∧
      Controlled "a" 2500 s := by
  obtain ⟨s, hr, hone⟩ := Runs.exists_of_run (step "a" 2500) (init ⟨1, 100⟩)
    [.sub, .rdy [[82, 68, 89], [49]], .putMessage (newMessage (Vector.replicate 16 1) [7] 0), .eval,
      .cls, .op (.deliverMemory 5 0), .eval] (fun s => s.afterClose = 1) (by decide)
  exact ⟨s, hr, hone, flow_controlled "a" 2500 ⟨1, 100⟩ hr⟩

end FlowControl

end Xmq
