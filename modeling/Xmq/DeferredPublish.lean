import Xmq.ChannelPutFailure
import Xmq.ChannelView
import Xmq.Runs
import Xmq.TopicPump

/-!
# Deferred publishing

A deferral is a field of the message, from the publisher through the memory queue of the topic to
the deferred heap of each channel. The stored form of a message has no such field: what goes through
the backend of the topic has lost it, and what a closing channel writes to its backend can be read
at once when the channel is opened again.

* The pump and its topic are those of the fan-out, the channels are those of the conservation of
  messages. A clock that never goes back is read by all of them.
* A topic that is closed and opened again starts without channels; they are made again one by one,
  over what they have left on disk. `GenerateID` gives a new ID to each message.
-/

namespace Xmq.Deferral

open Runs
open Pump (Topic PumpAct ChannelPtr)

/-! ### The node -/

/-- `published` holds the deferred messages that were accepted, with the times before which no
channel may have them available, and `taken` those that a channel has put off, with their
deadlines. -/
structure State where
  topic : Topic
  chan : ChannelPtr → Channel
  disk : String → BackendQueue
  now : ℤ
  issued : List MessageID
  published : List (MessageID × ℤ)
  taken : ChannelPtr → List (MessageID × ℤ)

/-- Nothing is queued and nobody is there; the disks answer as they like. -/
def init (opts : ChannelOptions) (topicDisk : Bool × (ℕ → GoError))
    (disks : String → Bool × (ℕ → GoError)) : State where
  topic := Pump.newTopic { BackendQueue.diskQueue topicDisk.2 with dummy := topicDisk.1 }
  chan _ := newChannel opts (BackendQueue.diskQueue fun _ => none) ∅
  disk name := { BackendQueue.diskQueue (disks name).2 with dummy := (disks name).1 }
  now := 0
  issued := []
  published := []
  taken _ := []

inductive Act where
  | wait (d : ℕ)
  | publish (m : Message)
  | start
  | setPaused (paused : Bool)
  | receiveUpdate
  | receivePause
  | newChannel (name : String)
  | deleteChannel (name : String)
  | pump (a : PumpAct)
  | channel (p : ChannelPtr) (op : Channel.Op)
  | reopen (inFlight : ChannelPtr → List MsgPtr) (deferred : ChannelPtr → List ItemPtr)

namespace State

def setChan (s : State) (p : ChannelPtr) (c : Channel) : State :=
  { s with chan := Function.update s.chan p c }

/-- The topic has the channel. -/
def Live (s : State) (p : ChannelPtr) : Prop := p ∈ s.topic.channels.values

instance (s : State) (p : ChannelPtr) : Decidable (s.Live p) := inferInstanceAs (Decidable (_ ∈ _))

/-- `topic.put` returns no error. -/
def Accepts (opts : ChannelOptions) (s : State) (m : Message) : Prop :=
  s.topic.memoryMsgChan.length < opts.memQueueSize ∨
    (writeMessageToBackend m s.topic.backend).1 = none

instance (opts : ChannelOptions) (s : State) (m : Message) : Decidable (s.Accepts opts m) :=
  inferInstanceAs (Decidable (_ ∨ _))

/-- `PutMessage` of the topic, with a new message. -/
def publish (opts : ChannelOptions) (s : State) (m : Message) : State :=
  { s with
    topic := s.topic.put opts.memQueueSize m
    issued := m.id :: s.issued
    published :=
      if 0 < m.deferred ∧ s.Accepts opts m then (m.id, s.now + m.deferred) :: s.published
      else s.published }

/-- The message that the pump hands to a channel. -/
def chanMsg (take : Pump.Take) : Message :=
  if take.puts.isEmpty then take.moment.msg else Pump.copyMessage take.moment.msg 0

/-- `PutMessageDeferred` or `PutMessage`. -/
def deliver (s : State) (p : ChannelPtr) (m : Message) : State :=
  if m.deferred ≠ 0 then
    { s.setChan p (((s.chan p).alloc m).putMessageDeferred (s.chan p).nextMsg m.deferred s.now) with
      taken := Function.update s.taken p ((m.id, s.now + m.deferred) :: s.taken p) }
  else s.setChan p (((s.chan p).alloc m).putMessage (s.chan p).nextMsg).2

/-- A step of the pump, and what it means for the channel it puts to. -/
def pump (s : State) (a : PumpAct) : Option State :=
  (s.topic.pumpStep false a).map fun t =>
    match a, s.topic.pump with
    | .put _, .putting take (p :: _) => { s with topic := t }.deliver p (chanMsg take)
    | _, _ => { s with topic := t }

def newChannel (opts : ChannelOptions) (s : State) (name : String) : Option State :=
  match s.topic.channels.lookup name with
  | some _ => none
  | none =>
    let c := Xmq.newChannel opts { s.disk name with closed := false } ∅
    some
      { s.setChan s.topic.nextChannel c with
        topic := s.topic.newChannel name
        taken := Function.update s.taken s.topic.nextChannel [] }

/-- `ClusterDeleteChannel`: the channel is emptied, and its files are removed. -/
def deleteChannel (s : State) (name : String) : Option State :=
  match s.topic.channels.lookup name with
  | none => none
  | some p =>
    let c := ((s.chan p).exit true [] []).2
    some
      { s.setChan p c with
        topic := s.topic.deleteChannel name
        disk := Function.update s.disk name { c.backend with records := [], deleted := false }
        taken := Function.update s.taken p [] }

/-- What is left to be scanned after an operation of the channel. -/
def leftAfter (op : Channel.Op) (taken : List (MessageID × ℤ)) : List (MessageID × ℤ) :=
  match op with
  | .processDeferredQueue t => taken.filter fun x => ¬ x.2 ≤ t
  | .empty => []
  | .putMessage _ | .putMessageDeferred _ _ _ | .deliverMemory _ _ _ | .deliverBackend _ _ _
  | .touchMessage _ _ _ _ | .finishMessage _ _ | .requeueMessage _ _ _ _
  | .processInFlightQueue _ => taken

/-- A scan has read the clock before. -/
def InTime (s : State) : Channel.Op → Prop
  | .processDeferredQueue t => t ≤ s.now
  | .putMessage _ | .putMessageDeferred _ _ _ => False
  | .deliverMemory _ _ _ | .deliverBackend _ _ _ | .touchMessage _ _ _ _ | .finishMessage _ _
  | .requeueMessage _ _ _ _ | .processInFlightQueue _ | .empty => True

instance (s : State) : ∀ op, Decidable (s.InTime op)
  | .processDeferredQueue _ => inferInstanceAs (Decidable (_ ≤ _))
  | .putMessage _ | .putMessageDeferred _ _ _ => isFalse id
  | .deliverMemory _ _ _ | .deliverBackend _ _ _ | .touchMessage _ _ _ _ | .finishMessage _ _
  | .requeueMessage _ _ _ _ | .processInFlightQueue _ | .empty => isTrue trivial

/-- What clients and the scans do to a channel of the topic. -/
def channel (s : State) (p : ChannelPtr) (op : Channel.Op) : Option State :=
  if s.Live p ∧ s.InTime op then
    ((s.chan p).step op).map fun r =>
      { s.setChan p r.2 with taken := Function.update s.taken p (leftAfter op (s.taken p)) }
  else none

/-- The ranges over the maps of the channels. -/
def Orders (s : State) (inFlight : ChannelPtr → List MsgPtr)
    (deferred : ChannelPtr → List ItemPtr) :
    Prop :=
  ∀ p ∈ s.topic.channels.values,
    (inFlight p).Perm (s.chan p).inFlight.inFlightMessages.values ∧
      (deferred p).Perm (s.chan p).deferred.deferredMessages.values

instance (s : State) (inFlight : ChannelPtr → List MsgPtr) (deferred : ChannelPtr → List ItemPtr) :
    Decidable (s.Orders inFlight deferred) :=
  inferInstanceAs (Decidable (∀ p ∈ s.topic.channels.values, _))

/-- `Topic.Close`, once the pump has come to rest, and a new topic over the same disk. -/
def reopen (s : State) (inFlight : ChannelPtr → List MsgPtr)
    (deferred : ChannelPtr → List ItemPtr) :
    Option State :=
  match s.topic.pump with
  | .putting _ _ => none
  | .waiting | .loading | .selecting =>
    if s.Orders inFlight deferred then
      let flushed := Channel.writeAll s.topic.backend s.topic.memoryMsgChan
      some
        { s with
          topic := { Pump.newTopic flushed with nextChannel := s.topic.nextChannel }
          disk := fun name =>
            match s.topic.channels.lookup name with
            | some p => ((s.chan p).exit false (inFlight p) (deferred p)).2.backend
            | none => s.disk name
          taken := fun _ => [] }
    else none

end State

def step (opts : ChannelOptions) (s : State) : Act → Option State
  | .wait d => some { s with now := s.now + d }
  | .publish m => if m.id ∈ s.issued ∨ m.deferred < 0 then none else some (s.publish opts m)
  | .start => some { s with topic := s.topic.start }
  | .setPaused paused => some { s with topic := s.topic.setPaused paused }
  | .receiveUpdate => s.topic.receiveUpdate.map fun t => { s with topic := t }
  | .receivePause => s.topic.receivePause.map fun t => { s with topic := t }
  | .newChannel name => s.newChannel opts name
  | .deleteChannel name => s.deleteChannel name
  | .pump a => s.pump a
  | .channel p op => s.channel p op
  | .reopen inFlight deferred => s.reopen inFlight deferred

/-! ### What the deferral promises -/

/-- The message is deferred, and its time is still to come. -/
def State.Early (s : State) (id : MessageID) : Prop := ∃ due, (id, due) ∈ s.published ∧ s.now < due

/-- No channel has a message available, or left on its disk, whose time is still to come. -/
structure Withheld (s : State) : Prop where
  channels : ∀ p, s.Live p → ∀ id, s.Early id → id ∉ (s.chan p).view.available
  disks : ∀ name id, s.Early id → id ∉ Channel.idsOf (s.disk name).records

/-- The first scan that comes at or after the deadline makes the message available once. -/
def ScannedOnce (s : State) (a : Act) (s' : State) : Prop :=
  ∀ p t, a = .channel p (.processDeferredQueue t) → ∀ x ∈ s.taken p, x.2 ≤ t →
    (s'.chan p).view.available.count x.1 = (s.chan p).view.available.count x.1 + 1 ∧
      ∀ pri, (x.1, pri) ∉ (s'.chan p).view.waiting

/-- **The deferral is honoured** by an act. -/
def Honoured (opts : ChannelOptions) (s : State) (a : Act) : Prop :=
  ∀ s' ∈ step opts s a, Withheld s' ∧ ScannedOnce s a s'

/-- The message that the pump takes from the backend of the topic is not deferred any more. -/
def State.BackendIsDue (s : State) : Prop :=
  ∀ b backend, s.topic.backend.read = some (b, backend) → ∀ m, decodeMessage b = .ok m →
    ¬ s.Early m.id

/-- No channel of the topic holds a message back whose time is still to come. -/
def State.ChannelsAreDue (s : State) : Prop :=
  ∀ p, s.Live p → ∀ x ∈ (s.chan p).view.waiting, ¬ s.Early x.1

/-- The condition for an act. -/
def Careful (s : State) : Act → Prop
  | .pump .takeBackend => s.BackendIsDue
  | .reopen _ _ => s.ChannelsAreDue
  | .channel p (.processDeferredQueue t) => (s.chan p).Stores ((s.chan p).dueDeferred t)
  | _ => True

/-! ### The invariant -/

namespace State

/-- The IDs in the queues of the topic. -/
def queued (s : State) : List MessageID :=
  s.topic.memoryMsgChan.map Message.id ++ Channel.idsOf s.topic.backend.records

/-- A channel with this view has only late deadlines for early messages, and has them nowhere
else. -/
def HeldBack (s : State) (v : Channel.View) : Prop :=
  ∀ id due, (id, due) ∈ s.published → s.now < due →
    id ∉ v.available ∧ id ∉ v.flying ∧ ∀ pri, (id, pri) ∈ v.waiting → due ≤ pri

/-- The deferral of a message that no channel has yet is long enough. -/
def LongEnough (s : State) (m : Message) : Prop :=
  ∀ due, (m.id, due) ∈ s.published → due ≤ s.now + m.deferred

end State

/-- The objects: sound channels that are open, and pointers that are all different. -/
structure Shape (s : State) : Prop where
  sound : ∀ p, Channel.Sound (s.chan p)
  opened : ∀ p, s.Live p → (s.chan p).exitFlag = 0
  live : s.topic.channels.values.Nodup
  liveLt : ∀ p, s.Live p → p < s.topic.nextChannel
  chans : s.topic.chans.Nodup
  chansLt : ∀ p ∈ s.topic.chans, p < s.topic.nextChannel
  records : ∀ b ∈ s.topic.backend.records, ∃ m : Message, b = m.writeTo
  disks : ∀ name, ∀ b ∈ (s.disk name).records, ∃ m : Message, b = m.writeTo

/-- The message in the hands of the pump: the channels in `todo` do not have it. -/
structure InHand (s : State) (m : Message) (todo : List ChannelPtr) : Prop where
  long : s.LongEnough m
  nodup : todo.Nodup
  lt : ∀ p ∈ todo, p < s.topic.nextChannel
  notQueued : m.id ∉ s.queued
  unseen : ∀ p ∈ todo, ¬ (s.chan p).view.Holds m.id
  issued : m.id ∈ s.issued

/-- **The invariant.** Early messages are held back wherever they are, and no message is in two
places. -/
structure Inv (s : State) : Prop where
  shape : Shape s
  heldBack : ∀ p, s.HeldBack (s.chan p).view
  disks : ∀ name id, s.Early id → id ∉ Channel.idsOf (s.disk name).records
  memory : ∀ m ∈ s.topic.memoryMsgChan, s.LongEnough m
  hand : ∀ take todo, s.topic.pump = .putting take todo → InHand s take.moment.msg todo
  nodup : s.queued.Nodup
  unseen : ∀ id ∈ s.queued, ∀ p, ¬ (s.chan p).view.Holds id
  notOnDisk : ∀ id ∈ s.queued, ∀ name, id ∉ Channel.idsOf (s.disk name).records
  queuedIssued : ∀ id ∈ s.queued, id ∈ s.issued
  heldIssued : ∀ p id, (s.chan p).view.Holds id → id ∈ s.issued
  diskIssued : ∀ name, ∀ id ∈ Channel.idsOf (s.disk name).records, id ∈ s.issued
  publishedIssued : ∀ x ∈ s.published, x.1 ∈ s.issued
  taken : ∀ p, ∀ x ∈ s.taken p, x ∈ (s.chan p).view.waiting

variable {opts : ChannelOptions} {s s' : State} {p : ChannelPtr}

theorem Inv.withheld (h : Inv s) : Withheld s where
  channels p _ id := by
    rintro ⟨due, hpub, hlt⟩
    exact (h.heldBack p id due hpub hlt).1
  disks := h.disks

theorem newChannel_view (opts : ChannelOptions) (q : BackendQueue) :
    (newChannel opts q ∅).view = ⟨(Channel.idsOf q.records : Multiset MessageID), 0, 0⟩ := by
  simp [Channel.view, newChannel, Slice.new]

theorem newChannel_sound (opts : ChannelOptions) {q : BackendQueue}
    (hq : ∀ b ∈ q.records, ∃ m : Message, b = m.writeTo) : Channel.Sound (newChannel opts q ∅) where
  inFlight := Tracks.nil _
  deferred := Tracks.nil _
  nodup := List.nodup_nil
  fresh p hp := by cases hp
  freshItems i hi := by cases hi
  stored := hq

/-! ### Channels -/

/-- What an operation moves, early messages are not among it. -/
theorem heldBack_moves {v v' : Channel.View} {due : ℤ → Prop} (h : s.HeldBack v)
    (hdue : ∀ pri, due pri → pri ≤ s.now) (hm : Channel.View.Moves due v v') : s.HeldBack v' := by
  intro id d hpub hlt
  obtain ⟨ha, hf, hw⟩ := h id d hpub hlt
  have hnot : ¬ Channel.View.Reached due v id := by
    rintro (hid | hid | ⟨pri, hpri, hid⟩)
    · exact ha hid
    · exact hf hid
    · have h1 := hdue pri hpri
      have h2 := hw pri hid
      omega
  refine ⟨fun hid => hnot (hm.available id hid), fun hid => hnot (hm.flying id hid), ?_⟩
  intro pri hid
  rcases hm.waiting _ hid with hid | hid
  · exact hw pri hid
  · exact absurd hid hnot

/-- What holds of every channel and of the new one holds after the change. -/
theorem forall_update {P : ChannelPtr → Channel → Prop} {f : ChannelPtr → Channel} {c : Channel}
    (hf : ∀ q, q ≠ p → P q (f q)) (hc : P p c) : ∀ q, P q (Function.update f p c q) := by
  intro q
  by_cases hq : q = p
  · subst hq
    rw [Function.update_self]
    exact hc
  · rw [Function.update_of_ne hq]
    exact hf q hq

theorem Shape.setChan (h : Shape s) {c : Channel} (hs : Channel.Sound c)
    (hopen : s.Live p → c.exitFlag = 0) : Shape (s.setChan p c) :=
  { h with
    sound := forall_update (P := fun _ c => Channel.Sound c) (fun q _ => h.sound q) hs
    opened :=
      forall_update (P := fun q c => s.Live q → c.exitFlag = 0) (fun q _ => h.opened q) hopen }

/-- What was taken still waits, when one channel and what was taken from it change together. -/
theorem taken_update {c : Channel} {l : List (MessageID × ℤ)}
    (h : ∀ q, ∀ x ∈ s.taken q, x ∈ (s.chan q).view.waiting) (hl : ∀ x ∈ l, x ∈ c.view.waiting) :
    ∀ q, ∀ x ∈ Function.update s.taken p l q, x ∈ (Function.update s.chan p c q).view.waiting := by
  intro q x hx
  by_cases hq : q = p
  · subst hq
    simp only [Function.update_self] at hx ⊢
    exact hl x hx
  · simp only [Function.update_of_ne hq] at hx ⊢
    exact h q x hx

/-- One channel changes, and gets nothing new. -/
theorem Inv.setChan (h : Inv s) {c : Channel} {l : List (MessageID × ℤ)} (hs : Channel.Sound c)
    (hopen : s.Live p → c.exitFlag = 0) (hheld : s.HeldBack c.view)
    (hholds : ∀ id, c.view.Holds id → (s.chan p).view.Holds id)
    (htaken : ∀ x ∈ l, x ∈ c.view.waiting) :
    Inv { s.setChan p c with taken := Function.update s.taken p l } := by
  have hview : ∀ q id, (Function.update s.chan p c q).view.Holds id → (s.chan q).view.Holds id :=
    forall_update (P := fun q c => ∀ id, c.view.Holds id → (s.chan q).view.Holds id)
      (fun _ _ _ hid => hid) hholds
  refine { h with
    shape := ?_, heldBack := ?_, hand := ?_, unseen := ?_, heldIssued := ?_, taken := ?_ }
  · exact { h.shape.setChan hs hopen with }
  · exact forall_update (P := fun _ c => s.HeldBack c.view) (fun q _ => h.heldBack q) hheld
  · intro take todo hpump
    have hhand := h.hand take todo hpump
    exact { hhand with unseen := fun q hq hid => hhand.unseen q hq (hview q _ hid) }
  · intro id hid q hq
    exact h.unseen id hid q (hview q id hq)
  · intro q id hid
    exact h.heldIssued q id (hview q id hid)
  · exact taken_update h.taken htaken

theorem Inv.channel (h : Inv s) {op : Channel.Op} (hs : s.channel p op = some s') : Inv s' := by
  unfold State.channel at hs
  obtain ⟨⟨hlive, htime⟩, hs⟩ := Option.ite_none_right_eq_some.mp hs
  obtain ⟨r, hr, rfl⟩ := Option.map_eq_some_iff.mp hs
  have hsound := h.shape.sound p
  obtain ⟨r', hr', hsound'⟩ := hsound.step op
  rw [hr] at hr'
  cases hr'
  have hflag : r.2.exitFlag = (s.chan p).exitFlag :=
    congrArg Prod.fst (Channel.step_settings _ op hr)
  have hopen : s.Live p → r.2.exitFlag = 0 := by
    intro hlive
    rw [hflag]
    exact h.shape.opened p hlive
  cases hop : op.inside with
  | true =>
      have hm := hsound.step_moves hop hr
      refine h.setChan hsound' hopen (heldBack_moves (h.heldBack p) ?_ hm) (fun id => hm.holds) ?_
      · intro pri hpri
        cases op with
        | processDeferredQueue t =>
            have ht : t ≤ s.now := htime
            have hle : pri ≤ t := hpri
            omega
        | putMessage | putMessageDeferred | deliverMemory | deliverBackend | touchMessage
          | finishMessage | requeueMessage | processInFlightQueue | empty => exact hpri.elim
      · intro x hx
        have hkept : x ∈ s.taken p ∧ ¬ op.due x.2 := by
          cases op with
          | processDeferredQueue t =>
              obtain ⟨hx, hnot⟩ := List.mem_filter.mp hx
              have hnot : ¬ x.2 ≤ t := of_decide_eq_true hnot
              exact ⟨hx, hnot⟩
          | empty => cases hop
          | putMessage | putMessageDeferred | deliverMemory | deliverBackend | touchMessage
            | finishMessage | requeueMessage | processInFlightQueue => exact ⟨hx, id⟩
        exact hm.kept x (h.taken p x hkept.1) hkept.2
  | false =>
      cases op with
      | empty =>
          cases hr
          refine h.setChan hsound' hopen ?_ ?_ ?_
          · intro id due _ _
            simp [Channel.empty_view]
          · intro id hid
            simp [Channel.empty_view, Channel.View.Holds] at hid
          · intro x hx
            cases hx
      | putMessage | putMessageDeferred => exact htime.elim
      | deliverMemory | deliverBackend | touchMessage | finishMessage | requeueMessage
        | processInFlightQueue | processDeferredQueue => cases hop

/-- **A scan.** -/
theorem Inv.scannedOnce (h : Inv s) {a : Act} (hc : Careful s a) (hs : step opts s a = some s') :
    ScannedOnce s a s' := by
  rintro p t rfl x hx hdue
  have hs : s.channel p (.processDeferredQueue t) = some s' := hs
  unfold State.channel at hs
  obtain ⟨⟨hlive, -⟩, hs⟩ := Option.ite_none_right_eq_some.mp hs
  obtain ⟨r, hr, rfl⟩ := Option.map_eq_some_iff.mp hs
  have hopen := h.shape.opened p hlive
  have hsound := h.shape.sound p
  have hview : r.2.view = (s.chan p).view.release t := by
    cases hr
    show ((s.chan p).processDeferredQueue t).2.view = _
    rw [Channel.processDeferredQueue, if_neg (by simp [Channel.exiting, hopen])]
    exact hsound.scanDeferred_view t false hc
  have hchan : ({ s.setChan p r.2 with
      taken := Function.update s.taken p (State.leftAfter (.processDeferredQueue t) (s.taken p)) } :
      State).chan p = r.2 := Function.update_self _ _ _
  rw [hchan, hview]
  exact hsound.release_count (h.taken p x hx) hdue

/-! ### The pump -/

/-- Another topic object with the same channels. -/
theorem Shape.setTopic (h : Shape s) {t : Topic} (hchannels : t.channels = s.topic.channels)
    (hnext : t.nextChannel = s.topic.nextChannel) (hchans : t.chans.Nodup)
    (hlt : ∀ p ∈ t.chans, p < s.topic.nextChannel)
    (hrecords : ∀ b ∈ t.backend.records, ∃ m : Message, b = m.writeTo) :
    Shape { s with topic := t } where
  sound := h.sound
  opened p hp := by
    have hp : p ∈ t.channels.values := hp
    rw [hchannels] at hp
    exact h.opened p hp
  live := by
    show t.channels.values.Nodup
    rw [hchannels]
    exact h.live
  liveLt p hp := by
    have hp : p ∈ t.channels.values := hp
    rw [hchannels] at hp
    show p < t.nextChannel
    rw [hnext]
    exact h.liveLt p hp
  chans := hchans
  chansLt := by
    show ∀ p ∈ t.chans, p < t.nextChannel
    rw [hnext]
    exact hlt
  records := hrecords
  disks := h.disks

/-- Only the pump's own place has changed. -/
theorem Inv.setTopic (h : Inv s) {t : Topic} (hchannels : t.channels = s.topic.channels)
    (hnext : t.nextChannel = s.topic.nextChannel)
      (hmemory : t.memoryMsgChan = s.topic.memoryMsgChan)
    (hbackend : t.backend = s.topic.backend) (hchans : t.chans.Nodup)
    (hlt : ∀ p ∈ t.chans, p < s.topic.nextChannel)
    (hhand : ∀ take todo, t.pump = .putting take todo → InHand s take.moment.msg todo) :
    Inv { s with topic := t } := by
  have hqueued : State.queued { s with topic := t } = s.queued := by
    simp only [State.queued, hmemory, hbackend]
  refine { h with
    shape := ?_, memory := ?_, hand := ?_, nodup := ?_, unseen := ?_, notOnDisk := ?_,
    queuedIssued := ?_ }
  · refine h.shape.setTopic hchannels hnext hchans hlt ?_
    rw [hbackend]
    exact h.shape.records
  · rw [hmemory]
    exact h.memory
  · intro take todo hpump
    have hin := hhand take todo hpump
    refine ⟨hin.long, hin.nodup, ?_, ?_, hin.unseen, hin.issued⟩
    · rw [hnext]
      exact hin.lt
    · rw [hqueued]
      exact hin.notQueued
  · rw [hqueued]
    exact h.nodup
  · rw [hqueued]
    exact h.unseen
  · rw [hqueued]
    exact h.notOnDisk
  · rw [hqueued]
    exact h.queuedIssued

/-- The pump takes a message out of the queues, in whatever way it finds it there. -/
theorem Inv.take (h : Inv s) {t : Topic} {m : Message} (hchannels : t.channels = s.topic.channels)
    (hnext : t.nextChannel = s.topic.nextChannel) (hchans : t.chans = s.topic.chans)
    (hmemory : ∀ m' ∈ t.memoryMsgChan, m' ∈ s.topic.memoryMsgChan)
    (hrecords : ∀ b ∈ t.backend.records, b ∈ s.topic.backend.records)
    (hqueued : s.queued.Perm (m.id :: State.queued { s with topic := t }))
      (hlong : s.LongEnough m) :
    Inv { s with topic := t.take m false } := by
  have hnodup := hqueued.nodup_iff.mp h.nodup
  obtain ⟨hnot, hrest⟩ := List.nodup_cons.mp hnodup
  have hsub : ∀ id ∈ State.queued { s with topic := t }, id ∈ s.queued := fun id hid =>
    hqueued.mem_iff.mpr (List.mem_cons_of_mem _ hid)
  have hmem : m.id ∈ s.queued := hqueued.mem_iff.mpr List.mem_cons_self
  refine { h with
    shape := ?_, memory := ?_, hand := ?_, nodup := hrest, unseen := ?_, notOnDisk := ?_,
    queuedIssued := ?_ }
  · refine h.shape.setTopic hchannels hnext ?_ ?_ fun b hb => h.shape.records b (hrecords b hb)
    · show t.chans.Nodup
      rw [hchans]
      exact h.shape.chans
    · show ∀ p ∈ t.chans, p < s.topic.nextChannel
      rw [hchans]
      exact h.shape.chansLt
  · exact fun m' hm' => h.memory m' (hmemory m' hm')
  · intro take todo hpump
    have hpump : Pump.PumpPC.putting ⟨⟨m, t.channels, t.paused, false⟩, []⟩ t.chans =
      .putting take todo := hpump
    cases hpump
    refine ⟨hlong, ?_, ?_, hnot, fun p _ => h.unseen m.id hmem p, h.queuedIssued _ hmem⟩
    · rw [hchans]
      exact h.shape.chans
    · show ∀ p ∈ t.chans, p < t.nextChannel
      rw [hchans, hnext]
      exact h.shape.chansLt
  · exact fun id hid => h.unseen id (hsub id hid)
  · exact fun id hid => h.notOnDisk id (hsub id hid)
  · exact fun id hid => h.queuedIssued id (hsub id hid)

/-- The pump has handed its message to the next channel, which holds what it held and the message. -/
theorem Inv.handOver (h : Inv s) {take take' : Pump.Take} {todo : List ChannelPtr}
    (hpump : s.topic.pump = .putting take (p :: todo)) (hmoment : take'.moment = take.moment)
    {c : Channel} {l : List (MessageID × ℤ)} (hs : Channel.Sound c)
    (hopen : s.Live p → c.exitFlag = 0) (hheld : s.HeldBack c.view)
    (hholds : ∀ id, c.view.Holds id → (s.chan p).view.Holds id ∨ id = take.moment.msg.id)
    (htaken : ∀ x ∈ l, x ∈ c.view.waiting) :
    Inv { State.setChan { s with topic := { s.topic with pump := .putting take' todo } } p c with
      taken := Function.update s.taken p l } := by
  have hin := h.hand take (p :: todo) hpump
  obtain ⟨hp, htodo⟩ := List.nodup_cons.mp hin.nodup
  have hview : ∀ q id, (Function.update s.chan p c q).view.Holds id →
      (s.chan q).view.Holds id ∨ q = p ∧ id = take.moment.msg.id :=
    forall_update (P := fun q c => ∀ id, c.view.Holds id →
        (s.chan q).view.Holds id ∨ q = p ∧ id = take.moment.msg.id)
      (fun _ _ _ hid => .inl hid) (fun id hid => (hholds id hid).imp_right fun h => ⟨rfl, h⟩)
  refine ⟨?_, ?_, h.disks, h.memory, ?_, h.nodup, ?_, h.notOnDisk, h.queuedIssued, ?_,
    h.diskIssued, h.publishedIssued, ?_⟩
  · exact { h.shape.setChan hs hopen with }
  · exact forall_update (P := fun _ c => s.HeldBack c.view) (fun q _ => h.heldBack q) hheld
  · intro take'' todo' hpump'
    have hpump' : Pump.PumpPC.putting take' todo = .putting take'' todo' := hpump'
    cases hpump'
    rw [hmoment]
    refine ⟨hin.long, htodo, fun q hq => hin.lt q (List.mem_cons_of_mem _ hq), hin.notQueued, ?_,
      hin.issued⟩
    intro q hq hid
    rcases hview q _ hid with hid | ⟨rfl, -⟩
    · exact hin.unseen q (List.mem_cons_of_mem _ hq) hid
    · exact hp hq
  · intro id hid q hq
    rcases hview q id hq with hq | ⟨-, rfl⟩
    · exact h.unseen id hid q hq
    · exact hin.notQueued hid
  · intro q id hq
    rcases hview q id hq with hq | ⟨-, rfl⟩
    · exact h.heldIssued q id hq
    · exact hin.issued
  · exact taken_update h.taken htaken

namespace State.HeldBack

variable {v : Channel.View} {id : MessageID}

/-- A message that waits for long enough. -/
theorem addWaiting (h : s.HeldBack v) {pri : ℤ} (hlong : ∀ due, (id, due) ∈ s.published → due ≤ pri) :
    s.HeldBack (v.addWaiting (id, pri)) := by
  intro id' due hpub hlt
  obtain ⟨ha, hf, hw⟩ := h id' due hpub hlt
  refine ⟨ha, hf, ?_⟩
  intro pri' hpri
  rcases Channel.View.mem_addWaiting.mp hpri with heq | hpri
  · cases heq
    exact hlong due hpub
  · exact hw pri' hpri

/-- A message that is not early. -/
theorem addAvailable (h : s.HeldBack v) (hnot : ¬ s.Early id) : s.HeldBack (v.addAvailable id) := by
  intro id' due hpub hlt
  obtain ⟨ha, hf, hw⟩ := h id' due hpub hlt
  refine ⟨?_, hf, hw⟩
  intro hid
  rcases Channel.View.mem_addAvailable.mp hid with rfl | hid
  · exact hnot ⟨due, hpub, hlt⟩
  · exact ha hid

end State.HeldBack

theorem holds_addWaiting {v : Channel.View} {id : MessageID} {x : MessageID × ℤ}
    (h : (v.addWaiting x).Holds id) : v.Holds id ∨ id = x.1 := by
  rcases h with hid | hid | ⟨pri, hid⟩
  · exact .inl (.inl hid)
  · exact .inl (.inr (.inl hid))
  · rcases Channel.View.mem_addWaiting.mp hid with rfl | hid
    · exact .inr rfl
    · exact .inl (.inr (.inr ⟨pri, hid⟩))

theorem holds_addAvailable {v : Channel.View} {id x : MessageID} (h : (v.addAvailable x).Holds id) :
    v.Holds id ∨ id = x := by
  rcases h with hid | hid
  · rcases Channel.View.mem_addAvailable.mp hid with rfl | hid
    · exact .inr rfl
    · exact .inl (.inl hid)
  · exact .inl (.inr hid)

/-- The pump hands its message to the next channel. -/
theorem Inv.deliver (h : Inv s) {take : Pump.Take} {todo : List ChannelPtr} {t : Topic}
    {m : Message}
    (hpump : s.topic.pump = .putting take (p :: todo)) (hid : m.id = take.moment.msg.id)
    (hdeferred : m.deferred = take.moment.msg.deferred)
    (ht : ∃ take', take'.moment = take.moment ∧
      t = { s.topic with pump := .putting take' todo }) :
    Inv (State.deliver { s with topic := t } p m) := by
  obtain ⟨take', hmoment, rfl⟩ := ht
  have hin := h.hand take (p :: todo) hpump
  have hlong : ∀ due, (m.id, due) ∈ s.published → due ≤ s.now + m.deferred := by
    rw [hid, hdeferred]
    exact hin.long
  have hsound := h.shape.sound p
  have hunseen : ¬ (s.chan p).view.Holds m.id := by
    rw [hid]
    exact hin.unseen p List.mem_cons_self
  unfold State.deliver
  split
  · have hview := (hsound.putMessageDeferred_view m m.deferred s.now).resolve_right
      fun hdup => hunseen (.inr (.inr hdup.1))
    refine h.handOver hpump hmoment (hsound.putMessageDeferred m m.deferred s.now).1
      (h.shape.opened p) ?_ ?_ ?_
    · rw [hview]
      exact (h.heldBack p).addWaiting hlong
    · rw [hview, ← hid]
      exact fun id hold => holds_addWaiting hold
    · rw [hview]
      intro x hx
      rcases List.mem_cons.mp hx with rfl | hx
      · exact Channel.View.mem_addWaiting.mpr (.inl rfl)
      · exact Channel.View.mem_addWaiting.mpr (.inr (h.taken p x hx))
  · rename_i hzero
    have hzero : m.deferred = 0 := not_not.mp hzero
    have hnot : ¬ s.Early m.id := by
      rintro ⟨due, hpub, hlt⟩
      have hle := hlong due hpub
      omega
    have hflag : (((s.chan p).alloc m).putMessage (s.chan p).nextMsg).2.exitFlag =
        (s.chan p).exitFlag :=
      congrArg Prod.fst (Channel.putMessage_settings ((s.chan p).alloc m) _)
    have hdone := h.handOver hpump hmoment (hsound.putMessage m).1
      (fun hlive => hflag.trans (h.shape.opened p hlive)) (l := s.taken p) ?_ ?_ ?_
    · rw [Function.update_eq_self p s.taken] at hdone
      exact hdone
    · rcases hsound.putMessage_view m with hview | hview
      · rw [hview]
        exact h.heldBack p
      · rw [hview]
        exact (h.heldBack p).addAvailable hnot
    · rcases hsound.putMessage_view m with hview | hview
      · rw [hview]
        exact fun id hold => .inl hold
      · rw [hview, ← hid]
        exact fun id hold => holds_addAvailable hold
    · intro x hx
      have hx := h.taken p x hx
      rcases hsound.putMessage_view m with hview | hview
      · rw [hview]
        exact hx
      · rw [hview]
        exact hx

theorem chanMsg_id (take : Pump.Take) : (State.chanMsg take).id = take.moment.msg.id := by
  unfold State.chanMsg
  split <;> rfl

theorem chanMsg_deferred (take : Pump.Take) :
    (State.chanMsg take).deferred = take.moment.msg.deferred := by
  unfold State.chanMsg
  split <;> rfl

/-- **A step of the pump**, which takes no early message from the backend. -/
theorem Inv.pump (h : Inv s) {a : PumpAct} (hc : Careful s (.pump a)) (hs : s.pump a = some s') :
    Inv s' := by
  obtain ⟨t, ht, rfl⟩ := Option.map_eq_some_iff.mp hs
  cases a with
  | start =>
      simp only [Topic.pumpStep] at ht
      split at ht
      · obtain ⟨-, ht⟩ := Option.ite_none_right_eq_some.mp ht
        cases ht
        exact h.setTopic rfl rfl rfl rfl h.shape.chans h.shape.chansLt fun _ _ heq => by cases heq
      · cases ht
  | load order =>
      simp only [Topic.pumpStep] at ht
      split at ht
      · obtain ⟨hperm, ht⟩ := Option.ite_none_right_eq_some.mp ht
        cases ht
        refine h.setTopic rfl rfl rfl rfl ?_ ?_ fun _ _ heq => by cases heq
        · exact hperm.nodup_iff.mpr h.shape.live
        · exact fun p hp => h.shape.liveLt p (hperm.mem_iff.mp hp)
      · cases ht
  | takeMemory =>
      simp only [Topic.pumpStep] at ht
      split at ht
      · rename_i m rest hpump hm
        obtain ⟨-, ht⟩ := Option.ite_none_right_eq_some.mp ht
        cases ht
        have hmem : m ∈ s.topic.memoryMsgChan := by simp [hm]
        refine h.take (t := { s.topic with memoryMsgChan := rest }) rfl rfl rfl ?_
          (fun _ hb => hb) ?_
          (h.memory m hmem)
        · intro m' hm'
          rw [hm]
          exact List.mem_cons_of_mem _ hm'
        · rw [State.queued, hm]
          exact List.Perm.refl _
      · cases ht
  | takeBackend =>
      simp only [Topic.pumpStep] at ht
      split at ht
      · rename_i b backend hpump hb
        obtain ⟨-, ht⟩ := Option.ite_none_right_eq_some.mp ht
        have hread := hb
        unfold BackendQueue.read at hb
        split at hb
        · rename_i data rest hrecords
          cases hb
          obtain ⟨m, rfl⟩ := h.shape.records b (by rw [hrecords]; exact List.mem_cons_self)
          rw [decodeMessage_writeTo] at ht
          cases ht
          have hnot : ¬ s.Early m.stored.id := hc _ _ hread m.stored (decodeMessage_writeTo m)
          have hids : Channel.idsOf s.topic.backend.records =
            m.stored.id :: Channel.idsOf rest := by
            rw [hrecords, ← List.singleton_append, Channel.idsOf_append, Channel.idsOf_writeTo]
            rfl
          refine h.take (t := { s.topic with backend := { s.topic.backend with records := rest } })
            rfl rfl rfl (fun _ hm => hm) ?_ ?_ ?_
          · intro b hb
            rw [hrecords]
            exact List.mem_cons_of_mem _ hb
          · rw [State.queued, hids]
            exact List.perm_middle
          · intro due hpub
            have hle : ¬ s.now < due := fun hlt => hnot ⟨due, hpub, hlt⟩
            have hzero : m.stored.deferred = 0 := rfl
            omega
        · cases hb
      · cases ht
  | put now =>
      simp only [Topic.pumpStep] at ht
      split at ht
      · rename_i take p todo hpump
        cases ht
        simp only [hpump]
        exact h.deliver hpump (chanMsg_id take) (chanMsg_deferred take)
          ⟨{ take with puts := take.puts ++ [(p, _)] }, rfl, rfl⟩
      · rename_i take hpump
        cases ht
        simp only [hpump]
        exact h.setTopic rfl rfl rfl rfl h.shape.chans h.shape.chansLt fun _ _ heq => by cases heq
      · cases ht

/-! ### Publishing -/

/-- What a put into the topic leaves: the message is in memory, in the backend, or nowhere. -/
theorem put_cases (opts : ChannelOptions) (s : State) (m : Message) :
    s.topic.put opts.memQueueSize m =
      { s.topic with memoryMsgChan := s.topic.memoryMsgChan ++ [m] } ∨
      ∃ q : BackendQueue, s.topic.put opts.memQueueSize m = { s.topic with backend := q } ∧
        (q.records = s.topic.backend.records ∨
          q.records = s.topic.backend.records ++ [m.writeTo]) := by
  unfold Topic.put
  split
  · exact .inl rfl
  · refine .inr ⟨_, rfl, ?_⟩
    rw [writeMessageToBackend]
    rcases Channel.backend_put_cases s.topic.backend m.writeTo with
      ⟨_, hb⟩ | ⟨_, _, hb⟩ | ⟨_, err, _, hb⟩
    · exact .inl (by rw [hb])
    · exact .inr (by rw [hb])
    · exact .inl (by rw [hb])

section Publish

variable {m : Message}

/-- What a publisher adds to the deferred messages. -/
theorem published_cases {x : MessageID × ℤ} (hx : x ∈ (s.publish opts m).published) :
    x ∈ s.published ∨ x = (m.id, s.now + m.deferred) := by
  unfold State.publish at hx
  simp only at hx
  split at hx
  · exact (List.mem_cons.mp hx).symm
  · exact .inl hx

/-- A new message makes no difference to an ID that is issued. -/
theorem published_of_issued (hnew : m.id ∉ s.issued) {id : MessageID} {due : ℤ} (hid : id ∈ s.issued)
    (hx : (id, due) ∈ (s.publish opts m).published) : (id, due) ∈ s.published := by
  rcases published_cases hx with hx | hx
  · exact hx
  · cases hx
    exact absurd hid hnew

theorem issued_publish {id : MessageID} (hid : id ∈ s.issued) : id ∈ (s.publish opts m).issued :=
  List.mem_cons_of_mem _ hid

theorem longEnough_publish (hnew : m.id ∉ s.issued) {m' : Message} (hid : m'.id ∈ s.issued)
    (h : s.LongEnough m') : (s.publish opts m).LongEnough m' :=
  fun due hx => h due (published_of_issued hnew hid hx)

theorem Inv.longEnough_new (h : Inv s) (hnew : m.id ∉ s.issued) :
    (s.publish opts m).LongEnough m := by
  intro due hx
  rcases published_cases hx with hx | hx
  · exact absurd (h.publishedIssued _ hx) hnew
  · cases hx
    exact le_refl _

theorem Inv.heldBack_publish (h : Inv s) (hnew : m.id ∉ s.issued) (p : ChannelPtr) :
    (s.publish opts m).HeldBack (s.chan p).view := by
  intro id due hx hlt
  rcases published_cases hx with hx | hx
  · exact h.heldBack p id due hx hlt
  · cases hx
    have hnot : ¬ (s.chan p).view.Holds m.id := fun hid => hnew (h.heldIssued p _ hid)
    exact ⟨fun hid => hnot (.inl hid), fun hid => hnot (.inr (.inl hid)),
      fun pri hid => absurd (.inr (.inr ⟨pri, hid⟩)) hnot⟩

theorem Inv.disks_publish (h : Inv s) (hnew : m.id ∉ s.issued) (name : String) (id : MessageID)
    (hearly : (s.publish opts m).Early id) : id ∉ Channel.idsOf (s.disk name).records := by
  obtain ⟨due, hx, hlt⟩ := hearly
  intro hid
  exact h.disks name id ⟨due, published_of_issued hnew (h.diskIssued name id hid) hx, hlt⟩ hid

theorem Inv.published_issued (h : Inv s) {x : MessageID × ℤ}
    (hx : x ∈ (s.publish opts m).published) : x.1 ∈ (s.publish opts m).issued := by
  rcases published_cases hx with hx | rfl
  · exact issued_publish (h.publishedIssued x hx)
  · exact List.mem_cons_self

/-- The topic after a put: one queue has the new message at its end, or none has it. -/
structure Queues (s : State) (m : Message) (t : Topic) : Prop where
  channels : t.channels = s.topic.channels
  next : t.nextChannel = s.topic.nextChannel
  chans : t.chans = s.topic.chans
  pump : t.pump = s.topic.pump
  memory : ∀ m' ∈ t.memoryMsgChan, m' ∈ s.topic.memoryMsgChan ∨ m' = m
  records : ∀ b ∈ t.backend.records, b ∈ s.topic.backend.records ∨ b = m.writeTo
  queued : State.queued { s with topic := t } = s.queued ∨
    (State.queued { s with topic := t }).Perm (m.id :: s.queued)

theorem put_queues (opts : ChannelOptions) (s : State) (m : Message) :
    Queues s m (s.topic.put opts.memQueueSize m) := by
  rcases put_cases opts s m with hput | ⟨q, hput, hq⟩
  · rw [hput]
    refine ⟨rfl, rfl, rfl, rfl, ?_, fun b hb => .inl hb, .inr ?_⟩
    · intro m' hm'
      simpa using hm'
    · simp only [State.queued, List.map_append, List.append_assoc, List.map_cons, List.map_nil]
      exact List.perm_middle
  · rw [hput]
    refine ⟨rfl, rfl, rfl, rfl, fun m' hm' => .inl hm', ?_, ?_⟩
    · intro b hb
      rcases hq with hq | hq
      · exact .inl (hq ▸ hb)
      · simpa [hq] using hb
    · rcases hq with hq | hq
      · left
        simp only [State.queued, hq]
      · right
        simp only [State.queued, hq, Channel.idsOf_append, Channel.idsOf_writeTo,
          ← List.append_assoc]
        exact List.perm_append_singleton _ _

theorem Queues.mem {t : Topic} (hq : Queues s m t) {id : MessageID}
    (hid : id ∈ State.queued { s with topic := t }) : id ∈ s.queued ∨ id = m.id := by
  rcases hq.queued with hqueued | hqueued
  · exact .inl (hqueued ▸ hid)
  · exact (List.mem_cons.mp (hqueued.mem_iff.mp hid)).symm

/-- **A new message**, with an ID that nobody has. -/
theorem Inv.publish (h : Inv s) (hnew : m.id ∉ s.issued) : Inv (s.publish opts m) := by
  have hq := put_queues opts s m
  have hshape := h.shape.setTopic hq.channels hq.next (hq.chans ▸ h.shape.chans)
    (hq.chans ▸ h.shape.chansLt) fun b hb => (hq.records b hb).elim (h.shape.records b) fun hb =>
      ⟨m, hb⟩
  refine ⟨⟨hshape.sound, hshape.opened, hshape.live, hshape.liveLt, hshape.chans, hshape.chansLt,
    hshape.records, hshape.disks⟩, h.heldBack_publish hnew, h.disks_publish hnew, ?_, ?_, ?_, ?_, ?_,
    ?_, fun p id hid => issued_publish (h.heldIssued p id hid),
    fun name id hid => issued_publish (h.diskIssued name id hid), fun _ => h.published_issued,
    h.taken⟩
  · intro m' hm'
    rcases hq.memory m' hm' with hm' | rfl
    · have hid : m'.id ∈ s.queued := List.mem_append_left _ (List.mem_map_of_mem hm')
      exact longEnough_publish hnew (h.queuedIssued _ hid) (h.memory m' hm')
    · exact h.longEnough_new hnew
  · intro take todo heq
    have hin := h.hand take todo (hq.pump ▸ heq)
    refine ⟨longEnough_publish hnew hin.issued hin.long, hin.nodup, hq.next ▸ hin.lt, ?_, hin.unseen,
      issued_publish hin.issued⟩
    intro hid
    rcases hq.mem hid with hid | hid
    · exact hin.notQueued hid
    · exact hnew (hid ▸ hin.issued)
  · rcases hq.queued with hqueued | hqueued
    · exact hqueued.symm ▸ h.nodup
    · have hnotQueued : m.id ∉ s.queued := fun hid => hnew (h.queuedIssued _ hid)
      exact hqueued.nodup_iff.mpr (List.nodup_cons.mpr ⟨hnotQueued, h.nodup⟩)
  · intro id hid p hp
    rcases hq.mem hid with hid | rfl
    · exact h.unseen id hid p hp
    · exact hnew (h.heldIssued p _ hp)
  · intro id hid name hname
    rcases hq.mem hid with hid | rfl
    · exact h.notOnDisk id hid name hname
    · exact hnew (h.diskIssued name _ hname)
  · intro id hid
    rcases hq.mem hid with hid | rfl
    · exact issued_publish (h.queuedIssued id hid)
    · exact List.mem_cons_self

end Publish

/-! ### Channels come and go -/

theorem Inv.newChannel (h : Inv s) {name : String} (hs : s.newChannel opts name = some s') :
    Inv s' := by
  unfold State.newChannel at hs
  cases hlook : s.topic.channels.lookup name with
  | some p =>
      rw [hlook] at hs
      cases hs
  | none =>
      rw [hlook] at hs
      cases hs
      obtain ⟨c, hc⟩ : ∃ c, c = Xmq.newChannel opts { s.disk name with closed := false } ∅ :=
        ⟨_, rfl⟩
      have hview : c.view = ⟨(Channel.idsOf (s.disk name).records : Multiset MessageID), 0, 0⟩ := by
        rw [hc, newChannel_view]
      have hholds : ∀ id, c.view.Holds id → id ∈ Channel.idsOf (s.disk name).records := by
        rw [hview]
        rintro id (hid | hid | ⟨pri, hid⟩)
        · exact hid
        · simp at hid
        · simp at hid
      have hsound : Channel.Sound c := hc ▸ newChannel_sound opts (h.shape.disks name)
      have hvalues : (s.topic.newChannel name).channels.values =
          s.topic.nextChannel :: s.topic.channels.values := GoMap.values_insert hlook
      have hfresh : ∀ p, p < s.topic.nextChannel → p ≠ s.topic.nextChannel :=
        fun p hp => Nat.ne_of_lt hp
      rw [← hc]
      refine ⟨⟨?_, ?_, ?_, ?_, h.shape.chans, ?_, h.shape.records, h.shape.disks⟩, ?_, h.disks,
        h.memory,
        ?_, h.nodup, ?_, h.notOnDisk, h.queuedIssued, ?_, h.diskIssued, h.publishedIssued, ?_⟩
      · exact forall_update (P := fun _ c => Channel.Sound c) (fun q _ => h.shape.sound q) hsound
      · intro p hp
        have hp : p ∈ (s.topic.newChannel name).channels.values := hp
        rw [hvalues] at hp
        show (Function.update s.chan s.topic.nextChannel c p).exitFlag = 0
        rcases List.mem_cons.mp hp with rfl | hp
        · rw [Function.update_self, hc]
          rfl
        · rw [Function.update_of_ne (hfresh p (h.shape.liveLt p hp))]
          exact h.shape.opened p hp
      · show (s.topic.newChannel name).channels.values.Nodup
        rw [hvalues]
        refine List.nodup_cons.mpr ⟨fun hmem => ?_, h.shape.live⟩
        exact hfresh _ (h.shape.liveLt _ hmem) rfl
      · intro p hp
        have hp : p ∈ (s.topic.newChannel name).channels.values := hp
        rw [hvalues] at hp
        show p < s.topic.nextChannel + 1
        rcases List.mem_cons.mp hp with rfl | hp
        · exact Nat.lt_succ_self _
        · exact Nat.lt_succ_of_lt (h.shape.liveLt p hp)
      · intro p hp
        exact Nat.lt_succ_of_lt (h.shape.chansLt p hp)
      · refine forall_update (P := fun _ c => s.HeldBack c.view) (fun q _ => h.heldBack q) ?_
        intro id due hpub hlt
        have hnot : id ∉ Channel.idsOf (s.disk name).records := h.disks name id ⟨due, hpub, hlt⟩
        rw [hview]
        exact ⟨hnot, by simp, by simp⟩
      · intro take todo hpump
        have hin := h.hand take todo hpump
        refine ⟨hin.long, hin.nodup, fun p hp => Nat.lt_succ_of_lt (hin.lt p hp), hin.notQueued, ?_,
          hin.issued⟩
        intro p hp
        show ¬ (Function.update s.chan s.topic.nextChannel c p).view.Holds _
        rw [Function.update_of_ne (hfresh p (hin.lt p hp))]
        exact hin.unseen p hp
      · intro id hid
        exact forall_update (P := fun _ c => ¬ c.view.Holds id) (fun q _ => h.unseen id hid q)
          fun hc => h.notOnDisk id hid name (hholds id hc)
      · intro p id
        exact forall_update (P := fun _ c => c.view.Holds id → id ∈ s.issued)
          (fun q _ => h.heldIssued q id) (fun hid => h.diskIssued name id (hholds id hid)) p
      · intro p x hx
        show x ∈ (Function.update s.chan s.topic.nextChannel c p).view.waiting
        by_cases hp : p = s.topic.nextChannel
        · subst hp
          simp only [Function.update_self] at hx
          cases hx
        · simp only [Function.update_of_ne hp] at hx ⊢
          exact h.taken p x hx

/-- A deleted channel has nothing. -/
theorem exit_deleted {c : Channel} (h : c.exitFlag = 0) :
    (c.exit true [] []).2.view = ⟨0, 0, 0⟩ := by
  rw [Channel.exit, if_neg (by rw [h]; decide)]
  rfl

theorem Inv.deleteChannel (h : Inv s) {name : String} (hs : s.deleteChannel name = some s') :
    Inv s' := by
  unfold State.deleteChannel at hs
  cases hlook : s.topic.channels.lookup name with
  | none =>
      rw [hlook] at hs
      cases hs
  | some p =>
      rw [hlook] at hs
      cases hs
      have hlive : s.Live p := GoMap.mem_values.mpr ⟨name, hlook⟩
      have hview := exit_deleted (h.shape.opened p hlive)
      obtain ⟨c, hc⟩ : ∃ c, c = ((s.chan p).exit true [] []).2 := ⟨_, rfl⟩
      rw [← hc] at hview ⊢
      have hsound : Channel.Sound c := hc ▸ (h.shape.sound p).exit true [] []
      have hnone : ∀ id, ¬ c.view.Holds id := by
        rw [hview]
        rintro id (hid | hid | ⟨pri, hid⟩) <;> simp at hid
      have hvalues : s.topic.channels.values.Perm
          (p :: (s.topic.deleteChannel name).channels.values) := GoMap.values_erase hlook
      have hsub : ∀ q ∈ (s.topic.deleteChannel name).channels.values, s.Live q ∧ q ≠ p := by
        intro q hq
        refine ⟨hvalues.mem_iff.mpr (List.mem_cons_of_mem _ hq), fun e => ?_⟩
        exact (List.nodup_cons.mp (hvalues.nodup_iff.mp h.shape.live)).1 (e ▸ hq)
      have hdisk : ∀ n, ∀ id ∈ Channel.idsOf (Function.update s.disk name
          { c.backend with records := [], deleted := false } n).records,
          id ∈ Channel.idsOf (s.disk n).records := by
        intro n id hid
        by_cases hn : n = name
        · subst hn
          simp [Channel.idsOf] at hid
        · rwa [Function.update_of_ne hn] at hid
      refine ⟨⟨?_, ?_, ?_, ?_, h.shape.chans, h.shape.chansLt, h.shape.records, ?_⟩, ?_, ?_,
        h.memory,
        ?_, h.nodup, ?_, ?_, h.queuedIssued, ?_, ?_, h.publishedIssued, ?_⟩
      · exact forall_update (P := fun _ c => Channel.Sound c) (fun q _ => h.shape.sound q) hsound
      · intro q hq
        obtain ⟨hq, hne⟩ := hsub q hq
        show (Function.update s.chan p c q).exitFlag = 0
        rw [Function.update_of_ne hne]
        exact h.shape.opened q hq
      · exact (List.nodup_cons.mp (hvalues.nodup_iff.mp h.shape.live)).2
      · exact fun q hq => h.shape.liveLt q (hsub q hq).1
      · intro n b hb
        by_cases hn : n = name
        · subst hn
          simp at hb
        · simp only [Function.update_of_ne hn] at hb
          exact h.shape.disks n b hb
      · refine forall_update (P := fun _ c => s.HeldBack c.view) (fun q _ => h.heldBack q) ?_
        rw [hview]
        exact fun id due _ _ => ⟨by simp, by simp, by simp⟩
      · exact fun n id hearly hid => h.disks n id hearly (hdisk n id hid)
      · intro take todo hpump
        have hin := h.hand take todo hpump
        refine ⟨hin.long, hin.nodup, hin.lt, hin.notQueued, fun q hq => ?_, hin.issued⟩
        exact forall_update (P := fun q c => q ∈ todo → ¬ c.view.Holds take.moment.msg.id)
          (fun q _ => hin.unseen q) (fun _ => hnone _) q hq
      · exact fun id hid => forall_update (P := fun _ c => ¬ c.view.Holds id)
          (fun q _ => h.unseen id hid q) (hnone id)
      · exact fun id hid n hn => h.notOnDisk id hid n (hdisk n id hn)
      · exact fun q id => forall_update (P := fun _ c => c.view.Holds id → id ∈ s.issued)
          (fun q _ => h.heldIssued q id) (fun hid => absurd hid (hnone id)) q
      · exact fun n id hid => h.diskIssued n id (hdisk n id hid)
      · intro q x hx
        show x ∈ (Function.update s.chan p c q).view.waiting
        by_cases hq : q = p
        · subst hq
          simp only [Function.update_self] at hx
          cases hx
        · simp only [Function.update_of_ne hq] at hx ⊢
          exact h.taken q x hx

/-! ### Closing and opening again -/

/-- A flush adds to the backend, in order, some of the messages. -/
theorem idsOf_writeAll_sublist (ms : List Message) : ∀ q : BackendQueue,
    (Channel.idsOf (Channel.writeAll q ms).records).Sublist
      (Channel.idsOf q.records ++ ms.map Message.id) := by
  induction ms with
  | nil =>
      intro q
      simp [Channel.writeAll]
  | cons m ms ih =>
      intro q
      have hstep := ih (writeMessageToBackend m q).2
      refine List.Sublist.trans hstep ?_
      rw [List.map_cons, ← List.singleton_append, ← List.append_assoc]
      refine List.Sublist.append_right ?_ _
      rcases Channel.backend_put_cases q m.writeTo with ⟨_, hb⟩ | ⟨_, _, hb⟩ | ⟨_, err, _, hb⟩
      · rw [writeMessageToBackend, hb]
        exact List.sublist_append_left _ _
      · rw [writeMessageToBackend, hb, Channel.idsOf_append, Channel.idsOf_writeTo]
      · rw [writeMessageToBackend, hb]
        exact List.sublist_append_left _ _

/-- The state after a restart, with what each channel leaves on its disk. -/
theorem reopen_eq {inFlight : ChannelPtr → List MsgPtr} {deferred : ChannelPtr → List ItemPtr}
    (hs : s.reopen inFlight deferred = some s') :
    s.Orders inFlight deferred ∧ s' =
      { s with
        topic := { Pump.newTopic (Channel.writeAll s.topic.backend s.topic.memoryMsgChan) with
          nextChannel := s.topic.nextChannel }
        disk := fun name =>
          match s.topic.channels.lookup name with
          | some p => ((s.chan p).exit false (inFlight p) (deferred p)).2.backend
          | none => s.disk name
        taken := fun _ => [] } := by
  have hs : (if s.Orders inFlight deferred then
      some
        { s with
          topic := { Pump.newTopic (Channel.writeAll s.topic.backend s.topic.memoryMsgChan) with
            nextChannel := s.topic.nextChannel }
          disk := fun name =>
            match s.topic.channels.lookup name with
            | some p => ((s.chan p).exit false (inFlight p) (deferred p)).2.backend
            | none => s.disk name
          taken := fun _ => [] } else none) = some s' := by
    unfold State.reopen at hs
    split at hs
    · cases hs
    · exact hs
    · exact hs
    · exact hs
  obtain ⟨horders, hs⟩ := Option.ite_none_right_eq_some.mp hs
  exact ⟨horders, (Option.some.inj hs).symm⟩

/-- What a restart finds on the disk of a channel was there, or the channel held it. -/
theorem Inv.disk_reopen (h : Inv s) {inFlight : ChannelPtr → List MsgPtr}
    {deferred : ChannelPtr → List ItemPtr} (horders : s.Orders inFlight deferred) {name : String}
    {id : MessageID} (hid : id ∈ Channel.idsOf (match s.topic.channels.lookup name with
      | some p => ((s.chan p).exit false (inFlight p) (deferred p)).2.backend
      | none => s.disk name).records) :
    id ∈ Channel.idsOf (s.disk name).records ∨
      ∃ p, s.topic.channels.lookup name = some p ∧ (s.chan p).view.Holds id := by
  cases hp : s.topic.channels.lookup name with
  | none =>
      rw [hp] at hid
      exact .inl hid
  | some p =>
      rw [hp] at hid
      have hlive : s.Live p := GoMap.mem_values.mpr ⟨name, hp⟩
      obtain ⟨hin, hdef⟩ := horders p hlive
      have hsound := h.shape.sound p
      refine .inr ⟨p, rfl, Channel.exit_closed_records (s.chan p) ?_ ?_ hid⟩
      · exact fun q hq => hsound.inFlight.values.mem_iff.mp (hin.mem_iff.mp hq)
      · exact fun i hi => hsound.deferred.values.mem_iff.mp (hdef.mem_iff.mp hi)

theorem Inv.reopen (h : Inv s) {inFlight : ChannelPtr → List MsgPtr}
    {deferred : ChannelPtr → List ItemPtr} (hc : s.ChannelsAreDue)
    (hs : s.reopen inFlight deferred = some s') : Inv s' := by
  obtain ⟨horders, rfl⟩ := reopen_eq hs
  have hsub : ∀ id ∈ Channel.idsOf (Channel.writeAll s.topic.backend s.topic.memoryMsgChan).records,
      id ∈ s.queued := by
    intro id hid
    have hid := (idsOf_writeAll_sublist _ _).subset hid
    rw [List.mem_append] at hid
    exact List.mem_append.mpr hid.symm
  refine ⟨⟨h.shape.sound, ?_, List.nodup_nil, ?_, List.nodup_nil, ?_, ?_, ?_⟩, h.heldBack, ?_, ?_,
    ?_, ?_, ?_, ?_, ?_, h.heldIssued, ?_, h.publishedIssued, ?_⟩
  · exact fun p hp => by cases hp
  · exact fun p hp => by cases hp
  · exact fun p hp => by cases hp
  · exact Channel.writeAll_stored h.shape.records _
  · intro name b hb
    simp only at hb
    cases hp : s.topic.channels.lookup name with
    | none =>
        rw [hp] at hb
        exact h.shape.disks name b hb
    | some p =>
        rw [hp] at hb
        exact ((h.shape.sound p).exit false _ _).stored b hb
  · rintro name id ⟨due, hpub, hlt⟩ hid
    rcases h.disk_reopen horders hid with hid | ⟨p, hp, hid⟩
    · exact h.disks name id ⟨due, hpub, hlt⟩ hid
    · obtain ⟨ha, hf, -⟩ := h.heldBack p id due hpub hlt
      rcases hid with hid | hid | ⟨pri, hid⟩
      · exact ha hid
      · exact hf hid
      · exact hc p (GoMap.mem_values.mpr ⟨name, hp⟩) _ hid ⟨due, hpub, hlt⟩
  · exact fun m hm => by cases hm
  · exact fun take todo hpump => by cases hpump
  · refine (idsOf_writeAll_sublist _ _).nodup ?_
    exact List.perm_append_comm.nodup_iff.mp h.nodup
  · exact fun id hid => h.unseen id (hsub id hid)
  · intro id hid name hname
    rcases h.disk_reopen horders hname with hname | ⟨p, -, hp⟩
    · exact h.notOnDisk id (hsub id hid) name hname
    · exact h.unseen id (hsub id hid) p hp
  · exact fun id hid => h.queuedIssued id (hsub id hid)
  · intro name id hid
    rcases h.disk_reopen horders hid with hid | ⟨p, -, hp⟩
    · exact h.diskIssued name id hid
    · exact h.heldIssued p id hp
  · exact fun p x hx => by cases hx

/-! ### Runs -/

theorem init_inv (topicDisk : Bool × (ℕ → GoError)) (disks : String → Bool × (ℕ → GoError)) :
    Inv (init opts topicDisk disks) := by
  have hview : ∀ p, ((init opts topicDisk disks).chan p).view = ⟨0, 0, 0⟩ := by
    intro p
    simp [init, newChannel_view, BackendQueue.diskQueue, Channel.idsOf]
  have hnone : ∀ p id, ¬ ((init opts topicDisk disks).chan p).view.Holds id := by
    intro p id
    rw [hview]
    rintro (hid | hid | ⟨pri, hid⟩) <;> simp at hid
  refine ⟨⟨?_, ?_, List.nodup_nil, ?_, List.nodup_nil, ?_, ?_, ?_⟩, ?_, ?_, ?_, ?_, List.nodup_nil,
    ?_,
    ?_, ?_, ?_, ?_, ?_, ?_⟩
  · exact fun p => newChannel_sound opts fun b hb => by cases hb
  · exact fun p hp => by cases hp
  · exact fun p hp => by cases hp
  · exact fun p hp => by cases hp
  · exact fun b hb => by cases hb
  · exact fun name b hb => by cases hb
  · exact fun p id due hpub => by cases hpub
  · rintro name id ⟨due, hpub, -⟩
    cases hpub
  · exact fun m hm => by cases hm
  · exact fun take todo hpump => by cases hpump
  · exact fun id hid => by cases hid
  · exact fun id hid => by cases hid
  · exact fun id hid => by cases hid
  · exact fun p id hid => absurd hid (hnone p id)
  · exact fun name id hid => by cases hid
  · exact fun x hx => by cases hx
  · exact fun p x hx => by cases hx

/-- Time passes. -/
theorem Inv.wait (h : Inv s) (d : ℕ) : Inv { s with now := s.now + d } := by
  have hlong : ∀ m, s.LongEnough m → State.LongEnough { s with now := s.now + d } m := by
    intro m hl due hpub
    have hle := hl due hpub
    show due ≤ s.now + d + m.deferred
    omega
  have hearly : ∀ id due, (id, due) ∈ s.published → s.now + d < due → s.now < due := by
    intro id due _ hlt
    omega
  refine { h with shape := { h.shape with }, heldBack := ?_, disks := ?_, memory := ?_, hand := ?_ }
  · exact fun p id due hpub hlt => h.heldBack p id due hpub (hearly id due hpub hlt)
  · rintro name id ⟨due, hpub, hlt⟩
    exact h.disks name id ⟨due, hpub, hearly id due hpub hlt⟩
  · exact fun m hm => hlong m (h.memory m hm)
  · intro take todo hpump
    have hin := h.hand take todo hpump
    exact ⟨hlong _ hin.long, hin.nodup, hin.lt, hin.notQueued, hin.unseen, hin.issued⟩

/-- **The step.** -/
theorem step_inv {a : Act} (h : Inv s) (hc : Careful s a)
    (hs : step opts s a = some s') : Inv s' := by
  cases a with
  | wait d =>
      cases hs
      exact h.wait d
  | publish m =>
      obtain ⟨hnew, hs⟩ := Option.ite_none_left_eq_some.mp hs
      cases hs
      exact h.publish fun hid => hnew (.inl hid)
  | start =>
      cases hs
      exact h.setTopic rfl rfl rfl rfl h.shape.chans h.shape.chansLt h.hand
  | setPaused paused =>
      cases hs
      exact h.setTopic rfl rfl rfl rfl h.shape.chans h.shape.chansLt h.hand
  | receiveUpdate =>
      obtain ⟨t, ht, rfl⟩ := Option.map_eq_some_iff.mp hs
      rcases Pump.receiveUpdate_cases ht with ⟨-, rfl⟩ | ⟨-, rfl⟩
      · exact h
      · exact h.setTopic rfl rfl rfl rfl List.nodup_nil (fun p hp => by cases hp)
          fun _ _ heq => by cases heq
  | receivePause =>
      obtain ⟨t, ht, rfl⟩ := Option.map_eq_some_iff.mp hs
      rcases Pump.receivePause_cases ht with ⟨-, rfl⟩ | ⟨-, rfl⟩
      · exact h
      · exact h.setTopic rfl rfl rfl rfl h.shape.chans h.shape.chansLt h.hand
  | newChannel name => exact h.newChannel hs
  | deleteChannel name => exact h.deleteChannel hs
  | pump a => exact h.pump hc hs
  | channel p op => exact h.channel hs
  | reopen inFlight deferred => exact h.reopen hc hs

/-- **Where deferrals are honoured.** In every run in which the pump takes no message from the
backend of the topic before its time, the topic is not closed while a channel holds one back, and
the scans can put what is due. -/
theorem deferrals_honoured (opts : ChannelOptions) (topicDisk : Bool × (ℕ → GoError))
    (disks : String → Bool × (ℕ → GoError)) (acts : List Act)
    (h : Along (step opts) Careful (init opts topicDisk disks) acts) :
    Along (step opts) (Honoured opts) (init opts topicDisk disks) acts := by
  refine along_imp (I := Inv) ?_ ?_ acts _ (init_inv topicDisk disks) h
  · exact fun s a t hi hc ht => step_inv hi hc ht
  · exact fun s a hi hc t ht => ⟨(step_inv hi hc ht).withheld, hi.scannedOnce hc ht⟩

/-- Disks that store everything. -/
def goodDisk : Bool × (ℕ → GoError) := (false, fun _ => none)

/-- A message that is deferred by five nanoseconds. -/
def deferredMessage : Message := { newMessage (Vector.replicate 16 1) [1] 0 with deferred := 5 }

/-- A topic with one channel, a deferred message, and what the pump makes of it. -/
def publishing (source : PumpAct) : List Act :=
  [.newChannel "c", .pump .start, .pump (.load [0]), .publish deferredMessage, .pump source,
    .pump (.put 0)]

/-- With room in memory, the channel puts the message off, and a scan after its time releases it. -/
theorem deferrals_honoured_in_memory :
    Along (step ⟨1, 0⟩) (Honoured ⟨1, 0⟩) (init ⟨1, 0⟩ goodDisk fun _ => goodDisk)
      (publishing .takeMemory ++ [.wait 5, .channel 0 (.processDeferredQueue 5)]) := by
  refine deferrals_honoured ⟨1, 0⟩ goodDisk (fun _ => goodDisk) _ ?_
  refine ⟨trivial, trivial, trivial, trivial, trivial, trivial, trivial, ?_, ?_⟩
  · exact Channel.stores_of_goodDisk rfl (fun _ => rfl) _
  · split <;> trivial

/-- **A deferral that is lost.** Without a memory queue the message goes through the backend, and
the channel has it available at once. -/
theorem deferral_lost_in_backend :
    ¬ Along (step ⟨0, 0⟩) (Honoured ⟨0, 0⟩) (init ⟨0, 0⟩ goodDisk fun _ => goodDisk)
      (publishing .takeBackend) := by
  intro h
  have hlast := (h.append (l := (publishing .takeBackend).take 5) (k := [.pump (.put 0)]) rfl).head
  obtain ⟨hwithheld, -⟩ := hlast _ rfl
  refine hwithheld.channels 0 (by decide) deferredMessage.id ⟨5, by decide, by decide⟩ ?_
  decide

end Xmq.Deferral
