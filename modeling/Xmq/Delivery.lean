import Mathlib.Algebra.Order.Group.Multiset
import Xmq.ChannelConservation
import Xmq.DeferredPublish

/-!
# From a topic to its channels

What a topic has accepted waits in its memory or on its disk, until the pump takes it and puts it to
every channel of its list; what a channel was given stays with the channel, across closing and
opening again, until a client has finished it. A ledger is kept along a run, from what is asked for
only: `pending` has the messages that the pump is not done with, `owed` those that a channel was given.

* The disks store everything, so that a message that is missing anywhere has been lost by the code.
* The acts come one at a time; a node closes when its pump is at rest.
-/

namespace Xmq.Delivery

open Runs Deferral
open Pump (Topic PumpAct ChannelPtr)

/-! ### The ledger -/

structure Ledger where
  pending : Multiset MessageID
  owed : String → Multiset MessageID

namespace Ledger

def empty : Ledger := ⟨0, fun _ => 0⟩

/-- Change what a channel is owed, under the name by which its topic has it. -/
def change (l : Ledger) (channels : GoMap String ChannelPtr) (p : ChannelPtr)
    (f : Multiset MessageID → Multiset MessageID) : Ledger :=
  { l with owed := fun name =>
      if channels.lookup name = some p then f (l.owed name) else l.owed name }

/-- What an act means for the ledger. -/
def record (opts : ChannelOptions) (s : State) (l : Ledger) : Act → Ledger
  | .publish m => if s.Accepts opts m then { l with pending := m.id ::ₘ l.pending } else l
  | .pump (.put _) =>
    match s.topic.pump with
    | .putting take (p :: _) => l.change s.topic.channels p (take.moment.msg.id ::ₘ ·)
    | .putting take [] => { l with pending := l.pending.erase take.moment.msg.id }
    | _ => l
  | .channel p op =>
    match (s.chan p).step op with
    | some (err, _) => l.change s.topic.channels p (Channel.ledger · op err)
    | none => l
  | .deleteChannel name => { l with owed := Function.update l.owed name 0 }
  | _ => l

end Ledger

/-- An act of the node, with the ledger. -/
def step (opts : ChannelOptions) (x : State × Ledger) (a : Act) : Option (State × Ledger) :=
  (Deferral.step opts x.1 a).map fun s => (s, x.2.record opts x.1 a)

/-- The message that the pump has taken and is not done with. -/
def inHand (t : Topic) : Multiset MessageID :=
  match t.pump with
  | .putting take _ => {take.moment.msg.id}
  | _ => 0

/-- **The node has what the ledger says**, each message in one place. -/
structure Delivered (s : State) (l : Ledger) : Prop where
  pending : (s.queued : Multiset MessageID) + inHand s.topic = l.pending
  once : l.pending.Nodup
  channels : ∀ name p, s.topic.channels.lookup name = some p →
    Channel.Conserved (s.chan p) (l.owed name)
  disks : ∀ name, s.topic.channels.lookup name = none →
    ∀ id, Multiset.count id (Channel.idsOf (s.disk name).records : Multiset MessageID) =
      if id ∈ l.owed name then 1 else 0

/-! ### The invariant -/

/-- A disk that stores everything and has stored only messages. -/
structure Good (q : BackendQueue) : Prop where
  dummy : q.dummy = false
  outcome : ∀ k, q.outcome k = none
  dropped : q.dropped = []
  stored : ∀ b ∈ q.records, ∃ m : Message, b = m.writeTo

/-- Every channel, live or on disk, has what it is owed. -/
structure Holding (channels : GoMap String ChannelPtr) (chan : ChannelPtr → Channel)
    (disk : String → BackendQueue) (owed : String → Multiset MessageID) : Prop where
  kept : ∀ name p, channels.lookup name = some p → Channel.Kept (chan p) (owed name)
  onDisk : ∀ name, channels.lookup name = none →
    (Channel.idsOf (disk name).records : Multiset MessageID) = owed name ∧ (owed name).Nodup

/-- Pointers that are all different; no live channel in `todo` was given the message before. -/
structure Hand (t : Topic) (owed : String → Multiset MessageID) (id : MessageID)
    (todo : List ChannelPtr) : Prop where
  nodup : todo.Nodup
  lt : ∀ p ∈ todo, p < t.nextChannel
  unowed : ∀ name p, t.channels.lookup name = some p → p ∈ todo → id ∉ owed name

/-- **The invariant.** -/
structure Inv (s : State) (l : Ledger) : Prop where
  backend : Good s.topic.backend
  disks : ∀ name, Good (s.disk name)
  live : s.topic.channels.values.Nodup
  liveLt : ∀ p, s.Live p → p < s.topic.nextChannel
  chans : s.topic.chans.Nodup
  chansLt : ∀ p ∈ s.topic.chans, p < s.topic.nextChannel
  pending : (s.queued : Multiset MessageID) + inHand s.topic = l.pending
  once : l.pending.Nodup
  pendingIssued : ∀ id ∈ l.pending, id ∈ s.issued
  owedIssued : ∀ name, ∀ id ∈ l.owed name, id ∈ s.issued
  unowed : ∀ id ∈ s.queued, ∀ name, id ∉ l.owed name
  hand : ∀ take todo, s.topic.pump = .putting take todo → Hand s.topic l.owed take.moment.msg.id todo
  holding : Holding s.topic.channels s.chan s.disk l.owed

variable {opts : ChannelOptions} {s s' : State} {l : Ledger} {p : ChannelPtr} {name : String}

theorem Inv.delivered (h : Inv s l) : Delivered s l where
  pending := h.pending
  once := h.once
  channels name p hp := (h.holding.kept name p hp).conserved
  disks name hname id := by
    obtain ⟨hids, hnodup⟩ := h.holding.onDisk name hname
    rw [hids, Multiset.count_eq_of_nodup hnodup]

theorem init_inv (opts : ChannelOptions) :
    Inv (init opts goodDisk fun _ => goodDisk) Ledger.empty where
  backend := ⟨rfl, fun _ => rfl, rfl, fun b hb => by cases hb⟩
  disks name := ⟨rfl, fun _ => rfl, rfl, fun b hb => by cases hb⟩
  live := List.nodup_nil
  liveLt p hp := by cases hp
  chans := List.nodup_nil
  chansLt p hp := by cases hp
  pending := rfl
  once := Multiset.nodup_zero
  pendingIssued id hid := absurd hid (Multiset.notMem_zero id)
  owedIssued name id hid := absurd hid (Multiset.notMem_zero id)
  unowed id hid := by cases hid
  hand take todo hpump := by cases hpump
  holding := ⟨fun name p hp => (by cases hp), fun name hname => ⟨rfl, Multiset.nodup_zero⟩⟩

/-! ### Queues -/

theorem Good.put {q : BackendQueue} (h : Good q) (m : Message) :
    (q.put m.writeTo).1 = none ∧ Good (q.put m.writeTo).2 ∧
      (q.put m.writeTo).2.records = q.records ++ [m.writeTo] := by
  have hput : q.put m.writeTo =
      (none, { q with records := q.records ++ [m.writeTo], puts := q.puts + 1 }) := by
    simp [BackendQueue.put, h.dummy, h.outcome]
  rw [hput]
  refine ⟨rfl, ⟨h.dummy, h.outcome, h.dropped, fun b hb => ?_⟩, rfl⟩
  rcases List.mem_append.mp hb with hb | hb
  · exact h.stored b hb
  · exact ⟨m, List.mem_singleton.mp hb⟩

/-- What a flush writes. -/
theorem Good.writeAll {q : BackendQueue} (h : Good q) (ms : List Message) :
    Good (Channel.writeAll q ms) ∧
      Channel.idsOf (Channel.writeAll q ms).records = Channel.idsOf q.records ++ ms.map Message.id := by
  induction ms generalizing q with
  | nil => exact ⟨h, (List.append_nil _).symm⟩
  | cons m ms ih =>
      obtain ⟨-, hgood, hrecords⟩ := h.put m
      obtain ⟨hall, hids⟩ := ih hgood
      refine ⟨hall, ?_⟩
      calc Channel.idsOf (Channel.writeAll (q.put m.writeTo).2 ms).records
        _ = Channel.idsOf (q.put m.writeTo).2.records ++ ms.map Message.id := hids
        _ = Channel.idsOf q.records ++ (m :: ms).map Message.id := by
            rw [hrecords, Channel.idsOf_append, Channel.idsOf_writeTo, List.append_assoc]
            rfl

/-- A good disk reads back the oldest message. -/
theorem Good.read {q q' : BackendQueue} {b : List UInt8} (h : Good q) (hr : q.read = some (b, q')) :
    Good q' ∧ ∃ m, decodeMessage b = .ok m ∧
      Channel.idsOf q.records = m.id :: Channel.idsOf q'.records := by
  unfold BackendQueue.read at hr
  split at hr
  · rename_i data rest hrecords
    cases hr
    obtain ⟨m, rfl⟩ := h.stored b (by rw [hrecords]; exact List.mem_cons_self)
    refine ⟨⟨h.dummy, h.outcome, h.dropped, fun b hb => h.stored b ?_⟩, m.stored,
      decodeMessage_writeTo m, ?_⟩
    · rw [hrecords]
      exact List.mem_cons_of_mem _ hb
    · rw [hrecords, ← List.singleton_append, Channel.idsOf_append, Channel.idsOf_writeTo]
      rfl
  · cases hr

/-! ### The topic -/

/-- The topic changes, with what is pending; its channels are what they were. -/
theorem Inv.setTopic (h : Inv s l) {t : Topic} {pending : Multiset MessageID}
    {issued : List MessageID} {published : List (MessageID × ℤ)}
    (hchannels : t.channels = s.topic.channels) (hnext : t.nextChannel = s.topic.nextChannel)
    (hgood : Good t.backend) (hchans : t.chans.Nodup)
    (hlt : ∀ p ∈ t.chans, p < s.topic.nextChannel)
    (hpending : ((t.memoryMsgChan.map Message.id ++ Channel.idsOf t.backend.records :
      List MessageID) : Multiset MessageID) + inHand t = pending) (honce : pending.Nodup)
    (hnew : ∀ id ∈ pending, id ∈ issued) (hissued : ∀ id ∈ s.issued, id ∈ issued)
    (hunowed : ∀ id ∈ t.memoryMsgChan.map Message.id ++ Channel.idsOf t.backend.records,
      ∀ name, id ∉ l.owed name)
    (hhand : ∀ take todo, t.pump = .putting take todo →
      Hand s.topic l.owed take.moment.msg.id todo) :
    Inv { s with topic := t, issued := issued, published := published }
      { l with pending := pending } where
  backend := hgood
  disks := h.disks
  live := by
    show t.channels.values.Nodup
    rw [hchannels]
    exact h.live
  liveLt p hp := by
    have hp : p ∈ t.channels.values := hp
    rw [hchannels] at hp
    exact (h.liveLt p hp).trans_eq hnext.symm
  chans := hchans
  chansLt p hp := (hlt p hp).trans_eq hnext.symm
  pending := hpending
  once := honce
  pendingIssued := hnew
  owedIssued name id hid := hissued id (h.owedIssued name id hid)
  unowed := hunowed
  hand take todo hpump := by
    have hold := hhand take todo hpump
    refine ⟨hold.nodup, fun p hp => (hold.lt p hp).trans_eq hnext.symm, ?_⟩
    rw [hchannels]
    exact hold.unowed
  holding := by
    show Holding t.channels s.chan s.disk l.owed
    rw [hchannels]
    exact h.holding

/-- The topic changes and keeps its queues, too. -/
theorem Inv.setPump (h : Inv s l) {t : Topic} (hchannels : t.channels = s.topic.channels)
    (hnext : t.nextChannel = s.topic.nextChannel) (hbackend : t.backend = s.topic.backend)
    (hmemory : t.memoryMsgChan = s.topic.memoryMsgChan) (hin : inHand t = inHand s.topic)
    (hchans : t.chans.Nodup) (hlt : ∀ p ∈ t.chans, p < s.topic.nextChannel)
    (hhand : ∀ take todo, t.pump = .putting take todo →
      Hand s.topic l.owed take.moment.msg.id todo) : Inv { s with topic := t } l := by
  refine h.setTopic hchannels hnext (hbackend ▸ h.backend) hchans hlt ?_ h.once h.pendingIssued
    (fun _ hid => hid) ?_ hhand
  · rw [hbackend, hmemory, hin]
    exact h.pending
  · rw [hbackend, hmemory]
    exact h.unowed

/-- The pump takes a message that was queued. -/
theorem Inv.take (h : Inv s l) {t : Topic} {m : Message} (hpump : s.topic.pump = .selecting)
    (hchannels : t.channels = s.topic.channels) (hnext : t.nextChannel = s.topic.nextChannel)
    (hchans : t.chans = s.topic.chans) (hgood : Good t.backend)
    (hqueued : s.queued.Perm (m.id :: State.queued { s with topic := t })) :
    Inv { s with topic := t.take m false } l := by
  have hmem : m.id ∈ s.queued := hqueued.mem_iff.mpr List.mem_cons_self
  have hin : inHand s.topic = 0 := by rw [inHand, hpump]
  refine h.setTopic hchannels hnext hgood (hchans ▸ h.chans) ?_ ?_ h.once h.pendingIssued
    (fun _ hid => hid) ?_ ?_
  · show ∀ p ∈ t.chans, _
    rw [hchans]
    exact h.chansLt
  · rw [← h.pending, hin, add_zero, Multiset.coe_eq_coe.mpr hqueued, ← Multiset.cons_coe,
      ← Multiset.singleton_add, add_comm]
    rfl
  · exact fun id hid => h.unowed id (hqueued.mem_iff.mpr (List.mem_cons_of_mem _ hid))
  · intro take todo heq
    cases heq
    rw [hchans]
    exact ⟨h.chans, h.chansLt, fun name _ _ _ => h.unowed m.id hmem name⟩

/-- What a put into the topic leaves, on a good disk. -/
theorem put_queued (opts : ChannelOptions) (h : Good s.topic.backend) (m : Message) :
    Good (s.topic.put opts.memQueueSize m).backend ∧
      (State.queued (s.publish opts m)).Perm (m.id :: s.queued) := by
  unfold State.publish State.queued Topic.put
  split
  · refine ⟨h, ?_⟩
    rw [List.map_append, List.append_assoc]
    exact List.perm_middle
  · obtain ⟨-, hgood, hrecords⟩ := h.put m
    refine ⟨hgood, ?_⟩
    rw [writeMessageToBackend, hrecords, Channel.idsOf_append, Channel.idsOf_writeTo,
      ← List.append_assoc]
    exact List.perm_append_singleton _ _

theorem Inv.publish (h : Inv s l) {m : Message} (hnew : m.id ∉ s.issued) :
    Inv (s.publish opts m) (l.record opts s (.publish m)) := by
  have hrecord : l.record opts s (.publish m) = { l with pending := m.id ::ₘ l.pending } :=
    if_pos (.inr (h.backend.put m).1)
  obtain ⟨hgood, hqueued⟩ := put_queued opts h.backend m
  have hsame := put_queues opts s m
  have hpump : inHand (s.topic.put opts.memQueueSize m) = inHand s.topic := by
    simp only [inHand, hsame.pump]
  rw [hrecord]
  refine h.setTopic hsame.channels hsame.next hgood (hsame.chans ▸ h.chans) ?_ ?_ ?_ ?_
    (fun _ hid => List.mem_cons_of_mem _ hid) ?_ ?_
  · rw [hsame.chans]
    exact h.chansLt
  · rw [hpump, ← h.pending, ← Multiset.cons_add, Multiset.cons_coe]
    exact congrArg (· + inHand s.topic) (Multiset.coe_eq_coe.mpr hqueued)
  · exact Multiset.nodup_cons.mpr ⟨fun hid => hnew (h.pendingIssued _ hid), h.once⟩
  · intro id hid
    rcases Multiset.mem_cons.mp hid with rfl | hid
    · exact List.mem_cons_self
    · exact List.mem_cons_of_mem _ (h.pendingIssued id hid)
  · intro id hid name howed
    rcases List.mem_cons.mp (hqueued.mem_iff.mp hid) with rfl | hid
    · exact hnew (h.owedIssued name _ howed)
    · exact h.unowed id hid name howed
  · rw [hsame.pump]
    exact h.hand

/-! ### The channels -/

theorem Holding.change {channels : GoMap String ChannelPtr} {chan : ChannelPtr → Channel}
    {disk : String → BackendQueue} {owed : String → Multiset MessageID}
    (h : Holding channels chan disk owed) {c : Channel}
    {f : Multiset MessageID → Multiset MessageID}
    (hc : ∀ name, channels.lookup name = some p → Channel.Kept c (f (owed name))) :
    Holding channels (Function.update chan p c) disk fun name =>
      if channels.lookup name = some p then f (owed name) else owed name where
  kept name q hq := by
    by_cases hqp : q = p
    · subst hqp
      rw [Function.update_self, if_pos hq]
      exact hc name hq
    · rw [Function.update_of_ne hqp, hq, if_neg (fun heq => hqp (Option.some.inj heq))]
      exact h.kept name q hq
  onDisk name hname := by
    rw [if_neg (by rw [hname]; exact Option.some_ne_none p |>.symm)]
    exact h.onDisk name hname

/-- A message in the hands of the pump is not queued any more. -/
theorem Inv.notQueued (h : Inv s l) {id : MessageID} (hid : id ∈ inHand s.topic) : id ∉ s.queued := by
  intro hq
  have honce := h.once
  rw [← h.pending] at honce
  exact Multiset.disjoint_left.mp (Multiset.nodup_add.mp honce).2.2 hq hid

/-- One channel changes. What is new there is what the pump has in its hands, if anything, and the pump
does not come back to that channel. -/
theorem Inv.setChan (h : Inv s l) {c : Channel} {f : Multiset MessageID → Multiset MessageID}
    {taken : ChannelPtr → List (MessageID × ℤ)}
    (hc : ∀ name, s.topic.channels.lookup name = some p → Channel.Kept c (f (l.owed name)))
    (hf : ∀ name, s.topic.channels.lookup name = some p → ∀ id ∈ f (l.owed name), id ∈ l.owed name ∨
      id ∈ inHand s.topic ∧ ∀ take todo, s.topic.pump = .putting take todo → p ∉ todo) :
    Inv { s.setChan p c with taken := taken } (l.change s.topic.channels p f) := by
  have howed : ∀ name, ∀ id ∈ (l.change s.topic.channels p f).owed name, id ∈ l.owed name ∨
      s.topic.channels.lookup name = some p ∧ id ∈ inHand s.topic ∧
        ∀ take todo, s.topic.pump = .putting take todo → p ∉ todo := by
    intro name id hid
    by_cases hp : s.topic.channels.lookup name = some p
    · have hid : id ∈ f (l.owed name) := by
        have hid : id ∈ if s.topic.channels.lookup name = some p then f (l.owed name)
          else l.owed name := hid
        rwa [if_pos hp] at hid
      exact (hf name hp id hid).imp_right fun hnew => ⟨hp, hnew⟩
    · have hid : id ∈ if s.topic.channels.lookup name = some p then f (l.owed name)
        else l.owed name := hid
      rw [if_neg hp] at hid
      exact .inl hid
  refine { h with owedIssued := ?_, unowed := ?_, hand := ?_, holding := h.holding.change hc }
  · intro name id hid
    rcases howed name id hid with hid | ⟨-, hid, -⟩
    · exact h.owedIssued name id hid
    · exact h.pendingIssued id (h.pending ▸ Multiset.mem_add.mpr (.inr hid))
  · intro id hq name hid
    rcases howed name id hid with hid | ⟨-, hid, -⟩
    · exact h.unowed id hq name hid
    · exact h.notQueued hid hq
  · intro take todo hpump
    have hold := h.hand take todo hpump
    refine ⟨hold.nodup, hold.lt, fun name q hq hmem hid => ?_⟩
    rcases howed name _ hid with hid | ⟨hp, -, hnot⟩
    · exact hold.unowed name q hq hmem hid
    · cases hq.symm.trans hp
      exact hnot take todo hpump hmem

/-- **What clients and the scans do to a channel.** -/
theorem Inv.channel (h : Inv s l) {op : Channel.Op} (hs : s.channel p op = some s') :
    Inv s' (l.record opts s (.channel p op)) := by
  unfold State.channel at hs
  obtain ⟨⟨-, htime⟩, hs⟩ := Option.ite_none_right_eq_some.mp hs
  obtain ⟨⟨err, c⟩, hr, rfl⟩ := Option.map_eq_some_iff.mp hs
  have hnone : op.newID = none := by
    cases op with
    | putMessage | putMessageDeferred => exact htime.elim
    | _ => rfl
  rw [Ledger.record, hr]
  refine h.setChan (fun name hp => ?_) fun name hp id hid => ?_
  · obtain ⟨r, hr', hk⟩ := (h.holding.kept name p hp).step op fun id hid => by
      rw [hnone] at hid
      cases hid
    rw [hr] at hr'
    cases hr'
    exact hk
  · rcases Channel.mem_ledger hid with hid | hid
    · exact .inl hid
    · rw [hnone] at hid
      cases hid

/-- A live channel keeps what the pump puts to it. -/
theorem kept_chanMsg {c : Channel} {live : Multiset MessageID} (h : Channel.Kept c live) (m : Message)
    (hnew : m.id ∉ live) (now : ℤ) :
    Channel.Kept (if m.deferred ≠ 0 then (c.alloc m).putMessageDeferred c.nextMsg m.deferred now
      else ((c.alloc m).putMessage c.nextMsg).2) (m.id ::ₘ live) := by
  split
  · obtain ⟨r, hr, hk⟩ := h.step (.putMessageDeferred m m.deferred now) fun id hid => by
      cases hid
      exact hnew
    cases hr
    exact hk
  · obtain ⟨r, hr, hk⟩ := h.step (.putMessage m) fun id hid => by
      cases hid
      exact hnew
    cases hr
    have hreliable : Channel.Reliable (c.alloc m) :=
      ⟨h.reliable.exitFlag, h.reliable.dummy, h.reliable.outcome, h.reliable.dropped⟩
    have hput : ((c.alloc m).put c.nextMsg).1 = none :=
      Channel.put_eq_none_iff.mpr (hreliable.putsOk 1)
    have hok : ((c.alloc m).putMessage c.nextMsg).1 = none := by
      rw [Channel.putMessage, hreliable.exiting, if_neg Bool.false_ne_true]
      dsimp only
      rw [hput]
    have hledger : Channel.ledger live (.putMessage m) ((c.alloc m).putMessage c.nextMsg).1 =
        m.id ::ₘ live := by
      rw [hok]
      rfl
    rw [← hledger]
    exact hk

/-! ### The pump -/

/-- **The pump puts a message to the next channel of its list.** -/
theorem Inv.put (h : Inv s l) {take : Pump.Take} {todo : List ChannelPtr} {t : Topic}
    (hpump : s.topic.pump = .putting take (p :: todo)) {puts : List (ChannelPtr × Message)}
    (ht : t = { s.topic with pump := .putting { take with puts := puts } todo }) :
    Inv (State.deliver { s with topic := t } p (State.chanMsg take))
      (l.change s.topic.channels p (take.moment.msg.id ::ₘ ·)) := by
  have hold := h.hand take (p :: todo) hpump
  obtain ⟨hnot, hnodup⟩ := List.nodup_cons.mp hold.nodup
  have hin : inHand t = inHand s.topic := by
    rw [inHand, inHand, ht, hpump]
  have hmid : Inv { s with topic := t } l := by
    subst ht
    refine h.setPump rfl rfl rfl rfl hin h.chans h.chansLt fun take' todo' heq => ?_
    cases heq
    exact ⟨hnodup, fun q hq => hold.lt q (List.mem_cons_of_mem _ hq),
      fun name q hq hmem => hold.unowed name q hq (List.mem_cons_of_mem _ hmem)⟩
  have hchannels : t.channels = s.topic.channels := by rw [ht]
  have hkept : ∀ name, t.channels.lookup name = some p → Channel.Kept
      (if (State.chanMsg take).deferred ≠ 0 then
        ((s.chan p).alloc (State.chanMsg take)).putMessageDeferred (s.chan p).nextMsg
          (State.chanMsg take).deferred s.now
      else (((s.chan p).alloc (State.chanMsg take)).putMessage (s.chan p).nextMsg).2)
      (take.moment.msg.id ::ₘ l.owed name) := by
    intro name hp
    have hunowed := hold.unowed name p (hchannels ▸ hp) List.mem_cons_self
    rw [← chanMsg_id] at hunowed ⊢
    exact kept_chanMsg (hmid.holding.kept name p hp) _ hunowed s.now
  have hf : ∀ name, t.channels.lookup name = some p → ∀ id ∈ take.moment.msg.id ::ₘ l.owed name,
      id ∈ l.owed name ∨ id ∈ inHand t ∧ ∀ take todo, t.pump = .putting take todo → p ∉ todo := by
    intro name _ id hid
    rcases Multiset.mem_cons.mp hid with rfl | hid
    · refine .inr ⟨?_, fun take' todo' heq => ?_⟩
      · rw [hin, inHand, hpump]
        exact Multiset.mem_singleton_self _
      · rw [ht] at heq
        cases heq
        exact hnot
    · exact .inl hid
  rw [← hchannels]
  by_cases hdeferred : (State.chanMsg take).deferred ≠ 0
  · rw [State.deliver, if_pos hdeferred]
    simp only [if_pos hdeferred] at hkept
    exact hmid.setChan hkept hf
  · rw [State.deliver, if_neg hdeferred]
    simp only [if_neg hdeferred] at hkept
    exact hmid.setChan hkept hf

/-- The pump is done with a message. -/
theorem Inv.putAll (h : Inv s l) {take : Pump.Take} (hpump : s.topic.pump = .putting take [])
    (done : List Pump.Take) :
    Inv { s with topic := { s.topic with pump := .selecting, taken := done } }
      { l with pending := l.pending.erase take.moment.msg.id } := by
  have hin : inHand s.topic = {take.moment.msg.id} := by rw [inHand, hpump]
  have hrest : (s.queued : Multiset MessageID) = l.pending.erase take.moment.msg.id := by
    rw [← h.pending, hin, add_comm, Multiset.singleton_add, Multiset.erase_cons_head]
  refine h.setTopic rfl rfl h.backend h.chans h.chansLt ?_ (h.once.erase _) ?_ (fun _ hid => hid)
    h.unowed fun _ _ heq => by cases heq
  · rw [← hrest]
    exact add_zero _
  · exact fun id hid => h.pendingIssued id (Multiset.mem_of_mem_erase hid)

/-- **A step of the pump.** -/
theorem Inv.pump (h : Inv s l) {a : PumpAct} (hs : s.pump a = some s') :
    Inv s' (l.record opts s (.pump a)) := by
  obtain ⟨t, ht, rfl⟩ := Option.map_eq_some_iff.mp hs
  cases a with
  | start =>
      simp only [Topic.pumpStep] at ht
      split at ht
      · rename_i hpump
        obtain ⟨-, ht⟩ := Option.ite_none_right_eq_some.mp ht
        cases ht
        refine h.setPump rfl rfl rfl rfl ?_ h.chans h.chansLt fun _ _ heq => by cases heq
        rw [inHand, inHand, hpump]
      · cases ht
  | load order =>
      simp only [Topic.pumpStep] at ht
      split at ht
      · rename_i hpump
        obtain ⟨hperm, ht⟩ := Option.ite_none_right_eq_some.mp ht
        cases ht
        refine h.setPump rfl rfl rfl rfl ?_ (hperm.nodup_iff.mpr h.live) ?_
          fun _ _ heq => by cases heq
        · rw [inHand, inHand, hpump]
          rfl
        · exact fun p hp => h.liveLt p (hperm.mem_iff.mp hp)
      · cases ht
  | takeMemory =>
      simp only [Topic.pumpStep] at ht
      split at ht
      · rename_i m rest hpump hm
        obtain ⟨-, ht⟩ := Option.ite_none_right_eq_some.mp ht
        cases ht
        refine h.take (t := { s.topic with memoryMsgChan := rest }) hpump rfl rfl rfl h.backend ?_
        rw [State.queued, hm]
        exact List.Perm.refl _
      · cases ht
  | takeBackend =>
      simp only [Topic.pumpStep] at ht
      split at ht
      · rename_i b backend hpump hb
        obtain ⟨-, ht⟩ := Option.ite_none_right_eq_some.mp ht
        obtain ⟨hgood, m, hm, hids⟩ := h.backend.read hb
        rw [hm] at ht
        cases ht
        refine h.take (t := { s.topic with backend := backend }) hpump rfl rfl rfl hgood ?_
        rw [State.queued, hids]
        exact List.perm_middle
      · cases ht
  | put now =>
      simp only [Topic.pumpStep] at ht
      split at ht
      · rename_i take p todo hpump
        cases ht
        rw [Ledger.record]
        simp only [hpump]
        exact h.put hpump rfl
      · rename_i take hpump
        cases ht
        rw [Ledger.record]
        simp only [hpump]
        exact h.putAll hpump _
      · cases ht

/-! ### Channels come and go -/

theorem Inv.newChannel (h : Inv s l) (hs : s.newChannel opts name = some s') : Inv s' l := by
  unfold State.newChannel at hs
  cases hname : s.topic.channels.lookup name with
  | some p =>
      rw [hname] at hs
      cases hs
  | none =>
      rw [hname] at hs
      cases hs
      have hvalues : (s.topic.newChannel name).channels.values =
          s.topic.nextChannel :: s.topic.channels.values := GoMap.values_insert hname
      have hlookup : ∀ name' p, (s.topic.newChannel name).channels.lookup name' = some p →
          name' = name ∧ p = s.topic.nextChannel ∨
            name' ≠ name ∧ s.topic.channels.lookup name' = some p := fun name' p hp =>
        (GoMap.lookup_insert_eq_some.mp hp).imp_left fun heq => ⟨heq.1, heq.2.symm⟩
      have hlt : ∀ name' p, s.topic.channels.lookup name' = some p → p < s.topic.nextChannel :=
        fun name' p hp => h.liveLt p (GoMap.mem_values.mpr ⟨name', hp⟩)
      obtain ⟨hids, hnodup⟩ := h.holding.onDisk name hname
      have hdisk := h.disks name
      have hkept : Channel.Kept (Xmq.newChannel opts { s.disk name with closed := false } ∅)
          (l.owed name) := by
        refine ⟨newChannel_sound opts hdisk.stored, ⟨rfl, hdisk.dummy, hdisk.outcome, hdisk.dropped⟩,
          ?_, hnodup⟩
        rw [← hids]
        simp [Channel.held, Xmq.newChannel, Slice.new]
      refine { h with live := ?_, liveLt := ?_, chansLt := ?_, hand := ?_, holding := ⟨?_, ?_⟩ }
      · show (s.topic.newChannel name).channels.values.Nodup
        rw [hvalues]
        exact List.nodup_cons.mpr ⟨fun hmem => absurd (h.liveLt _ hmem) (Nat.lt_irrefl _), h.live⟩
      · intro p hp
        have hp : p ∈ (s.topic.newChannel name).channels.values := hp
        rw [hvalues] at hp
        rcases List.mem_cons.mp hp with rfl | hp
        · exact Nat.lt_succ_self _
        · exact Nat.lt_succ_of_lt (h.liveLt p hp)
      · exact fun p hp => Nat.lt_succ_of_lt (h.chansLt p hp)
      · intro take todo hpump
        have hold := h.hand take todo hpump
        refine ⟨hold.nodup, fun p hp => Nat.lt_succ_of_lt (hold.lt p hp), fun name' p hp hmem => ?_⟩
        rcases hlookup name' p hp with ⟨-, rfl⟩ | ⟨-, hp⟩
        · exact absurd (hold.lt _ hmem) (Nat.lt_irrefl _)
        · exact hold.unowed name' p hp hmem
      · intro name' p hp
        show Channel.Kept (Function.update s.chan s.topic.nextChannel _ p) _
        rcases hlookup name' p hp with ⟨rfl, rfl⟩ | ⟨-, hp⟩
        · rw [Function.update_self]
          exact hkept
        · rw [Function.update_of_ne (Nat.ne_of_lt (hlt name' p hp))]
          exact h.holding.kept name' p hp
      · intro name' hname'
        have hname' : (s.topic.channels.insert name s.topic.nextChannel).lookup name' = none :=
          hname'
        have hne : name' ≠ name := by
          rintro rfl
          rw [AList.lookup_insert] at hname'
          cases hname'
        rw [AList.lookup_insert_ne hne] at hname'
        exact h.holding.onDisk name' hname'

/-- A deleted channel has nothing on its disk, and is owed nothing. -/
theorem Inv.deleteChannel (h : Inv s l) (hs : s.deleteChannel name = some s') :
    Inv s' (l.record opts s (.deleteChannel name)) := by
  unfold State.deleteChannel at hs
  cases hname : s.topic.channels.lookup name with
  | none =>
      rw [hname] at hs
      cases hs
  | some p =>
      rw [hname] at hs
      cases hs
      have hlookup : ∀ name' q, (s.topic.deleteChannel name).channels.lookup name' = some q →
          name' ≠ name ∧ s.topic.channels.lookup name' = some q := fun name' q hq =>
        GoMap.lookup_erase_eq_some.mp hq
      have howed : ∀ name', ∀ id ∈ Function.update l.owed name 0 name', id ∈ l.owed name' := by
        intro name' id hid
        by_cases hne : name' = name
        · subst hne
          rw [Function.update_self] at hid
          exact absurd hid (Multiset.notMem_zero id)
        · rwa [Function.update_of_ne hne] at hid
      have hreliable := (h.holding.kept name p hname).reliable
      have hexit : ((s.chan p).exit true [] []).2.backend =
          ((s.chan p).backend.empty).delete := by
        rw [Channel.exit, if_neg (by rw [hreliable.exitFlag]; decide)]
        rfl
      have hvalues := GoMap.values_erase hname
      refine { h with
        disks := ?_, live := ?_, liveLt := ?_, owedIssued := ?_, unowed := ?_, hand := ?_,
        holding := ⟨?_, ?_⟩ }
      · intro name'
        show Good (Function.update s.disk name _ name')
        by_cases hne : name' = name
        · subst hne
          rw [Function.update_self, hexit]
          exact ⟨hreliable.dummy, hreliable.outcome, hreliable.dropped, fun b hb => by cases hb⟩
        · rw [Function.update_of_ne hne]
          exact h.disks name'
      · exact (List.nodup_cons.mp (hvalues.nodup_iff.mp h.live)).2
      · exact fun q hq => h.liveLt q (hvalues.mem_iff.mpr (List.mem_cons_of_mem _ hq))
      · exact fun name' id hid => h.owedIssued name' id (howed name' id hid)
      · exact fun id hid name' hmem => h.unowed id hid name' (howed name' id hmem)
      · intro take todo hpump
        have hold := h.hand take todo hpump
        refine ⟨hold.nodup, hold.lt, fun name' q hq hmem hid => ?_⟩
        exact hold.unowed name' q (hlookup name' q hq).2 hmem (howed name' _ hid)
      · intro name' q hq
        obtain ⟨hne, hq⟩ := hlookup name' q hq
        have hqp : q ≠ p := fun heq => hne (GoMap.eq_of_lookup h.live (heq ▸ hq) hname)
        show Channel.Kept (Function.update s.chan p _ q) (Function.update l.owed name 0 name')
        rw [Function.update_of_ne hqp, Function.update_of_ne hne]
        exact h.holding.kept name' q hq
      · intro name' hname'
        show (Channel.idsOf (Function.update s.disk name _ name').records : Multiset MessageID) =
            Function.update l.owed name 0 name' ∧ (Function.update l.owed name 0 name').Nodup
        by_cases hne : name' = name
        · subst hne
          rw [Function.update_self, Function.update_self]
          exact ⟨rfl, Multiset.nodup_zero⟩
        · rw [Function.update_of_ne hne, Function.update_of_ne hne]
          have hname' : (s.topic.channels.erase name).lookup name' = none := hname'
          rw [AList.lookup_erase_ne hne] at hname'
          exact h.holding.onDisk name' hname'

/-! ### Closing and opening again -/

theorem Inv.reopen (h : Inv s l) {inFlight : ChannelPtr → List MsgPtr}
    {deferred : ChannelPtr → List ItemPtr} (hs : s.reopen inFlight deferred = some s') :
    Inv s' l := by
  have hin : inHand s.topic = 0 := by
    unfold State.reopen at hs
    rw [inHand]
    split at hs
    · cases hs
    all_goals
      rename_i hpump
      rw [hpump]
  obtain ⟨horders, rfl⟩ := reopen_eq hs
  obtain ⟨hgood, hids⟩ := h.backend.writeAll s.topic.memoryMsgChan
  have hqueued : (State.queued s).Perm
      (Channel.idsOf (Channel.writeAll s.topic.backend s.topic.memoryMsgChan).records) := by
    rw [hids, State.queued]
    exact List.perm_append_comm
  have hexit : ∀ name p, s.topic.channels.lookup name = some p →
      Good ((s.chan p).exit false (inFlight p) (deferred p)).2.backend ∧
        (Channel.idsOf ((s.chan p).exit false (inFlight p) (deferred p)).2.backend.records :
          Multiset MessageID) = l.owed name := by
    intro name p hp
    have hkept := h.holding.kept name p hp
    obtain ⟨hperm, hperm'⟩ := horders p (GoMap.mem_values.mpr ⟨name, hp⟩)
    refine ⟨?_, Multiset.ext.mpr fun id => ?_⟩
    · have hopen : Good (s.chan p).backend :=
        ⟨hkept.reliable.dummy, hkept.reliable.outcome, hkept.reliable.dropped, hkept.sound.stored⟩
      obtain ⟨hall, -⟩ := hopen.writeAll (((s.chan p).memoryMsgChan ++ inFlight p ++
        (deferred p).map fun i => ((s.chan p).deferred.items.obj i).value).map (s.chan p).msgs.obj)
      rw [Channel.exit, if_neg (by rw [hkept.reliable.exitFlag]; decide),
        if_neg Bool.false_ne_true]
      exact ⟨hall.dummy, hall.outcome, hall.dropped, hall.stored⟩
    · rw [hkept.exit hperm hperm' id, Multiset.count_eq_of_nodup hkept.nodup]
  refine
    { h with
      backend := hgood
      disks := ?_
      live := List.nodup_nil
      liveLt := fun p hp => by cases hp
      chans := List.nodup_nil
      chansLt := fun p hp => by cases hp
      pending := ?_
      unowed := fun id hid => h.unowed id (hqueued.mem_iff.mpr hid)
      hand := fun _ _ heq => by cases heq
      holding := ⟨fun name p hp => (by cases hp), fun name _ => ?_⟩ }
  · intro name
    cases hp : s.topic.channels.lookup name with
    | some p =>
        simp only [hp]
        exact (hexit name p hp).1
    | none =>
        simp only [hp]
        exact h.disks name
  · rw [← h.pending, hin, Multiset.coe_eq_coe.mpr hqueued]
    rfl
  · cases hp : s.topic.channels.lookup name with
    | some p =>
        simp only [hp]
        exact ⟨(hexit name p hp).2, (h.holding.kept name p hp).nodup⟩
    | none =>
        simp only [hp]
        exact h.holding.onDisk name hp

/-! ### Runs -/

/-- **The step.** -/
theorem step_inv {a : Act} (h : Inv s l) (hs : Deferral.step opts s a = some s') :
    Inv s' (l.record opts s a) := by
  cases a with
  | wait d =>
      cases hs
      exact { h with }
  | publish m =>
      obtain ⟨hnew, hs⟩ := Option.ite_none_left_eq_some.mp hs
      cases hs
      exact h.publish fun hid => hnew (.inl hid)
  | start =>
      cases hs
      exact h.setPump rfl rfl rfl rfl rfl h.chans h.chansLt h.hand
  | setPaused paused =>
      cases hs
      exact h.setPump rfl rfl rfl rfl rfl h.chans h.chansLt h.hand
  | receiveUpdate =>
      obtain ⟨t, ht, rfl⟩ := Option.map_eq_some_iff.mp hs
      rcases Pump.receiveUpdate_cases ht with ⟨-, rfl⟩ | ⟨hpump, rfl⟩
      · exact h
      · refine h.setPump rfl rfl rfl rfl ?_ List.nodup_nil (fun p hp => by cases hp)
          fun _ _ heq => by cases heq
        rw [inHand, inHand, hpump]
  | receivePause =>
      obtain ⟨t, ht, rfl⟩ := Option.map_eq_some_iff.mp hs
      rcases Pump.receivePause_cases ht with ⟨-, rfl⟩ | ⟨-, rfl⟩
      · exact h
      · exact h.setPump rfl rfl rfl rfl rfl h.chans h.chansLt h.hand
  | newChannel name => exact h.newChannel hs
  | deleteChannel name => exact h.deleteChannel hs
  | pump a => exact h.pump hs
  | channel p op => exact h.channel hs
  | reopen inFlight deferred => exact h.reopen hs

/-- The ledger is there for every run of the node. -/
theorem exists_ledger {acts : List Act} {t : State} (hrun : run (Deferral.step opts) s acts = some t)
    (l : Ledger) : ∃ l', run (step opts) (s, l) acts = some (t, l') := by
  induction acts generalizing s l with
  | nil =>
      cases hrun
      exact ⟨l, rfl⟩
  | cons a acts ih =>
      obtain ⟨s', hs, hrun⟩ := run_cons_elim hrun
      obtain ⟨l', hl'⟩ := ih hrun (l.record opts s a)
      refine ⟨l', (run_cons a acts _ ?_).mpr hl'⟩
      rw [step, hs]
      rfl

/-- **Delivery.** Whatever publishers, clients, scans and operators do, in any order, and however
often the node is closed and opened: what the topic has accepted is queued, once, or with the pump, until
it has been put to every channel of the pump's list; and what a channel was given is with it, once,
or on its disk, until it is finished, or the channel is emptied or deleted. -/
theorem messages_delivered (opts : ChannelOptions) (acts : List Act) (t : State)
    (hrun : run (Deferral.step opts) (init opts goodDisk fun _ => goodDisk) acts = some t) :
    ∃ l, run (step opts) (init opts goodDisk fun _ => goodDisk, .empty) acts = some (t, l) ∧
      Delivered t l := by
  obtain ⟨l, hl⟩ := exists_ledger hrun .empty
  refine ⟨l, hl, Inv.delivered ?_⟩
  refine invariant_run (I := fun x : State × Ledger => Inv x.1 x.2) ?_ acts _ _ (init_inv opts) hl
  rintro ⟨s, l⟩ a x h hx
  obtain ⟨s', hs, rfl⟩ := Option.map_eq_some_iff.mp hx
  exact step_inv h hs

/-- Two messages and two channels; one client finishes its first message, and the node is closed and
opened again while the second one is in the memory of the topic. -/
def twoMessages : List Act :=
  [.newChannel "a", .newChannel "b", .pump .start, .pump (.load [1, 0]),
    .publish (newMessage (Vector.replicate 16 1) [1] 0), .pump .takeMemory, .pump (.put 0),
    .pump (.put 0), .pump (.put 0), .channel 0 (.deliverMemory "x" 5 0),
    .channel 0 (.finishMessage "x" (Vector.replicate 16 1)),
    .publish (newMessage (Vector.replicate 16 2) [2] 0), .reopen (fun _ => []) fun _ => [],
    .newChannel "a"]

theorem twoMessages_run :
    (run (Deferral.step ⟨1, 100⟩) (init ⟨1, 100⟩ goodDisk fun _ => goodDisk) twoMessages).isSome := by
  decide +kernel

theorem messages_delivered_twoMessages : ∃ t l,
    run (step ⟨1, 100⟩) (init ⟨1, 100⟩ goodDisk fun _ => goodDisk, .empty) twoMessages = some (t, l) ∧
      Delivered t l := by
  obtain ⟨t, ht⟩ := Option.isSome_iff_exists.mp twoMessages_run
  obtain ⟨l, hl, hd⟩ := messages_delivered ⟨1, 100⟩ twoMessages t ht
  exact ⟨t, l, hl, hd⟩

end Xmq.Delivery
