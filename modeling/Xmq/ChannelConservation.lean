import Xmq.ChannelScans

/-!
# A channel conserves its messages

The purpose of a channel, in one multiset: `ledger` adds the ID of every accepted message, takes
out the ID of every finished one, and starts over at `Empty`; no other operation changes it. The
channel keeps that multiset: `messages_conserved` says that after any run every ID of the ledger is
in exactly one of the four places, once, that both heaps hold exactly what their maps hold, and
that closing the channel leaves exactly the ledger in the backend.
-/

namespace Xmq

open IndexedHeap

namespace Channel

/-- The ID a new message brings. -/
def Op.newID : Op → Option MessageID
  | .putMessage m => some m.id
  | .putMessageDeferred m _ _ => some m.id
  | _ => none

/-- The accepted and unfinished messages, after an operation that returned `err`. -/
def ledger (live : Multiset MessageID) (op : Op) (err : GoError) : Multiset MessageID :=
  match op, err with
  | .putMessage m, none => m.id ::ₘ live
  | .putMessageDeferred m _ _, _ => m.id ::ₘ live
  | .finishMessage _ id, none => live.erase id
  | .empty, _ => 0
  | _, _ => live

/-- A run of operations, with its ledger. -/
def runLedger : Channel → Multiset MessageID → List Op → Option (Channel × Multiset MessageID)
  | c, live, [] => some (c, live)
  | c, live, op :: ops =>
    match c.step op with
    | some (err, c) => runLedger c (ledger live op err) ops
    | none => none

/-- How many copies of message `id` are in memory, in the backend, in flight and deferred. -/
def copies (c : Channel) (id : MessageID) : ℕ :=
  Multiset.count id (c.memoryMsgChan.map c.idAt) + Multiset.count id (idsOf c.backend.records) +
    Multiset.count id c.inFlight.inFlightMessages.keys +
    Multiset.count id c.deferred.deferredMessages.keys

/-- The messages of the ledger are in the channel, each in one place and once; the elements of the
two heaps are the values of the two maps, each at its index. -/
structure Conserved (c : Channel) (live : Multiset MessageID) : Prop where
  once : ∀ id, c.copies id = if id ∈ live then 1 else 0
  inFlightPQ : c.inFlight.inFlightMessages.values.Perm c.inFlight.inFlightPQ.slots
  inFlightIndex : ∀ (i : ℕ) p, c.inFlight.inFlightPQ.slots[i]? = some p →
    (c.msgs.obj p).index = i
  deferredPQ : c.deferred.deferredMessages.values.Perm c.deferred.deferredPQ.slots
  deferredIndex : ∀ (i : ℕ) p, c.deferred.deferredPQ.slots[i]? = some p →
    (c.deferred.items.obj p).index = i

/-- The channel is open and its disk queue never fails. -/
structure Reliable (c : Channel) : Prop where
  exitFlag : c.exitFlag = 0
  dummy : c.backend.dummy = false
  outcome : ∀ k, c.backend.outcome k = none
  dropped : c.backend.dropped = []

/-- The invariant of a run: sound, reliable, and holding the ledger, which has no ID twice. -/
structure Kept (c : Channel) (live : Multiset MessageID) : Prop where
  sound : Sound c
  reliable : Reliable c
  held : c.held = live
  nodup : live.Nodup

variable {c : Channel} {live : Multiset MessageID}

theorem Reliable.of_settings {c' : Channel} (h : Reliable c) (hs : c'.settings = c.settings) :
    Reliable c' := by
  obtain ⟨he, ho, hd, hout, hdrop⟩ : c'.exitFlag = c.exitFlag ∧ c'.opts = c.opts ∧
      c'.backend.dummy = c.backend.dummy ∧ c'.backend.outcome = c.backend.outcome ∧
      (if c'.backend.dummy then [] else c'.backend.dropped) =
        if c.backend.dummy then [] else c.backend.dropped := by
    simpa only [settings, Prod.mk.injEq] using hs
  rw [hd, h.dummy, if_neg Bool.false_ne_true, if_neg Bool.false_ne_true, h.dropped] at hdrop
  exact ⟨he.trans h.exitFlag, hd.trans h.dummy, fun k => hout ▸ h.outcome k, hdrop⟩

theorem Reliable.exiting (h : Reliable c) : c.exiting = false := by
  rw [Channel.exiting, h.exitFlag]
  rfl

theorem Reliable.putsOk (h : Reliable c) (n : ℕ) : c.PutsOk n := Or.inr fun _ _ => h.outcome _

theorem Reliable.account (h : Reliable c) : c.account = c.held := by
  rw [Channel.account, h.dropped]
  exact add_zero _

theorem Kept.account (h : Kept c live) : c.account = live := h.reliable.account.trans h.held

theorem count_held (c : Channel) (id : MessageID) : c.held.count id = c.copies id := by
  rw [Channel.held, Multiset.count_add, Multiset.count_add, Multiset.count_add, copies]

theorem Kept.conserved (h : Kept c live) : Conserved c live where
  once id := by
    rw [← count_held, h.held]
    split
    · rename_i hm
      exact Multiset.count_eq_one_of_mem h.nodup hm
    · rename_i hm
      exact Multiset.count_eq_zero_of_notMem hm
  inFlightPQ := h.sound.inFlight.values
  inFlightIndex := h.sound.inFlight.indexed
  deferredPQ := h.sound.deferred.values
  deferredIndex := h.sound.deferred.indexed

/-! ### One operation -/

/-- An operation that keeps the account keeps the ledger. -/
theorem Kept.of_account {c' : Channel} (h : Kept c live) (hs : Sound c')
    (hset : c'.settings = c.settings) (hacc : c'.account = c.account) : Kept c' live := by
  have hr := h.reliable.of_settings hset
  refine ⟨hs, hr, ?_, h.nodup⟩
  rw [← hr.account, hacc, h.account]

/-- **The step.** An operation keeps the ledger; a new message has an ID the ledger does not
have. -/
theorem Kept.step (h : Kept c live) (op : Op) (hnew : ∀ id, op.newID = some id → id ∉ live) :
    ∃ r, c.step op = some r ∧ Kept r.2 (ledger live op r.1) := by
  have hnd : c.account.Nodup := h.account ▸ h.nodup
  cases op with
  | putMessage m =>
      obtain ⟨hs, hput⟩ := h.sound.putMessage m
      have hset := step_settings c (.putMessage m) rfl
      have hr := h.reliable.of_settings hset
      refine ⟨_, rfl, ?_⟩
      rcases hput with ⟨hnone, hacc⟩ | ⟨hsome, hacc⟩
      · rw [hnone]
        refine ⟨hs, hr, ?_, Multiset.nodup_cons.mpr ⟨hnew m.id rfl, h.nodup⟩⟩
        rw [← hr.account, hacc, h.account]
        rfl
      · have hsame : ledger live (.putMessage m) ((c.alloc m).putMessage c.nextMsg).1 = live := by
          cases herr : ((c.alloc m).putMessage c.nextMsg).1 with
          | none => exact absurd herr hsome
          | some err => rfl
        rw [hsame]
        exact h.of_account hs hset hacc
  | putMessageDeferred m timeout now =>
      obtain ⟨hs, hput⟩ := h.sound.putMessageDeferred m timeout now
      have hset := step_settings c (.putMessageDeferred m timeout now) rfl
      have hr := h.reliable.of_settings hset
      have hm := hnew m.id rfl
      refine ⟨_, rfl, hs, hr, ?_, Multiset.nodup_cons.mpr ⟨hm, h.nodup⟩⟩
      rw [← hr.account]
      show ((c.alloc m).putMessageDeferred c.nextMsg timeout now).account = m.id ::ₘ live
      rw [hput (h.account ▸ hm), h.account]
  | deliverMemory clientID timeout now =>
      obtain ⟨hs, hacc⟩ := h.sound.deliverMemory clientID timeout now
      exact ⟨_, rfl, h.of_account hs
        (step_settings c (.deliverMemory clientID timeout now) rfl) (hacc hnd)⟩
  | deliverBackend clientID timeout now =>
      obtain ⟨hs, hacc⟩ := h.sound.deliverBackend clientID timeout now
      exact ⟨_, rfl, h.of_account hs
        (step_settings c (.deliverBackend clientID timeout now) rfl) (hacc hnd)⟩
  | touchMessage clientID id clientMsgTimeout now =>
      obtain ⟨r, hr, hs, hacc⟩ := h.sound.touchMessage clientID id clientMsgTimeout now
      exact ⟨r, hr, h.of_account hs
        (step_settings _ (.touchMessage clientID id clientMsgTimeout now) hr) (hacc hnd)⟩
  | finishMessage clientID id =>
      obtain ⟨r, hr, hs, hfin⟩ := h.sound.finishMessage clientID id
      refine ⟨r, hr, ?_⟩
      rcases hfin with ⟨hnone, hacc⟩ | ⟨hsome, heq⟩
      · have hrel := h.reliable.of_settings (step_settings _ (.finishMessage clientID id) hr)
        have hheld : r.2.held = live.erase id := by
          rw [← h.account, hacc, Multiset.erase_cons_head, hrel.account]
        rw [hnone]
        exact ⟨hs, hrel, hheld, h.nodup.erase id⟩
      · have hsame : ledger live (.finishMessage clientID id) r.1 = live := by
          cases herr : r.1 with
          | none => exact absurd herr hsome
          | some err => rfl
        rw [hsame, heq]
        exact h
  | requeueMessage clientID id timeout now =>
      by_cases ht : timeout = 0
      · subst ht
        obtain ⟨r, hr, hs, hreq⟩ := h.sound.requeueMessage_zero clientID id now
        refine ⟨r, hr, h.of_account hs
          (step_settings _ (.requeueMessage clientID id 0 now) hr) ?_⟩
        rcases hreq with ⟨hacc, _⟩ | ⟨_, _, _, hexit | hno⟩
        · exact hacc
        · rw [h.reliable.exiting] at hexit
          cases hexit
        · exact absurd (h.reliable.putsOk 1) hno
      · obtain ⟨r, hr, hs, hacc⟩ := h.sound.requeueMessage_deferred clientID id ht now
        exact ⟨r, hr, h.of_account hs
          (step_settings _ (.requeueMessage clientID id timeout now) hr) (hacc hnd)⟩
  | processInFlightQueue t =>
      obtain ⟨hs, _, hiff⟩ := h.sound.scanInFlight t false
      have hscan : c.processInFlightQueue t = c.scanInFlight t false :=
        if_neg (by rw [h.reliable.exiting]; exact Bool.false_ne_true)
      refine ⟨_, rfl, h.of_account ?_ (step_settings c (.processInFlightQueue t) rfl)
        ?_⟩
      · rw [hscan]
        exact hs
      · rw [hscan]
        exact hiff.mpr (h.reliable.putsOk _)
  | processDeferredQueue t =>
      obtain ⟨hs, _, hiff⟩ := h.sound.scanDeferred t false
      have hscan : c.processDeferredQueue t = c.scanDeferred t false :=
        if_neg (by rw [h.reliable.exiting]; exact Bool.false_ne_true)
      refine ⟨_, rfl, h.of_account ?_ (step_settings c (.processDeferredQueue t) rfl)
        ?_⟩
      · rw [hscan]
        exact hs
      · rw [hscan]
        exact hiff.mpr (h.reliable.putsOk _)
  | empty =>
      obtain ⟨hs, hheld⟩ := empty_sound c
      exact ⟨_, rfl, hs, h.reliable.of_settings (step_settings c .empty rfl), hheld,
        Multiset.nodup_zero⟩

/-- The ledger grows by the new ID only. -/
theorem mem_ledger {op : Op} {err : GoError} {id : MessageID} (h : id ∈ ledger live op err) :
    id ∈ live ∨ op.newID = some id := by
  unfold ledger at h
  split at h
  · rcases Multiset.mem_cons.mp h with rfl | h
    · exact Or.inr rfl
    · exact Or.inl h
  · rcases Multiset.mem_cons.mp h with rfl | h
    · exact Or.inr rfl
    · exact Or.inl h
  · exact Or.inl (Multiset.mem_of_mem_erase h)
  · cases Multiset.notMem_zero id h
  · exact Or.inl h

/-- **The run.** New messages bring IDs that no earlier message had. -/
theorem Kept.run (ops : List Op) (h : Kept c live) (hnodup : (ops.filterMap Op.newID).Nodup)
    (hnew : ∀ id ∈ ops.filterMap Op.newID, id ∉ live) :
    ∃ c' live', runLedger c live ops = some (c', live') ∧ Kept c' live' := by
  induction ops generalizing c live with
  | nil => exact ⟨c, live, rfl, h⟩
  | cons op ops ih =>
      have hsplit : (op :: ops).filterMap Op.newID =
          op.newID.toList ++ ops.filterMap Op.newID := by
        rw [List.filterMap_cons]
        cases op.newID <;> rfl
      rw [hsplit] at hnodup hnew
      obtain ⟨r, hr, hk⟩ := h.step op fun id hid =>
        hnew id (List.mem_append_left _ (by rw [hid]; exact List.mem_singleton_self id))
      obtain ⟨c', live', hrun, hk'⟩ := ih hk (List.nodup_append.mp hnodup).2.1 fun id hid hm => by
        rcases mem_ledger hm with hlive | hop
        · exact hnew id (List.mem_append_right _ hid) hlive
        · exact (List.nodup_append.mp hnodup).2.2 id
            (by rw [hop]; exact List.mem_singleton_self id) id hid rfl
      exact ⟨c', live', by rw [runLedger, hr]; exact hrun, hk'⟩

theorem newChannel_kept (opts : ChannelOptions) (clients : GoMap String Client) :
    Kept (newChannel opts (BackendQueue.diskQueue fun _ => none) clients) 0 where
  sound :=
    { inFlight := Tracks.nil _
      deferred := Tracks.nil _
      nodup := List.nodup_nil
      fresh := fun p hp => by cases hp
      freshItems := fun i hi => by cases hi
      stored := fun b hb => by cases hb }
  reliable := ⟨rfl, rfl, fun _ => rfl, rfl⟩
  held := rfl
  nodup := Multiset.nodup_zero

/-- Closing writes every message to the backend, in whatever order the maps are ranged over. -/
theorem Kept.exit (h : Kept c live) {inFlight : List MsgPtr} {deferred : List ItemPtr}
    (hi : inFlight.Perm c.inFlight.inFlightMessages.values)
    (hd : deferred.Perm c.deferred.deferredMessages.values) (id : MessageID) :
    Multiset.count id (idsOf (c.exit false inFlight deferred).2.backend.records) =
      if id ∈ live then 1 else 0 := by
  have hopen : ¬ c.exitFlag ≠ 0 := not_not.mpr h.reliable.exitFlag
  obtain ⟨ms, hms⟩ : ∃ ms, ms = c.memoryMsgChan ++ inFlight ++
    deferred.map fun i => (c.deferred.items.obj i).value := ⟨_, rfl⟩
  have hexit : (c.exit false inFlight deferred).2.backend.records =
      (writeAll c.backend (ms.map c.msgs.obj)).records := by
    rw [Channel.exit, if_neg hopen, if_neg Bool.false_ne_true, hms]
    rfl
  have hids : idsOf ((ms.map c.msgs.obj).map Message.writeTo) = ms.map c.idAt := by
    clear hms hexit
    induction ms with
    | nil => rfl
    | cons p ms ih =>
        rw [List.map_cons, List.map_cons, ← List.singleton_append, idsOf_append, idsOf_writeTo, ih]
        rfl
  have hperm : ms.Perm c.pointers := by
    rw [hms]
    exact ((hi.trans h.sound.inFlight.values).append_left _).append
      ((hd.trans h.sound.deferred.values).map _)
  rw [hexit, writeAll_records h.reliable.dummy h.reliable.outcome, idsOf_append, hids,
    ← Multiset.coe_add, Multiset.coe_eq_coe.mpr (hperm.map c.idAt)]
  have hacc := h.sound.account_eq
  rw [h.account, h.reliable.dropped, show idsOf [] = [] from rfl, Multiset.coe_nil, add_zero,
    add_comm] at hacc
  rw [← hacc]
  split
  · rename_i hm
    exact Multiset.count_eq_one_of_mem h.nodup hm
  · rename_i hm
    exact Multiset.count_eq_zero_of_notMem hm

/-- **Conservation.** Any sequence of operations on a new channel over a disk queue that never
fails, whose messages have different IDs, goes through; the accepted and unfinished messages are
then in the channel, each in one place and once, with both heaps equal to their maps; and closing
the channel stores exactly them. -/
theorem messages_conserved (opts : ChannelOptions) (clients : GoMap String Client) (ops : List Op)
    (hnodup : (ops.filterMap Op.newID).Nodup) :
    ∃ c live,
      runLedger (newChannel opts (BackendQueue.diskQueue fun _ => none) clients) 0 ops =
        some (c, live) ∧
      Conserved c live ∧
      ∀ inFlight deferred, inFlight.Perm c.inFlight.inFlightMessages.values →
        deferred.Perm c.deferred.deferredMessages.values →
        (c.exit false inFlight deferred).1 = none ∧
        (c.exit false inFlight deferred).2.backend.closed = true ∧
        ∀ id, Multiset.count id (idsOf (c.exit false inFlight deferred).2.backend.records) =
          if id ∈ live then 1 else 0 := by
  obtain ⟨c, live, hrun, hk⟩ := (newChannel_kept opts clients).run ops hnodup fun _ _ h =>
    Multiset.notMem_zero _ h
  have hopen : ¬ c.exitFlag ≠ 0 := not_not.mpr hk.reliable.exitFlag
  refine ⟨c, live, hrun, hk.conserved, fun inFlight deferred hi hd => ⟨?_, ?_, hk.exit hi hd⟩⟩
  · rw [Channel.exit, if_neg hopen, if_neg Bool.false_ne_true]
  · rw [Channel.exit, if_neg hopen, if_neg Bool.false_ne_true]
    rfl

/-- Two messages, one in memory and one in the backend; the first is delivered, times out, is
delivered again and finished, the second is deferred. -/
theorem messages_conserved_two :
    ∃ c live,
      runLedger (newChannel ⟨1, 100⟩ (BackendQueue.diskQueue fun _ => none) ∅) 0
          [.putMessage (newMessage (Vector.replicate 16 1) [7] 0),
            .putMessage (newMessage (Vector.replicate 16 2) [] 0),
            .deliverMemory "a" 5 0, .processInFlightQueue 5, .deliverBackend "b" 5 6,
            .requeueMessage "b" (Vector.replicate 16 2) 9 7, .deliverMemory "a" 5 8,
            .finishMessage "a" (Vector.replicate 16 1)] =
        some (c, live) ∧
      Conserved c live ∧
      ∀ inFlight deferred, inFlight.Perm c.inFlight.inFlightMessages.values →
        deferred.Perm c.deferred.deferredMessages.values →
        (c.exit false inFlight deferred).1 = none ∧
        (c.exit false inFlight deferred).2.backend.closed = true ∧
        ∀ id, Multiset.count id (idsOf (c.exit false inFlight deferred).2.backend.records) =
          if id ∈ live then 1 else 0 :=
  messages_conserved ⟨1, 100⟩ ∅ _ (by decide)

end Channel

end Xmq
