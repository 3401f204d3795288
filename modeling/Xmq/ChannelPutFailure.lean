import Xmq.ChannelScans
import Xmq.Runs

/-!
# What a failing put loses

`RequeueMessage` with no timeout and both timeout scans take a message out of its map and heap
before they put it back, and none of them restores it when the put fails. `requeue_keeps_iff` and
`scan_keeps_iff` say exactly when nothing is lost, in every state a channel can reach, whatever the
backend answered so far: when the channel is not exiting and the puts succeed.
-/

namespace Xmq

namespace Channel

/-- An operation, or closing or deleting the channel. -/
inductive Event where
  | op (op : Op)
  | exit (deleted : Bool) (inFlight : List MsgPtr) (deferred : List ItemPtr)

def event (c : Channel) : Event → Option Channel
  | .op op => (c.step op).map Prod.snd
  | .exit deleted inFlight deferred => some (c.exit deleted inFlight deferred).2

/-- The backend of a new channel: a disk queue with any answers, or the dummy of an ephemeral
channel. -/
def newBackend (ephemeral : Bool) (outcome : ℕ → GoError) : BackendQueue :=
  if ephemeral then BackendQueue.dummyBackendQueue else BackendQueue.diskQueue outcome

/-- The states of a channel after any run of operations. -/
def Reachable (c : Channel) : Prop :=
  ∃ opts ephemeral outcome clients events,
    Runs.run event (newChannel opts (newBackend ephemeral outcome) clients) events = some c

/-- Every message that was held is held, or a dummy backend accepted it. -/
def NoLoss (c c' : Channel) : Prop := c'.account = c.account

variable {c : Channel}

/-- No operation of a sound channel indexes out of range, and all of them keep it sound. -/
theorem Sound.step (h : Sound c) (op : Op) : ∃ r, c.step op = some r ∧ Sound r.2 := by
  cases op with
  | putMessage m => exact ⟨_, rfl, (h.putMessage m).1⟩
  | putMessageDeferred m timeout now => exact ⟨_, rfl, (h.putMessageDeferred m timeout now).1⟩
  | deliverMemory clientID timeout now => exact ⟨_, rfl, (h.deliverMemory clientID timeout now).1⟩
  | deliverBackend clientID timeout now => exact ⟨_, rfl, (h.deliverBackend clientID timeout now).1⟩
  | touchMessage clientID id clientMsgTimeout now =>
      obtain ⟨r, hr, hs, _⟩ := h.touchMessage clientID id clientMsgTimeout now
      exact ⟨r, hr, hs⟩
  | finishMessage clientID id =>
      obtain ⟨r, hr, hs, _⟩ := h.finishMessage clientID id
      exact ⟨r, hr, hs⟩
  | requeueMessage clientID id timeout now =>
      by_cases ht : timeout = 0
      · subst ht
        obtain ⟨r, hr, hs, _⟩ := h.requeueMessage_zero clientID id now
        exact ⟨r, hr, hs⟩
      · obtain ⟨r, hr, hs, _⟩ := h.requeueMessage_deferred clientID id ht now
        exact ⟨r, hr, hs⟩
  | processInFlightQueue t =>
      refine ⟨_, rfl, ?_⟩
      show Sound (c.processInFlightQueue t).2
      unfold processInFlightQueue
      split
      · exact h
      · exact (h.scanInFlight t false).1
  | processDeferredQueue t =>
      refine ⟨_, rfl, ?_⟩
      show Sound (c.processDeferredQueue t).2
      unfold processDeferredQueue
      split
      · exact h
      · exact (h.scanDeferred t false).1
  | empty => exact ⟨_, rfl, (empty_sound c).1⟩

theorem Sound.event {c' : Channel} (h : Sound c) {e : Event} (he : c.event e = some c') :
    Sound c' := by
  cases e with
  | op op =>
      obtain ⟨r, hr, hs⟩ := h.step op
      rw [Channel.event, hr] at he
      cases he
      exact hs
  | exit deleted inFlight deferred =>
      cases he
      exact h.exit deleted inFlight deferred

theorem newChannel_sound (opts : ChannelOptions) (ephemeral : Bool) (outcome : ℕ → GoError)
    (clients : GoMap String Client) :
    Sound (newChannel opts (newBackend ephemeral outcome) clients) where
  inFlight := Tracks.nil _
  deferred := Tracks.nil _
  nodup := List.nodup_nil
  fresh p hp := by cases hp
  freshItems i hi := by cases hi
  stored b hb := by
    cases ephemeral <;> cases hb

theorem Reachable.sound (h : Reachable c) : Sound c := by
  obtain ⟨opts, ephemeral, outcome, clients, events, hrun⟩ := h
  exact Runs.invariant_run (I := Sound) (fun c e c' hs he => hs.event he) events _ _
    (newChannel_sound opts ephemeral outcome clients) hrun

/-- **Requeueing.** An error leaves the message held exactly when there is none: when the client
does not own the message, or the channel is open and the put succeeds. -/
theorem requeue_keeps_iff (h : Sound c) (clientID : String) (id : MessageID) (now : ℤ) :
    ∃ r, c.requeueMessage clientID id 0 now = some r ∧
      ((c.inFlight.Owned clientID id → r.1 ≠ none → NoLoss c r.2) ↔
        (c.inFlight.Owned clientID id → c.exiting = false ∧ c.PutsOk 1)) := by
  obtain ⟨r, hr, _, hreq⟩ := h.requeueMessage_zero clientID id now
  refine ⟨r, hr, ?_⟩
  rcases hreq with ⟨hacc, hok⟩ | ⟨hacc, ho, hsome, hbad⟩
  · exact ⟨fun _ ho => ⟨(hok ho).1, (hok ho).2.1⟩, fun _ _ _ => hacc⟩
  · constructor
    · intro hkeep
      have hsame : r.2.account = c.account := hkeep ho hsome
      rw [hacc] at hsame
      exact absurd hsame (Multiset.lt_cons_self _ _).ne
    · intro hcond
      obtain ⟨hopen, hputs⟩ := hcond ho
      rcases hbad with hexit | hno
      · rw [hopen] at hexit
        cases hexit
      · exact absurd hputs hno

/-- **The scans.** Nothing is lost exactly when the channel is exiting and the scan does nothing,
or the put of every due message succeeds. -/
theorem scan_keeps_iff (h : Sound c) (t : ℤ) :
    (NoLoss c (c.processInFlightQueue t).2 ↔ c.exiting = true ∨ c.PutsOk (c.dueInFlight t)) ∧
      (NoLoss c (c.processDeferredQueue t).2 ↔ c.exiting = true ∨ c.PutsOk (c.dueDeferred t)) := by
  unfold processInFlightQueue processDeferredQueue
  cases hexit : c.exiting with
  | true => exact ⟨⟨fun _ => Or.inl rfl, fun _ => rfl⟩, ⟨fun _ => Or.inl rfl, fun _ => rfl⟩⟩
  | false =>
      rw [if_neg Bool.false_ne_true, if_neg Bool.false_ne_true]
      have h1 := (h.scanInFlight t false).2.2
      have h2 := (h.scanDeferred t false).2.2
      exact ⟨h1.trans ⟨Or.inr, fun hor => hor.resolve_left Bool.false_ne_true⟩,
        h2.trans ⟨Or.inr, fun hor => hor.resolve_left Bool.false_ne_true⟩⟩

/-- **When a put failure loses nothing.** In every reachable state: an erroneous requeue keeps the
message exactly when the client does not own it or the channel is open and the put succeeds, and a
scan keeps every due message exactly when the channel is exiting or all their puts succeed. -/
theorem put_failure_loses_iff (h : Reachable c) (clientID : String) (id : MessageID) (now t : ℤ) :
    (∃ r, c.requeueMessage clientID id 0 now = some r ∧
      ((c.inFlight.Owned clientID id → r.1 ≠ none → NoLoss c r.2) ↔
        (c.inFlight.Owned clientID id → c.exiting = false ∧ c.PutsOk 1))) ∧
    (NoLoss c (c.processInFlightQueue t).2 ↔ c.exiting = true ∨ c.PutsOk (c.dueInFlight t)) ∧
    (NoLoss c (c.processDeferredQueue t).2 ↔ c.exiting = true ∨ c.PutsOk (c.dueDeferred t)) :=
  ⟨requeue_keeps_iff h.sound clientID id now, scan_keeps_iff h.sound t⟩

/-! ### A disk that fails once -/

/-- The disk queue accepts its first record and no other. -/
def failsAfterOne (k : ℕ) : GoError := if k = 0 then none else some "never gonna happen"

/-- A channel without memory queue. -/
def failing : Channel := newChannel ⟨0, 100⟩ (newBackend false failsAfterOne) ∅

/-- Its only message is put and delivered to client `a`. -/
def oneInFlight : Channel :=
  (((failing.alloc (newMessage (Vector.replicate 16 1) [7] 0)).putMessage 0).2).deliverBackend "a"
    5 0

theorem oneInFlight_reachable : Reachable oneInFlight :=
  ⟨⟨0, 100⟩, false, failsAfterOne, ∅, [.op (.putMessage (newMessage (Vector.replicate 16 1) [7] 0)),
    .op (.deliverBackend "a" 5 0)], rfl⟩

/-- The message is in flight; after a requeue that returned an error, and also after a scan past
its timeout, it is nowhere. -/
theorem put_failure_loses :
    Reachable oneInFlight ∧ oneInFlight.inFlight.Owned "a" (Vector.replicate 16 1) ∧
      oneInFlight.held = {Vector.replicate 16 1} ∧
      (∃ r, oneInFlight.requeueMessage "a" (Vector.replicate 16 1) 0 1 = some r ∧
        r.1 = some "never gonna happen" ∧ r.2.held = 0 ∧ ¬ NoLoss oneInFlight r.2) ∧
      (oneInFlight.processInFlightQueue 5).2.held = 0 ∧
      ¬ NoLoss oneInFlight (oneInFlight.processInFlightQueue 5).2 := by
  refine ⟨oneInFlight_reachable, ⟨1, by decide +kernel, by decide +kernel⟩, by decide +kernel,
    ⟨(oneInFlight.requeueMessage "a" (Vector.replicate 16 1) 0 1).get (by decide +kernel),
      (Option.some_get _).symm, by decide +kernel, by decide +kernel, ?_⟩, by decide +kernel, ?_⟩
  · unfold NoLoss
    decide +kernel
  · unfold NoLoss
    decide +kernel

/-- In that state the condition of the deferred scan holds and that of the in-flight scan does
not. -/
theorem put_failure_loses_iff_oneInFlight :
    NoLoss oneInFlight (oneInFlight.processDeferredQueue 5).2 ∧
      ¬ NoLoss oneInFlight (oneInFlight.processInFlightQueue 5).2 :=
  ⟨(put_failure_loses_iff oneInFlight_reachable "a" (Vector.replicate 16 1) 1 5).2.2.mpr
      (by decide +kernel),
    fun h => absurd
      ((put_failure_loses_iff oneInFlight_reachable "a" (Vector.replicate 16 1) 1 5).2.1.mp h)
      (by decide +kernel)⟩

end Channel

end Xmq
