import Xmq.LockPrograms

/-!
# The lock of a topic

The operations of a topic as programs at its `RWMutex`: where they take it, where they release it,
and what they look at in between. Any number of them are under way together, with the handlers that
the raft log runs.

* `lock_disciplined_iff`: nobody releases a lock that it does not hold, and nobody returns with one,
  exactly when no `DeleteExistingChannel` has its deletion accepted, and no `GetChannel` misses a
  channel that it has just had made.
-/

namespace Xmq.TopicLocks

open Xmq.Runs
open Xmq.RWLock (Prog Service Held)

/-! ### What the operations look at -/

/-- The fields of the topic that decide a branch. -/
structure Fields where
  exitFlag : Bool
  channels : List String
  deriving DecidableEq

/-- What an operation asks between its steps at the lock. -/
inductive Question where
  /-- `atomic.LoadInt32(&t.ExitFlag) == 1`. -/
  | exiting
  /-- `atomic.CompareAndSwapInt32(&t.ExitFlag, 0, 1)`. -/
  | swapExitFlag
  /-- `t.Channels[channelName]` is there. -/
  | hasChannel (channelName : String)
  /-- The second look of `getOrCreateChannel`, after the channel was made. -/
  | hasNewChannel (channelName : String)
  /-- The names of `t.Channels`. -/
  | channels
  /-- `cluster.NewChannel` returned no error. -/
  | newChannel (channelName : String)
  /-- `cluster.DeleteChannel` of `DeleteExistingChannel` returned no error. -/
  | deleteChannel (channelName : String)
  /-- `cluster.DeleteChannel` of `exit`, which looks at no error. -/
  | dropChannel (channelName : String)
  /-- `cluster.TopicUpdate`, whose error nobody looks at. -/
  | topicUpdate (field : String)
  /-- `topic.put` returned no error. -/
  | put
  /-- `t.waitGroup.Wait()`. -/
  | wait
  /-- A handler finds its arguments, its topic and its value in order. -/
  | valid
  /-- `t.Channels[c.Name] = c`. -/
  | saveChannel (channelName : String)
  /-- `delete(topic.Channels, sp.Args[1])`. -/
  | removeChannel (channelName : String)
  /-- What `ClusterTopicUpdate` writes, without the lock. -/
  | overwrite (fields : Fields)

def Question.Answer : Question → Type
  | .channels => List String
  | .wait | .saveChannel _ | .removeChannel _ | .overwrite _ => Unit
  | .exiting | .swapExitFlag | .hasChannel _ | .hasNewChannel _ | .newChannel _ | .deleteChannel _
  | .dropChannel _ | .topicUpdate _ | .put | .valid => Bool

/-- What the fields answer, or what comes from outside: a submission ends well or it does not. -/
def look : (q : Question) → Bool → Fields → Option (q.Answer × Fields)
  | .exiting, _, w => some (w.exitFlag, w)
  | .swapExitFlag, _, w => some (!w.exitFlag, { w with exitFlag := true })
  | .hasChannel c, _, w => some (decide (c ∈ w.channels), w)
  | .hasNewChannel c, _, w => some (decide (c ∈ w.channels), w)
  | .channels, _, w => some (w.channels, w)
  | .newChannel _, i, w => some (i, w)
  | .deleteChannel _, i, w => some (i, w)
  | .dropChannel _, i, w => some (i, w)
  | .topicUpdate _, i, w => some (i, w)
  | .put, i, w => some (i, w)
  | .wait, _, w => some ((), w)
  | .valid, i, w => some (i, w)
  | .saveChannel c, _, w => some ((), { w with channels := c :: w.channels.filter (· ≠ c) })
  | .removeChannel c, _, w => some ((), { w with channels := w.channels.filter (· ≠ c) })
  | .overwrite fields, _, _ => some ((), fields)

/-! ### The operations -/

abbrev Program : Type := Prog Question Question.Answer

/-- `GetChannel`; what is left where this ends is to tell the pump. -/
def getChannel (channelName : String) : Program :=
  .rLock <| .ask (.hasChannel channelName) fun (ok : Bool) =>
    if ok then .rUnlock .ret
    else .rUnlock <| .ask (.newChannel channelName) fun (done : Bool) =>
      if done then
        .rLock <| .ask (.hasNewChannel channelName) fun (ok : Bool) =>
          -- "not saved in channels" returns under the read lock
          if ok then .rUnlock .ret else .ret
      else .ret

def getExistingChannel (channelName : String) : Program :=
  .rLock <| .ask (.hasChannel channelName) fun _ => .rUnlock .ret

def deleteExistingChannel (channelName : String) : Program :=
  .ask (.deleteChannel channelName) fun (done : Bool) =>
    -- nothing has taken the lock that is released here
    if done then .unlock .ret else .ret

/-- The two replications that follow a put, and the deferred release. -/
def putDone (first second : String) : Program :=
  .ask (.topicUpdate first) fun _ => .ask (.topicUpdate second) fun _ => .rUnlock .ret

def putMessage : Program :=
  .rLock <| .ask .exiting fun (exiting : Bool) =>
    if exiting then .rUnlock .ret
    else .ask .put fun (ok : Bool) =>
      if ok then putDone "MessageCount" "MessageBytes" else .rUnlock .ret

/-- The loop of `PutMessages` over the messages that are left. -/
def putLoop : ℕ → Program
  | 0 => putDone "MessageBytes" "MessageCount"
  | n + 1 => .ask .put fun (ok : Bool) =>
      if ok then putLoop n else putDone "MessageCount" "MessageBytes"

def putMessages (n : ℕ) : Program :=
  .rLock <| .ask .exiting fun (exiting : Bool) => if exiting then .rUnlock .ret else putLoop n

/-- `exit` asks for the deletion of each channel under the write lock. -/
def dropLoop : List String → Program
  | [] => .unlock .ret
  | cn :: names => .ask (.dropChannel cn) fun _ => dropLoop names

def exit (deleted : Bool) : Program :=
  .ask .swapExitFlag fun (swapped : Bool) =>
    if swapped then
      .ask (.topicUpdate "ExitFlag") fun _ => .ask .wait fun _ =>
        if deleted then .lock <| .ask .channels fun (names : List String) => dropLoop names
        else .rLock <| .ask .channels fun _ => .rUnlock .ret
    else .ret

def aggregateChannelE2eProcessingLatency : Program :=
  .rLock <| .ask .channels fun _ => .rUnlock .ret

def clusterNewChannel (channelName : String) : Program :=
  .ask .valid fun (valid : Bool) =>
    if valid then .lock <| .ask (.saveChannel channelName) fun _ => .unlock .ret else .ret

def clusterDeleteChannel (channelName : String) : Program :=
  .ask .valid fun (valid : Bool) =>
    if valid then
      .lock <| .ask (.hasChannel channelName) fun (ok : Bool) =>
        if ok then .ask (.removeChannel channelName) fun _ => .unlock .ret else .unlock .ret
    else .ret

def clusterTopicUpdate (fields : Fields) : Program :=
  .ask .valid fun (valid : Bool) =>
    if valid then .ask (.overwrite fields) fun _ => .ret else .ret

inductive Operation where
  | getChannel (channelName : String)
  | getExistingChannel (channelName : String)
  | deleteExistingChannel (channelName : String)
  | putMessage
  | putMessages (n : ℕ)
  | exit (deleted : Bool)
  | aggregateChannelE2eProcessingLatency
  | clusterNewChannel (channelName : String)
  | clusterDeleteChannel (channelName : String)
  | clusterTopicUpdate (fields : Fields)

def Operation.program : Operation → Program
  | .getChannel c => TopicLocks.getChannel c
  | .getExistingChannel c => TopicLocks.getExistingChannel c
  | .deleteExistingChannel c => TopicLocks.deleteExistingChannel c
  | .putMessage => TopicLocks.putMessage
  | .putMessages n => TopicLocks.putMessages n
  | .exit deleted => TopicLocks.exit deleted
  | .aggregateChannelE2eProcessingLatency => TopicLocks.aggregateChannelE2eProcessingLatency
  | .clusterNewChannel c => TopicLocks.clusterNewChannel c
  | .clusterDeleteChannel c => TopicLocks.clusterDeleteChannel c
  | .clusterTopicUpdate fields => TopicLocks.clusterTopicUpdate fields

/-- The operations and the handlers of one topic. -/
def topic : Service Question Question.Answer Fields Bool Operation := ⟨Operation.program, look⟩

/-! ### Following the operations -/

/-- The deletion that `DeleteExistingChannel` asks for is not accepted, and `GetChannel` finds the
channel that it has had made. -/
def GoesWell : (q : Question) → q.Answer → Prop
  | .deleteChannel _, (done : Bool) => done = false
  | .hasNewChannel _, (ok : Bool) => ok = true
  | .exiting, _ | .swapExitFlag, _ | .hasChannel _, _ | .channels, _ | .newChannel _, _
  | .dropChannel _, _ | .topicUpdate _, _ | .put, _ | .wait, _ | .valid, _
  | .saveChannel _, _ | .removeChannel _, _ | .overwrite _, _ => True

abbrev WellLocked : Held → Program → Prop := RWLock.WellLocked GoesWell

variable {h : Held} {q : Question}

theorem wellLocked_ask {k : q.Answer → Program} (hq : ∀ a, GoesWell q a)
    (hk : ∀ a, WellLocked h (k a)) : WellLocked h (.ask q k) := by
  intro a
  exact ⟨fun _ => hk a, fun hbad => absurd (hq a) hbad⟩

theorem getChannel_wellLocked (channelName : String) :
    WellLocked .nothing (getChannel channelName) := by
  refine ⟨rfl, wellLocked_ask (fun _ => trivial) ?_⟩
  intro (ok : Bool)
  cases ok with
  | true => exact ⟨rfl, rfl⟩
  | false =>
      refine ⟨rfl, wellLocked_ask (fun _ => trivial) ?_⟩
      intro (done : Bool)
      cases done with
      | false => exact rfl
      | true =>
          refine ⟨rfl, ?_⟩
          intro (ok : Bool)
          cases ok with
          | true => exact ⟨fun _ => ⟨rfl, rfl⟩, fun hbad => absurd rfl hbad⟩
          | false =>
              have hfaulty : Held.read ≠ Held.nothing := by decide
              exact ⟨fun hok => Bool.noConfusion hok, fun _ => hfaulty⟩

theorem deleteExistingChannel_wellLocked (channelName : String) :
    WellLocked .nothing (deleteExistingChannel channelName) := by
  intro (done : Bool)
  cases done with
  | false => exact ⟨fun _ => rfl, fun hbad => absurd rfl hbad⟩
  | true =>
      have hfaulty : Held.nothing ≠ Held.write := by decide
      exact ⟨fun hok => Bool.noConfusion hok, fun _ => hfaulty⟩

theorem putDone_wellLocked (first second : String) : WellLocked .read (putDone first second) := by
  refine wellLocked_ask (fun _ => trivial) fun _ => wellLocked_ask (fun _ => trivial) fun _ => ?_
  exact ⟨rfl, rfl⟩

theorem putMessage_wellLocked : WellLocked .nothing putMessage := by
  refine ⟨rfl, wellLocked_ask (fun _ => trivial) ?_⟩
  intro (exiting : Bool)
  cases exiting with
  | true => exact ⟨rfl, rfl⟩
  | false =>
      refine wellLocked_ask (fun _ => trivial) ?_
      intro (ok : Bool)
      cases ok with
      | true => exact putDone_wellLocked _ _
      | false => exact ⟨rfl, rfl⟩

theorem putLoop_wellLocked (n : ℕ) : WellLocked .read (putLoop n) := by
  induction n with
  | zero => exact putDone_wellLocked _ _
  | succ n ih =>
      refine wellLocked_ask (fun _ => trivial) ?_
      intro (ok : Bool)
      cases ok with
      | true => exact ih
      | false => exact putDone_wellLocked _ _

theorem putMessages_wellLocked (n : ℕ) : WellLocked .nothing (putMessages n) := by
  refine ⟨rfl, wellLocked_ask (fun _ => trivial) ?_⟩
  intro (exiting : Bool)
  cases exiting with
  | true => exact ⟨rfl, rfl⟩
  | false => exact putLoop_wellLocked n

theorem dropLoop_wellLocked (names : List String) : WellLocked .write (dropLoop names) := by
  induction names with
  | nil => exact ⟨rfl, rfl⟩
  | cons cn names ih => exact wellLocked_ask (fun _ => trivial) fun _ => ih

theorem exit_wellLocked (deleted : Bool) : WellLocked .nothing (exit deleted) := by
  refine wellLocked_ask (fun _ => trivial) ?_
  intro (swapped : Bool)
  cases swapped with
  | false => exact rfl
  | true =>
      refine wellLocked_ask (fun _ => trivial) fun _ =>
        wellLocked_ask (fun _ => trivial) fun _ => ?_
      cases deleted with
      | true => exact ⟨rfl, wellLocked_ask (fun _ => trivial) dropLoop_wellLocked⟩
      | false => exact ⟨rfl, wellLocked_ask (fun _ => trivial) fun _ => ⟨rfl, rfl⟩⟩

theorem clusterNewChannel_wellLocked (channelName : String) :
    WellLocked .nothing (clusterNewChannel channelName) := by
  refine wellLocked_ask (fun _ => trivial) ?_
  intro (valid : Bool)
  cases valid with
  | false => exact rfl
  | true => exact ⟨rfl, wellLocked_ask (fun _ => trivial) fun _ => ⟨rfl, rfl⟩⟩

theorem clusterDeleteChannel_wellLocked (channelName : String) :
    WellLocked .nothing (clusterDeleteChannel channelName) := by
  refine wellLocked_ask (fun _ => trivial) ?_
  intro (valid : Bool)
  cases valid with
  | false => exact rfl
  | true =>
      refine ⟨rfl, wellLocked_ask (fun _ => trivial) ?_⟩
      intro (ok : Bool)
      cases ok with
      | false => exact ⟨rfl, rfl⟩
      | true => exact wellLocked_ask (fun _ => trivial) fun _ => ⟨rfl, rfl⟩

/-- Every operation holds the right lock at each place, whatever it is answered, up to a bad
answer. -/
theorem program_wellLocked (op : Operation) : WellLocked .nothing op.program := by
  cases op with
  | getChannel c => exact getChannel_wellLocked c
  | getExistingChannel c => exact ⟨rfl, wellLocked_ask (fun _ => trivial) fun _ => ⟨rfl, rfl⟩⟩
  | deleteExistingChannel c => exact deleteExistingChannel_wellLocked c
  | putMessage => exact putMessage_wellLocked
  | putMessages n => exact putMessages_wellLocked n
  | exit deleted => exact exit_wellLocked deleted
  | aggregateChannelE2eProcessingLatency =>
      exact ⟨rfl, wellLocked_ask (fun _ => trivial) fun _ => ⟨rfl, rfl⟩⟩
  | clusterNewChannel c => exact clusterNewChannel_wellLocked c
  | clusterDeleteChannel c => exact clusterDeleteChannel_wellLocked c
  | clusterTopicUpdate fields =>
      refine wellLocked_ask (fun _ => trivial) ?_
      intro (valid : Bool)
      cases valid with
      | false => exact rfl
      | true => exact wellLocked_ask (fun _ => trivial) fun _ => rfl

/-! ### Runs of the topic -/

/-- A topic that nobody has used, with these fields. -/
def init (fields : Fields) : RWLock.State Question Question.Answer Fields := RWLock.init _ _ fields

/-- The act does not answer that the deletion of a `DeleteExistingChannel` was accepted, nor is it
the second look of a `GetChannel` at a channel that is not there. -/
def Spared (s : RWLock.State Question Question.Answer Fields) : RWLock.Act Bool Operation → Prop
  | .answer k i => ∀ t ∈ s.threads[k]?,
      (∀ c f, t.todo = .ask (.deleteChannel c) f → i = false) ∧
      (∀ c f, t.todo = .ask (.hasNewChannel c) f → c ∈ s.world.channels)
  | .start _ => True
  | .go _ => True

theorem careful_iff (s : RWLock.State Question Question.Answer Fields)
    (a : RWLock.Act Bool Operation) : RWLock.Careful topic GoesWell s a ↔ Spared s a := by
  cases a with
  | start op => rfl
  | go k => rfl
  | answer k i =>
      constructor
      · intro h t ht
        refine ⟨?_, ?_⟩
        · intro c f hask
          exact h t ht _ f hask _ rfl
        · intro c f hask
          exact of_decide_eq_true (h t ht _ f hask _ rfl)
      · intro h t ht q f hask r hr
        cases q with
        | deleteChannel c =>
            cases hr
            exact (h t ht).1 c f hask
        | hasNewChannel c =>
            cases hr
            exact decide_eq_true ((h t ht).2 c f hask)
        | exiting | swapExitFlag | hasChannel c | channels | newChannel c | dropChannel c
          | topicUpdate field | put | wait | valid | saveChannel c | removeChannel c
          | overwrite fields => trivial

/-- **The lock discipline of a topic.** From every state of its fields and in every order of any
number of operations and handlers: no operation releases a lock that it does not hold, and none has
returned with one, exactly when no deletion of a `DeleteExistingChannel` is accepted and no second
look of a `GetChannel` misses the channel. -/
theorem lock_disciplined_iff (fields : Fields) (acts : List (RWLock.Act Bool Operation)) :
    Along (RWLock.step topic) (RWLock.LeavesDisciplined topic) (init fields) acts ↔
      Along (RWLock.step topic) Spared (init fields) acts := by
  have hcareful : RWLock.Careful topic GoesWell = Spared := by
    funext s a
    exact propext (careful_iff s a)
  rw [← hcareful]
  exact RWLock.disciplined_iff program_wellLocked fields acts

/-- A `DeleteExistingChannel` up to its release of the lock, with the handler that it has waited
for. -/
def deletion : List (RWLock.Act Bool Operation) :=
  [.start (.deleteExistingChannel "a"), .start (.clusterDeleteChannel "a"), .answer 1 true, .go 1,
    .answer 1 true, .answer 1 true, .go 1, .answer 0 true, .go 0]

/-- The handler has given the lock back, and the caller releases it once more: the node crashes. -/
theorem delete_existing_channel_crashes :
    ¬ Along (RWLock.step topic) (RWLock.LeavesDisciplined topic) (init ⟨false, ["a"]⟩) deletion ∧
      ∃ s, run (RWLock.step topic) (init ⟨false, ["a"]⟩) deletion = some s ∧ s.crashed = true ∧
        s.world.channels = [] := by
  refine ⟨?_, _, rfl, rfl, by decide⟩
  intro h
  have hlast := (h.append (l := deletion.take 8) (k := [.go 0]) rfl).head
  have hcrashed := (hlast _ rfl).running
  exact absurd hcrashed (by decide)

end Xmq.TopicLocks
