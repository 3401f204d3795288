import Xmq.ClusterDelete

/-!
# Several nodes and one log

Every node applies the same log in order. Calls on a node write a field of a topic first and submit
its value afterwards; they ignore what becomes of the submission. A run interleaves the calls with
the nodes applying entries, with entries that create or delete, and with changes of the leader.

* The log holds the entries that are committed, in order; a submission that got into the log is
  answered when the node has applied it, or with an error.
* A handler that waits for its own entry blocks its node until the wait fails.
-/

namespace Xmq.Cluster

/-! ### Calls -/

/-- A write that a call makes to a topic before it submits the field. -/
inductive LocalWrite where
  | addMessageCount (k : ℕ)
  | addMessageBytes (k : ℕ)
  | storePaused (pause : Bool)
  | storeExitFlag
  deriving DecidableEq

namespace LocalWrite

def field : LocalWrite → TopicField
  | addMessageCount _ => .messageCount
  | addMessageBytes _ => .messageBytes
  | storePaused _ => .paused
  | storeExitFlag => .exitFlag

def fieldName : LocalWrite → String
  | addMessageCount _ => "MessageCount"
  | addMessageBytes _ => "MessageBytes"
  | storePaused _ => "Paused"
  | storeExitFlag => "ExitFlag"

def run (t : TopicObj) : LocalWrite → TopicObj
  | addMessageCount k => { t with messageCount := t.messageCount + UInt64.ofNat k }
  | addMessageBytes k => { t with messageBytes := t.messageBytes + UInt64.ofNat k }
  | storePaused pause => { t with paused := if pause then 1 else 0 }
  | storeExitFlag => { t with exitFlag := 1 }

/-- The text that is submitted: the field as it is read for the submission. -/
def value (libs : Libs) (t : TopicObj) : LocalWrite → String
  | addMessageCount _ => libs.uint64ToString t.messageCount
  | addMessageBytes _ => libs.uint64ToString t.messageBytes
  | storePaused _ => libs.int32ToString t.paused
  | storeExitFlag => libs.int32ToString t.exitFlag

end LocalWrite

/-- `PutMessage` whose `put` succeeds or not, `PutMessages` whose first `put` messages get through,
`doPause`, and `exit(false)`. -/
inductive Call where
  | putMessage (m : Message) (put : Bool)
  | putMessages (msgs : List Message) (put : ℕ)
  | doPause (pause : Bool)
  | close

def messageTotalBytes (msgs : List Message) : ℕ := (msgs.map fun m => m.body.length).sum

/-- The writes of a call, in order. -/
def Call.writes (t : TopicObj) : Call → List LocalWrite
  | putMessage m put =>
    if t.exitFlag = 1 ∨ put = false then []
    else [.addMessageCount 1, .addMessageBytes m.body.length]
  | putMessages msgs put =>
    if t.exitFlag = 1 then []
    else if put < msgs.length then
      [.addMessageCount put, .addMessageBytes (messageTotalBytes (msgs.take put))]
    else [.addMessageBytes (messageTotalBytes msgs), .addMessageCount msgs.length]
  | doPause pause => [.storePaused pause]
  | close => if t.exitFlag ≠ 0 then [] else [.storeExitFlag]

/-- Where a call is: before its next write, before its submission, or waiting for the entry `i`. -/
inductive CallPC where
  | ready (todo : List LocalWrite)
  | wrote (w : LocalWrite) (todo : List LocalWrite)
  | waiting (w : LocalWrite) (i : ℕ) (todo : List LocalWrite)
  deriving DecidableEq

structure CallState (ι : Type) where
  node : ι
  ptr : TopicPtr
  pc : CallPC

/-! ### The cluster -/

structure Sys (ι : Type) where
  log : List SetPayload
  node : ι → Node
  role : ι → Role
  /-- How many entries of the log the node has applied. -/
  applied : ι → ℕ
  /-- The topic whose deletion the node is in, when it waits there. -/
  blocked : ι → Option (String × TopicPtr)
  calls : List (CallState ι)

inductive SysAct (ι : Type) where
  | request (i : ι) (sp : SetPayload)
  | begin (i : ι) (p : TopicPtr) (call : Call)
  | write (k : ℕ)
  | submit (k : ℕ) (accepted : Bool)
  | fail (k : ℕ)
  | resume (k : ℕ)
  | apply (i : ι)
  | abandon (i : ι)
  | elect (i : ι) (role : Role)

variable {ι : Type}

namespace Sys

/-- All nodes empty. -/
def init (opts : ι → ChannelOptions) (role : ι → Role) : Sys ι where
  log := []
  node := fun i => Node.empty (opts i)
  role := role
  applied := fun _ => 0
  blocked := fun _ => none
  calls := []

def setCall (s : Sys ι) (k : ℕ) (c : CallState ι) : Sys ι := { s with calls := s.calls.set k c }

/-- The topic object that a call holds. -/
def topicOf (s : Sys ι) (c : CallState ι) : TopicObj := (s.node c.node).topicObj c.ptr

/-- Whether `TopicUpdate` gets its entry into the log. -/
def Accepts (s : Sys ι) (c : CallState ι) (accepted : Bool) : Prop :=
  accepted = true ∧ s.role c.node = .leader ∧ (s.topicOf c).name ≠ ""

instance (s : Sys ι) (c : CallState ι) (accepted : Bool) : Decidable (s.Accepts c accepted) :=
  inferInstanceAs (Decidable (_ ∧ _ ∧ _))

/-- No call and no handler is under way on the node. -/
def Quiet (s : Sys ι) (i : ι) : Prop :=
  s.blocked i = none ∧ ∀ c ∈ s.calls, c.node = i → c.pc = .ready []

instance [DecidableEq ι] (s : Sys ι) (i : ι) : Decidable (s.Quiet i) :=
  inferInstanceAs (Decidable (_ ∧ _))

/-- The submissions of calls get into the log and are answered. -/
def Answered (s : Sys ι) : SysAct ι → Prop
  | .submit k accepted => ∀ c ∈ s.calls[k]?, s.Accepts c accepted
  | .fail _ => False
  | _ => True

instance (s : Sys ι) : ∀ a, Decidable (s.Answered a)
  | .submit k accepted => inferInstanceAs (Decidable (∀ c ∈ s.calls[k]?, s.Accepts c accepted))
  | .fail _ => isFalse id
  | .request _ _ | .begin _ _ _ | .write _ | .resume _ | .apply _ | .abandon _ | .elect _ _ =>
    isTrue trivial

variable [DecidableEq ι]

def setNode (s : Sys ι) (i : ι) (n : Node) : Sys ι := { s with node := Function.update s.node i n }

/-- The handler of the deletion of `t` sets the exit flag, submits it and waits. -/
def stall (libs : Libs) (s : Sys ι) (i : ι) (t : String) (p : TopicPtr) : Sys ι :=
  let o := (s.node i).topicObj p
  { s with
    node := Function.update s.node i ((s.node i).setTopic p { o with exitFlag := 1 })
    log := s.log ++ [topicUpdateEntry o.name "ExitFlag" (libs.int32ToString 1)]
    blocked := Function.update s.blocked i (some (t, p)) }

def step (libs : Libs) (s : Sys ι) : SysAct ι → Option (Sys ι)
  | .request i sp =>
    if s.role i = .leader ∧ sp.method ≠ "TopicUpdate" then some { s with log := s.log ++ [sp] }
    else none
  | .begin i p call =>
    if p < (s.node i).nextTopic then
      some { s with calls := s.calls ++ [⟨i, p, .ready (call.writes ((s.node i).topicObj p))⟩] }
    else none
  | .write k =>
    match s.calls[k]? with
    | some ⟨i, p, .ready (w :: todo)⟩ =>
      some ((s.setNode i ((s.node i).setTopic p (w.run ((s.node i).topicObj p)))).setCall k
        ⟨i, p, .wrote w todo⟩)
    | _ => none
  | .submit k accepted =>
    match s.calls[k]? with
    | some ⟨i, p, .wrote w todo⟩ =>
      let o := (s.node i).topicObj p
      if s.Accepts ⟨i, p, .wrote w todo⟩ accepted then
        some ({ s with
          log := s.log ++ [topicUpdateEntry o.name w.fieldName (w.value libs o)] }.setCall k
          ⟨i, p, .waiting w s.log.length todo⟩)
      else some (s.setCall k ⟨i, p, .ready todo⟩)
    | _ => none
  | .fail k =>
    match s.calls[k]? with
    | some ⟨i, p, .waiting _ _ todo⟩ => some (s.setCall k ⟨i, p, .ready todo⟩)
    | _ => none
  | .resume k =>
    match s.calls[k]? with
    | some ⟨i, p, .waiting _ e todo⟩ =>
      if e < s.applied i then some (s.setCall k ⟨i, p, .ready todo⟩) else none
    | _ => none
  | .apply i =>
    match s.blocked i, s.log[s.applied i]? with
    | none, some sp =>
      match Cluster.apply libs (s.role i) (s.node i) sp with
      | .done _ n =>
        some { s.setNode i n with applied := Function.update s.applied i (s.applied i + 1) }
      | .stuck =>
        match sp.args with
        | [t] => ((s.node i).topics.lookup t).map (s.stall libs i t)
        | _ => none
      | .panic => none
    | _, _ => none
  | .abandon i =>
    match s.blocked i with
    | some (t, p) =>
      some { s.setNode i (exitedNode (s.node i) p t .returned) with
        applied := Function.update s.applied i (s.applied i + 1)
        blocked := Function.update s.blocked i none }
    | none => none
  | .elect i role => some { s with role := Function.update s.role i role }

end Sys

/-- The topics, and of each its channels, `MessageCount`, `MessageBytes`, `Paused` and `ExitFlag`. -/
def Replica.agreed (v : Replica) (t : String) :
    Option (UInt64 × UInt64 × Int32 × Int32 × (String → Bool)) :=
  (v t).map fun s =>
    (s.messageCount, s.messageBytes, s.paused, s.exitFlag, fun c => (s.channels c).isSome)

end Xmq.Cluster
