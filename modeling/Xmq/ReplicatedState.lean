import Mathlib.Logic.Function.Basic
import Xmq.ClusterModel

/-!
# The replicated state

What the log is there to keep equal on all nodes: which topics exist, the channels of each, its
counters, and whether it is paused or exiting. An entry changes this state without a look at
queues, clients or pointers; `Xmq.ClusterRefinement` shows that the handlers do to a node what
`Replica.step` does to its replicated state.
-/

namespace Xmq.Cluster

/-- A topic. A channel is there when `channels` maps it to `some`; the value says whether its
deletion returns. -/
structure TopicState where
  name : String
  messageCount : UInt64
  messageBytes : UInt64
  paused : Int32
  exitFlag : Int32
  channels : String → Option Bool

abbrev Replica := String → Option TopicState

/-- The channels after a list of decoded ones is written over them. -/
def decodedChannels (f : String → Option Bool) : List (String × ChannelJSON) → String → Option Bool
  | [] => f
  | (name, j) :: rest => decodedChannels (Function.update f name (some (decide (j.exitFlag ≠ 0)))) rest

/-- The topic that `json` decodes, under the name of the entry. -/
def TopicJSON.state (j : TopicJSON) (name : String) : TopicState where
  name := name
  messageCount := j.messageCount
  messageBytes := j.messageBytes
  paused := j.paused
  exitFlag := j.exitFlag
  channels := decodedChannels (fun _ => none) j.channels

/-- Write one field of a topic. -/
def TopicState.write (libs : Libs) (s : TopicState) (value : String) : TopicField → TopicState
  | .messageCount => { s with messageCount := libs.toUint64 value }
  | .messageBytes => { s with messageBytes := libs.toUint64 value }
  | .name => { s with name := value }
  | .channels =>
    if value = "" then { s with channels := fun _ => none }
    else { s with channels := decodedChannels s.channels (libs.unmarshalChannels value).1 }
  | .exitFlag => { s with exitFlag := libs.toInt32 value }
  | .ephemeral => s
  | .paused => { s with paused := libs.toInt32 value }

/-! ### Commands -/

/-- What an entry asks for once its arguments and its value are read. -/
inductive Command where
  | newTopic (t : String) (j : TopicJSON)
  | newChannel (t c : String)
  | update (t : String) (field : TopicField) (value : String)
  | deleteChannel (t c : String)
  | deleteTopic (t : String)
  | nothing

def decodeNewTopic (libs : Libs) (sp : SetPayload) : Command :=
  match sp.args with
  | [name] =>
    if name = "" then .nothing
    else
      match libs.unmarshalTopic sp.value with
      | .error _ => .nothing
      | .ok j => .newTopic name j
  | _ => .nothing

def decodeNewChannel (libs : Libs) (sp : SetPayload) : Command :=
  match sp.args with
  | [topicName, name] =>
    if name = "" ∨ topicName = "" then .nothing
    else
      match libs.unmarshalChannel sp.value with
      | .error _ => .nothing
      | .ok _ => .newChannel topicName name
  | _ => .nothing

def decodeTopicUpdate (sp : SetPayload) : Command :=
  match sp.args with
  | [topicName, field] =>
    if topicName = "" ∨ field = "" then .nothing
    else
      match topicField field with
      | some f => .update topicName f sp.value
      | none => .nothing
  | _ => .nothing

def decodeDeleteChannel (sp : SetPayload) : Command :=
  match sp.args with
  | [topicName, name] =>
    if topicName = "" ∨ name = "" then .nothing else .deleteChannel topicName name
  | _ => .nothing

def decodeDeleteTopic (sp : SetPayload) : Command :=
  match sp.args with
  | [name] => if name = "" then .nothing else .deleteTopic name
  | _ => .nothing

def decode (libs : Libs) (sp : SetPayload) : Command :=
  if sp.method = "NewTopic" then decodeNewTopic libs sp
  else if sp.method = "NewChannel" then decodeNewChannel libs sp
  else if sp.method = "TopicUpdate" then decodeTopicUpdate sp
  else if sp.method = "DeleteChannel" then decodeDeleteChannel sp
  else if sp.method = "DeleteTopic" then decodeDeleteTopic sp
  else .nothing

section Methods

variable {libs : Libs} {sp : SetPayload}

theorem decode_of_newTopic (h : sp.method = "NewTopic") :
    decode libs sp = decodeNewTopic libs sp := by
  rw [decode, if_pos h]

theorem decode_of_newChannel (h : sp.method = "NewChannel") :
    decode libs sp = decodeNewChannel libs sp := by
  rw [decode, if_neg (by rw [h]; decide), if_pos h]

theorem decode_of_topicUpdate (h : sp.method = "TopicUpdate") :
    decode libs sp = decodeTopicUpdate sp := by
  rw [decode, if_neg (by rw [h]; decide), if_neg (by rw [h]; decide), if_pos h]

end Methods

namespace Command

/-- The one topic that a command is about. -/
def topic : Command → String
  | newTopic t _ => t
  | newChannel t _ => t
  | update t _ _ => t
  | deleteChannel t _ => t
  | deleteTopic t => t
  | nothing => ""

/-- Whether `Topic.Delete` returns when a node applies the entry: it does when the topic is exiting
already, or when its own submissions are refused. -/
def DeleteReturns (role : Role) (s : TopicState) : Prop :=
  s.exitFlag ≠ 0 ∨ role = .follower ∨ s.name = ""

instance (role : Role) (s : TopicState) : Decidable (DeleteReturns role s) :=
  inferInstanceAs (Decidable (_ ∨ _ ∨ _))

/-- What a command makes of its topic; `none` when the handler does not return. -/
def effect (libs : Libs) (role : Role) : Command → Option TopicState → Option (Option TopicState)
  | newTopic t j, _ => some (some (j.state t))
  | newChannel _ c, x =>
    some (x.map fun s => { s with channels := Function.update s.channels c (some true) })
  | update _ field value, x => some (x.map fun s => s.write libs value field)
  | deleteChannel _ _, none => some none
  | deleteChannel _ c, some s =>
    if s.channels c = some false then none
    else some (some { s with channels := Function.update s.channels c none })
  | deleteTopic _, none => some none
  | deleteTopic _, some s => if DeleteReturns role s then some none else none
  | nothing, x => some x

/-- The commands after which nothing is left of what their topic was. -/
def Resets (t : String) : Command → Prop
  | newTopic u _ => u = t
  | deleteTopic u => u = t
  | _ => False

end Command

namespace Replica

/-- A command changes its topic and no other. -/
def exec (libs : Libs) (role : Role) (v : Replica) (cmd : Command) : Option Replica :=
  (cmd.effect libs role (v cmd.topic)).map (Function.update v cmd.topic)

/-- What an entry does to the replicated state. -/
def step (libs : Libs) (role : Role) (v : Replica) (sp : SetPayload) : Option Replica :=
  v.exec libs role (decode libs sp)

/-- The entries of a log, in order. -/
def steps (libs : Libs) (role : Role) : Replica → List SetPayload → Option Replica
  | v, [] => some v
  | v, sp :: rest => (v.step libs role sp).bind fun v => steps libs role v rest

/-- A replica without topics. -/
def empty : Replica := fun _ => none

@[simp] theorem exec_nothing (libs : Libs) (role : Role) (v : Replica) :
    v.exec libs role .nothing = some v := by
  simp [exec, Command.effect]

theorem exec_eq_some {libs : Libs} {role : Role} {v w : Replica} {cmd : Command} :
    v.exec libs role cmd = some w ↔
      ∃ x, cmd.effect libs role (v cmd.topic) = some x ∧ w = Function.update v cmd.topic x := by
  rw [exec, Option.map_eq_some_iff]
  constructor
  · rintro ⟨x, hx, rfl⟩
    exact ⟨x, hx, rfl⟩
  · rintro ⟨x, hx, rfl⟩
    exact ⟨x, hx, rfl⟩

/-- A command whose effect leaves its topic as it was changes nothing. -/
theorem exec_same {libs : Libs} {role : Role} {v : Replica} {cmd : Command}
    (h : cmd.effect libs role (v cmd.topic) = some (v cmd.topic)) :
    v.exec libs role cmd = some v := by
  rw [exec, h, Option.map_some, Function.update_eq_self]

theorem steps_append (libs : Libs) (role : Role) (as bs : List SetPayload) :
    ∀ v : Replica, v.steps libs role (as ++ bs) =
      (v.steps libs role as).bind fun w => w.steps libs role bs := by
  induction as with
  | nil => intro v; rfl
  | cons a as ih =>
      intro v
      rw [List.cons_append, steps, steps, Option.bind_assoc]
      congr 1
      funext w
      exact ih w

end Replica

/-! ### What a command can do to its topic -/

namespace Command

variable {libs : Libs} {role : Role} {cmd : Command} {x y : Option TopicState}

/-- On an absent topic every command returns, and only a creation makes it exist. -/
theorem effect_none (libs : Libs) (role : Role) (cmd : Command) :
    ∃ x, cmd.effect libs role none = some x ∧ (¬ cmd.Resets cmd.topic → x = none) := by
  cases cmd with
  | newTopic t j => exact ⟨_, rfl, fun h => absurd rfl h⟩
  | newChannel t c => exact ⟨_, rfl, fun _ => rfl⟩
  | update t f value => exact ⟨_, rfl, fun _ => rfl⟩
  | deleteChannel t c => exact ⟨_, rfl, fun _ => rfl⟩
  | deleteTopic t => exact ⟨_, rfl, fun _ => rfl⟩
  | nothing => exact ⟨_, rfl, fun _ => rfl⟩

/-- A reset that returns leaves what it leaves of an absent topic. -/
theorem effect_resets (h : cmd.effect libs role x = some y) (hr : cmd.Resets cmd.topic) :
    cmd.effect libs role none = some y := by
  cases cmd with
  | newTopic t j => exact h
  | deleteTopic t =>
      cases x with
      | none => exact h
      | some s =>
          rw [effect] at h
          split at h
          · exact h
          · cases h
  | newChannel t c => exact hr.elim
  | update t f value => exact hr.elim
  | deleteChannel t c => exact hr.elim
  | nothing => exact hr.elim

/-- Any other command leaves a topic there or not there. -/
theorem effect_isSome (h : cmd.effect libs role x = some y) (hr : ¬ cmd.Resets cmd.topic) :
    y.isSome = x.isSome := by
  cases cmd with
  | newTopic t j => exact absurd rfl hr
  | deleteTopic t => exact absurd rfl hr
  | newChannel t c =>
      cases h
      exact Option.isSome_map
  | update t f value =>
      cases h
      exact Option.isSome_map
  | deleteChannel t c =>
      cases x with
      | none =>
          cases h
          rfl
      | some s =>
          rw [effect] at h
          split at h
          · cases h
          · cases h
            rfl
  | nothing =>
      cases h
      rfl

theorem topic_of_resets {t : String} (h : cmd.Resets t) : cmd.topic = t := by
  cases cmd with
  | newTopic u j => exact h
  | deleteTopic u => exact h
  | newChannel u c => exact h.elim
  | update u f value => exact h.elim
  | deleteChannel u c => exact h.elim
  | nothing => exact h.elim

end Command

end Xmq.Cluster
