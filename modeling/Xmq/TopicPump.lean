import Xmq.GoMap
import Xmq.Message

/-!
# The message pump of a topic

The pump of a topic works from its own list of the topic's channels. It reads `Topic.Channels` when it
starts and whenever it is told of a change, and between two such readings it takes messages from the
topic and puts each of them to every channel of its list. This module is the topic, its pump, and what
the raft handlers and publishers do to the topic; who does what, and when, comes later.

* A put is a call of `PutMessage` or `PutMessageDeferred`; what the channel makes of it is not followed.
* A section under the topic's lock is one step. A Go map is ranged over in any order.
-/

namespace Xmq.Pump

abbrev ChannelPtr := ℕ

/-! ### The topic -/

/-- The moment at which the pump takes a message: the topic's channels and its pause flag, and whether
no call was changing the topic then. -/
structure Moment where
  msg : Message
  channels : GoMap String ChannelPtr
  paused : Bool
  calm : Bool
  deriving DecidableEq

/-- A message that the pump took, and the puts so far. -/
structure Take where
  moment : Moment
  puts : List (ChannelPtr × Message)
  deriving DecidableEq

/-- Before `Start`, about to read `Topic.Channels`, in `select`, or with channels left to put to. -/
inductive PumpPC where
  | waiting
  | loading
  | selecting
  | putting (take : Take) (todo : List ChannelPtr)
  deriving DecidableEq

/-- `chans` is the pump's own list, `sources` says whether it takes messages, and `taken` records what
it is done with. -/
structure Topic where
  channels : GoMap String ChannelPtr
  nextChannel : ChannelPtr
  paused : Bool
  startChan : Bool
  memoryMsgChan : List Message
  backend : BackendQueue
  pump : PumpPC
  chans : List ChannelPtr
  sources : Bool
  taken : List Take

/-- What `ClusterNewTopic` sets up, and starts at once. -/
def newTopic (backend : BackendQueue) : Topic where
  channels := ∅
  nextChannel := 0
  paused := false
  startChan := true
  memoryMsgChan := []
  backend := backend
  pump := .waiting
  chans := []
  sources := false
  taken := []

/-- The copy that every channel but the first gets. -/
def copyMessage (m : Message) (now : Int64) : Message :=
  { newMessage m.id m.body now with timestamp := m.timestamp, deferred := m.deferred }

namespace Topic

/-- `Start`. -/
def start (t : Topic) : Topic := { t with startChan := true }

/-- What `ClusterNewChannel` does to the topic, whether or not it has the channel already. -/
def newChannel (t : Topic) (name : String) : Topic :=
  { t with channels := t.channels.insert name t.nextChannel, nextChannel := t.nextChannel + 1 }

/-- What `ClusterDeleteChannel` does to the topic. -/
def deleteChannel (t : Topic) (name : String) : Topic :=
  { t with channels := t.channels.erase name }

def setPaused (t : Topic) (paused : Bool) : Topic := { t with paused := paused }

/-- `put`; a channel with no buffer never takes a message. -/
def put (memQueueSize : ℕ) (t : Topic) (m : Message) : Topic :=
  if t.memoryMsgChan.length < memQueueSize then
    { t with memoryMsgChan := t.memoryMsgChan ++ [m] }
  else { t with backend := (writeMessageToBackend m t.backend).2 }

/-! ### The pump -/

/-- The pump takes messages when it has a channel and the topic is not paused. -/
def evalSources (t : Topic) : Topic := { t with sources := !t.chans.isEmpty && !t.paused }

/-- A send on `channelUpdateChan` that the pump receives; it takes nothing before it has read the
channels. -/
def receiveUpdate (t : Topic) : Option Topic :=
  match t.pump with
  | .waiting => some t
  | .selecting => some { t with chans := [], sources := false, pump := .loading }
  | .loading => none
  | .putting _ _ => none

/-- A send on `pauseChan` that the pump receives. -/
def receivePause (t : Topic) : Option Topic :=
  match t.pump with
  | .waiting => some t
  | .selecting => some t.evalSources
  | .loading => none
  | .putting _ _ => none

/-- The pump has taken `m`. -/
def take (t : Topic) (m : Message) (calm : Bool) : Topic :=
  { t with pump := .putting ⟨⟨m, t.channels, t.paused, calm⟩, []⟩ t.chans }

end Topic

inductive PumpAct where
  | start
  | load (order : List ChannelPtr)
  | takeMemory
  | takeBackend
  | put (now : Int64)

namespace Topic

/-- The pump's own steps. -/
def pumpStep (t : Topic) (calm : Bool) : PumpAct → Option Topic
  | .start =>
    match t.pump with
    | .waiting => if t.startChan then some { t with startChan := false, pump := .loading } else none
    | _ => none
  | .load order =>
    match t.pump with
    | .loading =>
      if order.Perm t.channels.values then
        some { t with chans := order, pump := .selecting }.evalSources
      else none
    | _ => none
  | .takeMemory =>
    match t.pump, t.memoryMsgChan with
    | .selecting, m :: rest =>
      if t.sources then some ({ t with memoryMsgChan := rest }.take m calm) else none
    | _, _ => none
  | .takeBackend =>
    match t.pump, t.backend.read with
    | .selecting, some (b, backend) =>
      if t.sources then
        match decodeMessage b with
        | .ok m => some ({ t with backend := backend }.take m calm)
        | .error _ => some { t with backend := backend }
      else none
    | _, _ => none
  | .put now =>
    match t.pump with
    | .putting take (p :: todo) =>
      let chanMsg := if take.puts.isEmpty then take.moment.msg else copyMessage take.moment.msg now
      some { t with pump := .putting { take with puts := take.puts ++ [(p, chanMsg)] } todo }
    | .putting take [] => some { t with pump := .selecting, taken := t.taken ++ [take] }
    | _ => none

end Topic

/-! ### What the channels get -/

/-- The put message has the ID, body, timestamp and deferral of the taken one. -/
def SameMessage (m m' : Message) : Prop :=
  m'.id = m.id ∧ m'.body = m.body ∧ m'.timestamp = m.timestamp ∧ m'.deferred = m.deferred

instance (m m' : Message) : Decidable (SameMessage m m') := inferInstanceAs (Decidable (_ ∧ _))

/-- What a pump has done and is doing: `Q` holds of the moment of every take and the channels it goes to,
and every put is the message or a copy of it. -/
structure Takes (Q : Moment → List ChannelPtr → Prop) (t : Topic) : Prop where
  taken : ∀ take ∈ t.taken, Q take.moment (take.puts.map Prod.fst) ∧
    ∀ p ∈ take.puts, SameMessage take.moment.msg p.2
  putting : ∀ take todo, t.pump = .putting take todo →
    Q take.moment (take.puts.map Prod.fst ++ todo) ∧
      ∀ p ∈ take.puts, SameMessage take.moment.msg p.2

section Pumping

variable {Q : Moment → List ChannelPtr → Prop} {t t' : Topic} {calm : Bool}

theorem sameMessage_copy (m : Message) (now : Int64) : SameMessage m (copyMessage m now) :=
  ⟨rfl, rfl, rfl, rfl⟩

/-- A pump that takes nothing new and puts nothing. -/
theorem Takes.of_eq (h : Takes Q t) (htaken : t'.taken = t.taken)
    (hpump : ∀ take todo, t'.pump = .putting take todo → t.pump = .putting take todo) :
    Takes Q t' where
  taken := by
    rw [htaken]
    exact h.taken
  putting := fun take todo heq => h.putting take todo (hpump take todo heq)

/-- The pump takes a message. -/
theorem Takes.take (h : Takes Q t) {m : Message}
    (hQ : Q ⟨m, t.channels, t.paused, calm⟩ t.chans) : Takes Q (t.take m calm) where
  taken := h.taken
  putting := fun take todo heq => by
    cases heq
    exact ⟨hQ, fun p hp => by cases hp⟩

/-- The steps of the pump, with all that they change. -/
inductive PumpStep (calm : Bool) (t : Topic) : Topic → Prop where
  | start (h : t.pump = .waiting) : PumpStep calm t { t with startChan := false, pump := .loading }
  | load (order : List ChannelPtr) (h : t.pump = .loading) (hperm : order.Perm t.channels.values) :
      PumpStep calm t ({ t with chans := order, pump := .selecting } : Topic).evalSources
  | takeMemory (m : Message) (rest : List Message) (h : t.pump = .selecting)
      (hsources : t.sources = true) :
      PumpStep calm t (({ t with memoryMsgChan := rest } : Topic).take m calm)
  | takeBackend (m : Message) (backend : BackendQueue) (h : t.pump = .selecting)
      (hsources : t.sources = true) :
      PumpStep calm t (({ t with backend := backend } : Topic).take m calm)
  | badRecord (backend : BackendQueue) (h : t.pump = .selecting) :
      PumpStep calm t { t with backend := backend }
  | put (take : Take) (p : ChannelPtr) (todo : List ChannelPtr) (m : Message)
      (h : t.pump = .putting take (p :: todo)) (hm : SameMessage take.moment.msg m) :
      PumpStep calm t { t with pump := .putting { take with puts := take.puts ++ [(p, m)] } todo }
  | putAll (take : Take) (h : t.pump = .putting take []) :
      PumpStep calm t { t with pump := .selecting, taken := t.taken ++ [take] }

theorem pumpStep_cases {a : PumpAct} (h : t.pumpStep calm a = some t') : PumpStep calm t t' := by
  cases a with
  | start =>
      simp only [Topic.pumpStep] at h
      split at h
      · rename_i hpump
        obtain ⟨-, ht⟩ := Option.ite_none_right_eq_some.mp h
        cases ht
        exact .start hpump
      · cases h
  | load order =>
      simp only [Topic.pumpStep] at h
      split at h
      · rename_i hpump
        obtain ⟨hperm, ht⟩ := Option.ite_none_right_eq_some.mp h
        cases ht
        exact .load order hpump hperm
      · cases h
  | takeMemory =>
      simp only [Topic.pumpStep] at h
      split at h
      · rename_i m rest hpump hm
        obtain ⟨hsources, ht⟩ := Option.ite_none_right_eq_some.mp h
        cases ht
        exact .takeMemory m rest hpump hsources
      · cases h
  | takeBackend =>
      simp only [Topic.pumpStep] at h
      split at h
      · rename_i b backend hpump hb
        obtain ⟨hsources, h⟩ := Option.ite_none_right_eq_some.mp h
        split at h
        · rename_i m hm
          cases h
          exact .takeBackend m backend hpump hsources
        · cases h
          exact .badRecord backend hpump
      · cases h
  | put now =>
      simp only [Topic.pumpStep] at h
      split at h
      · rename_i take p todo hpump
        cases h
        refine .put take p todo _ hpump ?_
        split
        · exact ⟨rfl, rfl, rfl, rfl⟩
        · exact sameMessage_copy take.moment.msg now
      · rename_i take hpump
        cases h
        exact .putAll take hpump
      · cases h

/-- A pump that is about to read the channels does nothing else. -/
theorem load_of_loading {a : PumpAct} (hpump : t.pump = .loading)
    (h : t.pumpStep calm a = some t') : ∃ order, a = .load order := by
  cases a with
  | load order => exact ⟨order, rfl⟩
  | start => simp [Topic.pumpStep, hpump] at h
  | takeMemory => simp [Topic.pumpStep, hpump] at h
  | takeBackend => simp [Topic.pumpStep, hpump] at h
  | put now => simp [Topic.pumpStep, hpump] at h

/-- **The pump keeps `Takes`**, where its list is right whenever it takes a message. -/
theorem Takes.pumpStep (h : Takes Q t) (hstep : PumpStep calm t t')
    (hQ : t.pump = .selecting → t.sources = true → ∀ m, Q ⟨m, t.channels, t.paused, calm⟩ t.chans) :
    Takes Q t' := by
  cases hstep with
  | start hpump => exact h.of_eq rfl fun _ _ heq => by cases heq
  | load order hpump hperm => exact h.of_eq rfl fun _ _ heq => by cases heq
  | takeMemory m rest hpump hsources =>
      have hkeep : Takes Q { t with memoryMsgChan := rest } := h.of_eq rfl fun _ _ heq => heq
      exact hkeep.take (hQ hpump hsources m)
  | takeBackend m backend hpump hsources =>
      have hkeep : Takes Q { t with backend := backend } := h.of_eq rfl fun _ _ heq => heq
      exact hkeep.take (hQ hpump hsources m)
  | badRecord backend hpump => exact h.of_eq rfl fun _ _ heq => heq
  | put take p todo m hpump hm =>
      obtain ⟨hput, hcopies⟩ := h.putting take (p :: todo) hpump
      refine ⟨h.taken, fun take' todo' heq => ?_⟩
      cases heq
      refine ⟨?_, fun q hq => ?_⟩
      · rw [List.map_append, List.append_assoc]
        exact hput
      · rcases List.mem_append.mp hq with hq | hq
        · exact hcopies q hq
        · rw [List.mem_singleton.mp hq]
          exact hm
  | putAll take hpump =>
      obtain ⟨hput, hcopies⟩ := h.putting take [] hpump
      rw [List.append_nil] at hput
      refine ⟨fun take' hmem => ?_, fun _ _ heq => by cases heq⟩
      rcases List.mem_append.mp hmem with hmem | hmem
      · exact h.taken take' hmem
      · rw [List.mem_singleton.mp hmem]
        exact ⟨hput, hcopies⟩

/-- What a send to the pump can do. -/
theorem receiveUpdate_cases (h : t.receiveUpdate = some t') :
    t.pump = .waiting ∧ t' = t ∨ t.pump = .selecting ∧
      t' = { t with chans := [], sources := false, pump := .loading } := by
  unfold Topic.receiveUpdate at h
  split at h
  · rename_i hpump
    exact Or.inl ⟨hpump, (Option.some.inj h).symm⟩
  · rename_i hpump
    exact Or.inr ⟨hpump, (Option.some.inj h).symm⟩
  · cases h
  · cases h

theorem receivePause_cases (h : t.receivePause = some t') :
    t.pump = .waiting ∧ t' = t ∨ t.pump = .selecting ∧ t' = t.evalSources := by
  unfold Topic.receivePause at h
  split at h
  · rename_i hpump
    exact Or.inl ⟨hpump, (Option.some.inj h).symm⟩
  · rename_i hpump
    exact Or.inr ⟨hpump, (Option.some.inj h).symm⟩
  · cases h
  · cases h

end Pumping

end Xmq.Pump
