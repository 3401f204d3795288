import Mathlib.Logic.Function.Basic
import Xmq.ClusterModel
import Xmq.Metadata
import Xmq.Protocol
import Xmq.Runs
import Xmq.TopicPump

/-!
# Which channels exist when a backlog leaves its topic

A topic is made first and its channels after it, one round trip each: by `LoadMetadata` from the file,
by `GetTopic` from what the lookup daemons say, and by the log that a restarted node applies again. The
`Start` that should come last comes in `ClusterNewTopic` already, so the pump of the topic runs all the
while and may read a list that is not complete.

* The pumps of all topics, publishers, and one goroutine that makes topics and channels, on a node that
  leads or applies its log again. The topics that exist before are arbitrary.
* A topic that a second `NewTopic` entry replaces is left alone. The pause flag of a channel does not
  concern the pump of its topic.
-/

namespace Xmq.Backlog

open Pump

/-! ### What makes topics and channels -/

inductive Entry where
  | newTopic (topic : String)
  | newChannel (topic channel : String)
  | deleteChannel (topic channel : String)
  | deleteTopic (topic : String)
  | topicPaused (topic : String) (paused : Bool)

/-- `getTopic` and `getChannel` look in the node's maps before they submit anything. -/
inductive Instr where
  | getTopic (topic : String)
  | pause (topic : String)
  | getChannel (topic channel : String)
  | start (topic : String)
  | apply (e : Entry)

/-- A file, the answer of the lookup daemons about a topic that is new, or a log. -/
inductive Source where
  | loadMetadata (m : Metadata)
  | getTopic (topic : String) (channelNames : List String)
  | replay (log : List Entry)

/-- The round of `LoadMetadata` for one topic. -/
def loadTopic (t : TopicMetadata) : List Instr :=
  if isValidTopicName t.name then
    [.getTopic t.name] ++ (if t.paused then [.pause t.name] else []) ++
      ((t.channels.filter fun c => isValidChannelName c.name).map fun c =>
        .getChannel t.name c.name) ++ [.start t.name]
  else []

def Source.program : Source → List Instr
  | loadMetadata m => m.topics.flatMap loadTopic
  | getTopic topic channelNames =>
    [.apply (.newTopic topic)] ++
      ((channelNames.filter fun c => !Cluster.isEphemeral c).map (.getChannel topic)) ++
      [.start topic]
  | replay log => log.map .apply

/-! ### What should be there -/

/-- The channels that a topic should have, and whether it should be paused. -/
structure Wanted where
  channels : List String
  paused : Bool

/-- The channels of the topic that are created and not deleted after the entry. -/
def Entry.leaves (topic : String) (channels : List String) : Entry → List String
  | newChannel t c => if t = topic then channels.insert c else channels
  | deleteChannel t c => if t = topic then channels.erase c else channels
  | deleteTopic t => if t = topic then [] else channels
  | newTopic _ => channels
  | topicPaused _ _ => channels

def Source.wanted (src : Source) (topic : String) : Wanted :=
  match src with
  | loadMetadata m =>
    let ts := m.topics.filter fun t => t.name == topic
    ⟨ts.flatMap fun t => (t.channels.map (·.name)).filter isValidChannelName,
      ts.any (·.paused)⟩
  | getTopic t channelNames =>
    ⟨if t = topic then channelNames.filter fun c => !Cluster.isEphemeral c else [], false⟩
  | replay log => ⟨log.foldl (Entry.leaves topic) [], false⟩

/-! ### Runs -/

/-- A send to the pump of a topic that its goroutine waits for. -/
inductive Signal where
  | pause (topic : String)
  | update (topic : String)

structure State where
  topics : String → Option Topic
  todo : List Instr
  signal : Option Signal

def init (src : Source) (topics : String → Option Topic) : State := ⟨topics, src.program, none⟩

inductive Act where
  | next
  | send
  | putMessage (topic : String) (m : Message)
  | pump (topic : String) (a : PumpAct)

/-- Change a topic if it exists. -/
def State.modify (s : State) (topic : String) (f : Topic → Topic) : State :=
  { s with topics := Function.update s.topics topic ((s.topics topic).map f) }

/-- The handlers; that of `DeleteTopic` may also wait for ever. -/
def State.apply (backlog : String → BackendQueue) (s : State) : Entry → State
  | .newTopic topic =>
    { s with topics := Function.update s.topics topic (some (newTopic (backlog topic))) }
  | .newChannel topic channel => s.modify topic fun t => t.newChannel channel
  | .deleteChannel topic channel => s.modify topic fun t => t.deleteChannel channel
  | .deleteTopic topic => { s with topics := Function.update s.topics topic none }
  | .topicPaused topic paused => s.modify topic fun t => t.setPaused paused

def State.exec (backlog : String → BackendQueue) (s : State) : Instr → State
  | .getTopic topic =>
    match s.topics topic with
    | some _ => s
    | none => s.apply backlog (.newTopic topic)
  | .pause topic => { s.modify topic fun t => t.setPaused true with signal := some (.pause topic) }
  | .getChannel topic channel =>
    { s.modify topic fun t =>
        if (t.channels.lookup channel).isSome then t else t.newChannel channel with
      signal := some (.update topic) }
  | .start topic => s.modify topic fun t => t.start
  | .apply e => s.apply backlog e

/-- The pump of a topic takes a step. -/
def State.onTopic (s : State) (topic : String) (f : Topic → Option Topic) : Option State :=
  ((s.topics topic).bind f).map fun t =>
    { s with topics := Function.update s.topics topic (some t) }

def step (memQueueSize : ℕ) (backlog : String → BackendQueue) (s : State) : Act → Option State
  | .next =>
    match s.signal, s.todo with
    | none, i :: todo => some ({ s with todo := todo }.exec backlog i)
    | _, _ => none
  | .send =>
    match s.signal with
    | some (.pause topic) => { s with signal := none }.onTopic topic Topic.receivePause
    | some (.update topic) => { s with signal := none }.onTopic topic Topic.receiveUpdate
    | none => none
  | .putMessage topic m => s.onTopic topic fun t => some (t.put memQueueSize m)
  | .pump topic a => s.onTopic topic fun t => t.pumpStep true a

/-! ### The condition -/

/-- The topic has all channels that it should have, and should not be paused. -/
def Wanted.metBy (w : Wanted) (t : Topic) : Prop :=
  (∀ c ∈ w.channels, (t.channels.lookup c).isSome) ∧ w.paused = false

instance (w : Wanted) (t : Topic) : Decidable (w.metBy t) := inferInstanceAs (Decidable (_ ∧ _))

/-- The pump that reads this topic will take no messages, or put them to every channel. -/
def Wanted.safe (w : Wanted) (t : Topic) : Prop :=
  t.paused = true ∨ t.channels.values = [] ∨ w.metBy t

instance (w : Wanted) (t : Topic) : Decidable (w.safe t) := inferInstanceAs (Decidable (_ ∨ _))

/-- The instruction leaves the channel of the topic alone that it should have, where the pump uses it. -/
def Instr.spares (src : Source) (topics : String → Option Topic) : Instr → Prop
  | .apply (.newChannel topic channel) | .apply (.deleteChannel topic channel) =>
    ∀ t ∈ topics topic, channel ∈ (src.wanted topic).channels → (t.channels.lookup channel).isSome →
      t.sources = false
  | _ => True

instance (src : Source) (topics : String → Option Topic) : ∀ i : Instr, Decidable (i.spares src topics)
  | .apply (.newChannel _ _) | .apply (.deleteChannel _ _) => Option.decidableForallMem _
  | .apply (.newTopic _) | .apply (.deleteTopic _) | .apply (.topicPaused _ _) | .getTopic _
  | .pause _ | .getChannel _ _ | .start _ => inferInstanceAs (Decidable True)

/-- Whenever a pump reads its list, the topic is paused, or has no channel, or has them all; and an entry
that is applied again does not delete or replace a channel that a pump takes messages for. -/
def InTime (src : Source) (s : State) : Act → Prop
  | .pump topic (.load _) => ∀ t ∈ s.topics topic, (src.wanted topic).safe t
  | .next => ∀ i ∈ s.todo.head?, i.spares src s.topics
  | _ => True

instance (src : Source) (s : State) : ∀ a : Act, Decidable (InTime src s a)
  | .pump _ (.load _) | .next => Option.decidableForallMem _
  | .pump _ .start | .pump _ .takeMemory | .pump _ .takeBackend | .pump _ (.put _) | .send
  | .putMessage _ _ => inferInstanceAs (Decidable True)

/-! ### The invariant -/

/-- The message is taken when every wanted channel exists, and goes to all of them. -/
def Wanted.reached (w : Wanted) (m : Moment) (l : List ChannelPtr) : Prop :=
  (∀ c ∈ w.channels, ∃ p, m.channels.lookup c = some p ∧ p ∈ l) ∧ (w.paused = true → m.paused = true)

/-- The pump's list has every wanted channel, and the topic should not be paused. -/
def Wanted.ready (w : Wanted) (t : Topic) : Prop :=
  (∀ c ∈ w.channels, ∃ p, t.channels.lookup c = some p ∧ p ∈ t.chans) ∧ w.paused = false

structure TopicInv (w : Wanted) (t : Topic) : Prop where
  takes : Takes w.reached t
  sources : t.sources = true → w.ready t

structure Inv (src : Source) (s : State) : Prop where
  topics : ∀ topic, ∀ t ∈ s.topics topic, TopicInv (src.wanted topic) t
  signal : ∀ topic, s.signal = some (.pause topic) → ∀ t ∈ s.topics topic, t.paused = true

section Topics

variable {w : Wanted} {t t' : Topic}

theorem newTopic_inv (w : Wanted) (backend : BackendQueue) : TopicInv w (newTopic backend) where
  takes := ⟨nofun, nofun⟩
  sources := nofun

/-- What leaves the pump and the wanted channels alone. -/
theorem TopicInv.of_lookup (h : TopicInv w t) (htaken : t'.taken = t.taken) (hpump : t'.pump = t.pump)
    (hchans : t'.chans = t.chans) (hsources : t'.sources = t.sources)
    (hlookup : t.sources = true → ∀ c ∈ w.channels, t'.channels.lookup c = t.channels.lookup c) :
    TopicInv w t' where
  takes := h.takes.of_eq htaken fun _ _ heq => hpump ▸ heq
  sources := by
    rw [hsources]
    intro hs
    obtain ⟨hready, hpaused⟩ := h.sources hs
    refine ⟨fun c hc => ?_, hpaused⟩
    rw [hlookup hs c hc, hchans]
    exact hready c hc

theorem TopicInv.setPaused (h : TopicInv w t) (paused : Bool) : TopicInv w (t.setPaused paused) :=
  h.of_lookup rfl rfl rfl rfl fun _ _ _ => rfl

theorem TopicInv.start (h : TopicInv w t) : TopicInv w t.start :=
  h.of_lookup rfl rfl rfl rfl fun _ _ _ => rfl

theorem TopicInv.put (h : TopicInv w t) (memQueueSize : ℕ) (m : Message) :
    TopicInv w (t.put memQueueSize m) := by
  rw [Topic.put]
  split
  · exact h.of_lookup rfl rfl rfl rfl fun _ _ _ => rfl
  · exact h.of_lookup rfl rfl rfl rfl fun _ _ _ => rfl

/-- A channel whose change does not matter: it is not wanted, or the pump takes no messages. -/
theorem TopicInv.not_wanted (h : TopicInv w t) {channel : String}
    (hspare : channel ∈ w.channels → (t.channels.lookup channel).isSome → t.sources = false)
    (hsources : t.sources = true) {c : String} (hc : c ∈ w.channels) : c ≠ channel := by
  rintro rfl
  obtain ⟨p, hp, -⟩ := (h.sources hsources).1 c hc
  have hoff := hspare hc (by rw [hp]; rfl)
  rw [hsources] at hoff
  cases hoff

theorem TopicInv.newChannel (h : TopicInv w t) {channel : String}
    (hspare : channel ∈ w.channels → (t.channels.lookup channel).isSome → t.sources = false) :
    TopicInv w (t.newChannel channel) :=
  h.of_lookup rfl rfl rfl rfl fun hs _ hc =>
    AList.lookup_insert_ne (h.not_wanted hspare hs hc)

theorem TopicInv.deleteChannel (h : TopicInv w t) {channel : String}
    (hspare : channel ∈ w.channels → (t.channels.lookup channel).isSome → t.sources = false) :
    TopicInv w (t.deleteChannel channel) :=
  h.of_lookup rfl rfl rfl rfl fun hs _ hc =>
    AList.lookup_erase_ne (h.not_wanted hspare hs hc)

/-- A pump with its sources off, and nothing new taken. -/
theorem TopicInv.of_off (h : TopicInv w t) (htaken : t'.taken = t.taken)
    (hpump : ∀ take todo, t'.pump = .putting take todo → t.pump = .putting take todo)
    (hsources : t'.sources = false) : TopicInv w t' where
  takes := h.takes.of_eq htaken hpump
  sources := fun hs => by
    rw [hsources] at hs
    cases hs

/-- A reading in time. -/
theorem ready_of_load {order : List ChannelPtr} (hsafe : w.safe t)
    (hperm : order.Perm t.channels.values)
    (hsources : (!order.isEmpty && !t.paused) = true) :
    w.ready (({ t with chans := order, pump := .selecting } : Topic).evalSources) := by
  rw [Bool.and_eq_true, Bool.not_eq_true', Bool.not_eq_true'] at hsources
  rcases hsafe with hpaused | hnone | ⟨hall, hwanted⟩
  · rw [hpaused] at hsources
    cases hsources.2
  · rw [hnone] at hperm
    rw [hperm.eq_nil] at hsources
    cases hsources.1
  · refine ⟨fun c hc => ?_, hwanted⟩
    obtain ⟨p, hp⟩ := Option.isSome_iff_exists.mp (hall c hc)
    exact ⟨p, hp, hperm.mem_iff.mpr (GoMap.mem_values.mpr ⟨c, hp⟩)⟩

theorem TopicInv.pump (h : TopicInv w t) {calm : Bool} {a : PumpAct}
    (ht : t.pumpStep calm a = some t') (hsafe : ∀ order, a = .load order → w.safe t) :
    TopicInv w t' := by
  have hstep := pumpStep_cases ht
  have htakes := h.takes.pumpStep hstep fun _ hs m => by
    obtain ⟨hready, hpaused⟩ := h.sources hs
    exact ⟨hready, fun hw => by rw [hpaused] at hw; cases hw⟩
  cases hstep with
  | start hpump => exact ⟨htakes, h.sources⟩
  | load order hpump hperm =>
      obtain ⟨order', ha⟩ := load_of_loading hpump ht
      exact ⟨htakes, ready_of_load (hsafe order' ha) hperm⟩
  | takeMemory m rest hpump hs => exact ⟨htakes, h.sources⟩
  | takeBackend m backend hpump hs => exact ⟨htakes, h.sources⟩
  | badRecord backend hpump => exact ⟨htakes, h.sources⟩
  | put take p todo m hpump hm => exact ⟨htakes, h.sources⟩
  | putAll take hpump => exact ⟨htakes, h.sources⟩

theorem pump_paused {calm : Bool} (h : PumpStep calm t t') : t'.paused = t.paused := by
  cases h <;> rfl

end Topics

section Steps

variable {src : Source} {s s' : State} {memQueueSize : ℕ} {backlog : String → BackendQueue}

theorem mem_update {topics : String → Option Topic} {topic topic' : String} {o : Option Topic}
    {t : Topic} (h : t ∈ Function.update topics topic o topic') :
    topic' = topic ∧ t ∈ o ∨ topic' ≠ topic ∧ t ∈ topics topic' := by
  by_cases heq : topic' = topic
  · rw [heq, Function.update_self] at h
    exact Or.inl ⟨heq, h⟩
  · rw [Function.update_of_ne heq] at h
    exact Or.inr ⟨heq, h⟩

/-- One topic changes; while the pump is being told of a pause, it stays paused. -/
theorem Inv.update (hi : Inv src s) {topic : String} {o : Option Topic} (signal : Option Signal)
    (htopic : ∀ t ∈ o, TopicInv (src.wanted topic) t)
    (hsignal : ∀ topic', signal = some (.pause topic') →
      (topic' = topic → ∀ t ∈ o, t.paused = true) ∧
        (topic' ≠ topic → ∀ t ∈ s.topics topic', t.paused = true)) :
    Inv src { s with topics := Function.update s.topics topic o, signal := signal } where
  topics := by
    intro topic' t ht
    rcases mem_update ht with ⟨hsame, hmem⟩ | ⟨-, hmem⟩
    · rw [hsame]
      exact htopic t hmem
    · exact hi.topics topic' t hmem
  signal := by
    intro topic' heq t ht
    rcases mem_update ht with ⟨hsame, hmem⟩ | ⟨hne, hmem⟩
    · exact (hsignal topic' heq).1 hsame t hmem
    · exact (hsignal topic' heq).2 hne t hmem

/-- An instruction that is over at once. -/
theorem Inv.modify (hi : Inv src s) {topic : String} {f : Topic → Topic} (hnone : s.signal = none)
    (hf : ∀ t ∈ s.topics topic, TopicInv (src.wanted topic) (f t)) :
    Inv src (s.modify topic f) := by
  refine hi.update s.signal (fun t ht => ?_) fun topic' heq => ?_
  · obtain ⟨u, hu, rfl⟩ := Option.map_eq_some_iff.mp ht
    exact hf u hu
  · rw [hnone] at heq
    cases heq

theorem Inv.apply (hi : Inv src s) {e : Entry} (hnone : s.signal = none)
    (hspare : (Instr.apply e).spares src s.topics) : Inv src (s.apply backlog e) := by
  cases e with
  | newTopic topic =>
      refine hi.update s.signal (fun t ht => ?_) fun topic' heq => ?_
      · cases ht
        exact newTopic_inv _ _
      · rw [hnone] at heq
        cases heq
  | newChannel topic channel =>
      exact hi.modify hnone fun t ht => (hi.topics topic t ht).newChannel (hspare t ht)
  | deleteChannel topic channel =>
      exact hi.modify hnone fun t ht => (hi.topics topic t ht).deleteChannel (hspare t ht)
  | deleteTopic topic =>
      refine hi.update s.signal (fun t ht => by cases ht) fun topic' heq => ?_
      rw [hnone] at heq
      cases heq
  | topicPaused topic paused =>
      exact hi.modify hnone fun t ht => (hi.topics topic t ht).setPaused paused

theorem Inv.exec (hi : Inv src s) {i : Instr} (hnone : s.signal = none)
    (hspare : i.spares src s.topics) : Inv src (s.exec backlog i) := by
  cases i with
  | getTopic topic =>
      have hnew : (Instr.apply (.newTopic topic)).spares src s.topics := trivial
      simp only [State.exec]
      split
      · exact hi
      · exact hi.apply hnone hnew
  | pause topic =>
      refine hi.update (some (.pause topic)) (fun t ht => ?_) fun topic' heq => ?_
      · obtain ⟨u, hu, rfl⟩ := Option.map_eq_some_iff.mp ht
        exact (hi.topics topic u hu).setPaused true
      · cases heq
        refine ⟨fun _ t ht => ?_, fun hne => absurd rfl hne⟩
        obtain ⟨u, hu, rfl⟩ := Option.map_eq_some_iff.mp ht
        rfl
  | getChannel topic channel =>
      refine hi.update (some (.update topic)) (fun t ht => ?_) nofun
      obtain ⟨u, hu, rfl⟩ := Option.map_eq_some_iff.mp ht
      split
      · exact hi.topics topic u hu
      · rename_i hnew
        exact (hi.topics topic u hu).newChannel fun _ hsome => absurd hsome hnew
  | start topic => exact hi.modify hnone fun t ht => (hi.topics topic t ht).start
  | apply e => exact hi.apply hnone hspare

/-- A topic takes a step that leaves its pause flag alone. -/
theorem Inv.onTopic (hi : Inv src s) {topic : String} {f : Topic → Option Topic}
    (h : s.onTopic topic f = some s')
    (hf : ∀ t ∈ s.topics topic, ∀ t' ∈ f t, TopicInv (src.wanted topic) t' ∧ t'.paused = t.paused) :
    Inv src s' := by
  obtain ⟨t', hbind, rfl⟩ := Option.map_eq_some_iff.mp h
  obtain ⟨t, ht, ht'⟩ := Option.bind_eq_some_iff.mp hbind
  obtain ⟨hinv, hpaused⟩ := hf t ht t' ht'
  refine hi.update s.signal (fun u hu => ?_) fun topic' heq => ⟨fun hsame u hu => ?_, ?_⟩
  · cases hu
    exact hinv
  · cases hu
    subst hsame
    rw [hpaused]
    exact hi.signal _ heq t ht
  · exact fun _ => hi.signal topic' heq

theorem Inv.send (hi : Inv src s) (h : step memQueueSize backlog s .send = some s') :
    Inv src s' := by
  have hclear : Inv src { s with signal := none } := ⟨hi.topics, nofun⟩
  rw [Backlog.step] at h
  cases hs : s.signal with
  | none =>
      rw [hs] at h
      cases h
  | some signal =>
      rw [hs] at h
      cases signal with
      | pause topic =>
          refine hclear.onTopic h fun t ht t' ht' => ?_
          have hpaused := hi.signal topic hs t ht
          rcases receivePause_cases ht' with ⟨-, rfl⟩ | ⟨hpump, rfl⟩
          · exact ⟨hi.topics topic _ ht, rfl⟩
          · refine ⟨(hi.topics topic t ht).of_off rfl (fun _ _ heq => heq) ?_, rfl⟩
            show (!t.chans.isEmpty && !t.paused) = false
            rw [hpaused, Bool.not_true, Bool.and_false]
      | update topic =>
          refine hclear.onTopic h fun t ht t' ht' => ?_
          rcases receiveUpdate_cases ht' with ⟨-, rfl⟩ | ⟨hpump, rfl⟩
          · exact ⟨hi.topics topic _ ht, rfl⟩
          · exact ⟨(hi.topics topic t ht).of_off rfl (fun _ _ heq => by cases heq) rfl, rfl⟩

/-- **One step.** -/
theorem Inv.step (hi : Inv src s) {a : Act} (hgood : InTime src s a)
    (h : step memQueueSize backlog s a = some s') : Inv src s' := by
  cases a with
  | next =>
      rw [Backlog.step] at h
      split at h
      · rename_i i todo hnone htodo
        cases h
        have hspare : i.spares src s.topics := hgood i (by rw [htodo]; rfl)
        have hnext : Inv src { s with todo := todo } := ⟨hi.topics, hi.signal⟩
        exact hnext.exec hnone hspare
      · cases h
  | send => exact hi.send h
  | putMessage topic m =>
      refine hi.onTopic h fun t ht t' ht' => ?_
      cases ht'
      refine ⟨(hi.topics topic t ht).put memQueueSize m, ?_⟩
      rw [Topic.put]
      split <;> rfl
  | pump topic a =>
      refine hi.onTopic h fun t ht t' ht' => ⟨(hi.topics topic t ht).pump ht' ?_,
        pump_paused (pumpStep_cases ht')⟩
      rintro order rfl
      exact hgood t ht

end Steps

/-! ### Channels first -/

/-- **Channels first.** In a run that keeps to `InTime`, every message that a topic's pump has taken is
put to all channels that the topic should have, which exist at that moment, as its pause does; and so is
the message that the pump is putting. -/
theorem channels_first (memQueueSize : ℕ) (backlog : String → BackendQueue) (src : Source)
    (topics : String → Option Topic) {acts : List Act} {s : State}
    (hstart : ∀ topic, ∀ t ∈ topics topic, TopicInv (src.wanted topic) t)
    (hgood : Runs.Along (step memQueueSize backlog) (InTime src) (init src topics) acts)
    (hr : Runs.run (step memQueueSize backlog) (init src topics) acts = some s) :
    ∀ topic, ∀ t ∈ s.topics topic, Takes (src.wanted topic).reached t := by
  have hinit : Inv src (init src topics) := ⟨hstart, nofun⟩
  have hi := Runs.invariant_along (fun _ _ _ hi hgood h => hi.step hgood h) acts _ s hinit hgood hr
  exact fun topic t ht => (hi.topics topic t ht).takes

/-- Topics that each have one message on their disk queue. -/
def oneMessage (_ : String) : BackendQueue :=
  (writeMessageToBackend (newMessage (Vector.replicate 16 1) [7] 5)
    (BackendQueue.diskQueue fun _ => none)).2

/-- The pump starts after the only channel of the file has been made. -/
def inTimeRun : List Act :=
  [.next, .next, .send, .pump "t" .start, .pump "t" (.load [0]), .pump "t" .takeBackend,
    .pump "t" (.put 9), .pump "t" (.put 9)]

theorem channels_first_one : ∃ s,
    Runs.run (step 1 oneMessage)
        (init (.loadMetadata ⟨[⟨"t", false, [⟨"a", false⟩]⟩], ""⟩) fun _ => none) inTimeRun = some s ∧
      (∃ t ∈ s.topics "t", t.taken.length = 1) ∧
      ∀ topic, ∀ t ∈ s.topics topic,
        Takes ((Source.loadMetadata ⟨[⟨"t", false, [⟨"a", false⟩]⟩], ""⟩).wanted topic).reached t := by
  obtain ⟨s, hr, hone⟩ := Runs.exists_of_run (step 1 oneMessage)
    (init (.loadMetadata ⟨[⟨"t", false, [⟨"a", false⟩]⟩], ""⟩) fun _ => none) inTimeRun
    (fun s => ∃ t ∈ s.topics "t", t.taken.length = 1) (by decide)
  refine ⟨s, hr, hone, ?_⟩
  exact channels_first 1 oneMessage _ _ (fun _ t ht => by cases ht) (by decide) hr

/-- The pump starts before any channel of the file has been made. The update for the first channel lets
it take the message, which the second channel never gets. -/
theorem channels_late : ∃ s,
    Runs.run (step 1 oneMessage)
        (init (.loadMetadata ⟨[⟨"t", false, [⟨"a", false⟩, ⟨"b", false⟩]⟩], ""⟩) fun _ => none)
        [.next, .pump "t" .start, .pump "t" (.load []), .next, .send, .pump "t" (.load [0]),
          .pump "t" .takeBackend, .pump "t" (.put 9), .pump "t" (.put 9)] = some s ∧
      ¬ ∀ topic, ∀ t ∈ s.topics topic,
        Takes ((Source.loadMetadata
          ⟨[⟨"t", false, [⟨"a", false⟩, ⟨"b", false⟩]⟩], ""⟩).wanted topic).reached t := by
  obtain ⟨s, hr, t, ht, take, hmem, hnone⟩ := Runs.exists_of_run (step 1 oneMessage)
    (init (.loadMetadata ⟨[⟨"t", false, [⟨"a", false⟩, ⟨"b", false⟩]⟩], ""⟩) fun _ => none)
    [.next, .pump "t" .start, .pump "t" (.load []), .next, .send, .pump "t" (.load [0]),
      .pump "t" .takeBackend, .pump "t" (.put 9), .pump "t" (.put 9)]
    (fun s => ∃ t ∈ s.topics "t", ∃ take ∈ t.taken, take.moment.channels.lookup "b" = none)
    (by decide)
  refine ⟨s, hr, fun hall => ?_⟩
  obtain ⟨p, hp, -⟩ := ((hall "t" t ht).taken take hmem).1.1 "b" (by decide)
  rw [hp] at hnone
  cases hnone

end Xmq.Backlog
