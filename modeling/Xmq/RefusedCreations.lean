import Xmq.NilTopics
import Xmq.NodeMetadata

/-!
# Creations that are refused

`GetTopic` returns no topic, and `GetChannel` no channel, when the creation is refused: by a node
that does not lead, by raft, by the handler of the entry, or because the object is gone again. This
module follows both to the callers that publish, subscribe, create a channel and load the metadata.
Only `LoadMetadata` looks whether it was given a topic, and nobody looks whether there is a channel.

* A topic that was found is used; what the topic answers is a parameter of the caller.
* `others` is what other goroutines do to the node before an object is read that was seen or
  created.
-/

namespace Xmq.Refused

open Cluster

/-! ### Topics and channels -/

/-- How the node stands while a call is made. -/
structure Moment where
  raft : Raft
  others : Node → Node

/-- Nothing happens beside the call. -/
def Moment.alone (raft : Raft) : Moment := ⟨raft, id⟩

/-- `getOrCreateChannel`, on the topic behind `p`: the channel is read when the lock is released. -/
def getChannel (libs : Cluster.Libs) (m : Moment) (n : Node) (p : TopicPtr) (channelName : String) :
    Except Abort (Option ChannelPtr × Node) :=
  match (n.topicObj p).channels.lookup channelName with
  | some _ =>
    let n := m.others n
    .ok ((n.topicObj p).channels.lookup channelName, n)
  | none => do
    let (err, n) ← Cluster.newChannel libs m.raft n (n.topicObj p).name channelName
    match err with
    | some _ => .ok (none, n)
    | none =>
      let n := m.others n
      .ok ((n.topicObj p).channels.lookup channelName, n)

/-- The channels that the lookup daemons know are created with the topic, but no ephemeral ones. -/
def createChannels (libs : Cluster.Libs) (m : Moment) (n : Node) (p : TopicPtr) :
    List String → Except Abort Node
  | [] => .ok n
  | channelName :: rest => do
    let n ← if isEphemeral channelName then .ok n
      else (getChannel libs m n p channelName).map Prod.snd
    createChannels libs m n p rest

/-- `GetTopic`; `lookupd` is what the lookup daemons say, and nobody asks them during start-up. -/
def getTopic (libs : Cluster.Libs) (m : Moment) (lookupd : List String) (n : Node)
    (topicName : String) : Except Abort (Option TopicPtr × Node) :=
  match n.topics.lookup topicName with
  | some p => .ok (some p, n)
  | none =>
    if m.raft.state ≠ .leader then .ok (none, n)
    else do
      let (err, n) ← newTopic libs m.raft n topicName
      match err with
      | some _ => .ok (none, n)
      | none =>
        let n := m.others n
        match n.topics.lookup topicName with
        | none => .ok (none, n)
        | some p => do
          let n ← createChannels libs m n p lookupd
          .ok (some p, n)

/-- The call returns an object. -/
def Found {α : Type} : Except Abort (Option α × Node) → Prop
  | .ok (some _, _) => True
  | .ok (none, _) => False
  | .error _ => False

instance {α : Type} : (r : Except Abort (Option α × Node)) → Decidable (Found r)
  | .ok (some _, _) => isTrue trivial
  | .ok (none, _) => isFalse id
  | .error _ => isFalse id

/-! ### When they are found -/

/-- The node leads, the entry gets through, its handler returns no error, and this is the node
then. -/
def Created (libs : Cluster.Libs) (m : Moment) (n : Node) (sp : SetPayload) (n' : Node) : Prop :=
  m.raft.state = .leader ∧ m.raft.apply sp = none ∧ apply libs .leader n sp = .done none n'

/-- The topic is there, or is created and not taken away at once. -/
def HasTopic (libs : Cluster.Libs) (m : Moment) (n : Node) (t : String) : Prop :=
  (n.topics.lookup t).isSome ∨ t ≠ "" ∧ ∃ n', Created libs m n (newTopicEntry libs t) n' ∧
    ((m.others n').topics.lookup t).isSome

/-- The topic behind `p` has the channel or gets it, and keeps it until it is read. -/
def HasChannel (libs : Cluster.Libs) (m : Moment) (n : Node) (p : TopicPtr) (c : String) : Prop :=
  (((n.topicObj p).channels.lookup c).isSome ∧
      (((m.others n).topicObj p).channels.lookup c).isSome) ∨
    (n.topicObj p).channels.lookup c = none ∧ (n.topicObj p).name ≠ "" ∧
      ∃ n', Created libs m n (newChannelEntry libs (n.topicObj p).name c) n' ∧
        (((m.others n').topicObj p).channels.lookup c).isSome

section Finding

variable {libs : Cluster.Libs} {m : Moment} {n n' : Node} {t : String} {p : TopicPtr} {c : String}

theorem submit_created {sp : SetPayload} (h : Created libs m n sp n') :
    submit libs m.raft n sp = .ok (none, n') := by
  obtain ⟨hleader, hthrough, happ⟩ := h
  simp only [submit, hleader, hthrough, happ, ne_eq, not_true_eq_false, if_false]

theorem created_of_submit {sp : SetPayload} (h : submit libs m.raft n sp = .ok (none, n')) :
    Created libs m n sp n' := by
  unfold submit at h
  split at h
  · simp at h
  · rename_i hleader
    split at h
    · simp at h
    · rename_i hthrough
      split at h <;> simp at h
      rename_i happ
      exact ⟨not_not.mp hleader, hthrough, h ▸ happ⟩

theorem found_ok {α : Type} {o : Option α} : Found (.ok (o, n)) ↔ o.isSome := by
  cases o <;> simp [Found]

/-- **`GetChannel`** returns a channel exactly where there is one. -/
theorem found_getChannel : Found (getChannel libs m n p c) ↔ HasChannel libs m n p c := by
  unfold getChannel HasChannel
  cases hk : (n.topicObj p).channels.lookup c with
  | some k => simp [found_ok]
  | none =>
      simp only [Option.isSome_none, Bool.false_eq_true, false_and, false_or, true_and]
      unfold Cluster.newChannel
      by_cases hname : (n.topicObj p).name = ""
      · simp [hname, Found, bind, Except.bind]
      · rw [if_neg hname]
        cases hs : submit libs m.raft n (newChannelEntry libs (n.topicObj p).name c) with
        | error e =>
            refine ⟨fun h => h.elim, fun h => ?_⟩
            obtain ⟨-, n', hc, -⟩ := h
            rw [submit_created hc] at hs
            cases hs
        | ok r =>
            obtain ⟨err, n'⟩ := r
            cases err with
            | some err =>
                refine ⟨fun h => h.elim, fun h => ?_⟩
                obtain ⟨-, n'', hc, -⟩ := h
                rw [submit_created hc] at hs
                cases hs
            | none =>
                refine Iff.trans found_ok ⟨fun h => ?_, fun h => ?_⟩
                · exact ⟨hname, n', created_of_submit hs, h⟩
                · obtain ⟨-, n'', hc, h⟩ := h
                  rw [submit_created hc] at hs
                  cases hs
                  exact h

/-- The handlers of creations return. -/
theorem apply_newChannel_done (libs : Cluster.Libs) (n : Node) (t c : String) :
    ∃ err n', apply libs .leader n (newChannelEntry libs t c) = .done err n' := by
  show ∃ err n', clusterNewChannel libs n (newChannelEntry libs t c) = .done err n'
  unfold clusterNewChannel
  simp only [newChannelEntry]
  split
  · exact ⟨_, _, rfl⟩
  · split
    · exact ⟨_, _, rfl⟩
    · split <;> exact ⟨_, _, rfl⟩

theorem apply_newTopic_done (libs : Cluster.Libs) (n : Node) (t : String) :
    ∃ err n', apply libs .leader n (newTopicEntry libs t) = .done err n' := by
  show ∃ err n', clusterNewTopic libs n (newTopicEntry libs t) = .done err n'
  unfold clusterNewTopic
  simp only [newTopicEntry]
  split
  · exact ⟨_, _, rfl⟩
  · split <;> exact ⟨_, _, rfl⟩

theorem submit_returns {sp : SetPayload}
    (h : ∃ err n', apply libs .leader n sp = .done err n') (raft : Raft) :
    ∃ r, submit libs raft n sp = .ok r := by
  obtain ⟨err, n', happ⟩ := h
  unfold submit
  rw [happ]
  split
  · exact ⟨_, rfl⟩
  · cases raft.apply sp with
    | some e => exact ⟨_, rfl⟩
    | none => cases err <;> exact ⟨_, rfl⟩

theorem getChannel_returns (libs : Cluster.Libs) (m : Moment) (n : Node) (p : TopicPtr)
    (c : String) :
    ∃ r, getChannel libs m n p c = .ok r := by
  unfold getChannel
  split
  · exact ⟨_, rfl⟩
  · unfold Cluster.newChannel
    split
    · exact ⟨_, rfl⟩
    · obtain ⟨⟨err, n'⟩, hr⟩ := submit_returns
        (apply_newChannel_done libs n (n.topicObj p).name c) m.raft
      rw [hr]
      cases err <;> exact ⟨_, rfl⟩

theorem createChannels_returns (libs : Cluster.Libs) (m : Moment) (p : TopicPtr)
    (cs : List String) : ∀ n, ∃ n', createChannels libs m n p cs = .ok n' := by
  induction cs with
  | nil =>
      intro n
      exact ⟨n, rfl⟩
  | cons c cs ih =>
      intro n
      rw [createChannels]
      by_cases hc : isEphemeral c = true
      · rw [if_pos hc]
        exact ih n
      · obtain ⟨⟨k, n'⟩, hr⟩ := getChannel_returns libs m n p c
        rw [if_neg hc, hr]
        exact ih n'

/-- **`GetTopic`** returns a topic exactly where there is one. -/
theorem found_getTopic (lookupd : List String) :
    Found (getTopic libs m lookupd n t) ↔ HasTopic libs m n t := by
  unfold getTopic HasTopic
  cases hp : n.topics.lookup t with
  | some p => simp [Found]
  | none =>
      simp only [Option.isSome_none, Bool.false_eq_true, false_or]
      have hleads : ∀ {n'}, Created libs m n (newTopicEntry libs t) n' →
          m.raft.state = .leader := fun h => h.1
      by_cases hleader : m.raft.state = .leader
      · rw [if_neg (not_not_intro hleader)]
        unfold newTopic
        by_cases ht : t = ""
        · rw [if_pos ht]
          exact ⟨fun h => h.elim, fun h => absurd ht h.1⟩
        · rw [if_neg ht]
          obtain ⟨⟨err, n'⟩, hs⟩ := submit_returns (apply_newTopic_done libs n t) m.raft
          rw [hs]
          have hcreated : ∀ {n''}, Created libs m n (newTopicEntry libs t) n'' →
              err = none ∧ n'' = n' := by
            intro n'' hc
            rw [submit_created hc] at hs
            cases hs
            exact ⟨rfl, rfl⟩
          cases err with
          | some err =>
              refine ⟨fun h => h.elim, fun h => ?_⟩
              obtain ⟨-, n'', hc, -⟩ := h
              exact absurd (hcreated hc).1 (by simp)
          | none =>
              have hiff : (∃ n'', Created libs m n (newTopicEntry libs t) n'' ∧
                  ((m.others n'').topics.lookup t).isSome) ↔
                    ((m.others n').topics.lookup t).isSome := by
                constructor
                · intro h
                  obtain ⟨n'', hc, h⟩ := h
                  rwa [(hcreated hc).2] at h
                · intro h
                  exact ⟨n', created_of_submit hs, h⟩
              rw [hiff]
              show Found (match (m.others n').topics.lookup t with
                | none => _
                | some p => _) ↔ _
              cases hq : (m.others n').topics.lookup t with
              | none => simp [Found]
              | some q =>
                  obtain ⟨n₂, hn₂⟩ := createChannels_returns libs m q lookupd (m.others n')
                  show Found (do
                    let n ← createChannels libs m (m.others n') q lookupd
                    .ok (some q, n)) ↔ _
                  rw [hn₂]
                  simp [Found, bind, Except.bind, ht]
      · rw [if_pos hleader]
        refine ⟨fun h => h.elim, fun h => ?_⟩
        obtain ⟨-, n', hc, -⟩ := h
        exact absurd (hleads hc) hleader

end Finding

/-! ### Loading -/

/-- The moments at which `LoadMetadata` comes to a topic: it is got and paused, and then come its
channels, one by one. -/
structure TopicMoments where
  topic : Moment
  pause : Raft
  channel : ℕ → Moment

/-- One channel of a topic of the file. -/
def loadChannel (libs : Cluster.Libs) (m : Moment) (p : TopicPtr) (n : Node) (c : ChannelMetadata) :
    Except Abort Node :=
  if isValidChannelName c.name then do
    let (channel, n) ← getChannel libs m n p c.name
    if c.paused then
      match channel with
      | some k => .ok (n.pauseChannel k true)
      | none => .error .panic
    else .ok n
  else .ok n

def loadChannels (libs : Cluster.Libs) (ms : ℕ → Moment) (p : TopicPtr) :
    ℕ → Node → List ChannelMetadata → Except Abort Node
  | _, n, [] => .ok n
  | j, n, c :: cs => do
    let n ← loadChannel libs (ms j) p n c
    loadChannels libs ms p (j + 1) n cs

/-- The topic of the file, if there is one, and paused if it is to be. -/
def loadTopicObj (libs : Cluster.Libs) (ms : TopicMoments) (n : Node) (t : TopicMetadata) :
    Except Abort (Option TopicPtr × Node) := do
  let (topic, n) ← getTopic libs ms.topic [] n t.name
  match topic with
  | none => .ok (none, n)
  | some p => do
    let n ← if t.paused then pauseTopic libs ms.pause n p else .ok n
    .ok (some p, n)

/-- One topic of the file. -/
def loadTopic (libs : Cluster.Libs) (ms : TopicMoments) (n : Node) (t : TopicMetadata) :
    Except Abort Node :=
  if isValidTopicName t.name then do
    let (topic, n) ← loadTopicObj libs ms n t
    match topic with
    | none => .ok n
    | some p => loadChannels libs ms.channel p 0 n t.channels
  else .ok n

def loadTopics (libs : Cluster.Libs) (ms : ℕ → TopicMoments) :
    ℕ → Node → List TopicMetadata → Except Abort Node
  | _, n, [] => .ok n
  | k, n, t :: ts => do
    let n ← loadTopic libs (ms k) n t
    loadTopics libs ms (k + 1) n ts

/-- `LoadMetadata`, which finds the node changed by others and by the log wherever it comes. -/
def loadMetadata (libs : Cluster.Libs) (json : MetadataJSON) (ms : ℕ → TopicMoments) (disk : Disk)
    (file : Option json.Data) (n : Node) : Except Abort (GoError × Node) :=
  match disk.readErr with
  | some err => .ok (some s!"failed to read metadata from {disk.fileName} - {err}", n)
  | none =>
    match file with
    | none => .ok (none, n)
    | some data =>
      match json.unmarshal data with
      | .error err => .ok (some s!"failed to parse metadata in {disk.fileName} - {err}", n)
      | .ok m => do
        let n ← loadTopics libs ms 0 n m.topics
        .ok (none, n)

/-! With nobody else about, this is the start-up of a node that is left alone. -/

section Alone

variable (libs : Cluster.Libs) (raft : Raft)

theorem getChannel_alone (n : Node) (p : TopicPtr) (c : String) :
    getChannel libs (.alone raft) n p c = Cluster.getChannel libs raft n p c := by
  unfold getChannel Cluster.getChannel Moment.alone
  cases hk : (n.topicObj p).channels.lookup c with
  | some k => simp only [id_eq, hk]
  | none => rfl

theorem getTopic_alone (n : Node) (t : String) :
    getTopic libs (.alone raft) [] n t = Cluster.getTopic libs raft n t := by
  unfold getTopic Cluster.getTopic Moment.alone
  cases n.topics.lookup t with
  | some p => rfl
  | none =>
      simp only
      split
      · rfl
      · cases newTopic libs raft n t with
        | error e => rfl
        | ok r =>
            obtain ⟨err, n'⟩ := r
            cases err with
            | some err => rfl
            | none =>
                simp only [bind, Except.bind, id_eq]
                cases n'.topics.lookup t <;> rfl

theorem loadChannels_alone (p : TopicPtr) (cs : List ChannelMetadata) :
    ∀ j n, loadChannels libs (fun _ => .alone raft) p j n cs =
      cs.foldlM (Cluster.loadChannel libs raft p) n := by
  induction cs with
  | nil =>
      intro j n
      rfl
  | cons c cs ih =>
      intro j n
      rw [loadChannels, List.foldlM_cons]
      simp only [ih]
      congr 1
      unfold loadChannel Cluster.loadChannel
      exact getChannel_alone libs raft n p c.name ▸ rfl

theorem loadTopics_alone (ts : List TopicMetadata) :
    ∀ k n, loadTopics libs (fun _ => ⟨.alone raft, raft, fun _ => .alone raft⟩) k n ts =
      ts.foldlM (Cluster.loadTopic libs raft) n := by
  induction ts with
  | nil =>
      intro k n
      rfl
  | cons t ts ih =>
      intro k n
      rw [loadTopics, List.foldlM_cons]
      simp only [ih]
      congr 1
      unfold loadTopic Cluster.loadTopic loadTopicObj
      rw [getTopic_alone]
      split
      · cases Cluster.getTopic libs raft n t.name with
        | error e => rfl
        | ok r =>
            obtain ⟨topic, n'⟩ := r
            cases topic with
            | none => rfl
            | some p =>
                simp only [loadChannels_alone]
                cases t.paused with
                | false => rfl
                | true => cases hpause : pauseTopic libs raft n' p <;>
                    simp [bind, Except.bind, hpause]
      · rfl

theorem loadMetadata_alone (json : MetadataJSON) (disk : Disk) (file : Option json.Data)
    (n : Node) :
    loadMetadata libs json (fun _ => ⟨.alone raft, raft, fun _ => .alone raft⟩) disk file n =
      Cluster.loadMetadata libs json raft disk file n := by
  unfold loadMetadata Cluster.loadMetadata
  cases disk.readErr with
  | some err => rfl
  | none =>
      cases file with
      | none => rfl
      | some data =>
          dsimp only
          cases json.unmarshal data with
          | error err => rfl
          | ok m =>
              exact congrArg (· >>= fun n => Except.ok (none, n))
                (loadTopics_alone libs raft m.topics 0 n)

end Alone

/-- Every channel that is to be paused is there when its turn comes. -/
def ChannelsFound (libs : Cluster.Libs) (ms : ℕ → Moment) (p : TopicPtr) :
    ℕ → Node → List ChannelMetadata → Prop
  | _, _, [] => True
  | j, n, c :: cs =>
    (isValidChannelName c.name = true → c.paused = true → HasChannel libs (ms j) n p c.name) ∧
      ∀ n', loadChannel libs (ms j) p n c = .ok n' → ChannelsFound libs ms p (j + 1) n' cs

/-- So it is with all topics of the file. -/
def TopicsFound (libs : Cluster.Libs) (ms : ℕ → TopicMoments) :
    ℕ → Node → List TopicMetadata → Prop
  | _, _, [] => True
  | k, n, t :: ts =>
    (isValidTopicName t.name = true → ∀ p n', loadTopicObj libs (ms k) n t = .ok (some p, n') →
        ChannelsFound libs (ms k).channel p 0 n' t.channels) ∧
      ∀ n', loadTopic libs (ms k) n t = .ok n' → TopicsFound libs ms (k + 1) n' ts

section Loading

theorem loadChannel_cases (libs : Cluster.Libs) (m : Moment) (p : TopicPtr) (n : Node)
    (c : ChannelMetadata) :
    (∃ n', loadChannel libs m p n c = .ok n') ∧
        (isValidChannelName c.name = true → c.paused = true → HasChannel libs m n p c.name) ∨
      loadChannel libs m p n c = .error .panic ∧ isValidChannelName c.name = true ∧
        c.paused = true ∧ ¬ HasChannel libs m n p c.name := by
  unfold loadChannel
  by_cases hvalid : isValidChannelName c.name = true
  · rw [if_pos hvalid, ← found_getChannel]
    obtain ⟨⟨channel, n'⟩, hr⟩ := getChannel_returns libs m n p c.name
    rw [hr]
    cases hpaused : c.paused with
    | false => exact Or.inl ⟨⟨n', rfl⟩, fun _ h => by cases h⟩
    | true =>
        cases channel with
        | some k => exact Or.inl ⟨⟨_, rfl⟩, fun _ _ => trivial⟩
        | none => exact Or.inr ⟨rfl, hvalid, rfl, id⟩
  · rw [if_neg hvalid]
    exact Or.inl ⟨⟨n, rfl⟩, fun h => absurd h hvalid⟩

/-- The channels of a topic are loaded, or `Pause` of no channel panics. -/
theorem loadChannels_panics (libs : Cluster.Libs) (ms : ℕ → Moment) (p : TopicPtr)
    (cs : List ChannelMetadata) :
    ∀ j n, (ChannelsFound libs ms p j n cs → ∃ n', loadChannels libs ms p j n cs = .ok n') ∧
      (¬ ChannelsFound libs ms p j n cs → loadChannels libs ms p j n cs = .error .panic) := by
  induction cs with
  | nil =>
      intro j n
      exact ⟨fun _ => ⟨n, rfl⟩, fun h => absurd trivial h⟩
  | cons c cs ih =>
      intro j n
      rcases loadChannel_cases libs (ms j) p n c with ⟨⟨n', hn'⟩, hhas⟩ | ⟨hp, hvalid, hpaused, hno⟩
      · have hfound : ChannelsFound libs ms p j n (c :: cs) ↔
            ChannelsFound libs ms p (j + 1) n' cs := by
          constructor
          · intro h
            exact h.2 n' hn'
          · intro h
            refine ⟨hhas, fun n'' hn'' => ?_⟩
            rw [hn'] at hn''
            cases hn''
            exact h
        rw [hfound, loadChannels, hn']
        exact ih (j + 1) n'
      · refine ⟨fun h => absurd (h.1 hvalid hpaused) hno, fun _ => ?_⟩
        rw [loadChannels, hp]
        rfl

theorem apply_topicUpdate_done (libs : Cluster.Libs) (n : Node) (t field value : String) :
    ∃ err n', apply libs .leader n (topicUpdateEntry t field value) = .done err n' := by
  show ∃ err n', clusterTopicUpdate libs n (topicUpdateEntry t field value) = .done err n'
  unfold clusterTopicUpdate
  simp only [topicUpdateEntry]
  split
  · exact ⟨_, _, rfl⟩
  · split
    · exact ⟨_, _, rfl⟩
    · split
      · rename_i f _
        cases f <;> simp only [setTopicField] <;> try exact ⟨_, _, rfl⟩
        split <;> exact ⟨_, _, rfl⟩
      · exact ⟨_, _, rfl⟩

theorem pauseTopic_returns (libs : Cluster.Libs) (raft : Raft) (n : Node) (p : TopicPtr) :
    ∃ n', pauseTopic libs raft n p = .ok n' := by
  unfold pauseTopic topicUpdate
  simp only
  split
  · exact ⟨_, rfl⟩
  · obtain ⟨⟨err, n'⟩, hr⟩ := submit_returns (apply_topicUpdate_done libs _ _ "Paused" _) raft
    rw [hr]
    exact ⟨n', rfl⟩

theorem getTopic_returns (libs : Cluster.Libs) (m : Moment) (lookupd : List String) (n : Node)
    (t : String) : ∃ r, getTopic libs m lookupd n t = .ok r := by
  unfold getTopic
  split
  · exact ⟨_, rfl⟩
  · split
    · exact ⟨_, rfl⟩
    · unfold newTopic
      split
      · exact ⟨_, rfl⟩
      · obtain ⟨⟨err, n'⟩, hr⟩ := submit_returns (apply_newTopic_done libs n t) m.raft
        rw [hr]
        cases err with
        | some err => exact ⟨_, rfl⟩
        | none =>
            show ∃ r, (match (m.others n').topics.lookup t with
              | none => .ok (none, m.others n')
              | some p => do
                let n ← createChannels libs m (m.others n') p lookupd
                .ok (some p, n)) = Except.ok r
            cases (m.others n').topics.lookup t with
            | none => exact ⟨_, rfl⟩
            | some p =>
                obtain ⟨n₂, hn₂⟩ := createChannels_returns libs m p lookupd (m.others n')
                simp only [hn₂]
                exact ⟨_, rfl⟩

theorem loadTopicObj_returns (libs : Cluster.Libs) (ms : TopicMoments) (n : Node)
    (t : TopicMetadata) : ∃ r, loadTopicObj libs ms n t = .ok r := by
  unfold loadTopicObj
  obtain ⟨⟨topic, n'⟩, hr⟩ := getTopic_returns libs ms.topic [] n t.name
  rw [hr]
  cases topic with
  | none => exact ⟨_, rfl⟩
  | some p =>
      obtain ⟨n'', hn''⟩ := pauseTopic_returns libs ms.pause n' p
      cases hpaused : t.paused with
      | false => exact ⟨_, rfl⟩
      | true =>
          refine ⟨(some p, n''), ?_⟩
          simp [bind, Except.bind, hn'']

/-- The topics of the file are loaded, or `Pause` of no channel panics. -/
theorem loadTopics_panics (libs : Cluster.Libs) (ms : ℕ → TopicMoments) (ts : List TopicMetadata) :
    ∀ k n, (TopicsFound libs ms k n ts → ∃ n', loadTopics libs ms k n ts = .ok n') ∧
      (¬ TopicsFound libs ms k n ts → loadTopics libs ms k n ts = .error .panic) := by
  induction ts with
  | nil =>
      intro k n
      exact ⟨fun _ => ⟨n, rfl⟩, fun h => absurd trivial h⟩
  | cons t ts ih =>
      intro k n
      have hgood : ∀ n', loadTopic libs (ms k) n t = .ok n' →
          (isValidTopicName t.name = true → ∀ p n', loadTopicObj libs (ms k) n t =
            .ok (some p, n') →
            ChannelsFound libs (ms k).channel p 0 n' t.channels) →
          (TopicsFound libs ms k n (t :: ts) → ∃ n', loadTopics libs ms k n (t :: ts) = .ok n') ∧
            (¬ TopicsFound libs ms k n (t :: ts) →
              loadTopics libs ms k n (t :: ts) = .error .panic) := by
        intro n' hn' hchannels
        have hfound : TopicsFound libs ms k n (t :: ts) ↔ TopicsFound libs ms (k + 1) n' ts := by
          constructor
          · intro h
            exact h.2 n' hn'
          · intro h
            refine ⟨hchannels, fun n'' hn'' => ?_⟩
            rw [hn'] at hn''
            cases hn''
            exact h
        rw [hfound, loadTopics, hn']
        exact ih (k + 1) n'
      by_cases hvalid : isValidTopicName t.name = true
      · obtain ⟨⟨topic, n₁⟩, hr⟩ := loadTopicObj_returns libs (ms k) n t
        cases topic with
        | none =>
            have hload : loadTopic libs (ms k) n t = .ok n₁ := by
              unfold loadTopic
              rw [if_pos hvalid, hr]
              rfl
            refine hgood n₁ hload fun _ p n' h => ?_
            rw [hr] at h
            cases h
        | some p =>
            have hload : loadTopic libs (ms k) n t =
                loadChannels libs (ms k).channel p 0 n₁ t.channels := by
              unfold loadTopic
              rw [if_pos hvalid, hr]
              rfl
            obtain ⟨hok, hpanic⟩ := loadChannels_panics libs (ms k).channel p t.channels 0 n₁
            by_cases hc : ChannelsFound libs (ms k).channel p 0 n₁ t.channels
            · obtain ⟨n', hn'⟩ := hok hc
              refine hgood n' (hload.trans hn') fun _ q n'' h => ?_
              rw [hr] at h
              cases h
              exact hc
            · refine ⟨fun h => absurd (h.1 hvalid p n₁ hr) hc, fun _ => ?_⟩
              rw [loadTopics, hload, hpanic hc]
              rfl
      · refine hgood n ?_ fun h => absurd h hvalid
        unfold loadTopic
        rw [if_neg hvalid]

/-- **`LoadMetadata`** panics exactly where a channel that is to be paused is missing. -/
theorem loadMetadata_panics (libs : Cluster.Libs) (json : MetadataJSON) (ms : ℕ → TopicMoments)
    (disk : Disk)
    (file : Option json.Data) (n : Node) :
    loadMetadata libs json ms disk file n = .error .panic ↔ disk.readErr = none ∧
      ∃ data ∈ file, ∃ m, json.unmarshal data = .ok m ∧ ¬ TopicsFound libs ms 0 n m.topics := by
  unfold loadMetadata
  cases disk.readErr with
  | some err => simp
  | none =>
      cases file with
      | none => simp
      | some data =>
          cases hdata : json.unmarshal data with
          | error err => simp [hdata]
          | ok m =>
              obtain ⟨hok, hpanic⟩ := loadTopics_panics libs ms m.topics 0 n
              by_cases hfound : TopicsFound libs ms 0 n m.topics
              · obtain ⟨n', hn'⟩ := hok hfound
                simp [hdata, hfound, hn', bind, Except.bind]
              · simp [hdata, hfound, hpanic hfound, bind, Except.bind]

end Loading

/-! ### Callers -/

structure Server where
  cluster : Cluster.Libs
  libs : V2.Libs
  opts : V2.Options

/-- Where a caller calls `GetTopic` and then `GetChannel`, and what the lookup daemons say. -/
structure Site where
  node : Node
  topic : Moment
  channel : Moment
  lookupd : List String

/-- A name that a client sent. -/
def nameOf (name : List UInt8) : String := String.ofList (name.map fun b => Char.ofNat b.toNat)

namespace Site

variable (srv : Server) (s : Site)

def getTopic (t : String) : Except Abort (Option TopicPtr × Node) :=
  Refused.getTopic srv.cluster s.topic s.lookupd s.node t

/-- `GetTopic` returns a topic. -/
def findsTopic (t : String) : Bool := decide (Found (s.getTopic srv t))

/-- `GetChannel` of that topic returns a channel. -/
def findsChannel (t c : String) : Bool :=
  match s.getTopic srv t with
  | .ok (some p, n) => decide (Found (Refused.getChannel srv.cluster s.channel n p c))
  | .ok (none, _) => false
  | .error _ => false

def HasTopic (t : String) : Prop := Refused.HasTopic srv.cluster s.topic s.node t

/-- `GetTopic` returns a topic and leaves a node where it has the channel. -/
def HasChannel (t c : String) : Prop :=
  ∃ p n, s.getTopic srv t = .ok (some p, n) ∧ Refused.HasChannel srv.cluster s.channel n p c

/-- A round of `SUB`. -/
def round (t c : String) (r : V2.SubRound) : V2.SubRound :=
  { r with topic := s.findsTopic srv t, channel := s.findsChannel srv t c }

theorem findsTopic_iff (t : String) : s.findsTopic srv t = true ↔ s.HasTopic srv t := by
  rw [findsTopic, decide_eq_true_iff]
  exact found_getTopic s.lookupd

theorem findsChannel_iff (t c : String) : s.findsChannel srv t c = true ↔ s.HasChannel srv t c := by
  unfold findsChannel HasChannel
  cases s.getTopic srv t with
  | error e => simp
  | ok r =>
      obtain ⟨topic, n⟩ := r
      cases topic with
      | none => simp
      | some p => simp [found_getChannel]

theorem round_usesNil (t c : String) (r : V2.SubRound) :
    ¬ (s.round srv t c r).UsesNil ↔ s.HasTopic srv t ∧ s.HasChannel srv t c := by
  rw [← findsTopic_iff, ← findsChannel_iff]
  simp [V2.SubRound.UsesNil, round]

end Site

/-- The callers of `GetTopic` and `GetChannel`, each with its client or request and where it stands.
`SUB` may go round twice. -/
inductive Caller where
  | pub (site : Site) (w : V2.World) (client : V2.ClientV2) (params : List (List UInt8))
  | mpub (site : Site) (w : V2.World) (client : V2.ClientV2) (params : List (List UInt8))
  | dpub (site : Site) (w : V2.World) (client : V2.ClientV2) (params : List (List UInt8))
  | sub (first second : Site) (w : V2.World) (client : V2.ClientV2) (params : List (List UInt8))
  | doPUB (site : Site) (putErr : GoError) (req : V2.HTTPRequest)
  | doMPUB (site : Site) (putErr : GoError) (req : V2.HTTPRequest)
  | doCreateChannel (site : Site) (req : V2.HTTPRequest)
  | loadMetadata (json : MetadataJSON) (moments : ℕ → TopicMoments) (disk : Disk)
      (file : Option json.Data) (node : Node)

/-- What a command meets when it gets its topic at the site. -/
def Site.world (srv : Server) (s : Site) (w : V2.World) (params : List (List UInt8)) : V2.World :=
  { w with topic := s.findsTopic srv (nameOf (params.getD 1 [])) }

/-- What `SUB` meets when it goes round at the two sites. -/
def subWorld (srv : Server) (first second : Site) (w : V2.World) (params : List (List UInt8)) :
    V2.World :=
  let t := nameOf (params.getD 1 [])
  let c := nameOf (params.getD 2 [])
  { w with sub := fun i => (if i = 1 then first else second).round srv t c (w.sub i) }

/-- The caller uses the `nil` that `GetTopic` or `GetChannel` returned. -/
def Caller.UsesNil (srv : Server) : Caller → Prop
  | pub s w c params => V2.UsesNil (V2.pub srv.libs srv.opts (s.world srv w params) params) c
  | mpub s w c params => V2.UsesNil (V2.mpub srv.libs srv.opts (s.world srv w params) params) c
  | dpub s w c params => V2.UsesNil (V2.dpub srv.libs srv.opts (s.world srv w params) params) c
  | sub first second w c params =>
    V2.UsesNil (V2.sub srv.libs srv.opts (subWorld srv first second w params) params) c
  | doPUB s putErr req => V2.HTTPUsesNil (V2.doPUB srv.opts (s.findsTopic srv) putErr req)
  | doMPUB s putErr req => V2.HTTPUsesNil (V2.doMPUB srv.opts (s.findsTopic srv) putErr req)
  | doCreateChannel s req =>
    V2.HTTPUsesNil (V2.doCreateChannel (fun t => (s.node.topics.lookup t).isSome) req)
  | loadMetadata json moments disk file n =>
    Refused.loadMetadata srv.cluster json moments disk file n = .error .panic

/-- If the caller's own checks pass, its topic is there or can be created, and so is the channel of
`SUB`, and every channel that `LoadMetadata` has to pause. -/
def Caller.Served (srv : Server) : Caller → Prop
  | pub s w c params => V2.Passes (V2.pubChecks srv.libs srv.opts (s.world srv w params) params) c →
    s.HasTopic srv (nameOf (params.getD 1 []))
  | mpub s w c params =>
    V2.Passes (V2.mpubChecks srv.libs srv.opts (s.world srv w params) params) c →
    s.HasTopic srv (nameOf (params.getD 1 []))
  | dpub s w c params =>
    V2.Passes (V2.dpubChecks srv.libs srv.opts (s.world srv w params) params) c →
    s.HasTopic srv (nameOf (params.getD 1 []))
  | sub first second w c params =>
    let t := nameOf (params.getD 1 [])
    let ch := nameOf (params.getD 2 [])
    V2.Passes (V2.subChecks srv.libs srv.opts (subWorld srv first second w params) params) c →
      (first.HasTopic srv t ∧ first.HasChannel srv t ch) ∧
        ((w.sub 1).Again → second.HasTopic srv t ∧ second.HasChannel srv t ch)
  | doPUB s _ req => ∀ t, V2.pubRequestChecks srv.opts req = .ok t → s.HasTopic srv t
  | doMPUB s _ req => ∀ t, V2.mpubRequestChecks srv.opts req = .ok t → s.HasTopic srv t
  | doCreateChannel _ _ => True
  | loadMetadata json moments disk file n => disk.readErr = none → ∀ data ∈ file, ∀ m,
    json.unmarshal data = .ok m → TopicsFound srv.cluster moments 0 n m.topics

section Callers

variable (srv : Server)

theorem passes_topic {p q : Prop} {found : Bool} (h : found = true ↔ q) :
    ¬ (p ∧ found = false) ↔ (p → q) := by
  rw [← h]
  simp

theorem not_returns_iff {s : Site} {checks : V2.HTTP String} :
    ¬ V2.HTTPReturns (fun t => s.findsTopic srv t = false) checks ↔
      ∀ t, checks = .ok t → s.HasTopic srv t := by
  cases checks with
  | error e => simp [V2.HTTPReturns]
  | ok t => simp [V2.HTTPReturns, ← Site.findsTopic_iff]

end Callers

/-! ### A follower -/

/-- A node without topics that does not lead. -/
def followerSite : Site where
  node := Node.empty ⟨2, 100⟩
  topic := .alone ⟨.follower, fun _ => none⟩
  channel := .alone ⟨.follower, fun _ => none⟩
  lookupd := []

/-- The server with its default options. -/
def plainServer : Server := ⟨Cluster.Libs.ofNew, V2.Libs.plain, V2.newOptions⟩

/-- A client that has sent the body of its `PUB`. -/
def pubClient : V2.ClientV2 := V2.newClientV2 V2.newOptions (V2.framed (V2.text "hello"))

end Xmq.Refused
