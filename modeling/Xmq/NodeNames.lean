import Xmq.ClusterAgreement
import Xmq.ClusterClients
import Xmq.NodeMetadata

/-!
# Names and flags of a node

The metadata is written from the names that objects carry and read back by the names under which a node
keeps them. `Reached` are the nodes that entries and clients lead to; on all of them the two names are
the same, and what is ephemeral is so by its name.
-/

namespace Xmq.Cluster

/-! ### Nodes that entries and clients lead to -/

/-- What `json` and `cast` make of the values that nodes submit. -/
structure Libs.DecodesNew (libs : Libs) : Prop where
  topic : ∀ t, libs.unmarshalTopic (libs.marshalTopic ⟨0, 0, t, [], 0, false, 0⟩) =
    .ok ⟨0, 0, t, [], 0, false, 0⟩
  channel : ∀ t c, ∃ j, libs.unmarshalChannel (libs.marshalChannel ⟨0, 0, 0, t, c, 0, 0, false⟩) =
    .ok j ∧ j.paused = 0 ∧ j.ephemeral = false
  one : libs.toInt32 (libs.int32ToString 1) = 1

/-- The entries that nodes submit. -/
inductive OwnEntry (libs : Libs) : SetPayload → Prop where
  | newTopic (t : String) : OwnEntry libs (newTopicEntry libs t)
  | newChannel (t c : String) : OwnEntry libs (newChannelEntry libs t c)
  | topicUpdate (t : String) (w : LocalWrite) (value : String) :
    OwnEntry libs (topicUpdateEntry t w.fieldName value)
  | deleteChannel (t c : String) : OwnEntry libs (deleteChannelEntry t c)
  | deleteTopic (t : String) : OwnEntry libs (deleteTopicEntry t)

/-- Entries, what clients do, and pauses of channels, from a new node on. -/
inductive Reached (libs : Libs) (opts : ChannelOptions) : Node → Prop where
  | empty : Reached libs opts (Node.empty opts)
  | entry {n n' : Node} {role : Role} {sp : SetPayload} {err : GoError} (hn : Reached libs opts n)
    (hsp : OwnEntry libs sp) (h : apply libs role n sp = .done err n') : Reached libs opts n'
  | client {n n' : Node} {a : Act} (hn : Reached libs opts n) (ha : ∀ role sp, a ≠ .apply role sp)
    (h : step libs n a = some n') : Reached libs opts n'
  | pauseChannel {n : Node} (hn : Reached libs opts n) (k : ChannelPtr) (pause : Bool) :
    Reached libs opts (n.pauseChannel k pause)

/-! ### Names -/

/-- The object carries the name, and is ephemeral when the name says so. -/
def TopicObj.Called (o : TopicObj) (t : String) : Prop := o.name = t ∧ o.ephemeral = isEphemeral t

def ChannelObj.Called (o : ChannelObj) (c : String) : Prop :=
  o.name = c ∧ o.ephemeral = isEphemeral c

structure Node.Named (n : Node) : Prop extends n.Owned where
  topic_ne : ∀ t p, n.topics.lookup t = some p → t ≠ ""
  topic : ∀ t p, n.topics.lookup t = some p → (n.topicObj p).Called t
  channel : ∀ t c k, n.channelPtr t c = some k → (n.channelObj k).Called c

theorem named_empty (opts : ChannelOptions) : (Node.empty opts).Named where
  toOwned := owned_empty opts
  topic_ne := fun t p h => by simp [Node.empty] at h
  topic := fun t p h => by simp [Node.empty] at h
  channel := fun t c k h => by simp [Node.empty, Node.channelPtr] at h

section Names

variable {libs : Libs} {role : Role} {n n' : Node} {t c : String} {p : TopicPtr} {err : GoError}

theorem Sets.named {o : TopicObj} (h : Sets n n' t p o) (hn : n.Named) (ht : t ≠ "")
    (ho : o.Called t) (hc : ∀ c k, o.channels.lookup c = some k → (n'.channelObj k).Called c) :
    n'.Named where
  toOwned := h.owned hn.toOwned
  topic_ne := fun u q hq => by
    by_cases hu : u = t
    · exact hu ▸ ht
    · exact hn.topic_ne u q (h.lookup_ne u hu ▸ hq)
  topic := fun u q hq => by
    by_cases hu : u = t
    · subst hu
      rw [h.lookup_self] at hq
      cases hq
      rw [h.obj_self]
      exact ho
    · rw [h.lookup_ne u hu] at hq
      rw [(h.obj_ne u q hu hq).2]
      exact hn.topic u q hq
  channel := fun u c k hk => by
    by_cases hu : u = t
    · subst hu
      rw [h.channelPtr_self] at hk
      exact hc c k hk
    · rw [h.channelPtr_ne hu] at hk
      rw [h.channel_ne u c k hu hk]
      exact hn.channel u c k hk

/-- Objects may change, but for their names. -/
theorem SameLinks.named (h : SameLinks n n') (hn : n.Named)
    (ht : ∀ q, (n'.topicObj q).name = (n.topicObj q).name ∧
      (n'.topicObj q).ephemeral = (n.topicObj q).ephemeral)
    (hc : ∀ k, (n'.channelObj k).name = (n.channelObj k).name ∧
      (n'.channelObj k).ephemeral = (n.channelObj k).ephemeral) : n'.Named where
  toOwned := h.owned hn.toOwned
  topic_ne := fun u q hq => hn.topic_ne u q (h.topics ▸ hq)
  topic := fun u q hq => by
    rw [TopicObj.Called, (ht q).1, (ht q).2]
    exact hn.topic u q (h.topics ▸ hq)
  channel := fun u c k hk => by
    rw [ChannelObj.Called, (hc k).1, (hc k).2]
    exact hn.channel u c k (h.channelPtr u c ▸ hk)

theorem named_setTopic (hn : n.Named) {o : TopicObj} (hname : o.name = (n.topicObj p).name)
    (hephemeral : o.ephemeral = (n.topicObj p).ephemeral)
    (hchannels : o.channels = (n.topicObj p).channels) : (n.setTopic p o).Named := by
  refine (sameLinks_setTopic n p hchannels).named hn (fun q => ?_) fun k => ⟨rfl, rfl⟩
  by_cases hq : q = p
  · rw [hq, n.setTopic_self]
    exact ⟨hname, hephemeral⟩
  · rw [n.setTopic_ne o hq]
    exact ⟨rfl, rfl⟩

theorem named_setChannel (hn : n.Named) {k : ChannelPtr} {o : ChannelObj}
    (hname : o.name = (n.channelObj k).name) (hephemeral : o.ephemeral = (n.channelObj k).ephemeral) :
    (n.setChannel k o).Named := by
  refine (sameLinks_setChannel n k o).named hn (fun q => ⟨rfl, rfl⟩) fun j => ?_
  by_cases hj : j = k
  · rw [hj, n.setChannel_self]
    exact ⟨hname, hephemeral⟩
  · rw [n.setChannel_ne o hj]
    exact ⟨rfl, rfl⟩

theorem named_pauseChannel (hn : n.Named) (k : ChannelPtr) (pause : Bool) :
    (n.pauseChannel k pause).Named :=
  named_setChannel hn rfl rfl

theorem putMessage_names (opts : ChannelOptions) (o : TopicObj) (m : Message) :
    (o.putMessage opts m).2.name = o.name ∧ (o.putMessage opts m).2.ephemeral = o.ephemeral := by
  have hput : (o.put opts m).2.name = o.name ∧ (o.put opts m).2.ephemeral = o.ephemeral := by
    unfold TopicObj.put
    split <;> exact ⟨rfl, rfl⟩
  unfold TopicObj.putMessage
  split
  · exact ⟨rfl, rfl⟩
  · cases hp : o.put opts m with
    | mk err o' =>
        rw [hp] at hput
        cases err <;> exact hput

theorem named_step {a : Act} (hn : n.Named) (ha : ∀ role sp, a ≠ .apply role sp)
    (h : step libs n a = some n') : n'.Named := by
  cases a with
  | apply role sp => exact absurd rfl (ha role sp)
  | putMessage p m =>
      cases h
      obtain ⟨hname, hephemeral⟩ := putMessage_names n.opts (n.topicObj p) m
      exact named_setTopic hn hname hephemeral (TopicObj.putMessage_channels _ _ m)
  | doPause p pause =>
      cases h
      exact named_setTopic hn rfl rfl rfl
  | pumpMemory p =>
      cases h
      exact named_setTopic hn rfl rfl rfl
  | pumpBackend p =>
      cases h
      refine named_setTopic hn ?_ ?_ (TopicObj.pumpBackend_channels _)
      · unfold TopicObj.pumpBackend
        split <;> rfl
      · unfold TopicObj.pumpBackend
        split <;> rfl
  | channel k op =>
      obtain ⟨o, ho, rfl⟩ := Option.map_eq_some_iff.mp h
      unfold ChannelObj.operate at ho
      split at ho
      · cases ho
      · obtain ⟨r, -, rfl⟩ := Option.map_eq_some_iff.mp ho
        exact named_setChannel hn rfl rfl
  | addClient k clientID max =>
      cases h
      refine named_setChannel hn ?_ ?_
      · unfold ChannelObj.addClient
        repeat' split
        all_goals rfl
      · unfold ChannelObj.addClient
        repeat' split
        all_goals rfl
  | removeClient k clientID =>
      cases h
      refine named_setChannel hn ?_ ?_
      · unfold ChannelObj.removeClient
        repeat' split
        all_goals rfl
      · unfold ChannelObj.removeClient
        repeat' split
        all_goals rfl

/-! ### Entries -/

theorem apply_newTopicEntry (hlibs : libs.DecodesNew) (ht : t ≠ "") :
    apply libs role n (newTopicEntry libs t) =
      .done none (n.storeTopic t (newTopicObj libs t ⟨0, 0, t, [], 0, false, 0⟩ ∅)) := by
  simp [apply, newTopicEntry, clusterNewTopic, ht, hlibs.topic, Node.addChannels]

theorem sets_newTopic (libs : Libs) (hn : n.Owned) (t : String) :
    Sets n (n.storeTopic t (newTopicObj libs t ⟨0, 0, t, [], 0, false, 0⟩ ∅)) t n.nextTopic
      (newTopicObj libs t ⟨0, 0, t, [], 0, false, 0⟩ ∅) :=
  clusterNewTopic_sets libs hn t ⟨0, 0, t, [], 0, false, 0⟩

theorem newTopicObj_called (libs : Libs) (t : String) (channels : GoMap String ChannelPtr) :
    (newTopicObj libs t ⟨0, 0, t, [], 0, false, 0⟩ channels).Called t := by
  refine ⟨rfl, ?_⟩
  rw [newTopicObj]
  cases isEphemeral t <;> rfl

theorem named_newTopic (libs : Libs) (hn : n.Named) (ht : t ≠ "") :
    (n.storeTopic t (newTopicObj libs t ⟨0, 0, t, [], 0, false, 0⟩ ∅)).Named := by
  refine (sets_newTopic libs hn.toOwned t).named hn ht (newTopicObj_called libs t ∅) fun c k hk => ?_
  rw [newTopicObj, AList.lookup_empty] at hk
  cases hk

/-- The node after a new channel object has been put under the name. -/
def Node.insertChannel (n : Node) (p : TopicPtr) (c : String) (o : ChannelObj) : Node :=
  (n.allocChannel o).setTopic p
    { n.topicObj p with channels := (n.topicObj p).channels.insert c n.nextChannel }

variable (role) in
/-- The channel that a new channel's entry leads to. -/
theorem apply_newChannelEntry (hlibs : libs.DecodesNew) (hp : n.topics.lookup t = some p)
    (ht : t ≠ "") (hc : c ≠ "") : ∃ o : ChannelObj, o.Called c ∧ o.paused = 0 ∧
      apply libs role n (newChannelEntry libs t c) = .done none (n.insertChannel p c o) := by
  obtain ⟨j, hj, hpaused, hephemeral⟩ := hlibs.channel t c
  refine ⟨newChannelObj libs n.opts t c j, ⟨rfl, ?_⟩, hpaused, ?_⟩
  · rw [newChannelObj, hephemeral]
    cases isEphemeral c <;> rfl
  · simp [apply, newChannelEntry, clusterNewChannel, ht, hc, hp, hj, Node.insertChannel]

theorem named_insertChannel (hn : n.Named) (hp : n.topics.lookup t = some p) {o : ChannelObj}
    (ho : o.Called c) : (n.insertChannel p c o).Named := by
  refine (clusterNewChannel_sets hn.toOwned hp c o).named hn (hn.topic_ne t p hp)
    (hn.topic t p hp) fun d k hk => ?_
  show ((n.allocChannel o).channelObj k).Called d
  rcases GoMap.lookup_insert_eq_some.mp hk with ⟨rfl, rfl⟩ | ⟨_, hk⟩
  · rw [allocChannel_obj]
    exact ho
  · rw [← channelPtr_of hp] at hk
    rw [(grown_allocChannel n o).channelObj k (hn.channel_lt t d k hk)]
    exact hn.channel t d k hk

variable (libs role n) in
/-- An update of a field that calls write. -/
theorem apply_topicUpdateEntry (ht : t ≠ "") (w : LocalWrite) (value : String) :
    ∃ err, apply libs role n (topicUpdateEntry t w.fieldName value) =
      match n.topics.lookup t with
      | some p => setTopicField libs n p value w.field
      | none => .done err n := by
  refine ⟨some s!"ClusterTopicUpdate topic({t}) not exist", ?_⟩
  simp only [topicUpdateEntry, apply]
  rw [if_neg (by decide), if_neg (by decide)]
  simp only [clusterTopicUpdate, topicField_fieldName, if_neg (not_or.mpr ⟨ht, fieldName_ne w⟩),
    if_true]
  cases n.topics.lookup t <;> rfl

theorem named_setTopicField (hn : n.Named) (w : LocalWrite) {value : String}
    (h : setTopicField libs n p value w.field = .done err n') : n'.Named := by
  cases w <;> (cases h; exact named_setTopic hn rfl rfl rfl)

theorem named_erase (hn : n.Named) (h : OnlyTopic n n' p) (hp : n.topics.lookup t = some p) :
    Node.Named { n' with topics := n'.topics.erase t } := by
  have hdrops := h.drops hn.toOwned hp
  refine ⟨hdrops.owned hn.toOwned, fun u q hq => ?_, fun u q hq => ?_, fun u c k hk => ?_⟩
  · exact hn.topic_ne u q ((hdrops.lookup u q).mp hq).2
  · obtain ⟨hu, hq⟩ := (hdrops.lookup u q).mp hq
    rw [hdrops.obj u q hu hq]
    exact hn.topic u q hq
  · rw [hdrops.channelObj]
    exact hn.channel u c k (hdrops.channelPtr_some hk)

theorem deleteChannelObj_called {o o' : ChannelObj} (h : deleteChannelObj o = some o') :
    o'.name = o.name ∧ o'.ephemeral = o.ephemeral := by
  unfold deleteChannelObj at h
  split at h
  · obtain ⟨-, h⟩ := Option.ite_none_right_eq_some.mp h
    cases h
    exact ⟨rfl, rfl⟩
  · cases h
    exact ⟨rfl, rfl⟩

theorem named_deleteChannel (hn : n.Named)
    (h : clusterDeleteChannel n (deleteChannelEntry t c) = .done err n') : n'.Named := by
  simp only [clusterDeleteChannel, deleteChannelEntry] at h
  split at h
  · cases h
    exact hn
  · split at h
    · cases h
      exact hn
    · rename_i p hp
      split at h
      · cases h
        exact hn
      · rename_i k hk
        split at h
        · cases h
        · rename_i o ho
          cases h
          obtain ⟨hname, hephemeral⟩ := deleteChannelObj_called ho
          have hptr : n.channelPtr t c = some k := by rw [channelPtr_of hp, hk]
          refine (clusterDeleteChannel_sets hn.toOwned hp hptr o).named hn (hn.topic_ne t p hp)
            (hn.topic t p hp) fun d j hj => ?_
          obtain ⟨hd, hj⟩ := GoMap.lookup_erase_eq_some.mp hj
          rw [← channelPtr_of hp] at hj
          have hjk : j ≠ k := fun heq => hd (hn.channel_inj t d t c k (heq ▸ hj) hptr).2
          show ((n.setChannel k o).channelObj j).Called d
          rw [n.setChannel_ne o hjk]
          exact hn.channel t d j hj

theorem named_deleteTopic (hn : n.Named)
    (h : clusterDeleteTopic role n (deleteTopicEntry t) = .done err n') : n'.Named := by
  simp only [clusterDeleteTopic, deleteTopicEntry] at h
  split at h
  · cases h
    exact hn
  · split at h
    · cases h
      exact hn
    · rename_i p hp
      by_cases hret : Command.DeleteReturns role (topicState n.channelObj (n.topicObj p))
      · obtain ⟨e, m, hdel, honly⟩ := topicDelete_returns role n p hret
        rw [hdel] at h
        cases h
        exact named_erase hn honly hp
      · rw [topicDelete_stuck role n p hret] at h
        cases h

theorem named_entry (hlibs : libs.DecodesNew) (hn : n.Named) {sp : SetPayload}
    (hsp : OwnEntry libs sp) (h : apply libs role n sp = .done err n') : n'.Named := by
  cases hsp with
  | newTopic t =>
      by_cases ht : t = ""
      · rw [ht] at h
        cases h
        exact hn
      · rw [apply_newTopicEntry hlibs ht] at h
        cases h
        exact named_newTopic libs hn ht
  | newChannel t c =>
      by_cases hargs : c = "" ∨ t = ""
      · simp [apply, newChannelEntry, clusterNewChannel, hargs] at h
        exact h.2 ▸ hn
      · obtain ⟨hc, ht⟩ := not_or.mp hargs
        cases hp : n.topics.lookup t with
        | none =>
            simp [apply, newChannelEntry, clusterNewChannel, hc, ht, hp] at h
            exact h.2 ▸ hn
        | some p =>
            obtain ⟨o, ho, -, happ⟩ := apply_newChannelEntry role hlibs hp ht hc
            rw [happ] at h
            cases h
            exact named_insertChannel hn hp ho
  | topicUpdate t w value =>
      by_cases ht : t = ""
      · rw [ht] at h
        cases h
        exact hn
      · obtain ⟨e, happ⟩ := apply_topicUpdateEntry libs role n ht w value
        rw [happ] at h
        split at h
        · exact named_setTopicField hn w h
        · cases h
          exact hn
  | deleteChannel t c => exact named_deleteChannel hn h
  | deleteTopic t => exact named_deleteTopic hn h

/-- **Names.** -/
theorem Reached.named (hlibs : libs.DecodesNew) {opts : ChannelOptions} (h : Reached libs opts n) :
    n.Named := by
  induction h with
  | empty => exact named_empty opts
  | entry _ hsp h ih => exact named_entry hlibs ih hsp h
  | client _ ha h ih => exact named_step ih ha h
  | pauseChannel _ k pause ih => exact named_pauseChannel ih k pause

end Names

end Xmq.Cluster
