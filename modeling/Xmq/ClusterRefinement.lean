import Xmq.ReplicatedState

/-!
# A node refines the replicated state

`Node.replica` forgets pointers, queues and clients. A node is `Owned` when no two names lead to the
same object and every pointer has been allocated; applying an entry keeps a node owned, and on the
replicated state it is `Replica.step`.

Each handler writes to one topic. `Sets` says so once: everything that belongs to another topic is
as it was, and the channels of the topic are where they were or are new objects.
-/

namespace Xmq.Cluster

/-! ### Pointers -/

/-- The object behind the channel `c` of the topic `t`. -/
def Node.channelPtr (n : Node) (t c : String) : Option ChannelPtr :=
  (n.topics.lookup t).bind fun p => (n.topicObj p).channels.lookup c

theorem channelPtr_of {n : Node} {t : String} {p : TopicPtr} (h : n.topics.lookup t = some p)
    (c : String) : n.channelPtr t c = (n.topicObj p).channels.lookup c := by
  rw [Node.channelPtr, h, Option.bind_some]

theorem exists_topic_of_channelPtr {n : Node} {t c : String} {k : ChannelPtr}
    (h : n.channelPtr t c = some k) : ∃ p, n.topics.lookup t = some p := by
  obtain ⟨p, hp, _⟩ := Option.bind_eq_some_iff.mp h
  exact ⟨p, hp⟩

/-- **No sharing.** Names lead to different objects, and all of them have been allocated. -/
structure Node.Owned (n : Node) : Prop where
  topic_lt : ∀ t p, n.topics.lookup t = some p → p < n.nextTopic
  topic_inj : ∀ t u p, n.topics.lookup t = some p → n.topics.lookup u = some p → t = u
  channel_lt : ∀ t c k, n.channelPtr t c = some k → k < n.nextChannel
  channel_inj : ∀ t c u d k, n.channelPtr t c = some k → n.channelPtr u d = some k → t = u ∧ c = d

theorem owned_empty (opts : ChannelOptions) : (Node.empty opts).Owned where
  topic_lt := fun t p h => by simp [Node.empty] at h
  topic_inj := fun t u p h => by simp [Node.empty] at h
  channel_lt := fun t c k h => by simp [Node.empty, Node.channelPtr] at h
  channel_inj := fun t c u d k h => by simp [Node.empty, Node.channelPtr] at h

/-! ### The replicated state of a node -/

def ChannelObj.deletable (o : ChannelObj) : Bool := (deleteChannelObj o).isSome

theorem deletable_decoded {o : ChannelObj} {f : Int32} (h : o.core = .decoded f) :
    o.deletable = decide (f ≠ 0) := by
  rw [ChannelObj.deletable, deleteChannelObj, h]
  by_cases hf : f = 0 <;> simp [hf]

theorem deletable_running {o : ChannelObj} {c : Channel} (h : o.core = .running c) :
    o.deletable = true := by
  rw [ChannelObj.deletable, deleteChannelObj, h]
  rfl

def channelStates (obj : ChannelPtr → ChannelObj) (m : GoMap String ChannelPtr) :
    String → Option Bool :=
  fun c => (m.lookup c).map fun k => (obj k).deletable

def topicState (obj : ChannelPtr → ChannelObj) (o : TopicObj) : TopicState where
  name := o.name
  messageCount := o.messageCount
  messageBytes := o.messageBytes
  paused := o.paused
  exitFlag := o.exitFlag
  channels := channelStates obj o.channels

def Node.replica (n : Node) : Replica :=
  fun t => (n.topics.lookup t).map fun p => topicState n.channelObj (n.topicObj p)

theorem replica_of {n : Node} {t : String} {p : TopicPtr} (h : n.topics.lookup t = some p) :
    n.replica t = some (topicState n.channelObj (n.topicObj p)) := by
  rw [Node.replica, h, Option.map_some]

theorem replica_none {n : Node} {t : String} (h : n.topics.lookup t = none) :
    n.replica t = none := by
  rw [Node.replica, h, Option.map_none]

theorem replica_eq_none {n : Node} {t : String} : n.replica t = none ↔ n.topics.lookup t = none := by
  rw [Node.replica, Option.map_eq_none_iff]

theorem replica_empty (opts : ChannelOptions) : (Node.empty opts).replica = Replica.empty :=
  funext fun t => replica_none (AList.lookup_empty t)

/-- The channels of two maps are in the same states. -/
theorem channelStates_congr {obj obj' : ChannelPtr → ChannelObj} {m : GoMap String ChannelPtr}
    (h : ∀ c k, m.lookup c = some k → obj' k = obj k) :
    channelStates obj' m = channelStates obj m := by
  funext c
  simp only [channelStates]
  cases hc : m.lookup c with
  | none => rfl
  | some k => rw [Option.map_some, Option.map_some, h c k hc]

theorem channelStates_empty (obj : ChannelPtr → ChannelObj) :
    channelStates obj ∅ = fun _ => none := by
  funext c
  simp [channelStates]

theorem channelStates_insert (obj : ChannelPtr → ChannelObj) (m : GoMap String ChannelPtr)
    (name : String) (k : ChannelPtr) :
    channelStates obj (m.insert name k) =
      Function.update (channelStates obj m) name (some (obj k).deletable) := by
  funext c
  by_cases hc : c = name
  · subst hc
    simp [channelStates]
  · simp [channelStates, Function.update_of_ne hc, AList.lookup_insert_ne hc]

theorem channelStates_erase (obj : ChannelPtr → ChannelObj) (m : GoMap String ChannelPtr)
    (name : String) :
    channelStates obj (m.erase name) = Function.update (channelStates obj m) name none := by
  funext c
  by_cases hc : c = name
  · subst hc
    simp [channelStates]
  · simp [channelStates, Function.update_of_ne hc, AList.lookup_erase_ne hc]

/-! ### New objects -/

/-- Only new channel objects were made. -/
structure Grown (n n' : Node) : Prop where
  topics : n'.topics = n.topics
  topicObj : n'.topicObj = n.topicObj
  nextTopic : n'.nextTopic = n.nextTopic
  nextChannel : n.nextChannel ≤ n'.nextChannel
  channelObj : ∀ k < n.nextChannel, n'.channelObj k = n.channelObj k

theorem Grown.refl (n : Node) : Grown n n :=
  ⟨rfl, rfl, rfl, Nat.le_refl _, fun _ _ => rfl⟩

theorem Grown.trans {n₁ n₂ n₃ : Node} (h : Grown n₁ n₂) (h' : Grown n₂ n₃) : Grown n₁ n₃ where
  topics := h'.topics.trans h.topics
  topicObj := h'.topicObj.trans h.topicObj
  nextTopic := h'.nextTopic.trans h.nextTopic
  nextChannel := Nat.le_trans h.nextChannel h'.nextChannel
  channelObj := fun k hk =>
    (h'.channelObj k (Nat.lt_of_lt_of_le hk h.nextChannel)).trans (h.channelObj k hk)

theorem grown_allocChannel (n : Node) (o : ChannelObj) : Grown n (n.allocChannel o) where
  topics := rfl
  topicObj := rfl
  nextTopic := rfl
  nextChannel := Nat.le_succ _
  channelObj := fun _ hk => n.setChannel_ne o (Nat.ne_of_lt hk)

theorem allocChannel_obj (n : Node) (o : ChannelObj) :
    (n.allocChannel o).channelObj n.nextChannel = o :=
  n.setChannel_self n.nextChannel o

/-- What `addChannels` does: a decoded channel is a new object of its own, and the others of the map
are where they were. -/
structure Added (n : Node) (m : GoMap String ChannelPtr) (l : List (String × ChannelJSON))
    (r : Node × GoMap String ChannelPtr) : Prop where
  grown : Grown n r.1
  placed : ∀ c k, r.2.lookup c = some k →
    m.lookup c = some k ∨ n.nextChannel ≤ k ∧ k < r.1.nextChannel
  fresh_inj : ∀ c d k, n.nextChannel ≤ k → r.2.lookup c = some k → r.2.lookup d = some k → c = d
  states : channelStates r.1.channelObj r.2 = decodedChannels (channelStates n.channelObj m) l

theorem addChannels_added (l : List (String × ChannelJSON)) :
    ∀ (n : Node) (m : GoMap String ChannelPtr),
      (∀ c k, m.lookup c = some k → k < n.nextChannel) → Added n m l (n.addChannels m l) := by
  induction l with
  | nil =>
      intro n m hm
      refine ⟨Grown.refl n, fun c k h => Or.inl h, ?_, rfl⟩
      intro c d k hk hc _
      exact absurd (hm c k hc) (Nat.not_lt.mpr hk)
  | cons a l ih =>
      obtain ⟨name, j⟩ := a
      intro n m hm
      obtain ⟨o, ho⟩ : ∃ o : ChannelObj,
          o = ⟨j.topicName, j.name, j.paused, j.ephemeral, .decoded j.exitFlag⟩ := ⟨_, rfl⟩
      have hm' : ∀ c k, (m.insert name n.nextChannel).lookup c = some k →
          k < (n.allocChannel o).nextChannel := by
        intro c k hc
        rcases GoMap.lookup_insert_eq_some.mp hc with ⟨_, rfl⟩ | ⟨_, hc⟩
        · exact Nat.lt_succ_self _
        · exact Nat.lt_succ_of_lt (hm c k hc)
      have h := ih (n.allocChannel o) (m.insert name n.nextChannel) hm'
      have hstep : n.addChannels m ((name, j) :: l) =
          (n.allocChannel o).addChannels (m.insert name n.nextChannel) l := by
        rw [Node.addChannels, ho]
      rw [hstep]
      refine ⟨(grown_allocChannel n o).trans h.grown, ?_, ?_, ?_⟩
      · intro c k hc
        rcases h.placed c k hc with hk | ⟨hk, hlt⟩
        · rcases GoMap.lookup_insert_eq_some.mp hk with ⟨_, rfl⟩ | ⟨_, hk⟩
          · exact Or.inr ⟨Nat.le_refl _, Nat.lt_of_lt_of_le (Nat.lt_succ_self _) h.grown.nextChannel⟩
          · exact Or.inl hk
        · exact Or.inr ⟨Nat.le_of_succ_le hk, hlt⟩
      · intro c d k hk hc hd
        rcases Nat.eq_or_lt_of_le hk with rfl | hlt
        · -- the object of `name`: a later one has a larger pointer, an earlier one a smaller
          have honly : ∀ e, (n.addChannels m ((name, j) :: l)).2.lookup e = some n.nextChannel →
              e = name := by
            intro e he
            rw [hstep] at he
            rcases h.placed e _ he with hk | ⟨hk, _⟩
            · rcases GoMap.lookup_insert_eq_some.mp hk with ⟨rfl, _⟩ | ⟨_, hk⟩
              · rfl
              · exact absurd (hm e _ hk) (Nat.lt_irrefl _)
            · exact absurd hk (Nat.not_succ_le_self _)
          rw [← hstep] at hc hd
          rw [honly c hc, honly d hd]
        · exact h.fresh_inj c d k hlt hc hd
      · rw [h.states, channelStates_insert, allocChannel_obj,
          deletable_decoded (f := j.exitFlag) (by rw [ho]), decodedChannels]
        congr 2
        exact channelStates_congr fun c k hc => (grown_allocChannel n o).channelObj k (hm c k hc)

/-! ### Writing to one topic -/

/-- The topic `t` is now the object `o` behind `p`, and nothing of another topic has changed. -/
structure Sets (n n' : Node) (t : String) (p : TopicPtr) (o : TopicObj) : Prop where
  lookup_self : n'.topics.lookup t = some p
  lookup_ne : ∀ u, u ≠ t → n'.topics.lookup u = n.topics.lookup u
  obj_self : n'.topicObj p = o
  obj_ne : ∀ u q, u ≠ t → n.topics.lookup u = some q → q ≠ p ∧ n'.topicObj q = n.topicObj q
  lt : p < n'.nextTopic
  nextTopic : n.nextTopic ≤ n'.nextTopic
  nextChannel : n.nextChannel ≤ n'.nextChannel
  channel_ne : ∀ u c k, u ≠ t → n.channelPtr u c = some k → n'.channelObj k = n.channelObj k
  placed : ∀ c k, o.channels.lookup c = some k →
    n.channelPtr t c = some k ∨ n.nextChannel ≤ k ∧ k < n'.nextChannel
  fresh_inj : ∀ c d k, n.nextChannel ≤ k → o.channels.lookup c = some k →
    o.channels.lookup d = some k → c = d

namespace Sets

variable {n n' : Node} {t u : String} {p : TopicPtr} {o : TopicObj}

theorem channelPtr_self (h : Sets n n' t p o) (c : String) :
    n'.channelPtr t c = o.channels.lookup c := by
  rw [channelPtr_of h.lookup_self, h.obj_self]

theorem channelPtr_ne (h : Sets n n' t p o) (hu : u ≠ t) (c : String) :
    n'.channelPtr u c = n.channelPtr u c := by
  rw [Node.channelPtr, Node.channelPtr, h.lookup_ne u hu]
  cases hq : n.topics.lookup u with
  | none => rfl
  | some q => rw [Option.bind_some, Option.bind_some, (h.obj_ne u q hu hq).2]

theorem owned (h : Sets n n' t p o) (ho : n.Owned) : n'.Owned := by
  have hold : ∀ u c k, u ≠ t → n'.channelPtr u c = some k → n.channelPtr u c = some k :=
    fun u c k hu hk => by rwa [h.channelPtr_ne hu] at hk
  have hself : ∀ c k, n'.channelPtr t c = some k →
      n.channelPtr t c = some k ∨ n.nextChannel ≤ k ∧ k < n'.nextChannel :=
    fun c k hk => h.placed c k (by rwa [h.channelPtr_self] at hk)
  -- two topics have no channel object in common
  have hapart : ∀ u c d k, u ≠ t → n'.channelPtr u c = some k → n'.channelPtr t d ≠ some k := by
    intro u c d k hu hk hd
    have hk' := hold u c k hu hk
    rcases hself d k hd with hd' | ⟨hge, _⟩
    · exact hu (ho.channel_inj u c t d k hk' hd').1
    · exact absurd (ho.channel_lt u c k hk') (Nat.not_lt.mpr hge)
  refine ⟨?_, ?_, ?_, ?_⟩
  · intro u q hq
    by_cases hu : u = t
    · subst hu
      rw [h.lookup_self] at hq
      cases hq
      exact h.lt
    · rw [h.lookup_ne u hu] at hq
      exact Nat.lt_of_lt_of_le (ho.topic_lt u q hq) h.nextTopic
  · intro u v q hq hq'
    by_cases hu : u = t <;> by_cases hv : v = t
    · rw [hu, hv]
    · subst hu
      rw [h.lookup_self] at hq
      cases hq
      rw [h.lookup_ne v hv] at hq'
      exact absurd rfl (h.obj_ne v p hv hq').1
    · subst hv
      rw [h.lookup_self] at hq'
      cases hq'
      rw [h.lookup_ne u hu] at hq
      exact absurd rfl (h.obj_ne u p hu hq).1
    · rw [h.lookup_ne u hu] at hq
      rw [h.lookup_ne v hv] at hq'
      exact ho.topic_inj u v q hq hq'
  · intro u c k hk
    by_cases hu : u = t
    · subst hu
      rcases hself c k hk with hk | ⟨_, hlt⟩
      · exact Nat.lt_of_lt_of_le (ho.channel_lt u c k hk) h.nextChannel
      · exact hlt
    · exact Nat.lt_of_lt_of_le (ho.channel_lt u c k (hold u c k hu hk)) h.nextChannel
  · intro u c v d k hk hk'
    by_cases hu : u = t <;> by_cases hv : v = t
    · subst hu
      subst hv
      refine ⟨rfl, ?_⟩
      rcases hself c k hk with hc | ⟨hge, _⟩
      · rcases hself d k hk' with hd | ⟨hge, _⟩
        · exact (ho.channel_inj v c v d k hc hd).2
        · exact absurd (ho.channel_lt v c k hc) (Nat.not_lt.mpr hge)
      · rw [h.channelPtr_self] at hk hk'
        exact h.fresh_inj c d k hge hk hk'
    · subst hu
      exact absurd hk (hapart v d c k hv hk')
    · subst hv
      exact absurd hk' (hapart u c d k hu hk)
    · exact ho.channel_inj u c v d k (hold u c k hu hk) (hold v d k hv hk')

theorem replica (h : Sets n n' t p o) :
    n'.replica = Function.update n.replica t (some (topicState n'.channelObj o)) := by
  funext u
  by_cases hu : u = t
  · subst hu
    rw [Function.update_self, replica_of h.lookup_self, h.obj_self]
  · rw [Function.update_of_ne hu, Node.replica, Node.replica, h.lookup_ne u hu]
    cases hq : n.topics.lookup u with
    | none => rfl
    | some q =>
        rw [Option.map_some, Option.map_some, (h.obj_ne u q hu hq).2, topicState, topicState,
          channelStates_congr fun c k hk => h.channel_ne u c k hu (by rw [channelPtr_of hq, hk])]

end Sets

/-- Writing an existing topic, after new channel objects were made. -/
theorem sets_setTopic {n n' : Node} {t : String} {p : TopicPtr} {o : TopicObj} (ho : n.Owned)
    (hp : n.topics.lookup t = some p) (hg : Grown n n')
    (hplaced : ∀ c k, o.channels.lookup c = some k →
      (n.topicObj p).channels.lookup c = some k ∨ n.nextChannel ≤ k ∧ k < n'.nextChannel)
    (hfresh : ∀ c d k, n.nextChannel ≤ k → o.channels.lookup c = some k →
      o.channels.lookup d = some k → c = d) : Sets n (n'.setTopic p o) t p o where
  lookup_self := by rw [← hp, ← hg.topics]; rfl
  lookup_ne := fun u _ => by rw [← hg.topics]; rfl
  obj_self := n'.setTopic_self p o
  obj_ne := fun u q hu hq => by
    have hne : q ≠ p := fun h => hu (ho.topic_inj u t p (h ▸ hq) hp)
    exact ⟨hne, by rw [n'.setTopic_ne o hne, hg.topicObj]⟩
  lt := by
    show p < n'.nextTopic
    rw [hg.nextTopic]
    exact ho.topic_lt t p hp
  nextTopic := Nat.le_of_eq hg.nextTopic.symm
  nextChannel := hg.nextChannel
  channel_ne := fun u c k _ hk => hg.channelObj k (ho.channel_lt u c k hk)
  placed := fun c k hk => by rw [channelPtr_of hp]; exact hplaced c k hk
  fresh_inj := hfresh

/-- Writing fields other than the channels. -/
theorem sets_fields {n : Node} {t : String} {p : TopicPtr} {o : TopicObj} (ho : n.Owned)
    (hp : n.topics.lookup t = some p) (hc : o.channels = (n.topicObj p).channels) :
    Sets n (n.setTopic p o) t p o := by
  apply sets_setTopic ho hp (Grown.refl n)
  · intro c k hk
    exact Or.inl (hc ▸ hk)
  · intro c d k hge hk _
    rw [hc, ← channelPtr_of hp] at hk
    exact absurd (ho.channel_lt t c k hk) (Nat.not_lt.mpr hge)

/-! ### The handlers -/

/-- The handler returns when the step on the replicated state is possible, with an owned node in the
state that this step leads to. -/
def Outcome.Refines : Outcome → Option Replica → Prop
  | .done _ n, v => n.Owned ∧ v = some n.replica
  | .stuck, v => v = none
  | .panic, v => v = none

section Handlers

variable {libs : Libs} {role : Role} {n : Node}

theorem refines_nothing (ho : n.Owned) (err : GoError) :
    (Outcome.done err n).Refines (n.replica.exec libs role .nothing) :=
  ⟨ho, Replica.exec_nothing libs role n.replica⟩

theorem refines_same (cmd : Command) (ho : n.Owned)
    (h : cmd.effect libs role (n.replica cmd.topic) = some (n.replica cmd.topic)) (err : GoError) :
    (Outcome.done err n).Refines (n.replica.exec libs role cmd) :=
  ⟨ho, Replica.exec_same h⟩

theorem Sets.refines {n' : Node} {p : TopicPtr} {o : TopicObj} (cmd : Command)
    (h : Sets n n' cmd.topic p o) (ho : n.Owned)
    (he : cmd.effect libs role (n.replica cmd.topic) = some (some (topicState n'.channelObj o)))
    (err : GoError) : (Outcome.done err n').Refines (n.replica.exec libs role cmd) :=
  ⟨h.owned ho, by rw [Replica.exec, he, Option.map_some, h.replica]⟩

end Handlers

theorem sets_storeTopic {n n' : Node} {name : String} {o : TopicObj} (ho : n.Owned)
    (hg : Grown n n') (hplaced : ∀ c k, o.channels.lookup c = some k →
      n.nextChannel ≤ k ∧ k < n'.nextChannel)
    (hfresh : ∀ c d k, n.nextChannel ≤ k → o.channels.lookup c = some k →
      o.channels.lookup d = some k → c = d) :
    Sets n (n'.storeTopic name o) name n.nextTopic o where
  lookup_self := by
    show (n'.topics.insert name n'.nextTopic).lookup name = _
    rw [AList.lookup_insert, hg.nextTopic]
  lookup_ne := fun u hu => by
    show (n'.topics.insert name n'.nextTopic).lookup u = _
    rw [AList.lookup_insert_ne hu, hg.topics]
  obj_self := by
    rw [← hg.nextTopic]
    exact n'.setTopic_self n'.nextTopic o
  obj_ne := fun u q _ hq => by
    have hne : q ≠ n.nextTopic := Nat.ne_of_lt (ho.topic_lt u q hq)
    refine ⟨hne, ?_⟩
    show (n'.setTopic n'.nextTopic o).topicObj q = _
    rw [n'.setTopic_ne o (by rw [hg.nextTopic]; exact hne), hg.topicObj]
  lt := by
    show n.nextTopic < n'.nextTopic + 1
    rw [hg.nextTopic]
    exact Nat.lt_succ_self _
  nextTopic := Nat.le_of_lt (by
    show n.nextTopic < n'.nextTopic + 1
    rw [hg.nextTopic]
    exact Nat.lt_succ_self _)
  nextChannel := hg.nextChannel
  channel_ne := fun u c k _ hk => hg.channelObj k (ho.channel_lt u c k hk)
  placed := fun c k hk => Or.inr (hplaced c k hk)
  fresh_inj := hfresh

/-- `ClusterNewTopic` of a value that decodes stores a new object under the name. -/
theorem clusterNewTopic_sets (libs : Libs) {n : Node} (ho : n.Owned) (name : String)
    (j : TopicJSON) :
    Sets n ((n.addChannels ∅ j.channels).1.storeTopic name
      (newTopicObj libs name j (n.addChannels ∅ j.channels).2)) name n.nextTopic
      (newTopicObj libs name j (n.addChannels ∅ j.channels).2) := by
  have ha : Added n ∅ j.channels (n.addChannels ∅ j.channels) :=
    addChannels_added j.channels n ∅ fun c k h => by rw [AList.lookup_empty] at h; cases h
  refine sets_storeTopic ho ha.grown (fun c k hk => ?_) ha.fresh_inj
  rcases ha.placed c k hk with h | h
  · rw [AList.lookup_empty] at h
    cases h
  · exact h

theorem clusterNewTopic_refines (libs : Libs) (role : Role) {n : Node} (ho : n.Owned)
    (sp : SetPayload) :
    (clusterNewTopic libs n sp).Refines (n.replica.exec libs role (decodeNewTopic libs sp)) := by
  obtain ⟨m, _ | ⟨name, _ | ⟨x, rest⟩⟩, value⟩ := sp
  · exact refines_nothing ho _
  · simp only [clusterNewTopic, decodeNewTopic]
    by_cases hname : name = ""
    · rw [if_pos hname, if_pos hname]
      exact refines_nothing ho _
    · rw [if_neg hname, if_neg hname]
      cases hj : libs.unmarshalTopic value with
      | error err => exact refines_nothing ho _
      | ok j =>
          have ha : Added n ∅ j.channels (n.addChannels ∅ j.channels) :=
            addChannels_added j.channels n ∅ fun c k h => by rw [AList.lookup_empty] at h; cases h
          refine Sets.refines (.newTopic name j) (clusterNewTopic_sets libs ho name j) ho ?_ none
          show some (some (j.state name)) =
            some (some (topicState (n.addChannels ∅ j.channels).1.channelObj _))
          rw [topicState, TopicJSON.state]
          simp only [newTopicObj]
          rw [ha.states, channelStates_empty]
  · exact refines_nothing ho _

/-- `ClusterNewChannel` of a value that decodes puts a new object under the name. -/
theorem clusterNewChannel_sets {n : Node} (ho : n.Owned) {t : String} {p : TopicPtr}
    (hp : n.topics.lookup t = some p) (name : String) (o : ChannelObj) :
    Sets n ((n.allocChannel o).setTopic p
        { n.topicObj p with channels := (n.topicObj p).channels.insert name n.nextChannel }) t p
      { n.topicObj p with channels := (n.topicObj p).channels.insert name n.nextChannel } := by
  apply sets_setTopic ho hp (grown_allocChannel n o)
  · intro c k hk
    rcases GoMap.lookup_insert_eq_some.mp hk with ⟨_, rfl⟩ | ⟨_, hk⟩
    · exact Or.inr ⟨Nat.le_refl _, Nat.lt_succ_self _⟩
    · exact Or.inl hk
  · intro c d k hge hc hd
    have honly : ∀ e, ((n.topicObj p).channels.insert name n.nextChannel).lookup e = some k →
        e = name := by
      intro e he
      rcases GoMap.lookup_insert_eq_some.mp he with ⟨rfl, _⟩ | ⟨_, hk⟩
      · rfl
      · rw [← channelPtr_of hp] at hk
        exact absurd (ho.channel_lt t e k hk) (Nat.not_lt.mpr hge)
    rw [honly c hc, honly d hd]

theorem clusterNewChannel_refines (libs : Libs) (role : Role) {n : Node} (ho : n.Owned)
    (sp : SetPayload) :
    (clusterNewChannel libs n sp).Refines
      (n.replica.exec libs role (decodeNewChannel libs sp)) := by
  obtain ⟨m, _ | ⟨t, _ | ⟨name, _ | ⟨x, rest⟩⟩⟩, value⟩ := sp
  · exact refines_nothing ho _
  · exact refines_nothing ho _
  · simp only [clusterNewChannel, decodeNewChannel]
    by_cases hargs : name = "" ∨ t = ""
    · rw [if_pos hargs, if_pos hargs]
      exact refines_nothing ho _
    · rw [if_neg hargs, if_neg hargs]
      cases hp : n.topics.lookup t with
      | none =>
          cases libs.unmarshalChannel value with
          | error err => exact refines_nothing ho _
          | ok j =>
              exact refines_same (.newChannel t name) ho
                (by simp [Command.effect, Command.topic, replica_none hp]) _
      | some p =>
          cases hj : libs.unmarshalChannel value with
          | error err => exact refines_nothing ho _
          | ok j =>
              have hrun : (newChannelObj libs n.opts t name j).deletable = true :=
                deletable_running rfl
              have hold : ∀ o, channelStates (n.allocChannel o).channelObj
                  (n.topicObj p).channels =
                  channelStates n.channelObj (n.topicObj p).channels := fun o =>
                channelStates_congr fun c k hk => (grown_allocChannel n o).channelObj k
                  (ho.channel_lt t c k (by rw [channelPtr_of hp, hk]))
              refine Sets.refines (.newChannel t name) (clusterNewChannel_sets ho hp name
                (newChannelObj libs n.opts t name j)) ho ?_ none
              show Command.effect libs role (.newChannel t name) (n.replica t) =
                some (some (topicState (n.allocChannel _).channelObj _))
              rw [replica_of hp, topicState, topicState, channelStates_insert, allocChannel_obj,
                hrun, hold]
              rfl
  · exact refines_nothing ho _

theorem setTopicField_refines (libs : Libs) (role : Role) {n : Node} (ho : n.Owned) {t : String}
    {p : TopicPtr} (hp : n.topics.lookup t = some p) (value : String) (f : TopicField) :
    (setTopicField libs n p value f).Refines
      (n.replica.exec libs role (.update t f value)) := by
  have heffect : ∀ s, (topicState n.channelObj (n.topicObj p)).write libs value f = s →
      Command.effect libs role (.update t f value) (n.replica t) = some (some s) := by
    rintro s rfl
    rw [replica_of hp]
    rfl
  have hset : ∀ o : TopicObj, o.channels = (n.topicObj p).channels →
      (topicState n.channelObj (n.topicObj p)).write libs value f = topicState n.channelObj o →
      (Outcome.done none (n.setTopic p o)).Refines
        (n.replica.exec libs role (.update t f value)) :=
    fun o hc hs => Sets.refines (.update t f value) (sets_fields ho hp hc) ho (heffect _ hs) none
  cases f with
  | messageCount => exact hset { n.topicObj p with messageCount := libs.toUint64 value } rfl rfl
  | messageBytes => exact hset { n.topicObj p with messageBytes := libs.toUint64 value } rfl rfl
  | name => exact hset { n.topicObj p with name := value } rfl rfl
  | exitFlag => exact hset { n.topicObj p with exitFlag := libs.toInt32 value } rfl rfl
  | ephemeral => exact hset { n.topicObj p with ephemeral := libs.toBool value } rfl rfl
  | paused => exact hset { n.topicObj p with paused := libs.toInt32 value } rfl rfl
  | channels =>
      simp only [setTopicField]
      simp only [TopicState.write] at heffect
      by_cases hv : value = ""
      · rw [if_pos hv]
        rw [if_pos hv] at heffect
        refine Sets.refines (.update t .channels value)
          (sets_setTopic ho hp (Grown.refl n) ?_ ?_) ho (heffect _ ?_) none
        · intro c k hk
          rw [AList.lookup_empty] at hk
          cases hk
        · intro c d k _ hk _
          rw [AList.lookup_empty] at hk
          cases hk
        · show _ = topicState n.channelObj { n.topicObj p with channels := ∅ }
          rw [topicState, topicState, channelStates_empty]
      · rw [if_neg hv]
        rw [if_neg hv] at heffect
        have ha := addChannels_added (libs.unmarshalChannels value).1 n (n.topicObj p).channels
          fun c k hk => ho.channel_lt t c k (by rw [channelPtr_of hp, hk])
        refine Sets.refines (.update t .channels value)
          (sets_setTopic ho hp ha.grown ha.placed ha.fresh_inj) ho (heffect _ ?_) _
        show _ = topicState (n.addChannels _ _).1.channelObj { n.topicObj p with channels := _ }
        rw [topicState, topicState, ha.states]

theorem clusterTopicUpdate_refines (libs : Libs) (role : Role) {n : Node} (ho : n.Owned)
    (sp : SetPayload) :
    (clusterTopicUpdate libs n sp).Refines (n.replica.exec libs role (decodeTopicUpdate sp)) := by
  obtain ⟨m, _ | ⟨t, _ | ⟨field, _ | ⟨x, rest⟩⟩⟩, value⟩ := sp
  · exact refines_nothing ho _
  · exact refines_nothing ho _
  · simp only [clusterTopicUpdate, decodeTopicUpdate]
    by_cases hargs : t = "" ∨ field = ""
    · rw [if_pos hargs, if_pos hargs]
      exact refines_nothing ho _
    · rw [if_neg hargs, if_neg hargs]
      cases hf : topicField field with
      | none => cases n.topics.lookup t <;> exact refines_nothing ho _
      | some f =>
          cases hp : n.topics.lookup t with
          | none =>
              exact refines_same (.update t f value) ho
                (by simp [Command.effect, Command.topic, replica_none hp]) _
          | some p => exact setTopicField_refines libs role ho hp value f
  · exact refines_nothing ho _

theorem deleteChannelObj_eq_none {o : ChannelObj} :
    deleteChannelObj o = none ↔ o.deletable = false := by
  rw [ChannelObj.deletable, Option.isSome_eq_false_iff, Option.isNone_iff_eq_none]

/-- `ClusterDeleteChannel` of a channel takes its name away. -/
theorem clusterDeleteChannel_sets {n : Node} (ho : n.Owned) {t name : String} {p : TopicPtr}
    {k : ChannelPtr} (hp : n.topics.lookup t = some p) (hk : n.channelPtr t name = some k)
    (o : ChannelObj) :
    Sets n ((n.setChannel k o).setTopic p
        { n.topicObj p with channels := (n.topicObj p).channels.erase name }) t p
      { n.topicObj p with channels := (n.topicObj p).channels.erase name } := by
  have h : Sets n (n.setTopic p
      { n.topicObj p with channels := (n.topicObj p).channels.erase name }) t p
      { n.topicObj p with channels := (n.topicObj p).channels.erase name } := by
    apply sets_setTopic ho hp (Grown.refl n)
    · intro c k hc
      exact Or.inl (GoMap.lookup_erase_eq_some.mp hc).2
    · intro c d k hge hc _
      have hc' := (GoMap.lookup_erase_eq_some.mp hc).2
      rw [← channelPtr_of hp] at hc'
      exact absurd (ho.channel_lt t c k hc') (Nat.not_lt.mpr hge)
  refine { h with channel_ne := fun u c j hu hj => ?_ }
  apply n.setChannel_ne o
  rintro rfl
  exact hu (ho.channel_inj u c t name j hj hk).1

theorem clusterDeleteChannel_refines (libs : Libs) (role : Role) {n : Node} (ho : n.Owned)
    (sp : SetPayload) :
    (clusterDeleteChannel n sp).Refines
      (n.replica.exec libs role (decodeDeleteChannel sp)) := by
  obtain ⟨m, _ | ⟨t, _ | ⟨name, _ | ⟨x, rest⟩⟩⟩, value⟩ := sp
  · exact refines_nothing ho _
  · exact refines_nothing ho _
  · simp only [clusterDeleteChannel, decodeDeleteChannel]
    by_cases hargs : t = "" ∨ name = ""
    · rw [if_pos hargs, if_pos hargs]
      exact refines_nothing ho _
    · rw [if_neg hargs, if_neg hargs]
      cases hp : n.topics.lookup t with
      | none =>
          exact refines_same (.deleteChannel t name) ho
            (by simp [Command.effect, Command.topic, replica_none hp]) _
      | some p =>
          obtain ⟨s, hs⟩ : ∃ s, s = topicState n.channelObj (n.topicObj p) := ⟨_, rfl⟩
          have hrep : n.replica t = some s := by rw [hs, replica_of hp]
          have hchan : s.channels = channelStates n.channelObj (n.topicObj p).channels := by
            rw [hs, topicState]
          cases hk : (n.topicObj p).channels.lookup name with
          | none =>
              have hsn : s.channels name = none := by
                rw [hchan, channelStates, hk, Option.map_none]
              simp only [hk]
              refine refines_same (.deleteChannel t name) ho ?_ _
              show Command.effect libs role (.deleteChannel t name) (n.replica t) = some (n.replica t)
              rw [hrep, Command.effect, if_neg (by rw [hsn]; decide), ← hsn,
                Function.update_eq_self]
          | some k =>
              have hptr : n.channelPtr t name = some k := by rw [channelPtr_of hp, hk]
              have hsn : s.channels name = some (n.channelObj k).deletable := by
                rw [hchan, channelStates, hk, Option.map_some]
              cases hd : deleteChannelObj (n.channelObj k) with
              | none =>
                  rw [deleteChannelObj_eq_none.mp hd] at hsn
                  simp only [hk, hd]
                  show Replica.exec libs role n.replica (.deleteChannel t name) = none
                  rw [Replica.exec, Command.topic, hrep, Command.effect, if_pos hsn, Option.map_none]
              | some o =>
                  have htrue : (n.channelObj k).deletable = true := by
                    rw [ChannelObj.deletable, hd]
                    rfl
                  simp only [hk, hd]
                  refine Sets.refines (.deleteChannel t name)
                    (clusterDeleteChannel_sets ho hp hptr o) ho ?_ none
                  show Command.effect libs role (.deleteChannel t name) (n.replica t) =
                    some (some (topicState (n.setChannel k o).channelObj _))
                  rw [hrep, Command.effect, if_neg (by rw [hsn, htrue]; decide), hs, topicState,
                    topicState, channelStates_erase]
                  congr 3
                  -- the deleted object is under no other name
                  funext c
                  by_cases hc : c = name
                  · rw [hc, Function.update_self, Function.update_self]
                  · rw [Function.update_of_ne hc, Function.update_of_ne hc]
                    cases hj : (n.topicObj p).channels.lookup c with
                    | none => simp only [channelStates, hj, Option.map_none]
                    | some j =>
                        have hjk : j ≠ k := fun h =>
                          hc (ho.channel_inj t c t name j (by rw [channelPtr_of hp, hj])
                            (h ▸ hptr)).2
                        simp only [channelStates, hj, Option.map_some, n.setChannel_ne o hjk]
  · exact refines_nothing ho _

theorem submitFromApply_empty {role : Role} {args : List String} (h : "" ∈ args) :
    submitFromApply role args = .refused "invalid arg" :=
  if_pos h

theorem submitFromApply_refused {role : Role} {t : String} (h : role = .follower ∨ t = "")
    (rest : List String) : ∃ err, submitFromApply role (t :: rest) = .refused err := by
  by_cases hmem : "" ∈ t :: rest
  · exact ⟨_, submitFromApply_empty hmem⟩
  · rcases h with rfl | rfl
    · exact ⟨_, if_neg hmem⟩
    · exact absurd List.mem_cons_self hmem

theorem submitDeletions_refused {role : Role} {t : String} (h : role = .follower ∨ t = "")
    (names : List String) : ∃ err, submitDeletions role t names = .refused err := by
  induction names with
  | nil => exact ⟨_, rfl⟩
  | cons name names ih =>
      obtain ⟨err, hr⟩ := submitFromApply_refused h [name]
      rw [submitDeletions, hr]
      exact ih

/-- Nothing but the object behind `p` has changed. -/
structure OnlyTopic (n n' : Node) (p : TopicPtr) : Prop where
  topics : n'.topics = n.topics
  topicObj : ∀ q, q ≠ p → n'.topicObj q = n.topicObj q
  channelObj : n'.channelObj = n.channelObj
  nextTopic : n'.nextTopic = n.nextTopic
  nextChannel : n'.nextChannel = n.nextChannel

theorem topicDelete_exiting (role : Role) {n : Node} {p : TopicPtr}
    (h : (n.topicObj p).exitFlag ≠ 0) : topicDelete role n p = .done (some "exiting") n :=
  if_pos h

theorem topicDelete_refused {role : Role} {n : Node} {p : TopicPtr}
    (h : (n.topicObj p).exitFlag = 0) (hr : role = .follower ∨ (n.topicObj p).name = "") :
    topicDelete role n p = .done none (n.setTopic p
      { n.topicObj p with
        exitFlag := 1, cancelled := true, memoryMsgChan := [],
        backend := (n.topicObj p).backend.empty.delete }) := by
  obtain ⟨err, hsub⟩ := submitFromApply_refused hr ["ExitFlag"]
  obtain ⟨err', hdel⟩ := submitDeletions_refused hr (n.topicObj p).channels.keys
  rw [topicDelete, if_neg (by rw [h]; exact fun hne => hne rfl), hsub]
  simp only [hdel]

/-- **How the deletion of a topic ends.** It waits for ever exactly when it gets a submission of its
own into the log. -/
theorem topicDelete_returns (role : Role) (n : Node) (p : TopicPtr)
    (h : Command.DeleteReturns role (topicState n.channelObj (n.topicObj p))) :
    ∃ err n', topicDelete role n p = .done err n' ∧ OnlyTopic n n' p := by
  by_cases hexit : (n.topicObj p).exitFlag = 0
  · have hrefuse : role = .follower ∨ (n.topicObj p).name = "" :=
      Or.resolve_left h fun hne => hne hexit
    exact ⟨_, _, topicDelete_refused hexit hrefuse, rfl, fun q hq => n.setTopic_ne _ hq,
      rfl, rfl, rfl⟩
  · exact ⟨_, n, topicDelete_exiting role hexit, rfl, fun _ _ => rfl, rfl, rfl, rfl⟩

theorem topicDelete_stuck (role : Role) (n : Node) (p : TopicPtr)
    (h : ¬ Command.DeleteReturns role (topicState n.channelObj (n.topicObj p))) :
    topicDelete role n p = .stuck := by
  simp only [Command.DeleteReturns, not_or, topicState] at h
  obtain ⟨hexit, hrole, hname⟩ := h
  have hsub : submitFromApply role [(n.topicObj p).name, "ExitFlag"] = .waits := by
    cases role with
    | leader => exact if_neg (by simp [Ne.symm hname])
    | follower => exact absurd rfl hrole
  rw [topicDelete, if_neg hexit, hsub]

/-- The topic `t` is gone, and nothing of another topic has changed. -/
structure Drops (n n' : Node) (t : String) : Prop where
  lookup : ∀ u q, n'.topics.lookup u = some q ↔ u ≠ t ∧ n.topics.lookup u = some q
  obj : ∀ u q, u ≠ t → n.topics.lookup u = some q → n'.topicObj q = n.topicObj q
  channelObj : n'.channelObj = n.channelObj
  nextTopic : n'.nextTopic = n.nextTopic
  nextChannel : n'.nextChannel = n.nextChannel

namespace Drops

variable {n n' : Node} {t u c : String} {k : ChannelPtr}

theorem channelPtr_self (h : Drops n n' t) (c : String) : n'.channelPtr t c = none := by
  rw [Option.eq_none_iff_forall_ne_some]
  intro k hk
  obtain ⟨q, hq⟩ := exists_topic_of_channelPtr hk
  exact ((h.lookup t q).mp hq).1 rfl

theorem lookup_none (h : Drops n n' t) (hq : n.topics.lookup u = none) :
    n'.topics.lookup u = none := by
  rw [Option.eq_none_iff_forall_ne_some]
  intro q hq'
  rw [((h.lookup u q).mp hq').2] at hq
  cases hq

theorem channelPtr_ne (h : Drops n n' t) (hu : u ≠ t) (c : String) :
    n'.channelPtr u c = n.channelPtr u c := by
  cases hq : n.topics.lookup u with
  | none =>
      rw [Node.channelPtr, Node.channelPtr, hq, h.lookup_none hq]
      rfl
  | some q =>
      rw [channelPtr_of ((h.lookup u q).mpr ⟨hu, hq⟩), channelPtr_of hq, h.obj u q hu hq]

theorem channelPtr_some (h : Drops n n' t) (hk : n'.channelPtr u c = some k) :
    n.channelPtr u c = some k := by
  by_cases hu : u = t
  · rw [hu, h.channelPtr_self] at hk
    cases hk
  · rwa [h.channelPtr_ne hu] at hk

theorem owned (h : Drops n n' t) (ho : n.Owned) : n'.Owned := by
  refine ⟨?_, ?_, ?_, ?_⟩
  · intro u q hq
    rw [h.nextTopic]
    exact ho.topic_lt u q ((h.lookup u q).mp hq).2
  · intro u v q hq hq'
    exact ho.topic_inj u v q ((h.lookup u q).mp hq).2 ((h.lookup v q).mp hq').2
  · intro u c k hk
    rw [h.nextChannel]
    exact ho.channel_lt u c k (h.channelPtr_some hk)
  · intro u c v d k hk hk'
    exact ho.channel_inj u c v d k (h.channelPtr_some hk) (h.channelPtr_some hk')

theorem replica (h : Drops n n' t) : n'.replica = Function.update n.replica t none := by
  funext u
  by_cases hu : u = t
  · rw [hu, Function.update_self, replica_eq_none, Option.eq_none_iff_forall_ne_some]
    intro q hq
    exact ((h.lookup t q).mp hq).1 rfl
  · rw [Function.update_of_ne hu]
    cases hq : n.topics.lookup u with
    | none => rw [replica_none hq, replica_none (h.lookup_none hq)]
    | some q =>
        rw [replica_of hq, replica_of ((h.lookup u q).mpr ⟨hu, hq⟩), h.obj u q hu hq, h.channelObj]

end Drops

/-- Taking the name of a topic away. -/
theorem OnlyTopic.drops {n n' : Node} {p : TopicPtr} {t : String} (h : OnlyTopic n n' p)
    (ho : n.Owned) (hp : n.topics.lookup t = some p) :
    Drops n { n' with topics := n'.topics.erase t } t where
  lookup := by
    intro u q
    rw [← h.topics]
    exact GoMap.lookup_erase_eq_some
  obj := by
    intro u q hu hq
    exact h.topicObj q fun hqp => hu (ho.topic_inj u t p (hqp ▸ hq) hp)
  channelObj := h.channelObj
  nextTopic := h.nextTopic
  nextChannel := h.nextChannel

theorem clusterDeleteTopic_refines (libs : Libs) (role : Role) {n : Node} (ho : n.Owned)
    (sp : SetPayload) :
    (clusterDeleteTopic role n sp).Refines (n.replica.exec libs role (decodeDeleteTopic sp)) := by
  obtain ⟨m, _ | ⟨t, _ | ⟨x, rest⟩⟩, value⟩ := sp
  · exact refines_nothing ho _
  · simp only [clusterDeleteTopic, decodeDeleteTopic]
    by_cases ht : t = ""
    · rw [if_pos ht, if_pos ht]
      exact refines_nothing ho _
    · rw [if_neg ht, if_neg ht]
      cases hp : n.topics.lookup t with
      | none =>
          exact refines_same (.deleteTopic t) ho
            (by simp [Command.effect, Command.topic, replica_none hp]) _
      | some p =>
          by_cases hret : Command.DeleteReturns role (topicState n.channelObj (n.topicObj p))
          · obtain ⟨err, n', hdel, honly⟩ := topicDelete_returns role n p hret
            simp only [hdel]
            have hdrops := honly.drops ho hp
            refine ⟨hdrops.owned ho, ?_⟩
            rw [hdrops.replica, Replica.exec, Command.topic, replica_of hp, Command.effect,
              if_pos hret, Option.map_some]
          · simp only [topicDelete_stuck role n p hret]
            show Replica.exec libs role n.replica (.deleteTopic t) = none
            rw [Replica.exec, Command.topic, replica_of hp, Command.effect, if_neg hret,
              Option.map_none]
  · exact refines_nothing ho _

/-- **Refinement.** Applying an entry to a node is a step of its replicated state. -/
theorem apply_refines (libs : Libs) (role : Role) {n : Node} (ho : n.Owned) (sp : SetPayload) :
    (apply libs role n sp).Refines (n.replica.step libs role sp) := by
  unfold apply Replica.step decode
  split
  · exact clusterNewTopic_refines libs role ho sp
  split
  · exact clusterNewChannel_refines libs role ho sp
  split
  · exact clusterTopicUpdate_refines libs role ho sp
  split
  · exact clusterDeleteChannel_refines libs role ho sp
  split
  · exact clusterDeleteTopic_refines libs role ho sp
  · exact refines_nothing ho _

theorem applyAll_refines (libs : Libs) (role : Role) (log : List SetPayload) :
    ∀ n : Node, n.Owned →
      (applyAll libs role n log).map Node.replica = n.replica.steps libs role log ∧
      ∀ m, applyAll libs role n log = some m → m.Owned := by
  induction log with
  | nil =>
      intro n ho
      exact ⟨rfl, fun m hm => by cases hm; exact ho⟩
  | cons sp rest ih =>
      intro n ho
      have h := apply_refines libs role ho sp
      rw [applyAll, Replica.steps]
      cases ha : apply libs role n sp with
      | done err m =>
          rw [ha] at h
          rw [h.2, Option.bind_some]
          exact ih m h.1
      | stuck =>
          rw [ha] at h
          rw [show n.replica.step libs role sp = none from h, Option.bind_none]
          exact ⟨rfl, fun m hm => by cases hm⟩
      | panic =>
          rw [ha] at h
          rw [show n.replica.step libs role sp = none from h, Option.bind_none]
          exact ⟨rfl, fun m hm => by cases hm⟩

end Xmq.Cluster
