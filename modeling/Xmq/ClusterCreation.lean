import Xmq.ClusterClients

/-!
# Creation entries

Two clients that ask for the same absent topic or channel both submit its creation. The second entry
finds the object there and puts a new one in its place: the queues, clients and counters of the old
one are reachable only for those who still hold its pointer.

The first part says what each entry that returns does to the links of a node. From it follow the
exact condition under which creation entries leave the existing objects alone, and that then a name
leads to one object from its creation to its deletion.
-/

namespace Xmq.Cluster

/-! ### What an applied entry does -/

/-- The nodes that a command can leave when its handler returns. -/
inductive Applied (libs : Libs) (role : Role) (n : Node) : Command → Node → Prop where
  | same (cmd : Command) (ht : ∀ t j, cmd ≠ .newTopic t j)
    (hc : ∀ t c, cmd = .newChannel t c → n.topics.lookup t = none) : Applied libs role n cmd n
  | newTopic (t : String) (j : TopicJSON) :
    Applied libs role n (.newTopic t j) ((n.addChannels ∅ j.channels).1.storeTopic t
      (newTopicObj libs t j (n.addChannels ∅ j.channels).2))
  | newChannel (t c : String) (p : TopicPtr) (o : ChannelObj) (hp : n.topics.lookup t = some p) :
    Applied libs role n (.newChannel t c) ((n.allocChannel o).setTopic p
      { n.topicObj p with channels := (n.topicObj p).channels.insert c n.nextChannel })
  | update (t : String) (f : TopicField) (value : String) (p : TopicPtr) (err : GoError) (n' : Node)
    (hp : n.topics.lookup t = some p) (h : setTopicField libs n p value f = .done err n') :
    Applied libs role n (.update t f value) n'
  | deleteChannel (t c : String) (p : TopicPtr) (k : ChannelPtr) (o : ChannelObj)
    (hp : n.topics.lookup t = some p) (hk : (n.topicObj p).channels.lookup c = some k) :
    Applied libs role n (.deleteChannel t c) ((n.setChannel k o).setTopic p
      { n.topicObj p with channels := (n.topicObj p).channels.erase c })
  | deleteTopic (t : String) (p : TopicPtr) (n' : Node) (hp : n.topics.lookup t = some p)
    (h : OnlyTopic n n' p) :
    Applied libs role n (.deleteTopic t) { n' with topics := n'.topics.erase t }

/-- The commands that create a topic or a channel. -/
def Command.Creates : Command → Prop
  | .newTopic _ _ => True
  | .newChannel _ _ => True
  | _ => False

section Handlers

variable {libs : Libs} {role : Role} {n n' : Node} {sp : SetPayload} {err : GoError}

/-- Any other command can leave the node as it is. -/
theorem Applied.of_not_creates {cmd : Command} (h : ¬ cmd.Creates) : Applied libs role n cmd n := by
  refine .same cmd (fun t j heq => h ?_) fun t c heq => absurd ?_ h
  · rw [heq]
    trivial
  · rw [heq]
    trivial

theorem clusterNewTopic_applied (h : clusterNewTopic libs n sp = .done err n') :
    Applied libs role n (decodeNewTopic libs sp) n' := by
  obtain ⟨m, _ | ⟨name, _ | ⟨x, rest⟩⟩, value⟩ := sp
  · cases h
    exact .of_not_creates id
  · simp only [clusterNewTopic] at h
    simp only [decodeNewTopic]
    by_cases hname : name = ""
    · rw [if_pos hname] at h ⊢
      cases h
      exact .of_not_creates id
    · rw [if_neg hname] at h ⊢
      cases hj : libs.unmarshalTopic value with
      | error e =>
          rw [hj] at h
          cases h
          exact .of_not_creates id
      | ok j =>
          rw [hj] at h
          cases h
          exact .newTopic name j
  · cases h
    exact .of_not_creates id

theorem clusterNewChannel_applied (h : clusterNewChannel libs n sp = .done err n') :
    Applied libs role n (decodeNewChannel libs sp) n' := by
  obtain ⟨m, _ | ⟨t, _ | ⟨c, _ | ⟨x, rest⟩⟩⟩, value⟩ := sp
  · cases h
    exact .of_not_creates id
  · cases h
    exact .of_not_creates id
  · simp only [clusterNewChannel] at h
    simp only [decodeNewChannel]
    by_cases hargs : c = "" ∨ t = ""
    · rw [if_pos hargs] at h ⊢
      cases h
      exact .of_not_creates id
    · rw [if_neg hargs] at h ⊢
      cases hp : n.topics.lookup t with
      | none =>
          rw [hp] at h
          cases h
          cases libs.unmarshalChannel value with
          | error e => exact .of_not_creates id
          | ok j =>
              refine .same _ (fun u j heq => by cases heq) fun u d heq => ?_
              cases heq
              exact hp
      | some p =>
          cases hj : libs.unmarshalChannel value with
          | error e =>
              simp only [hp, hj] at h
              cases h
              exact .of_not_creates id
          | ok j =>
              simp only [hp, hj] at h
              cases h
              exact .newChannel t c p _ hp
  · cases h
    exact .of_not_creates id

theorem clusterTopicUpdate_applied (h : clusterTopicUpdate libs n sp = .done err n') :
    Applied libs role n (decodeTopicUpdate sp) n' := by
  obtain ⟨m, _ | ⟨t, _ | ⟨field, _ | ⟨x, rest⟩⟩⟩, value⟩ := sp
  · cases h
    exact .of_not_creates id
  · cases h
    exact .of_not_creates id
  · simp only [clusterTopicUpdate] at h
    simp only [decodeTopicUpdate]
    by_cases hargs : t = "" ∨ field = ""
    · rw [if_pos hargs] at h ⊢
      cases h
      exact .of_not_creates id
    · rw [if_neg hargs] at h ⊢
      cases hp : n.topics.lookup t with
      | none =>
          rw [hp] at h
          cases h
          cases topicField field <;> exact .of_not_creates id
      | some p =>
          cases hf : topicField field with
          | none =>
              simp only [hp, hf] at h
              cases h
              exact .of_not_creates id
          | some f =>
              simp only [hp, hf] at h
              exact .update t f value p err n' hp h
  · cases h
    exact .of_not_creates id

theorem clusterDeleteChannel_applied (h : clusterDeleteChannel n sp = .done err n') :
    Applied libs role n (decodeDeleteChannel sp) n' := by
  obtain ⟨m, _ | ⟨t, _ | ⟨c, _ | ⟨x, rest⟩⟩⟩, value⟩ := sp
  · cases h
    exact .of_not_creates id
  · cases h
    exact .of_not_creates id
  · simp only [clusterDeleteChannel] at h
    simp only [decodeDeleteChannel]
    by_cases hargs : t = "" ∨ c = ""
    · rw [if_pos hargs] at h ⊢
      cases h
      exact .of_not_creates id
    · rw [if_neg hargs] at h ⊢
      cases hp : n.topics.lookup t with
      | none =>
          rw [hp] at h
          cases h
          exact .of_not_creates id
      | some p =>
          cases hk : (n.topicObj p).channels.lookup c with
          | none =>
              simp only [hp, hk] at h
              cases h
              exact .of_not_creates id
          | some k =>
              cases hd : deleteChannelObj (n.channelObj k) with
              | none =>
                  simp only [hp, hk, hd] at h
                  cases h
              | some o =>
                  simp only [hp, hk, hd] at h
                  cases h
                  exact .deleteChannel t c p k o hp hk
  · cases h
    exact .of_not_creates id

theorem clusterDeleteTopic_applied (h : clusterDeleteTopic role n sp = .done err n') :
    Applied libs role n (decodeDeleteTopic sp) n' := by
  obtain ⟨m, _ | ⟨t, _ | ⟨x, rest⟩⟩, value⟩ := sp
  · cases h
    exact .of_not_creates id
  · simp only [clusterDeleteTopic] at h
    simp only [decodeDeleteTopic]
    by_cases ht : t = ""
    · rw [if_pos ht] at h ⊢
      cases h
      exact .of_not_creates id
    · rw [if_neg ht] at h ⊢
      cases hp : n.topics.lookup t with
      | none =>
          rw [hp] at h
          cases h
          exact .of_not_creates id
      | some p =>
          by_cases hret : Command.DeleteReturns role (topicState n.channelObj (n.topicObj p))
          · obtain ⟨e, m', hdel, honly⟩ := topicDelete_returns role n p hret
            simp only [hp, hdel] at h
            cases h
            exact .deleteTopic t p m' hp honly
          · simp only [hp, topicDelete_stuck role n p hret] at h
            cases h
  · cases h
    exact .of_not_creates id

/-- **Inversion.** All that an entry whose handler returns can have done. -/
theorem apply_applied (h : apply libs role n sp = .done err n') :
    Applied libs role n (decode libs sp) n' := by
  unfold apply at h
  unfold decode
  split at h
  · rw [if_pos ‹_›]
    exact clusterNewTopic_applied h
  rw [if_neg ‹_›]
  split at h
  · rw [if_pos ‹_›]
    exact clusterNewChannel_applied h
  rw [if_neg ‹_›]
  split at h
  · rw [if_pos ‹_›]
    exact clusterTopicUpdate_applied h
  rw [if_neg ‹_›]
  split at h
  · rw [if_pos ‹_›]
    exact clusterDeleteChannel_applied h
  rw [if_neg ‹_›]
  split at h
  · rw [if_pos ‹_›]
    exact clusterDeleteTopic_applied h
  · rw [if_neg ‹_›]
    cases h
    exact .of_not_creates id

end Handlers

/-! ### Links -/

/-- The commands that make the name of a channel lead elsewhere. -/
def Command.Touches (t c : String) : Command → Prop
  | .newTopic u _ => u = t
  | .newChannel u d => u = t ∧ d = c
  | .update u f _ => u = t ∧ f = .channels
  | .deleteChannel u d => u = t ∧ d = c
  | .deleteTopic u => u = t
  | .nothing => False

theorem setTopicField_topics {libs : Libs} {n n' : Node} {p : TopicPtr} {value : String}
    {f : TopicField} {err : GoError} (hc : ∀ t c k, n.channelPtr t c = some k → k < n.nextChannel)
    {t : String} (hp : n.topics.lookup t = some p)
    (h : setTopicField libs n p value f = .done err n') :
    n'.topics = n.topics ∧ (∀ q, q ≠ p → n'.topicObj q = n.topicObj q) ∧
      (f ≠ .channels → (n'.topicObj p).channels = (n.topicObj p).channels) := by
  have hset : ∀ o, Outcome.done none (n.setTopic p o) = .done err n' →
      n'.topics = n.topics ∧ (∀ q, q ≠ p → n'.topicObj q = n.topicObj q) ∧
        n'.topicObj p = o := by
    intro o h
    cases h
    exact ⟨rfl, fun q hq => n.setTopic_ne o hq, n.setTopic_self p o⟩
  cases f with
  | channels =>
      rw [setTopicField] at h
      split at h
      · obtain ⟨h₁, h₂, _⟩ := hset _ h
        exact ⟨h₁, h₂, fun hne => absurd rfl hne⟩
      · have ha := addChannels_added (libs.unmarshalChannels value).1 n (n.topicObj p).channels
          fun c k hk => hc t c k (by rw [channelPtr_of hp, hk])
        cases h
        refine ⟨ha.grown.topics, fun q hq => ?_, fun hne => absurd rfl hne⟩
        show (Node.setTopic _ p _).topicObj q = _
        rw [Node.setTopic_ne _ _ hq, ha.grown.topicObj]
  | messageCount => obtain ⟨h₁, h₂, h₃⟩ := hset _ h; exact ⟨h₁, h₂, fun _ => by rw [h₃]⟩
  | messageBytes => obtain ⟨h₁, h₂, h₃⟩ := hset _ h; exact ⟨h₁, h₂, fun _ => by rw [h₃]⟩
  | name => obtain ⟨h₁, h₂, h₃⟩ := hset _ h; exact ⟨h₁, h₂, fun _ => by rw [h₃]⟩
  | exitFlag => obtain ⟨h₁, h₂, h₃⟩ := hset _ h; exact ⟨h₁, h₂, fun _ => by rw [h₃]⟩
  | ephemeral => obtain ⟨h₁, h₂, h₃⟩ := hset _ h; exact ⟨h₁, h₂, fun _ => by rw [h₃]⟩
  | paused => obtain ⟨h₁, h₂, h₃⟩ := hset _ h; exact ⟨h₁, h₂, fun _ => by rw [h₃]⟩

section Links

variable {libs : Libs} {role : Role} {n n' : Node} {cmd : Command} {t c : String}

/-- Only creating and deleting a topic change where its name leads. -/
theorem applied_lookup (ho : n.Owned) (h : Applied libs role n cmd n') (ht : ¬ cmd.Resets t) :
    n'.topics.lookup t = n.topics.lookup t := by
  cases h with
  | same _ _ _ => rfl
  | newTopic u j => exact (clusterNewTopic_sets libs ho u j).lookup_ne t fun h => ht h.symm
  | newChannel u d p o hp => rfl
  | update u f value p err _ hp hset =>
      rw [(setTopicField_topics ho.channel_lt hp hset).1]
  | deleteChannel u d p k o hp hk => rfl
  | deleteTopic u p m hp honly =>
      show (m.topics.erase u).lookup t = _
      rw [AList.lookup_erase_ne fun h => ht h.symm, honly.topics]

/-- Nothing else leads the name of a channel elsewhere. -/
theorem applied_channelPtr (ho : n.Owned) (h : Applied libs role n cmd n')
    (ht : ¬ cmd.Touches t c) : n'.channelPtr t c = n.channelPtr t c := by
  cases h with
  | same _ _ _ => rfl
  | newTopic u j => exact (clusterNewTopic_sets libs ho u j).channelPtr_ne (fun h => ht h.symm) c
  | newChannel u d p o hp =>
      have hs := clusterNewChannel_sets ho hp d o
      by_cases htu : t = u
      · subst htu
        rw [hs.channelPtr_self, channelPtr_of hp,
          AList.lookup_insert_ne fun h => ht ⟨rfl, h.symm⟩]
      · exact hs.channelPtr_ne htu c
  | update u f value p err _ hp hset =>
      obtain ⟨htop, hobj, hchan⟩ := setTopicField_topics ho.channel_lt hp hset
      rw [Node.channelPtr, Node.channelPtr, htop]
      cases hq : n.topics.lookup t with
      | none => rfl
      | some q =>
          rw [Option.bind_some, Option.bind_some]
          by_cases hqp : q = p
          · subst hqp
            rw [hchan fun hf => ht ⟨ho.topic_inj u t q hp hq, hf⟩]
          · rw [hobj q hqp]
  | deleteChannel u d p k o hp hk =>
      have hs := clusterDeleteChannel_sets ho hp (by rw [channelPtr_of hp, hk]) o
      by_cases htu : t = u
      · subst htu
        rw [hs.channelPtr_self, channelPtr_of hp, AList.lookup_erase_ne fun h => ht ⟨rfl, h.symm⟩]
      · exact hs.channelPtr_ne htu c
  | deleteTopic u p m hp honly =>
      have htu : t ≠ u := fun h => ht h.symm
      show ((m.topics.erase u).lookup t).bind _ = _
      rw [AList.lookup_erase_ne htu, honly.topics, Node.channelPtr]
      cases hq : n.topics.lookup t with
      | none => rfl
      | some q =>
          have hqp : q ≠ p := fun h => htu (ho.topic_inj t u p (h ▸ hq) hp)
          rw [Option.bind_some, Option.bind_some]
          show (m.topicObj q).channels.lookup c = _
          rw [honly.topicObj q hqp]

end Links

/-! ### Creation entries -/

/-- **Nothing is replaced.** Every topic is the object it was, with its queues and counters, and so
is every channel, with its messages and clients; a topic may have more channels. -/
structure Kept (n n' : Node) : Prop where
  lookup : ∀ t p, n.topics.lookup t = some p → n'.topics.lookup t = some p
  topicObj : ∀ t p, n.topics.lookup t = some p →
    { n'.topicObj p with channels := ∅ } = { n.topicObj p with channels := ∅ }
  channelPtr : ∀ t c k, n.channelPtr t c = some k → n'.channelPtr t c = some k
  channelObj : ∀ t c k, n.channelPtr t c = some k → n'.channelObj k = n.channelObj k

theorem Kept.refl (n : Node) : Kept n n :=
  ⟨fun _ _ h => h, fun _ _ _ => rfl, fun _ _ _ h => h, fun _ _ _ _ => rfl⟩

/-- The command creates something that is not there. -/
def Command.Fresh (n : Node) : Command → Prop
  | .newTopic t _ => n.topics.lookup t = none
  | .newChannel t c => n.channelPtr t c = none
  | _ => True

section Creation

variable {libs : Libs} {role : Role} {n n' : Node}

theorem newTopic_kept_iff (ho : n.Owned) {t : String} {j : TopicJSON}
    (h : Applied libs role n (.newTopic t j) n') : Kept n n' ↔ n.topics.lookup t = none := by
  cases h with
  | same _ h _ => exact absurd rfl (h t j)
  | newTopic _ _ =>
      have hs := clusterNewTopic_sets libs ho t j
      constructor
      · intro hk
        rw [Option.eq_none_iff_forall_ne_some]
        intro p hp
        have hnew := hk.lookup t p hp
        rw [hs.lookup_self] at hnew
        cases hnew
        exact absurd (ho.topic_lt t _ hp) (Nat.lt_irrefl _)
      · intro habsent
        have hne : ∀ u p, n.topics.lookup u = some p → u ≠ t := fun u p hp hu => by
          rw [hu, habsent] at hp
          cases hp
        have hne' : ∀ u c k, n.channelPtr u c = some k → u ≠ t := fun u c k hk => by
          obtain ⟨p, hp⟩ := exists_topic_of_channelPtr hk
          exact hne u p hp
        refine ⟨?_, ?_, ?_, ?_⟩
        · intro u p hp
          rw [hs.lookup_ne u (hne u p hp), hp]
        · intro u p hp
          rw [(hs.obj_ne u p (hne u p hp) hp).2]
        · intro u c k hk
          rw [hs.channelPtr_ne (hne' u c k hk), hk]
        · intro u c k hk
          exact hs.channel_ne u c k (hne' u c k hk) hk

theorem newChannel_kept_iff (ho : n.Owned) {t c : String}
    (h : Applied libs role n (.newChannel t c) n') : Kept n n' ↔ n.channelPtr t c = none := by
  cases h with
  | same _ _ h =>
      have hnone : n.channelPtr t c = none := by
        rw [Node.channelPtr, h t c rfl, Option.bind_none]
      exact ⟨fun _ => hnone, fun _ => Kept.refl n⟩
  | newChannel _ _ p o hp =>
      have hs := clusterNewChannel_sets ho hp c o
      constructor
      · intro hk
        rw [Option.eq_none_iff_forall_ne_some]
        intro k hold
        have hnew := hk.channelPtr t c k hold
        rw [hs.channelPtr_self, AList.lookup_insert] at hnew
        cases hnew
        exact absurd (ho.channel_lt t c _ hold) (Nat.lt_irrefl _)
      · intro habsent
        refine ⟨fun u q hq => hq, ?_, ?_, ?_⟩
        · intro u q hq
          by_cases hqp : q = p
          · rw [hqp, hs.obj_self]
          · rw [(hs.obj_ne u q (fun hu => hqp (by rw [hu, hp] at hq; cases hq; rfl)) hq).2]
        · intro u d k hk
          by_cases hu : u = t
          · subst hu
            have hd : d ≠ c := fun hd => by rw [hd, habsent] at hk; cases hk
            rw [hs.channelPtr_self, AList.lookup_insert_ne hd, ← channelPtr_of hp, hk]
          · rw [hs.channelPtr_ne hu, hk]
        · intro u d k hk
          exact (grown_allocChannel n o).channelObj k (ho.channel_lt u d k hk)

end Creation

/-- An entry whose method is a creation. -/
def IsCreation (sp : SetPayload) : Prop := sp.method = "NewTopic" ∨ sp.method = "NewChannel"

/-- **The claim on one act.** If it applies a creation entry, every existing object stays. -/
def KeepsObjects (libs : Libs) (n : Node) : Act → Prop
  | .apply role sp => IsCreation sp → ∀ n', step libs n (.apply role sp) = some n' → Kept n n'
  | _ => True

/-- If the act applies an entry that creates something, then that is not there. -/
def Fresh (libs : Libs) (n : Node) : Act → Prop
  | .apply _ sp => (decode libs sp).Fresh n
  | _ => True

theorem decode_newTopic (libs : Libs) {sp : SetPayload} (h : sp.method = "NewTopic") :
    decode libs sp = .nothing ∨ ∃ t j, decode libs sp = .newTopic t j := by
  rw [decode_of_newTopic h, decodeNewTopic]
  split
  · split
    · exact Or.inl rfl
    · split
      · exact Or.inl rfl
      · exact Or.inr ⟨_, _, rfl⟩
  · exact Or.inl rfl

theorem decode_newChannel (libs : Libs) {sp : SetPayload} (h : sp.method = "NewChannel") :
    decode libs sp = .nothing ∨ ∃ t c, decode libs sp = .newChannel t c := by
  rw [decode_of_newChannel h, decodeNewChannel]
  split
  · split
    · exact Or.inl rfl
    · split
      · exact Or.inl rfl
      · exact Or.inr ⟨_, _, rfl⟩
  · exact Or.inl rfl

theorem decodeTopicUpdate_creates (sp : SetPayload) : ¬ (decodeTopicUpdate sp).Creates := by
  unfold decodeTopicUpdate
  repeat' split
  all_goals exact id

theorem decodeDeleteChannel_creates (sp : SetPayload) : ¬ (decodeDeleteChannel sp).Creates := by
  unfold decodeDeleteChannel
  repeat' split
  all_goals exact id

theorem decodeDeleteTopic_creates (sp : SetPayload) : ¬ (decodeDeleteTopic sp).Creates := by
  unfold decodeDeleteTopic
  repeat' split
  all_goals exact id

theorem isCreation_of_creates {libs : Libs} {sp : SetPayload} (h : (decode libs sp).Creates) :
    IsCreation sp := by
  by_contra hno
  rw [IsCreation, not_or] at hno
  rw [decode, if_neg hno.1, if_neg hno.2] at h
  split at h
  · exact decodeTopicUpdate_creates sp h
  split at h
  · exact decodeDeleteChannel_creates sp h
  split at h
  · exact decodeDeleteTopic_creates sp h
  · exact h

/-- A creation entry always returns. -/
theorem apply_creation_returns (libs : Libs) (role : Role) {n : Node} (ho : n.Owned)
    {sp : SetPayload} (h : IsCreation sp) : ∃ err n', apply libs role n sp = .done err n' := by
  have hr := apply_refines libs role ho sp
  have hsome : ∃ w, n.replica.step libs role sp = some w := by
    rw [Replica.step]
    rcases h with h | h
    · rcases decode_newTopic libs h with hd | ⟨t, j, hd⟩
      · exact ⟨_, by rw [hd]; exact Replica.exec_nothing libs role n.replica⟩
      · exact ⟨_, by rw [hd]; rfl⟩
    · rcases decode_newChannel libs h with hd | ⟨t, c, hd⟩
      · exact ⟨_, by rw [hd]; exact Replica.exec_nothing libs role n.replica⟩
      · exact ⟨_, by rw [hd]; rfl⟩
  obtain ⟨w, hw⟩ := hsome
  rw [hw] at hr
  cases ha : apply libs role n sp with
  | done err n' => exact ⟨err, n', rfl⟩
  | stuck => rw [ha] at hr; cases hr
  | panic => rw [ha] at hr; cases hr

/-- **One entry.** An existing object is replaced exactly by the creation of what is there. -/
theorem keepsObjects_iff (libs : Libs) {n : Node} (ho : n.Owned) (a : Act) :
    KeepsObjects libs n a ↔ Fresh libs n a := by
  cases a with
  | apply role sp =>
      by_cases hc : IsCreation sp
      · obtain ⟨err, m, hm⟩ := apply_creation_returns libs role ho hc
        have hstep := step_apply.mpr ⟨err, hm⟩
        have happ := apply_applied hm
        have hkept : KeepsObjects libs n (.apply role sp) ↔ Kept n m := by
          constructor
          · exact fun h => h hc m hstep
          · intro h _ n' hn'
            rw [hstep] at hn'
            cases hn'
            exact h
        rw [hkept, Fresh]
        rcases hc with hc | hc
        · rcases decode_newTopic libs hc with hd | ⟨t, j, hd⟩
          · rw [hd] at happ ⊢
            cases happ
            exact ⟨fun _ => trivial, fun _ => Kept.refl n⟩
          · rw [hd] at happ ⊢
            exact newTopic_kept_iff ho happ
        · rcases decode_newChannel libs hc with hd | ⟨t, c, hd⟩
          · rw [hd] at happ ⊢
            cases happ
            exact ⟨fun _ => trivial, fun _ => Kept.refl n⟩
          · rw [hd] at happ ⊢
            exact newChannel_kept_iff ho happ
      · refine ⟨fun _ => ?_, fun _ h => absurd h hc⟩
        have hno : ¬ (decode libs sp).Creates := fun h => hc (isCreation_of_creates h)
        rw [Fresh]
        cases hd : decode libs sp with
        | newTopic t j => rw [hd] at hno; exact absurd trivial hno
        | newChannel t c => rw [hd] at hno; exact absurd trivial hno
        | update t f value => trivial
        | deleteChannel t c => trivial
        | deleteTopic t => trivial
        | nothing => trivial
  | putMessage p m => exact Iff.rfl
  | doPause p pause => exact Iff.rfl
  | pumpMemory p => exact Iff.rfl
  | pumpBackend p => exact Iff.rfl
  | channel k op => exact Iff.rfl
  | addClient k clientID max => exact Iff.rfl
  | removeClient k clientID => exact Iff.rfl

/-! ### One object from creation to deletion -/

/-- The act applies an entry that deletes the topic. -/
def DeletesTopic (libs : Libs) (t : String) : Act → Prop
  | .apply _ sp => decode libs sp = .deleteTopic t
  | _ => False

/-- The act applies an entry that deletes the channel, its topic, or the topic's set of channels. -/
def DeletesChannel (libs : Libs) (t c : String) : Act → Prop
  | .apply _ sp => decode libs sp = .deleteTopic t ∨ decode libs sp = .deleteChannel t c ∨
    ∃ value, decode libs sp = .update t .channels value
  | _ => False

theorem fresh_lookup {libs : Libs} {n n' : Node} {a : Act} {t : String} {p : TopicPtr}
    (ho : n.Owned) (h : step libs n a = some n') (hf : Fresh libs n a)
    (hd : ¬ DeletesTopic libs t a) (hp : n.topics.lookup t = some p) :
    n'.topics.lookup t = some p := by
  by_cases ha : ∃ role sp, a = .apply role sp
  · obtain ⟨role, sp, rfl⟩ := ha
    obtain ⟨err, happ⟩ := step_apply.mp h
    rw [applied_lookup ho (apply_applied happ), hp]
    intro hres
    rw [Fresh] at hf
    rw [DeletesTopic] at hd
    cases hc : decode libs sp with
    | newTopic u j =>
        rw [hc] at hres hf
        rw [show u = t from hres] at hf
        rw [show n.topics.lookup t = none from hf] at hp
        cases hp
    | deleteTopic u =>
        rw [hc] at hres
        exact hd (by rw [hc, show u = t from hres])
    | newChannel u c => rw [hc] at hres; exact hres
    | update u f value => rw [hc] at hres; exact hres
    | deleteChannel u c => rw [hc] at hres; exact hres
    | nothing => rw [hc] at hres; exact hres
  · rw [(step_sameLinks h fun role sp heq => ha ⟨role, sp, heq⟩).topics, hp]

theorem fresh_channelPtr {libs : Libs} {n n' : Node} {a : Act} {t c : String} {k : ChannelPtr}
    (ho : n.Owned) (h : step libs n a = some n') (hf : Fresh libs n a)
    (hd : ¬ DeletesChannel libs t c a) (hk : n.channelPtr t c = some k) :
    n'.channelPtr t c = some k := by
  by_cases ha : ∃ role sp, a = .apply role sp
  · obtain ⟨role, sp, rfl⟩ := ha
    obtain ⟨err, happ⟩ := step_apply.mp h
    rw [applied_channelPtr ho (apply_applied happ), hk]
    intro ht
    rw [Fresh] at hf
    rw [DeletesChannel, not_or, not_or] at hd
    obtain ⟨hd₁, hd₂, hd₃⟩ := hd
    cases hc : decode libs sp with
    | newTopic u j =>
        rw [hc] at ht hf
        obtain ⟨p, hp⟩ := exists_topic_of_channelPtr hk
        rw [show u = t from ht] at hf
        rw [show n.topics.lookup t = none from hf] at hp
        cases hp
    | newChannel u d =>
        rw [hc] at ht hf
        obtain ⟨rfl, rfl⟩ := ht
        rw [show n.channelPtr u d = none from hf] at hk
        cases hk
    | update u f value =>
        rw [hc] at ht
        obtain ⟨rfl, rfl⟩ := ht
        exact hd₃ ⟨value, hc⟩
    | deleteChannel u d =>
        rw [hc] at ht
        obtain ⟨rfl, rfl⟩ := ht
        exact hd₂ hc
    | deleteTopic u =>
        rw [hc] at ht
        exact hd₁ (by rw [hc, show u = t from ht])
    | nothing => rw [hc] at ht; exact ht
  · rw [(step_sameLinks h fun role sp heq => ha ⟨role, sp, heq⟩).channelPtr, hk]

/-- `GetTopic` and `GetChannel` find one object as long as nobody deletes it. -/
def SameObjects (libs : Libs) (n n' : Node) (acts : List Act) : Prop :=
  (∀ t p, n.topics.lookup t = some p → (∀ a ∈ acts, ¬ DeletesTopic libs t a) →
    n'.topics.lookup t = some p) ∧
  ∀ t c k, n.channelPtr t c = some k → (∀ a ∈ acts, ¬ DeletesChannel libs t c a) →
    n'.channelPtr t c = some k

theorem fresh_sameObjects {libs : Libs} (acts : List Act) :
    ∀ {n n' : Node}, n.Owned → Runs.Along (step libs) (Fresh libs) n acts →
      Runs.run (step libs) n acts = some n' → SameObjects libs n n' acts := by
  induction acts with
  | nil =>
      intro n n' _ _ hr
      cases hr
      exact ⟨fun t p hp _ => hp, fun t c k hk _ => hk⟩
  | cons a acts ih =>
      intro n n' ho hf hr
      obtain ⟨m, hm, hr⟩ := Runs.run_cons_elim hr
      obtain ⟨ht, hc⟩ := ih (step_owned ho hm) (hf.tail hm) hr
      constructor
      · intro t p hp hno
        exact ht t p (fresh_lookup ho hm hf.head (hno a List.mem_cons_self) hp)
          fun b hb => hno b (List.mem_cons_of_mem _ hb)
      · intro t c k hk hno
        exact hc t c k (fresh_channelPtr ho hm hf.head (hno a List.mem_cons_self) hk)
          fun b hb => hno b (List.mem_cons_of_mem _ hb)

/-- **Creation is idempotent along a run.** Creation entries leave the existing objects in place, and
in every stretch of the run a name leads to one object until it is deleted. -/
def Idempotent (libs : Libs) (n : Node) (acts : List Act) : Prop :=
  Runs.Along (step libs) (KeepsObjects libs) n acts ∧
  ∀ before during after, acts = before ++ (during ++ after) → ∀ n₁ n₂,
    Runs.run (step libs) n before = some n₁ → Runs.run (step libs) n₁ during = some n₂ →
    SameObjects libs n₁ n₂ during

/-- **When creation is idempotent.** For every run of a node from its start: exactly when no entry
creates a topic or a channel that is there. -/
theorem creation_idempotent_iff (libs : Libs) (opts : ChannelOptions) (acts : List Act) :
    Idempotent libs (Node.empty opts) acts ↔
      Runs.Along (step libs) (Fresh libs) (Node.empty opts) acts := by
  have hcongr : Runs.Along (step libs) (KeepsObjects libs) (Node.empty opts) acts ↔
      Runs.Along (step libs) (Fresh libs) (Node.empty opts) acts :=
    Runs.along_congr (fun _ _ _ ho h => step_owned ho h)
      (fun n a ho => keepsObjects_iff libs ho a) acts _ (owned_empty opts)
  constructor
  · exact fun h => hcongr.mp h.1
  · intro hf
    refine ⟨hcongr.mpr hf, ?_⟩
    rintro before during after rfl n₁ n₂ h₁ h₂
    exact fresh_sameObjects during (run_owned (owned_empty opts) before h₁) (hf.append h₁).left h₂

/-- What two clients submit that find no topic `orders`. -/
def createOrders : Act := .apply .leader (newTopicEntry Libs.ofNew "orders")

/-- A message is published between the two creations. -/
def publishOrders : Act := .putMessage 0 (newMessage (Vector.replicate 16 1) [7] 0)

/-- The second creation replaces the topic, and the message with it. -/
theorem creation_replaces :
    ¬ Idempotent Libs.ofNew (Node.empty ⟨2, 100⟩) [createOrders, publishOrders, createOrders] := by
  rintro ⟨_, hsame⟩
  obtain ⟨n₁, h₁, hp₁⟩ := Runs.exists_of_run (step Libs.ofNew) (Node.empty ⟨2, 100⟩)
    [createOrders, publishOrders] (fun n => n.topics.lookup "orders" = some 0 ∧
      (n.topicObj 0).memoryMsgChan.length = 1 ∧
      ((step Libs.ofNew n createOrders).any fun m => m.topics.lookup "orders" == some 1) = true)
    (by decide)
  obtain ⟨n₂, h₂, hp₂⟩ : ∃ n₂, step Libs.ofNew n₁ createOrders = some n₂ ∧
      n₂.topics.lookup "orders" = some 1 := by
    cases hs : step Libs.ofNew n₁ createOrders with
    | none => rw [hs] at hp₁; exact absurd hp₁.2.2 (by decide)
    | some m => rw [hs] at hp₁; exact ⟨m, rfl, by simpa using hp₁.2.2⟩
  have hrun : Runs.run (step Libs.ofNew) n₁ [createOrders] = some n₂ :=
    (Runs.run_cons createOrders [] n₂ h₂).mpr rfl
  have hkeep := (hsame [createOrders, publishOrders] [createOrders] [] rfl n₁ n₂ h₁ hrun).1 "orders" 0
    hp₁.1 (by
      intro a ha
      rw [List.mem_singleton] at ha
      subst ha
      exact nofun)
  rw [hp₂] at hkeep
  cases hkeep

end Xmq.Cluster
