import Xmq.ClusterCreation
import Xmq.ClusterReplicas

/-!
# Agreement of the nodes

A node differs from the replay of the entries it has applied in the fields that a call has written
and whose entry the node has not applied yet: a call owes that entry. Applying it makes the field
what the replay makes of it, so a node on which nothing is under way is the replay itself. This needs
every submission of a call to get into the log and to be answered.
-/

namespace Xmq.Cluster

/-! ### A replicated state up to some fields -/

/-- The states differ at most in the fields of `D`. -/
structure Near (D : TopicField → Prop) (a b : TopicState) : Prop where
  name : a.name = b.name
  channels : a.channels = b.channels
  messageCount : a.messageCount = b.messageCount ∨ D .messageCount
  messageBytes : a.messageBytes = b.messageBytes ∨ D .messageBytes
  paused : a.paused = b.paused ∨ D .paused
  exitFlag : a.exitFlag = b.exitFlag ∨ D .exitFlag

theorem Near.refl (D : TopicField → Prop) (a : TopicState) : Near D a a :=
  ⟨rfl, rfl, Or.inl rfl, Or.inl rfl, Or.inl rfl, Or.inl rfl⟩

theorem Near.mono {D D' : TopicField → Prop} {a b : TopicState} (h : Near D a b)
    (hD : ∀ f, D f → D' f) : Near D' a b :=
  ⟨h.name, h.channels, h.messageCount.imp_right (hD _), h.messageBytes.imp_right (hD _),
    h.paused.imp_right (hD _), h.exitFlag.imp_right (hD _)⟩

theorem Near.eq {a b : TopicState} (h : Near (fun _ => False) a b) : a = b := by
  obtain ⟨h₁, h₂, h₃ | h₃, h₄ | h₄, h₅ | h₅, h₆ | h₆⟩ := h
  · cases a
    cases b
    simp_all
  all_goals exact False.elim ‹_›

/-- Both topics are absent, or both are there. -/
def NearOpt (D : TopicField → Prop) : Option TopicState → Option TopicState → Prop
  | none, none => True
  | some a, some b => Near D a b
  | _, _ => False

theorem NearOpt.mono {D D' : TopicField → Prop} {x y : Option TopicState} (h : NearOpt D x y)
    (hD : ∀ f, D f → D' f) : NearOpt D' x y := by
  cases x <;> cases y
  · trivial
  · exact h.elim
  · exact h.elim
  · exact Near.mono h hD

theorem NearOpt.eq {x y : Option TopicState} (h : NearOpt (fun _ => False) x y) : x = y := by
  cases x <;> cases y
  · rfl
  · exact h.elim
  · exact h.elim
  · exact congrArg some (Near.eq h)

/-- The fields that calls write. -/
def LocalField (f : TopicField) : Prop :=
  f = .messageCount ∨ f = .messageBytes ∨ f = .paused ∨ f = .exitFlag

/-- The commands of the entries that the nodes submit: no update of a name or of a set of channels. -/
def Command.Submitted : Command → Prop
  | .update _ f _ => LocalField f
  | _ => True

/-- The field that a command makes equal on all nodes. -/
def Command.Settles (f : TopicField) : Command → Prop
  | .update _ g _ => g = f
  | _ => False

/-- **One command on two near topics.** Where it returns on the one in any role, it returns on the
other on a follower, and the field that it writes is equal afterwards. -/
theorem near_effect {libs : Libs} {role : Role} {cmd : Command} {D : TopicField → Prop}
    {x x' y : Option TopicState} (h : NearOpt D x y) (hs : cmd.Submitted)
    (hx : cmd.effect libs role x = some x') :
    ∃ y', cmd.effect libs .follower y = some y' ∧
      NearOpt (fun f => D f ∧ ¬ cmd.Settles f) x' y' := by
  cases cmd with
  | newTopic t j =>
      cases hx
      exact ⟨_, rfl, Near.refl _ _⟩
  | newChannel t c =>
      cases hx
      refine ⟨_, rfl, ?_⟩
      cases x <;> cases y
      · trivial
      · exact h.elim
      · exact h.elim
      · obtain ⟨h₁, h₂, h₃, h₄, h₅, h₆⟩ := Near.mono h (fun f hf => (⟨hf, id⟩ : D f ∧ ¬ False))
        exact ⟨h₁, by simp only [h₂], h₃, h₄, h₅, h₆⟩
  | update t f value =>
      cases hx
      refine ⟨_, rfl, ?_⟩
      cases x <;> cases y
      · trivial
      · exact h.elim
      · exact h.elim
      · rename_i a b
        obtain ⟨h₁, h₂, h₃, h₄, h₅, h₆⟩ := h
        have hkeep : ∀ g, g ≠ f → D g → D g ∧ ¬ (Command.update t f value).Settles g :=
          fun g hg hd => ⟨hd, fun he => hg he.symm⟩
        rcases hs with rfl | rfl | rfl | rfl
        · exact ⟨h₁, h₂, Or.inl rfl, h₄.imp_right (hkeep _ nofun), h₅.imp_right (hkeep _ nofun),
            h₆.imp_right (hkeep _ nofun)⟩
        · exact ⟨h₁, h₂, h₃.imp_right (hkeep _ nofun), Or.inl rfl, h₅.imp_right (hkeep _ nofun),
            h₆.imp_right (hkeep _ nofun)⟩
        · exact ⟨h₁, h₂, h₃.imp_right (hkeep _ nofun), h₄.imp_right (hkeep _ nofun), Or.inl rfl,
            h₆.imp_right (hkeep _ nofun)⟩
        · exact ⟨h₁, h₂, h₃.imp_right (hkeep _ nofun), h₄.imp_right (hkeep _ nofun),
            h₅.imp_right (hkeep _ nofun), Or.inl rfl⟩
  | deleteChannel t c =>
      cases x <;> cases y
      · cases hx
        exact ⟨none, rfl, trivial⟩
      · exact h.elim
      · exact h.elim
      · rename_i a b
        obtain ⟨h₁, h₂, h₃, h₄, h₅, h₆⟩ := Near.mono h (fun f hf => (⟨hf, id⟩ : D f ∧ ¬ False))
        rw [Command.effect] at hx
        split at hx
        · cases hx
        · rename_i hc
          cases hx
          rw [h₂] at hc
          exact ⟨_, if_neg hc, h₁, by rw [h₂], h₃, h₄, h₅, h₆⟩
  | deleteTopic t =>
      cases x <;> cases y
      · cases hx
        exact ⟨none, rfl, trivial⟩
      · exact h.elim
      · exact h.elim
      · rw [Command.effect] at hx
        split at hx
        · cases hx
          exact ⟨none, if_pos (Or.inr (Or.inl rfl)), trivial⟩
        · cases hx
  | nothing =>
      cases hx
      exact ⟨y, rfl, h.mono fun f hf => ⟨hf, id⟩⟩

/-- On an absent topic the role makes no difference. -/
theorem effect_none_role (libs : Libs) (role role' : Role) (cmd : Command) :
    cmd.effect libs role none = cmd.effect libs role' none := by
  cases cmd <;> rfl

/-- A topic keeps the name it is stored under. -/
theorem effect_name {libs : Libs} {role : Role} {cmd : Command} {x : Option TopicState}
    {a : TopicState} (hs : cmd.Submitted) (hx : ∀ b, x = some b → b.name = cmd.topic)
    (h : cmd.effect libs role x = some (some a)) : a.name = cmd.topic := by
  cases cmd with
  | newTopic t j =>
      cases h
      rfl
  | newChannel t c =>
      obtain ⟨b, hb, rfl⟩ := Option.map_eq_some_iff.mp (Option.some.inj h)
      exact hx b hb
  | update t f value =>
      obtain ⟨b, hb, rfl⟩ := Option.map_eq_some_iff.mp (Option.some.inj h)
      rcases hs with rfl | rfl | rfl | rfl <;> exact hx b hb
  | deleteChannel t c =>
      cases x with
      | none => cases h
      | some b =>
          rw [Command.effect] at h
          split at h
          · cases h
          · cases h
            exact hx b rfl
  | deleteTopic t =>
      cases x with
      | none => cases h
      | some b =>
          rw [Command.effect] at h
          split at h <;> cases h
  | nothing =>
      cases h
      exact hx a rfl

/-! ### A node and the replay -/

/-- The node is the replay `v` up to the fields that `D` names for the objects of its topics. -/
structure Tracks (D : TopicPtr → TopicField → Prop) (n : Node) (v : Replica) : Prop where
  near : ∀ t, NearOpt (fun f => ∃ p, n.topics.lookup t = some p ∧ D p f) (n.replica t) (v t)
  named : ∀ t a, n.replica t = some a → a.name = t

section Tracking

variable {libs : Libs} {n n' : Node} {v : Replica} {D : TopicPtr → TopicField → Prop}

theorem Tracks.mono {D' : TopicPtr → TopicField → Prop} (h : Tracks D n v)
    (hD : ∀ t p f, n.topics.lookup t = some p → D p f → D' p f) : Tracks D' n v where
  near := fun t => (h.near t).mono fun f ⟨p, hp, hd⟩ => ⟨p, hp, hD t p f hp hd⟩
  named := h.named

theorem tracks_empty (opts : ChannelOptions) : Tracks D (Node.empty opts) Replica.empty where
  near := fun t => by
    rw [replica_empty]
    trivial
  named := fun t a h => by
    rw [replica_empty] at h
    cases h

/-- Without such a field the node is the replay. -/
theorem Tracks.eq (h : Tracks D n v) (hD : ∀ t p f, n.topics.lookup t = some p → ¬ D p f) :
    n.replica = v := by
  funext t
  exact NearOpt.eq ((h.near t).mono fun f ⟨p, hp, hd⟩ => hD t p f hp hd)

theorem Tracks.name_eq (h : Tracks D n v) {t : String} {p : TopicPtr}
    (hp : n.topics.lookup t = some p) : (n.topicObj p).name = t :=
  h.named t _ (replica_of hp)

/-- A write of one field of an object. -/
theorem Tracks.write {D' : TopicPtr → TopicField → Prop} (h : Tracks D n v) (p : TopicPtr)
    (w : LocalWrite)
    (hD : ∀ q f, D q f → D' q f) (hw : D' p w.field) :
    Tracks D' (n.setTopic p (w.run (n.topicObj p))) v := by
  obtain ⟨m, hm⟩ : ∃ m, m = n.setTopic p (w.run (n.topicObj p)) := ⟨_, rfl⟩
  have hlook : m.topics = n.topics := by rw [hm]; rfl
  have hchan : m.channelObj = n.channelObj := by rw [hm]; rfl
  have hself : m.topicObj p = w.run (n.topicObj p) := by rw [hm, n.setTopic_self]
  have hne : ∀ q, q ≠ p → m.topicObj q = n.topicObj q := fun q hq => by
    rw [hm, n.setTopic_ne _ hq]
  rw [← hm]
  have hrep : ∀ t q, n.topics.lookup t = some q → q ≠ p → m.replica t = n.replica t := by
    intro t q hq hqp
    rw [replica_of hq, replica_of (by rw [hlook, hq]), hne q hqp, hchan]
  constructor
  · intro t
    cases hq : n.topics.lookup t with
    | none =>
        have hn := h.near t
        rw [replica_none hq] at hn
        rw [replica_none (by rw [hlook, hq])]
        exact hn.mono fun f ⟨q, hq', _⟩ => by rw [hq] at hq'; cases hq'
    | some q =>
        by_cases hqp : q = p
        · subst hqp
          have hn := h.near t
          have hq' : m.topics.lookup t = some q := by rw [hlook, hq]
          rw [replica_of hq] at hn
          rw [replica_of hq', hself, hchan]
          cases hv : v t with
          | none => rw [hv] at hn; exact hn.elim
          | some b =>
              rw [hv] at hn
              have hn' : Near (fun f => ∃ p, m.topics.lookup t = some p ∧ D' p f)
                  (topicState n.channelObj (n.topicObj q)) b :=
                Near.mono hn fun f ⟨r, hr, hd⟩ => ⟨r, by rw [hlook, hr], hD r f hd⟩
              obtain ⟨h₁, h₂, h₃, h₄, h₅, h₆⟩ := hn'
              cases w with
              | addMessageCount k => exact ⟨h₁, h₂, Or.inr ⟨q, hq', hw⟩, h₄, h₅, h₆⟩
              | addMessageBytes k => exact ⟨h₁, h₂, h₃, Or.inr ⟨q, hq', hw⟩, h₅, h₆⟩
              | storePaused pause => exact ⟨h₁, h₂, h₃, h₄, Or.inr ⟨q, hq', hw⟩, h₆⟩
              | storeExitFlag => exact ⟨h₁, h₂, h₃, h₄, h₅, Or.inr ⟨q, hq', hw⟩⟩
        · rw [hrep t q hq hqp]
          exact (h.near t).mono fun f ⟨r, hr, hd⟩ => ⟨r, by rw [hlook, hr], hD r f hd⟩
  · intro t a ha
    cases hq : n.topics.lookup t with
    | none =>
        rw [replica_none (by rw [hlook, hq])] at ha
        cases ha
    | some q =>
        by_cases hqp : q = p
        · subst hqp
          rw [replica_of (by rw [hlook, hq]), hself] at ha
          cases ha
          cases w <;> exact h.name_eq hq
        · rw [hrep t q hq hqp] at ha
          exact h.named t a ha

/-- The replay that a command leads to. -/
theorem Tracks.apply (D' : TopicPtr → TopicField → Prop) (h : Tracks D n v) (ho : n.Owned)
    {role : Role} {sp : SetPayload}
    {err : GoError} (ha : apply libs role n sp = .done err n')
    (hs : (decode libs sp).Submitted)
    (hD : ∀ t p f, n.topics.lookup t = some p → D p f →
      D' p f ∨ t = (decode libs sp).topic ∧ (decode libs sp).Settles f) :
    ∃ v', v.step libs .follower sp = some v' ∧ Tracks D' n' v' := by
  have hr := apply_refines libs role ho sp
  rw [ha] at hr
  obtain ⟨_, hexec⟩ := hr
  obtain ⟨cmd, hcmd⟩ : ∃ cmd, cmd = decode libs sp := ⟨_, rfl⟩
  rw [Replica.step, ← hcmd] at hexec
  rw [← hcmd] at hs hD
  obtain ⟨x', hx, hrep⟩ := Replica.exec_eq_some.mp hexec
  obtain ⟨y', hy, hnear⟩ := near_effect (h.near cmd.topic) hs hx
  have happ := apply_applied ha
  rw [← hcmd] at happ
  refine ⟨_, by rw [Replica.step, ← hcmd]; exact Replica.exec_eq_some.mpr ⟨y', hy, rfl⟩, ?_, ?_⟩
  · intro t
    rw [hrep]
    by_cases ht : t = cmd.topic
    · subst ht
      rw [Function.update_self, Function.update_self]
      by_cases hres : cmd.Resets cmd.topic
      · -- a reset leaves the same on both sides
        have hsame : x' = y' := by
          have hx' := Command.effect_resets hx hres
          have hy' := Command.effect_resets hy hres
          rw [effect_none_role libs role .follower, hy'] at hx'
          exact (Option.some.inj hx').symm
        rw [hsame]
        cases y' with
        | none => trivial
        | some b => exact Near.refl _ b
      · refine hnear.mono fun f hf => ?_
        obtain ⟨⟨p, hp, hd⟩, hset⟩ := hf
        refine ⟨p, ?_, ?_⟩
        · rw [applied_lookup ho happ hres, hp]
        · exact (hD _ p f hp hd).resolve_right fun h => hset h.2
    · rw [Function.update_of_ne ht, Function.update_of_ne ht]
      refine (h.near t).mono fun f hf => ?_
      obtain ⟨p, hp, hd⟩ := hf
      refine ⟨p, ?_, ?_⟩
      · rw [applied_lookup ho happ fun hres => ht (Command.topic_of_resets hres).symm, hp]
      · exact (hD t p f hp hd).resolve_right fun h => ht h.1
  · intro t a hta
    rw [hrep] at hta
    by_cases ht : t = cmd.topic
    · subst ht
      rw [Function.update_self] at hta
      rw [hta] at hx
      exact effect_name hs (h.named cmd.topic) hx
    · rw [Function.update_of_ne ht] at hta
      exact h.named t a hta

end Tracking

/-- Taking a topic away on both sides. -/
theorem Tracks.erase {n m : Node} {v : Replica} {D D' : TopicPtr → TopicField → Prop} {t : String}
    {p : TopicPtr} (h : Tracks D n v) (ho : n.Owned) (hp : n.topics.lookup t = some p)
    (honly : OnlyTopic n m p)
    (hD : ∀ u q f, u ≠ t → n.topics.lookup u = some q → D q f → D' q f) :
    Tracks D' { m with topics := m.topics.erase t } (Function.update v t none) := by
  have hrep := (honly.drops ho hp).replica
  constructor
  · intro u
    rw [hrep]
    by_cases hu : u = t
    · rw [hu, Function.update_self, Function.update_self]
      trivial
    · rw [Function.update_of_ne hu, Function.update_of_ne hu]
      refine (h.near u).mono fun f ⟨q, hq, hd⟩ => ⟨q, ?_, hD u q f hu hq hd⟩
      show (m.topics.erase t).lookup u = some q
      rw [AList.lookup_erase_ne hu, honly.topics, hq]
  · intro u a ha
    rw [hrep] at ha
    by_cases hu : u = t
    · rw [hu, Function.update_self] at ha
      cases ha
    · rw [Function.update_of_ne hu] at ha
      exact h.named u a ha

/-! ### Old pointers -/

theorem setTopicField_nextTopic {libs : Libs} {n n' : Node} {p : TopicPtr} {value : String}
    {f : TopicField} {err : GoError} (hc : ∀ t c k, n.channelPtr t c = some k → k < n.nextChannel)
    {t : String} (hp : n.topics.lookup t = some p)
    (h : setTopicField libs n p value f = .done err n') : n'.nextTopic = n.nextTopic := by
  cases f with
  | channels =>
      rw [setTopicField] at h
      split at h
      · cases h
        rfl
      · have ha := addChannels_added (libs.unmarshalChannels value).1 n (n.topicObj p).channels
          fun c k hk => hc t c k (by rw [channelPtr_of hp, hk])
        cases h
        exact ha.grown.nextTopic
  | messageCount => cases h; rfl
  | messageBytes => cases h; rfl
  | name => cases h; rfl
  | exitFlag => cases h; rfl
  | ephemeral => cases h; rfl
  | paused => cases h; rfl

/-- An entry leads no name to an old object. -/
theorem applied_old {libs : Libs} {role : Role} {n n' : Node} {cmd : Command} (ho : n.Owned)
    (h : Applied libs role n cmd n') :
    n.nextTopic ≤ n'.nextTopic ∧ ∀ t p, n'.topics.lookup t = some p → p < n.nextTopic →
      n.topics.lookup t = some p := by
  cases h with
  | same _ _ _ => exact ⟨Nat.le_refl _, fun t p hp _ => hp⟩
  | newTopic u j =>
      have hs := clusterNewTopic_sets libs ho u j
      refine ⟨hs.nextTopic, fun t p hp hlt => ?_⟩
      by_cases ht : t = u
      · rw [ht, hs.lookup_self] at hp
        cases hp
        exact absurd hlt (Nat.lt_irrefl _)
      · rwa [hs.lookup_ne t ht] at hp
  | newChannel u d p o hp => exact ⟨Nat.le_refl _, fun t q hq _ => hq⟩
  | update u f value p err _ hp hset =>
      refine ⟨Nat.le_of_eq (setTopicField_nextTopic ho.channel_lt hp hset).symm, fun t q hq _ => ?_⟩
      rwa [(setTopicField_topics ho.channel_lt hp hset).1] at hq
  | deleteChannel u d p k o hp hk => exact ⟨Nat.le_refl _, fun t q hq _ => hq⟩
  | deleteTopic u p m hp honly =>
      refine ⟨Nat.le_of_eq honly.nextTopic.symm, fun t q hq _ => ?_⟩
      have hq' := (GoMap.lookup_erase_eq_some.mp hq).2
      rwa [honly.topics] at hq'

/-! ### The entries of calls -/

theorem topicField_fieldName (w : LocalWrite) : topicField w.fieldName = some w.field := by
  cases w <;> simp [LocalWrite.fieldName, LocalWrite.field, topicField]

theorem fieldName_ne (w : LocalWrite) : w.fieldName ≠ "" := by
  cases w <;> simp [LocalWrite.fieldName]

theorem localField (w : LocalWrite) : LocalField w.field := by
  cases w <;> simp [LocalWrite.field, LocalField]

theorem decode_update (libs : Libs) {t : String} (ht : t ≠ "") (w : LocalWrite) (value : String) :
    decode libs (topicUpdateEntry t w.fieldName value) = .update t w.field value := by
  rw [decode_of_topicUpdate rfl, decodeTopicUpdate, topicUpdateEntry]
  simp only [topicField_fieldName, if_neg (not_or.mpr ⟨ht, fieldName_ne w⟩)]

theorem submitted_update (libs : Libs) (t : String) (w : LocalWrite) (value : String) :
    (decode libs (topicUpdateEntry t w.fieldName value)).Submitted := by
  by_cases ht : t = ""
  · rw [decode_of_topicUpdate rfl, decodeTopicUpdate, topicUpdateEntry]
    simp only [if_pos (Or.inl ht : t = "" ∨ w.fieldName = "")]
    trivial
  · rw [decode_update libs ht]
    exact localField w

theorem submitted_of_method {libs : Libs} {sp : SetPayload} (h : sp.method ≠ "TopicUpdate") :
    (decode libs sp).Submitted := by
  rw [decode, if_neg h]
  split
  · unfold decodeNewTopic
    repeat' split
    all_goals trivial
  split
  · unfold decodeNewChannel
    repeat' split
    all_goals trivial
  split
  · unfold decodeDeleteChannel
    repeat' split
    all_goals trivial
  split
  · unfold decodeDeleteTopic
    repeat' split
    all_goals trivial
  · trivial

theorem setTopicField_ne_stuck (libs : Libs) (n : Node) (p : TopicPtr) (value : String)
    (f : TopicField) : setTopicField libs n p value f ≠ .stuck := by
  intro h
  cases f with
  | channels =>
      rw [setTopicField] at h
      split at h <;> cases h
  | _ => cases h

/-- Only the deletion of a topic can wait for ever. -/
theorem apply_stuck {libs : Libs} {role : Role} {n : Node} {sp : SetPayload}
    (h : apply libs role n sp = .stuck) :
    ∃ t, sp.args = [t] ∧ decode libs sp = .deleteTopic t := by
  rw [apply] at h
  rw [decode]
  split at h
  · unfold clusterNewTopic at h
    repeat' split at h
    all_goals cases h
  rw [if_neg ‹_›]
  split at h
  · unfold clusterNewChannel at h
    repeat' split at h
    all_goals cases h
  rw [if_neg ‹_›]
  split at h
  · unfold clusterTopicUpdate at h
    repeat' split at h
    all_goals first
      | cases h
      | exact absurd h (setTopicField_ne_stuck _ _ _ _ _)
  rw [if_neg ‹_›]
  split at h
  · simp only [clusterDeleteChannel] at h
    repeat' split at h
    all_goals cases h
  rw [if_neg ‹_›]
  split at h
  · rw [if_pos ‹_›]
    unfold clusterDeleteTopic at h
    split at h
    · rename_i t hargs
      refine ⟨t, hargs, ?_⟩
      split at h
      · cases h
      · rename_i ht
        rw [decodeDeleteTopic, hargs]
        exact if_neg ht
    · cases h
  · cases h

end Xmq.Cluster
