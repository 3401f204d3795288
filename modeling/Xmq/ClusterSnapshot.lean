import Xmq.ClusterRefinement

/-!
# Snapshots

A snapshot holds nothing, so a node that restarts from one replays the log that follows on an empty
state. A topic then comes back only through the entries after the snapshot. The simulation below
runs the rest of the log on the state at the snapshot and on the empty state side by side: they
agree on every topic that an entry has reset, and the empty side has no other topic.
-/

namespace Xmq.Cluster

/-! ### The two replays -/

/-- Restart from the snapshot that was taken after `pre`, and apply the rest of the log. -/
def recover (libs : Libs) (role : Role) (opts : ChannelOptions) (pre post : List SetPayload) :
    Option Node :=
  (applyAll libs role (Node.empty opts) pre).bind fun n =>
    match restore libs (Node.empty opts) (persist n) with
    | .done _ m => applyAll libs role m post
    | .stuck => none
    | .panic => none

/-- Topic names, channel names, `MessageCount`, `MessageBytes` and `Paused`. -/
def Replica.contents (v : Replica) (t : String) :
    Option (UInt64 × UInt64 × Int32 × (String → Bool)) :=
  (v t).map fun s => (s.messageCount, s.messageBytes, s.paused, fun c => (s.channels c).isSome)

theorem recover_eq (libs : Libs) (role : Role) (opts : ChannelOptions) (pre post : List SetPayload)
    {n : Node} (h : applyAll libs role (Node.empty opts) pre = some n) :
    recover libs role opts pre post = applyAll libs role (Node.empty opts) post := by
  rw [recover, h]
  rfl

/-! ### Side by side -/

/-- `v` has replayed more than `w`, and they agree on the topics of `D`, outside of which `w` has
no topic. -/
structure Behind (D : String → Prop) (v w : Replica) : Prop where
  agree : ∀ t, D t → v t = w t
  absent : ∀ t, ¬ D t → w t = none

/-- **One entry, side by side.** -/
theorem Behind.step {libs : Libs} {role : Role} {D : String → Prop} {v v' w : Replica}
    {sp : SetPayload} (h : Behind D v w) (hv : v.step libs role sp = some v') :
    ∃ w', w.step libs role sp = some w' ∧
      Behind (fun t => D t ∨ (decode libs sp).Resets t) v' w' := by
  obtain ⟨cmd, hcmd⟩ : ∃ cmd, cmd = decode libs sp := ⟨_, rfl⟩
  rw [Replica.step, ← hcmd] at hv ⊢
  obtain ⟨x, hx, rfl⟩ := Replica.exec_eq_some.mp hv
  have hother : ∀ t, t ≠ cmd.topic → ¬ cmd.Resets t := fun t ht hr =>
    ht (Command.topic_of_resets hr).symm
  by_cases hD : D cmd.topic
  · rw [h.agree _ hD] at hx
    refine ⟨_, Replica.exec_eq_some.mpr ⟨x, hx, rfl⟩, ?_, ?_⟩
    · intro t ht
      by_cases htt : t = cmd.topic
      · rw [htt, Function.update_self, Function.update_self]
      · rw [Function.update_of_ne htt, Function.update_of_ne htt]
        exact h.agree t (ht.resolve_right (hother t htt))
    · intro t ht
      have htt : t ≠ cmd.topic := fun htt => ht (Or.inl (htt ▸ hD))
      rw [Function.update_of_ne htt]
      exact h.absent t fun hd => ht (Or.inl hd)
  · obtain ⟨y, hy, hnone⟩ := Command.effect_none libs role cmd
    rw [← h.absent _ hD] at hy
    refine ⟨_, Replica.exec_eq_some.mpr ⟨y, hy, rfl⟩, ?_, ?_⟩
    · intro t ht
      by_cases htt : t = cmd.topic
      · rw [htt, Function.update_self, Function.update_self]
        have hr : cmd.Resets cmd.topic := (htt ▸ ht).resolve_left hD
        have hx' := Command.effect_resets hx hr
        rw [h.absent _ hD, hx'] at hy
        exact Option.some.inj hy
      · rw [Function.update_of_ne htt, Function.update_of_ne htt]
        exact h.agree t (ht.resolve_right (hother t htt))
    · intro t ht
      by_cases htt : t = cmd.topic
      · rw [htt, Function.update_self]
        exact hnone fun hr => ht (Or.inr (htt ▸ hr))
      · rw [Function.update_of_ne htt]
        exact h.absent t fun hd => ht (Or.inl hd)

/-- **A log, side by side.** Where the replay on `v` returns, so does the one on `w`. -/
theorem Behind.steps {libs : Libs} {role : Role} (log : List SetPayload) :
    ∀ {D : String → Prop} {v v' w : Replica}, Behind D v w →
      v.steps libs role log = some v' →
      ∃ w', w.steps libs role log = some w' ∧
        Behind (fun t => D t ∨ ∃ sp ∈ log, (decode libs sp).Resets t) v' w' := by
  induction log with
  | nil =>
      intro D v v' w h hv
      cases hv
      exact ⟨w, rfl, fun t ht => h.agree t (by simpa using ht),
        fun t ht => h.absent t (by simpa using ht)⟩
  | cons sp rest ih =>
      intro D v v' w h hv
      obtain ⟨u, hu, hv⟩ := Option.bind_eq_some_iff.mp hv
      obtain ⟨x, hx, hb⟩ := h.step hu
      obtain ⟨w', hw, hb'⟩ := ih hb hv
      refine ⟨w', by rw [Replica.steps, hx, Option.bind_some, hw], ?_⟩
      have hD : ∀ t, (D t ∨ ∃ sq ∈ sp :: rest, (decode libs sq).Resets t) ↔
          (D t ∨ (decode libs sp).Resets t) ∨ ∃ sq ∈ rest, (decode libs sq).Resets t := by
        intro t
        simp only [List.mem_cons, exists_eq_or_imp, or_assoc]
      exact ⟨fun t ht => hb'.agree t ((hD t).mp ht),
        fun t ht => hb'.absent t fun h' => ht ((hD t).mpr h')⟩

/-- Without a reset a topic stays there or stays away. -/
theorem steps_isSome {libs : Libs} {role : Role} {t : String} (log : List SetPayload) :
    ∀ {v v' : Replica}, v.steps libs role log = some v' →
      (∀ sp ∈ log, ¬ (decode libs sp).Resets t) → (v' t).isSome = (v t).isSome := by
  induction log with
  | nil =>
      intro v v' hv _
      cases hv
      rfl
  | cons sp rest ih =>
      intro v v' hv hlog
      obtain ⟨u, hu, hv⟩ := Option.bind_eq_some_iff.mp hv
      rw [ih hv fun sq hsq => hlog sq (List.mem_cons_of_mem _ hsq)]
      obtain ⟨x, hx, rfl⟩ := Replica.exec_eq_some.mp hu
      by_cases htt : t = (decode libs sp).topic
      · rw [htt, Function.update_self]
        exact Command.effect_isSome hx (htt ▸ hlog sp List.mem_cons_self)
      · rw [Function.update_of_ne htt]

theorem contents_isSome (v : Replica) (t : String) : (v.contents t).isSome = (v t).isSome :=
  Option.isSome_map

/-- **When a restart gives the state back.** Where the whole log can be applied, restarting from a
snapshot and applying what follows gives the same replicated state exactly if every topic that
existed at the snapshot is created again or deleted by an entry that follows. -/
theorem recover_same_iff (libs : Libs) (role : Role) (opts : ChannelOptions)
    (pre post : List SetPayload) (n₀ n : Node)
    (h₀ : applyAll libs role (Node.empty opts) pre = some n₀)
    (h : applyAll libs role (Node.empty opts) (pre ++ post) = some n) :
    (∃ m, recover libs role opts pre post = some m ∧ m.replica.contents = n.replica.contents) ↔
      ∀ t p, n₀.topics.lookup t = some p → ∃ sp ∈ post, (decode libs sp).Resets t := by
  have hempty := owned_empty opts
  obtain ⟨hr₀, _⟩ := applyAll_refines libs role pre (Node.empty opts) hempty
  obtain ⟨hr, _⟩ := applyAll_refines libs role (pre ++ post) (Node.empty opts) hempty
  obtain ⟨hrp, _⟩ := applyAll_refines libs role post (Node.empty opts) hempty
  rw [h₀, Option.map_some] at hr₀
  rw [h, Option.map_some, Replica.steps_append, ← hr₀, Option.bind_some] at hr
  have hstart : Behind (fun _ => False) n₀.replica (Node.empty opts).replica :=
    ⟨fun _ h => h.elim, fun t _ => by rw [replica_empty]; rfl⟩
  obtain ⟨w, hw, hb⟩ := hstart.steps post hr.symm
  rw [hw, Option.map_eq_some_iff] at hrp
  obtain ⟨m, hm, rfl⟩ := hrp
  rw [recover_eq libs role opts pre post h₀, hm]
  constructor
  · rintro ⟨m', hm', hsame⟩ t p hp
    cases hm'
    by_contra hno
    have hnone : m.replica t = none := hb.absent t fun hd => hno (hd.resolve_left id)
    have hsome : (n.replica t).isSome = true := by
      rw [steps_isSome post hr.symm fun sp hsp hres => hno ⟨sp, hsp, hres⟩, replica_of hp]
      rfl
    rw [← contents_isSome, ← hsame, contents_isSome, hnone] at hsome
    cases hsome
  · intro hall
    refine ⟨m, rfl, ?_⟩
    have heq : m.replica = n.replica := by
      funext t
      by_cases hres : ∃ sp ∈ post, (decode libs sp).Resets t
      · exact (hb.agree t (Or.inr hres)).symm
      · have habsent : n₀.replica t = none := by
          rw [replica_eq_none, Option.eq_none_iff_forall_ne_some]
          exact fun p hp => hres (hall t p hp)
        have hn : (n.replica t).isSome = (n₀.replica t).isSome :=
          steps_isSome post hr.symm fun sp hsp h' => hres ⟨sp, hsp, h'⟩
        rw [hb.absent t fun hd => hres (hd.resolve_left id)]
        rw [habsent] at hn
        exact (Option.isSome_eq_false_iff.mp hn |> Option.isNone_iff_eq_none.mp).symm
    rw [heq]

def recoverOptions : ChannelOptions := ⟨2, 100⟩

/-- What `GetTopic` submits for the topic `orders`. -/
def newOrders : SetPayload := newTopicEntry Libs.ofNew "orders"

/-- A node that created the topic `orders`. -/
def ordersNode : Node :=
  (applyAll Libs.ofNew .follower (Node.empty recoverOptions) [newOrders]).get (by decide +kernel)

theorem ordersNode_topics : ordersNode.topics = AList.insert "orders" 0 ∅ := by
  rfl

/-- After a restart the topic is back when its creation follows the snapshot once more. -/
theorem recover_same_iff_created_again :
    ∃ m n, recover Libs.ofNew .follower recoverOptions [newOrders] [newOrders] = some m ∧
      applyAll Libs.ofNew .follower (Node.empty recoverOptions) [newOrders, newOrders] = some n ∧
      m.replica.contents = n.replica.contents := by
  obtain ⟨n, hn⟩ : ∃ n, applyAll Libs.ofNew .follower (Node.empty recoverOptions)
      [newOrders, newOrders] = some n := Option.isSome_iff_exists.mp (by decide)
  obtain ⟨m, hm, hsame⟩ := (recover_same_iff Libs.ofNew .follower recoverOptions [newOrders]
    [newOrders] ordersNode n (Option.some_get _).symm hn).mpr fun t p hp => by
      rw [ordersNode_topics] at hp
      rcases GoMap.lookup_insert_eq_some.mp hp with ⟨rfl, _⟩ | ⟨_, hp⟩
      · exact ⟨_, List.mem_cons_self, rfl⟩
      · rw [AList.lookup_empty] at hp
        cases hp
  exact ⟨m, n, hm, hn, hsame⟩

/-- A topic that was created before the snapshot is gone after the restart. -/
theorem recover_forgets :
    ¬ ∀ (libs : Libs) (role : Role) (opts : ChannelOptions) (pre post : List SetPayload) (n : Node),
      applyAll libs role (Node.empty opts) (pre ++ post) = some n →
      ∃ m, recover libs role opts pre post = some m ∧ m.replica.contents = n.replica.contents := by
  intro h
  obtain ⟨m, hm, hsame⟩ := h Libs.ofNew .follower recoverOptions [newOrders] [] ordersNode
    (Option.some_get _).symm
  cases hm
  have hgone : (Node.empty recoverOptions).replica.contents "orders" = none := rfl
  have hthere : (ordersNode.replica.contents "orders").isSome = true := by decide
  rw [← hsame, hgone] at hthere
  cases hthere

end Xmq.Cluster
