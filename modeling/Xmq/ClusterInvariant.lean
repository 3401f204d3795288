import Xmq.ClusterAgreement

/-!
# The invariant of a cluster

Along a run in which the submissions of calls are answered, every node tracks the replay of the
entries it has applied, up to the fields for which a call still owes an entry.
-/

namespace Xmq.Cluster

/-! ### What is owed -/

/-- The call has written the field, and its node has not applied the call's entry; `a` entries are
applied. -/
def CallPC.Owes (a : ℕ) (f : TopicField) : CallPC → Prop
  | .ready _ => False
  | .wrote w _ => w.field = f
  | .waiting w e _ => w.field = f ∧ a ≤ e

variable {ι : Type} {libs : Libs} {s : Sys ι}

/-- A call owes the field, or the handler of a deletion does. -/
def Sys.Owes (s : Sys ι) (i : ι) (p : TopicPtr) (f : TopicField) : Prop :=
  (∃ c ∈ s.calls, c.node = i ∧ c.ptr = p ∧ c.pc.Owes (s.applied i) f) ∨
    f = .exitFlag ∧ ∃ u, s.blocked i = some (u, p)

/-- The entry that a call waits for is an update of its topic, where that is still linked. -/
def Sys.Awaits (s : Sys ι) (c : CallState ι) : Prop :=
  ∀ w e todo, c.pc = .waiting w e todo → e < s.log.length ∧
    ∀ u, (s.node c.node).topics.lookup u = some c.ptr →
      u ≠ "" ∧ ∃ value, s.log[e]? = some (topicUpdateEntry u w.fieldName value)

structure Inv (libs : Libs) (s : Sys ι) : Prop where
  owned : ∀ i, (s.node i).Owned
  applied_le : ∀ i, s.applied i ≤ s.log.length
  submitted : ∀ sp ∈ s.log, (decode libs sp).Submitted
  tracks : ∀ i, ∃ v, Replica.empty.steps libs .follower (s.log.take (s.applied i)) = some v ∧
    Tracks (s.Owes i) (s.node i) v
  awaits : ∀ c ∈ s.calls, s.Awaits c
  ptr_lt : ∀ c ∈ s.calls, c.ptr < (s.node c.node).nextTopic
  blocked : ∀ i u p, s.blocked i = some (u, p) → (s.node i).topics.lookup u = some p ∧
    ∃ sp, s.log[s.applied i]? = some sp ∧ decode libs sp = .deleteTopic u

theorem inv_init (opts : ι → ChannelOptions) (role : ι → Role) : Inv libs (Sys.init opts role) where
  owned := fun i => owned_empty (opts i)
  applied_le := fun _ => Nat.le_refl _
  submitted := fun sp h => by cases h
  tracks := fun i => ⟨Replica.empty, rfl, tracks_empty (opts i)⟩
  awaits := fun c h => by cases h
  ptr_lt := fun c h => by cases h
  blocked := fun i u p h => by cases h

/-! ### Parts of a step -/

theorem getElem?_append {l : List SetPayload} {e : ℕ} {sp sq : SetPayload} (h : l[e]? = some sp) :
    (l ++ [sq])[e]? = some sp := by
  rw [List.getElem?_append_left (List.getElem?_eq_some_iff.mp h).1, h]

/-- An entry is appended. -/
theorem Inv.append (h : Inv libs s) {sp : SetPayload} (hsp : (decode libs sp).Submitted) :
    Inv libs { s with log := s.log ++ [sp] } where
  owned := h.owned
  applied_le := fun i => by
    rw [List.length_append]
    exact Nat.le_add_right_of_le (h.applied_le i)
  submitted := fun sq hsq => by
    rcases List.mem_append.mp hsq with hsq | hsq
    · exact h.submitted sq hsq
    · rw [List.mem_singleton.mp hsq]
      exact hsp
  tracks := fun i => by
    obtain ⟨v, hv, ht⟩ := h.tracks i
    refine ⟨v, ?_, ht⟩
    rw [← hv]
    congr 1
    exact List.take_append_of_le_length (h.applied_le i)
  awaits := fun c hc w e todo hpc => by
    obtain ⟨hlt, hu⟩ := h.awaits c hc w e todo hpc
    refine ⟨?_, fun u hlook => ?_⟩
    · rw [List.length_append]
      exact Nat.lt_add_right _ hlt
    · obtain ⟨hne, value, hv⟩ := hu u hlook
      exact ⟨hne, value, getElem?_append hv⟩
  ptr_lt := h.ptr_lt
  blocked := fun i u p hb => by
    obtain ⟨hlook, sq, hsq, hd⟩ := h.blocked i u p hb
    exact ⟨hlook, sq, getElem?_append hsq, hd⟩

theorem mem_set {l : List (CallState ι)} {k : ℕ} {c c' d : CallState ι} (hk : l[k]? = some c)
    (h : d ∈ l) : d = c ∨ d ∈ l.set k c' := by
  obtain ⟨j, hj⟩ := List.mem_iff_getElem?.mp h
  by_cases hjk : k = j
  · subst hjk
    rw [hk] at hj
    exact Or.inl (Option.some.inj hj).symm
  · exact Or.inr (List.mem_iff_getElem?.mpr ⟨j, by rw [List.getElem?_set_ne hjk, hj]⟩)

theorem self_mem_set {l : List (CallState ι)} {k : ℕ} {c c' : CallState ι} (hk : l[k]? = some c) :
    c' ∈ l.set k c' := by
  have hlt := (List.getElem?_eq_some_iff.mp hk).1
  exact List.mem_iff_getElem?.mpr ⟨k, List.getElem?_set_self hlt⟩

/-- The calls change: every debt stays with some call, and each call is in order. -/
theorem Inv.withCalls (h : Inv libs s) {calls : List (CallState ι)}
    (howes : ∀ c ∈ s.calls, ∀ f, c.pc.Owes (s.applied c.node) f →
      ∃ d ∈ calls, d.node = c.node ∧ d.ptr = c.ptr ∧ d.pc.Owes (s.applied c.node) f)
    (hcalls : ∀ c ∈ calls, s.Awaits c ∧ c.ptr < (s.node c.node).nextTopic) :
    Inv libs { s with calls := calls } where
  owned := h.owned
  applied_le := h.applied_le
  submitted := h.submitted
  tracks := fun j => by
    obtain ⟨v, hv, ht⟩ := h.tracks j
    refine ⟨v, hv, ht.mono fun u q f _ hd => ?_⟩
    rcases hd with ⟨c, hc, rfl, rfl, hpc⟩ | hb
    · exact Or.inl (howes c hc f hpc)
    · exact Or.inr hb
  awaits := fun c hc => (hcalls c hc).1
  ptr_lt := fun c hc => (hcalls c hc).2
  blocked := h.blocked

/-- A call goes on; it still owes what it owed. -/
theorem Inv.setCall (h : Inv libs s) {k : ℕ} {i : ι} {p : TopicPtr} {pc : CallPC} (pc' : CallPC)
    (hk : s.calls[k]? = some ⟨i, p, pc⟩)
    (howes : ∀ f, pc.Owes (s.applied i) f → pc'.Owes (s.applied i) f)
    (hawaits : s.Awaits ⟨i, p, pc'⟩) : Inv libs (s.setCall k ⟨i, p, pc'⟩) := by
  refine h.withCalls (fun c hc f hpc => ?_) fun c hc => ?_
  · rcases mem_set hk hc with rfl | hc'
    · exact ⟨_, self_mem_set hk, rfl, rfl, howes f hpc⟩
    · exact ⟨c, hc', rfl, rfl, hpc⟩
  · rcases List.mem_or_eq_of_mem_set hc with hc | rfl
    · exact ⟨h.awaits c hc, h.ptr_lt c hc⟩
    · exact ⟨hawaits, h.ptr_lt ⟨i, p, pc⟩ (List.mem_of_getElem? hk)⟩

/-- A call begins. -/
theorem Inv.addCall (h : Inv libs s) {i : ι} {p : TopicPtr} (hp : p < (s.node i).nextTopic)
    (todo : List LocalWrite) :
    Inv libs { s with calls := s.calls ++ [⟨i, p, .ready todo⟩] } := by
  refine h.withCalls (fun c hc f hpc => ?_) fun c hc => ?_
  · exact ⟨c, List.mem_append_left _ hc, rfl, rfl, hpc⟩
  · rcases List.mem_append.mp hc with hc | hc
    · exact ⟨h.awaits c hc, h.ptr_lt c hc⟩
    · rw [List.mem_singleton.mp hc]
      exact ⟨nofun, hp⟩

/-- The entry that the node applies next is the last one it replays. -/
theorem steps_take_succ {v v' : Replica} {a : ℕ} {sp : SetPayload} (hsp : s.log[a]? = some sp)
    (hv : Replica.empty.steps libs .follower (s.log.take a) = some v)
    (hv' : v.step libs .follower sp = some v') :
    Replica.empty.steps libs .follower (s.log.take (a + 1)) = some v' := by
  rw [List.take_add_one, hsp, Replica.steps_append, hv, Option.bind_some]
  show (v.step libs .follower sp).bind _ = _
  rw [hv', Option.bind_some]
  rfl

/-- What is owed before an entry is applied is owed after it, or the entry settles it. -/
theorem owes_or_settles (h : Inv libs s) {i : ι} {sp : SetPayload}
    (hsp : s.log[s.applied i]? = some sp) {c : CallState ι} (hc : c ∈ s.calls) (hi : c.node = i)
    {u : String} {f : TopicField} (hu : (s.node i).topics.lookup u = some c.ptr)
    (hf : c.pc.Owes (s.applied i) f) :
    c.pc.Owes (s.applied i + 1) f ∨
      u = (decode libs sp).topic ∧ (decode libs sp).Settles f := by
  obtain ⟨j, p, pc⟩ := c
  cases hi
  cases pc with
  | ready todo => exact Or.inl hf
  | wrote w todo => exact Or.inl hf
  | waiting w e todo =>
      obtain ⟨hw, hle⟩ := hf
      rcases Nat.eq_or_lt_of_le hle with heq | hlt
      · obtain ⟨_, hlink⟩ := h.awaits _ hc w e todo rfl
        obtain ⟨hne, value, hv⟩ := hlink u hu
        rw [← heq, hsp] at hv
        cases hv
        rw [decode_update libs hne]
        exact Or.inr ⟨rfl, hw⟩
      · exact Or.inl ⟨hw, hlt⟩

/-- On a quiet node nothing is owed. -/
theorem quiet_owes {i : ι} (hq : s.Quiet i) (p : TopicPtr) (f : TopicField) : ¬ s.Owes i p f := by
  rintro (⟨c, hc, hi, _, hpc⟩ | ⟨_, u, hb⟩)
  · rw [hq.2 c hc hi] at hpc
    exact hpc
  · rw [hq.1] at hb
    cases hb

variable [DecidableEq ι]

/-- A field is written that is owed. -/
theorem Inv.write (h : Inv libs s) {i : ι} {p : TopicPtr} (w : LocalWrite)
    (howes : s.Owes i p w.field) :
    Inv libs (s.setNode i ((s.node i).setTopic p (w.run ((s.node i).topicObj p)))) := by
  obtain ⟨n, hn⟩ : ∃ n, n = (s.node i).setTopic p (w.run ((s.node i).topicObj p)) := ⟨_, rfl⟩
  have hchan : (w.run ((s.node i).topicObj p)).channels = ((s.node i).topicObj p).channels := by
    cases w <;> rfl
  have hlinks : SameLinks (s.node i) n := by
    rw [hn]
    exact sameLinks_setTopic (s.node i) p hchan
  have hself : (Function.update s.node i n) i = n := Function.update_self ..
  have hother : ∀ j, j ≠ i → (Function.update s.node i n) j = s.node j :=
    fun j hj => Function.update_of_ne hj ..
  have hlook : ∀ j, ((Function.update s.node i n) j).topics = (s.node j).topics := by
    intro j
    by_cases hj : j = i
    · subst hj
      rw [hself, hlinks.topics]
    · rw [hother j hj]
  rw [← hn]
  refine ⟨?_, h.applied_le, h.submitted, ?_, ?_, ?_, ?_⟩
  · intro j
    show ((Function.update s.node i n) j).Owned
    by_cases hj : j = i
    · subst hj
      rw [hself]
      exact hlinks.owned (h.owned j)
    · rw [hother j hj]
      exact h.owned j
  · intro j
    obtain ⟨v, hv, ht⟩ := h.tracks j
    refine ⟨v, hv, ?_⟩
    show Tracks (s.Owes j) ((Function.update s.node i n) j) v
    by_cases hj : j = i
    · subst hj
      rw [hself, hn]
      exact ht.write p w (fun _ _ hd => hd) howes
    · rw [hother j hj]
      exact ht
  · intro c hc w' e todo hpc
    obtain ⟨hlt, hu⟩ := h.awaits c hc w' e todo hpc
    refine ⟨hlt, fun u hu' => hu u ?_⟩
    rwa [← hlook]
  · intro c hc
    show c.ptr < ((Function.update s.node i n) c.node).nextTopic
    have hlt := h.ptr_lt c hc
    by_cases hj : c.node = i
    · rw [hj, hself, hlinks.nextTopic]
      rwa [hj] at hlt
    · rwa [hother _ hj]
  · intro j u q hb
    obtain ⟨hl, hsp⟩ := h.blocked j u q hb
    exact ⟨by
      show ((Function.update s.node i n) j).topics.lookup u = some q
      rw [hlook, hl], hsp⟩

/-- A node goes to its next entry. -/
theorem Inv.advance (h : Inv libs s) {i : ι} {sp : SetPayload} {n : Node} {v' : Replica}
    (hsp : s.log[s.applied i]? = some sp) (ho : n.Owned)
    (hold : (s.node i).nextTopic ≤ n.nextTopic ∧ ∀ u p, n.topics.lookup u = some p →
      p < (s.node i).nextTopic → (s.node i).topics.lookup u = some p)
    (hv : Replica.empty.steps libs .follower (s.log.take (s.applied i + 1)) = some v')
    (ht : Tracks (fun p f => ∃ c ∈ s.calls, c.node = i ∧ c.ptr = p ∧
      c.pc.Owes (s.applied i + 1) f) n v') :
    Inv libs { s.setNode i n with
      applied := Function.update s.applied i (s.applied i + 1)
      blocked := Function.update s.blocked i none } := by
  have hself : (Function.update s.node i n) i = n := Function.update_self ..
  have hother : ∀ j, j ≠ i → (Function.update s.node i n) j = s.node j :=
    fun j hj => Function.update_of_ne hj ..
  have haself : (Function.update s.applied i (s.applied i + 1)) i = s.applied i + 1 :=
    Function.update_self ..
  have haother : ∀ j, j ≠ i → (Function.update s.applied i (s.applied i + 1)) j = s.applied j :=
    fun j hj => Function.update_of_ne hj ..
  have hbself : (Function.update s.blocked i none) i = none := Function.update_self ..
  have hbother : ∀ j, j ≠ i → (Function.update s.blocked i none) j = s.blocked j :=
    fun j hj => Function.update_of_ne hj ..
  refine ⟨?_, ?_, h.submitted, ?_, ?_, ?_, ?_⟩
  · intro j
    show ((Function.update s.node i n) j).Owned
    by_cases hj : j = i
    · rw [hj, hself]
      exact ho
    · rw [hother j hj]
      exact h.owned j
  · intro j
    show (Function.update s.applied i (s.applied i + 1)) j ≤ s.log.length
    by_cases hj : j = i
    · rw [hj, haself]
      exact (List.getElem?_eq_some_iff.mp hsp).1
    · rw [haother j hj]
      exact h.applied_le j
  · intro j
    show ∃ v, Replica.empty.steps libs .follower
        (s.log.take ((Function.update s.applied i (s.applied i + 1)) j)) = some v ∧
      Tracks (Sys.Owes _ j) ((Function.update s.node i n) j) v
    by_cases hj : j = i
    · subst hj
      rw [haself, hself]
      refine ⟨v', hv, ht.mono fun u p f _ ⟨c, hc, hnode, hptr, hpc⟩ => Or.inl ⟨c, hc, hnode, hptr, ?_⟩⟩
      show c.pc.Owes ((Function.update s.applied j (s.applied j + 1)) j) f
      rwa [haself]
    · rw [haother j hj, hother j hj]
      obtain ⟨v, hv, ht⟩ := h.tracks j
      refine ⟨v, hv, ht.mono fun u p f _ hd => ?_⟩
      rcases hd with ⟨c, hc, hnode, hptr, hpc⟩ | ⟨hf, u', hb⟩
      · refine Or.inl ⟨c, hc, hnode, hptr, ?_⟩
        show c.pc.Owes ((Function.update s.applied i (s.applied i + 1)) j) f
        rwa [haother j hj]
      · refine Or.inr ⟨hf, u', ?_⟩
        show (Function.update s.blocked i none) j = _
        rw [hbother j hj, hb]
  · intro c hc w e todo hpc
    obtain ⟨hlt, hu⟩ := h.awaits c hc w e todo hpc
    refine ⟨hlt, fun u hu' => hu u ?_⟩
    have hu'' : ((Function.update s.node i n) c.node).topics.lookup u = some c.ptr := hu'
    by_cases hj : c.node = i
    · rw [hj, hself] at hu''
      rw [hj]
      exact hold.2 u c.ptr hu'' (hj ▸ h.ptr_lt c hc)
    · rwa [hother _ hj] at hu''
  · intro c hc
    show c.ptr < ((Function.update s.node i n) c.node).nextTopic
    have hlt := h.ptr_lt c hc
    by_cases hj : c.node = i
    · rw [hj] at hlt ⊢
      rw [hself]
      exact Nat.lt_of_lt_of_le hlt hold.1
    · rwa [hother _ hj]
  · intro j u p hb
    have hb' : (Function.update s.blocked i none) j = some (u, p) := hb
    by_cases hj : j = i
    · rw [hj, hbself] at hb'
      cases hb'
    · rw [hbother j hj] at hb'
      obtain ⟨hl, sq, hsq, hd⟩ := h.blocked j u p hb'
      refine ⟨?_, sq, ?_, hd⟩
      · show ((Function.update s.node i n) j).topics.lookup u = some p
        rw [hother j hj, hl]
      · show s.log[(Function.update s.applied i (s.applied i + 1)) j]? = some sq
        rw [haother j hj, hsq]

/-- The handler of a deletion begins to wait. -/
theorem Inv.block (h : Inv libs s) {i : ι} {u : String} {p : TopicPtr} {sp : SetPayload}
    (hb : s.blocked i = none) (hu : (s.node i).topics.lookup u = some p)
    (hsp : s.log[s.applied i]? = some sp) (hd : decode libs sp = .deleteTopic u) :
    Inv libs { s with blocked := Function.update s.blocked i (some (u, p)) } where
  owned := h.owned
  applied_le := h.applied_le
  submitted := h.submitted
  tracks := fun j => by
    obtain ⟨v, hv, ht⟩ := h.tracks j
    refine ⟨v, hv, ht.mono fun u' q f _ hd => hd.imp_right fun ⟨hf, u'', hb'⟩ => ⟨hf, u'', ?_⟩⟩
    show (Function.update s.blocked i (some (u, p))) j = _
    by_cases hj : j = i
    · subst hj
      rw [hb] at hb'
      cases hb'
    · rw [Function.update_of_ne hj, hb']
  awaits := h.awaits
  ptr_lt := h.ptr_lt
  blocked := fun j u' q hb' => by
    have hb'' : (Function.update s.blocked i (some (u, p))) j = some (u', q) := hb'
    by_cases hj : j = i
    · subst hj
      rw [Function.update_self] at hb''
      cases hb''
      exact ⟨hu, sp, hsp, hd⟩
    · rw [Function.update_of_ne hj] at hb''
      exact h.blocked j u' q hb''

/-- A node applies an entry whose handler returns. -/
theorem Inv.apply_done (h : Inv libs s) {i : ι} {sp : SetPayload} {err : GoError} {n : Node}
    (hb : s.blocked i = none) (hsp : s.log[s.applied i]? = some sp)
    (ha : apply libs (s.role i) (s.node i) sp = .done err n) :
    Inv libs { s.setNode i n with applied := Function.update s.applied i (s.applied i + 1) } := by
  have hblocked : Function.update s.blocked i none = s.blocked := by
    rw [← hb, Function.update_eq_self]
  have hmem : sp ∈ s.log := List.mem_of_getElem? hsp
  obtain ⟨v, hv, ht⟩ := h.tracks i
  have ho := h.owned i
  have ho' : n.Owned := by
    have hr := apply_refines libs (s.role i) ho sp
    rw [ha] at hr
    exact hr.1
  obtain ⟨v', hv', ht'⟩ := ht.apply (fun p f => ∃ c ∈ s.calls, c.node = i ∧ c.ptr = p ∧
      c.pc.Owes (s.applied i + 1) f) ho ha (h.submitted sp hmem) fun u p f hu hd => by
    rcases hd with ⟨c, hc, hnode, rfl, hpc⟩ | ⟨_, u', hb'⟩
    · exact (owes_or_settles h hsp hc hnode hu hpc).imp_left fun hpc' => ⟨c, hc, hnode, rfl, hpc'⟩
    · rw [hb] at hb'
      cases hb'
  have hadv := h.advance hsp ho' (applied_old ho (apply_applied ha))
    (steps_take_succ hsp hv hv') ht'
  rw [hblocked] at hadv
  exact hadv

/-- The wait of a handler fails, and it finishes the deletion. -/
theorem Inv.abandon (h : Inv libs s) {i : ι} {u : String} {p : TopicPtr}
    (hb : s.blocked i = some (u, p)) :
    Inv libs { s.setNode i (exitedNode (s.node i) p u .returned) with
      applied := Function.update s.applied i (s.applied i + 1)
      blocked := Function.update s.blocked i none } := by
  obtain ⟨hu, sp, hsp, hd⟩ := h.blocked i u p hb
  obtain ⟨v, hv, ht⟩ := h.tracks i
  have ho := h.owned i
  obtain ⟨m, hm⟩ : ∃ m, m = (s.node i).setTopic p (exitedTopic ((s.node i).topicObj p) .returned) :=
    ⟨_, rfl⟩
  have honly : OnlyTopic (s.node i) m p := by
    rw [hm]
    exact ⟨rfl, fun q hq => Node.setTopic_ne _ _ hq, rfl, rfl, rfl⟩
  have hnode : exitedNode (s.node i) p u .returned = { m with topics := m.topics.erase u } := by
    rw [hm]
    rfl
  have hstep : v.step libs .follower sp = some (Function.update v u none) := by
    rw [Replica.step, hd, Replica.exec, Command.topic]
    cases hvu : v u with
    | none => rw [Command.effect, Option.map_some]
    | some a =>
        have hret : Command.DeleteReturns .follower a := Or.inr (Or.inl rfl)
        rw [Command.effect, if_pos hret, Option.map_some]
  rw [hnode]
  refine h.advance hsp ((honly.drops ho hu).owned ho) ⟨Nat.le_of_eq honly.nextTopic.symm, ?_⟩
    (steps_take_succ hsp hv hstep) (ht.erase ho hu honly ?_)
  · intro u' q hq _
    have hq' := (GoMap.lookup_erase_eq_some.mp hq).2
    rwa [honly.topics] at hq'
  · intro u' q f hne hq hd'
    rcases hd' with ⟨c, hc, hnode, rfl, hpc⟩ | ⟨_, u'', hb'⟩
    · rcases owes_or_settles h hsp hc hnode hq hpc with hpc' | ⟨_, hset⟩
      · exact ⟨c, hc, hnode, rfl, hpc'⟩
      · rw [hd] at hset
        exact hset.elim
    · rw [hb] at hb'
      cases hb'
      exact absurd (ho.topic_inj u' u p hq hu) hne

/-! ### Runs -/

/-- **One step.** -/
theorem inv_step {t : Sys ι} {a : SysAct ι} (h : Inv libs s) (ha : s.Answered a)
    (hst : s.step libs a = some t) : Inv libs t := by
  cases a with
  | request i sp =>
      rw [Sys.step] at hst
      split at hst
      · rename_i hc
        cases hst
        exact h.append (submitted_of_method hc.2)
      · cases hst
  | begin i p call =>
      rw [Sys.step] at hst
      split at hst
      · rename_i hp
        cases hst
        exact h.addCall hp _
      · cases hst
  | write k =>
      rw [Sys.step] at hst
      split at hst
      · rename_i i p w todo hk
        cases hst
        have h' := h.setCall (.wrote w todo) hk (fun _ hf => hf.elim)
          fun w' e todo' hpc => by cases hpc
        exact h'.write w (Or.inl ⟨_, self_mem_set hk, rfl, rfl, rfl⟩)
      · cases hst
  | submit k accepted =>
      rw [Sys.step] at hst
      split at hst
      · rename_i i p w todo hk
        have hacc := ha _ hk
        simp only [if_pos hacc] at hst
        cases hst
        have h' := h.append (submitted_update libs ((s.node i).topicObj p).name w
          (w.value libs ((s.node i).topicObj p)))
        refine h'.setCall (.waiting w s.log.length todo) hk (fun f hf => ⟨hf, ?_⟩) ?_
        · exact h.applied_le i
        · intro w' e todo' hpc
          cases hpc
          refine ⟨by simp, fun u hu => ?_⟩
          obtain ⟨v, _, ht⟩ := h.tracks i
          have hname := ht.name_eq hu
          rw [← hname]
          exact ⟨hacc.2.2, _, List.getElem?_concat_length⟩
      · cases hst
  | fail k => exact ha.elim
  | resume k =>
      rw [Sys.step] at hst
      split at hst
      · rename_i i p w e todo hk
        split at hst
        · rename_i hlt
          cases hst
          exact h.setCall (.ready todo) hk (fun f hf => absurd hf.2 (Nat.not_le.mpr hlt))
            fun w' e' todo' hpc => by cases hpc
        · cases hst
      · cases hst
  | apply i =>
      rw [Sys.step] at hst
      split at hst
      · rename_i sp hb hsp
        cases happ : apply libs (s.role i) (s.node i) sp with
        | done err n =>
            rw [happ] at hst
            cases hst
            exact h.apply_done hb hsp happ
        | panic =>
            rw [happ] at hst
            cases hst
        | stuck =>
            obtain ⟨u, hargs, hd⟩ := apply_stuck happ
            simp only [happ, hargs] at hst
            obtain ⟨p, hp, rfl⟩ := Option.map_eq_some_iff.mp hst
            have h₁ := (h.append (submitted_update libs ((s.node i).topicObj p).name .storeExitFlag
              (libs.int32ToString 1))).block hb hp (getElem?_append hsp) hd
            exact h₁.write (i := i) (p := p) .storeExitFlag
              (Or.inr ⟨rfl, u, Function.update_self ..⟩)
      · cases hst
  | abandon i =>
      rw [Sys.step] at hst
      split at hst
      · rename_i u p hb
        cases hst
        exact h.abandon hb
      · cases hst
  | elect i role =>
      cases hst
      exact ⟨h.owned, h.applied_le, h.submitted, h.tracks, h.awaits, h.ptr_lt, h.blocked⟩

/-- **Replica agreement.** In every run of a cluster in which the submissions of calls get into the
log and are answered, two nodes that have applied as many entries, and on which nothing is under
way, agree. -/
theorem replicas_agree (libs : Libs) (opts : ι → ChannelOptions) (role : ι → Role)
    (acts : List (SysAct ι)) (s : Sys ι)
    (hrun : Runs.run (Sys.step libs) (Sys.init opts role) acts = some s)
    (hgood : Runs.Along (Sys.step libs) Sys.Answered (Sys.init opts role) acts)
    (i j : ι) (happ : s.applied i = s.applied j) (hi : s.Quiet i) (hj : s.Quiet j) :
    (s.node i).replica.agreed = (s.node j).replica.agreed := by
  have h : Inv libs s := Runs.invariant_along (fun _ _ _ h hg hst => inv_step h hg hst) acts _ s
    (inv_init opts role) hgood hrun
  obtain ⟨v, hv, hti⟩ := h.tracks i
  obtain ⟨w, hw, htj⟩ := h.tracks j
  rw [happ, hw] at hv
  cases hv
  have hvi := hti.eq fun u p f _ => quiet_owes hi p f
  have hvj := htj.eq fun u p f _ => quiet_owes hj p f
  rw [hvi, hvj]

/-- The topic `orders` is created on two nodes, and the leader pauses it. -/
def pauseOrders (rest : List (SysAct Bool)) : List (SysAct Bool) :=
  [.request true (newTopicEntry Libs.ofNew "orders"), .apply true, .apply false,
    .begin true 0 (.doPause true), .write 0] ++ rest

/-- `true` leads, `false` follows. -/
def pauseInit : Sys Bool := Sys.init (fun _ => ⟨2, 100⟩) fun i => if i then .leader else .follower

/-- The two nodes agree when the submission of the pause is applied by both. -/
theorem replicas_agree_on_pause :
    ∃ s : Sys Bool, Runs.run (Sys.step Libs.ofNew) pauseInit
        (pauseOrders [.submit 0 true, .apply true, .apply false, .resume 0]) = some s ∧
      ((s.node true).replica.agreed "orders").map (fun x => x.2.2.1) = some 1 ∧
      (s.node true).replica.agreed = (s.node false).replica.agreed := by
  obtain ⟨s, hs, hpaused, happ, hq, hq'⟩ := Runs.exists_of_run (Sys.step Libs.ofNew) pauseInit
    (pauseOrders [.submit 0 true, .apply true, .apply false, .resume 0])
    (fun s => ((s.node true).replica.agreed "orders").map (fun x => x.2.2.1) = some 1 ∧
      s.applied true = s.applied false ∧ s.Quiet true ∧ s.Quiet false) (by decide)
  exact ⟨s, hs, hpaused, replicas_agree Libs.ofNew _ _ _ s hs (by decide) true false happ hq hq'⟩

/-- The leader pauses the topic and is not leader any more when it submits the pause: it is the only
node on which the topic is paused. -/
theorem replicas_disagree :
    ¬ ∀ (libs : Libs) (opts : Bool → ChannelOptions) (role : Bool → Role)
      (acts : List (SysAct Bool)) (s : Sys Bool) (i j : Bool),
      Runs.run (Sys.step libs) (Sys.init opts role) acts = some s → s.applied i = s.applied j →
      s.Quiet i → s.Quiet j → (s.node i).replica.agreed = (s.node j).replica.agreed := by
  intro h
  obtain ⟨s, hs, hpaused, hpaused', happ, hq, hq'⟩ :=
    Runs.exists_of_run (Sys.step Libs.ofNew) pauseInit
    (pauseOrders [.elect true .follower, .submit 0 true])
    (fun s => ((s.node true).replica.agreed "orders").map (fun x => x.2.2.1) = some 1 ∧
      ((s.node false).replica.agreed "orders").map (fun x => x.2.2.1) = some 0 ∧
      s.applied true = s.applied false ∧ s.Quiet true ∧ s.Quiet false) (by decide)
  rw [h Libs.ofNew _ _ _ s true false hs happ hq hq', hpaused'] at hpaused
  cases hpaused

end Xmq.Cluster
