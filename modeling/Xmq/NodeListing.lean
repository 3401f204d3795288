import Xmq.NodeNames

/-!
# What a node lists

Loading a file does to a node what `Metadata.load` does to its listing, call by call: where the listing
has no next state the node panics, and a node that has loaded the file is well named again. What is
persisted says of a well-named node what its listing says.
-/

namespace Xmq.Cluster

/-! ### The listing of a node -/

def topicListing (obj : ChannelPtr → ChannelObj) (o : TopicObj) : TopicListing where
  paused := o.paused == 1
  channels := fun c => (o.channels.lookup c).map fun k => (obj k).paused == 1

def Node.listing (n : Node) : Listing :=
  fun t => (n.topics.lookup t).map fun p => topicListing n.channelObj (n.topicObj p)

section Listing

variable {n n' : Node} {t c : String} {p : TopicPtr} {k : ChannelPtr} {o : TopicObj}

theorem listing_of (hp : n.topics.lookup t = some p) :
    n.listing t = some (topicListing n.channelObj (n.topicObj p)) := by
  rw [Node.listing, hp, Option.map_some]

theorem listing_none (hp : n.topics.lookup t = none) : n.listing t = none := by
  rw [Node.listing, hp, Option.map_none]

theorem Sets.listing (h : Sets n n' t p o) :
    n'.listing = Function.update n.listing t (some (topicListing n'.channelObj o)) := by
  funext u
  by_cases hu : u = t
  · rw [hu, Function.update_self, listing_of h.lookup_self, h.obj_self]
  · rw [Function.update_of_ne hu, Node.listing, Node.listing, h.lookup_ne u hu]
    cases hq : n.topics.lookup u with
    | none => rfl
    | some q =>
        rw [Option.map_some, Option.map_some, (h.obj_ne u q hu hq).2, topicListing, topicListing]
        congr 2
        funext c
        cases hk : (n.topicObj q).channels.lookup c with
        | none => rfl
        | some k =>
            have hptr : n.channelPtr u c = some k := by rw [channelPtr_of hq, hk]
            rw [Option.map_some, Option.map_some, h.channel_ne u c k hu hptr]

theorem listing_newTopic (libs : Libs) (ho : n.Owned) (t : String) :
    (n.storeTopic t (newTopicObj libs t ⟨0, 0, t, [], 0, false, 0⟩ ∅)).listing =
      Function.update n.listing t (some ⟨false, fun _ => none⟩) := by
  rw [(sets_newTopic libs ho t).listing]
  congr 2

theorem listing_insertChannel (hn : n.Named) (hp : n.topics.lookup t = some p) {o : ChannelObj}
    (ho : o.paused = 0) : (n.insertChannel p c o).listing =
      Function.update n.listing t (some
        { topicListing n.channelObj (n.topicObj p) with
          channels := Function.update (topicListing n.channelObj (n.topicObj p)).channels c
            (some false) }) := by
  rw [Node.insertChannel, (clusterNewChannel_sets hn.toOwned hp c o).listing]
  congr 2
  rw [topicListing, topicListing]
  congr 1
  funext d
  show Option.map (fun k => ((n.allocChannel o).channelObj k).paused == 1) _ = _
  by_cases hd : d = c
  · rw [hd, AList.lookup_insert, Function.update_self, Option.map_some, allocChannel_obj, ho]
    rfl
  · rw [AList.lookup_insert_ne hd, Function.update_of_ne hd]
    show _ = Option.map (fun k => (n.channelObj k).paused == 1) _
    cases hk : (n.topicObj p).channels.lookup d with
    | none => rfl
    | some k =>
        have hlt := hn.channel_lt t d k (by rw [channelPtr_of hp, hk])
        rw [Option.map_some, Option.map_some, (grown_allocChannel n o).channelObj k hlt]

theorem listing_pauseChannel (hn : n.Named) (hp : n.topics.lookup t = some p)
    (hk : (n.topicObj p).channels.lookup c = some k) :
    (n.pauseChannel k true).listing =
      Function.update n.listing t (some
        { topicListing n.channelObj (n.topicObj p) with
          channels := Function.update (topicListing n.channelObj (n.topicObj p)).channels c
            (some true) }) := by
  have hptr : n.channelPtr t c = some k := by rw [channelPtr_of hp, hk]
  funext u
  show ((n.topics.lookup u).map fun q =>
    topicListing (n.pauseChannel k true).channelObj (n.topicObj q)) = _
  have hother : ∀ d j, n.channelPtr u d = some j → (u = t → d ≠ c) →
      (n.pauseChannel k true).channelObj j = n.channelObj j := by
    intro d j hj hne
    refine n.setChannel_ne _ fun heq => ?_
    obtain ⟨hu, hd⟩ := hn.channel_inj u d t c k (heq ▸ hj) hptr
    exact hne hu hd
  by_cases hu : u = t
  · subst hu
    rw [Function.update_self, hp, Option.map_some, topicListing]
    congr 2
    funext d
    by_cases hd : d = c
    · rw [hd, Function.update_self, hk, Option.map_some]
      show some (((n.setChannel k _).channelObj k).paused == 1) = some true
      rw [n.setChannel_self]
      rfl
    · rw [Function.update_of_ne hd]
      show _ = Option.map (fun k => (n.channelObj k).paused == 1) _
      cases hj : (n.topicObj p).channels.lookup d with
      | none => rfl
      | some j =>
          rw [Option.map_some, hother d j (by rw [channelPtr_of hp, hj]) fun _ => hd]
          rfl
  · rw [Function.update_of_ne hu, Node.listing]
    cases hq : n.topics.lookup u with
    | none => rfl
    | some q =>
        rw [Option.map_some, Option.map_some, topicListing, topicListing]
        congr 2
        funext d
        cases hj : (n.topicObj q).channels.lookup d with
        | none => rfl
        | some j =>
            rw [Option.map_some, hother d j (by rw [channelPtr_of hq, hj]) fun h => absurd h hu]
            rfl

theorem listing_setPaused (hn : n.Named) (hp : n.topics.lookup t = some p) (x : Int32) :
    (n.setTopic p { n.topicObj p with paused := x }).listing = Function.update n.listing t (some
      { topicListing n.channelObj (n.topicObj p) with paused := x == 1 }) := by
  have hsets : Sets n (n.setTopic p { n.topicObj p with paused := x }) t p
      { n.topicObj p with paused := x } := sets_fields hn.toOwned hp rfl
  exact hsets.listing

end Listing

/-! ### What a start can create -/

/-- The node leads, and the entry gets through. -/
def Raft.commits (raft : Raft) (sp : SetPayload) : Bool :=
  raft.state == .leader && (raft.apply sp).isNone

def Raft.creates (raft : Raft) (libs : Libs) : Creates where
  topic := fun t => raft.commits (newTopicEntry libs t)
  channel := fun t c => raft.commits (newChannelEntry libs t c)

section Calls

variable {libs : Libs} {raft : Raft} {n n' : Node} {t : String} {p : TopicPtr} {sp : SetPayload}
  {err : GoError}

theorem submit_commits (hc : raft.commits sp = true) (h : apply libs .leader n sp = .done none n') :
    submit libs raft n sp = .ok (none, n') := by
  rw [Raft.commits, Bool.and_eq_true, beq_iff_eq, Option.isNone_iff_eq_none] at hc
  rw [submit, if_neg (not_not_intro hc.1), hc.2]
  simp only [h]

theorem submit_not_committed (libs : Libs) (n : Node) (hc : raft.commits sp = false) :
    ∃ err, submit libs raft n sp = .ok (some err, n) := by
  rw [submit]
  by_cases hleader : raft.state = .leader
  · rw [if_neg (not_not_intro hleader)]
    cases happ : raft.apply sp with
    | none => simp [Raft.commits, hleader, happ] at hc
    | some err => exact ⟨_, rfl⟩
  · exact ⟨_, if_pos hleader⟩

/-! ### Topics -/

/-- The call returns a well-named node of the listing, of which `P` holds; or panics if there is none. -/
def Loads (P : Node → Prop) (r : Except Abort Node) : Option Listing → Prop
  | none => r = .error .panic
  | some l => ∃ n, r = .ok n ∧ n.Named ∧ P n ∧ n.listing = l

variable (raft) in
/-- `GetTopic`. -/
theorem getTopic_spec (hlibs : libs.DecodesNew) (hn : n.Named) (ht : t ≠ "") :
    (∃ p, n.topics.lookup t = some p ∧ getTopic libs raft n t = .ok (some p, n)) ∨
      n.topics.lookup t = none ∧ (raft.creates libs).topic t = false ∧
        getTopic libs raft n t = .ok (none, n) ∨
      n.topics.lookup t = none ∧ (raft.creates libs).topic t = true ∧ ∃ p n',
        getTopic libs raft n t = .ok (some p, n') ∧ n'.Named ∧ n'.topics.lookup t = some p ∧
          n'.listing = Function.update n.listing t (some ⟨false, fun _ => none⟩) := by
  unfold getTopic
  cases hp : n.topics.lookup t with
  | some p => exact Or.inl ⟨p, rfl, rfl⟩
  | none =>
      refine Or.inr ?_
      by_cases hcommit : raft.commits (newTopicEntry libs t) = true
      · have hleader : raft.state = .leader := by
          rw [Raft.commits, Bool.and_eq_true, beq_iff_eq] at hcommit
          exact hcommit.1
        have hsets := sets_newTopic libs hn.toOwned t
        refine Or.inr ⟨rfl, hcommit, n.nextTopic, _, ?_, named_newTopic libs hn ht,
          hsets.lookup_self, listing_newTopic libs hn.toOwned t⟩
        simp only [newTopic, if_neg ht, if_neg (not_not_intro hleader),
          submit_commits hcommit (apply_newTopicEntry hlibs ht)]
        show Except.ok (_, _) = _
        rw [hsets.lookup_self]
      · rw [Bool.not_eq_true] at hcommit
        refine Or.inl ⟨rfl, hcommit, ?_⟩
        obtain ⟨err, hsubmit⟩ := submit_not_committed libs n hcommit
        show (if raft.state ≠ .leader then Except.ok (none, n) else _) = _
        split
        · rfl
        · simp only [newTopic, if_neg ht, hsubmit]
          rfl

variable (raft) in
/-- `Topic.Pause`. -/
theorem pauseTopic_spec (hlibs : libs.DecodesNew) (hn : n.Named) (hp : n.topics.lookup t = some p) :
    ∃ n', pauseTopic libs raft n p = .ok n' ∧ n'.Named ∧ n'.topics.lookup t = some p ∧
      n'.listing = Function.update n.listing t (some
        { topicListing n.channelObj (n.topicObj p) with paused := true }) := by
  obtain ⟨m, hm⟩ : ∃ m, m = n.setTopic p (LocalWrite.run (n.topicObj p) (.storePaused true)) :=
    ⟨_, rfl⟩
  have hnamed : m.Named := hm ▸ named_setTopic hn rfl rfl rfl
  have hmp : m.topics.lookup t = some p := hm ▸ hp
  have hlisting : m.listing = Function.update n.listing t (some
      { topicListing n.channelObj (n.topicObj p) with paused := true }) := by
    rw [hm]
    exact listing_setPaused hn hp 1
  have hobj : m.topicObj p = LocalWrite.run (n.topicObj p) (.storePaused true) := by
    rw [hm, n.setTopic_self]
  have hname : (m.topicObj p).name = t := (hnamed.topic t p hmp).1
  have ht := hnamed.topic_ne t p hmp
  have hvalue : LocalWrite.value libs (m.topicObj p) (.storePaused true) = libs.int32ToString 1 := by
    rw [hobj]
    rfl
  rw [pauseTopic, ← hm, topicUpdate, hname, hvalue]
  simp only [if_neg (not_or.mpr ⟨ht, show "Paused" ≠ "" by decide⟩)]
  by_cases hcommit : raft.commits (topicUpdateEntry t "Paused" (libs.int32ToString 1)) = true
  · obtain ⟨err, happ⟩ := apply_topicUpdateEntry libs .leader m ht
      (.storePaused true) (libs.int32ToString 1)
    rw [hmp] at happ
    rw [submit_commits hcommit happ]
    refine ⟨_, rfl, named_setTopic hnamed rfl rfl rfl, hmp, ?_⟩
    show (m.setTopic p
      { m.topicObj p with paused := libs.toInt32 (libs.int32ToString 1) }).listing = _
    rw [listing_setPaused hnamed hmp, hlisting, Function.update_idem, hlibs.one, hobj, hm]
    rfl
  · rw [Bool.not_eq_true] at hcommit
    obtain ⟨err, hsubmit⟩ := submit_not_committed libs m hcommit
    rw [hsubmit]
    exact ⟨m, rfl, hnamed, hmp, hlisting⟩

/-! ### Channels -/

variable {c : String}

variable (raft) in
/-- `GetChannel`. -/
theorem getChannel_spec (hlibs : libs.DecodesNew) (hn : n.Named) (hp : n.topics.lookup t = some p)
    (hc : c ≠ "") :
    (∃ k, (n.topicObj p).channels.lookup c = some k ∧
        getChannel libs raft n p c = .ok (some k, n)) ∨
      (n.topicObj p).channels.lookup c = none ∧ (raft.creates libs).channel t c = false ∧
        getChannel libs raft n p c = .ok (none, n) ∨
      (n.topicObj p).channels.lookup c = none ∧ (raft.creates libs).channel t c = true ∧ ∃ k n',
        getChannel libs raft n p c = .ok (some k, n') ∧ n'.Named ∧ n'.topics.lookup t = some p ∧
          (n'.topicObj p).channels.lookup c = some k ∧
          n'.listing = Function.update n.listing t (some
            { topicListing n.channelObj (n.topicObj p) with
              channels := Function.update (topicListing n.channelObj (n.topicObj p)).channels c
                (some false) }) := by
  have ht := hn.topic_ne t p hp
  have hname := (hn.topic t p hp).1
  unfold getChannel
  cases hk : (n.topicObj p).channels.lookup c with
  | some k => exact Or.inl ⟨k, rfl, rfl⟩
  | none =>
      refine Or.inr ?_
      by_cases hcommit : raft.commits (newChannelEntry libs t c) = true
      · obtain ⟨o, ho, hpaused, happ⟩ := apply_newChannelEntry .leader hlibs hp ht hc
        have hlookup : ((n.insertChannel p c o).topicObj p).channels.lookup c =
            some n.nextChannel := by
          rw [Node.insertChannel, Node.setTopic_self]
          exact AList.lookup_insert _
        refine Or.inr ⟨rfl, hcommit, n.nextChannel, n.insertChannel p c o, ?_,
          named_insertChannel hn hp ho, hp, hlookup, listing_insertChannel hn hp hpaused⟩
        simp only [newChannel, hname, if_neg ht, submit_commits hcommit happ]
        show Except.ok (_, _) = _
        rw [hlookup]
      · rw [Bool.not_eq_true] at hcommit
        obtain ⟨err, hsubmit⟩ := submit_not_committed libs n hcommit
        refine Or.inl ⟨rfl, hcommit, ?_⟩
        simp only [newChannel, hname, if_neg ht, hsubmit]
        rfl

/-- A call that leaves the node as it is. -/
theorem Loads.same {P : Node → Prop} (hn : n.Named) (hP : P n) : Loads P (.ok n) (some n.listing) :=
  ⟨n, rfl, hn, hP, rfl⟩

theorem listing_update {x : TopicListing} (hx : n.listing t = some x) :
    Function.update n.listing t (some x) = n.listing := by
  rw [← hx, Function.update_eq_self]

/-- The listing of a topic whose channel is as it was. -/
theorem update_channels_self {x : TopicListing} {y : Option Bool} (hy : x.channels c = y) :
    { x with channels := Function.update x.channels c y } = x := by
  rw [← hy, Function.update_eq_self]

theorem validChannel_ne {c : String} (h : isValidChannelName c = true) : c ≠ "" := by
  rintro rfl
  revert h
  decide

theorem validTopic_ne {t : String} (h : isValidTopicName t = true) : t ≠ "" := by
  rintro rfl
  revert h
  decide

variable (raft) in
/-- **One channel.** -/
theorem loadChannel_spec (hlibs : libs.DecodesNew) (hn : n.Named) (hp : n.topics.lookup t = some p)
    {x : TopicListing} (hx : n.listing t = some x) (c : ChannelMetadata)
    (hvalid : isValidChannelName c.name = true) :
    Loads (fun n' => n'.topics.lookup t = some p) (loadChannel libs raft p n c)
      ((c.load ((raft.creates libs).channel t c.name) (x.channels c.name)).map fun v =>
        Function.update n.listing t
          (some { x with channels := Function.update x.channels c.name v })) := by
  have hxo : x = topicListing n.channelObj (n.topicObj p) := by
    rw [listing_of hp] at hx
    exact (Option.some.inj hx).symm
  have hxc : x.channels c.name =
      ((n.topicObj p).channels.lookup c.name).map fun k => (n.channelObj k).paused == 1 := by
    rw [hxo]
    rfl
  rw [loadChannel, if_pos hvalid]
  rcases getChannel_spec raft hlibs hn hp (validChannel_ne hvalid) with
    ⟨k, hk, hget⟩ | ⟨hk, hcreate, hget⟩ | ⟨hk, hcreate, k, n', hget, hn', hp', hk', hlisting⟩
  · rw [hk, Option.map_some] at hxc
    rw [hget, hxc]
    show Loads _ (if c.paused = true then _ else _) (some _)
    by_cases hpaused : c.paused = true
    · rw [if_pos hpaused, hpaused, Bool.or_true, hxo]
      exact ⟨_, rfl, named_pauseChannel hn k true, hp, listing_pauseChannel hn hp hk⟩
    · rw [if_neg hpaused, Bool.not_eq_true] at *
      rw [hpaused, Bool.or_false]
      show Loads _ _ (some (Function.update n.listing t (some _)))
      rw [update_channels_self hxc, listing_update hx]
      exact Loads.same hn hp
  · rw [hk, Option.map_none] at hxc
    rw [hget, hxc, hcreate]
    show Loads _ (if c.paused = true then _ else _) _
    by_cases hpaused : c.paused = true
    · rw [if_pos hpaused, ChannelMetadata.load, if_pos hpaused]
      exact rfl
    · rw [if_neg hpaused, ChannelMetadata.load, if_neg hpaused]
      show Loads _ _ (some (Function.update n.listing t (some _)))
      rw [update_channels_self hxc, listing_update hx]
      exact Loads.same hn hp
  · rw [hk, Option.map_none] at hxc
    rw [hget, hxc, hcreate]
    show Loads _ (if c.paused = true then _ else _) (some _)
    by_cases hpaused : c.paused = true
    · rw [if_pos hpaused, hpaused]
      refine ⟨_, rfl, named_pauseChannel hn' k true, hp', ?_⟩
      have hx' := listing_of hp'
      rw [hlisting, Function.update_self] at hx'
      rw [listing_pauseChannel hn' hp' hk', hlisting, Function.update_idem, ← Option.some.inj hx']
      show Function.update n.listing t
        (some ⟨_, Function.update (Function.update _ c.name _) c.name (some true)⟩) = _
      rw [Function.update_idem, hxo]
    · rw [if_neg hpaused]
      rw [Bool.not_eq_true] at hpaused
      rw [hpaused, hxo]
      exact ⟨n', rfl, hn', hp', hlisting⟩

variable (raft) in
theorem loadChannels_spec (hlibs : libs.DecodesNew) (cs : List ChannelMetadata) :
    ∀ {n : Node} {x : TopicListing}, n.Named → n.topics.lookup t = some p → n.listing t = some x →
      (∀ c ∈ cs, isValidChannelName c.name = true) →
      Loads (fun n' => n'.topics.lookup t = some p) (cs.foldlM (loadChannel libs raft p) n)
        ((KeyedLoop.loop ChannelMetadata.name
          (fun c => c.load ((raft.creates libs).channel t c.name)) cs x.channels).map fun channels =>
            Function.update n.listing t (some { x with channels := channels })) := by
  induction cs with
  | nil =>
      intro n x hn hp hx hvalid
      show Loads _ (.ok n) (some (Function.update n.listing t (some x)))
      rw [listing_update hx]
      exact Loads.same hn hp
  | cons c cs ih =>
      intro n x hn hp hx hvalid
      have hone := loadChannel_spec raft hlibs hn hp hx c (hvalid c List.mem_cons_self)
      rw [List.foldlM_cons, KeyedLoop.loop]
      cases hv : c.load ((raft.creates libs).channel t c.name) (x.channels c.name) with
      | none =>
          rw [hv] at hone
          rw [show loadChannel libs raft p n c = .error .panic from hone]
          exact rfl
      | some v =>
          rw [hv] at hone
          obtain ⟨n', hload, hn', hp', hlisting⟩ := hone
          rw [hload]
          have hx' : n'.listing t =
              some { x with channels := Function.update x.channels c.name v } := by
            rw [hlisting]
            exact Function.update_self _ _ _
          have hrest := ih hn' hp' hx' fun d hd => hvalid d (List.mem_cons_of_mem _ hd)
          simp only [hlisting, Function.update_idem] at hrest
          exact hrest

/-! ### The file -/

theorem Loads.imp {P Q : Node → Prop} {r : Except Abort Node} {l : Option Listing} (h : Loads P r l)
    (hPQ : ∀ n, P n → Q n) : Loads Q r l := by
  cases l with
  | none => exact h
  | some l =>
      obtain ⟨n, hr, hn, hP, hlisting⟩ := h
      exact ⟨n, hr, hn, hPQ n hP, hlisting⟩

variable (raft) in
/-- A topic that the node has. -/
theorem loadTopic_from (hlibs : libs.DecodesNew) (hn : n.Named) (t : TopicMetadata)
    (hp : n.topics.lookup t.name = some p) {x : TopicListing} (hx : n.listing t.name = some x)
    (hchannels : ∀ c ∈ t.channels, isValidChannelName c.name = true) :
    Loads (fun _ => True)
      (do let n ← if t.paused then pauseTopic libs raft n p else .ok n
          t.channels.foldlM (loadChannel libs raft p) n)
      ((t.loadChannels (raft.creates libs) x.channels).map fun channels =>
        Function.update n.listing t.name (some ⟨x.paused || t.paused, channels⟩)) := by
  by_cases hpaused : t.paused = true
  · obtain ⟨n', hpause, hn', hp', hlisting⟩ := pauseTopic_spec raft hlibs hn hp
    rw [listing_of hp] at hx
    rw [Option.some.inj hx] at hlisting
    have hx' : n'.listing t.name = some { x with paused := true } := by
      rw [hlisting, Function.update_self]
    have hload := loadChannels_spec raft hlibs t.channels hn' hp' hx' hchannels
    simp only [hlisting, Function.update_idem] at hload
    rw [if_pos hpaused, hpause, hpaused, Bool.or_true]
    exact hload.imp fun _ _ => trivial
  · have hload := loadChannels_spec raft hlibs t.channels hn hp hx hchannels
    rw [if_neg hpaused, Bool.eq_false_of_not_eq_true hpaused, Bool.or_false]
    exact hload.imp fun _ _ => trivial

variable (raft) in
/-- **One topic.** -/
theorem loadTopic_spec (hlibs : libs.DecodesNew) (hn : n.Named) (t : TopicMetadata)
    (htopic : isValidTopicName t.name = true)
    (hchannels : ∀ c ∈ t.channels, isValidChannelName c.name = true) :
    Loads (fun _ => True) (loadTopic libs raft n t)
      ((t.load (raft.creates libs) (n.listing t.name)).map (Function.update n.listing t.name)) := by
  rw [loadTopic, if_pos htopic]
  rcases getTopic_spec raft hlibs hn (validTopic_ne htopic) with
    ⟨p, hp, hget⟩ | ⟨hp, hcreate, hget⟩ | ⟨hp, hcreate, p, n', hget, hn', hp', hlisting⟩
  · obtain ⟨x, hx⟩ : ∃ x, n.listing t.name = some x := ⟨_, listing_of hp⟩
    rw [hget, hx, TopicMetadata.load, Option.map_map]
    exact loadTopic_from raft hlibs hn t hp hx hchannels
  · rw [hget, listing_none hp, TopicMetadata.load, hcreate]
    show Loads _ (.ok n) (some (Function.update n.listing t.name none))
    rw [← listing_none hp, Function.update_eq_self]
    exact Loads.same hn trivial
  · have hx : n'.listing t.name = some ⟨false, fun _ => none⟩ := by
      rw [hlisting, Function.update_self]
    have hload := loadTopic_from raft hlibs hn' t hp' hx hchannels
    simp only [hlisting, Function.update_idem, Bool.false_or] at hload
    rw [hget, listing_none hp, TopicMetadata.load, if_pos hcreate, Option.map_map]
    exact hload

variable (raft) in
/-- **The metadata.** Loading the file is loading it into the listing. -/
theorem loadTopics_spec (hlibs : libs.DecodesNew) (ts : List TopicMetadata) :
    ∀ {n : Node}, n.Named → (∀ t ∈ ts, isValidTopicName t.name = true ∧
        ∀ c ∈ t.channels, isValidChannelName c.name = true) →
      Loads (fun _ => True) (ts.foldlM (loadTopic libs raft) n)
        (KeyedLoop.loop TopicMetadata.name (TopicMetadata.load (raft.creates libs)) ts n.listing) := by
  induction ts with
  | nil =>
      intro n hn _
      exact Loads.same hn trivial
  | cons t ts ih =>
      intro n hn hvalid
      obtain ⟨htopic, hchannels⟩ := hvalid t List.mem_cons_self
      have hone := loadTopic_spec raft hlibs hn t htopic hchannels
      rw [List.foldlM_cons, KeyedLoop.loop]
      cases hv : t.load (raft.creates libs) (n.listing t.name) with
      | none =>
          rw [hv] at hone
          rw [show loadTopic libs raft n t = .error .panic from hone]
          exact rfl
      | some v =>
          rw [hv] at hone
          obtain ⟨n', hload, hn', -, hlisting⟩ := hone
          rw [hload]
          have hrest := ih hn' fun u hu => hvalid u (List.mem_cons_of_mem _ hu)
          rw [hlisting] at hrest
          exact hrest

end Calls

end Xmq.Cluster
