import Xmq.NodeListing

/-!
# Starting with the metadata

`program.Init` loads the metadata file and writes it again from what the node has then. A node that does
not lead creates nothing: it skips a topic that its log has not made, and writes a file without it; and
where a topic is there but not a paused channel of it, it dereferences the nil that `GetChannel`
returns. Pauses are set from the file and never cleared.
-/

namespace Xmq.Cluster

/-! ### The file says what the node lists -/

section File

variable {n : Node} {order : RangeOrder} {version : String}

theorem mem_topics (hn : n.Named) {t' : TopicMetadata} :
    t' ∈ (getMetadata order version n false).topics ↔ ∃ t p, n.topics.lookup t = some p ∧
      isEphemeral t = false ∧ t' = topicMetadata order n (n.topicObj p) := by
  rw [getMetadata, List.mem_map]
  constructor
  · rintro ⟨o, ho, rfl⟩
    obtain ⟨ho, hephemeral⟩ := List.mem_filter.mp ho
    obtain ⟨p, hp, rfl⟩ := List.mem_map.mp ho
    obtain ⟨t, ht⟩ := GoMap.mem_values.mp ((order.topics_perm _).mem_iff.mp hp)
    rw [(hn.topic t p ht).2, Bool.not_false, Bool.and_true, Bool.not_eq_true'] at hephemeral
    exact ⟨t, p, ht, hephemeral, rfl⟩
  · rintro ⟨t, p, ht, hephemeral, rfl⟩
    have hp := (order.topics_perm _).mem_iff.mpr (GoMap.mem_values.mpr ⟨t, ht⟩)
    refine ⟨_, List.mem_filter.mpr ⟨List.mem_map_of_mem hp, ?_⟩, rfl⟩
    rw [(hn.topic t p ht).2, hephemeral]
    rfl

theorem mem_channels (hn : n.Named) {t : String} {p : TopicPtr} (hp : n.topics.lookup t = some p)
    {c' : ChannelMetadata} : c' ∈ (topicMetadata order n (n.topicObj p)).channels ↔
      ∃ c k, (n.topicObj p).channels.lookup c = some k ∧ isEphemeral c = false ∧
        c' = (n.channelObj k).metadata := by
  rw [topicMetadata, List.mem_map]
  constructor
  · rintro ⟨o, ho, rfl⟩
    obtain ⟨ho, hephemeral⟩ := List.mem_filter.mp ho
    obtain ⟨k, hk, rfl⟩ := List.mem_map.mp ho
    obtain ⟨c, hc⟩ := GoMap.mem_values.mp ((order.channels_perm _).mem_iff.mp hk)
    rw [(hn.channel t c k (by rw [channelPtr_of hp, hc])).2, Bool.not_eq_true'] at hephemeral
    exact ⟨c, k, hc, hephemeral, rfl⟩
  · rintro ⟨c, k, hc, hephemeral, rfl⟩
    have hk := (order.channels_perm _).mem_iff.mpr (GoMap.mem_values.mpr ⟨c, hc⟩)
    refine ⟨_, List.mem_filter.mpr ⟨List.mem_map_of_mem hk, ?_⟩, rfl⟩
    rw [(hn.channel t c k (by rw [channelPtr_of hp, hc])).2, hephemeral]
    rfl

/-- No name is written twice. -/
theorem getMetadata_distinct (hn : n.Named) : (getMetadata order version n false).Distinct where
  topics := by
    have hnames : (n.topics.values.map fun p => (n.topicObj p).name).Nodup := by
      rw [GoMap.map_values_eq_keys fun t p ht => (hn.topic t p ht).1]
      exact n.topics.nodupKeys
    have hperm := ((order.topics_perm n.topics.values).map fun p => (n.topicObj p).name).nodup_iff
    rw [getMetadata, List.map_map]
    refine List.Nodup.sublist ((List.filter_sublist).map _) ?_
    rw [List.map_map]
    exact hperm.mpr hnames
  channels := by
    intro t' ht'
    obtain ⟨t, p, hp, -, rfl⟩ := (mem_topics hn).mp ht'
    have hnames : ((n.topicObj p).channels.values.map fun k => (n.channelObj k).name).Nodup := by
      rw [GoMap.map_values_eq_keys fun c k hk =>
        (hn.channel t c k (by rw [channelPtr_of hp, hk])).1]
      exact (n.topicObj p).channels.nodupKeys
    have hperm := ((order.channels_perm (n.topicObj p).channels.values).map fun k =>
      (n.channelObj k).name).nodup_iff
    rw [topicMetadata, List.map_map]
    refine List.Nodup.sublist ((List.filter_sublist).map _) ?_
    rw [List.map_map]
    exact hperm.mpr hnames

end File

/-! ### What should be in the new file -/

/-- Every topic and channel of the old file is in the new one, with the same pauses. -/
def Keeps (m m' : Metadata) : Prop :=
  ∀ t ∈ m.topics, ∃ t' ∈ m'.topics, t'.name = t.name ∧ t'.paused = t.paused ∧
    ∀ c ∈ t.channels, c ∈ t'.channels

/-- The new file has no topic or channel but those of the old file and those that the node had. -/
structure AddsNothing (l : Listing) (m m' : Metadata) : Prop where
  topics : ∀ t' ∈ m'.topics, t'.name ∈ m.topics.map TopicMetadata.name ∨ (l t'.name).isSome
  channels : ∀ t' ∈ m'.topics, ∀ c' ∈ t'.channels,
    (∃ t ∈ m.topics, t.name = t'.name ∧ c'.name ∈ t.channels.map ChannelMetadata.name) ∨
      ((l t'.name).bind fun x => x.channels c'.name).isSome

/-- Names that are valid. -/
structure Valid (m : Metadata) : Prop where
  topics : ∀ t ∈ m.topics, isValidTopicName t.name = true
  channels : ∀ t ∈ m.topics, ∀ c ∈ t.channels, isValidChannelName c.name = true

/-- Names that are not ephemeral. -/
structure Lasting (m : Metadata) : Prop where
  topics : ∀ t ∈ m.topics, isEphemeral t.name = false
  channels : ∀ t ∈ m.topics, ∀ c ∈ t.channels, isEphemeral c.name = false

section Kept

variable {n n' : Node} {order : RangeOrder} {version : String} {m : Metadata} {creates : Creates}

theorem getMetadata_lasting (hn : n.Named) : Lasting (getMetadata order version n false) where
  topics := fun t' ht' => by
    obtain ⟨t, p, hp, hephemeral, rfl⟩ := (mem_topics hn).mp ht'
    show isEphemeral (n.topicObj p).name = false
    rw [(hn.topic t p hp).1, hephemeral]
  channels := fun t' ht' c' hc' => by
    obtain ⟨t, p, hp, -, rfl⟩ := (mem_topics hn).mp ht'
    obtain ⟨c, k, hk, hephemeral, rfl⟩ := (mem_channels hn hp).mp hc'
    show isEphemeral (n.channelObj k).name = false
    rw [(hn.channel t c k (by rw [channelPtr_of hp, hk])).1, hephemeral]

variable (order version) in
/-- **The file and the listing.** -/
theorem keeps_iff_listed (hn : n.Named) (hm : Lasting m) :
    Keeps m (getMetadata order version n false) ↔ m.ListedIn n.listing := by
  refine forall₂_congr fun t ht => ⟨?_, ?_⟩
  · rintro ⟨t', ht', hname, hpaused, hchannels⟩
    obtain ⟨u, p, hp, -, rfl⟩ := (mem_topics hn).mp ht'
    have hu : u = t.name := (hn.topic u p hp).1.symm.trans hname
    subst hu
    refine ⟨_, listing_of hp, hpaused, fun c hc => ?_⟩
    obtain ⟨d, k, hk, -, heq⟩ := (mem_channels hn hp).mp (hchannels c hc)
    have hd := (hn.channel _ d k (by rw [channelPtr_of hp, hk])).1
    rw [heq]
    show Option.map _ ((n.topicObj p).channels.lookup (n.channelObj k).name) = _
    rw [hd, hk]
    rfl
  · rintro ⟨x, hx, hpaused, hchannels⟩
    obtain ⟨p, hp, rfl⟩ := Option.map_eq_some_iff.mp hx
    refine ⟨_, (mem_topics hn).mpr ⟨t.name, p, hp, hm.topics t ht, rfl⟩, (hn.topic _ p hp).1,
      hpaused, fun c hc => ?_⟩
    obtain ⟨k, hk, hflag⟩ := Option.map_eq_some_iff.mp (hchannels c hc)
    have hname := (hn.channel _ c.name k (by rw [channelPtr_of hp, hk])).1
    refine (mem_channels hn hp).mpr ⟨c.name, k, hk, hm.channels t ht c hc, ?_⟩
    rw [ChannelObj.metadata, hname, hflag]

theorem addsNothing_of_load {l : Listing} (hn : n.Named) (hm : m.Distinct)
    (h : m.load creates l = some n.listing) :
    AddsNothing l m (getMetadata order version n false) where
  topics := fun t' ht' => by
    obtain ⟨t, p, hp, -, rfl⟩ := (mem_topics hn).mp ht'
    show (n.topicObj p).name ∈ _ ∨ (l (n.topicObj p).name).isSome
    rw [(hn.topic t p hp).1]
    by_cases ht : t ∈ m.topics.map TopicMetadata.name
    · exact Or.inl ht
    · rw [← Metadata.load_topics hm h ht, listing_of hp]
      exact Or.inr rfl
  channels := fun t' ht' c' hc' => by
    obtain ⟨t, p, hp, -, rfl⟩ := (mem_topics hn).mp ht'
    obtain ⟨c, k, hk, -, rfl⟩ := (mem_channels hn hp).mp hc'
    show (∃ u ∈ m.topics, u.name = (n.topicObj p).name ∧ (n.channelObj k).name ∈ _) ∨
      ((l (n.topicObj p).name).bind fun x => x.channels (n.channelObj k).name).isSome
    have hchannel : (topicListing n.channelObj (n.topicObj p)).channels c =
        some ((n.channelObj k).paused == 1) := by
      show Option.map _ ((n.topicObj p).channels.lookup c) = _
      rw [hk]
      rfl
    rw [(hn.topic t p hp).1, (hn.channel t c k (by rw [channelPtr_of hp, hk])).1]
    by_cases ht : t ∈ m.topics.map TopicMetadata.name
    · obtain ⟨u, hu, rfl⟩ := List.mem_map.mp ht
      by_cases hc : c ∈ u.channels.map ChannelMetadata.name
      · exact Or.inl ⟨u, hu, rfl, hc⟩
      · have hload := Metadata.load_topic hm h hu
        rw [listing_of hp] at hload
        rw [← TopicMetadata.load_channels (hm.channels u hu) hload hc, hchannel]
        exact Or.inr rfl
    · rw [← Metadata.load_topics hm h ht, listing_of hp, Option.bind_some, hchannel]
      exact Or.inr rfl

theorem keeps_refl (m : Metadata) : Keeps m m := fun t ht => ⟨t, ht, rfl, rfl, fun _ hc => hc⟩

theorem addsNothing_refl (l : Listing) (m : Metadata) : AddsNothing l m m where
  topics := fun _ ht => Or.inl (List.mem_map_of_mem ht)
  channels := fun t ht _ hc => Or.inl ⟨t, ht, rfl, List.mem_map_of_mem hc⟩

end Kept

/-! ### Starting -/

/-- The node comes up, and the file that is there then keeps the old one. -/
def StartUpKeeps (libs : Libs) (json : MetadataJSON) (raft : Raft) (disk : Disk) (order : RangeOrder)
    (version : String) (m : Metadata) (n : Node) : Prop :=
  ∃ err n' data m', programInit libs json raft disk order version (some (json.marshal m)) n =
      .ok (err, n', some data) ∧
    json.unmarshal data = .ok m' ∧ Keeps m m' ∧ AddsNothing n.listing m m'

/-- The file is not read; or it is not replaced, and no channel is paused that cannot be had; or all its
topics and channels are there or can be created, and none is paused that the file does not pause. -/
def StartUpReady (libs : Libs) (raft : Raft) (disk : Disk) (m : Metadata) (n : Node) : Prop :=
  disk.readErr ≠ none ∨
    (disk.writeErr ≠ none ∨ disk.renameErr ≠ none) ∧ m.Pausable (raft.creates libs) n.listing ∨
    m.Ready (raft.creates libs) n.listing

section Start

variable {libs : Libs} {json : MetadataJSON} {raft : Raft} {disk : Disk} {n n' : Node} {m : Metadata}
  {order : RangeOrder} {version : String}

/-- A ready node can have every channel that is to be paused. -/
theorem pausable_of_ready {creates : Creates} {l : Listing} (hm : m.Distinct)
    (h : m.Ready creates l) : m.Pausable creates l := by
  obtain ⟨l', hload, -⟩ := (Metadata.load_listed hm).mpr h
  rw [← Metadata.load_isSome hm, hload]
  rfl

variable (raft) in
theorem loadMetadata_spec (hlibs : libs.DecodesNew) (hn : n.Named)
    (hjson : json.unmarshal (json.marshal m) = .ok m) (hvalid : Valid m)
    (hread : disk.readErr = none) :
    match m.load (raft.creates libs) n.listing with
    | none => loadMetadata libs json raft disk (some (json.marshal m)) n = .error .panic
    | some l => ∃ n', loadMetadata libs json raft disk (some (json.marshal m)) n = .ok (none, n') ∧
        n'.Named ∧ n'.listing = l := by
  have hload := loadTopics_spec raft hlibs m.topics hn fun t ht =>
    ⟨hvalid.topics t ht, hvalid.channels t ht⟩
  simp only [loadMetadata, hread, hjson]
  rw [Metadata.load]
  cases hl : KeyedLoop.loop TopicMetadata.name (TopicMetadata.load (raft.creates libs)) m.topics
      n.listing with
  | none =>
      rw [hl] at hload
      rw [show m.topics.foldlM (loadTopic libs raft) n = .error .panic from hload]
      rfl
  | some l =>
      rw [hl] at hload
      obtain ⟨n', hok, hn', -, hlisting⟩ := hload
      rw [hok]
      exact ⟨n', rfl, hn', hlisting⟩

/-- The file that is there after `PersistMetadata`. -/
theorem persistMetadata_fails {data : json.Data}
    (h : disk.writeErr ≠ none ∨ disk.renameErr ≠ none) :
    (persistMetadata json disk order version n (some data)).2 = some data := by
  unfold persistMetadata
  split
  · rfl
  · rename_i hwrite
    split
    · rfl
    · rename_i hrename
      exact absurd hrename (h.resolve_left (not_not_intro hwrite))

theorem persistMetadata_replaces {data : json.Data}
    (h : ¬ (disk.writeErr ≠ none ∨ disk.renameErr ≠ none)) :
    (persistMetadata json disk order version n (some data)).2 =
      some (json.marshal (getMetadata order version n false)) := by
  obtain ⟨hwrite, hrename⟩ := not_or.mp h
  simp only [persistMetadata, not_not.mp hwrite, not_not.mp hrename]

variable (order version) in
theorem programInit_loaded {data : json.Data}
    (h : loadMetadata libs json raft disk (some data) n = .ok (none, n')) :
    ∃ err, programInit libs json raft disk order version (some data) n =
      .ok (err, n', (persistMetadata json disk order version n' (some data)).2) := by
  cases hpersist : persistMetadata json disk order version n' (some data) with
  | mk err file =>
      cases err with
      | none =>
          refine ⟨none, ?_⟩
          simp only [programInit, h, bind, Except.bind, hpersist]
      | some err =>
          refine ⟨some s!"failed to persist metadata - {err}", ?_⟩
          simp only [programInit, h, bind, Except.bind, hpersist]

/-- A start that has loaded the file. -/
theorem startUpKeeps_of_loaded (hjson : ∀ m, json.unmarshal (json.marshal m) = .ok m)
    (hm : m.Distinct) (hlasting : Lasting m) (hn' : n'.Named)
    (hload : m.load (raft.creates libs) n.listing = some n'.listing)
    (h : loadMetadata libs json raft disk (some (json.marshal m)) n = .ok (none, n')) :
    StartUpKeeps libs json raft disk order version m n ↔
      (disk.writeErr ≠ none ∨ disk.renameErr ≠ none) ∨ m.ListedIn n'.listing := by
  obtain ⟨err, hinit⟩ := programInit_loaded order version h
  by_cases hfails : disk.writeErr ≠ none ∨ disk.renameErr ≠ none
  · rw [persistMetadata_fails hfails] at hinit
    refine iff_of_true ⟨err, n', _, m, hinit, hjson m, keeps_refl m, addsNothing_refl _ m⟩ ?_
    exact Or.inl hfails
  · rw [persistMetadata_replaces hfails] at hinit
    rw [or_iff_right hfails, ← keeps_iff_listed order version hn' hlasting]
    constructor
    · rintro ⟨err', n'', data, m', heq, hm', hkeeps, -⟩
      rw [hinit] at heq
      cases heq
      rw [hjson] at hm'
      cases hm'
      exact hkeeps
    · intro hkeeps
      exact ⟨err, n', _, _, hinit, hjson _, hkeeps, addsNothing_of_load hn' hm hload⟩

/-- **Start-up keeps the metadata** exactly when the node is ready for it: of every file that a node has
written, by a start in any state of raft, of any node that entries and clients lead to. -/
theorem start_up_keeps_metadata (hlibs : libs.DecodesNew)
    (hjson : ∀ m, json.unmarshal (json.marshal m) = .ok m) {opts opts' : ChannelOptions}
    {writer : Node} (hwriter : Reached libs opts writer) (hn : Reached libs opts' n)
    (hm : m = getMetadata order version writer false) (hvalid : Valid m) (order' : RangeOrder)
    (version' : String) :
    StartUpKeeps libs json raft disk order' version' m n ↔ StartUpReady libs raft disk m n := by
  have hnamed := hn.named hlibs
  have hdistinct : m.Distinct := hm ▸ getMetadata_distinct (hwriter.named hlibs)
  have hlasting : Lasting m := hm ▸ getMetadata_lasting (hwriter.named hlibs)
  cases hread : disk.readErr with
  | some err =>
      have hinit : ∃ err, programInit libs json raft disk order' version' (some (json.marshal m)) n =
          .ok (some err, n, some (json.marshal m)) := by
        simp only [programInit, loadMetadata, hread]
        exact ⟨_, rfl⟩
      obtain ⟨err', hinit⟩ := hinit
      refine iff_of_true ?_ (Or.inl (by rw [hread]; nofun))
      exact ⟨_, n, _, m, hinit, hjson m, keeps_refl m, addsNothing_refl _ m⟩
  | none =>
      have hspec := loadMetadata_spec raft hlibs hnamed (hjson m) hvalid hread
      have hready : StartUpReady libs raft disk m n ↔
          (disk.writeErr ≠ none ∨ disk.renameErr ≠ none) ∧ m.Pausable (raft.creates libs) n.listing ∨
            m.Ready (raft.creates libs) n.listing :=
        or_iff_right (not_not_intro hread)
      rw [hready]
      cases hload : m.load (raft.creates libs) n.listing with
      | none =>
          rw [hload] at hspec
          have hnot : ¬ m.Pausable (raft.creates libs) n.listing := by
            rw [← Metadata.load_isSome hdistinct, hload]
            nofun
          refine iff_of_false ?_ ?_
          · rintro ⟨err, n', data, m', hinit, -⟩
            rw [programInit, hspec] at hinit
            cases hinit
          · rintro (⟨-, h⟩ | h)
            · exact hnot h
            · exact hnot (pausable_of_ready hdistinct h)
      | some l =>
          rw [hload] at hspec
          obtain ⟨n', hok, hn', rfl⟩ := hspec
          have hpausable : m.Pausable (raft.creates libs) n.listing := by
            rw [← Metadata.load_isSome hdistinct, hload]
            rfl
          rw [startUpKeeps_of_loaded hjson hdistinct hlasting hn' hload hok, and_iff_left hpausable,
            ← Metadata.load_listed hdistinct, hload]
          refine or_congr_right ⟨fun h => ⟨_, rfl, h⟩, ?_⟩
          rintro ⟨l, heq, h⟩
          cases heq
          exact h

end Start

theorem ofNew_decodes : Libs.ofNew.DecodesNew where
  topic := fun _ => rfl
  channel := fun _ _ => ⟨_, rfl, rfl, rfl⟩
  one := by decide

theorem Reached.applyAll {libs : Libs} {opts : ChannelOptions} {role : Role} (log : List SetPayload) :
    ∀ {n n' : Node}, Reached libs opts n → (∀ sp ∈ log, OwnEntry libs sp) →
      Cluster.applyAll libs role n log = some n' → Reached libs opts n' := by
  induction log with
  | nil =>
      intro n n' hn _ h
      cases h
      exact hn
  | cons sp log ih =>
      intro n n' hn hlog h
      rw [Cluster.applyAll] at h
      split at h
      · rename_i err m happ
        exact ih (hn.entry (hlog sp List.mem_cons_self) happ)
          (fun sq hsq => hlog sq (List.mem_cons_of_mem _ hsq)) h
      · cases h
      · cases h

/-- A topic with a paused channel. -/
def oneFile : Metadata := ⟨[⟨"t", false, [⟨"a", true⟩]⟩], "1.0"⟩

/-- `json` on that file. -/
def oneFileJSON : MetadataJSON where
  Data := String ⊕ Metadata
  marshal := fun m =>
    if m = oneFile then
      .inl ("\x7b\"topics\":[\x7b\"name\":\"t\",\"paused\":false,\"channels\":" ++
        "[\x7b\"name\":\"a\",\"paused\":true\x7d]\x7d],\"version\":\"1.0\"\x7d")
    else .inr m
  unmarshal := fun
    | .inl _ => .ok oneFile
    | .inr m => .ok m

theorem oneFileJSON_unmarshal (m : Metadata) :
    oneFileJSON.unmarshal (oneFileJSON.marshal m) = .ok m := by
  by_cases h : m = oneFile
  · simp [oneFileJSON, h]
  · simp [oneFileJSON, h]

/-- A node that writes the file: the entries of the topic and the channel, and a pause. -/
theorem oneFile_written : ∃ writer, Reached Libs.ofNew ⟨2, 100⟩ writer ∧
    oneFile = getMetadata .asListed "1.0" writer false := by
  have hlog : ∀ sp ∈ [newTopicEntry Libs.ofNew "t", newChannelEntry Libs.ofNew "t" "a"],
      OwnEntry Libs.ofNew sp := by
    simp only [List.forall_mem_cons]
    exact ⟨.newTopic "t", .newChannel "t" "a", nofun⟩
  have hfile : (applyAll Libs.ofNew .follower (Node.empty ⟨2, 100⟩)
      [newTopicEntry Libs.ofNew "t", newChannelEntry Libs.ofNew "t" "a"]).any (fun n =>
        oneFile = getMetadata .asListed "1.0" (n.pauseChannel 0 true) false) = true := by
    decide
  cases happ : applyAll Libs.ofNew .follower (Node.empty ⟨2, 100⟩)
      [newTopicEntry Libs.ofNew "t", newChannelEntry Libs.ofNew "t" "a"] with
  | none =>
      rw [happ] at hfile
      cases hfile
  | some n =>
      rw [happ] at hfile
      exact ⟨_, (Reached.applyAll _ .empty hlog happ).pauseChannel 0 true, of_decide_eq_true hfile⟩

/-- A new leader loads the file and writes it again. -/
theorem start_up_keeps_metadata_leader :
    StartUpKeeps Libs.ofNew oneFileJSON ⟨.leader, fun _ => none⟩ ⟨"xmqd.dat", none, none, none⟩
      .asListed "1.0" oneFile (Node.empty ⟨2, 100⟩) := by
  obtain ⟨writer, hwriter, hfile⟩ := oneFile_written
  refine (start_up_keeps_metadata ofNew_decodes oneFileJSON_unmarshal hwriter .empty hfile ?_
    .asListed "1.0").mpr ?_
  · constructor <;> decide
  · refine Or.inr (Or.inr fun t ht => ?_)
    rw [List.mem_singleton.mp ht]
    exact ⟨rfl, fun c hc => rfl⟩

/-- A follower without the topic writes an empty file. -/
theorem start_up_loses_metadata : (∃ writer, Reached Libs.ofNew ⟨2, 100⟩ writer ∧
      oneFile = getMetadata .asListed "1.0" writer false) ∧
    ¬ StartUpKeeps Libs.ofNew oneFileJSON ⟨.follower, fun _ => none⟩
      ⟨"xmqd.dat", none, none, none⟩ .asListed "1.0" oneFile (Node.empty ⟨2, 100⟩) := by
  refine ⟨oneFile_written, ?_⟩
  rintro ⟨err, n', data, m', hinit, hm', hkeeps, -⟩
  have hok : programInit Libs.ofNew oneFileJSON ⟨.follower, fun _ => none⟩
      ⟨"xmqd.dat", none, none, none⟩ .asListed "1.0" (some (oneFileJSON.marshal oneFile))
      (Node.empty ⟨2, 100⟩) =
        .ok (none, Node.empty ⟨2, 100⟩, some (oneFileJSON.marshal ⟨[], "1.0"⟩)) := rfl
  rw [hok] at hinit
  cases hinit
  rw [oneFileJSON_unmarshal] at hm'
  cases hm'
  obtain ⟨t', ht', -⟩ := hkeeps _ List.mem_cons_self
  cases ht'

end Xmq.Cluster
