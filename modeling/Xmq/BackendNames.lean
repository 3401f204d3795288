import Mathlib.Data.List.Basic
import Xmq.ClusterClients
import Xmq.Protocol

/-!
# Names of disk queues

A topic's disk queue has the name of the topic, and a channel's has both names with a separator between
them that no valid name contains. There is a `getBackendName` for Windows and one for all other systems;
the handlers are the same.

* The handlers are those of `ClusterModel`, which has the names of the other systems. The build for a
  system differs from it in the name that the handler of a new channel gives to `diskqueue.New`.
* A topic is known by its name, and a channel by its topic's name and its own.
-/

namespace Xmq.Cluster

/-! ### Names -/

/-- File names cannot contain colons on Windows. -/
def Windows.getBackendName (topicName channelName : String) : String :=
  topicName ++ ";" ++ channelName

/-- What the file is compiled for. -/
inductive Platform where
  | unix
  | windows
  deriving DecidableEq

namespace Platform

variable {os : Platform} {t t' c c' : String}

def getBackendName : Platform → String → String → String
  | unix => Cluster.getBackendName
  | windows => Windows.getBackendName

def separator : Platform → Char
  | unix => ':'
  | windows => ';'

theorem toList_getBackendName (os : Platform) (t c : String) :
    (os.getBackendName t c).toList = t.toList ++ os.separator :: c.toList := by
  cases os with
  | unix => simp [getBackendName, Cluster.getBackendName, separator]
  | windows => simp [getBackendName, Windows.getBackendName, separator]

/-- The separator is outside the alphabet of names. -/
theorem separator_not_mem (os : Platform) {name : String} (h : isValidTopicName name = true) :
    os.separator ∉ name.toList := by
  cases os with
  | unix => exact not_mem_toList_of_isValidName (by decide) (by decide) h
  | windows => exact not_mem_toList_of_isValidName (by decide) (by decide) h

/-- The name of a channel's disk queue says which channel it is. -/
theorem getBackendName_inj (ht : isValidTopicName t = true) (hc : isValidChannelName c = true)
    (h : os.getBackendName t c = os.getBackendName t' c') : t = t' ∧ c = c' := by
  have hlist : t.toList ++ os.separator :: c.toList = t'.toList ++ os.separator :: c'.toList := by
    rw [← toList_getBackendName, ← toList_getBackendName, h]
  obtain ⟨htopic, -, hchannel⟩ := (List.append_cons_inj_of_notMem (os.separator_not_mem ht)
    (os.separator_not_mem hc)).mp hlist
  exact ⟨String.toList_inj.mp htopic, String.toList_inj.mp hchannel⟩

/-- No topic has it. -/
theorem getBackendName_ne (ht : isValidTopicName t' = true) : os.getBackendName t c ≠ t' := by
  rintro rfl
  refine os.separator_not_mem ht ?_
  rw [toList_getBackendName]
  exact List.mem_append_right _ List.mem_cons_self

end Platform

/-! ### The disk queues that a node opens -/

/-- Whose disk queue it is. -/
inductive Owner where
  | topic (topicName : String)
  | channel (topicName channelName : String)
  deriving DecidableEq

namespace Owner

def Valid : Owner → Prop
  | topic t => isValidTopicName t = true
  | channel t c => isValidTopicName t = true ∧ isValidChannelName c = true

/-- The name of its disk queue. -/
def backendName (os : Platform) : Owner → String
  | topic t => t
  | channel t c => os.getBackendName t c

/-- **Different owners have different disk queues.** -/
theorem backendName_inj {os : Platform} {o o' : Owner} (ho : o.Valid) (ho' : o'.Valid)
    (h : o.backendName os = o'.backendName os) : o = o' := by
  cases o with
  | topic t =>
      cases o' with
      | topic t' => exact congrArg Owner.topic h
      | channel t' c' => exact absurd h.symm (Platform.getBackendName_ne ho)
  | channel t c =>
      cases o' with
      | topic t' => exact absurd h (Platform.getBackendName_ne ho')
      | channel t' c' =>
          obtain ⟨rfl, rfl⟩ := Platform.getBackendName_inj ho.1 ho.2 h
          rfl

end Owner

/-- A call of `diskqueue.New`. -/
structure Opening where
  owner : Owner
  name : String
  deriving DecidableEq

/-- The call that `ClusterNewTopic` makes. -/
def newTopicOpens (libs : Libs) (sp : SetPayload) : Option Opening :=
  match sp.args with
  | [name] =>
    if name = "" then none
    else
      match libs.unmarshalTopic sp.value with
      | .error _ => none
      | .ok _ => if isEphemeral name then none else some ⟨.topic name, name⟩
  | _ => none

/-- The call that `ClusterNewChannel` makes. -/
def newChannelOpens (os : Platform) (libs : Libs) (n : Node) (sp : SetPayload) : Option Opening :=
  match sp.args with
  | [topicName, name] =>
    if name = "" ∨ topicName = "" then none
    else
      match n.topics.lookup topicName with
      | none => none
      | some _ =>
        match libs.unmarshalChannel sp.value with
        | .error _ => none
        | .ok _ =>
          if isEphemeral name then none
          else some ⟨.channel topicName name, os.getBackendName topicName name⟩
  | _ => none

/-- The call that the handler of an entry makes; no other handler makes one. -/
def opens (os : Platform) (libs : Libs) (n : Node) (sp : SetPayload) : Option Opening :=
  if sp.method = "NewTopic" then newTopicOpens libs sp
  else if sp.method = "NewChannel" then newChannelOpens os libs n sp
  else none

/-- The libraries as the build for a system calls them while it applies an entry. -/
def Platform.build (os : Platform) (libs : Libs) (sp : SetPayload) : Libs :=
  match sp.args with
  | [topicName, name] =>
    { libs with diskqueueNew := fun _ => libs.diskqueueNew (os.getBackendName topicName name) }
  | _ => libs

def Platform.step (os : Platform) (libs : Libs) (n : Node) : Act → Option Node
  | .apply role sp => Cluster.step (os.build libs sp) n (.apply role sp)
  | a => Cluster.step libs n a

/-- The calls along a run. -/
def opened (os : Platform) (libs : Libs) : Node → List Act → List Opening
  | _, [] => []
  | n, a :: as =>
    (match a with
      | .apply _ sp => (opens os libs n sp).toList
      | _ => []) ++
    match os.step libs n a with
    | some n => opened os libs n as
    | none => []

/-! ### One entry -/

section Entries

variable {os : Platform} {libs : Libs} {role : Role} {n : Node} {sp : SetPayload} {o : Opening}

theorem newTopicOpens_eq (h : newTopicOpens libs sp = some o) : ∃ t j, sp.args = [t] ∧ t ≠ "" ∧
    libs.unmarshalTopic sp.value = .ok j ∧ isEphemeral t = false ∧ o = ⟨.topic t, t⟩ := by
  unfold newTopicOpens at h
  split at h
  · rename_i t hargs
    obtain ⟨ht, h⟩ := Option.ite_none_left_eq_some.mp h
    split at h
    · cases h
    · rename_i j hj
      obtain ⟨he, h⟩ := Option.ite_none_left_eq_some.mp h
      exact ⟨t, j, hargs, ht, hj, Bool.eq_false_iff.mpr he, (Option.some.inj h).symm⟩
  · cases h

theorem newChannelOpens_eq (h : newChannelOpens os libs n sp = some o) : ∃ t c p j,
    sp.args = [t, c] ∧ ¬(c = "" ∨ t = "") ∧ n.topics.lookup t = some p ∧
      libs.unmarshalChannel sp.value = .ok j ∧ isEphemeral c = false ∧
        o = ⟨.channel t c, os.getBackendName t c⟩ := by
  unfold newChannelOpens at h
  split at h
  · rename_i t c hargs
    obtain ⟨hne, h⟩ := Option.ite_none_left_eq_some.mp h
    split at h
    · cases h
    · rename_i p hp
      split at h
      · cases h
      · rename_i j hj
        obtain ⟨he, h⟩ := Option.ite_none_left_eq_some.mp h
        exact ⟨t, c, p, j, hargs, hne, hp, hj, Bool.eq_false_iff.mpr he, (Option.some.inj h).symm⟩
  · cases h

/-- The two handlers that open a disk queue. -/
theorem opens_cases (h : opens os libs n sp = some o) :
    (sp.method = "NewTopic" ∧ newTopicOpens libs sp = some o) ∨
      (sp.method = "NewChannel" ∧ newChannelOpens os libs n sp = some o) := by
  unfold opens at h
  split at h
  · exact .inl ⟨‹_›, h⟩
  · split at h
    · exact .inr ⟨‹_›, h⟩
    · cases h

/-- Every disk queue has its owner's name. -/
theorem opens_name (h : opens os libs n sp = some o) : o.name = o.owner.backendName os := by
  rcases opens_cases h with ⟨-, h⟩ | ⟨-, h⟩
  · obtain ⟨t, j, -, -, -, -, rfl⟩ := newTopicOpens_eq h
    rfl
  · obtain ⟨t, c, p, j, -, -, -, -, -, rfl⟩ := newChannelOpens_eq h
    rfl

/-- The queue that the topic or channel has in the node. -/
def Node.backend (n : Node) : Owner → Option BackendQueue
  | .topic t => (n.topics.lookup t).map fun p => (n.topicObj p).backend
  | .channel t c => (n.channelPtr t c).bind fun k =>
    match (n.channelObj k).core with
    | .running ch => some ch.backend
    | .decoded _ => none

/-- **The queue that was opened is the one that its owner has.** -/
theorem apply_opens (h : opens os libs n sp = some o) :
    ∃ n', apply (os.build libs sp) role n sp = .done none n' ∧
      n'.backend o.owner = some (libs.diskqueueNew o.name) := by
  rcases opens_cases h with ⟨hmethod, h⟩ | ⟨hmethod, h⟩
  · obtain ⟨t, j, hargs, ht, hj, he, rfl⟩ := newTopicOpens_eq h
    have happly : apply (os.build libs sp) role n sp =
        .done none ((n.addChannels ∅ j.channels).1.storeTopic t
          (newTopicObj libs t j (n.addChannels ∅ j.channels).2)) := by
      rw [Platform.build, hargs, apply, if_pos hmethod, clusterNewTopic, hargs]
      simp only [if_neg ht, hj]
    refine ⟨_, happly, ?_⟩
    simp [Node.backend, Node.storeTopic, Node.setTopic, newTopicObj, he]
  · obtain ⟨t, c, p, j, hargs, hne, hp, hj, he, rfl⟩ := newChannelOpens_eq h
    have happly : apply (os.build libs sp) role n sp =
        .done none ((n.allocChannel (newChannelObj { libs with
            diskqueueNew := fun _ => libs.diskqueueNew (os.getBackendName t c) } n.opts t c j)).setTopic p
          { n.topicObj p with channels := (n.topicObj p).channels.insert c n.nextChannel }) := by
      rw [Platform.build, hargs, apply, if_neg (by rw [hmethod]; decide), if_pos hmethod,
        clusterNewChannel, hargs]
      simp only [if_neg hne, hp, hj]
    refine ⟨_, happly, ?_⟩
    simp [Node.backend, Node.channelPtr, Node.allocChannel, Node.setTopic, Node.setChannel, hp,
      newChannelObj, newChannel, he]

theorem clusterNewTopic_congr {f g : String → BackendQueue}
    (h : ∀ t, newTopicOpens libs sp = some ⟨.topic t, t⟩ → f t = g t) :
    clusterNewTopic { libs with diskqueueNew := f } n sp =
      clusterNewTopic { libs with diskqueueNew := g } n sp := by
  unfold clusterNewTopic
  split
  · rename_i t hargs
    by_cases ht : t = ""
    · rw [if_pos ht, if_pos ht]
    · rw [if_neg ht, if_neg ht]
      cases hj : libs.unmarshalTopic sp.value with
      | error err => rfl
      | ok j =>
          by_cases he : isEphemeral t = true
          · simp [newTopicObj, he]
          · have hopen : newTopicOpens libs sp = some ⟨.topic t, t⟩ := by
              simp [newTopicOpens, hargs, ht, hj, he]
            simp [newTopicObj, he, h t hopen]
  · rfl

variable (os) in
theorem clusterNewChannel_congr {f g : String → BackendQueue}
    (h : ∀ t c, newChannelOpens os libs n sp = some ⟨.channel t c, os.getBackendName t c⟩ →
      f (Cluster.getBackendName t c) = g (Cluster.getBackendName t c)) :
    clusterNewChannel { libs with diskqueueNew := f } n sp =
      clusterNewChannel { libs with diskqueueNew := g } n sp := by
  unfold clusterNewChannel
  split
  · rename_i t c hargs
    by_cases hne : c = "" ∨ t = ""
    · rw [if_pos hne, if_pos hne]
    · rw [if_neg hne, if_neg hne]
      cases hp : n.topics.lookup t with
      | none => rfl
      | some p =>
          cases hj : libs.unmarshalChannel sp.value with
          | error err => rfl
          | ok j =>
              by_cases he : isEphemeral c = true
              · simp only [newChannelObj, he, if_true]
              · have hopen : newChannelOpens os libs n sp =
                    some ⟨.channel t c, os.getBackendName t c⟩ := by
                  simp [newChannelOpens, hargs, not_or.mp hne, hp, hj, he]
                simp only [newChannelObj, he, h t c hopen]
  · rfl

theorem apply_ext {f g : String → BackendQueue}
    (htopic : sp.method = "NewTopic" → clusterNewTopic { libs with diskqueueNew := f } n sp =
      clusterNewTopic { libs with diskqueueNew := g } n sp)
    (hchannel : sp.method = "NewChannel" → clusterNewChannel { libs with diskqueueNew := f } n sp =
      clusterNewChannel { libs with diskqueueNew := g } n sp) :
    apply { libs with diskqueueNew := f } role n sp =
      apply { libs with diskqueueNew := g } role n sp := by
  unfold apply
  split
  · exact htopic ‹_›
  · split
    · exact hchannel ‹_›
    · rfl

variable (os) in
/-- Two arguments are those of a channel. -/
theorem apply_ext_two {f g : String → BackendQueue} {t c : String} (hargs : sp.args = [t, c])
    (h : sp.method = "NewChannel" →
      newChannelOpens os libs n sp = some ⟨.channel t c, os.getBackendName t c⟩ →
        f (Cluster.getBackendName t c) = g (Cluster.getBackendName t c)) :
    apply { libs with diskqueueNew := f } role n sp =
      apply { libs with diskqueueNew := g } role n sp := by
  refine apply_ext (fun _ => ?_) fun hm => ?_
  · refine clusterNewTopic_congr fun u hu => ?_
    obtain ⟨v, -, hv, -⟩ := newTopicOpens_eq hu
    rw [hargs] at hv
    cases hv
  · refine clusterNewChannel_congr os fun u d hu => ?_
    obtain ⟨v, e, -, -, hv, -, -, -, -, ho⟩ := newChannelOpens_eq hu
    rw [hargs] at hv
    cases hv
    cases ho
    exact h hm hu

/-- **No other queue is opened**: what `diskqueue.New` would make under other names is not seen. -/
theorem apply_congr (f : String → BackendQueue)
    (hf : ∀ o, opens os libs n sp = some o → f o.name = libs.diskqueueNew o.name) :
    apply (os.build { libs with diskqueueNew := f } sp) role n sp =
      apply (os.build libs sp) role n sp := by
  unfold Platform.build
  split
  · rename_i t c hargs
    refine apply_ext_two os hargs fun hm hc => hf ⟨.channel t c, os.getBackendName t c⟩ ?_
    rw [opens, if_neg (by rw [hm]; decide), if_pos hm]
    exact hc
  · rename_i hargs
    refine apply_ext (fun hm => ?_) fun _ => ?_
    · refine clusterNewTopic_congr fun t ht => hf ⟨.topic t, t⟩ ?_
      rw [opens, if_pos hm, ht]
    · refine clusterNewChannel_congr os fun t c hc => ?_
      obtain ⟨u, d, -, -, hd, -⟩ := newChannelOpens_eq hc
      exact absurd hd (hargs u d)

/-- The build for other systems is the model of the handlers. -/
theorem unix_apply (libs : Libs) (role : Role) (n : Node) (sp : SetPayload) :
    apply (Platform.unix.build libs sp) role n sp = apply libs role n sp := by
  unfold Platform.build
  split
  · rename_i hargs
    exact apply_ext_two (g := libs.diskqueueNew) .unix hargs fun _ _ => rfl
  · rfl

end Entries

/-! ### Runs -/

theorem unix_step (libs : Libs) (n : Node) (a : Act) :
    Platform.unix.step libs n a = step libs n a := by
  cases a with
  | apply role sp => rw [Platform.step, step, step, unix_apply]
  | _ => rfl

/-- Along a run every disk queue has its owner's name. -/
theorem opened_name {os : Platform} {libs : Libs} {n : Node} {acts : List Act} {o : Opening}
    (h : o ∈ opened os libs n acts) : o.name = o.owner.backendName os := by
  induction acts generalizing n with
  | nil => cases h
  | cons a acts ih =>
      rcases List.mem_append.mp h with h | h
      · cases a with
        | apply role sp => exact opens_name (Option.mem_toList.mp h)
        | _ => cases h
      · cases hs : os.step libs n a with
        | none =>
            rw [hs] at h
            cases h
        | some n' =>
            rw [hs] at h
            exact ih h

/-- **Disk queues are not shared.** -/
theorem disk_queues_unshared (os : Platform) :
    (∀ t t' c c' : String, isValidTopicName t = true → isValidTopicName t' = true →
      isValidChannelName c = true → isValidChannelName c' = true →
        (os.getBackendName t c = os.getBackendName t' c' → t = t' ∧ c = c') ∧
          os.getBackendName t c ≠ t') ∧
    ∀ (libs : Libs) (opts : ChannelOptions) (acts : List Act),
      ∀ o ∈ opened os libs (Node.empty opts) acts, ∀ o' ∈ opened os libs (Node.empty opts) acts,
        o.owner.Valid → o'.owner.Valid → o.name = o'.name → o.owner = o'.owner := by
  refine ⟨fun t t' c c' ht ht' hc _ => ⟨Platform.getBackendName_inj ht hc,
    Platform.getBackendName_ne ht'⟩, fun libs opts acts o ho o' ho' hv hv' hname => ?_⟩
  rw [opened_name ho, opened_name ho'] at hname
  exact Owner.backendName_inj hv hv' hname

/-- On Windows, a topic and a channel of it, and a topic with a longer name. -/
theorem disk_queues_unshared_three :
    (opened .windows Libs.ofNew (Node.empty ⟨10, 900000⟩)
      [.apply .leader (newTopicEntry Libs.ofNew "a"), .apply .leader (newChannelEntry Libs.ofNew "a" "b"),
        .apply .leader (newTopicEntry Libs.ofNew "a-b")]).map Opening.name = ["a", "a;b", "a-b"] ∧
      Platform.windows.getBackendName "a" "b" ≠ "a-b" := by
  refine ⟨by decide, ?_⟩
  exact ((disk_queues_unshared .windows).1 "a" "a-b" "b" "b" (by decide) (by decide) (by decide)
    (by decide)).2

end Xmq.Cluster
