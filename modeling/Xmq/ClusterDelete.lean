import Xmq.ClusterRefinement
import Xmq.Runs

/-!
# Deleting a topic, step by step

`ClusterDeleteTopic` runs on the one goroutine that applies entries, and `Topic.exit` submits entries
of its own. This module runs the handler one statement at a time while other goroutines append to
the log: the entry that the handler applies is not done before the handler returns, so a submission
that got into the log is waited for in vain.

* On the leader a submission is appended and answered once it is applied; anywhere else it is
  refused at once.
* The locks that other goroutines hold on the topic are released in time, and the pump ends once
  the context is cancelled.
-/

namespace Xmq.Cluster

/-! ### The handler -/

/-- Where the handler is. The `i` of a wait is the index of the entry that it waits for. -/
inductive DeletePC where
  | casExitFlag
  | submitExitFlag
  | awaitExitFlag (i : ℕ)
  | cancel
  | lock
  | deletions (names : List String)
  | awaitDeletion (i : ℕ) (names : List String)
  | unlock
  | empty
  | deleteBackend
  | remove
  | returned
  deriving DecidableEq

/-- A node in the handler: the first `applied` entries of the log are done, and the next one is the
deletion. -/
structure Deletion where
  node : Node
  role : Role
  log : List SetPayload
  applied : ℕ
  topicName : String
  ptr : TopicPtr
  pc : DeletePC
  locked : Bool

namespace Deletion

def topic (h : Deletion) : TopicObj := h.node.topicObj h.ptr

/-- Write to the topic object and go on. -/
def write (h : Deletion) (t : TopicObj) (pc : DeletePC) : Deletion :=
  { h with node := h.node.setTopic h.ptr t, pc := pc }

/-- A submission of the handler: `r.Apply` and then `future.Error()`. -/
def submit (h : Deletion) (sp : SetPayload) (refused : DeletePC) (await : ℕ → DeletePC) :
    Deletion :=
  match submitFromApply h.role sp.args with
  | .refused _ => { h with pc := refused }
  | .waits => { h with log := h.log ++ [sp], pc := await h.log.length }

/-- The next statement of the handler. A wait that is not over stays where it is. -/
def turn (libs : Libs) (h : Deletion) : Deletion :=
  match h.pc with
  | .casExitFlag =>
    if h.topic.exitFlag ≠ 0 then { h with pc := .remove }
    else h.write { h.topic with exitFlag := 1 } .submitExitFlag
  | .submitExitFlag =>
    h.submit (topicUpdateEntry h.topic.name "ExitFlag" (libs.int32ToString h.topic.exitFlag))
      .cancel .awaitExitFlag
  | .awaitExitFlag i => if i < h.applied then { h with pc := .cancel } else h
  | .cancel => h.write { h.topic with cancelled := true } .lock
  | .lock =>
    if h.locked then h else { h with locked := true, pc := .deletions h.topic.channels.keys }
  | .deletions [] => { h with pc := .unlock }
  | .deletions (name :: rest) =>
    h.submit (deleteChannelEntry h.topic.name name) (.deletions rest) fun i =>
      .awaitDeletion i rest
  | .awaitDeletion i rest => if i < h.applied then { h with pc := .deletions rest } else h
  | .unlock => { h with locked := false, pc := .empty }
  | .empty =>
    h.write { h.topic with memoryMsgChan := [], backend := h.topic.backend.empty } .deleteBackend
  | .deleteBackend => h.write { h.topic with backend := h.topic.backend.delete } .remove
  | .remove =>
    { h with node := { h.node with topics := h.node.topics.erase h.topicName }, pc := .returned }
  | .returned => h

end Deletion

/-- The handler takes its next statement, or another goroutine appends an entry. -/
inductive DeleteAct where
  | turn
  | append (sp : SetPayload)
  deriving DecidableEq

def Deletion.step (libs : Libs) (h : Deletion) : DeleteAct → Deletion
  | .turn => h.turn libs
  | .append sp => { h with log := h.log ++ [sp] }

def Deletion.run (libs : Libs) (h : Deletion) (acts : List DeleteAct) : Deletion :=
  acts.foldl (Deletion.step libs) h

/-- The handler is entered for the entry between `before` and `after`. -/
def deletionOf (n : Node) (role : Role) (before after : List SetPayload) (t : String)
    (p : TopicPtr) : Deletion where
  node := n
  role := role
  log := before ++ deleteTopicEntry t :: after
  applied := before.length
  topicName := t
  ptr := p
  pc := .casExitFlag
  locked := false

/-- The channel is closed and exiting, and its backend has been deleted. -/
def ChannelObj.Deleted (o : ChannelObj) : Prop :=
  ∃ c, o.core = .running c ∧ c.exiting = true ∧ c.backend.closed = true ∧ c.backend.deleted = true

/-- **The claim.** However the other goroutines interleave, the handler returns after finitely many
of its own statements; then the topic is gone and every channel it had is deleted. -/
def DeletesCompletely (libs : Libs) (h : Deletion) : Prop :=
  ∃ bound, ∀ acts : List DeleteAct, bound ≤ acts.count .turn →
    (h.run libs acts).pc = .returned ∧ (h.run libs acts).node.topics.lookup h.topicName = none ∧
    ∀ c k, h.node.channelPtr h.topicName c = some k →
      ((h.run libs acts).node.channelObj k).Deleted

/-! ### Nothing is done to the channels -/

section Frame

variable {libs : Libs} {h : Deletion}

theorem submit_frame (sp : SetPayload) (refused : DeletePC) (await : ℕ → DeletePC) :
    (h.submit sp refused await).node = h.node := by
  unfold Deletion.submit
  split <;> rfl

theorem turn_channelObj : (h.turn libs).node.channelObj = h.node.channelObj := by
  unfold Deletion.turn
  split
  · split <;> rfl
  · rw [submit_frame]
  · split <;> rfl
  · rfl
  · split <;> rfl
  · rfl
  · rw [submit_frame]
  · split <;> rfl
  all_goals rfl

theorem step_channelObj (a : DeleteAct) : (h.step libs a).node.channelObj = h.node.channelObj := by
  cases a with
  | turn => exact turn_channelObj
  | append sp => rfl

theorem run_channelObj (acts : List DeleteAct) :
    (h.run libs acts).node.channelObj = h.node.channelObj := by
  induction acts generalizing h with
  | nil => rfl
  | cons a acts ih =>
      show (Deletion.run libs (h.step libs a) acts).node.channelObj = _
      rw [ih, step_channelObj]

end Frame

/-- **The invariant rule** for a handler and the goroutines beside it. -/
theorem run_invariant {libs : Libs} {I : Deletion → Prop} (hturn : ∀ h, I h → I (h.turn libs))
    (happend : ∀ h sp, I h → I { h with log := h.log ++ [sp] }) (acts : List DeleteAct) :
    ∀ h, I h → I (h.run libs acts) := by
  induction acts with
  | nil => exact fun h hi => hi
  | cons a acts ih =>
      intro h hi
      apply ih
      cases a with
      | turn => exact hturn h hi
      | append sp => exact happend h sp hi

/-! ### The wait that does not end -/

/-- The leader is about to submit the new `ExitFlag`, or waits for an entry behind the one that it
applies. -/
structure Waiting (h : Deletion) : Prop where
  leader : h.role = .leader
  name : h.topic.name ≠ ""
  applied : h.applied ≤ h.log.length
  pc : h.pc = .casExitFlag ∧ h.topic.exitFlag = 0 ∨ h.pc = .submitExitFlag ∨
    ∃ i, h.pc = .awaitExitFlag i ∧ h.applied ≤ i

theorem waiting_turn {libs : Libs} {h : Deletion} (hw : Waiting h) : Waiting (h.turn libs) := by
  obtain ⟨hrole, hname, happ, ⟨hpc, hflag⟩ | hpc | ⟨i, hpc, hi⟩⟩ := hw
  · rw [Deletion.turn, hpc]
    simp only [hflag, ne_eq, not_true_eq_false, if_false]
    refine ⟨hrole, ?_, happ, Or.inr (Or.inl rfl)⟩
    show ((h.node.setTopic h.ptr _).topicObj h.ptr).name ≠ ""
    rw [Node.setTopic_self]
    exact hname
  · have hwaits : submitFromApply h.role [h.topic.name, "ExitFlag"] = .waits := by
      rw [hrole]
      exact if_neg (by simp [Ne.symm hname])
    rw [Deletion.turn, hpc]
    simp only [Deletion.submit, topicUpdateEntry, hwaits]
    refine ⟨hrole, hname, ?_, Or.inr (Or.inr ⟨_, rfl, happ⟩)⟩
    rw [List.length_append]
    exact Nat.le_add_right_of_le happ
  · rw [Deletion.turn, hpc]
    simp only [if_neg (Nat.not_lt.mpr hi)]
    exact ⟨hrole, hname, happ, Or.inr (Or.inr ⟨i, hpc, hi⟩)⟩

theorem waiting_append {h : Deletion} (sp : SetPayload) (hw : Waiting h) :
    Waiting { h with log := h.log ++ [sp] } :=
  ⟨hw.leader, hw.name, by
    rw [List.length_append]
    exact Nat.le_add_right_of_le hw.applied, hw.pc⟩

/-- **No return.** From such a state the handler never returns, whatever is appended. -/
theorem waiting_never_returns {libs : Libs} {h : Deletion} (hw : Waiting h)
    (acts : List DeleteAct) : (h.run libs acts).pc ≠ .returned := by
  have hw' : Waiting (h.run libs acts) :=
    run_invariant (I := Waiting) (fun _ hw => waiting_turn hw)
      (fun _ sp hw => waiting_append sp hw) acts h hw
  rcases hw'.pc with ⟨hpc, _⟩ | hpc | ⟨i, hpc, _⟩ <;> rw [hpc] <;> exact nofun

/-! ### The way to the return -/

/-- How many statements are left for a topic with `m` channels, when no submission is waited for. -/
def DeletePC.left (m : ℕ) : DeletePC → ℕ
  | .casExitFlag => m + 9
  | .submitExitFlag => m + 8
  | .awaitExitFlag _ => m + 8
  | .cancel => m + 7
  | .lock => m + 6
  | .deletions names => names.length + 5
  | .awaitDeletion _ names => names.length + 6
  | .unlock => 4
  | .empty => 3
  | .deleteBackend => 2
  | .remove => 1
  | .returned => 0

theorem left_eq_zero {m : ℕ} {pc : DeletePC} (h : pc.left m = 0) : pc = .returned := by
  cases pc with
  | returned => rfl
  | _ => simp [DeletePC.left] at h

/-- **The termination rule.** Where every turn leaves less to do, enough turns lead to the return,
whatever is appended between them. -/
theorem run_returns {libs : Libs} {I : Deletion → Prop} (m : ℕ)
    (hturn : ∀ h, I h → I (h.turn libs) ∧ (h.turn libs).pc.left m ≤ h.pc.left m - 1)
    (happend : ∀ h sp, I h → I { h with log := h.log ++ [sp] }) (acts : List DeleteAct) :
    ∀ h, I h → I (h.run libs acts) ∧
      (h.run libs acts).pc.left m ≤ h.pc.left m - acts.count .turn := by
  induction acts with
  | nil => exact fun h hi => ⟨hi, Nat.le_refl _⟩
  | cons a acts ih =>
      intro h hi
      show I (Deletion.run libs (h.step libs a) acts) ∧
        (Deletion.run libs (h.step libs a) acts).pc.left m ≤ _
      cases a with
      | turn =>
          obtain ⟨hi', hlt⟩ := hturn h hi
          obtain ⟨hr, hle⟩ := ih (h.turn libs) hi'
          refine ⟨hr, ?_⟩
          rw [List.count_cons_self]
          exact Nat.le_trans hle (by omega)
      | append sp =>
          obtain ⟨hr, hle⟩ := ih { h with log := h.log ++ [sp] } (happend h sp hi)
          refine ⟨hr, ?_⟩
          rw [List.count_cons_of_ne (by simp)]
          exact hle

/-- The topic object as the handler has left it when it comes to a statement. -/
def exitedTopic (t : TopicObj) : DeletePC → TopicObj
  | .casExitFlag => t
  | .submitExitFlag | .awaitExitFlag _ | .cancel => { t with exitFlag := 1 }
  | .lock | .deletions _ | .awaitDeletion _ _ | .unlock | .empty =>
    { t with exitFlag := 1, cancelled := true }
  | .deleteBackend =>
    { t with exitFlag := 1, cancelled := true, memoryMsgChan := [], backend := t.backend.empty }
  | .remove | .returned =>
    { t with
      exitFlag := 1, cancelled := true, memoryMsgChan := [], backend := t.backend.empty.delete }

theorem setTopic_eq_self (n : Node) (p : TopicPtr) : n.setTopic p (n.topicObj p) = n := by
  have h : (fun q => if q = p then n.topicObj p else n.topicObj q) = n.topicObj := by
    funext q
    split
    · rename_i hq
      rw [hq]
    · rfl
  show { n with topicObj := _ } = n
  rw [h]

theorem setTopic_setTopic (n : Node) (p : TopicPtr) (a b : TopicObj) :
    (n.setTopic p a).setTopic p b = n.setTopic p b := by
  have h : (fun q => if q = p then b else (n.setTopic p a).topicObj q) =
      fun q => if q = p then b else n.topicObj q := by
    funext q
    split
    · rfl
    · rename_i hq
      exact n.setTopic_ne a hq
  show { n with topicObj := _ } = { n with topicObj := _ }
  rw [h]

/-- The node as the handler has left it. -/
def exitedNode (n : Node) (p : TopicPtr) (t : String) (pc : DeletePC) : Node :=
  { n.setTopic p (exitedTopic (n.topicObj p) pc) with
    topics := if pc = .returned then n.topics.erase t else n.topics }

/-- A handler whose submissions are all refused. -/
structure Refused (n : Node) (p : TopicPtr) (t : String) (h : Deletion) : Prop where
  ptr : h.ptr = p
  topicName : h.topicName = t
  role : h.role = .follower ∨ (n.topicObj p).name = ""
  flag : (n.topicObj p).exitFlag = 0
  node : h.node = exitedNode n p t h.pc
  unlocked : h.pc ∈ [DeletePC.casExitFlag, .submitExitFlag, .cancel, .lock] → h.locked = false
  noExitWait : ∀ i, h.pc ≠ .awaitExitFlag i
  noDeletionWait : ∀ i names, h.pc ≠ .awaitDeletion i names

theorem Refused.topic_eq {n : Node} {p : TopicPtr} {t : String} {h : Deletion}
    (hr : Refused n p t h) : h.topic = exitedTopic (n.topicObj p) h.pc := by
  rw [Deletion.topic, hr.ptr, hr.node]
  exact n.setTopic_self p _

theorem exitedNode_eq {n : Node} {p : TopicPtr} {t : String} {pc : DeletePC}
    (h : pc ≠ .returned) : exitedNode n p t pc = n.setTopic p (exitedTopic (n.topicObj p) pc) := by
  rw [exitedNode, if_neg h]
  rfl

/-- The handler goes on without a write. -/
theorem Refused.goto {n : Node} {p : TopicPtr} {t : String} {h : Deletion} (hr : Refused n p t h)
    {pc : DeletePC} {locked : Bool}
    (he : exitedTopic (n.topicObj p) pc = exitedTopic (n.topicObj p) h.pc)
    (hret : h.pc ≠ .returned ∧ pc ≠ .returned)
    (hlock : pc ∈ [DeletePC.casExitFlag, .submitExitFlag, .cancel, .lock] → locked = false)
    (hwait : (∀ i, pc ≠ .awaitExitFlag i) ∧ ∀ i names, pc ≠ .awaitDeletion i names) :
    Refused n p t { h with pc := pc, locked := locked } where
  ptr := hr.ptr
  topicName := hr.topicName
  role := hr.role
  flag := hr.flag
  node := by
    show h.node = exitedNode n p t pc
    rw [hr.node, exitedNode_eq hret.1, exitedNode_eq hret.2, he]
  unlocked := hlock
  noExitWait := hwait.1
  noDeletionWait := hwait.2

/-- The handler writes to the topic and goes on. -/
theorem Refused.writes {n : Node} {p : TopicPtr} {t : String} {h : Deletion} (hr : Refused n p t h)
    {o : TopicObj} {pc : DeletePC} (he : o = exitedTopic (n.topicObj p) pc)
    (hret : h.pc ≠ .returned ∧ pc ≠ .returned)
    (hlock : pc ∈ [DeletePC.casExitFlag, .submitExitFlag, .cancel, .lock] → h.locked = false)
    (hwait : (∀ i, pc ≠ .awaitExitFlag i) ∧ ∀ i names, pc ≠ .awaitDeletion i names) :
    Refused n p t (h.write o pc) where
  ptr := hr.ptr
  topicName := hr.topicName
  role := hr.role
  flag := hr.flag
  node := by
    show h.node.setTopic h.ptr o = exitedNode n p t pc
    rw [hr.node, hr.ptr, exitedNode_eq hret.1, exitedNode_eq hret.2, setTopic_setTopic, he]
  unlocked := hlock
  noExitWait := hwait.1
  noDeletionWait := hwait.2

theorem submit_refused {h : Deletion} {t : String} {sp : SetPayload} {refused : DeletePC}
    {await : ℕ → DeletePC} (ht : sp.args.head? = some t) (hr : h.role = .follower ∨ t = "") :
    h.submit sp refused await = { h with pc := refused } := by
  obtain ⟨m, _ | ⟨u, rest⟩, value⟩ := sp
  · cases ht
  · cases ht
    obtain ⟨err, he⟩ := submitFromApply_refused hr rest
    simp only [Deletion.submit, he]

theorem refused_turn (libs : Libs) {n : Node} {p : TopicPtr} {t : String} {h : Deletion}
    (hr : Refused n p t h) :
    Refused n p t (h.turn libs) ∧ (h.turn libs).pc.left (n.topicObj p).channels.keys.length ≤
      h.pc.left (n.topicObj p).channels.keys.length - 1 := by
  have htopic := hr.topic_eq
  have hfree := hr.unlocked
  rw [Deletion.turn]
  cases hpc : h.pc with
  | casExitFlag =>
      rw [hpc] at htopic hfree
      have hflag : h.topic.exitFlag = 0 := by rw [htopic]; exact hr.flag
      simp only [hflag, ne_eq, not_true_eq_false, if_false]
      refine ⟨hr.writes (by rw [htopic]; rfl) ?_ ?_ ⟨nofun, nofun⟩, Nat.le_refl _⟩
      · rw [hpc]
        exact ⟨nofun, nofun⟩
      · exact fun _ => hfree (by simp)
  | submitExitFlag =>
      rw [hpc] at htopic hfree
      rw [submit_refused rfl (by rw [htopic]; exact hr.role)]
      refine ⟨hr.goto (by rw [hpc]; rfl) ?_ ?_ ⟨nofun, nofun⟩, Nat.le_refl _⟩
      · rw [hpc]
        exact ⟨nofun, nofun⟩
      · exact fun _ => hfree (by simp)
  | awaitExitFlag i => exact absurd hpc (hr.noExitWait i)
  | cancel =>
      rw [hpc] at htopic hfree
      refine ⟨hr.writes (by rw [htopic]; rfl) ?_ ?_ ⟨nofun, nofun⟩, Nat.le_refl _⟩
      · rw [hpc]
        exact ⟨nofun, nofun⟩
      · exact fun _ => hfree (by simp)
  | lock =>
      rw [hpc] at htopic hfree
      simp only [hfree (by simp), Bool.false_eq_true, if_false]
      refine ⟨hr.goto (by rw [hpc]; rfl) ?_ (by simp) ⟨nofun, nofun⟩, ?_⟩
      · rw [hpc]
        exact ⟨nofun, nofun⟩
      · rw [htopic]
        exact Nat.le_refl _
  | deletions names =>
      rw [hpc] at htopic
      cases names with
      | nil =>
          refine ⟨hr.goto (by rw [hpc]; rfl) ?_ (by simp) ⟨nofun, nofun⟩, Nat.le_refl _⟩
          rw [hpc]
          exact ⟨nofun, nofun⟩
      | cons name rest =>
          simp only
          rw [submit_refused rfl (by rw [htopic]; exact hr.role)]
          refine ⟨hr.goto (by rw [hpc]; rfl) ?_ (by simp) ⟨nofun, nofun⟩, Nat.le_refl _⟩
          rw [hpc]
          exact ⟨nofun, nofun⟩
  | awaitDeletion i names => exact absurd hpc (hr.noDeletionWait i names)
  | unlock =>
      refine ⟨hr.goto (by rw [hpc]; rfl) ?_ (by simp) ⟨nofun, nofun⟩, Nat.le_refl _⟩
      rw [hpc]
      exact ⟨nofun, nofun⟩
  | empty =>
      rw [hpc] at htopic
      refine ⟨hr.writes (by rw [htopic]; rfl) ?_ (by simp) ⟨nofun, nofun⟩, Nat.le_refl _⟩
      rw [hpc]
      exact ⟨nofun, nofun⟩
  | deleteBackend =>
      rw [hpc] at htopic
      refine ⟨hr.writes (by rw [htopic]; rfl) ?_ (by simp) ⟨nofun, nofun⟩, Nat.le_refl _⟩
      rw [hpc]
      exact ⟨nofun, nofun⟩
  | remove =>
      refine ⟨⟨hr.ptr, hr.topicName, hr.role, hr.flag, ?_, ?_, nofun, nofun⟩, Nat.le_refl _⟩
      · show { h.node with topics := h.node.topics.erase h.topicName } = exitedNode n p t .returned
        rw [hr.node, hr.topicName, hpc]
        rfl
      · show DeletePC.returned ∈ _ → _
        simp
  | returned => exact ⟨hr, by rw [hpc]; exact Nat.zero_le _⟩

/-- A handler that finds the topic exiting. -/
structure FoundExiting (n : Node) (p : TopicPtr) (t : String) (h : Deletion) : Prop where
  ptr : h.ptr = p
  topicName : h.topicName = t
  flag : (n.topicObj p).exitFlag ≠ 0
  pc : h.pc = .casExitFlag ∧ h.node = n ∨ h.pc = .remove ∧ h.node = n ∨
    h.pc = .returned ∧ h.node = { n with topics := n.topics.erase t }

theorem foundExiting_turn (libs : Libs) {n : Node} {p : TopicPtr} {t : String} {h : Deletion}
    (hf : FoundExiting n p t h) (m : ℕ) :
    FoundExiting n p t (h.turn libs) ∧ (h.turn libs).pc.left m ≤ h.pc.left m - 1 := by
  obtain ⟨hptr, hname, hflag, ⟨hpc, hnode⟩ | ⟨hpc, hnode⟩ | ⟨hpc, hnode⟩⟩ := hf
  · have hflag' : h.topic.exitFlag ≠ 0 := by
      rw [Deletion.topic, hnode, hptr]
      exact hflag
    rw [Deletion.turn, hpc]
    simp only [if_pos hflag']
    exact ⟨⟨hptr, hname, hflag, Or.inr (Or.inl ⟨rfl, hnode⟩)⟩, by simp [DeletePC.left]⟩
  · rw [Deletion.turn, hpc]
    refine ⟨⟨hptr, hname, hflag, Or.inr (Or.inr ⟨rfl, ?_⟩)⟩, Nat.le_refl _⟩
    show { h.node with topics := h.node.topics.erase h.topicName } = _
    rw [hnode, hname]
  · rw [Deletion.turn, hpc]
    exact ⟨⟨hptr, hname, hflag, Or.inr (Or.inr ⟨hpc, hnode⟩)⟩, by rw [hpc]; exact Nat.zero_le _⟩

/-- The node after the deletion. -/
def deletedNode (n : Node) (p : TopicPtr) (t : String) : Node :=
  if (n.topicObj p).exitFlag = 0 then exitedNode n p t .returned
  else { n with topics := n.topics.erase t }

section Runs

variable {n : Node} {role : Role} {t : String} {p : TopicPtr}

/-- **Return.** A handler whose submissions are refused, or that finds the topic exiting, returns
after as many statements as it has channels to name, and nine more. -/
theorem deletion_returns (libs : Libs) (before after : List SetPayload)
    (h : Command.DeleteReturns role (topicState n.channelObj (n.topicObj p)))
    (acts : List DeleteAct)
    (hacts : (n.topicObj p).channels.keys.length + 9 ≤ acts.count .turn) :
    ((deletionOf n role before after t p).run libs acts).pc = .returned ∧
      ((deletionOf n role before after t p).run libs acts).node = deletedNode n p t := by
  by_cases hflag : (n.topicObj p).exitFlag = 0
  · have hrefuse : role = .follower ∨ (n.topicObj p).name = "" :=
      Or.resolve_left h fun hne => hne hflag
    have hnode : exitedNode n p t .casExitFlag = n := by
      rw [exitedNode_eq (by decide : DeletePC.casExitFlag ≠ .returned)]
      exact setTopic_eq_self n p
    have hstart : Refused n p t (deletionOf n role before after t p) :=
      ⟨rfl, rfl, hrefuse, hflag, hnode.symm, fun _ => rfl, nofun, nofun⟩
    obtain ⟨hr, hle⟩ := run_returns (I := Refused n p t) _ (fun _ hr => refused_turn libs hr)
      (fun h sp hr => ⟨hr.ptr, hr.topicName, hr.role, hr.flag, hr.node, hr.unlocked, hr.noExitWait,
        hr.noDeletionWait⟩) acts _ hstart
    have hpc := left_eq_zero (Nat.le_zero.mp (Nat.le_trans hle (by
      rw [Nat.sub_eq_zero_of_le]
      exact hacts)))
    exact ⟨hpc, by rw [hr.node, hpc, deletedNode, if_pos hflag]⟩
  · have hstart : FoundExiting n p t (deletionOf n role before after t p) :=
      ⟨rfl, rfl, hflag, Or.inl ⟨rfl, rfl⟩⟩
    obtain ⟨hr, hle⟩ := run_returns (I := FoundExiting n p t) (n.topicObj p).channels.keys.length
      (fun _ hr => foundExiting_turn libs hr _)
      (fun h sp hr => ⟨hr.ptr, hr.topicName, hr.flag, hr.pc⟩) acts _ hstart
    have hpc := left_eq_zero (Nat.le_zero.mp (Nat.le_trans hle (by
      rw [Nat.sub_eq_zero_of_le]
      exact hacts)))
    refine ⟨hpc, ?_⟩
    rcases hr.pc with ⟨hpc', _⟩ | ⟨hpc', _⟩ | ⟨_, hnode⟩
    · rw [hpc] at hpc'
      cases hpc'
    · rw [hpc] at hpc'
      cases hpc'
    · rw [hnode, deletedNode, if_neg hflag]

/-- **No return.** -/
theorem deletion_never_returns (libs : Libs) (before after : List SetPayload)
    (h : ¬ Command.DeleteReturns role (topicState n.channelObj (n.topicObj p)))
    (acts : List DeleteAct) :
    ((deletionOf n role before after t p).run libs acts).pc ≠ .returned := by
  simp only [Command.DeleteReturns, not_or, not_not, topicState] at h
  obtain ⟨hflag, hrole, hname⟩ := h
  apply waiting_never_returns
  refine ⟨?_, hname, ?_, Or.inl ⟨rfl, hflag⟩⟩
  · cases role with
    | leader => rfl
    | follower => exact absurd rfl hrole
  · show before.length ≤ (before ++ deleteTopicEntry t :: after).length
    rw [List.length_append]
    exact Nat.le_add_right _ _

/-- **The handler in one step** is what the statements of the handler come to. -/
theorem deletion_agrees (libs : Libs) (before after : List SetPayload) (hp : n.topics.lookup t = some p)
    (ht : t ≠ "") :
    (∀ err n', clusterDeleteTopic role n (deleteTopicEntry t) = .done err n' →
      ∀ acts : List DeleteAct, (n.topicObj p).channels.keys.length + 9 ≤ acts.count .turn →
        ((deletionOf n role before after t p).run libs acts).pc = .returned ∧
        ((deletionOf n role before after t p).run libs acts).node = n') ∧
    (clusterDeleteTopic role n (deleteTopicEntry t) = .stuck →
      ∀ acts, ((deletionOf n role before after t p).run libs acts).pc ≠ .returned) := by
  by_cases h : Command.DeleteReturns role (topicState n.channelObj (n.topicObj p))
  · have hdone : clusterDeleteTopic role n (deleteTopicEntry t) =
        .done none (deletedNode n p t) := by
      simp only [clusterDeleteTopic, deleteTopicEntry, if_neg ht, hp]
      rw [deletedNode]
      by_cases hflag : (n.topicObj p).exitFlag = 0
      · simp only [topicDelete_refused hflag (Or.resolve_left h fun hne => hne hflag), if_pos hflag]
        rfl
      · simp only [topicDelete_exiting role hflag, if_neg hflag]
    rw [hdone]
    constructor
    · intro err n' heq acts hacts
      cases heq
      exact deletion_returns libs before after h acts hacts
    · intro heq
      cases heq
  · have hstuck : clusterDeleteTopic role n (deleteTopicEntry t) = .stuck := by
      simp only [clusterDeleteTopic, deleteTopicEntry, if_neg ht, hp, topicDelete_stuck role n p h]
    rw [hstuck]
    refine ⟨fun err n' heq => ?_, fun _ acts => deletion_never_returns libs before after h acts⟩
    cases heq

end Runs

/-- The handler that applies a deletion of an existing topic. -/
def applyDeletion (n : Node) (role : Role) (before after : List SetPayload) (t : String)
    (ht : (n.topics.lookup t).isSome = true) : Deletion :=
  deletionOf n role before after t ((n.topics.lookup t).get ht)

/-- **When a deletion completes.** Applying the entry returns and leaves the topic deleted exactly
when the handler gets no submission into the log (on a follower, for a topic that is exiting, or for
one whose name is empty) and the channels have been deleted before. -/
theorem deletesCompletely_iff (libs : Libs) (n : Node) (role : Role)
    (before after : List SetPayload) (t : String) (ht : (n.topics.lookup t).isSome = true) :
    DeletesCompletely libs (applyDeletion n role before after t ht) ↔
      (role = .follower ∨ (n.topicObj ((n.topics.lookup t).get ht)).exitFlag ≠ 0 ∨
        (n.topicObj ((n.topics.lookup t).get ht)).name = "") ∧
      ∀ c k, n.channelPtr t c = some k → (n.channelObj k).Deleted := by
  obtain ⟨p, hp⟩ : ∃ p, p = (n.topics.lookup t).get ht := ⟨_, rfl⟩
  rw [applyDeletion, ← hp]
  have hcond : Command.DeleteReturns role (topicState n.channelObj (n.topicObj p)) ↔
      role = .follower ∨ (n.topicObj p).exitFlag ≠ 0 ∨ (n.topicObj p).name = "" := by
    rw [Command.DeleteReturns, topicState]
    tauto
  constructor
  · rintro ⟨bound, hall⟩
    obtain ⟨hpc, _, hchan⟩ := hall (List.replicate bound .turn) (by simp)
    constructor
    · rw [← hcond]
      by_contra hno
      exact deletion_never_returns libs before after hno _ hpc
    · intro c k hk
      have h := hchan c k hk
      rwa [run_channelObj] at h
  · rintro ⟨hret, hchan⟩
    refine ⟨(n.topicObj p).channels.keys.length + 9, fun acts hacts => ?_⟩
    obtain ⟨hpc, hnode⟩ := deletion_returns libs before after (hcond.mpr hret) acts hacts
    refine ⟨hpc, ?_, fun c k hk => ?_⟩
    · rw [hnode, deletedNode]
      split <;> exact AList.lookup_erase _ _
    · rw [run_channelObj]
      exact hchan c k hk

/-- A node with the topic `orders`. -/
def deletionNode : Node :=
  (applyAll Libs.ofNew .follower (Node.empty ⟨2, 100⟩) [newTopicEntry Libs.ofNew "orders"]).get
    (by decide +kernel)

/-- A node with a channel on that topic. -/
def deletionNodeWithChannel : Node :=
  (applyAll Libs.ofNew .follower (Node.empty ⟨2, 100⟩)
    [newTopicEntry Libs.ofNew "orders", newChannelEntry Libs.ofNew "orders" "mail"]).get
    (by decide +kernel)

theorem deletionNode_channels (c : String) : deletionNode.channelPtr "orders" c = none := by
  rfl

/-- On a follower a topic without channels is deleted. -/
theorem deletesCompletely_iff_no_channels :
    DeletesCompletely Libs.ofNew
      (applyDeletion deletionNode .follower [newTopicEntry Libs.ofNew "orders"] [] "orders"
        (by decide)) :=
  (deletesCompletely_iff Libs.ofNew deletionNode .follower _ [] "orders" (by decide)).mpr
    ⟨Or.inl rfl, fun c k hk => by rw [deletionNode_channels] at hk; cases hk⟩

/-- On the leader the deletion of `orders` never returns; on a follower the channel of `orders` is
left as it is. -/
theorem deletion_incomplete :
    ¬ DeletesCompletely Libs.ofNew
        (applyDeletion deletionNode .leader [newTopicEntry Libs.ofNew "orders"] [] "orders"
          (by decide)) ∧
    ¬ DeletesCompletely Libs.ofNew
        (applyDeletion deletionNodeWithChannel .follower
          [newTopicEntry Libs.ofNew "orders", newChannelEntry Libs.ofNew "orders" "mail"] []
          "orders" (by decide)) := by
  constructor
  · rintro ⟨bound, hall⟩
    refine deletion_never_returns _ _ [] ?_ _ (hall (List.replicate bound .turn) (by simp)).1
    decide
  · rintro ⟨bound, hall⟩
    obtain ⟨_, _, hchan⟩ := hall (List.replicate bound .turn) (by simp)
    have h := hchan "mail" 0 (by decide)
    rw [run_channelObj] at h
    obtain ⟨c, hc, hexit, _⟩ := h
    have hc' : (deletionNodeWithChannel.channelObj 0).core = .running c := hc
    obtain ⟨c', hcore, hopen⟩ : ∃ c', (deletionNodeWithChannel.channelObj 0).core = .running c' ∧
        c'.exiting = false := ⟨_, rfl, rfl⟩
    rw [hc'] at hcore
    cases hcore
    exact Bool.false_ne_true (hopen.symm.trans hexit)

end Xmq.Cluster
