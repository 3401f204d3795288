import Xmq.Runs
import Xmq.TopicPump

/-!
# Which channels a message reaches

Entries of the log change `Topic.Channels` wherever a node applies them, but only a local call of
`GetChannel` tells the pump: it sends on `channelUpdateChan` when it is through. A change that comes
while such a call is under way is read in time. Any other change is not: the pump goes on with its old
list.

* A topic on one node, from the `NewTopic` entry that made it. Entries that the node did not submit, and
  its own that come after the submission was given up, are applied at any time.
* `GetChannel` sends whether or not the channel is new or exists. `DeleteExistingChannel` unlocks a lock
  that it does not hold as soon as its entry has been applied, which ends the process.
-/

namespace Xmq.FanOut

open Pump

/-! ### Calls and entries -/

inductive Entry where
  | newTopic
  | newChannel (name : String)
  | deleteChannel (name : String)
  deriving DecidableEq

/-- How far a call of `GetChannel` or of `DeleteExistingChannel` has come. -/
inductive Call where
  | checking (name : String)
  | submitted (name : String)
  | answered (name : String)
  | updating
  | deleting (name : String)
  | deleteSubmitted (name : String)
  | deleted
  | done
  deriving DecidableEq

/-- `GetChannel` that has still to tell the pump. -/
def Call.willUpdate : Call → Bool
  | checking _ | submitted _ | answered _ | updating => true
  | deleting _ | deleteSubmitted _ | deleted | done => false

/-- `current` says that the node's map has this topic, and not one that replaced it. -/
structure State where
  topic : Topic
  current : Bool
  leader : Bool
  crashed : Bool
  calls : List Call

def init (backend : BackendQueue) : State := ⟨newTopic backend, true, false, false, []⟩

inductive Act where
  | getChannel (name : String)
  | deleteExistingChannel (name : String)
  | advance (k : ℕ)
  | fail (k : ℕ)
  | update (k : ℕ)
  | apply (e : Entry) (origin : Option ℕ)
  | lead (leader : Bool)
  | putMessage (m : Message)
  | pump (a : PumpAct)

/-- No call of `GetChannel` or `DeleteExistingChannel` is in progress. -/
def State.calm (s : State) : Bool := s.calls.all (· == .done)

/-- A `GetChannel` in progress has still to tell the pump. -/
def State.updatePending (s : State) : Prop := ∃ c ∈ s.calls, c.willUpdate = true

instance (s : State) : Decidable s.updatePending :=
  inferInstanceAs (Decidable (∃ c ∈ s.calls, c.willUpdate = true))

/-! ### Steps -/

def State.setCall (s : State) (k : ℕ) (c : Call) : State := { s with calls := s.calls.set k c }

/-- What a call does next by itself. -/
def State.advance (s : State) (k : ℕ) : Option State :=
  match s.calls[k]? with
  | some (.checking name) =>
    if (s.topic.channels.lookup name).isSome then some (s.setCall k .updating)
    else if s.leader then some (s.setCall k (.submitted name))
    else some (s.setCall k .updating)
  | some (.answered _) => some (s.setCall k .updating)
  | some (.deleting name) =>
    if s.leader then some (s.setCall k (.deleteSubmitted name)) else some (s.setCall k .done)
  | some .deleted => some { s with crashed := true }
  | _ => none

/-- The submission is given up; its entry may still be applied. -/
def State.fail (s : State) (k : ℕ) : Option State :=
  match s.calls[k]? with
  | some (.submitted _) => some (s.setCall k .updating)
  | some (.deleteSubmitted _) => some (s.setCall k .done)
  | _ => none

/-- The handlers. -/
def State.handle (s : State) : Entry → State
  | .newTopic => { s with current := false }
  | .newChannel name =>
    if s.current ∧ name ≠ "" then { s with topic := s.topic.newChannel name } else s
  | .deleteChannel name =>
    if s.current ∧ (s.topic.channels.lookup name).isSome then
      { s with topic := s.topic.deleteChannel name }
    else s

/-- The call `k` learns that its entry has been applied. -/
def State.answer (s : State) (e : Entry) (k : ℕ) : Option State :=
  match e, s.calls[k]? with
  | .newChannel name, some (.submitted name') =>
    if name = name' then some (s.setCall k (.answered name)) else none
  | .deleteChannel name, some (.deleteSubmitted name') =>
    if name = name' then some (s.setCall k .deleted) else none
  | _, _ => none

def State.apply (s : State) (e : Entry) : Option ℕ → Option State
  | some k => (s.answer e k).map fun s => s.handle e
  | none => some (s.handle e)

def State.update (s : State) (k : ℕ) : Option State :=
  match s.calls[k]? with
  | some .updating => s.topic.receiveUpdate.map fun t => { s with topic := t }.setCall k .done
  | _ => none

def step (memQueueSize : ℕ) (s : State) (a : Act) : Option State :=
  if s.crashed then none
  else
    match a with
    | .getChannel name => some { s with calls := s.calls ++ [.checking name] }
    | .deleteExistingChannel name => some { s with calls := s.calls ++ [.deleting name] }
    | .advance k => s.advance k
    | .fail k => s.fail k
    | .update k => s.update k
    | .apply e origin => s.apply e origin
    | .lead leader => some { s with leader := leader }
    | .putMessage m => some { s with topic := s.topic.put memQueueSize m }
    | .pump a => (s.topic.pumpStep s.calm a).map fun t => { s with topic := t }

/-! ### The condition -/

/-- The entry changes the topic's channels. -/
def State.changes (s : State) : Entry → Prop
  | .newTopic => False
  | .newChannel name => s.current ∧ name ≠ ""
  | .deleteChannel name => s.current ∧ (s.topic.channels.lookup name).isSome

instance : ∀ (s : State) (e : Entry), Decidable (s.changes e)
  | _, .newTopic => inferInstanceAs (Decidable False)
  | s, .newChannel name => inferInstanceAs (Decidable (s.current ∧ name ≠ ""))
  | s, .deleteChannel name =>
    inferInstanceAs (Decidable (s.current ∧ (s.topic.channels.lookup name).isSome))

/-- An entry that changes the channels is applied while a `GetChannel` has still to tell the pump. -/
def Announced (s : State) : Act → Prop
  | .apply e _ => s.changes e → s.updatePending
  | _ => True

instance : ∀ (s : State) (a : Act), Decidable (Announced s a)
  | s, .apply e _ => inferInstanceAs (Decidable (s.changes e → s.updatePending))
  | _, .getChannel _ => inferInstanceAs (Decidable True)
  | _, .deleteExistingChannel _ => inferInstanceAs (Decidable True)
  | _, .advance _ => inferInstanceAs (Decidable True)
  | _, .fail _ => inferInstanceAs (Decidable True)
  | _, .update _ => inferInstanceAs (Decidable True)
  | _, .lead _ => inferInstanceAs (Decidable True)
  | _, .putMessage _ => inferInstanceAs (Decidable True)
  | _, .pump _ => inferInstanceAs (Decidable True)

/-- The channels of a take: each channel of the topic once, and no other. -/
def ToAll (m : Moment) (l : List ChannelPtr) : Prop :=
  m.channels.values.Nodup ∧ (m.calm → l.Perm m.channels.values)

/-- The invariant. Outside its start and its readings, the pump has the topic's channels or will be
told. -/
structure Inv (s : State) : Prop where
  takes : Takes ToAll s.topic
  fresh : s.topic.pump ≠ .waiting → s.topic.pump ≠ .loading →
    s.topic.chans.Perm s.topic.channels.values ∨ s.updatePending
  nodup : s.topic.channels.values.Nodup
  bounded : ∀ p ∈ s.topic.channels.values, p < s.topic.nextChannel

section Steps

variable {s t : State} {memQueueSize : ℕ}

theorem init_inv (backend : BackendQueue) : Inv (init backend) where
  takes := ⟨nofun, nofun⟩
  fresh := fun h => absurd rfl h
  nodup := List.nodup_nil
  bounded := fun p hp => by cases hp

theorem not_updatePending_of_calm (h : s.calm = true) : ¬ s.updatePending := by
  rintro ⟨c, hc, hupdate⟩
  have hdone := List.all_eq_true.mp h c hc
  rw [beq_iff_eq] at hdone
  rw [hdone] at hupdate
  cases hupdate

/-- A call that moves on, and tells the pump if it was going to. -/
theorem updatePending_setCall {k : ℕ} {c c' : Call} (hk : s.calls[k]? = some c)
    (hc : c.willUpdate = true → c'.willUpdate = true) (h : s.updatePending) :
    (s.setCall k c').updatePending := by
  obtain ⟨d, hd, hupdate⟩ := h
  obtain ⟨j, hj⟩ := List.mem_iff_getElem?.mp hd
  obtain ⟨hlt, -⟩ := List.getElem?_eq_some_iff.mp hk
  by_cases hjk : j = k
  · rw [hjk, hk] at hj
    cases hj
    exact ⟨c', List.mem_iff_getElem?.mpr ⟨k, List.getElem?_set_self hlt⟩, hc hupdate⟩
  · refine ⟨d, List.mem_iff_getElem?.mpr ⟨j, ?_⟩, hupdate⟩
    show (s.calls.set k c')[j]? = some d
    rw [List.getElem?_set_ne (Ne.symm hjk), hj]

/-- A step that leaves the topic alone. -/
theorem Inv.of_topic (hi : Inv s) (htopic : t.topic = s.topic)
    (hpending : s.updatePending → t.updatePending) : Inv t where
  takes := by
    rw [htopic]
    exact hi.takes
  fresh := by
    rw [htopic]
    exact fun h1 h2 => (hi.fresh h1 h2).imp_right hpending
  nodup := by
    rw [htopic]
    exact hi.nodup
  bounded := by
    rw [htopic]
    exact hi.bounded

theorem Inv.setCall (hi : Inv s) {k : ℕ} {c c' : Call} (hk : s.calls[k]? = some c)
    (hc : c.willUpdate = true → c'.willUpdate = true) : Inv (s.setCall k c') :=
  hi.of_topic rfl (updatePending_setCall hk hc)

theorem Inv.advance (hi : Inv s) {k : ℕ} (h : s.advance k = some t) : Inv t := by
  unfold State.advance at h
  split at h
  · rename_i name hk
    split at h
    · cases h
      exact hi.setCall hk fun _ => rfl
    · split at h
      · cases h
        exact hi.setCall hk fun _ => rfl
      · cases h
        exact hi.setCall hk fun _ => rfl
  · rename_i hk
    cases h
    exact hi.setCall hk fun _ => rfl
  · rename_i name hk
    split at h
    · cases h
      exact hi.setCall hk nofun
    · cases h
      exact hi.setCall hk nofun
  · cases h
    exact hi.of_topic rfl fun h => h
  · cases h

theorem Inv.fail (hi : Inv s) {k : ℕ} (h : s.fail k = some t) : Inv t := by
  unfold State.fail at h
  split at h
  · rename_i hk
    cases h
    exact hi.setCall hk fun _ => rfl
  · rename_i hk
    cases h
    exact hi.setCall hk nofun
  · cases h

/-- The call that is answered keeps what it is going to do. -/
theorem answer_eq {e : Entry} {k : ℕ} (h : s.answer e k = some t) :
    ∃ c c', s.calls[k]? = some c ∧ (c.willUpdate = true → c'.willUpdate = true) ∧
      t = s.setCall k c' := by
  unfold State.answer at h
  split at h
  · rename_i name name' hk
    obtain ⟨-, ht⟩ := Option.ite_none_right_eq_some.mp h
    exact ⟨_, _, hk, fun _ => rfl, (Option.some.inj ht).symm⟩
  · rename_i name name' hk
    obtain ⟨-, ht⟩ := Option.ite_none_right_eq_some.mp h
    exact ⟨_, _, hk, nofun, (Option.some.inj ht).symm⟩
  · cases h

/-! ### The handlers -/

theorem values_insert (channels : GoMap String ChannelPtr) (name : String) (p : ChannelPtr) :
    GoMap.values (channels.insert name p) = p :: GoMap.values (channels.erase name) := by
  rw [GoMap.values, AList.entries_insert]
  rfl

theorem values_erase_sublist (channels : GoMap String ChannelPtr) (name : String) :
    (GoMap.values (channels.erase name)).Sublist channels.values := by
  show ((List.kerase name channels.entries).map Sigma.snd).Sublist (channels.entries.map Sigma.snd)
  exact (List.kerase_sublist name channels.entries).map Sigma.snd

/-- The handlers keep channels apart, and change them only where the pump will be told. -/
theorem Inv.handle (hi : Inv s) {e : Entry} (hpending : s.changes e → s.updatePending) :
    Inv (s.handle e) := by
  cases e with
  | newTopic => exact hi.of_topic rfl fun h => h
  | newChannel name =>
      by_cases hname : s.current ∧ name ≠ ""
      · rw [State.handle, if_pos hname]
        have hsub := values_erase_sublist s.topic.channels name
        have hvalues := values_insert s.topic.channels name s.topic.nextChannel
        exact
          { takes := hi.takes.of_eq rfl fun _ _ heq => heq
            fresh := fun _ _ => Or.inr (hpending hname)
            nodup := by
              show (GoMap.values (s.topic.channels.insert name s.topic.nextChannel)).Nodup
              rw [hvalues]
              refine List.nodup_cons.mpr ⟨fun hmem => ?_, hi.nodup.sublist hsub⟩
              exact Nat.lt_irrefl _ (hi.bounded _ (hsub.subset hmem))
            bounded := by
              intro p hp
              have hp : p ∈ GoMap.values (s.topic.channels.insert name s.topic.nextChannel) := hp
              rw [hvalues] at hp
              rcases List.mem_cons.mp hp with rfl | hp
              · exact Nat.lt_succ_self _
              · exact Nat.lt_succ_of_lt (hi.bounded p (hsub.subset hp)) }
      · rw [State.handle, if_neg hname]
        exact hi
  | deleteChannel name =>
      by_cases hname : s.current ∧ (s.topic.channels.lookup name).isSome
      · rw [State.handle, if_pos hname]
        have hsub := values_erase_sublist s.topic.channels name
        exact
          { takes := hi.takes.of_eq rfl fun _ _ heq => heq
            fresh := fun _ _ => Or.inr (hpending hname)
            nodup := hi.nodup.sublist hsub
            bounded := fun p hp => hi.bounded p (hsub.subset hp) }
      · rw [State.handle, if_neg hname]
        exact hi

theorem Inv.apply (hi : Inv s) {e : Entry} {origin : Option ℕ}
    (hpending : s.changes e → s.updatePending) (h : s.apply e origin = some t) : Inv t := by
  cases origin with
  | none =>
      cases h
      exact hi.handle hpending
  | some k =>
      obtain ⟨u, hu, rfl⟩ := Option.map_eq_some_iff.mp h
      obtain ⟨c, c', hk, hc, rfl⟩ := answer_eq hu
      refine (hi.setCall hk hc).handle fun hchanges => ?_
      refine updatePending_setCall hk hc (hpending ?_)
      cases e <;> exact hchanges

/-! ### The pump -/

theorem Inv.putMessage (hi : Inv s) (m : Message) :
    Inv { s with topic := s.topic.put memQueueSize m } := by
  rw [Topic.put]
  split
  · exact ⟨hi.takes.of_eq rfl fun _ _ heq => heq, hi.fresh, hi.nodup, hi.bounded⟩
  · exact ⟨hi.takes.of_eq rfl fun _ _ heq => heq, hi.fresh, hi.nodup, hi.bounded⟩

/-- A pump that takes a message while nobody will tell it of a change has the topic's channels. -/
theorem Inv.toAll (hi : Inv s) (hpump : s.topic.pump = .selecting) (m : Message) :
    ToAll ⟨m, s.topic.channels, s.topic.paused, s.calm⟩ s.topic.chans := by
  refine ⟨hi.nodup, fun hcalm => ?_⟩
  have hfresh := hi.fresh (by rw [hpump]; nofun) (by rw [hpump]; nofun)
  exact hfresh.resolve_right (not_updatePending_of_calm hcalm)

theorem Inv.pump (hi : Inv s) {u : Topic} (h : PumpStep s.calm s.topic u) :
    Inv { s with topic := u } := by
  have htakes := hi.takes.pumpStep h fun hpump _ m => hi.toAll hpump m
  cases h with
  | start hpump => exact ⟨htakes, fun _ h => absurd rfl h, hi.nodup, hi.bounded⟩
  | load order hpump hperm => exact ⟨htakes, fun _ _ => Or.inl hperm, hi.nodup, hi.bounded⟩
  | takeMemory m rest hpump hsources =>
      have hfresh := hi.fresh (by rw [hpump]; nofun) (by rw [hpump]; nofun)
      exact ⟨htakes, fun _ _ => hfresh, hi.nodup, hi.bounded⟩
  | takeBackend m backend hpump hsources =>
      have hfresh := hi.fresh (by rw [hpump]; nofun) (by rw [hpump]; nofun)
      exact ⟨htakes, fun _ _ => hfresh, hi.nodup, hi.bounded⟩
  | badRecord backend hpump => exact ⟨htakes, hi.fresh, hi.nodup, hi.bounded⟩
  | put take p todo m hpump hm =>
      have hfresh := hi.fresh (by rw [hpump]; nofun) (by rw [hpump]; nofun)
      exact ⟨htakes, fun _ _ => hfresh, hi.nodup, hi.bounded⟩
  | putAll take hpump =>
      have hfresh := hi.fresh (by rw [hpump]; nofun) (by rw [hpump]; nofun)
      exact ⟨htakes, fun _ _ => hfresh, hi.nodup, hi.bounded⟩

/-- The call tells the pump, which does not take a message before it has read the channels. -/
theorem Inv.update (hi : Inv s) {k : ℕ} (h : s.update k = some t) : Inv t := by
  unfold State.update at h
  split at h
  · obtain ⟨u, hu, rfl⟩ := Option.map_eq_some_iff.mp h
    rcases receiveUpdate_cases hu with ⟨hpump, rfl⟩ | ⟨-, rfl⟩
    · exact ⟨hi.takes, fun h => absurd hpump h, hi.nodup, hi.bounded⟩
    · exact ⟨hi.takes.of_eq rfl fun _ _ heq => (by cases heq), fun _ h => absurd rfl h, hi.nodup,
        hi.bounded⟩
  · cases h

/-- **One step.** -/
theorem Inv.step (hi : Inv s) {a : Act} (hgood : Announced s a)
    (h : step memQueueSize s a = some t) : Inv t := by
  obtain ⟨-, h⟩ := Option.ite_none_left_eq_some.mp h
  cases a with
  | getChannel name =>
      cases h
      exact hi.of_topic rfl fun ⟨c, hc, hupdate⟩ => ⟨c, List.mem_append_left _ hc, hupdate⟩
  | deleteExistingChannel name =>
      cases h
      exact hi.of_topic rfl fun ⟨c, hc, hupdate⟩ => ⟨c, List.mem_append_left _ hc, hupdate⟩
  | advance k => exact hi.advance h
  | fail k => exact hi.fail h
  | update k => exact hi.update h
  | apply e origin => exact hi.apply hgood h
  | lead leader =>
      cases h
      exact hi.of_topic rfl fun h => h
  | putMessage m =>
      cases h
      exact hi.putMessage m
  | pump a =>
      obtain ⟨u, hu, rfl⟩ := Option.map_eq_some_iff.mp h
      exact hi.pump (pumpStep_cases hu)

end Steps

/-! ### Fan-out -/

/-- The message of the take, or a copy of it, was put once to each channel that the topic had, and to no
other. -/
structure FannedOut (take : Take) : Prop where
  nodup : take.moment.channels.values.Nodup
  channels : (take.puts.map Prod.fst).Perm take.moment.channels.values
  copies : ∀ p ∈ take.puts, SameMessage take.moment.msg p.2

/-- **Fan-out.** In a run whose entries all come while a `GetChannel` has still to tell the pump, every
message that the pump takes while no call is in progress reaches exactly the channels of the topic. -/
theorem fanned_out (memQueueSize : ℕ) (backend : BackendQueue) {acts : List Act} {s : State}
    (hgood : Runs.Along (step memQueueSize) Announced (init backend) acts)
    (hr : Runs.run (step memQueueSize) (init backend) acts = some s) :
    ∀ take ∈ s.topic.taken, take.moment.calm = true → FannedOut take := by
  intro take hmem hcalm
  have hi := Runs.invariant_along (fun _ _ _ hi hgood h => hi.step hgood h) acts _ s
    (init_inv backend) hgood hr
  obtain ⟨⟨hnodup, hall⟩, hcopies⟩ := hi.takes.taken take hmem
  exact ⟨hnodup, hall hcalm, hcopies⟩

/-- A leader's call of `GetChannel` and a message: the pump has read the new channel. -/
def announcedRun : List Act :=
  [.pump .start, .pump (.load []), .lead true, .getChannel "a", .advance 0,
    .apply (.newChannel "a") (some 0), .advance 0, .update 0, .pump (.load [0]),
    .putMessage (newMessage (Vector.replicate 16 1) [7] 5), .pump .takeMemory, .pump (.put 9),
    .pump (.put 9)]

theorem fanned_out_announced : ∃ s,
    Runs.run (step 1) (init (BackendQueue.diskQueue fun _ => none)) announcedRun = some s ∧
      s.topic.taken.length = 1 ∧
      ∀ take ∈ s.topic.taken, take.moment.calm = true → FannedOut take := by
  obtain ⟨s, hr, hone⟩ := Runs.exists_of_run (step 1)
    (init (BackendQueue.diskQueue fun _ => none)) announcedRun (fun s => s.topic.taken.length = 1)
    (by decide)
  exact ⟨s, hr, hone, fanned_out 1 _ (by decide) hr⟩

/-- The node has become a follower, and the leader creates a second channel: a message that comes then
goes to the first one only. -/
theorem fan_out_misses : ∃ s,
    Runs.run (step 1) (init (BackendQueue.diskQueue fun _ => none))
      [.pump .start, .pump (.load []), .lead true, .getChannel "a", .advance 0,
        .apply (.newChannel "a") (some 0), .advance 0, .update 0, .pump (.load [0]), .lead false,
        .apply (.newChannel "b") none, .putMessage (newMessage (Vector.replicate 16 1) [7] 5),
        .pump .takeMemory, .pump (.put 9), .pump (.put 9)] = some s ∧
      ¬ ∀ take ∈ s.topic.taken, take.moment.calm = true → FannedOut take := by
  obtain ⟨s, hr, take, hmem, hcalm, hputs, hvalues⟩ := Runs.exists_of_run (step 1)
    (init (BackendQueue.diskQueue fun _ => none))
    [.pump .start, .pump (.load []), .lead true, .getChannel "a", .advance 0,
      .apply (.newChannel "a") (some 0), .advance 0, .update 0, .pump (.load [0]), .lead false,
      .apply (.newChannel "b") none, .putMessage (newMessage (Vector.replicate 16 1) [7] 5),
      .pump .takeMemory, .pump (.put 9), .pump (.put 9)]
    (fun s => ∃ take ∈ s.topic.taken, take.moment.calm = true ∧ take.puts.length = 1 ∧
      take.moment.channels.values.length = 2) (by decide)
  refine ⟨s, hr, fun hall => ?_⟩
  have hlen := (hall take hmem hcalm).channels.length_eq
  rw [List.length_map, hputs, hvalues] at hlen
  cases hlen

end Xmq.FanOut
